import SheetCipher.Proofs.Eval.Meaning

/-!
# Evaluation — a formula that has been read, as a script

A term stands for an expression of a script without functions (`expression`).
What is known of the expression beforehand is what settling makes of the term
(`outlook_expression`), and running it comes to what working the settled term
out comes to (`expression_eq`): the run has no effect but its value, and it
takes no more steps inside one another than the term has levels (`steps`).
-/

namespace SheetCipher

namespace Term

mutual

/-- A term as the expression of a script. -/
def expression : Term → Script.Expression
  | literal v => .constant v
  | call f args => .call false [] f.name (expressions args)
  | all terms => .all (expressions terms)
  | binary op lhs rhs => .operation op lhs.expression rhs.expression
  | cond condition thenTerm elseTerm =>
    .statement (.choice condition.expression (.block [.evaluate thenTerm.expression])
      (.block [.evaluate elseTerm.expression]))

/-- Several terms as the expressions of a script. -/
def expressions : List Term → List Script.Expression
  | [] => []
  | t :: ts => t.expression :: expressions ts

end

mutual

/-- How many steps inside one another the expression of a term takes. -/
def steps : Term → Nat
  | literal _ => 1
  | call _ args => stepsOfAll args + 1
  | all terms => stepsOfAll terms + 1
  | binary _ lhs rhs => max lhs.steps rhs.steps + 1
  | cond condition thenTerm elseTerm =>
    max (condition.steps + 2) (max thenTerm.steps elseTerm.steps + 4)

/-- How many steps inside one another the longest of several terms takes. -/
def stepsOfAll : List Term → Nat
  | [] => 0
  | t :: ts => max t.steps (stepsOfAll ts)

end

theorem expressions_eq_map (ts : List Term) : expressions ts = ts.map expression := by
  induction ts with
  | nil => rfl
  | cons t ts ih => rw [expressions, ih, List.map_cons]

theorem steps_pos (t : Term) : 0 < t.steps := by
  cases t <;> simp only [steps] <;> omega

/-! ## What is known beforehand -/

/-- The value of a term that is settled. -/
def settled? : Term → Option Value
  | literal v => some v
  | _ => none

/-- What is known of a term that has been settled as far as it can be. -/
def outlook (t : Term) : Script.Outlook := ⟨t.settled?, t.isInert⟩

theorem isBool_outlook (b : Bool) (t : Term) : t.outlook.isBool b = t.isBool b := by
  cases t <;> rfl

theorem areInert_eq_all (ts : List Term) :
    areInert ts = (ts.map outlook).all Script.Outlook.isInert := by
  induction ts with
  | nil => rfl
  | cons t ts ih => rw [areInert, ih]; rfl

theorem isSettledBy_outlooks (ts : List Term) :
    Script.Outlook.isSettledBy false (ts.map outlook) = isRefuted ts := by
  induction ts with
  | nil => rfl
  | cons t ts ih =>
      rw [List.map_cons, Script.Outlook.isSettledBy, ih, isBool_outlook, isRefuted]
      rfl

theorem junction_outlooks (ts : List Term) :
    Script.Outlook.junction true (ts.map outlook) = (conjunction ts).outlook := by
  have hfilter : (ts.map outlook).filter (fun o => !o.isBool true) =
      (ts.filter fun t => !t.isBool true).map outlook := by
    rw [List.filter_map]
    simp only [Function.comp_def, isBool_outlook]
  rw [Script.Outlook.junction, hfilter, conjunction]
  generalize ts.filter (fun t => !t.isBool true) = counting
  rcases counting with _ | ⟨t, _ | ⟨t', ts⟩⟩
  · rfl
  · rfl
  · have hrefuted := isSettledBy_outlooks (t :: t' :: ts)
    simp only [List.map_cons, Bool.not_true] at hrefuted ⊢
    rw [hrefuted]
    cases isRefuted (t :: t' :: ts) with
    | true => rfl
    | false =>
        rw [if_neg Bool.false_ne_true, if_neg Bool.false_ne_true, ← List.map_cons,
          ← List.map_cons, ← areInert_eq_all]
        rfl

theorem operation_outlook (op : ValueOperator) (a b : Term) :
    Script.Outlook.operation op a.outlook b.outlook = (operation op a b).outlook := by
  cases a with
  | literal v =>
      cases b with
      | literal v' =>
          simp only [Script.Outlook.operation, outlook, settled?, operation]
          split
          · cases op.apply v v' <;> rfl
          · rfl
      | _ => rfl
  | _ => rfl

theorem choice_outlook (c a b : Term) :
    Script.Outlook.choice c.outlook a.outlook b.outlook = (choice c a b).outlook := by
  cases c with
  | literal v =>
      cases v with
      | bool value => cases value <;> rfl
      | _ => rfl
  | _ => rfl

mutual

/-- What is known of the expression of a term is what settling makes of the
term. -/
theorem outlook_expression : ∀ t : Term, t.expression.outlook = t.simplify.outlook
  | literal v => rfl
  | call f args => rfl
  | all terms => by
      rw [expression, Script.Expression.outlook, outlooks_expressions, junction_outlooks, simplify]
  | binary op lhs rhs => by
      rw [expression, Script.Expression.outlook, outlook_expression lhs, outlook_expression rhs,
        operation_outlook, simplify]
  | cond condition thenTerm elseTerm => by
      rw [expression, Script.Expression.outlook]
      simp only [Script.Statement.outlook]
      rw [outlook_expression condition, outlook_expression thenTerm, outlook_expression elseTerm,
        choice_outlook, simplify]

theorem outlooks_expressions : ∀ ts : List Term,
    Script.outlooks (expressions ts) = (simplifyAll ts).map outlook
  | [] => rfl
  | t :: ts => by
      rw [expressions, Script.outlooks, outlook_expression t, outlooks_expressions ts, simplifyAll,
        List.map_cons]

end

end Term

namespace Script

/-! ## Runs without an effect -/

namespace Run

variable {α β : Type}

theorem ofExcept_bind (x : Except Fault α) (f : α → Except Fault β) :
    (ofExcept x >>= fun a => ofExcept (f a)) = ofExcept (x >>= f) := by
  cases x <;> rfl

theorem enclosed_ofExcept (x : Except Fault α) : enclosed (ofExcept x) = ofExcept x := by
  cases x <;> rfl

theorem truth_eq (v : Value) : truth v = ofExcept v.asBool := by
  cases v <;> rfl

end Run

open Run

/-- A world without functions of the script. -/
def World.IsBare (w : World) : Prop := w.functions = []

theorem World.IsBare.function?_eq {w : World} (h : w.IsBare) (name : String) (arity : Nat) :
    w.function? name arity = none := by
  rw [World.function?, h]
  rfl

theorem ofName?_name (f : Callee) : Callee.ofName? f.name = some f := by
  cases f with
  | builtin f => cases f <;> decide
  | _ => decide

theorem onList?_name (r : Runner) (w : World) (f : Callee) (args : List Value) :
    r.onList? w f.name args = none := by
  unfold Runner.onList?
  split
  · cases f with
    | builtin f => cases f <;> rfl
    | _ => rfl
  · cases f with
    | builtin f => cases f <;> rfl
    | _ => rfl
  · rfl

theorem native_name (w : World) (f : Callee) (args : List Value) :
    Runner.native w f.name args =
      ofExcept (do return (← f.apply w.sheets w.values args, none)) := by
  have hnative : Runner.native w f.name args =
      do return (← ofExcept (f.apply w.sheets w.values args), none) := by
    unfold Runner.native
    rw [ofName?_name]
  rw [hnative]
  cases f.apply w.sheets w.values args <;> rfl

/-- What formulas call goes to the sheet. -/
theorem call_name {w : World} (h : w.IsBare) (r : Runner) (f : Callee) (args : List Value) :
    r.call w false f.name args =
      ofExcept (do return (← f.apply w.sheets w.values args, none)) := by
  rw [Runner.call, h.function?_eq]
  change (r.onList? w f.name args).getD (Runner.native w f.name args) = _
  rw [onList?_name, Option.getD_none, native_name]

end Script

namespace Term

theorem isVariable_expression (t : Term) : Script.Reader.isVariable t.expression = false := by
  cases t <;> rfl

end Term

namespace Script

open Run

theorem callPath_name {w : World} (h : w.IsBare) (r : Runner) (f : Callee) (ts : List Term) :
    r.callPath w false [] f.name (Term.expressions ts) =
      r.expressions w (Term.expressions ts) >>= fun args =>
        Run.ofExcept (f.apply w.sheets w.values args) := by
  have hname : f.name ≠ "is_shared" ∧ f.name ∉ callableWords := by
    cases f with
    | builtin f => cases f <;> decide
    | _ => decide
  have hcall : ∀ args : List Value, (do return (← r.call w false f.name args).1) =
      Run.ofExcept (f.apply w.sheets w.values args) := by
    intro args
    rw [call_name h]
    cases f.apply w.sheets w.values args <;> rfl
  unfold Runner.callPath
  rw [List.isEmpty_nil, Bool.not_true, if_neg Bool.false_ne_true, if_neg hname.1, if_neg hname.2]
  cases ts with
  | nil => exact hcall []
  | cons t ts =>
      rw [Term.expressions, Runner.callNamed, Term.isVariable_expression]
      exact bind_congr fun args => hcall args

/-! ## The run of a term -/

/-- A runner that does with the expressions of some terms what working the
settled terms out does. -/
def Runner.Agrees (r : Runner) (w : World) (ts : List Term) : Prop :=
  ∀ t ∈ ts, r.expression w t.expression = Run.ofExcept (t.simplify.eval w.sheets w.values)

section

variable {r : Runner} {w : World} {t : Term} {ts : List Term}

theorem Runner.Agrees.expressions_eq (h : r.Agrees w ts) :
    r.expressions w (Term.expressions ts) =
      Run.ofExcept (Term.evalArgs w.sheets w.values (Term.simplifyAll ts)) := by
  induction ts with
  | nil => rfl
  | cons t ts ih =>
      obtain ⟨ht, hts⟩ := List.forall_mem_cons.1 h
      have ih := ih hts
      rw [Runner.expressions] at ih ⊢
      rw [Term.expressions, List.mapM_cons, ht, ih, Term.simplifyAll, Term.evalArgs]
      cases t.simplify.eval w.sheets w.values with
      | error fault => rfl
      | ok v => cases Term.evalArgs w.sheets w.values (Term.simplifyAll ts) <;> rfl

theorem Runner.Agrees.junctionFrom_eq (h : r.Agrees w ts) :
    r.junctionFrom w true (Term.expressions ts) =
      Run.ofExcept (Term.holdAll w.sheets w.values (Term.simplifyAll ts)) := by
  induction ts with
  | nil => rfl
  | cons t ts ih =>
      obtain ⟨ht, hts⟩ := List.forall_mem_cons.1 h
      rw [Term.expressions, Runner.junctionFrom, Runner.holds, ht, ih hts, Term.simplifyAll,
        Term.holdAll]
      cases t.simplify.eval w.sheets w.values with
      | error fault => rfl
      | ok v =>
          change (truth v >>= _) = _
          rw [truth_eq]
          change _ = Run.ofExcept (v.asBool >>= _)
          cases v.asBool with
          | error fault => rfl
          | ok b => cases b <;> rfl

theorem Runner.Agrees.junction_eq (h : r.Agrees w ts) :
    r.junction w true (Term.expressions ts) =
      Run.ofExcept ((Term.conjunction (Term.simplifyAll ts)).eval w.sheets w.values) := by
  let counts : Term → Bool := fun t => !t.simplify.isBool true
  have hfilter : (Term.expressions ts).filter (fun e => !e.outlook.isBool true) =
      Term.expressions (ts.filter counts) := by
    rw [Term.expressions_eq_map, Term.expressions_eq_map, List.filter_map]
    simp only [Function.comp_def, Term.outlook_expression, Term.isBool_outlook, counts]
  have hsettled : (Term.simplifyAll ts).filter (fun t => !t.isBool true) =
      Term.simplifyAll (ts.filter counts) := by
    rw [Term.simplifyAll_eq, Term.simplifyAll_eq, List.filter_map]
    rfl
  have h : r.Agrees w (ts.filter counts) := fun t ht => h t (List.mem_filter.1 ht).1
  rw [Runner.junction, hfilter, Term.conjunction, hsettled]
  generalize ts.filter counts = counting at h
  rcases counting with _ | ⟨t, _ | ⟨t', ts⟩⟩
  · rfl
  · exact h t (List.mem_singleton_self t)
  · have hrefuted := Term.isSettledBy_outlooks (Term.simplifyAll (t :: t' :: ts))
    have hjunction := h.junctionFrom_eq
    rw [← Term.outlooks_expressions] at hrefuted
    simp only [Term.expressions, Term.simplifyAll, Bool.not_true] at hrefuted hjunction ⊢
    rw [hrefuted, hjunction]
    split
    · rfl
    · rw [Term.eval]
      cases Term.holdAll w.sheets w.values
        (t.simplify :: t'.simplify :: Term.simplifyAll ts) <;> rfl

end

theorem statement_block_eq {w : World} {steps : Nat} {e : Expression} {x : Except Fault Value}
    (h : expression steps { w with isTop := false } e = Run.ofExcept x) :
    statement (steps + 2) w (.block [.evaluate e]) = Run.ofExcept x := by
  rw [statement]
  change enclosed (expression steps { w with isTop := false } e) = _
  rw [h, enclosed_ofExcept]

theorem statement_choice_eq {w : World} {steps : Nat} {e : Expression} {a b : Statement}
    {x y z : Except Fault Value} (hcondition : expression steps w e = Run.ofExcept x)
    (hthen : statement steps w a = Run.ofExcept y) (helse : statement steps w b = Run.ofExcept z) :
    statement (steps + 1) w (.choice e a b) =
      Run.ofExcept (do if ← (← x).asBool then y else z) := by
  rw [statement]
  change ((expression steps w e >>= truth) >>= fun holds =>
    if holds then statement steps w a else statement steps w b) = _
  rw [hcondition, hthen, helse]
  cases x with
  | error fault => rfl
  | ok v =>
      change (truth v >>= _) = _
      rw [truth_eq]
      change _ = Run.ofExcept (v.asBool >>= _)
      cases v.asBool with
      | error fault => rfl
      | ok b => cases b <;> rfl

mutual

/-- **A formula that has been read runs to its value**: the expression of a term
comes to what the settled term comes to, and leaves everything else as it
is. -/
theorem expression_eq : ∀ {t : Term} {w : World} {steps : Nat}, w.IsBare → t.steps ≤ steps →
    expression steps w t.expression = Run.ofExcept (t.simplify.eval w.sheets w.values)
  | t, w, 0, _, h => absurd h (Nat.not_le.2 t.steps_pos)
  | .literal v, w, steps + 1, _, _ => rfl
  | .call f args, w, steps + 1, hw, h => by
      have hargs := agrees_of_steps hw (Nat.le_of_succ_le_succ h)
      rw [Term.expression, expression, callPath_name hw, hargs.expressions_eq, Run.ofExcept_bind,
        Term.simplify, Term.eval]
  | .all terms, w, steps + 1, hw, h => by
      have hterms := agrees_of_steps hw (Nat.le_of_succ_le_succ h)
      rw [Term.expression, expression, hterms.junction_eq, Term.simplify]
  | .binary op lhs rhs, w, steps + 1, hw, h => by
      obtain ⟨hlhs, hrhs⟩ := Nat.max_le.1 (Nat.le_of_succ_le_succ h)
      rw [Term.expression, expression]
      change (expression steps w lhs.expression >>= fun a =>
        expression steps w rhs.expression >>= fun b => Run.ofExcept (op.apply a b)) = _
      simp only [expression_eq hw hlhs, expression_eq hw hrhs, Run.ofExcept_bind]
      rw [Term.simplify, Term.eval_operation, Term.eval]
  | .cond condition thenTerm elseTerm, w, steps + 1, hw, h => by
      obtain ⟨hcondition, hbranches⟩ := Nat.max_le.1 h
      obtain ⟨steps, rfl⟩ : ∃ n, steps = n + 3 := Nat.exists_eq_add_of_le' (by omega)
      obtain ⟨hthen, helse⟩ := Nat.max_le.1 (Nat.le_of_add_le_add_right hbranches)
      have hcondition : condition.steps ≤ steps + 2 := Nat.le_of_add_le_add_right hcondition
      have hbare : World.IsBare { w with isTop := false } := hw
      rw [Term.expression, expression]
      change statement (steps + 3) w (.choice _ _ _) = _
      rw [statement_choice_eq (expression_eq hw hcondition)
        (statement_block_eq (expression_eq hbare hthen))
        (statement_block_eq (expression_eq hbare helse)), Term.simplify, Term.eval_choice,
        Term.eval]

theorem agrees_of_steps : ∀ {ts : List Term} {w : World} {steps : Nat}, w.IsBare →
    Term.stepsOfAll ts ≤ steps →
      (Runner.mk steps (expression steps) (statement steps)).Agrees w ts
  | [], _, _, _, _ => nofun
  | t :: ts, _, _, hw, h => by
      obtain ⟨ht, hts⟩ := Nat.max_le.1 h
      exact List.forall_mem_cons.2 ⟨expression_eq hw ht, agrees_of_steps hw hts⟩

end

end Script

/-! ## The steps of a formula -/

namespace Term

theorem stepsOfAll_append (ts ts' : List Term) :
    stepsOfAll (ts ++ ts') = max (stepsOfAll ts) (stepsOfAll ts') := by
  induction ts with
  | nil => rw [List.nil_append, stepsOfAll, Nat.zero_max]
  | cons t ts ih => rw [List.cons_append, stepsOfAll, stepsOfAll, ih, Nat.max_assoc]

theorem stepsOfAll_conjuncts_le (t : Term) : stepsOfAll t.conjuncts ≤ t.steps := by
  cases t with
  | all terms => exact Nat.le_succ _
  | _ => exact Nat.le_of_eq (Nat.max_zero _)

theorem eq_of_both {lhs rhs t : Term} (h : lhs.both rhs = .ok t) :
    t = all (lhs.conjuncts ++ rhs.conjuncts) := by
  obtain ⟨_, _, h⟩ := exists_of_bind h
  obtain ⟨_, _, h⟩ := exists_of_bind h
  cases h
  rfl

end Term

namespace Formula

theorem spend_eq_ok {needed room left : Nat} (h : spend needed room = .ok left) :
    left + needed = room := by
  rw [spend] at h
  split at h
  · cases h
    omega
  · cases h

mutual

/-- **The levels of a formula bound the steps of its run.** -/
theorem steps_le_of_read : ∀ {e : Formula} {room : Nat} {t : Term}, e.read room = .ok t →
    t.steps ≤ room + 1
  | text s, room, t, h => by
      simp only [read, readText] at h
      split at h
      · cases h
      · cases h
        exact Nat.le_add_left _ _
  | int n, room, t, h => by
      cases h
      exact Nat.le_add_left _ _
  | cell ref _, room, t, h => by
      obtain ⟨inner, hinner, h⟩ := exists_of_bind h
      have hinner := spend_eq_ok hinner
      cases h
      simp only [Term.cell, Term.number, Term.steps, Term.stepsOfAll, nestingRoom] at *
      omega
  | call f args, room, t, h => by
      obtain ⟨_, _, h⟩ := exists_of_bind h
      obtain ⟨ts, hts, h⟩ := exists_of_bind h
      cases h
      have hsteps := stepsOfAll_le_of_readArgs hts
      rw [Term.steps]
      omega
  | all [], room, t, h => by
      cases h
      exact Nat.le_add_left _ _
  | all (e :: es), room, t, h => by
      obtain ⟨inner, hinner, h⟩ := exists_of_bind h
      obtain ⟨first, hfirst, h⟩ := exists_of_bind h
      have hinner := spend_eq_ok hinner
      have hfirst := steps_le_of_read hfirst
      have hsteps := steps_le_of_readConjuncts h (Nat.le_refl _) (Nat.le_succ_of_le hfirst)
        (Nat.le_trans first.stepsOfAll_conjuncts_le hfirst)
      rw [nestingRoom] at hinner
      omega
  | binary op lhs rhs, room, t, h => by
      obtain ⟨inner, hinner, h⟩ := exists_of_bind h
      obtain ⟨a, ha, h⟩ := exists_of_bind h
      obtain ⟨b, hb, h⟩ := exists_of_bind h
      obtain ⟨_, _, h⟩ := exists_of_bind h
      cases h
      have hinner := spend_eq_ok hinner
      have ha := steps_le_of_read ha
      have hb := steps_le_of_read hb
      rw [nestingRoom] at hinner
      rw [Term.steps]
      omega
  | cond condition thenForm elseForm, room, t, h => by
      obtain ⟨inner, hinner, h⟩ := exists_of_bind h
      obtain ⟨c, hc, h⟩ := exists_of_bind h
      obtain ⟨_, _, h⟩ := exists_of_bind h
      obtain ⟨branch, hbranch, h⟩ := exists_of_bind h
      obtain ⟨a, ha, h⟩ := exists_of_bind h
      obtain ⟨b, hb, h⟩ := exists_of_bind h
      cases h
      have hinner := spend_eq_ok hinner
      have hbranch := spend_eq_ok hbranch
      have hc := steps_le_of_read hc
      have ha := steps_le_of_read ha
      have hb := steps_le_of_read hb
      rw [conditionRoom] at hinner
      rw [branchRoom] at hbranch
      rw [Term.steps]
      omega
  | indirect col row, room, t, h => by
      obtain ⟨inner, hinner, h⟩ := exists_of_bind h
      obtain ⟨a, ha, h⟩ := exists_of_bind h
      cases h
      have hinner := spend_eq_ok hinner
      have ha := steps_le_of_read ha
      simp only [Term.indirect, Term.number, Term.steps, Term.stepsOfAll, nestingRoom] at *
      omega
  | index block position, room, t, h => by
      obtain ⟨inner, hinner, h⟩ := exists_of_bind h
      obtain ⟨a, ha, h⟩ := exists_of_bind h
      cases h
      have hinner := spend_eq_ok hinner
      have ha := steps_le_of_read ha
      simp only [Term.index, Term.number, Term.steps, Term.stepsOfAll, nestingRoom] at *
      omega

theorem stepsOfAll_le_of_readArgs : ∀ {es : List Formula} {room : Nat} {ts : List Term},
    readArgs room es = .ok ts → Term.stepsOfAll ts ≤ room
  | [], room, ts, h => by
      cases h
      exact Nat.zero_le _
  | e :: es, room, ts, h => by
      obtain ⟨inner, hinner, h⟩ := exists_of_bind h
      obtain ⟨t, ht, h⟩ := exists_of_bind h
      obtain ⟨ts', hts, h⟩ := exists_of_bind h
      cases h
      have hinner := spend_eq_ok hinner
      have ht := steps_le_of_read ht
      have hts := stepsOfAll_le_of_readArgs hts
      rw [nestingRoom] at hinner
      rw [Term.stepsOfAll]
      omega

/-- An `AND` is one step more than its arguments, however many there are. -/
theorem steps_le_of_readConjuncts : ∀ {es : List Formula} {room most : Nat} {before t : Term},
    readConjuncts room before es = .ok t → room + 1 ≤ most → before.steps ≤ most + 1 →
      Term.stepsOfAll before.conjuncts ≤ most → t.steps ≤ most + 1
  | [], room, most, before, t, h, _, hbefore, _ => by
      cases h
      exact hbefore
  | e :: es, room, most, before, t, h, hroom, _, hconjuncts => by
      obtain ⟨next, hnext, h⟩ := exists_of_bind h
      obtain ⟨rest, hrest, h⟩ := exists_of_bind h
      obtain ⟨joined, hjoined, h⟩ := exists_of_bind h
      have hrest := spend_eq_ok hrest
      have hnext := steps_le_of_read hnext
      have hall := next.stepsOfAll_conjuncts_le
      have hterms : Term.stepsOfAll (before.conjuncts ++ next.conjuncts) ≤ most := by
        rw [Term.stepsOfAll_append]
        omega
      rw [Term.eq_of_both hjoined] at h
      exact steps_le_of_readConjuncts h (by omega) (Nat.succ_le_succ hterms) hterms

end

end Formula

namespace Script

/-- A script that is read as the expression of a formula has the value of the
formula. -/
theorem value_of_read {script : List Char} {e : Formula} {t : Term} (sheets : Sheets)
    (values : Values) (he : e.read Formula.fullRoom = .ok t)
    (h : read script = .ok ⟨[], [.evaluate t.expression]⟩) :
    value script sheets values = t.simplify.eval sheets values := by
  obtain ⟨steps, hmost⟩ : ∃ steps, mostSteps = steps + 1 := ⟨mostSteps - 1, rfl⟩
  have hroom : Formula.fullRoom + 2 ≤ mostSteps := by decide
  have hsteps : t.steps ≤ steps := by
    have := Formula.steps_le_of_read he
    omega
  let w : World := ⟨sheets, values, [], 0, none, true⟩
  have hrun : Runner.statements ⟨mostSteps, expression mostSteps, statement mostSteps⟩ w
      [.evaluate t.expression] = Run.ofExcept (t.simplify.eval sheets values) := by
    rw [hmost]
    change statement (steps + 1) w (.evaluate t.expression) = _
    rw [statement]
    exact expression_eq rfl hsteps
  simp only [value, h]
  rw [hrun]
  cases t.simplify.eval sheets values <;> rfl

end Script

end SheetCipher
