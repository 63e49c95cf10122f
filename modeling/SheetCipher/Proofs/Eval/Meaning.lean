import SheetCipher.Eval.Formula

/-!
# Meaning — what a formula says

`meaning` works a formula out as it is written: no levels, no term that is read
first, nothing settled beforehand. Reading a formula does not change what it
comes to (`eval_of_read`), and what is settled beforehand does not change a
value that it has (`eval_simplify`). So a formula that can be read has the
value that it means (`value_of_meaning`).
-/

namespace SheetCipher

/-- What a computation went through to its result. -/
theorem exists_of_bind {ε α β : Type} {x : Except ε α} {f : α → Except ε β} {b : β}
    (h : (x >>= f) = .ok b) : ∃ a, x = .ok a ∧ f a = .ok b := by
  cases x with
  | error e => cases h
  | ok a => exact ⟨a, rfl, h⟩

namespace Formula

mutual

/-- What a formula comes to, read as it is written. `AND` works its arguments
out as far as the first that does not hold; one argument stands for itself, and
none for a blank. -/
def meaning (sheets : Sheets) (values : Values) : Formula → Except Fault Value
  | text s => .ok (.text s)
  | int n => .ok (.int n)
  | cell ref _ => Callee.value.apply sheets values [.ofInt ref.col, .ofInt ref.row]
  | call f args => do f.apply (← meanings sheets values args)
  | all [] => .ok .blank
  | all (e :: es) => do
      let v ← meaning sheets values e
      if es.isEmpty then return v
      else return .bool (← if ← v.asBool then holdEach sheets values es else .ok false)
  | binary op lhs rhs => do
      let a ← meaning sheets values lhs
      let b ← meaning sheets values rhs
      op.onValues.apply a b
  | cond condition thenForm elseForm => do
      let v ← meaning sheets values condition
      if ← v.asBool then meaning sheets values thenForm else meaning sheets values elseForm
  | indirect col row => do
      let v ← meaning sheets values row
      Callee.indirect.apply sheets values [.ofInt col, v]
  | index block position => do
      let v ← meaning sheets values position
      Callee.index.apply sheets values
        [.text block.sheet, .ofInt block.col, .ofInt block.firstRow, .ofInt block.lastRow, v]

/-- What several formulas come to, in order. -/
def meanings (sheets : Sheets) (values : Values) : List Formula → Except Fault (List Value)
  | [] => .ok []
  | e :: es => do
      let v ← meaning sheets values e
      return v :: (← meanings sheets values es)

/-- Whether all formulas hold, as far as the first that does not. -/
def holdEach (sheets : Sheets) (values : Values) : List Formula → Except Fault Bool
  | [] => .ok true
  | e :: es => do
      let v ← meaning sheets values e
      if ← v.asBool then holdEach sheets values es else return false

end

end Formula

/-! ## Reading keeps the meaning -/

namespace Term

variable (sheets : Sheets) (values : Values)

/-- Whether a term holds. -/
def truth (t : Term) : Except Fault Bool := do (← t.eval sheets values).asBool

theorem holdAll_cons (t : Term) (ts : List Term) :
    holdAll sheets values (t :: ts) = (do
      if ← t.truth sheets values then holdAll sheets values ts else .ok false) := by
  rw [holdAll, truth, bind_assoc]
  rfl

/-- The terms that make a term up hold just when the term does. -/
theorem holdAll_conjuncts_append (t : Term) (ts : List Term) :
    holdAll sheets values (t.conjuncts ++ ts) = (do
      if ← t.truth sheets values then holdAll sheets values ts else .ok false) := by
  cases t with
  | all terms =>
      -- only an `AND` is made up of other terms; any other term stands for itself
      have happend : holdAll sheets values (terms ++ ts) = (do
          if ← holdAll sheets values terms then holdAll sheets values ts else .ok false) := by
        induction terms with
        | nil => rfl
        | cons first terms ih =>
            rw [List.cons_append, holdAll_cons, holdAll_cons, ih]
            cases first.truth sheets values with
            | error fault => rfl
            | ok b => cases b <;> rfl
      have htruth : (all terms).truth sheets values = holdAll sheets values terms := by
        rw [truth, eval]
        cases holdAll sheets values terms <;> rfl
      rw [htruth]
      exact happend
  | literal v => exact holdAll_cons sheets values (literal v) ts
  | call f args => exact holdAll_cons sheets values (call f args) ts
  | binary op lhs rhs => exact holdAll_cons sheets values (binary op lhs rhs) ts
  | cond condition thenTerm elseTerm =>
      exact holdAll_cons sheets values (cond condition thenTerm elseTerm) ts

/-- Two terms joined hold if both do. -/
theorem eval_of_both {lhs rhs t : Term} (h : lhs.both rhs = .ok t) :
    t.eval sheets values = (do
      return .bool (← if ← lhs.truth sheets values then rhs.truth sheets values
        else .ok false)) := by
  obtain ⟨_, _, h⟩ := exists_of_bind h
  obtain ⟨_, _, h⟩ := exists_of_bind h
  cases h
  have hrhs := holdAll_conjuncts_append sheets values rhs []
  rw [List.append_nil] at hrhs
  rw [eval, holdAll_conjuncts_append, hrhs]
  cases lhs.truth sheets values with
  | error fault => rfl
  | ok b =>
      cases b with
      | false => rfl
      | true =>
          cases rhs.truth sheets values with
          | error fault => rfl
          | ok b => cases b <;> rfl

theorem truth_of_both {lhs rhs t : Term} (h : lhs.both rhs = .ok t) :
    t.truth sheets values = (do
      if ← lhs.truth sheets values then rhs.truth sheets values else .ok false) := by
  rw [truth, eval_of_both sheets values h]
  cases lhs.truth sheets values with
  | error fault => rfl
  | ok b =>
      cases b with
      | false => rfl
      | true => cases rhs.truth sheets values <;> rfl

/-! ### References -/

theorem eval_call_literals (f : Callee) (a b : Value) :
    (call f [literal a, literal b]).eval sheets values = f.apply sheets values [a, b] := by
  rw [eval]
  rfl

theorem eval_call_literal (f : Callee) (a : Value) (t : Term) :
    (call f [literal a, t]).eval sheets values = (do
      f.apply sheets values [a, ← t.eval sheets values]) := by
  rw [eval, evalArgs, evalArgs, evalArgs]
  cases t.eval sheets values <;> rfl

theorem eval_call_four_literals (f : Callee) (a b c d : Value) (t : Term) :
    (call f [literal a, literal b, literal c, literal d, t]).eval sheets values = (do
      f.apply sheets values [a, b, c, d, ← t.eval sheets values]) := by
  rw [eval, evalArgs, evalArgs, evalArgs, evalArgs, evalArgs, evalArgs]
  cases t.eval sheets values <;> rfl

end Term

namespace Formula

variable {sheets : Sheets} {values : Values}

mutual

/-- **Reading keeps the meaning**: what has been read comes to the same, or
fails in the same way. -/
theorem eval_of_read : ∀ {e : Formula} {room : Nat} {t : Term}, e.read room = .ok t →
    t.eval sheets values = e.meaning sheets values
  | text s, room, t, h => by
      simp only [read, readText] at h
      split at h
      · cases h
      · cases h
        rfl
  | int n, room, t, h => by
      cases h
      rfl
  | cell ref anchor, room, t, h => by
      obtain ⟨_, _, h⟩ := exists_of_bind h
      cases h
      rw [meaning, Term.cell, Term.number, Term.number, Term.eval_call_literals]
  | call f args, room, t, h => by
      obtain ⟨_, _, h⟩ := exists_of_bind h
      obtain ⟨ts, hts, h⟩ := exists_of_bind h
      cases h
      rw [Term.eval, meaning, evalArgs_of_readArgs hts]
      rfl
  | all [], room, t, h => by
      cases h
      rfl
  | all (e :: es), room, t, h => by
      obtain ⟨inner, _, h⟩ := exists_of_bind h
      obtain ⟨first, hfirst, h⟩ := exists_of_bind h
      have hmeaning : first.eval sheets values = e.meaning sheets values := eval_of_read hfirst
      rw [eval_of_readConjuncts h, hmeaning, Term.truth, hmeaning, meaning]
      cases es with
      | nil => cases e.meaning sheets values <;> rfl
      | cons e' es => cases e.meaning sheets values <;> rfl
  | binary op lhs rhs, room, t, h => by
      obtain ⟨inner, _, h⟩ := exists_of_bind h
      obtain ⟨a, ha, h⟩ := exists_of_bind h
      obtain ⟨b, hb, h⟩ := exists_of_bind h
      obtain ⟨_, _, h⟩ := exists_of_bind h
      cases h
      rw [Term.eval, meaning, eval_of_read ha, eval_of_read hb]
  | cond condition thenForm elseForm, room, t, h => by
      obtain ⟨inner, _, h⟩ := exists_of_bind h
      obtain ⟨c, hc, h⟩ := exists_of_bind h
      obtain ⟨_, _, h⟩ := exists_of_bind h
      obtain ⟨branch, _, h⟩ := exists_of_bind h
      obtain ⟨a, ha, h⟩ := exists_of_bind h
      obtain ⟨b, hb, h⟩ := exists_of_bind h
      cases h
      rw [Term.eval, meaning, eval_of_read hc, eval_of_read ha, eval_of_read hb]
  | indirect col row, room, t, h => by
      obtain ⟨inner, _, h⟩ := exists_of_bind h
      obtain ⟨a, ha, h⟩ := exists_of_bind h
      cases h
      rw [meaning, ← eval_of_read ha, Term.indirect, Term.number, Term.eval_call_literal]
  | index block position, room, t, h => by
      obtain ⟨inner, _, h⟩ := exists_of_bind h
      obtain ⟨a, ha, h⟩ := exists_of_bind h
      cases h
      rw [meaning, ← eval_of_read ha, Term.index, Term.number, Term.number, Term.number,
        Term.eval_call_four_literals]

theorem evalArgs_of_readArgs : ∀ {es : List Formula} {room : Nat} {ts : List Term},
    readArgs room es = .ok ts →
      Term.evalArgs sheets values ts = meanings sheets values es
  | [], room, ts, h => by
      cases h
      rfl
  | e :: es, room, ts, h => by
      obtain ⟨inner, _, h⟩ := exists_of_bind h
      obtain ⟨t, ht, h⟩ := exists_of_bind h
      obtain ⟨ts', hts, h⟩ := exists_of_bind h
      cases h
      rw [Term.evalArgs, meanings, eval_of_read ht, evalArgs_of_readArgs hts]

/-- The arguments of an `AND` behind those that came to `before`. -/
theorem eval_of_readConjuncts : ∀ {es : List Formula} {room : Nat} {before t : Term},
    readConjuncts room before es = .ok t →
      t.eval sheets values = if es.isEmpty then before.eval sheets values else (do
        return .bool (← if ← before.truth sheets values then holdEach sheets values es
          else .ok false))
  | [], room, before, t, h => by
      cases h
      rfl
  | e :: es, room, before, t, h => by
      obtain ⟨next, hnext, h⟩ := exists_of_bind h
      obtain ⟨_, _, h⟩ := exists_of_bind h
      obtain ⟨joined, hjoined, h⟩ := exists_of_bind h
      have hmeaning : next.eval sheets values = e.meaning sheets values := eval_of_read hnext
      have hhold : holdEach sheets values (e :: es) = (do
          if ← next.truth sheets values then holdEach sheets values es else .ok false) := by
        rw [holdEach, Term.truth, hmeaning, bind_assoc]
        rfl
      -- `joined` takes the place of `before`, with one formula less to come
      rw [eval_of_readConjuncts h, Term.eval_of_both sheets values hjoined,
        Term.truth_of_both sheets values hjoined, hhold]
      cases before.truth sheets values with
      | error fault => cases es <;> rfl
      | ok b =>
          cases b with
          | false => cases es <;> rfl
          | true =>
              cases next.truth sheets values with
              | error fault => cases es <;> rfl
              | ok b => cases b <;> cases es <;> rfl

end

end Formula

/-! ## Settling keeps values -/

namespace Term

variable {sheets : Sheets} {values : Values}

theorem eq_of_isBool {t : Term} {b : Bool} (h : t.isBool b = true) : t = literal (.bool b) := by
  cases t with
  | literal v =>
      cases v with
      | bool c =>
          simp only [isBool, Value.isBool, beq_iff_eq] at h
          rw [h]
      | _ => cases h
  | _ => cases h

theorem eq_bool_of_asBool {v : Value} {b : Bool} (h : v.asBool = .ok b) : v = .bool b := by
  cases v with
  | bool c =>
      cases h
      rfl
  | _ => cases h

/-- How it comes that the terms of a list hold or do not. -/
theorem holdAll_cons_eq_ok {t : Term} {ts : List Term} {b : Bool}
    (h : holdAll sheets values (t :: ts) = .ok b) :
    (t.eval sheets values = .ok (.bool true) ∧ holdAll sheets values ts = .ok b) ∨
      (t.eval sheets values = .ok (.bool false) ∧ b = false) := by
  obtain ⟨v, hv, h⟩ := exists_of_bind h
  obtain ⟨c, hc, h⟩ := exists_of_bind h
  rw [eq_bool_of_asBool hc] at hv
  cases c with
  | true => exact .inl ⟨hv, h⟩
  | false =>
      cases h
      exact .inr ⟨hv, rfl⟩

theorem holdAll_cons_of_true {t : Term} {ts : List Term}
    (h : t.eval sheets values = .ok (.bool true)) :
    holdAll sheets values (t :: ts) = holdAll sheets values ts := by
  rw [holdAll, h]
  rfl

theorem holdAll_cons_of_false {t : Term} {ts : List Term}
    (h : t.eval sheets values = .ok (.bool false)) :
    holdAll sheets values (t :: ts) = .ok false := by
  rw [holdAll, h]
  rfl

/-- What is settled as true may be left out. -/
theorem holdAll_filter {ts : List Term} {b : Bool} (h : holdAll sheets values ts = .ok b) :
    holdAll sheets values (ts.filter fun t => !t.isBool true) = .ok b := by
  induction ts with
  | nil => exact h
  | cons t ts ih =>
      by_cases ht : t.isBool true = true
      · rw [List.filter_cons_of_neg (by simp [ht])]
        rcases holdAll_cons_eq_ok h with ⟨_, h⟩ | ⟨hfalse, _⟩
        · exact ih h
        · rw [eq_of_isBool ht] at hfalse
          cases hfalse
      · rw [List.filter_cons_of_pos (by simp [ht])]
        rcases holdAll_cons_eq_ok h with ⟨htrue, h⟩ | ⟨hfalse, rfl⟩
        · rw [holdAll_cons_of_true htrue, ih h]
        · rw [holdAll_cons_of_false hfalse]

/-- A term that is settled as false is reached unless another one fails to hold
before. -/
theorem eq_false_of_isRefuted {ts : List Term} {b : Bool} (hr : isRefuted ts = true)
    (h : holdAll sheets values ts = .ok b) : b = false := by
  induction ts with
  | nil => cases hr
  | cons t ts ih =>
      rcases holdAll_cons_eq_ok h with ⟨htrue, h⟩ | ⟨_, hb⟩
      · rw [isRefuted, Bool.or_eq_true, Bool.and_eq_true] at hr
        rcases hr with ht | ⟨_, hr⟩
        · rw [eq_of_isBool ht] at htrue
          cases htrue
        · exact ih hr h
      · exact hb

theorem eval_conjunction {ts : List Term} {b : Bool} (h : holdAll sheets values ts = .ok b) :
    (conjunction ts).eval sheets values = .ok (.bool b) := by
  have hleft := holdAll_filter h
  rw [conjunction]
  split
  · rename_i heq
    rw [heq] at hleft
    cases hleft
    rfl
  · -- a single term stands for itself; it has held or not, so it is a truth value
    rename_i t heq
    rw [heq] at hleft
    rcases holdAll_cons_eq_ok hleft with ⟨ht, hb⟩ | ⟨ht, rfl⟩
    · cases hb
      exact ht
    · exact ht
  · split
    · rename_i hr
      rw [eq_false_of_isRefuted hr hleft]
      rfl
    · rw [eval, hleft]
      rfl

/-- An operator between two terms comes to the same whether it is settled or
not. -/
theorem eval_operation (op : ValueOperator) (lhs rhs : Term) :
    (operation op lhs rhs).eval sheets values = (binary op lhs rhs).eval sheets values := by
  rw [operation.eq_def]
  split
  · rename_i a b
    split
    · change _ = op.apply a b
      cases happly : op.apply a b with
      | ok v => rfl
      | error fault => exact happly
    · rfl
  · rfl

theorem eval_choice (condition thenTerm elseTerm : Term) :
    (choice condition thenTerm elseTerm).eval sheets values =
      (cond condition thenTerm elseTerm).eval sheets values := by
  rw [choice.eq_def]
  split <;> rfl

theorem simplifyAll_eq (ts : List Term) : simplifyAll ts = ts.map simplify := by
  induction ts with
  | nil => rfl
  | cons t ts ih => rw [simplifyAll, ih, List.map_cons]

mutual

/-- **What is settled beforehand does not change a value.** Only a fault may be
lost: a single term that is left of an `AND` need not be a truth value. -/
theorem eval_simplify : ∀ {t : Term} {v : Value}, t.eval sheets values = .ok v →
    t.simplify.eval sheets values = .ok v
  | literal _, _, h => h
  | call f args, v, h => by
      obtain ⟨vs, hvs, h⟩ := exists_of_bind h
      rw [simplify, eval, evalArgs_simplifyAll hvs]
      exact h
  | all terms, v, h => by
      obtain ⟨b, hb, h⟩ := exists_of_bind h
      cases h
      rw [simplify]
      exact eval_conjunction (holdAll_simplifyAll hb)
  | binary op lhs rhs, v, h => by
      obtain ⟨a, ha, h⟩ := exists_of_bind h
      obtain ⟨b, hb, h⟩ := exists_of_bind h
      rw [simplify, eval_operation, eval, eval_simplify ha, eval_simplify hb]
      exact h
  | cond condition thenTerm elseTerm, v, h => by
      obtain ⟨c, hc, h⟩ := exists_of_bind h
      obtain ⟨b, hb, h⟩ := exists_of_bind h
      rw [simplify, eval_choice, eval, eval_simplify hc]
      change (c.asBool >>= _) = _
      rw [hb]
      cases b with
      | true => exact eval_simplify h
      | false => exact eval_simplify h

theorem evalArgs_simplifyAll : ∀ {ts : List Term} {vs : List Value},
    evalArgs sheets values ts = .ok vs → evalArgs sheets values (simplifyAll ts) = .ok vs
  | [], _, h => h
  | t :: ts, vs, h => by
      obtain ⟨v, hv, h⟩ := exists_of_bind h
      obtain ⟨vs', hvs, h⟩ := exists_of_bind h
      rw [simplifyAll, evalArgs, eval_simplify hv, evalArgs_simplifyAll hvs]
      exact h

theorem holdAll_simplifyAll : ∀ {ts : List Term} {b : Bool},
    holdAll sheets values ts = .ok b → holdAll sheets values (simplifyAll ts) = .ok b
  | [], _, h => h
  | t :: ts, b, h => by
      rw [simplifyAll]
      rcases holdAll_cons_eq_ok h with ⟨ht, h⟩ | ⟨ht, rfl⟩
      · rw [holdAll_cons_of_true (eval_simplify ht), holdAll_simplifyAll h]
      · rw [holdAll_cons_of_false (eval_simplify ht)]

end

end Term

/-- **A formula that can be read has the value that it means.** -/
theorem Formula.value_of_meaning {e : Formula} {sheets : Sheets} {values : Values} {v : Value}
    (hplain : e.isPlain = true) (hread : ∃ t, e.read fullRoom = .ok t)
    (h : e.meaning sheets values = .ok v) : e.value sheets values = .ok v := by
  obtain ⟨t, ht⟩ := hread
  rw [value, if_pos hplain, plainValue, ht]
  exact Term.eval_simplify ((eval_of_read ht).trans h)

end SheetCipher
