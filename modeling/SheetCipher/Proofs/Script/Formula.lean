import SheetCipher.Proofs.Script.Operand
import SheetCipher.Proofs.Script.Tokens

/-!
# Formula — a formula and its script have one value

A formula in which the names of all sheets stand for themselves is worked out by
rules of its own, any other by running its script. The two ways are one
(`Formula.value_eq_script`): the script is taken for the tokens of the formula,
these are read as the formula is, to a term or to the same fault
(`Script.read_of_tokens`), and the expression of the term runs to the value of
the term. So what a formula comes to is told by its script alone.
-/

namespace SheetCipher

namespace Script

/-! ## Formulas as operands -/

namespace Operand

open Reader

def ofFormula (e : Formula) : Operand := ⟨e.tokensBefore, fun room => e.read room⟩

theorem othersBefore_ofFormula (separator : String) (es : List Formula) (rest : List Token) :
    Formula.othersBefore separator es rest = othersBefore separator (es.map ofFormula) rest := by
  induction es with
  | nil => rfl
  | cons e es ih =>
      rw [Formula.othersBefore, ih]
      rfl

theorem readConjuncts_ofFormula (es : List Formula) (room : Nat) (before : Term) :
    Formula.readConjuncts room before es = readConjuncts room before (es.map ofFormula) := by
  induction es generalizing room before with
  | nil => rfl
  | cons e es ih =>
      simp only [Formula.readConjuncts, ih]
      rfl

theorem readArgs_eq_readAll {room inner : Nat} (h : Formula.spend 1 room = .ok inner)
    (es : List Formula) : Formula.readArgs room es = readAll inner (es.map ofFormula) := by
  induction es with
  | nil => rfl
  | cons e es ih =>
      rw [Formula.readArgs, ih]
      change (Formula.spend (1 + 1) room >>= _) = _
      rw [Formula.spend_add_bind, h]
      rfl

/-- Arguments that are constants but for the last one. -/
theorem readAll_ofValue (vs : List Value) (o : Operand) (room : Nat) :
    readAll room (vs.map ofValue ++ [o]) = (do
      let inner ← Formula.spend 1 room
      let t ← o.read inner
      return vs.map Term.literal ++ [t]) := by
  induction vs with
  | nil => rfl
  | cons v vs ih =>
      rw [List.map_cons, List.cons_append, readAll, ih]
      cases Formula.spend 1 room with
      | error fault => rfl
      | ok inner =>
          simp only [ofValue, ok_bind, bind_assoc]
          rfl

theorem call_ofValue_read (f : Callee) (v : Value) (vs : List Value) (o : Operand) (room : Nat) :
    (call f (ofValue v) (vs.map ofValue ++ [o])).read room = (do
      let inner ← Formula.spend Formula.nestingRoom room
      let t ← o.read inner
      return .call f (.literal v :: (vs.map Term.literal ++ [t]))) := by
  change _ = (Formula.spend (1 + 1) room >>= _)
  rw [Formula.spend_add_bind, call]
  refine bind_congr fun inner => ?_
  rw [← List.cons_append, ← List.map_cons, readAll_ofValue, bind_assoc]
  exact bind_congr fun inner => by cases o.read inner <;> rfl

/-- What starts with a flaw is a text that runs over a line end. -/
theorem head?_tokensBefore_ne {e : Formula} (h : ¬∃ s : String, e = .text s ∧ '\n' ∈ s.toList)
    (rest : List Token) (fault : SyntaxFault) :
    (e.tokensBefore rest).head? ≠ some (.flaw fault) := by
  cases e with
  | text s =>
      have hclosed : '\n' ∉ s.toList := fun hopen => h ⟨s, rfl, hopen⟩
      rw [Formula.tokensBefore, if_neg hclosed]
      nofun
  | all args => cases args <;> nofun
  | int | cell | call | binary | cond | indirect | index => nofun

theorem call_read {e : Formula} (h : ¬∃ s : String, e = .text s ∧ '\n' ∈ s.toList)
    (f : Builtin) (es : List Formula) (room : Nat) : (Formula.call f (e :: es)).read room = (do
      let inner ← Formula.spend 1 room
      return .call (.builtin f) (← readAll inner ((e :: es).map ofFormula))) := by
  have hfront : Formula.checkFront (e :: es) = .ok () := by
    cases e with
    | text s =>
        have hclosed : '\n' ∉ s.toList := fun hopen => h ⟨s, rfl, hopen⟩
        rw [Formula.checkFront, Formula.readText, if_neg hclosed]
        rfl
    | _ => rfl
  rw [Formula.read, hfront, ok_bind]
  cases hspend : Formula.spend 1 room with
  | error fault =>
      have hargs : Formula.readArgs room (e :: es) = .error fault := by
        change (Formula.spend (1 + 1) room >>= _) = _
        rw [Formula.spend_add_bind, hspend]
        rfl
      rw [hargs]
      rfl
  | ok inner =>
      rw [readArgs_eq_readAll hspend]
      rfl

/-- The levels of a choice, counted from its parentheses inwards. -/
theorem choice_read (condition thenForm elseForm : Formula) (room : Nat) :
    (Formula.cond condition thenForm elseForm).read room =
      (choice (ofFormula condition) (ofFormula thenForm) (ofFormula elseForm)).read room := by
  change (Formula.spend (2 + (2 + 1)) room >>= fun inner => condition.read inner >>= fun c =>
    c.needTruth >>= fun _ => Formula.spend (2 + (2 + 3)) room >>= _) =
      (Formula.spend 2 room >>= fun room => Formula.spend 2 room >>= _)
  -- the rules spend the levels of the parentheses and of the parts at once
  simp only [Formula.spend_add_bind]
  cases Formula.spend 2 room with
  | error fault => rfl
  | ok room =>
      simp only [ok_bind]
      cases Formula.spend 2 room with
      | error fault => rfl
      | ok room =>
          simp only [ok_bind]
          refine bind_congr fun inner => bind_congr fun c => bind_congr fun _ => ?_
          cases Formula.spend 3 room with
          | error fault => rfl
          | ok branch => rfl

mutual

/-- Formulas are read as they are meant. -/
theorem isRead_ofFormula : ∀ e : Formula, (ofFormula e).IsRead
  | .text s => by
      by_cases hopen : '\n' ∈ s.toList
      · have htext : ofFormula (.text s) = ⟨fun _ => [.flaw .openText],
            fun _ => .error .openText⟩ := by
          simp only [ofFormula, Formula.tokensBefore, Formula.read, Formula.readText, if_pos hopen]
        exact htext ▸ isRead_openText
      · have htext : ofFormula (.text s) = ofValue (.text s) := by
          simp only [ofFormula, Formula.tokensBefore, Formula.read, Formula.readText, if_neg hopen,
            ofValue]
        exact htext ▸ isRead_ofValue _
  | .int n => isRead_ofValue (.int n)
  | .cell ref anchor => by
      have hcall : ofFormula (.cell ref anchor) =
          call .value (ofValue (.ofInt ref.col)) [ofValue (.ofInt ref.row)] :=
        congrArg (mk _) (funext fun room => (call_ofValue_read .value (.ofInt ref.col) []
          (ofValue (.ofInt ref.row)) room).symm)
      exact hcall ▸ isRead_call _ (isRead_ofValue _)
        (List.forall_mem_singleton.2 (isRead_ofValue _)) nofun
  | .call f [] => isRead_bareCall (.builtin f)
  | .call f (e :: es) => by
      by_cases hfront : ∃ s : String, e = .text s ∧ '\n' ∈ s.toList
      · obtain ⟨s, rfl, hopen⟩ := hfront
        have hcall : ofFormula (.call f (.text s :: es)) =
            ⟨fun _ => [.name f.name, .sign "(", .flaw .openText],
              fun _ => .error .openText⟩ := by
          simp only [ofFormula, Formula.tokensBefore, Formula.groupBefore, Formula.read,
            Formula.checkFront, Formula.readText, if_pos hopen]
          rfl
        exact hcall ▸ isRead_call_openText (.builtin f)
      · have hcall : ofFormula (.call f (e :: es)) =
            call (.builtin f) (ofFormula e) (es.map ofFormula) := by
          simp only [ofFormula, Formula.tokensBefore, Formula.groupBefore, call,
            othersBefore_ofFormula, call_read hfront]
          rfl
        exact hcall ▸ isRead_call _ (isRead_ofFormula e) (areRead_ofFormula es)
          (head?_tokensBefore_ne hfront)
  | .all [] => isRead_ofValue .blank
  | .all (e :: es) => by
      have hall : ofFormula (.all (e :: es)) = conjunction (ofFormula e) (es.map ofFormula) := by
        simp only [ofFormula, Formula.tokensBefore, Formula.groupBefore, Formula.read, conjunction,
          othersBefore_ofFormula, readConjuncts_ofFormula]
      exact hall ▸ isRead_conjunction (isRead_ofFormula e) (areRead_ofFormula es)
  | .binary op lhs rhs => isRead_binary op (isRead_ofFormula lhs) (isRead_ofFormula rhs)
  | .cond condition thenForm elseForm => by
      have hchoice : ofFormula (.cond condition thenForm elseForm) =
          choice (ofFormula condition) (ofFormula thenForm) (ofFormula elseForm) :=
        congrArg (mk _) (funext fun room => choice_read condition thenForm elseForm room)
      exact hchoice ▸ isRead_choice (isRead_ofFormula condition) (isRead_ofFormula thenForm)
        (isRead_ofFormula elseForm)
  | .indirect col row => by
      have hcall : ofFormula (.indirect col row) =
          call .indirect (ofValue (.ofInt col)) [ofFormula row] :=
        congrArg (mk _) (funext fun room =>
          (call_ofValue_read .indirect (.ofInt col) [] (ofFormula row) room).symm)
      exact hcall ▸ isRead_call _ (isRead_ofValue _)
        (List.forall_mem_singleton.2 (isRead_ofFormula row)) nofun
  | .index block position => by
      have hcall : ofFormula (.index block position) =
          call .index (ofValue (.text block.sheet)) ([Value.ofInt block.col,
            .ofInt block.firstRow, .ofInt block.lastRow].map ofValue ++ [ofFormula position]) :=
        congrArg (mk _) (funext fun room => (call_ofValue_read .index (.text block.sheet)
          [.ofInt block.col, .ofInt block.firstRow, .ofInt block.lastRow] (ofFormula position)
          room).symm)
      refine hcall ▸ isRead_call _ (isRead_ofValue _) ?_ nofun
      exact List.forall_mem_append.2 ⟨List.forall_mem_map.2 fun v _ => isRead_ofValue v,
        List.forall_mem_singleton.2 (isRead_ofFormula position)⟩

theorem areRead_ofFormula : ∀ (es : List Formula), ∀ o ∈ es.map ofFormula, o.IsRead
  | [] => nofun
  | e :: es => List.forall_mem_cons.2 ⟨isRead_ofFormula e, areRead_ofFormula es⟩

end

end Operand

/-! ## The value of a script -/

/-- **A script is read as its formula**: a row of tokens that is that of a
formula gives the formula's term as the only statement, or fails as the formula
does. -/
theorem read_of_tokens {script : List Char} {e : Formula} (h : tokens script = e.tokensBefore []) :
    read script = (do
      let t ← e.read Formula.fullRoom
      return ⟨[], [.evaluate t.expression]⟩) := by
  obtain ⟨steps, hsteps, hle⟩ : ∃ steps,
      stepsPerToken * ((e.tokensBefore []).length + Setting.scriptRoom) = steps + 3 ∧
        stepsPerToken * (e.tokensBefore []).length ≤ steps :=
    ⟨stepsPerToken * ((e.tokensBefore []).length + Setting.scriptRoom) - 3, by
      simp only [stepsPerToken, Setting.scriptRoom]
      omega⟩
  have hstatements : Reader.statements (steps + 3) .top false
      (Reading.facing ⟨[], [], [], []⟩ (e.tokensBefore [])) = (do
        let room ← Formula.spend 2 Setting.scriptRoom
        let t ← e.read room
        .ok ([.evaluate t.expression], Reading.facing ⟨[], [], [], []⟩ [])) :=
    Operand.statements_apply (Operand.isRead_ofFormula e) (.inl ⟨rfl, rfl⟩) hle
  rw [read, h, hsteps]
  change ((Reader.statements (steps + 3) .top false
    (Reading.facing ⟨[], [], [], []⟩ (e.tokensBefore []))) >>= _) = _
  rw [hstatements]
  change ((e.read Formula.fullRoom >>= _) >>= _) = _
  cases e.read Formula.fullRoom <;> rfl

end Script

namespace Formula

/-- **A formula comes to what its script comes to**, value or fault, whatever the
names of its sheets are. -/
theorem value_eq_script (e : Formula) (sheets : Sheets) (values : Values) :
    e.value sheets values = Script.value e.scriptChars sheets values := by
  by_cases hplain : e.isPlain = true
  · have hscript := Script.read_of_tokens (Script.tokens_scriptChars hplain)
    rw [value, if_pos hplain, plainValue]
    cases hread : e.read fullRoom with
    | error fault =>
        rw [hread] at hscript
        simp only [Script.value, hscript]
        rfl
    | ok t =>
        rw [hread] at hscript
        exact (Script.value_of_read sheets values hread hscript).symm
  · rw [value, if_neg hplain]

/-- Formulas that are written alike for the evaluator come to the same. -/
theorem value_eq_of_scriptChars_eq {e e' : Formula} (h : e.scriptChars = e'.scriptChars)
    (sheets : Sheets) (values : Values) : e.value sheets values = e'.value sheets values := by
  rw [value_eq_script, value_eq_script, h]

end Formula

end SheetCipher
