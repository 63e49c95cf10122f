import SheetCipher.Proofs.Script.Evaluation

/-!
# Reader — readers in front of known tokens

What the readers of a script do when the next token is known, as equations of
what they find and what they leave. An operand goes on with no step into what it
holds (`EndsOperand`), an expression with none of its connectives
(`EndsExpression`); behind an argument, a condition or a branch of a formula both
end.
-/

namespace SheetCipher

namespace Formula

/-- Levels may be spent one after the other. -/
theorem spend_add_bind {α : Type} (first second room : Nat) (next : Nat → Except SyntaxFault α) :
    (spend (first + second) room >>= next) =
      (spend first room >>= fun room => spend second room >>= next) := by
  simp only [spend]
  by_cases hfirst : first ≤ room
  · rw [if_pos hfirst]
    change _ = ((if second ≤ room - first then _ else _) >>= next)
    by_cases hsecond : second ≤ room - first
    · rw [if_pos hsecond, if_pos (by omega), Nat.sub_add_eq]
    · rw [if_neg hsecond, if_neg (by omega)]
  · rw [if_neg hfirst, if_neg (by omega)]
    rfl

end Formula

namespace Term

theorem needTruth_expression (t : Term) : t.expression.needTruth = t.needTruth := by
  cases t with
  | literal v => cases v <;> rfl
  | _ => rfl

theorem conjuncts_expression (t : Term) : t.expression.conjuncts = t.conjuncts.map expression := by
  cases t with
  | all terms => exact expressions_eq_map terms
  | _ => rfl

/-- Terms are joined as their expressions are. -/
theorem join_expression (lhs rhs : Term) :
    Script.Connective.and.join lhs.expression rhs.expression = (do
      let t ← lhs.both rhs
      .ok t.expression) := by
  rw [Script.Connective.join, both, needTruth_expression, needTruth_expression,
    conjuncts_expression, conjuncts_expression, ← List.map_append, ← expressions_eq_map]
  cases lhs.needTruth with
  | error fault => rfl
  | ok _ => cases rhs.needTruth <;> rfl

end Term

namespace Script

/-! ## Readers at work -/

/-- Whether an operand may start with a token, or the script ends there. -/
def Token.startsOperand : Token → Bool
  | constant _ | name _ | flaw _ => true
  | sign text => text == "("
  | _ => false

/-- A reading with other tokens in front of it. -/
def Reading.facing (r : Reading) (row : List Token) : Reading := { r with rest := row }

theorem not_isSign_of_startsOperand {token : Token} {text : String}
    (h : token.startsOperand = true) (htext : text ≠ "(") : token.isSign text = false := by
  cases token with
  | sign found =>
      obtain rfl : found = "(" := by simpa [Token.startsOperand] using h
      exact beq_false_of_ne htext.symm
  | _ => rfl

namespace Reader

variable {α β : Type} {r : Reading} {row rest : List Token} {steps : Nat} {at_ : Setting}

theorem ok_bind (a : α) (next : α → Except SyntaxFault β) : (Except.ok a >>= next) = next a := rfl

theorem bind_apply (reader : Reader α) (next : α → Reader β) (r : Reading) :
    (reader >>= next) r = (reader r >>= fun found => next found.1 found.2) := rfl

theorem deeper_apply (levels : Nat) (at_ : Setting) (r : Reading) :
    at_.deeper levels r =
      (Formula.spend levels at_.room >>= fun room => .ok ({ at_ with room := room }, r)) := by
  rw [Setting.deeper]
  change ((Formula.spend levels at_.room >>= fun room => .ok (room, r)) >>= _) = _
  cases Formula.spend levels at_.room <;> rfl

theorem peek_apply (token : Token) (row : List Token) :
    peek (r.facing (token :: row)) = .ok (some token, r.facing (token :: row)) := rfl

theorem skip_apply (token : Token) (row : List Token) :
    skip (r.facing (token :: row)) = .ok ((), r.facing row) := rfl

theorem nextIs_apply (test : Token → Bool) (token : Token) (row : List Token) :
    nextIs test (r.facing (token :: row)) = .ok (test token, r.facing (token :: row)) := rfl

theorem skipIf_of_true {test : Token → Bool} {token : Token} (h : test token = true)
    (row : List Token) : skipIf test (r.facing (token :: row)) = .ok (true, r.facing row) := by
  rw [skipIf, bind_apply, nextIs_apply, h]
  rfl

theorem skipIf_of_false {test : Token → Bool} {token : Token} (h : test token = false)
    (row : List Token) :
    skipIf test (r.facing (token :: row)) = .ok (false, r.facing (token :: row)) := by
  rw [skipIf, bind_apply, nextIs_apply, h]
  rfl

theorem expect_apply {test : Token → Bool} {token : Token} (h : test token = true)
    (place : MissingPlace) (row : List Token) :
    expect test place (r.facing (token :: row)) = .ok ((), r.facing row) := by
  rw [expect, bind_apply, skipIf_of_true h]
  rfl

/-- Whether what follows an operand is no step to what it holds. -/
def EndsOperand (rest : List Token) : Prop :=
  ∀ text, rest.head? = some (.sign text) → text ∉ [".", "?.", "[", "?["]

theorem links_apply (h : EndsOperand rest) (e : Expression) :
    links (steps + 1) at_ e [] (r.facing rest) = .ok (e, r.facing rest) := by
  rw [links]
  have hno : ∀ text : String, text ∉ [".", "?.", "[", "?["] →
      ¬(text = "." ∨ text = "?.") ∧ ¬(text = "[" ∨ text = "?[") := by
    intro text
    simp
    grind
  cases rest with
  | nil => rfl
  | cons token rest =>
      cases token with
      | sign text =>
          obtain ⟨hperiod, hbracket⟩ := hno text (h text rfl)
          change (if text = "." ∨ text = "?." then (_ : Reader Expression) else
            if text = "[" ∨ text = "?[" then (_ : Reader Expression) else (_ : Reader Expression))
              _ = _
          rw [if_neg hperiod, if_neg hbracket]
          rfl
      | _ => rfl

/-- Whether what follows an expression goes on with none of its operands. -/
def EndsExpression (rest : List Token) : Prop :=
  ∀ token, rest.head? = some token → ∃ text ∈ [")", ",", "\x7b", "\x7d"], token = .sign text

theorem EndsExpression.nil : EndsExpression [] := nofun

theorem EndsExpression.cons {text : String} (h : text ∈ [")", ",", "\x7b", "\x7d"])
    (rest : List Token) : EndsExpression (.sign text :: rest) := by
  rintro _ ⟨⟩
  exact ⟨text, h, rfl⟩

theorem EndsExpression.endsOperand (h : EndsExpression rest) : EndsOperand rest := by
  intro text htext
  obtain ⟨text', hmem, heq⟩ := h _ htext
  cases heq
  revert hmem
  simp
  grind

theorem connective_of_ends (h : EndsExpression rest) :
    connective at_ (r.facing rest) = .ok (none, r.facing rest) := by
  cases rest with
  | nil => rfl
  | cons token rest =>
      obtain ⟨text, hmem, rfl⟩ := h token rfl
      have hno : (if at_.inCase && text == "|" then none else Connective.ofSign? text) = none := by
        simp only [List.mem_cons, List.not_mem_nil, or_false] at hmem
        rcases hmem with rfl | rfl | rfl | rfl <;> simp <;> decide
      change Except.ok ((if at_.inCase && text == "|" then none else Connective.ofSign? text), _) =
        _
      rw [hno]

theorem chain_of_ends (h : EndsExpression rest) (strength : Nat) (e : Expression) :
    chain (steps + 1) at_ strength e (r.facing rest) = .ok (e, r.facing rest) := by
  rw [chain, bind_apply, connective_of_ends h]
  rfl

/-- Reads an operand that starts with no sign. -/
theorem operand_apply {token : Token} (h : ∀ text ∈ ["-", "+", "!"], token.isSign text = false)
    (row : List Token) :
    operand (steps + 1) at_ (r.facing (token :: row)) =
      (primary steps at_ (r.facing (token :: row)) >>= fun found =>
        links steps at_ found.1 [] found.2) := by
  rw [operand]
  cases token with
  | sign text =>
      have hno : text ∉ ["-", "+", "!"] := fun hmem =>
        absurd (h text hmem) (by simp [Token.isSign])
      change ((if text ∈ ["-", "+", "!"] then _ else _) : Reader Expression) _ = _
      rw [if_neg hno]
      rfl
  | _ => rfl

end Reader

end Script

end SheetCipher
