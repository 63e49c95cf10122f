import SheetCipher.Eval.Callee
import SheetCipher.Proofs.Sheet.Formula.ScriptParts
import SheetCipher.Script.Lexer

/-!
# Lexer — what the characters of a formula's script are taken for

Each part of a script is stated with whatever may stand behind it: characters up
to a rest are taken for some tokens (`Lexes`), a name up to a parenthesis, a
number up to a blank, a comma or a parenthesis, a text up to its quote. Parts
that follow one another are put together by `Lexes.trans`. A text that runs over
a line end is a flaw and hides what follows (`Lexes.openText`).
-/

namespace SheetCipher

namespace Script

open Quoted (Cursor columnAfter)
open SheetCipher.Token (ne_of_kind span_append isDigit_eq_false_of_isLetter)

/-! ## Characters that are taken for tokens -/

/-- Characters up to `rest` are taken for the tokens that `tokensBefore` puts in
front of those of `rest`; `before` and `after` say whether an operand ends
there. -/
def Lexes (before after : Bool) (cs rest : List Char) (tokensBefore : List Token → List Token) :
    Prop :=
  ∀ steps column : Nat, cs.length ≤ steps → ∃ steps' column', rest.length ≤ steps' ∧
    tokensFrom steps before [] ⟨cs, column⟩ =
      tokensBefore (tokensFrom steps' after [] ⟨rest, column'⟩)

section

variable {a b c : Bool} {cs ds rest : List Char} {f g : List Token → List Token}

theorem Lexes.trans (h : Lexes a b cs ds f) (h' : Lexes b c ds rest g) :
    Lexes a c cs rest fun tokens => f (g tokens) := by
  intro steps column hsteps
  obtain ⟨steps, column, hsteps, heq⟩ := h steps column hsteps
  obtain ⟨steps', column', hsteps', heq'⟩ := h' steps column hsteps
  exact ⟨steps', column', hsteps', heq.trans (congrArg f heq')⟩

/-- Whether a token is neither a piece of a text nor a flaw. -/
def Token.isWhole : Token → Bool
  | flaw _ | piece _ => false
  | _ => true

theorem bracesAfter_nil {token : Token} (h : token.isWhole = true) : bracesAfter token [] = [] := by
  cases token with
  | piece text => cases h
  | _ => rfl

theorem Lexes.of_token {token : Token} (hwhole : token.isWhole = true)
    (hlength : rest.length < cs.length)
    (hstep : ∀ column, ∃ column', step a ⟨cs, column⟩ = (some token, ⟨rest, column'⟩)) :
    Lexes a token.endsOperand cs rest (token :: ·) := by
  intro steps column hsteps
  obtain ⟨steps, rfl⟩ : ∃ n, steps = n + 1 := Nat.exists_eq_add_of_le' (by omega)
  obtain ⟨column', hstep⟩ := hstep column
  refine ⟨steps, column', by omega, ?_⟩
  have hne : cs.isEmpty = false :=
    List.isEmpty_eq_false_iff.2 (List.ne_nil_of_length_pos (Nat.zero_lt_of_lt hlength))
  rw [tokensFrom, hne, if_neg Bool.false_ne_true, hstep]
  have hbraces := bracesAfter_nil hwhole
  -- without an open block in a text no brace is counted
  cases token with
  | flaw fault => cases hwhole
  | piece text => cases hwhole
  | _ => simp only [hbraces]

theorem Lexes.of_found {token : Token} (found : Cursor → Token × Cursor)
    (hwhole : token.isWhole = true) (hlength : rest.length < cs.length)
    (hstep : ∀ column, step a ⟨cs, column⟩ =
      (some (found ⟨cs, column⟩).1, (found ⟨cs, column⟩).2))
    (hfound : ∀ column, ∃ column', found ⟨cs, column⟩ = (token, ⟨rest, column'⟩)) :
    Lexes a token.endsOperand cs rest (token :: ·) := by
  refine .of_token hwhole hlength fun column => ?_
  obtain ⟨column', hfound⟩ := hfound column
  exact ⟨column', by rw [hstep, hfound]⟩

theorem Lexes.space (a : Bool) (rest : List Char) : Lexes a a (' ' :: rest) rest id := by
  intro steps column hsteps
  obtain ⟨steps, rfl⟩ : ∃ n, steps = n + 1 := Nat.exists_eq_add_of_le' (by
    rw [List.length_cons] at hsteps
    omega)
  refine ⟨steps, columnAfter column 1, Nat.le_of_succ_le_succ hsteps, ?_⟩
  rfl

/-- Characters that are no text hide all that follows. -/
theorem Lexes.of_flaw {fault : SyntaxFault} (b : Bool) (hlength : rest.length < cs.length)
    (hstep : ∀ column, ∃ cursor, step a ⟨cs, column⟩ = (some (.flaw fault), cursor)) :
    Lexes a b cs rest fun _ => [.flaw fault] := by
  intro steps column hsteps
  obtain ⟨steps, rfl⟩ : ∃ n, steps = n + 1 := Nat.exists_eq_add_of_le' (by omega)
  obtain ⟨cursor, hstep⟩ := hstep column
  have hne : cs.isEmpty = false :=
    List.isEmpty_eq_false_iff.2 (List.ne_nil_of_length_pos (Nat.zero_lt_of_lt hlength))
  refine ⟨steps, 0, by omega, ?_⟩
  rw [tokensFrom, hne, if_neg Bool.false_ne_true, hstep]

end

/-! ## Signs -/

theorem Lexes.of_sign {a : Bool} {text : String} {cs rest : List Char} (htext : text.toList = cs)
    (hne : cs ≠ [])
    (hforeign : (foreignSigns.find? fun (text, _) => text.toList.isPrefixOf (cs ++ rest)) = none)
    (hplain : longest? signs (cs ++ rest) = some text)
    (hkept : longest? reservedSigns (cs ++ rest) = none)
    (hstep : ∀ column, step a ⟨cs ++ rest, column⟩ =
      (some (sign ⟨cs ++ rest, column⟩).1, (sign ⟨cs ++ rest, column⟩).2)) :
    Lexes a (Token.sign text).endsOperand (cs ++ rest) rest (.sign text :: ·) := by
  have hlength : text.length = cs.length := by rw [← htext, String.length_toList]
  have hpos : 0 < cs.length := List.length_pos_iff.2 hne
  refine .of_found Script.sign rfl (by rw [List.length_append]; omega) hstep fun column => ?_
  refine ⟨columnAfter column cs.length, ?_⟩
  simp only [sign, hforeign, hplain, hkept, Option.getD_some, Option.getD_none, hlength, behind,
    List.drop_left]
  rw [if_neg (by simp), if_pos hpos]

/-- The signs that have a blank behind them in the script of a formula. -/
def spacedSigns : List String := [",", "&&", "\x7b", "+", "-", "==", ">", ">=", "<="]

theorem Lexes.spacedSign {text : String} (h : text ∈ spacedSigns) (rest : List Char) :
    Lexes true false (text.toList ++ ' ' :: rest) rest (.sign text :: ·) := by
  simp only [spacedSigns, List.mem_cons, List.not_mem_nil, or_false] at h
  have hends : (Token.sign text).endsOperand = false := by
    rcases h with rfl | rfl | rfl | rfl | rfl | rfl | rfl | rfl | rfl <;> decide
  have hsign : Lexes true (Token.sign text).endsOperand (text.toList ++ ' ' :: rest) (' ' :: rest)
      (.sign text :: ·) := by
    rcases h with rfl | rfl | rfl | rfl | rfl | rfl | rfl | rfl | rfl <;>
      refine .of_sign rfl (by decide) ?_ ?_ ?_ fun _ => rfl <;>
        simp [foreignSigns, longest?, signs, reservedSigns]
  rw [hends] at hsign
  exact hsign.trans (.space false rest)

theorem Lexes.close (a : Bool) (rest : List Char) :
    Lexes a true (')' :: rest) rest (.sign ")" :: ·) := by
  refine @Lexes.of_sign a ")" [')'] rest rfl (by decide) ?_ ?_ ?_ fun _ => rfl <;>
    simp [foreignSigns, longest?, signs, reservedSigns]

theorem Lexes.closeBrace (a : Bool) (rest : List Char) :
    Lexes a true ('\x7d' :: rest) rest (.sign "\x7d" :: ·) := by
  refine @Lexes.of_sign a "\x7d" ['\x7d'] rest rfl (by decide) ?_ ?_ ?_ fun _ => rfl <;>
    simp [foreignSigns, longest?, signs, reservedSigns]

theorem Lexes.unit (a : Bool) (rest : List Char) :
    Lexes a true ('(' :: ')' :: rest) rest (.constant .blank :: ·) :=
  .of_token rfl (Nat.lt_add_of_pos_right (by decide : 0 < 2)) fun _ => ⟨_, rfl⟩

theorem Lexes.open (a : Bool) {cs : List Char}
    (h : ∃ c, cs.head? = some c ∧ c ≠ ')' ∧ c ≠ '*') :
    Lexes a false ('(' :: cs) cs (.sign "(" :: ·) := by
  obtain ⟨c, hc, hclose, hstar⟩ := h
  obtain ⟨rest, rfl⟩ := List.head?_eq_some_iff.1 hc
  -- `()` would be one token, and `(*` a sign of another language
  refine @Lexes.of_sign a "(" ['('] (c :: rest) rfl (by decide) ?_ ?_ ?_ fun column => ?_
  · simp [foreignSigns, hstar.symm]
  · simp [longest?, signs]
  · simp [longest?, reservedSigns]
  · change step a ⟨'(' :: c :: rest, column⟩ = _
    unfold step
    split <;> rename_i heq <;> cases heq
    · exact absurd rfl hclose
    · rfl

/-! ## Words -/

theorem step_word {c : Char} (hc : CellRef.isLetter c = true) (a : Bool) (rest : List Char)
    (column : Nat) : step a ⟨c :: rest, column⟩ =
      (some (word ⟨c :: rest, column⟩).1, (word ⟨c :: rest, column⟩).2) := by
  have hname : isNameChar c = true := by rw [isNameChar, hc]; rfl
  unfold step
  split <;> rename_i heq <;> cases heq
  · cases hc
  · cases hc
  · cases hc
  · cases hc
  · rw [if_neg (ne_of_kind hc rfl), if_neg (ne_of_kind hc rfl), if_neg (ne_of_kind hc rfl),
      isDigit_eq_false_of_isLetter hc, if_neg Bool.false_ne_true,
      if_neg (fun h => ne_of_kind hc rfl h.1), if_pos hname]

theorem word_append {cs rest : List Char} (hall : cs.all isNameChar = true)
    (hrest : EndsRun isNameChar rest) (column : Nat) :
    word ⟨cs ++ rest, column⟩ =
      ((word ⟨cs, column⟩).1, ⟨rest, columnAfter column cs.length⟩) := by
  have hwhole : (cs ++ []).takeWhile isNameChar = cs := (span_append hall EndsRun.nil).1
  rw [List.append_nil] at hwhole
  simp only [word, (span_append hall hrest).1, hwhole, behind, List.drop_left]

theorem Lexes.word {c : Char} {cs rest : List Char} {token : Token}
    (hletter : CellRef.isLetter c = true) (hall : (c :: cs).all isNameChar = true)
    (htoken : ∀ column, (Script.word ⟨c :: cs, column⟩).1 = token) (hwhole : token.isWhole = true)
    (a : Bool) (hrest : EndsRun isNameChar rest) :
    Lexes a token.endsOperand (c :: cs ++ rest) rest (token :: ·) := by
  have hlength : rest.length < (c :: cs ++ rest).length := by
    rw [List.length_append, List.length_cons]
    omega
  exact .of_found Script.word hwhole hlength (step_word hletter a (cs ++ rest)) fun column =>
    ⟨_, by rw [word_append hall hrest, htoken]⟩

theorem Lexes.name (f : Callee) (a : Bool) (rest : List Char) :
    Lexes a true (f.name.toList ++ '(' :: rest) ('(' :: rest) (.name f.name :: ·) := by
  have hrest : EndsRun isNameChar ('(' :: rest) := .cons rfl rest
  cases f with
  | builtin f => cases f <;> exact .word (by decide) (by decide) (fun _ => rfl) rfl a hrest
  | _ => exact .word (by decide) (by decide) (fun _ => rfl) rfl a hrest

/-! ## Numbers -/

/-- Whether a number ends before these characters. -/
def EndsNumber (rest : List Char) : Prop := ∀ c, rest.head? = some c → c ∈ [' ', ')', ',']

section

variable {rest : List Char}

theorem EndsNumber.fractionLength_eq (h : EndsNumber rest) : fractionLength rest = 0 := by
  unfold fractionLength
  split
  · exact absurd (h _ rfl) (by decide)
  · rfl

theorem EndsNumber.powerLength_eq (h : EndsNumber rest) : powerLength rest = 0 := by
  unfold powerLength
  split
  · rename_i mark next rest
    have hmark := h mark rfl
    simp only [List.mem_cons, List.not_mem_nil, or_false] at hmark
    rw [if_pos (by rcases hmark with rfl | rfl | rfl <;> decide)]
  · rfl

theorem EndsNumber.bind_base?_eq (h : EndsNumber rest) : rest.head?.bind base? = none := by
  cases rest with
  | nil => rfl
  | cons c rest =>
      have hc := h c rfl
      simp only [List.mem_cons, List.not_mem_nil, or_false] at hc
      rcases hc with rfl | rfl | rfl <;> rfl

theorem EndsNumber.endsRun (h : EndsNumber rest) : EndsRun isNumeric rest := by
  intro c hc
  have hmem := h c hc
  simp only [List.mem_cons, List.not_mem_nil, or_false] at hmem
  rcases hmem with rfl | rfl | rfl <;> rfl

theorem isNumeric_of_isDigit {c : Char} (h : Decimal.isDigit c = true) : isNumeric c = true := by
  rw [isNumeric, h, Bool.true_or]

theorem digitsOf_digits (n : Nat) : digitsOf (Decimal.digits n) = Decimal.digits n :=
  List.filter_eq_self.2 fun c hc => by
    have hdigit := List.all_eq_true.1 (Decimal.all_isDigit_digits n) c hc
    simpa using ne_of_kind hdigit rfl

/-- A whole number has the same double-precision form whichever way it is read. -/
theorem ofDecimal_whole {n : Nat} (hpos : 0 < n) (negative : Bool) :
    (Double.ofDecimal n 0).withSign negative =
      Double.ofInt (if negative then -(n : Int) else n) := by
  have hsize : ¬(n = 0 ∨ (0 : Int) + (n.log2 : Int) < -(2 * Double.widestExponent : Int)) := by
    have hlog : 0 ≤ (n.log2 : Int) := Int.natCast_nonneg _
    rw [Double.widestExponent]
    omega
  have hwide : ¬(Double.widestExponent : Int) < 0 := by decide
  rw [Double.ofDecimal, if_neg hsize, if_neg hwide]
  cases negative with
  | false =>
      have hsign : decide ((n : Int) < 0) = false := decide_eq_false (by omega)
      rw [if_neg Bool.false_ne_true, Double.ofInt, hsign, Int.natAbs_natCast]
      rfl
  | true =>
      have hsign : decide (-(n : Int) < 0) = true := decide_eq_true (by omega)
      rw [if_pos rfl, Double.ofInt, hsign, Int.natAbs_neg, Int.natAbs_natCast]
      rfl

theorem decimal_whole (negative : Bool) (n : Nat) :
    decimal negative (Decimal.digits n) [] [] =
      .constant (.ofInt (if negative then -(n : Int) else n)) := by
  simp only [decimal, exponent?, List.drop_nil, List.append_nil, Decimal.value_digits, Value.ofInt,
    List.isEmpty_nil, Bool.true_and, List.length_nil]
  -- a number that is no word is a double-precision number on both sides
  by_cases hfits : Word.fits (if negative then -(n : Int) else n) = true
  · rw [if_pos hfits]
  · have hpos : 0 < n := by
      refine Nat.pos_of_ne_zero fun h => hfits ?_
      rw [h]
      cases negative <;> decide
    rw [if_neg hfits, if_neg hfits]
    exact congrArg (fun x => Token.constant (.real x)) (ofDecimal_whole hpos negative)

theorem number_digits {negative : Bool} {n : Nat} {cursor : Cursor} (h : EndsNumber rest)
    (hstart : ∃ column,
      behind cursor (if negative then 1 else 0) = ⟨Decimal.digits n ++ rest, column⟩) :
    ∃ column', number negative cursor =
      (.constant (.ofInt (if negative then -(n : Int) else n)), ⟨rest, column'⟩) := by
  obtain ⟨column, hstart⟩ := hstart
  have hall : (Decimal.digits n).all isNumeric = true :=
    SheetCipher.Token.all_of_all (fun _ => isNumeric_of_isDigit) (Decimal.all_isDigit_digits n)
  have hnext : behind ⟨Decimal.digits n ++ rest, column⟩ (Decimal.digits n).length =
      ⟨rest, columnAfter column (Decimal.digits n).length⟩ := by
    rw [behind, List.drop_left]
  simp only [number, hstart, (span_append hall h.endsRun).1, hnext, h.bind_base?_eq, ite_self,
    h.fractionLength_eq, List.take_zero, List.length_nil, digitsOf_digits]
  exact ⟨_, by
    rw [behind, List.drop_zero, h.powerLength_eq, List.take_zero]
    exact congrArg (·, _) (decimal_whole negative n)⟩

theorem step_digit {c : Char} (hc : Decimal.isDigit c = true) (a : Bool) (cs : List Char)
    (column : Nat) : step a ⟨c :: cs, column⟩ =
      (some (number false ⟨c :: cs, column⟩).1, (number false ⟨c :: cs, column⟩).2) := by
  unfold step
  split <;> rename_i heq <;> cases heq
  · cases hc
  · cases hc
  · cases hc
  · cases hc
  · rw [if_neg (ne_of_kind hc rfl), if_neg (ne_of_kind hc rfl), if_neg (ne_of_kind hc rfl),
      if_pos hc]

theorem exists_digits_eq_cons (n : Nat) :
    ∃ c cs, Decimal.digits n = c :: cs ∧ Decimal.isDigit c = true := by
  obtain ⟨c, cs, hcs⟩ := List.exists_cons_of_ne_nil (Decimal.digits_ne_nil n)
  exact ⟨c, cs, hcs,
    List.all_eq_true.1 (Decimal.all_isDigit_digits n) c (hcs ▸ List.mem_cons_self)⟩

theorem Lexes.digits (a : Bool) (n : Nat) (h : EndsNumber rest) :
    Lexes a true (Decimal.digits n ++ rest) rest (.constant (.ofInt n) :: ·) := by
  obtain ⟨c, cs, hcs, hc⟩ := exists_digits_eq_cons n
  refine .of_found (number false) rfl (by rw [hcs, List.length_append, List.length_cons]; omega)
    (fun column => ?_) fun _ => number_digits h ⟨_, rfl⟩
  rw [hcs]
  exact step_digit hc a (cs ++ rest) column

theorem step_minus {c : Char} (hc : Decimal.isDigit c = true) (cs : List Char) (column : Nat) :
    step false ⟨'-' :: c :: cs, column⟩ = (some (number true ⟨'-' :: c :: cs, column⟩).1,
      (number true ⟨'-' :: c :: cs, column⟩).2) := by
  rw [step.eq_def]
  change (if '-' = '"' then _ else _) = _
  rw [if_neg (by decide), if_neg (by decide), if_neg (by decide), if_neg (by decide),
    if_pos ⟨rfl, hc, rfl⟩]

theorem ofInt_toInt (n : Int64) : Value.ofInt n.toInt = .int n := by
  have hlow := n.le_toInt
  have hhigh := n.toInt_lt
  rw [Value.ofInt, if_pos (Word.fits_iff.2 ⟨by omega, by omega⟩), Int64.ofInt_toInt]

theorem Lexes.int (n : Int64) (h : EndsNumber rest) :
    Lexes false true (Decimal.ofInt n.toInt ++ rest) rest (.constant (.int n) :: ·) := by
  have hvalue := ofInt_toInt n
  by_cases hneg : n.toInt < 0
  · obtain ⟨c, cs, hcs, hc⟩ := exists_digits_eq_cons n.toInt.natAbs
    have habs : n.toInt = -(n.toInt.natAbs : Int) := by omega
    have hnumber : ∀ column, ∃ column',
        number true ⟨'-' :: (Decimal.digits n.toInt.natAbs ++ rest), column⟩ =
          (.constant (.int n), ⟨rest, column'⟩) := by
      intro column
      rw [← hvalue, habs, Int.natAbs_neg, Int.natAbs_natCast]
      exact number_digits h ⟨_, rfl⟩
    rw [Decimal.ofInt, if_pos hneg, List.cons_append]
    refine .of_found (number true) rfl (by rw [List.length_cons, List.length_append]; omega)
      (fun column => ?_) hnumber
    rw [hcs]
    exact step_minus hc (cs ++ rest) column
  · have habs : n.toInt = (n.toInt.natAbs : Int) := by omega
    have hdigits := Lexes.digits false n.toInt.natAbs h
    rw [← habs, hvalue] at hdigits
    rw [Decimal.ofInt, if_neg hneg]
    exact hdigits

end

/-! ## Texts -/

section

variable {s rest : List Char} {start column : Nat}

theorem readFrom_escapedChar {c : Char} (hc : c ≠ '\n')
    (hrest : ¬(c = '\r' ∧ rest.head? = some '\n')) :
    ∃ column', Quoted.readFrom '"' start .between false column (Quoted.escapedChar c ++ rest) =
      Quoted.withFirst c <$> Quoted.readFrom '"' start .between false column' rest := by
  rw [Quoted.escapedChar]
  split
  · rename_i hescaped
    rcases hescaped with rfl | rfl <;> exact ⟨_, rfl⟩
  · rename_i hplain
    obtain ⟨hbackslash, hquote⟩ := not_or.1 hplain
    refine ⟨columnAfter column 1, ?_⟩
    rw [List.cons_append, List.nil_append, Quoted.readFrom.eq_def]
    simp only [if_neg hquote, if_neg hc, if_neg hrest, if_neg hbackslash, Bool.false_and,
      Bool.false_eq_true, if_false]

theorem head?_escaped_ne (hline : '\n' ∉ s) (rest : List Char) :
    (s.flatMap Quoted.escapedChar ++ '"' :: rest).head? ≠ some '\n' := by
  cases s with
  | nil => exact fun h => absurd (Option.some.inj h) (by decide)
  | cons c s =>
      have hc : c ≠ '\n' := fun h => hline (h ▸ List.mem_cons_self)
      rw [List.flatMap_cons, Quoted.escapedChar]
      split
      · exact fun h => absurd (Option.some.inj h) (by decide)
      · exact fun h => hc (Option.some.inj h)

/-- A text without line ends, up to the quote that ends it. -/
theorem readFrom_escaped (hline : '\n' ∉ s) (hrest : rest.head? ≠ some '"') :
    ∃ column', Quoted.readFrom '"' start .between false column
      (s.flatMap Quoted.escapedChar ++ '"' :: rest) = .ok (s, ⟨rest, column'⟩) := by
  induction s generalizing column with
  | nil =>
      cases rest with
      | nil => exact ⟨_, rfl⟩
      | cons c rest =>
          have hc : c ≠ '"' := fun h => hrest (congrArg some h)
          refine ⟨columnAfter column 1, ?_⟩
          rw [List.flatMap_nil, List.nil_append, Quoted.readFrom.eq_def]
          simp only [if_neg hc, if_true]
  | cons c s ih =>
      have hc : c ≠ '\n' := fun h => hline (h ▸ List.mem_cons_self)
      have hline : '\n' ∉ s := fun h => hline (List.mem_cons_of_mem _ h)
      rw [List.flatMap_cons, List.append_assoc]
      obtain ⟨next, hstep⟩ := readFrom_escapedChar hc fun h => head?_escaped_ne hline rest h.2
      obtain ⟨column', hread⟩ := ih hline
      exact ⟨column', by rw [hstep, hread]; rfl⟩

/-- A text that runs over a line end is not ended. -/
theorem readFrom_lineEnd (hline : '\n' ∈ s) (rest : List Char) :
    Quoted.readFrom '"' start .between false column
      (s.flatMap Quoted.escapedChar ++ rest) = .error .unclosed := by
  induction s generalizing column with
  | nil => cases hline
  | cons c s ih =>
      rw [List.flatMap_cons, List.append_assoc]
      by_cases hc : c = '\n'
      · subst hc
        change Quoted.readFrom '"' start .between false column ('\n' :: _) = _
        rw [Quoted.readFrom.eq_def]
        rfl
      · have hline : '\n' ∈ s := (List.mem_cons.1 hline).resolve_left (Ne.symm hc)
        -- a carriage return in front of the line feed ends the text already
        by_cases hnext : c = '\r' ∧ (s.flatMap Quoted.escapedChar ++ rest).head? = some '\n'
        · obtain ⟨rfl, hnext⟩ := hnext
          change Quoted.readFrom '"' start .between false column
            ('\r' :: (s.flatMap Quoted.escapedChar ++ rest)) = _
          rw [Quoted.readFrom.eq_def]
          simp only [hnext]
          rfl
        · obtain ⟨next, hstep⟩ := readFrom_escapedChar hc hnext
          rw [hstep, ih hline]
          rfl

end

theorem escaped_append (s rest : List Char) :
    Quoted.escaped s ++ rest = '"' :: (s.flatMap Quoted.escapedChar ++ '"' :: rest) := by
  rw [Quoted.escaped, List.append_assoc]
  rfl

theorem Lexes.text (a : Bool) {s : String} {rest : List Char} (hline : '\n' ∉ s.toList)
    (hrest : rest.head? ≠ some '"') :
    Lexes a true (Quoted.escaped s.toList ++ rest) rest (.constant (.text s) :: ·) := by
  rw [escaped_append]
  refine .of_found (fun cursor => Script.text (behind cursor 1)) rfl
    (by rw [List.length_cons, List.length_append, List.length_cons]; omega)
    (fun _ => rfl) fun column => ?_
  obtain ⟨column', hread⟩ :=
    @readFrom_escaped s.toList rest (columnAfter column 1) (columnAfter column 1) hline hrest
  refine ⟨column', ?_⟩
  change Script.text ⟨s.toList.flatMap Quoted.escapedChar ++ '"' :: rest, columnAfter column 1⟩ = _
  rw [Script.text, Quoted.read, hread]
  exact congrArg (fun s => (Token.constant (.text s), _)) String.ofList_toList

theorem Lexes.openText (a b : Bool) {s : String} (hline : '\n' ∈ s.toList) (rest : List Char) :
    Lexes a b (Quoted.escaped s.toList ++ rest) rest fun _ => [.flaw .openText] := by
  rw [escaped_append]
  refine .of_flaw b (by rw [List.length_cons, List.length_append, List.length_cons]; omega)
    fun column => ?_
  have htext : Script.text ⟨s.toList.flatMap Quoted.escapedChar ++ '"' :: rest,
      columnAfter column 1⟩ = (.flaw .openText,
        ⟨s.toList.flatMap Quoted.escapedChar ++ '"' :: rest, columnAfter column 1⟩) := by
    rw [Script.text, Quoted.read, readFrom_lineEnd hline]
    rfl
  exact ⟨_, congrArg (fun found : Token × Cursor => (some found.1, found.2)) htext⟩

end Script

end SheetCipher
