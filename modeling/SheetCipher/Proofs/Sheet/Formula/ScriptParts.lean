import SheetCipher.Proofs.Sheet.Formula.Word
import SheetCipher.Sheet.Formula.Script

/-!
# ScriptParts — where the parts of a script end

A number ends before the first character that is no digit, a text before the
first quote that is not escaped. What a formula is shows in its first characters
(`opening_eq`), and what follows it can be split into its parts.
-/

namespace SheetCipher

/-! ## Parts that say where they end -/

/-- Whether a text does not go on with characters of one kind. -/
def EndsRun (kind : Char → Bool) (rest : List Char) : Prop :=
  ∀ c, rest.head? = some c → kind c = false

section

variable {kind : Char → Bool} {cs cs' rest rest' : List Char}

theorem EndsRun.nil : EndsRun kind [] := nofun

theorem EndsRun.cons {c : Char} (h : kind c = false) (rest : List Char) :
    EndsRun kind (c :: rest) := by
  rintro _ ⟨⟩
  exact h

theorem EndsRun.append (h : cs.head?.all kind = false) (rest : List Char) :
    EndsRun kind (cs ++ rest) := by
  cases cs with
  | nil => cases h
  | cons c cs => exact .cons (by simpa using h) _

/-- A run of characters of one kind is told from what follows it. -/
theorem EndsRun.append_inj (hrest : EndsRun kind rest) (hrest' : EndsRun kind rest')
    (hcs : cs.all kind = true) (hcs' : cs'.all kind = true) (h : cs ++ rest = cs' ++ rest') :
    cs = cs' ∧ rest = rest' := by
  obtain ⟨htake, hdrop⟩ := Token.span_append hcs hrest
  obtain ⟨htake', hdrop'⟩ := Token.span_append hcs' hrest'
  rw [h] at htake hdrop
  exact ⟨htake.symm.trans htake', hdrop.symm.trans hdrop'⟩

end

namespace Decimal

variable {rest rest' : List Char}

theorem digits_append_inj {m n : Nat} (hrest : EndsRun isDigit rest)
    (hrest' : EndsRun isDigit rest') (h : digits m ++ rest = digits n ++ rest') :
    m = n ∧ rest = rest' := by
  obtain ⟨hdigits, hrests⟩ :=
    hrest.append_inj hrest' (all_isDigit_digits m) (all_isDigit_digits n) h
  refine ⟨?_, hrests⟩
  rw [← value_digits m, hdigits, value_digits]

/-- The first character of an integer shows its sign. -/
theorem exists_head?_ofInt (n : Int) (rest : List Char) :
    ∃ c, (ofInt n ++ rest).head? = some c ∧ (c = '-' ∨ isDigit c = true) ∧ (n < 0 ↔ c = '-') := by
  by_cases hn : n < 0
  · exact ⟨'-', by simp [ofInt, hn], .inl rfl, by simp [hn]⟩
  · obtain ⟨c, hc, hdigit⟩ :=
      Token.head?_append_of_all (digits_ne_nil n.natAbs) (all_isDigit_digits n.natAbs) rest
    have hne : c ≠ '-' := Token.ne_of_kind hdigit rfl
    exact ⟨c, by rw [ofInt, if_neg hn, hc], .inr hdigit, by simp [hn, hne]⟩

theorem ofInt_append_inj {m n : Int} (hrest : EndsRun isDigit rest)
    (hrest' : EndsRun isDigit rest') (h : ofInt m ++ rest = ofInt n ++ rest') :
    m = n ∧ rest = rest' := by
  obtain ⟨c, hc, _, hm⟩ := exists_head?_ofInt m rest
  obtain ⟨c', hc', _, hn⟩ := exists_head?_ofInt n rest'
  rw [h, hc'] at hc
  cases hc
  have hsign : m < 0 ↔ n < 0 := hm.trans hn.symm
  by_cases hneg : m < 0
  · rw [ofInt, ofInt, if_pos hneg, if_pos (hsign.1 hneg), List.cons_append, List.cons_append] at h
    obtain ⟨habs, hrests⟩ := digits_append_inj hrest hrest' (List.cons.inj h).2
    exact ⟨by omega, hrests⟩
  · rw [ofInt, ofInt, if_neg hneg, if_neg (mt hsign.2 hneg)] at h
    obtain ⟨habs, hrests⟩ := digits_append_inj hrest hrest' h
    exact ⟨by omega, hrests⟩

/-- Numbers with a separator behind them. -/
theorem digits_scriptComma_inj {m n : Nat}
    (h : digits m ++ (Formula.scriptComma ++ rest) = digits n ++ (Formula.scriptComma ++ rest')) :
    m = n ∧ rest = rest' := by
  obtain ⟨heq, hrests⟩ := digits_append_inj (.cons rfl _) (.cons rfl _) h
  have hrests : Formula.scriptComma ++ rest = Formula.scriptComma ++ rest' := hrests
  exact ⟨heq, List.append_cancel_left hrests⟩

end Decimal

theorem Builtin.name_toList_inj {f f' : Builtin} (h : f.name.toList = f'.name.toList) :
    f = f' := by
  cases f <;> cases f' <;> first | rfl | exact absurd h (by decide)

namespace Quoted

theorem escapedChar_append_ne (c : Char) (rest rest' : List Char) :
    escapedChar c ++ rest ≠ '"' :: rest' := by
  rw [escapedChar]
  split
  · simp
  · rename_i hplain
    simp [(not_or.1 hplain).2]

theorem escapedChar_append_inj {c c' : Char} {rest rest' : List Char}
    (h : escapedChar c ++ rest = escapedChar c' ++ rest') : c = c' ∧ rest = rest' := by
  by_cases hc : c = '\\' ∨ c = '"' <;> by_cases hc' : c' = '\\' ∨ c' = '"'
  · simpa [escapedChar, hc, hc'] using h
  · -- a backslash does not stand for itself
    simp only [escapedChar, if_pos hc, if_neg hc', List.cons_append, List.cons.injEq] at h
    exact absurd (.inl h.1.symm) hc'
  · simp only [escapedChar, if_neg hc, if_pos hc', List.cons_append, List.cons.injEq] at h
    exact absurd (.inl h.1) hc
  · simpa [escapedChar, hc, hc'] using h

theorem escaped_append_inj {s s' rest rest' : List Char}
    (h : escaped s ++ rest = escaped s' ++ rest') : s = s' ∧ rest = rest' := by
  simp only [escaped, List.cons_append, List.append_assoc, List.nil_append, List.cons.injEq,
    true_and] at h
  induction s generalizing s' with
  | nil =>
      cases s' with
      | nil => simpa using h
      | cons c' s' =>
          rw [List.flatMap_cons, List.append_assoc] at h
          exact absurd h.symm (escapedChar_append_ne c' _ _)
  | cons c s ih =>
      rw [List.flatMap_cons, List.append_assoc] at h
      cases s' with
      | nil => exact absurd h (escapedChar_append_ne c _ _)
      | cons c' s' =>
          rw [List.flatMap_cons, List.append_assoc] at h
          obtain ⟨rfl, hlater⟩ := escapedChar_append_inj h
          obtain ⟨rfl, hrests⟩ := ih hlater
          exact ⟨rfl, hrests⟩

/-- A text without quotes in it, up to the quote that ends it. -/
theorem quoteFree_append_inj {s s' rest rest' : List Char} (hs : '"' ∉ s) (hs' : '"' ∉ s')
    (h : s ++ '"' :: rest = s' ++ '"' :: rest') : s = s' ∧ rest = rest' := by
  have hends : ∀ rest, EndsRun (· != '"') ('"' :: rest) := .cons rfl
  have hall : ∀ {s : List Char}, '"' ∉ s → s.all (· != '"') = true := fun hs =>
    List.all_eq_true.2 fun c hc => bne_iff_ne.2 (ne_of_mem_of_not_mem hc hs)
  obtain ⟨heq, hrests⟩ := (hends rest).append_inj (hends rest') (hall hs) (hall hs') h
  exact ⟨heq, (List.cons.inj hrests).2⟩

end Quoted

/-! ## How a formula begins -/

/-- What the first characters of a script say of its formula. -/
inductive Opening where
  /-- The quote in front of a text. -/
  | quote
  /-- The name of what is called; no letters in front of an integer. -/
  | word (letters : List Char)
  /-- The parenthesis around operands. -/
  | group
  /-- The parenthesis around a choice. -/
  | choice
deriving DecidableEq

namespace Opening

def ofChars : List Char → Opening
  | '"' :: _ => quote
  | '(' :: 'i' :: _ => choice
  | '(' :: _ => group
  | cs => word (cs.takeWhile CellRef.isLetter)

theorem ofChars_group {cs : List Char} (h : cs.head? ≠ some 'i') : ofChars ('(' :: cs) = group := by
  cases cs with
  | nil => rfl
  | cons c cs =>
      have hc : c ≠ 'i' := fun hc => h (congrArg some hc)
      simp [ofChars, hc]

/-- In front of an integer stands no name. -/
theorem ofChars_ofInt (n : Int) (rest : List Char) :
    ofChars (Decimal.ofInt n ++ rest) = word [] := by
  obtain ⟨c, hc, hkind, _⟩ := Decimal.exists_head?_ofInt n rest
  obtain ⟨cs, hcs⟩ := List.head?_eq_some_iff.1 hc
  have hplain : c ≠ '"' ∧ c ≠ '(' ∧ CellRef.isLetter c = false := by
    rcases hkind with rfl | hdigit
    · decide
    · exact ⟨Token.ne_of_kind hdigit rfl, Token.ne_of_kind hdigit rfl,
        Token.isLetter_eq_false_of_isDigit hdigit⟩
  rw [hcs]
  simp [ofChars, hplain]

end Opening

namespace Formula

def opening : Formula → Opening
  | text _ => .quote
  | int _ => .word []
  | cell _ _ => .word "VALUE".toList
  | call f _ => .word f.name.toList
  | all _ | binary _ _ _ => .group
  | cond _ _ _ => .choice
  | indirect _ _ => .word "INDIRECT".toList
  | index _ _ => .word "INDEX".toList

/-- No script starts with the letter that tells a choice from other
parentheses, with a parenthesis that closes, or with a star, which would be one
sign with the parenthesis before it. -/
theorem exists_head?_scriptChars (e : Formula) (rest : List Char) :
    ∃ c, (e.scriptChars ++ rest).head? = some c ∧ c ≠ 'i' ∧ c ≠ ')' ∧ c ≠ '*' := by
  cases e with
  | int n =>
      obtain ⟨c, hc, hkind, _⟩ := Decimal.exists_head?_ofInt n.toInt rest
      refine ⟨c, hc, ?_⟩
      rcases hkind with rfl | hdigit
      · decide
      · exact ⟨Token.ne_of_kind hdigit rfl, Token.ne_of_kind hdigit rfl,
          Token.ne_of_kind hdigit rfl⟩
  | call f args => cases f <;> exact ⟨_, rfl, by decide⟩
  | text | cell | all | binary | cond | indirect | index => exact ⟨_, rfl, by decide⟩

theorem scriptChars_append_ne (e : Formula) (rest rest' : List Char) :
    e.scriptChars ++ rest ≠ ')' :: rest' := by
  obtain ⟨c, hc, _, hne, _⟩ := e.exists_head?_scriptChars rest
  intro h
  rw [h] at hc
  exact hne (Option.some.inj hc).symm

theorem scriptChars_append_head?_ne (e : Formula) (rest : List Char) :
    (e.scriptChars ++ rest).head? ≠ some 'i' := by
  obtain ⟨c, hc, hne, _⟩ := e.exists_head?_scriptChars rest
  rw [hc]
  exact fun h => hne (Option.some.inj h)

/-! ## Scripts with something behind them -/

/-- The scripts of the arguments behind the first one. -/
def scriptTail (separator : List Char) (es : List Formula) : List Char :=
  es.flatMap fun e => separator ++ e.scriptChars

theorem scriptArgs_cons (separator : List Char) (e : Formula) (es : List Formula) :
    scriptArgs separator (e :: es) = e.scriptChars ++ scriptTail separator es := by
  induction es generalizing e with
  | nil => simp [scriptArgs, scriptTail]
  | cons e' es ih =>
      rw [scriptArgs, ih]
      · simp [scriptTail]
      · exact fun h => by cases h

section

variable (rest : List Char)

theorem cell_append (ref : CellRef) (anchor : Anchor) : (cell ref anchor).scriptChars ++ rest =
    "VALUE(".toList ++ (Decimal.digits ref.col ++ (scriptComma ++
      (Decimal.digits ref.row ++ ')' :: rest))) := by
  rw [scriptChars.eq_def]
  simp only [List.append_assoc, List.cons_append, List.nil_append]

theorem call_append (f : Builtin) (args : List Formula) : (call f args).scriptChars ++ rest =
    f.name.toList ++ '(' :: (scriptArgs scriptComma args ++ ')' :: rest) := by
  rw [scriptChars.eq_def]
  simp only [List.append_assoc, List.cons_append, List.nil_append]

theorem all_append (args : List Formula) : (all args).scriptChars ++ rest =
    '(' :: (scriptArgs " && ".toList args ++ ')' :: rest) := by
  rw [scriptChars.eq_def]
  simp only [List.append_assoc, List.cons_append, List.nil_append]

theorem binary_append (op : Operator) (lhs rhs : Formula) :
    (binary op lhs rhs).scriptChars ++ rest =
      '(' :: (lhs.scriptChars ++ ' ' :: (op.scriptSign.toList ++
        ' ' :: (rhs.scriptChars ++ ')' :: rest))) := by
  rw [scriptChars.eq_def]
  simp only [List.append_assoc, List.cons_append, List.nil_append]

theorem cond_append (condition thenForm elseForm : Formula) :
    (cond condition thenForm elseForm).scriptChars ++ rest =
      "(if ".toList ++ (condition.scriptChars ++ (" \x7b ".toList ++ (thenForm.scriptChars ++
        (" \x7d else \x7b ".toList ++ (elseForm.scriptChars ++ (" \x7d)".toList ++ rest)))))) := by
  rw [scriptChars.eq_def]
  simp only [List.append_assoc]

theorem indirect_append (col : Nat) (row : Formula) : (indirect col row).scriptChars ++ rest =
    "INDIRECT(".toList ++ (Decimal.digits col ++ (scriptComma ++
      (row.scriptChars ++ ')' :: rest))) := by
  rw [scriptChars.eq_def]
  simp only [List.append_assoc, List.cons_append, List.nil_append]

theorem index_append (block : ColumnBlock) (position : Formula) :
    (index block position).scriptChars ++ rest =
      "INDEX(".toList ++ ('"' :: (block.sheet.toList ++ '"' :: (scriptComma ++
        (Decimal.digits block.col ++ (scriptComma ++ (Decimal.digits block.firstRow ++
          (scriptComma ++ (Decimal.digits block.lastRow ++ (scriptComma ++
            (position.scriptChars ++ ')' :: rest)))))))))) := by
  rw [scriptChars.eq_def]
  simp only [scriptBlock, List.append_assoc, List.cons_append, List.nil_append]

end

theorem opening_ofChars (e : Formula) (rest : List Char) :
    Opening.ofChars (e.scriptChars ++ rest) = e.opening := by
  cases e with
  | text s => rfl
  | int n => exact Opening.ofChars_ofInt n.toInt rest
  | call f args => cases f <;> rfl
  | all args =>
      rw [all_append]
      refine Opening.ofChars_group ?_
      cases args with
      | nil => simp [scriptArgs]
      | cons e es =>
          rw [scriptArgs_cons, List.append_assoc]
          exact e.scriptChars_append_head?_ne _
  | binary op lhs rhs =>
      rw [binary_append]
      exact Opening.ofChars_group (lhs.scriptChars_append_head?_ne _)
  | cell | cond | indirect | index => rfl

theorem opening_eq {e e' : Formula} {rest rest' : List Char}
    (h : e.scriptChars ++ rest = e'.scriptChars ++ rest') : e.opening = e'.opening := by
  rw [← opening_ofChars e rest, h, opening_ofChars]

end Formula

end SheetCipher
