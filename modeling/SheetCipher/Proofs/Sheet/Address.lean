import Mathlib.Data.List.Induction
import SheetCipher.Proofs.Sheet.Formula.Word
import SheetCipher.Proofs.Template.LetterMap

/-!
# Address — the spellings of an address

An address is shown in one way and read in many: its letters may be small, its
number may have zeros in front, and each of the two may be pinned. Those are
all (`ofText?_inverse`). Letters and digits are compared by what they count
for: both systems lose nothing, a word of letters because it has no digit for
zero, a number as soon as the zeros in front are left out.
-/

namespace SheetCipher

open Token (pinned)

/-! ## Zeros in front of a number -/

namespace Decimal

theorem digit_digitValue {c : Char} (h : isDigit c = true) :
    digitValue c < 10 ∧ digit (digitValue c) = c := by
  simp only [isDigit, Char.le_def, UInt32.le_iff_toNat_le, Bool.and_eq_true, decide_eq_true_eq] at h
  have hlow : 48 ≤ c.toNat := h.1
  have hhigh : c.toNat ≤ 57 := h.2
  refine ⟨by rw [digitValue]; omega, ?_⟩
  rw [digit, digitValue, show 48 + (c.toNat - 48) = c.toNat by omega, Char.ofNat_toNat]

theorem value_zeros (zeros : Nat) (cs : List Char) :
    value (List.replicate zeros '0' ++ cs) = value cs := by
  induction zeros with
  | zero => rfl
  | succ zeros ih =>
      rw [List.replicate_succ, List.cons_append, ← ih]
      rfl

/-- Digits are zeros and then those of their number, if it has any. -/
theorem exists_zeros {cs : List Char} (h : cs.all isDigit = true) :
    ∃ zeros, cs = List.replicate zeros '0' ++ if value cs = 0 then [] else digits (value cs) := by
  induction cs using List.reverseRecOn with
  | nil => exact ⟨0, rfl⟩
  | append_singleton cs c ih =>
      simp only [List.all_append, List.all_cons, List.all_nil, Bool.and_true,
        Bool.and_eq_true] at h
      obtain ⟨zeros, hzeros⟩ := ih h.1
      obtain ⟨hlt, hdigit⟩ := digit_digitValue h.2
      rw [value_append_singleton]
      by_cases hfront : value cs = 0
      · rw [if_pos hfront, List.append_nil] at hzeros
        rw [hfront, Nat.mul_zero, Nat.zero_add]
        split
        · rename_i hlast
          rw [hlast] at hdigit
          refine ⟨zeros + 1, ?_⟩
          rw [List.replicate_succ', List.append_nil, ← hzeros, ← hdigit]
          rfl
        · exact ⟨zeros, by rw [digits, if_pos hlt, hdigit, ← hzeros]⟩
      · rw [if_neg hfront] at hzeros
        refine ⟨zeros, ?_⟩
        rw [if_neg (by omega), digits, if_neg (by omega),
          show (10 * value cs + digitValue c) / 10 = value cs by omega,
          show (10 * value cs + digitValue c) % 10 = digitValue c by omega, hdigit,
          ← List.append_assoc, ← hzeros]

/-- **The spellings of a number** other than 0 differ in the zeros in front. -/
theorem eq_zeros_append_digits_iff {cs : List Char} {n : Nat} (hn : n ≠ 0) :
    (cs.all isDigit = true ∧ value cs = n) ↔
      ∃ zeros, cs = List.replicate zeros '0' ++ digits n := by
  constructor
  · rintro ⟨hall, rfl⟩
    obtain ⟨zeros, hzeros⟩ := exists_zeros hall
    rw [if_neg hn] at hzeros
    exact ⟨zeros, hzeros⟩
  · rintro ⟨zeros, rfl⟩
    refine ⟨?_, by rw [value_zeros, value_digits]⟩
    rw [List.all_append, all_isDigit_digits, Bool.and_true, List.all_replicate]
    split <;> rfl

end Decimal

/-! ## Letters of either case -/

namespace CellRef

theorem exists_letterCase {c : Char} (h : isLetter c = true) :
    ∃ k, LetterCase.ofChar? c = some k := by
  simp only [isLetter, Bool.or_eq_true, Bool.and_eq_true, decide_eq_true_eq] at h
  rw [LetterCase.ofChar?]
  rcases h with h | h
  · exact ⟨.upper, if_pos h⟩
  · split
    · exact ⟨.upper, rfl⟩
    · exact ⟨.lower, rfl⟩

/-- What a letter counts for is the place of its large form in the alphabet. -/
theorem toUpper_of_isLetter {c : Char} (h : isLetter c = true) :
    ∃ d < 26, letterValue c = d + 1 ∧ c.toUpper = Char.ofNat (65 + d) := by
  have hall : ∀ (k : LetterCase), ∀ d < 26, letterValue (k.letter d) = d + 1 ∧
      (k.letter d).toUpper = Char.ofNat (65 + d) := by
    intro k
    cases k <;> decide
  obtain ⟨k, hk⟩ := exists_letterCase h
  obtain ⟨d, hd, rfl⟩ := LetterCase.exists_index hk
  exact ⟨d, hd, hall k d hd⟩

/-- Only letters become letters. -/
theorem isLetter_of_toUpper {c : Char} (h : isLetter c.toUpper = true) : isLetter c = true := by
  by_cases hsmall : 'a' ≤ c ∧ c ≤ 'z'
  · simp only [isLetter, Bool.or_eq_true, Bool.and_eq_true, decide_eq_true_eq]
    exact .inr hsmall
  · have hsame : c.toUpper = c := dif_neg hsmall
    rwa [hsame] at h

theorem lettersValue_pos {cs : List Char} (hne : cs ≠ []) (h : cs.all isLetter = true) :
    0 < lettersValue cs := by
  obtain rfl | ⟨front, c, rfl⟩ := List.eq_nil_or_concat' cs
  · exact absurd rfl hne
  · obtain ⟨d, _, hvalue, _⟩ :=
      toUpper_of_isLetter (List.all_eq_true.1 h c (by simp))
    rw [lettersValue_append_singleton, hvalue]
    omega

/-- A word of letters is the one of the column that it counts, but for the
case. -/
theorem letters_lettersValue {cs : List Char} (hne : cs ≠ []) (h : cs.all isLetter = true) :
    letters (lettersValue cs - 1) = cs.map Char.toUpper := by
  induction cs using List.reverseRecOn with
  | nil => exact absurd rfl hne
  | append_singleton cs c ih =>
      simp only [List.all_append, List.all_cons, List.all_nil, Bool.and_true,
        Bool.and_eq_true] at h
      obtain ⟨d, hd, hvalue, hupper⟩ := toUpper_of_isLetter h.2
      rw [lettersValue_append_singleton, hvalue, List.map_append, List.map_singleton, hupper,
        letters]
      by_cases hfront : cs = []
      · subst hfront
        simp only [lettersValue, List.foldl_nil, Nat.mul_zero, Nat.zero_add, Nat.add_sub_cancel,
          if_pos hd, List.map_nil, List.nil_append]
      · -- the letters in front count at least one, so there is a column before this letter
        have hpos := lettersValue_pos hfront h.1
        rw [if_neg (by omega),
          show (26 * lettersValue cs + (d + 1) - 1) / 26 - 1 = lettersValue cs - 1 by omega,
          show (26 * lettersValue cs + (d + 1) - 1) % 26 = d by omega, ih hfront h.1]

theorem lettersValue_map_toUpper {cs : List Char} (h : cs.all isLetter = true) :
    lettersValue (cs.map Char.toUpper) = lettersValue cs := by
  by_cases hne : cs = []
  · rw [hne]
    rfl
  · have hpos := lettersValue_pos hne h
    rw [← letters_lettersValue hne h, lettersValue_letters]
    omega

/-- **The spellings of a column** differ in the case of the letters. -/
theorem map_toUpper_eq_letters_iff {cs : List Char} {col : Nat} :
    (cs ≠ [] ∧ cs.all isLetter = true ∧ lettersValue cs = col + 1) ↔
      cs.map Char.toUpper = letters col := by
  constructor
  · rintro ⟨hne, hall, hvalue⟩
    rw [← letters_lettersValue hne hall, hvalue, Nat.add_sub_cancel]
  · intro h
    have hne : cs ≠ [] := by
      rintro rfl
      exact letters_ne_nil col h.symm
    have hall : cs.all isLetter = true := by
      have hupper := all_isLetter_letters col
      rw [← h, List.all_map, List.all_eq_true] at hupper
      exact List.all_eq_true.2 fun c hc => isLetter_of_toUpper (hupper c hc)
    refine ⟨hne, hall, ?_⟩
    rw [← lettersValue_map_toUpper hall, h, lettersValue_letters]

/-! ## Reading -/

theorem exists_pinned (cs : List Char) : ∃ pin, cs = pinned pin (dropPin cs) := by
  rw [dropPin.eq_def]
  split
  · exact ⟨true, rfl⟩
  · exact ⟨false, rfl⟩

/-- Letters and digits with pins or none are an address if they count a column
and a row that are words. -/
theorem ofChars?_pinned {word number : List Char} (hword : word ≠ [])
    (hletters : word.all isLetter = true) (hnumber : number ≠ [])
    (hdigits : number.all Decimal.isDigit = true) (column row : Bool) :
    ofChars? (pinned column (word ++ pinned row number)) =
      if lettersValue word < Word.count ∧ Decimal.value number < Word.count ∧
          1 ≤ Decimal.value number then
        some ⟨lettersValue word - 1, Decimal.value number - 1⟩
      else none := by
  obtain ⟨hbody, _, htake, hdrop, hrest, _⟩ :=
    Token.parts_pinned hword hletters hnumber hdigits column row
  simp only [ofChars?, hbody, htake, hdrop, hrest, ne_eq, hword, hnumber, hdigits,
    not_false_eq_true, true_and]

/-- **What is read as an address**: letters and digits, with pins or none, that
count a column and a row from 1 on, both of them words. -/
theorem ofChars?_eq_some_iff {cs : List Char} {ref : CellRef} :
    ofChars? cs = some ref ↔ ∃ column row word number,
      cs = pinned column (word ++ pinned row number) ∧
      (word ≠ [] ∧ word.all isLetter = true ∧ lettersValue word = ref.col + 1) ∧
      (number.all Decimal.isDigit = true ∧ Decimal.value number = ref.row + 1) ∧
      ref.col + 1 < Word.count ∧ ref.row + 1 < Word.count := by
  constructor
  · intro h
    obtain ⟨column, hcolumn⟩ := exists_pinned cs
    obtain ⟨row, hrow⟩ := exists_pinned ((dropPin cs).dropWhile isLetter)
    simp only [ofChars?] at h
    split at h
    · rename_i hparts
      obtain ⟨hword, _, hdigits, hcol, hrows, hpos⟩ := hparts
      have hletters : ((dropPin cs).takeWhile isLetter).all isLetter = true := List.all_takeWhile
      have hcolpos := lettersValue_pos hword hletters
      cases h
      refine ⟨column, row, _, _, ?_, ⟨hword, hletters, by simp only; omega⟩,
        ⟨hdigits, by simp only; omega⟩, by simp only; omega, by simp only; omega⟩
      rw [← hrow, List.takeWhile_append_dropWhile, ← hcolumn]
    · cases h
  · rintro ⟨column, row, word, number, rfl, ⟨hword, hletters, hcol⟩, ⟨hdigits, hvalue⟩, hcols,
      hrows⟩
    have hnumber : number ≠ [] := by
      rintro rfl
      simp [Decimal.value] at hvalue
    rw [ofChars?_pinned hword hletters hnumber hdigits, hcol, hvalue]
    exact if_pos ⟨hcols, hrows, by omega⟩

/-- The spellings of an address: the letters of its column, large or small, and
the digits of its row behind any number of zeros, each with a pin in front or
none. -/
def IsSpelling (ref : CellRef) (cs : List Char) : Prop :=
  ∃ (column row : Bool) (word : List Char) (zeros : Nat),
    word.map Char.toUpper = letters ref.col ∧
      cs = pinned column (word ++ pinned row (List.replicate zeros '0' ++ rowDigits ref.row))

theorem isSpelling_iff {ref : CellRef} {cs : List Char} :
    ref.IsSpelling cs ↔ ∃ column row word number,
      cs = pinned column (word ++ pinned row number) ∧
      (word ≠ [] ∧ word.all isLetter = true ∧ lettersValue word = ref.col + 1) ∧
      number.all Decimal.isDigit = true ∧ Decimal.value number = ref.row + 1 := by
  constructor
  · rintro ⟨column, row, word, zeros, hword, rfl⟩
    exact ⟨column, row, word, _, rfl, map_toUpper_eq_letters_iff.2 hword,
      (Decimal.eq_zeros_append_digits_iff (Nat.succ_ne_zero _)).2 ⟨zeros, rfl⟩⟩
  · rintro ⟨column, row, word, number, rfl, hword, hnumber⟩
    obtain ⟨zeros, rfl⟩ := (Decimal.eq_zeros_append_digits_iff (Nat.succ_ne_zero _)).1 hnumber
    exact ⟨column, row, word, zeros, map_toUpper_eq_letters_iff.1 hword, rfl⟩

/-- What is shown of an address is one of its spellings. -/
theorem isSpelling_chars (ref : CellRef) (anchor : Anchor) : ref.IsSpelling (ref.chars anchor) := by
  obtain ⟨column, row, _, hchars⟩ := Token.exists_pins ref anchor
  exact isSpelling_iff.2 ⟨column, row, letters ref.col, rowDigits ref.row, hchars,
    ⟨letters_ne_nil _, all_isLetter_letters _, lettersValue_letters _⟩,
    Decimal.all_isDigit_digits _, Decimal.value_digits _⟩

/-- An address whose column and row have a number that is a word. -/
def IsInWords (ref : CellRef) : Prop := ref.col < Word.count - 1 ∧ ref.row < Word.count - 1

instance (ref : CellRef) : Decidable ref.IsInWords := inferInstanceAs (Decidable (_ ∧ _))

theorem ofText?_eq_some_iff {s : String} {ref : CellRef} :
    ofText? s = some ref ↔ ref.IsInWords ∧ ref.IsSpelling s.toList := by
  rw [ofText?, ofChars?_eq_some_iff, isSpelling_iff, IsInWords]
  constructor
  · rintro ⟨column, row, word, number, hcs, hword, hnumber, hcol, hrow⟩
    exact ⟨⟨by omega, by omega⟩, column, row, word, number, hcs, hword, hnumber⟩
  · rintro ⟨⟨hcol, hrow⟩, column, row, word, number, hcs, hword, hnumber⟩
    exact ⟨column, row, word, number, hcs, hword, hnumber, by omega, by omega⟩

/-- No spelling has any other characters than letters, digits and pins. -/
theorem IsSpelling.mem_kinds {ref : CellRef} {cs : List Char} (h : ref.IsSpelling cs) :
    ∀ c ∈ cs, isLetter c = true ∨ Decimal.isDigit c = true ∨ c = '$' := by
  obtain ⟨column, row, word, number, rfl, ⟨_, hletters, _⟩, hdigits, _⟩ := isSpelling_iff.1 h
  have hpinned : ∀ (pin : Bool) (cs : List Char) (c : Char),
      c ∈ pinned pin cs → c = '$' ∨ c ∈ cs := by
    intro pin cs c hc
    cases pin with
    | true => exact List.mem_cons.1 hc
    | false => exact .inr hc
  intro c hc
  rcases hpinned column _ c hc with hc | hc
  · exact .inr (.inr hc)
  · rcases List.mem_append.1 hc with hc | hc
    · exact .inl (List.all_eq_true.1 hletters c hc)
    · rcases hpinned row _ c hc with hc | hc
      · exact .inr (.inr hc)
      · exact .inr (.inl (List.all_eq_true.1 hdigits c hc))

/-- **An address is read from its spellings and from nothing else.** Whatever
is pinned, what is shown of an address in words gives it back; a character that
is no letter, digit or pin makes a text unreadable, and so do a row 0 and a
number that is no word. -/
theorem ofText?_inverse :
    (∀ (s : String) (ref : CellRef),
      ofText? s = some ref ↔ ref.IsInWords ∧ ref.IsSpelling s.toList) ∧
    (∀ (ref : CellRef) (anchor : Anchor), ref.IsInWords → ofText? (ref.text anchor) = some ref) ∧
    (∀ s : String, (∃ c ∈ s.toList, isLetter c = false ∧ Decimal.isDigit c = false ∧ c ≠ '$') →
      ofText? s = none) ∧
    ∀ (column row : Bool) (word number : List Char), word ≠ [] → word.all isLetter = true →
      number ≠ [] → number.all Decimal.isDigit = true →
      (Decimal.value number = 0 ∨ Word.count ≤ Decimal.value number ∨
        Word.count ≤ lettersValue word) →
      ofText? (String.ofList (pinned column (word ++ pinned row number))) = none := by
  refine ⟨fun _ _ => ofText?_eq_some_iff, fun ref anchor h => ?_, fun s ⟨c, hc, hkinds⟩ => ?_,
    fun column row word number hword hletters hnumber hdigits hvalues => ?_⟩
  · exact ofText?_eq_some_iff.2 ⟨h, by simpa [text] using isSpelling_chars ref anchor⟩
  · refine Option.eq_none_iff_forall_ne_some.2 fun ref href => ?_
    have hmem := (ofText?_eq_some_iff.1 href).2.mem_kinds c hc
    simp [hkinds] at hmem
  · rw [ofText?, String.toList_ofList, ofChars?_pinned hword hletters hnumber hdigits]
    exact if_neg (by omega)

/-- The last cell of all comes back with both its pins, small letters and zeros
make no difference, and a line end does. -/
theorem ofText?_inverse_lastCell :
    let last : CellRef := ⟨0xfffffffffffffffe, 0xfffffffffffffffe⟩
    (last.IsInWords ∧ ofText? (last.text .absolute) = some last) ∧
      (IsSpelling ⟨27, 11⟩ "$aB$0012".toList ∧ ofText? "$aB$0012" = some ⟨27, 11⟩) ∧
      ofText? "A1\n" = none := by
  intro last
  have hwords : last.IsInWords := by decide
  have hspelling : IsSpelling ⟨27, 11⟩ "$aB$0012".toList := by
    refine ⟨true, true, ['a', 'B'], 2, ?_, ?_⟩
    · simp [letters]
    · simp [pinned, rowDigits, Decimal.digits, Decimal.digit]
  exact ⟨⟨hwords, ofText?_inverse.2.1 last .absolute hwords⟩,
    ⟨hspelling, (ofText?_inverse.1 "$aB$0012" ⟨27, 11⟩).2 ⟨by decide, hspelling⟩⟩,
    ofText?_inverse.2.2.1 "A1\n" ⟨'\n', by decide, by decide⟩⟩

end CellRef

end SheetCipher
