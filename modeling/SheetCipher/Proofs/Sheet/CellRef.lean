import SheetCipher.Sheet.CellRef

/-!
# CellRef — letters of columns

The letters of a column count it: they are digits from 1 to 26, so no column
has two words and every word of letters names a column.
-/

namespace SheetCipher.CellRef

theorem isLetter_ofNat {d : Nat} (h : d < 26) : isLetter (Char.ofNat (65 + d)) = true := by
  have : ∀ d, d < 26 → isLetter (Char.ofNat (65 + d)) = true := by decide
  exact this d h

theorem letterValue_ofNat {d : Nat} (h : d < 26) : letterValue (Char.ofNat (65 + d)) = d + 1 := by
  have : ∀ d, d < 26 → letterValue (Char.ofNat (65 + d)) = d + 1 := by decide
  exact this d h

theorem letters_ne_nil (col : Nat) : letters col ≠ [] := by
  rw [letters]
  split <;> simp

theorem all_isLetter_letters (col : Nat) : (letters col).all isLetter = true := by
  induction col using Nat.strongRecOn with
  | ind col ih =>
    rw [letters]
    split
    · rename_i h
      simp [isLetter_ofNat h]
    · rename_i h
      rw [List.all_append, ih (col / 26 - 1) (by omega)]
      simp [isLetter_ofNat (Nat.mod_lt col (by decide : 26 > 0))]

theorem lettersValue_append_singleton (cs : List Char) (c : Char) :
    lettersValue (cs ++ [c]) = 26 * lettersValue cs + letterValue c := by
  simp [lettersValue, List.foldl_append]

/-- **The letters of a column give it back.** -/
theorem lettersValue_letters (col : Nat) : lettersValue (letters col) = col + 1 := by
  induction col using Nat.strongRecOn with
  | ind col ih =>
    rw [letters]
    split
    · rename_i h
      simp [lettersValue, letterValue_ofNat h]
    · rename_i h
      rw [lettersValue_append_singleton, ih (col / 26 - 1) (by omega),
        letterValue_ofNat (Nat.mod_lt col (by decide : 26 > 0))]
      omega

end SheetCipher.CellRef
