import Mathlib.Data.Int.Basic
import SheetCipher.Eval.Callee
import SheetCipher.Proofs.Cipher.Stage

/-!
# Builtin — the functions of a sheet, on numbers

Words are known here by the numbers that they stand for. `MOD` is the floored
remainder of those numbers; a text of at most one character is a place of a
list that may lie behind its end; a look-up is a look-up by address.
-/

namespace SheetCipher

/-! ## Words of numbers -/

namespace Word

/-- What a sheet counts is far from the largest word. -/
theorem le_largest {n : Nat} (h : n < 0x100000000) : n ≤ largest := by
  simp only [largest]
  omega

theorem toInt_ofNat {n : Nat} (h : n ≤ largest) : (Int64.ofNat n).toInt = n := by
  simp only [largest] at h
  exact Int64.toInt_ofNat_of_lt (by omega)

theorem toInt_min (a b : Int64) : (if a ≤ b then a else b).toInt = min a.toInt b.toInt := by
  simp only [Int64.le_iff_toInt_le]
  split <;> omega

end Word

theorem Value.exists_ofInt {n : Nat} (h : n ≤ Word.largest) :
    ∃ w : Int64, Value.ofInt n = .int w ∧ w.toInt = n := by
  simp only [Word.largest] at h
  have hfits : Word.fits n = true := Word.fits_iff.2 (by omega)
  exact ⟨Int64.ofInt n, if_pos hfits, Int64.toInt_ofInt_of_le (by omega) (by omega)⟩

/-- What a cell shows of a character that may be missing. -/
def Value.ofChar? (c : Option Char) : Value := .text (String.ofList c.toList)

namespace Builtin

/-! ## Remainders -/

theorem tmod_nonpos {n : Int} (d : Int) (h : n ≤ 0) : n.tmod d ≤ 0 := by
  have hneg := Int.tmod_nonneg d (a := -n) (by omega)
  rw [Int.neg_tmod] at hneg
  omega

/-- The truncated remainder is the floored one, or one divisor away from it if
its sign is not that of the divisor. -/
theorem fmod_eq_ite_tmod (n d : Int) : n.fmod d =
    if n.tmod d ≠ 0 ∧ (n.tmod d < 0) ≠ (d < 0) then n.tmod d + d else n.tmod d := by
  rw [Int.fmod_eq_tmod]
  simp only [Int.dvd_iff_tmod_eq_zero, ne_eq, eq_iff_iff]
  by_cases hn : 0 ≤ n
  · have hsign := Int.tmod_nonneg d hn
    split <;> split <;> omega
  · have hsign := tmod_nonpos d (n := n) (by omega)
    split <;> split <;> omega

/-- **`MOD` is the floored remainder**, wherever it has a value. -/
theorem floorMod_eq_ok {n d : Int64} (hd : d ≠ 0) (h : ¬ (n = Int64.minValue ∧ d = -1)) :
    ∃ r, floorMod n d = .ok r ∧ r.toInt = n.toInt.fmod d.toInt := by
  have hzero : ∀ r : Int64, (r ≠ 0) = (r.toInt ≠ 0) := fun r => by
    rw [ne_eq, ← Int64.toInt_inj]
    rfl
  have hneg : ∀ r : Int64, (r < 0) = (r.toInt < 0) := fun r => by
    rw [Int64.lt_iff_toInt_lt]
    rfl
  rw [floorMod, if_neg hd, if_neg h]
  refine ⟨_, rfl, ?_⟩
  simp only [hzero, hneg, Int64.toInt_mod, fmod_eq_ite_tmod]
  split
  · rename_i hsigns
    -- the remainder and the divisor have different signs, so that their sum is a word
    have hlow := (n % d).le_toInt
    have hhigh := (n % d).toInt_lt
    have hdlow := d.le_toInt
    have hdhigh := d.toInt_lt
    simp only [Int64.toInt_mod, ne_eq, eq_iff_iff] at hlow hhigh hsigns
    rw [Int64.toInt_add, Int64.toInt_mod]
    exact Int.bmod_eq_of_le (by omega) (by omega)
  · rw [Int64.toInt_mod]

theorem floorMod_of_pos (n : Int64) {d : Int64} (hd : 0 < d.toInt) :
    ∃ r, floorMod n d = .ok r ∧ r.toInt = n.toInt % d.toInt := by
  obtain ⟨r, hr, hval⟩ := floorMod_eq_ok (n := n) (d := d)
    (fun h => by rw [h] at hd; exact absurd hd (by decide))
    (fun h => by rw [h.2] at hd; exact absurd hd (by decide))
  exact ⟨r, hr, by rw [hval, Int.fmod_eq_emod_of_nonneg _ (by omega)]⟩

/-! ## Texts -/

/-- One character from a place on. -/
theorem midText_one (s : String) {start : Int64} {i : Nat} (h : start.toInt = i + 1) :
    midText s start 1 = String.ofList s.toList[i]?.toList := by
  have hstart : ¬ (start < 1 ∨ (1 : Int64) < 1) := by
    rw [Int64.lt_iff_toInt_lt, h]
    rintro (hlt | hlt)
    · change ((i : Int) + 1 < 1) at hlt
      omega
    · exact absurd hlt (by decide)
  rw [midText, if_neg hstart, h, show ((i : Int) + 1).toNat - 1 = i by omega]
  change String.ofList ((s.toList.drop i).take 1) = _
  rw [List.take_one, List.head?_drop]

theorem toInt_lenText (s : String) :
    (lenText s).toInt = Nat.min s.toList.length Word.largest :=
  Word.toInt_ofNat (Nat.min_le_right ..)

theorem toInt_codeText (c : Char) : (codeText (String.ofList [c])).toInt = c.toNat := by
  have := Char.toNat_lt_codes c
  rw [codeText, String.toList_ofList]
  exact Int64.toInt_ofNat_of_lt (by omega)

theorem charText_toNat (c : Char) {code : Int64} (h : code.toInt = c.toNat) :
    charText code = String.ofList [c] := by
  have hcode : 0 ≤ code ∧ code.toInt.toNat.isValidChar := by
    rw [Int64.le_iff_toInt_le, h, Int.toNat_natCast]
    exact ⟨Int.natCast_nonneg _, c.valid⟩
  rw [charText, if_pos hcode, h, Int.toNat_natCast, Char.ofNat_toNat]
  rfl

end Builtin

/-! ## Look-ups -/

theorem Values.readAt_eq_read (values : Values) {col row : Int64} {ref : CellRef}
    (hcol : col.toInt = ref.col) (hrow : row.toInt = ref.row) :
    values.readAt col row = values.read ref := by
  have hpos : ¬ (col < 0 ∨ row < 0) := by
    rw [Int64.lt_iff_toInt_lt, Int64.lt_iff_toInt_lt, hcol, hrow, Int64.toInt_zero]
    omega
  rw [readAt, if_neg hpos, hcol, hrow]
  rfl

end SheetCipher
