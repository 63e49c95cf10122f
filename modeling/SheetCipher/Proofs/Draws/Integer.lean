import Mathlib.Data.Rat.Floor
import SheetCipher.Proofs.Draws.Rounding

/-!
# Integer — where a scaled word lands

The size of a range and its product with a word are both kept to 53 bits, and
keeping bits may make a number larger. A word is below `2 ^ 32`, though, so that
its product stays one part in `2 ^ 32` short of the size, far more than two
roundings add: a word never lands behind the end of the range (`offset_lt`), and
a drawn integer is in its range at every magnitude (`drawInteger_inRange`). Up to
`2 ^ 21` integers nothing is rounded at all, and integer division says where the
word lands (`offset_eq`).
-/

namespace SheetCipher.Draws

/-! ## Ranges that are scaled without rounding -/

/-- Ranges of up to this many integers are scaled without rounding. -/
def exactSize : Nat := 0x200000

theorem toNat_mul_lt (word : UInt32) {size : Nat} (h : size ≤ exactSize) :
    word.toNat * size < Nat.pow 2 precision := by
  have hword := word.toNat_lt
  calc word.toNat * size ≤ word.toNat * exactSize := Nat.mul_le_mul_left _ h
    _ < 0x100000000 * exactSize := Nat.mul_lt_mul_of_pos_right hword (by decide)
    _ = Nat.pow 2 precision := by decide

/-! ## Where a word lands -/

/-- The product of a word and the size of a range, as far as it is kept. -/
def scaled (word : UInt32) (size : Nat) : Nat :=
  roundToBits precision (word.toNat * roundToBits precision size)

theorem offset_natCast (word : UInt32) (size : Nat) :
    offset word size = (scaled word size / 0x100000000 : Nat) := by
  have hsign : ¬ (size : Int) < 0 := by omega
  simp only [offset, Int.natAbs_natCast, if_neg hsign]
  rfl

theorem offset_nonneg (word : UInt32) (size : Nat) : 0 ≤ offset word size := by
  rw [offset_natCast]
  exact Int.natCast_nonneg _

/-- **Integer division says where a word lands.** -/
theorem offset_eq (word : UInt32) {size : Nat} (h : size ≤ exactSize) :
    offset word size = (word.toNat * size / 0x100000000 : Nat) := by
  have hsize : size < Nat.pow 2 precision := Nat.lt_of_le_of_lt h (by decide)
  rw [offset_natCast, scaled, roundToBits_of_lt hsize, roundToBits_of_lt (toNat_mul_lt word h)]

/-- Two roundings add less than the largest word falls short of `2 ^ 32`. -/
theorem scaled_lt (word : UInt32) {size : Nat} (h : 0 < size) :
    scaled word size < 0x100000000 * size := by
  have hword : word.toNat ≤ 0xffffffff := Nat.le_of_lt_succ word.toNat_lt
  have hsize := roundToBits_mul_le 52 size
  have hproduct := roundToBits_mul_le 52 (word.toNat * roundToBits precision size)
  refine Nat.lt_of_mul_lt_mul_left (a := 2 ^ 53 * 2 ^ 53) ?_
  calc 2 ^ 53 * 2 ^ 53 * scaled word size
      = 2 ^ 53 * (2 ^ 53 * scaled word size) := Nat.mul_assoc _ _ _
    _ ≤ 2 ^ 53 * ((2 ^ 53 + 1) * (word.toNat * roundToBits precision size)) :=
        Nat.mul_le_mul_left _ hproduct
    _ = (2 ^ 53 + 1) * (word.toNat * (2 ^ 53 * roundToBits precision size)) := by ring
    _ ≤ (2 ^ 53 + 1) * (0xffffffff * ((2 ^ 53 + 1) * size)) :=
        Nat.mul_le_mul_left _ (Nat.mul_le_mul hword hsize)
    _ < 2 ^ 53 * 2 ^ 53 * (0x100000000 * size) := by omega

/-- **No word lands behind the end of its range**, however large the range. -/
theorem offset_lt (word : UInt32) {size : Nat} (h : 0 < size) : offset word size < size := by
  rw [offset_natCast, Int.ofNat_lt, Nat.div_lt_iff_lt_mul (by decide), Nat.mul_comm]
  exact scaled_lt word h

/-- What a word is scaled to is the nearest number to its fraction of the kept
size. -/
theorem isNearest_scaled (word : UInt32) (size : Nat) :
    IsNearest precision (word.toNat / 2 ^ 32 * roundToBits precision size)
      (scaled word size / (0x100000000 : Nat)) := by
  have hnearest := (isNearest_roundToBits (b := 52) (by decide)
    (word.toNat * roundToBits precision size)).mul_two_zpow (-32)
  have hscale : ∀ x : ℚ, x * 2 ^ (-32 : Int) = x / (0x100000000 : Nat) := fun x => by
    rw [zpow_neg, ← div_eq_mul_inv]
    norm_cast
  have hexact : (word.toNat / 2 ^ 32 * roundToBits precision size : ℚ) =
      (word.toNat * roundToBits precision size : Nat) * 2 ^ (-32 : Int) := by
    rw [hscale, Nat.cast_mul, div_mul_eq_mul_div]
    norm_cast
  rw [hexact, ← hscale]
  exact hnearest

theorem floor_scaled (word : UInt32) (size : Nat) :
    ⌊(scaled word size / (0x100000000 : Nat) : ℚ)⌋ = offset word size := by
  rw [Rat.floor_natCast_div_natCast, offset_natCast]
  rfl

/-- A larger word lands no lower. -/
theorem offset_mono {word word' : UInt32} (h : word ≤ word') (size : Nat) :
    offset word size ≤ offset word' size := by
  rw [offset_natCast, offset_natCast, Int.ofNat_le]
  refine Nat.div_le_div_right (roundToBits_mono (b := 52) (by decide) ?_)
  exact Nat.mul_le_mul_right _ (UInt32.le_iff_toNat_le.1 h)

/-- An index is one of the places that it is drawn for. -/
theorem index_le (word : UInt32) (last : Nat) : index word last ≤ last := by
  have hlt : offset word (last + 1) < last + 1 := by exact_mod_cast offset_lt word last.succ_pos
  rw [index]
  omega

/-! ## Drawing an integer -/

theorem rangeSize_eq_ok {lo hi : Int64} {size : Nat} (hsize : hi.toInt - lo.toInt + 1 = size)
    (h : size < 0x8000000000000000) : ∃ w, rangeSize lo hi = .ok w ∧ w.toInt = size := by
  have hone := Int64.toInt_one
  obtain ⟨d, hd, hval⟩ := Word.exists_ofInt .difference (n := hi.toInt - lo.toInt)
    (Word.fits_iff.2 (by omega))
  obtain ⟨w, hw, hval'⟩ := Word.exists_ofInt .sum (n := d.toInt + (1 : Int64).toInt)
    (Word.fits_iff.2 (by omega))
  refine ⟨w, ?_, by omega⟩
  rw [rangeSize, Word.sub, hd]
  exact hw

/-- The integer that a word selects is as far above the low end as the word
lands. -/
theorem integer_eq_ok (word : UInt32) {lo hi : Int64} {size : Nat}
    (hsize : hi.toInt - lo.toInt + 1 = size) (hpos : 0 < size) (h : size < 0x8000000000000000) :
    ∃ n, integer word lo hi = .ok n ∧ n.toInt = lo.toInt + offset word size := by
  have hlo := lo.le_toInt
  have hhi := hi.toInt_lt
  obtain ⟨w, hw, hval⟩ := rangeSize_eq_ok hsize h
  have hge := offset_nonneg word size
  have hlt := offset_lt word hpos
  have hword : (Int64.ofInt (offset word w.toInt)).toInt = offset word size := by
    rw [hval]
    exact Int64.toInt_ofInt_of_le (by omega) (by omega)
  obtain ⟨n, hn, hvaln⟩ := Word.exists_ofInt .sum
    (n := lo.toInt + (Int64.ofInt (offset word w.toInt)).toInt) (Word.fits_iff.2 (by omega))
  refine ⟨n, ?_, by omega⟩
  rw [integer, hw]
  exact hn

/-- **A drawn integer is in its range.** -/
theorem integer_mem (word : UInt32) {lo hi : Int64} (hle : lo.toInt ≤ hi.toInt)
    (h : hi.toInt - lo.toInt + 1 < 0x8000000000000000) :
    ∃ n, integer word lo hi = .ok n ∧ lo.toInt ≤ n.toInt ∧ n.toInt ≤ hi.toInt := by
  obtain ⟨size, hsize⟩ : ∃ size : Nat, hi.toInt - lo.toInt + 1 = size :=
    Int.eq_ofNat_of_zero_le (by omega)
  obtain ⟨n, hn, hval⟩ := integer_eq_ok word hsize (by omega) (by omega)
  have hge := offset_nonneg word size
  have hlt := offset_lt word (show 0 < size by omega)
  exact ⟨n, hn, by omega, by omega⟩

/-- A draw spends one word. -/
theorem drawInteger_eq_ok {draws : Draws} {lo hi n : Int64}
    (h : integer (draws 0) lo hi = .ok n) : draws.drawInteger lo hi = (.ok n, draws.drop 1) := by
  cases hsize : rangeSize lo hi with
  | error overrun =>
      rw [integer, hsize] at h
      cases h
  | ok w => rw [drawInteger, hsize, h]

/-- An index is the integer that is drawn from `0 .. last`. -/
theorem drawInteger_index (draws : Draws) {last : Nat} (h : last < 0x7fffffffffffffff) :
    draws.drawInteger 0 (Int64.ofNat last) =
      (.ok (Int64.ofNat (index (draws 0) last)), draws.drop 1) := by
  have hzero : (0 : Int64).toInt = 0 := by decide
  have hlast : (Int64.ofNat last).toInt = last := Int64.toInt_ofNat_of_lt (by omega)
  have hle := index_le (draws 0) last
  have hindex : (Int64.ofNat (index (draws 0) last)).toInt = index (draws 0) last :=
    Int64.toInt_ofNat_of_lt (by omega)
  have hsize : (Int64.ofNat last).toInt - (0 : Int64).toInt + 1 = (last + 1 : Nat) := by omega
  obtain ⟨n, hn, hval⟩ := integer_eq_ok (draws 0) hsize last.succ_pos (by omega)
  have hoffset : offset (draws 0) (last + 1 : Nat) = index (draws 0) last := by
    rw [index, ← Int.natCast_add_one, Int.toNat_of_nonneg (offset_nonneg _ _)]
  have heq : n = Int64.ofNat (index (draws 0) last) := Int64.toInt_inj.1 (by omega)
  exact drawInteger_eq_ok (heq ▸ hn)

/-- **A drawn integer is in its range at every magnitude.** The size of the
range and its product with the fraction that the word stands for are each the
nearest number of 53 bits, and the integer is as far above the low end as the
whole part of the product. Integer division says where that is up to `2 ^ 21`
integers, and a larger word never gives a smaller one. -/
theorem drawInteger_inRange (draws : Draws) {lo hi : Int64} (hle : lo ≤ hi)
    (hfits : hi.toInt - lo.toInt + 1 < 0x8000000000000000) :
    ∃ (n : Int64) (size product : ℚ), draws.drawInteger lo hi = (.ok n, draws.drop 1) ∧
      IsNearest precision (hi.toInt - lo.toInt + 1 : Int) size ∧
      IsNearest precision ((draws 0).toNat / 2 ^ 32 * size) product ∧
      n.toInt = lo.toInt + ⌊product⌋ ∧ lo ≤ n ∧ n ≤ hi ∧
      (hi.toInt - lo.toInt + 1 ≤ exactSize →
        n.toInt = lo.toInt + (draws 0).toNat * (hi.toInt - lo.toInt + 1) / 2 ^ 32) ∧
      ∀ other : Draws, draws 0 ≤ other 0 →
        ∃ n', other.drawInteger lo hi = (.ok n', other.drop 1) ∧ n ≤ n' := by
  rw [Int64.le_iff_toInt_le] at hle
  obtain ⟨size, hsize⟩ : ∃ size : Nat, hi.toInt - lo.toInt + 1 = size :=
    Int.eq_ofNat_of_zero_le (by omega)
  have hpos : 0 < size := by omega
  have hge := offset_nonneg (draws 0) size
  have hlt := offset_lt (draws 0) hpos
  obtain ⟨n, hn, hval⟩ := integer_eq_ok (draws 0) hsize hpos (by omega)
  rw [hsize]
  refine ⟨n, _, _, drawInteger_eq_ok hn, isNearest_roundToBits (b := 52) (by decide) size,
    isNearest_scaled (draws 0) size, ?_, ?_, ?_, fun hexact => ?_, fun other hother => ?_⟩
  · rw [floor_scaled, hval]
  · rw [Int64.le_iff_toInt_le]
    omega
  · rw [Int64.le_iff_toInt_le]
    omega
  · rw [hval, offset_eq (draws 0) (by exact_mod_cast hexact)]
    rfl
  · obtain ⟨n', hn', hval'⟩ := integer_eq_ok (other 0) hsize hpos (by omega)
    have hmono := offset_mono hother size
    refine ⟨n', drawInteger_eq_ok hn', ?_⟩
    rw [Int64.le_iff_toInt_le]
    omega

/-- The largest word and as many integers as a range may hold, whose number is
kept as `2 ^ 63`. -/
theorem drawInteger_inRange_widest :
    let draws : Draws := fun _ => 0xffffffff
    (-0x4000000000000000 : Int64) ≤ 0x3ffffffffffffffe ∧
    (0x3ffffffffffffffe : Int64).toInt - (-0x4000000000000000 : Int64).toInt + 1 =
      0x7fffffffffffffff ∧
    roundToBits precision 0x7fffffffffffffff = 0x8000000000000000 ∧
    draws.drawInteger (-0x4000000000000000) 0x3ffffffffffffffe =
      (.ok 0x3fffffff80000000, draws.drop 1) ∧
    (0x3fffffff80000000 : Int64) ≤ 0x3ffffffffffffffe := by
  intro draws
  have hle : (-0x4000000000000000 : Int64) ≤ 0x3ffffffffffffffe := by decide
  have hsize : (0x3ffffffffffffffe : Int64).toInt - (-0x4000000000000000 : Int64).toInt + 1 =
      0x7fffffffffffffff := by decide
  obtain ⟨n, _, _, hn, _, _, _, _, hhigh, _⟩ :=
    drawInteger_inRange draws hle (by rw [hsize]; decide)
  have hdrawn : draws.drawInteger (-0x4000000000000000) 0x3ffffffffffffffe =
      (.ok 0x3fffffff80000000, draws.drop 1) :=
    drawInteger_eq_ok (by decide +kernel)
  have heq : n = 0x3fffffff80000000 := Except.ok.inj (Prod.mk.inj (hn.symm.trans hdrawn)).1
  exact ⟨hle, hsize, by decide +kernel, hdrawn, heq ▸ hhigh⟩

end SheetCipher.Draws
