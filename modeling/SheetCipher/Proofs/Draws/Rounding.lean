import Mathlib.Algebra.Order.Field.Rat
import Mathlib.Algebra.Order.Field.Power
import Mathlib.Algebra.Ring.Parity
import Mathlib.Tactic.Linarith
import Mathlib.Tactic.Ring
import SheetCipher.Draws.Integer

/-!
# Rounding — the nearest number of few bits

A number has `bits` significant bits if it is an integer of that many bits
times a power of two. Two such numbers that are neighbours have no other one
between them (`HasBits.le_or_ge`), so what lies in the gap has the nearer of
the two as its nearest number, and from the middle of the gap the one that ends
in a zero bit (`isNearest_low`, `isNearest_high`). This is the number that
`roundToBits` keeps (`isNearest_roundToBits`). Being nearest goes with order
and with powers of two, and it adds at most one part in `2 ^ bits`.
-/

namespace SheetCipher

/-! ## Vocabulary -/

/-- A number of at most `bits` significant bits. -/
def HasBits (bits : Nat) (x : ℚ) : Prop :=
  ∃ kept scale : Int, |kept| < 2 ^ bits ∧ x = kept * 2 ^ scale

/-- The number of `bits` significant bits that is nearest to an exact one. Of
two that are equally near it is the one whose last bit is 0, and which has one
bit less without it. -/
structure IsNearest (bits : Nat) (ideal x : ℚ) : Prop where
  hasBits : HasBits bits x
  nearest : ∀ y, HasBits bits y → |x - ideal| ≤ |y - ideal|
  even : ∀ y, HasBits bits y → y ≠ x → |y - ideal| = |x - ideal| → HasBits (bits - 1) x

/-! ## Neighbours -/

/-- The power of two that takes one bit more has few bits as well. -/
theorem hasBits_of_le {bits kept : Nat} (hbits : 0 < bits) (h : kept ≤ 2 ^ bits) (scale : Int) :
    HasBits bits (kept * 2 ^ scale) := by
  rcases Nat.lt_or_eq_of_le h with h | rfl
  · refine ⟨kept, scale, ?_, by norm_cast⟩
    rw [Nat.abs_cast]
    exact_mod_cast h
  · refine ⟨1, bits + scale, ?_, ?_⟩
    · rw [abs_one]
      exact one_lt_pow₀ (by norm_num) (by omega)
    · rw [zpow_add₀ (by norm_num)]
      norm_cast
      rw [one_mul]

/-- **Nothing lies between neighbours**: a number of few bits is not above the
lower one or not below the upper one. -/
theorem HasBits.le_or_ge {b kept : Nat} (hkept : 2 ^ b ≤ kept) (scale : Int) {y : ℚ}
    (hy : HasBits (b + 1) y) : y ≤ kept * 2 ^ scale ∨ (kept + 1) * 2 ^ scale ≤ y := by
  obtain ⟨k, e, hk, rfl⟩ := hy
  have hpos : (0 : ℚ) < 2 ^ scale := zpow_pos (by norm_num) scale
  rcases le_or_gt scale e with he | he
  · -- a multiple of the distance between the two
    obtain ⟨d, rfl⟩ := Int.le.dest he
    have hmultiple : (k : ℚ) * 2 ^ (scale + d) = (k * 2 ^ d : Int) * 2 ^ scale := by
      rw [zpow_add₀ (by norm_num), zpow_natCast]
      push_cast
      ring
    rw [hmultiple]
    rcases lt_or_ge (kept : Int) (k * 2 ^ d) with hlt | hle
    · exact .inr (mul_le_mul_of_nonneg_right (by exact_mod_cast hlt) hpos.le)
    · exact .inl (mul_le_mul_of_nonneg_right (by exact_mod_cast hle) hpos.le)
  · -- finer numbers of few bits are all below
    have hlt : (k : ℚ) < 2 ^ (b + 1) := by exact_mod_cast (le_abs_self k).trans_lt hk
    refine .inl ?_
    calc (k : ℚ) * 2 ^ e ≤ 2 ^ (b + 1) * 2 ^ e :=
          mul_le_mul_of_nonneg_right hlt.le (zpow_pos (by norm_num) e).le
      _ = 2 ^ b * 2 ^ (e + 1) := by
          rw [zpow_add_one₀ (by norm_num)]
          ring
      _ ≤ 2 ^ b * 2 ^ scale :=
          mul_le_mul_of_nonneg_left (zpow_le_zpow_right₀ (by norm_num) (by omega)) (by positivity)
      _ ≤ kept * 2 ^ scale := mul_le_mul_of_nonneg_right (by exact_mod_cast hkept) hpos.le

section Gap

variable {b kept : Nat} {scale : Int} {ideal : ℚ}

/-- The lower neighbour is the nearest up to the middle of the gap, which
belongs to it if its last bit is 0. -/
theorem isNearest_low (hkept : 2 ^ b ≤ kept) (hlt : kept < 2 ^ (b + 1))
    (hlow : kept * 2 ^ scale ≤ ideal)
    (hle : ideal - kept * 2 ^ scale ≤ (kept + 1) * 2 ^ scale - ideal)
    (heven : ideal - kept * 2 ^ scale = (kept + 1) * 2 ^ scale - ideal → Even kept) :
    IsNearest (b + 1) ideal (kept * 2 ^ scale) where
  hasBits := hasBits_of_le (by omega) hlt.le scale
  nearest := by
    intro y hy
    rw [abs_of_nonpos (sub_nonpos.2 hlow)]
    rcases hy.le_or_ge hkept scale with hy | hy
    · rw [abs_of_nonpos (sub_nonpos.2 (hy.trans hlow))]
      linarith
    · rw [abs_of_nonneg (by linarith)]
      linarith
  even := by
    intro y hy hne heq
    rw [abs_of_nonpos (sub_nonpos.2 hlow)] at heq
    rcases hy.le_or_ge hkept scale with hy | hy
    · rw [abs_of_nonpos (sub_nonpos.2 (hy.trans hlow))] at heq
      exact absurd (by linarith) hne
    · rw [abs_of_nonneg (by linarith)] at heq
      obtain ⟨half, rfl⟩ := heven (by linarith)
      have hhalf : ((half + half : Nat) : ℚ) * 2 ^ scale = half * 2 ^ (scale + 1) := by
        rw [zpow_add_one₀ (by norm_num)]
        push_cast
        ring
      rw [hhalf, Nat.add_sub_cancel]
      refine ⟨half, scale + 1, ?_, by norm_cast⟩
      rw [Nat.abs_cast]
      exact_mod_cast (show half < 2 ^ b by omega)

/-- The upper neighbour is the nearest from the middle of the gap on, which
belongs to it if the last bit of the lower one is 1. -/
theorem isNearest_high (hb : 0 < b) (hkept : 2 ^ b ≤ kept) (hlt : kept < 2 ^ (b + 1))
    (hhigh : ideal ≤ (kept + 1) * 2 ^ scale)
    (hle : (kept + 1) * 2 ^ scale - ideal ≤ ideal - kept * 2 ^ scale)
    (hodd : (kept + 1) * 2 ^ scale - ideal = ideal - kept * 2 ^ scale → Odd kept) :
    IsNearest (b + 1) ideal ((kept + 1) * 2 ^ scale) where
  hasBits := by
    have hle : kept + 1 ≤ 2 ^ (b + 1) := by omega
    exact_mod_cast hasBits_of_le (by omega) hle scale
  nearest := by
    intro y hy
    rw [abs_of_nonneg (sub_nonneg.2 hhigh)]
    rcases hy.le_or_ge hkept scale with hy | hy
    · rw [abs_of_nonpos (by linarith)]
      linarith
    · rw [abs_of_nonneg (sub_nonneg.2 (hhigh.trans hy))]
      linarith
  even := by
    intro y hy hne heq
    rw [abs_of_nonneg (sub_nonneg.2 hhigh)] at heq
    rcases hy.le_or_ge hkept scale with hy | hy
    · rw [abs_of_nonpos (by linarith)] at heq
      obtain ⟨half, rfl⟩ := hodd (by linarith)
      have hhalf : (((2 * half + 1 : Nat) : ℚ) + 1) * 2 ^ scale =
          (half + 1 : Nat) * 2 ^ (scale + 1) := by
        rw [zpow_add_one₀ (by norm_num)]
        push_cast
        ring
      rw [hhalf, Nat.add_sub_cancel]
      exact hasBits_of_le hb (by omega) (scale + 1)
    · rw [abs_of_nonneg (sub_nonneg.2 (hhigh.trans hy))] at heq
      exact absurd (by linarith) hne

end Gap

/-! ## Order and powers of two -/

theorem HasBits.mul_two_zpow {bits : Nat} {x : ℚ} (h : HasBits bits x) (e : Int) :
    HasBits bits (x * 2 ^ e) := by
  obtain ⟨kept, scale, hkept, rfl⟩ := h
  refine ⟨kept, scale + e, hkept, ?_⟩
  rw [zpow_add₀ (by norm_num), mul_assoc]

theorem IsNearest.mul_two_zpow {bits : Nat} {ideal x : ℚ} (h : IsNearest bits ideal x) (e : Int) :
    IsNearest bits (ideal * 2 ^ e) (x * 2 ^ e) := by
  have hpos : (0 : ℚ) < 2 ^ e := zpow_pos (by norm_num) e
  have hdistance : ∀ y : ℚ, |y * 2 ^ e - ideal * 2 ^ e| = |y - ideal| * 2 ^ e := fun y => by
    rw [← sub_mul, abs_mul, abs_of_pos hpos]
  -- every number of few bits is one of few bits times the power
  have hback : ∀ y, HasBits bits y → ∃ z, HasBits bits z ∧ y = z * 2 ^ e := fun y hy =>
    ⟨y * 2 ^ (-e), hy.mul_two_zpow (-e), by
      rw [mul_assoc, ← zpow_add₀ (by norm_num), neg_add_cancel, zpow_zero, mul_one]⟩
  refine ⟨h.hasBits.mul_two_zpow e, fun y hy => ?_, fun y hy hne heq => ?_⟩
  · obtain ⟨z, hz, rfl⟩ := hback y hy
    rw [hdistance, hdistance]
    exact mul_le_mul_of_nonneg_right (h.nearest z hz) hpos.le
  · obtain ⟨z, hz, rfl⟩ := hback y hy
    rw [hdistance, hdistance] at heq
    refine (h.even z hz (fun hzx => hne (by rw [hzx])) ?_).mul_two_zpow e
    exact mul_right_cancel₀ hpos.ne' heq

/-- What is at least as near to the larger of two numbers is not below their
middle. -/
theorem middle_le {ideal x x' : ℚ} (hlt : x' < x) (h : |x - ideal| ≤ |x' - ideal|) :
    x' + x ≤ 2 * ideal := by
  have hsquares : (x - ideal) ^ 2 ≤ (x' - ideal) ^ 2 := sq_le_sq.2 h
  nlinarith

/-- What is at least as near to the smaller of two numbers is not above their
middle. -/
theorem le_middle {ideal x x' : ℚ} (hlt : x' < x) (h : |x' - ideal| ≤ |x - ideal|) :
    2 * ideal ≤ x' + x := by
  have hsquares : (x' - ideal) ^ 2 ≤ (x - ideal) ^ 2 := sq_le_sq.2 h
  nlinarith

/-- A larger number has no smaller nearest one. -/
theorem IsNearest.mono {bits : Nat} {ideal ideal' x x' : ℚ} (h : IsNearest bits ideal x)
    (h' : IsNearest bits ideal' x') (hlt : ideal < ideal') : x ≤ x' := by
  by_contra hgt
  have hlow := middle_le (not_le.1 hgt) (h.nearest x' h'.hasBits)
  have hhigh := le_middle (not_le.1 hgt) (h'.nearest x h.hasBits)
  linarith

/-! ## Keeping bits -/

/-- A number that has few enough bits keeps them all. -/
theorem roundToBits_of_lt {bits n : Nat} (h : n < Nat.pow 2 bits) : roundToBits bits n = n := by
  by_cases hn : n = 0
  · subst hn
    simp [roundToBits]
  · have hlog : n.log2 < bits := (Nat.log2_lt hn).2 h
    have hdropped : n.log2 + 1 - bits = 0 := Nat.sub_eq_zero_of_le hlog
    simp [roundToBits, hdropped, Nat.mod_one]

/-- A number with bits to drop lies in a gap between neighbours, and one of
them is kept. -/
theorem exists_gap {b n : Nat} (h : 2 ^ (b + 1) ≤ n) :
    ∃ dropped kept rest, n = kept * 2 ^ dropped + rest ∧ rest < 2 ^ dropped ∧
      2 ^ b ≤ kept ∧ kept < 2 ^ (b + 1) ∧
      roundToBits (b + 1) n =
        if 2 ^ dropped < 2 * rest ∨ (2 ^ dropped = 2 * rest ∧ kept % 2 = 1)
        then (kept + 1) * 2 ^ dropped else kept * 2 ^ dropped := by
  have hn : n ≠ 0 := by
    have := Nat.two_pow_pos (b + 1)
    omega
  have hlog : b + 1 ≤ n.log2 := (Nat.le_log2 hn).2 h
  refine ⟨n.log2 + 1 - (b + 1), n / 2 ^ (n.log2 + 1 - (b + 1)), n % 2 ^ (n.log2 + 1 - (b + 1)),
    (Nat.div_add_mod' _ _).symm, Nat.mod_lt _ (Nat.two_pow_pos _), ?_, ?_, rfl⟩
  · rw [Nat.le_div_iff_mul_le (Nat.two_pow_pos _), ← Nat.pow_add,
      show b + (n.log2 + 1 - (b + 1)) = n.log2 by omega]
    exact Nat.log2_self_le hn
  · rw [Nat.div_lt_iff_lt_mul (Nat.two_pow_pos _), ← Nat.pow_add,
      show b + 1 + (n.log2 + 1 - (b + 1)) = n.log2 + 1 by omega]
    exact Nat.lt_log2_self

/-- **Keeping bits keeps the nearest number that has them.** -/
theorem isNearest_roundToBits {b : Nat} (hb : 0 < b) (n : Nat) :
    IsNearest (b + 1) n (roundToBits (b + 1) n) := by
  rcases Nat.lt_or_ge n (2 ^ (b + 1)) with hlt | hge
  · rw [roundToBits_of_lt hlt]
    have hbits := hasBits_of_le b.succ_pos hlt.le 0
    rw [zpow_zero, mul_one] at hbits
    refine ⟨hbits, fun y _ => by simp, fun y _ hne heq => ?_⟩
    rw [sub_self, abs_zero, abs_eq_zero, sub_eq_zero] at heq
    exact absurd heq hne
  · obtain ⟨dropped, kept, rest, rfl, hrest, hkept, hlt, hround⟩ := exists_gap hge
    have hcast : ∀ k : Nat, ((k * 2 ^ dropped : Nat) : ℚ) = k * 2 ^ (dropped : Int) := fun k => by
      rw [zpow_natCast]
      push_cast
      rfl
    have hrest : (rest : ℚ) < 2 ^ (dropped : Int) := by exact_mod_cast hrest
    have hrest0 : (0 : ℚ) ≤ rest := Nat.cast_nonneg rest
    rw [hround, Nat.cast_add, hcast]
    split
    · rename_i hup
      have hnear : (2 : ℚ) ^ (dropped : Int) ≤ 2 * rest := by exact_mod_cast (by omega)
      rw [hcast, Nat.cast_add_one]
      refine isNearest_high hb hkept hlt (by linarith) (by linarith) fun heq => ?_
      have htie : (2 : ℚ) ^ (dropped : Int) = 2 * rest := by linarith
      have htie : 2 ^ dropped = 2 * rest := by exact_mod_cast htie
      rw [Nat.odd_iff]
      omega
    · rename_i hdown
      have hnear : 2 * (rest : ℚ) ≤ 2 ^ (dropped : Int) := by exact_mod_cast (by omega)
      rw [hcast]
      refine isNearest_low hkept hlt (by linarith) (by linarith) fun heq => ?_
      have htie : (2 : ℚ) ^ (dropped : Int) = 2 * rest := by linarith
      have htie : 2 ^ dropped = 2 * rest := by exact_mod_cast htie
      rw [Nat.even_iff]
      omega

theorem roundToBits_mono {b : Nat} (hb : 0 < b) {m n : Nat} (h : m ≤ n) :
    roundToBits (b + 1) m ≤ roundToBits (b + 1) n := by
  rcases Nat.lt_or_eq_of_le h with hlt | rfl
  · exact_mod_cast (isNearest_roundToBits hb m).mono (isNearest_roundToBits hb n)
      (by exact_mod_cast hlt)
  · exact Nat.le_refl _

/-- What is kept is larger by at most one part in `2 ^ bits`. -/
theorem roundToBits_mul_le (b n : Nat) :
    2 ^ (b + 1) * roundToBits (b + 1) n ≤ (2 ^ (b + 1) + 1) * n := by
  rcases Nat.lt_or_ge n (2 ^ (b + 1)) with hlt | hge
  · rw [roundToBits_of_lt hlt]
    exact Nat.mul_le_mul_right n (Nat.le_succ _)
  · obtain ⟨dropped, kept, rest, rfl, hrest, hkept, hlt, hround⟩ := exists_gap hge
    have hlow : 2 ^ b * 2 ^ dropped ≤ kept * 2 ^ dropped := Nat.mul_le_mul_right _ hkept
    have hpow : 2 ^ (b + 1) = 2 * 2 ^ b := by omega
    rw [hround, hpow]
    split
    · rename_i hup
      have hnear : 2 ^ b * 2 ^ dropped ≤ 2 ^ b * (2 * rest) :=
        Nat.mul_le_mul_left _ (by omega)
      linarith
    · linarith [Nat.zero_le (2 * 2 ^ b * rest), Nat.zero_le rest]

end SheetCipher
