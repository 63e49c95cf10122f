import SheetCipher.Proofs.Eval.Builtin

/-!
# Remainder — `MOD` on all words

The remainder of a number lies between 0 and the divisor, on the side of the
divisor, and a multiple of the divisor away from the number; no other number does
(`IsRemainder.unique`). `MOD` gives it for every number and every divisor but 0,
with one exception: the least word has no remainder by -1, because the division
overruns its word (`mod_overruns_leastWord`).
-/

namespace SheetCipher.Builtin

/-- The remainder that has the sign of the divisor. -/
structure IsRemainder (n d r : Int) : Prop where
  congruent : d ∣ n - r
  ofPos : 0 < d → 0 ≤ r ∧ r < d
  ofNeg : d < 0 → d < r ∧ r ≤ 0

theorem isRemainder_fmod (n : Int) {d : Int} (hd : d ≠ 0) : IsRemainder n d (n.fmod d) where
  congruent := by
    rw [Int.fmod_def, Int.sub_sub_self]
    exact Int.dvd_mul_right ..
  ofPos hpos := ⟨Int.fmod_nonneg_of_pos n hpos, Int.fmod_lt_of_pos n hpos⟩
  ofNeg hneg := by
    have hlow := Int.emod_nonneg n hd
    have hhigh := Int.emod_lt n hd
    rw [Int.fmod_eq_emod]
    split
    · rename_i h
      have hzero := Int.emod_eq_zero_of_dvd (h.resolve_left (by omega))
      omega
    · rename_i h
      have hne : n % d ≠ 0 := fun hzero => h (.inr (Int.dvd_of_emod_eq_zero hzero))
      omega

/-- **There is one remainder.** -/
theorem IsRemainder.unique {n d r s : Int} (hd : d ≠ 0) (hr : IsRemainder n d r)
    (hs : IsRemainder n d s) : s = r := by
  have hdvd : d ∣ s - r := by
    have hsub := Int.dvd_sub hr.congruent hs.congruent
    rwa [show n - r - (n - s) = s - r by omega] at hsub
  have hsmall : (s - r).natAbs < d.natAbs := by
    obtain hneg | hpos := Int.lt_or_gt_of_ne hd
    · have := hr.ofNeg hneg
      have := hs.ofNeg hneg
      omega
    · have := hr.ofPos hpos
      have := hs.ofPos hpos
      omega
  have hzero := Int.eq_zero_of_dvd_of_natAbs_lt_natAbs hdvd hsmall
  omega

theorem apply_mod (n d : Int64) :
    mod.apply [.int n, .int d] = (floorMod n d).map Value.int := rfl

theorem floorMod_eq_error_iff {n d : Int64} {fault : Fault} :
    floorMod n d = .error fault ↔
      d = 0 ∧ fault = .divisionByZero ∨
        n = Int64.minValue ∧ d = -1 ∧ fault = .overrun .remainder := by
  have hone : (-1 : Int64) ≠ 0 := by decide
  rw [floorMod]
  split
  · rename_i hd
    simp [hd, hone.symm, eq_comm]
  · rename_i hd
    split
    · rename_i hleast
      simp [hleast, hone, eq_comm]
    · rename_i hleast
      simp only [reduceCtorEq, false_iff, not_or]
      exact ⟨fun h => hd h.1, fun h => hleast ⟨h.1, h.2.1⟩⟩

/-- **`MOD` is the remainder with the sign of the divisor**, for every divisor but
0 and wherever the division stays in its word; these are its only failures. By
the size of the alphabet it is the remainder that turns letters. -/
theorem mod_isRemainder (n d : Int64) :
    (d ≠ 0 → ¬ (n = Int64.minValue ∧ d = -1) →
        ∃ r : Int64, mod.apply [.int n, .int d] = .ok (.int r) ∧
          IsRemainder n.toInt d.toInt r.toInt ∧
          ∀ s, IsRemainder n.toInt d.toInt s → s = r.toInt) ∧
      (∀ fault, mod.apply [.int n, .int d] = .error fault ↔
        d = 0 ∧ fault = .divisionByZero ∨
          n = Int64.minValue ∧ d = -1 ∧ fault = .overrun .remainder) ∧
      Fault.divisionByZero.message = "Runtime error: #DIV/0!" ∧
      ∃ r : Int64, mod.apply [.int n, .int 26] = .ok (.int r) ∧
        r.toInt = n.toInt % (alphabetSize : Int) := by
  refine ⟨fun hd hleast => ?_, fun fault => ?_, rfl, ?_⟩
  · obtain ⟨r, hr, hval⟩ := floorMod_eq_ok hd hleast
    have hdval : d.toInt ≠ 0 := fun hzero => hd (Int64.toInt_inj.1 hzero)
    have hisRemainder := isRemainder_fmod n.toInt hdval
    rw [← hval] at hisRemainder
    refine ⟨r, ?_, hisRemainder, fun s hs => hisRemainder.unique hdval hs⟩
    rw [apply_mod, hr]
    rfl
  · rw [apply_mod, ← floorMod_eq_error_iff]
    cases floorMod n d with
    | ok r => simp [Except.map]
    | error e => simp [Except.map]
  · obtain ⟨r, hr, hval⟩ := floorMod_of_pos n (d := 26) (by decide)
    refine ⟨r, ?_, hval⟩
    rw [apply_mod, hr]
    rfl

/-- **The least word has no remainder by -1**, although 0 is one. -/
theorem mod_overruns_leastWord :
    ¬ ∀ n d : Int64, d ≠ 0 → ∃ r : Int64, mod.apply [.int n, .int d] = .ok (.int r) ∧
      IsRemainder n.toInt d.toInt r.toInt := by
  intro hall
  obtain ⟨r, hr, _⟩ := hall Int64.minValue (-1) (by decide)
  have hfails : mod.apply [.int Int64.minValue, .int (-1)] = .error (.overrun .remainder) := rfl
  cases hfails.symm.trans hr

end SheetCipher.Builtin
