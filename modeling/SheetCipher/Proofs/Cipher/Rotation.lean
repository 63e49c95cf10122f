import SheetCipher.Cipher.Stage
import SheetCipher.Proofs.Template.LetterMap

/-!
# Rotation — letters moved round their alphabet

`turn` moves a letter by any integer; it is the rotation that `IsRotation`
describes, and turning twice is turning by the sum. `rotate` adds the index of
the letter and the amount in a word. While there is such a word it turns the
letter exactly, in either arithmetic, and rotations add up. Only the largest
amounts are too far (`IsTooFar`): there checked arithmetic reports the sum, and
wrapping arithmetic goes ten letters too far.
-/

namespace SheetCipher

/-! ## Turning by integers -/

/-- A letter moved by any amount within its case; any other character stays. -/
def turn (c : Char) (amount : Int) : Char :=
  match LetterCase.ofChar? c with
  | some k => k.letter (((c.toNat - k.base : Nat) + amount) % alphabetSize).toNat
  | none => c

theorem toNat_emod_lt (n : Int) : (n % alphabetSize).toNat < alphabetSize := by
  simp only [alphabetSize]
  omega

theorem turn_letter (k : LetterCase) {i : Nat} (h : i < alphabetSize) (amount : Int) :
    turn (k.letter i) amount = k.letter ((i + amount) % alphabetSize).toNat := by
  rw [turn, LetterCase.ofChar?_letter k h]
  simp only [LetterCase.toNat_letter_sub_base k h]

theorem turn_of_none {c : Char} (h : LetterCase.ofChar? c = none) (amount : Int) :
    turn c amount = c := by
  simp only [turn, h]

theorem ofChar?_turn (c : Char) (amount : Int) :
    LetterCase.ofChar? (turn c amount) = LetterCase.ofChar? c := by
  cases hc : LetterCase.ofChar? c with
  | none => rw [turn_of_none hc, hc]
  | some k =>
      obtain ⟨i, hi, rfl⟩ := LetterCase.exists_index hc
      rw [turn_letter k hi]
      exact k.ofChar?_letter (toNat_emod_lt _)

theorem turn_turn (c : Char) (a b : Int) : turn (turn c a) b = turn c (a + b) := by
  cases hc : LetterCase.ofChar? c with
  | none => rw [turn_of_none hc, turn_of_none hc, turn_of_none hc]
  | some k =>
      obtain ⟨i, hi, rfl⟩ := LetterCase.exists_index hc
      rw [turn_letter k hi, turn_letter k hi, turn_letter k (toNat_emod_lt _)]
      congr 2
      simp only [alphabetSize]
      omega

theorem turn_zero (c : Char) : turn c 0 = c := by
  cases hc : LetterCase.ofChar? c with
  | none => exact turn_of_none hc 0
  | some k =>
      obtain ⟨i, hi, rfl⟩ := LetterCase.exists_index hc
      rw [turn_letter k hi]
      congr 1
      simp only [alphabetSize] at hi ⊢
      omega

/-- The second character is the first one moved on by `n` letters, round and
round in its case. What is no letter stays. -/
structure IsRotation (c : Char) (n : Int) (d : Char) : Prop where
  stays : LetterCase.ofChar? c = none → d = c
  moves : ∀ k, LetterCase.ofChar? c = some k → LetterCase.ofChar? d = some k ∧
    (d.toNat : Int) - k.base = ((c.toNat : Int) - k.base + n) % alphabetSize

theorem isRotation_turn (c : Char) (n : Int) : IsRotation c n (turn c n) where
  stays h := turn_of_none h n
  moves k h := by
    refine ⟨by rw [ofChar?_turn, h], ?_⟩
    obtain ⟨i, hi, rfl⟩ := LetterCase.exists_index h
    rw [turn_letter k hi, LetterCase.toNat_letter k (toNat_emod_lt _), LetterCase.toNat_letter k hi]
    simp only [alphabetSize]
    omega

/-! ## Rotating by words -/

/-- No word holds the sum of the index of a letter and the amount. -/
def IsTooFar (c : Char) (amount : Int64) : Prop :=
  ∃ k, LetterCase.ofChar? c = some k ∧
    0x8000000000000000 ≤ (c.toNat : Int) - k.base + amount.toInt

theorem isTooFar_letter (k : LetterCase) {i : Nat} (h : i < alphabetSize) {amount : Int64} :
    IsTooFar (k.letter i) amount ↔ 0x8000000000000000 ≤ (i : Int) + amount.toInt := by
  have hindex : ((k.letter i).toNat : Int) - k.base = i := by
    rw [LetterCase.toNat_letter k h]
    omega
  constructor
  · rintro ⟨k', hk', hge⟩
    cases (LetterCase.ofChar?_letter k h).symm.trans hk'
    rwa [hindex] at hge
  · intro hge
    exact ⟨k, LetterCase.ofChar?_letter k h, by rwa [hindex]⟩

/-- What is too far for a character is too far for its index; it is a letter. -/
theorem IsTooFar.exists_index {c : Char} {amount : Int64} (h : IsTooFar c amount) :
    ∃ (k : LetterCase) (i : Nat), i < alphabetSize ∧ c = k.letter i ∧
      0x8000000000000000 ≤ (i : Int) + amount.toInt := by
  obtain ⟨k, hk, _⟩ := id h
  obtain ⟨i, hi, rfl⟩ := LetterCase.exists_index hk
  exact ⟨k, i, hi, rfl, (isTooFar_letter k hi).1 h⟩

theorem not_isTooFar (c : Char) (amount : Int64) (h : amount.toInt < 0x100000000) :
    ¬ IsTooFar c amount := by
  rintro ⟨k, hk, hge⟩
  have hlt := (LetterCase.ofChar?_eq_some_iff.1 hk).2
  simp only [alphabetSize] at hlt
  omega

theorem rotate_of_none {c : Char} (h : LetterCase.ofChar? c = none) (amount : Int64)
    (arithmetic : Word.Arithmetic) : rotate c amount arithmetic = .ok c := by
  simp only [rotate, h]

theorem rotate_letter (k : LetterCase) {i : Nat} (h : i < alphabetSize) (amount : Int64)
    (arithmetic : Word.Arithmetic) :
    rotate (k.letter i) amount arithmetic = do
      let moved ← Word.ofInt .sum (i + amount.toInt) arithmetic
      return k.letter (moved.toInt % alphabetSize).toNat := by
  have hindex : (Int64.ofNat i).toInt = i := by
    simp only [alphabetSize] at h
    exact Int64.toInt_ofNat_of_lt (by omega)
  simp only [rotate, LetterCase.ofChar?_letter k h, LetterCase.toNat_letter_sub_base k h, Word.add,
    hindex]

/-- A rotation is exact as long as the index and the amount have a sum. -/
theorem rotate_eq_turn {c : Char} {amount : Int64} (h : ¬ IsTooFar c amount)
    (arithmetic : Word.Arithmetic := .checked) :
    rotate c amount arithmetic = .ok (turn c amount.toInt) := by
  cases hc : LetterCase.ofChar? c with
  | none => rw [rotate_of_none hc, turn_of_none hc]
  | some k =>
      obtain ⟨i, hi, rfl⟩ := LetterCase.exists_index hc
      rw [isTooFar_letter k hi] at h
      have hlow := amount.le_toInt
      obtain ⟨moved, hmoved, hval⟩ := Word.exists_ofInt .sum (n := i + amount.toInt)
        (Word.fits_iff.2 (by omega)) arithmetic
      rw [rotate_letter k hi, hmoved, turn_letter k hi, ← hval]
      rfl

theorem rotate_eq_error_iff {c : Char} {amount : Int64} {overrun : Overrun} :
    rotate c amount = .error overrun ↔ overrun = .sum ∧ IsTooFar c amount := by
  by_cases h : IsTooFar c amount
  · obtain ⟨k, i, hi, rfl, hge⟩ := h.exists_index
    have hfits : ¬ Word.fits (i + amount.toInt) = true := by
      rw [Word.fits_iff]
      omega
    rw [rotate_letter k hi, Word.ofInt_eq_error hfits]
    change Except.error Overrun.sum = Except.error overrun ↔ _
    simp [h, eq_comm]
  · simp [rotate_eq_turn h, h]

/-- Behind the largest word comes the least one, and the letter is ten too far:
the number of words is ten short of a multiple of 26. -/
theorem rotate_wrapping {c : Char} {amount : Int64} (h : IsTooFar c amount) :
    rotate c amount .wrapping = .ok (turn c (amount.toInt + 10)) := by
  obtain ⟨k, i, hi, rfl, hge⟩ := h.exists_index
  have hhigh := amount.toInt_lt
  simp only [alphabetSize] at hi
  rw [rotate_letter k hi, Word.ofInt_wrapping, turn_letter k hi]
  change Except.ok (k.letter ((Int64.ofInt (i + amount.toInt)).toInt % alphabetSize).toNat) = _
  rw [Word.toInt_ofInt_of_ge hge (by omega)]
  congr 2
  simp only [Word.count, alphabetSize]
  omega

/-- **A rotation is exact** for every character and every amount that is not too
far, and two rotations are the one by the sum. The rest is a report in checked
arithmetic and another letter in wrapping arithmetic. -/
theorem rotate_exact (arithmetic : Word.Arithmetic) (c : Char) (a : Int64) :
    (¬ IsTooFar c a →
        ∃ d, rotate c a arithmetic = .ok d ∧ IsRotation c a.toInt d ∧
          ∀ b sum : Int64, sum.toInt = a.toInt + b.toInt → ¬ IsTooFar d b → ¬ IsTooFar c sum →
            rotate d b arithmetic = rotate c sum arithmetic) ∧
      (∀ overrun, rotate c a = .error overrun ↔ overrun = .sum ∧ IsTooFar c a) ∧
      (IsTooFar c a → ∃ d, rotate c a .wrapping = .ok d ∧ IsRotation c (a.toInt + 10) d) := by
  refine ⟨fun h => ?_, fun overrun => rotate_eq_error_iff, fun h => ?_⟩
  · refine ⟨turn c a.toInt, rotate_eq_turn h arithmetic, isRotation_turn c a.toInt, ?_⟩
    intro b sum hsum hb hboth
    rw [rotate_eq_turn hb arithmetic, rotate_eq_turn hboth arithmetic, turn_turn, hsum]
  · exact ⟨_, rotate_wrapping h, isRotation_turn c _⟩

/-- Z moved by the largest amount that is not too far for it, and back again by
the least word. -/
theorem rotate_exact_thereAndBack :
    ¬ IsTooFar 'Z' 9223372036854775782 ∧ ¬ IsTooFar 'H' Int64.minValue ∧ ¬ IsTooFar 'Z' (-26) ∧
      rotate 'Z' 9223372036854775782 = .ok 'H' ∧ IsRotation 'Z' 9223372036854775782 'H' ∧
      rotate 'H' Int64.minValue = rotate 'Z' (-26) := by
  have hfar : ¬ IsTooFar 'Z' 9223372036854775782 := by
    change ¬ IsTooFar (LetterCase.upper.letter 25) 9223372036854775782
    rw [isTooFar_letter _ (by decide)]
    decide
  have hback : ¬ IsTooFar 'H' Int64.minValue := not_isTooFar _ _ (by decide)
  have hboth : ¬ IsTooFar 'Z' (-26) := not_isTooFar _ _ (by decide)
  obtain ⟨d, hd, hrotation, hsum⟩ := (rotate_exact .checked 'Z' 9223372036854775782).1 hfar
  have hH : rotate 'Z' 9223372036854775782 = .ok 'H' := rfl
  cases hH.symm.trans hd
  exact ⟨hfar, hback, hboth, hH, hrotation, hsum Int64.minValue (-26) (by decide) hback hboth⟩

/-- **No arithmetic of words rotates by every amount**: B by the largest word
should be I. -/
theorem rotate_misses_largestAmount :
    ¬ ∃ arithmetic : Word.Arithmetic, ∀ (c : Char) (amount : Int64),
      ∃ d, rotate c amount arithmetic = .ok d ∧ IsRotation c amount.toInt d := by
  rintro ⟨arithmetic, hall⟩
  obtain ⟨d, hd, hrotation⟩ := hall 'B' Int64.maxValue
  cases arithmetic with
  | checked =>
      have hfails : rotate 'B' Int64.maxValue = .error .sum := rfl
      cases hfails.symm.trans hd
  | wrapping =>
      have hS : rotate 'B' Int64.maxValue .wrapping = .ok 'S' := rfl
      cases hS.symm.trans hd
      exact absurd (hrotation.moves .upper rfl).2 (by decide)

end SheetCipher
