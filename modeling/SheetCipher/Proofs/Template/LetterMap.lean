import Mathlib.Data.List.Nodup
import Mathlib.Data.List.Perm.Basic
import SheetCipher.Template.LetterMap

/-!
# LetterMap — letters by index, and maps that can be undone

A letter is its case and its index, so that what happens to letters can be
said of numbers below 26. A map whose tables rearrange their alphabets takes
every character to one of the same kind and never fails: `imageOf` and
`preimageOf` are what `image` and `preimage` come to then, and each undoes the
other.
-/

namespace SheetCipher

namespace LetterCase

/-! ## Letters by case and index -/

theorem base_add_lt (k : LetterCase) {i : Nat} (h : i < alphabetSize) : k.base + i < 128 := by
  cases k <;> simp only [base, alphabetSize] at h ⊢ <;> omega

theorem toNat_letter (k : LetterCase) {i : Nat} (h : i < alphabetSize) :
    (k.letter i).toNat = k.base + i := by
  have hlt := k.base_add_lt h
  have hvalid : (k.base + i).isValidChar := Or.inl (by omega)
  rw [letter, Char.ofNat, dif_pos hvalid]
  rfl

theorem ofChar?_eq_some_iff {c : Char} {k : LetterCase} :
    ofChar? c = some k ↔ k.base ≤ c.toNat ∧ c.toNat < k.base + alphabetSize := by
  have hle : ∀ a b : Char, a ≤ b ↔ a.toNat ≤ b.toNat := fun a b => Iff.rfl
  have hcodes : 'A'.toNat = 65 ∧ 'Z'.toNat = 90 ∧ 'a'.toNat = 97 ∧ 'z'.toNat = 122 := by decide
  simp only [ofChar?, hle, hcodes]
  cases k <;> simp only [base, alphabetSize] <;> split <;> try split
  all_goals simp
  all_goals omega

theorem ofChar?_letter (k : LetterCase) {i : Nat} (h : i < alphabetSize) :
    ofChar? (k.letter i) = some k := by
  rw [ofChar?_eq_some_iff, toNat_letter k h]
  omega

/-- The index of a letter. -/
theorem exists_index {c : Char} {k : LetterCase} (h : ofChar? c = some k) :
    ∃ i, i < alphabetSize ∧ c = k.letter i := by
  obtain ⟨hle, hlt⟩ := ofChar?_eq_some_iff.1 h
  refine ⟨c.toNat - k.base, by omega, ?_⟩
  rw [letter, show k.base + (c.toNat - k.base) = c.toNat by omega, Char.ofNat_toNat]

theorem toNat_letter_sub_base (k : LetterCase) {i : Nat} (h : i < alphabetSize) :
    (k.letter i).toNat - k.base = i := by
  rw [toNat_letter k h]
  omega

theorem mem_alphabet {c : Char} {k : LetterCase} : c ∈ k.alphabet ↔ ofChar? c = some k := by
  constructor
  · intro h
    obtain ⟨i, hi, rfl⟩ := List.mem_map.1 h
    exact ofChar?_letter k (List.mem_range.1 hi)
  · intro h
    obtain ⟨i, hi, rfl⟩ := exists_index h
    exact List.mem_map_of_mem (List.mem_range.2 hi)

theorem letter_injective (k : LetterCase) {i j : Nat} (hi : i < alphabetSize)
    (hj : j < alphabetSize) (h : k.letter i = k.letter j) : i = j := by
  rw [← toNat_letter_sub_base k hi, h, toNat_letter_sub_base k hj]

theorem charAt_eq_ok (k : LetterCase) {place : Nat} (h : place < alphabetSize) :
    k.charAt place = .ok (k.letter place) := by
  have hcode := k.base_add_lt h
  simp only [alphabetSize] at h
  rw [charAt, Nat.mod_eq_of_lt (by omega), if_pos (by omega)]
  rfl

@[simp] theorem length_alphabet (k : LetterCase) : k.alphabet.length = alphabetSize := by
  simp [alphabet]

theorem nodup_alphabet (k : LetterCase) : k.alphabet.Nodup := by
  refine List.Nodup.map_on ?_ List.nodup_range
  intro i hi j hj h
  exact k.letter_injective (List.mem_range.1 hi) (List.mem_range.1 hj) h

end LetterCase

namespace LetterMap

open LetterCase

/-! ## What a map does when nothing is missing -/

/-- What a character becomes; a letter without an entry stays. -/
def imageOf (m : LetterMap) (c : Char) : Char :=
  match ofChar? c with
  | some k => (m.table k).getD (c.toNat - k.base) c
  | none => c

/-- What becomes a character; a letter that is no entry stays. -/
def preimageOf (m : LetterMap) (c : Char) : Char :=
  match ofChar? c with
  | some k => ((m.table k).findIdx? (· == c)).elim c k.letter
  | none => c

variable {m : LetterMap}

theorem table_perm (h : m.isBijection = true) (k : LetterCase) : (m.table k).Perm k.alphabet := by
  rw [isBijection, Bool.and_eq_true, List.isPerm_iff, List.isPerm_iff] at h
  cases k
  · exact h.1
  · exact h.2

theorem length_table (h : m.isBijection = true) (k : LetterCase) :
    (m.table k).length = alphabetSize := by
  rw [(table_perm h k).length_eq, length_alphabet]

theorem nodup_table (h : m.isBijection = true) (k : LetterCase) : (m.table k).Nodup :=
  (table_perm h k).nodup_iff.2 k.nodup_alphabet

theorem mem_table (h : m.isBijection = true) {k : LetterCase} {c : Char} :
    c ∈ m.table k ↔ ofChar? c = some k := by
  rw [(table_perm h k).mem_iff, mem_alphabet]

theorem imageOf_letter (h : m.isBijection = true) (k : LetterCase) {i : Nat}
    (hi : i < (m.table k).length) : m.imageOf (k.letter i) = (m.table k)[i] := by
  have hlt : i < alphabetSize := by rwa [length_table h] at hi
  rw [imageOf, ofChar?_letter k hlt]
  simp only [toNat_letter_sub_base k hlt]
  rw [List.getD_eq_getElem?_getD, List.getElem?_eq_getElem hi]
  rfl

theorem findIdx?_table (h : m.isBijection = true) (k : LetterCase) {i : Nat}
    (hi : i < (m.table k).length) : (m.table k).findIdx? (· == (m.table k)[i]) = some i := by
  -- no letter stands twice in the table, so the first place is the only one
  rw [List.findIdx?_eq_some_iff_getElem]
  refine ⟨hi, by simp, ?_⟩
  intro j hj
  have hne : (m.table k)[j] ≠ (m.table k)[i] := fun heq =>
    Nat.ne_of_lt hj ((nodup_table h k).getElem_inj_iff.1 heq)
  simpa using hne

theorem preimageOf_table (h : m.isBijection = true) (k : LetterCase) {i : Nat}
    (hi : i < (m.table k).length) : m.preimageOf (m.table k)[i] = k.letter i := by
  rw [preimageOf, (mem_table h).1 (List.getElem_mem hi)]
  simp only [findIdx?_table h k hi, Option.elim]

/-- A letter stands somewhere in the table of its case. -/
theorem exists_place (h : m.isBijection = true) {k : LetterCase} {c : Char}
    (hc : ofChar? c = some k) : ∃ i, ∃ hi : i < (m.table k).length, c = (m.table k)[i] := by
  obtain ⟨i, hi, heq⟩ := List.getElem_of_mem ((mem_table h).2 hc)
  exact ⟨i, hi, heq.symm⟩

theorem image_eq_ok (h : m.isBijection = true) (c : Char) : m.image c = .ok (m.imageOf c) := by
  cases hc : ofChar? c with
  | none => simp only [image, imageOf, hc]
  | some k =>
      obtain ⟨i, hi, rfl⟩ := exists_index hc
      have hlen : i < (m.table k).length := by rwa [length_table h]
      rw [imageOf_letter h k hlen]
      simp only [image, hc, toNat_letter_sub_base k hi]
      exact Overrun.lookup_of_lt hlen

theorem preimage_eq_ok (h : m.isBijection = true) (c : Char) :
    m.preimage c = .ok (m.preimageOf c) := by
  cases hc : ofChar? c with
  | none => simp only [preimage, preimageOf, hc]
  | some k =>
      obtain ⟨i, hi, rfl⟩ := exists_place h hc
      have hlt : i < alphabetSize := by rwa [length_table h] at hi
      rw [preimageOf_table h k hi]
      simp only [preimage, hc, findIdx?_table h k hi]
      exact k.charAt_eq_ok hlt

/-! ## Images and preimages are of the same kind -/

theorem ofChar?_imageOf (h : m.isBijection = true) (c : Char) :
    ofChar? (m.imageOf c) = ofChar? c := by
  cases hc : ofChar? c with
  | none => simp only [imageOf, hc]
  | some k =>
      obtain ⟨i, hi, rfl⟩ := exists_index hc
      rw [imageOf_letter h k (by rwa [length_table h])]
      exact (mem_table h).1 (List.getElem_mem _)

theorem preimageOf_imageOf (h : m.isBijection = true) (c : Char) :
    m.preimageOf (m.imageOf c) = c := by
  cases hc : ofChar? c with
  | none => simp only [imageOf, preimageOf, hc]
  | some k =>
      obtain ⟨i, hi, rfl⟩ := exists_index hc
      rw [imageOf_letter h k (by rwa [length_table h])]
      exact preimageOf_table h k _

theorem imageOf_preimageOf (h : m.isBijection = true) (c : Char) :
    m.imageOf (m.preimageOf c) = c := by
  cases hc : ofChar? c with
  | none => simp only [imageOf, preimageOf, hc]
  | some k =>
      obtain ⟨i, hi, rfl⟩ := exists_place h hc
      rw [preimageOf_table h k hi]
      exact imageOf_letter h k hi

/-! ## An affine map -/

/-- The letter of index `i` becomes that of index `5 * i + 8`. -/
def affine : LetterMap where
  upper := (List.range alphabetSize).map fun i => LetterCase.upper.letter ((5 * i + 8) % 26)
  lower := (List.range alphabetSize).map fun i => LetterCase.lower.letter ((5 * i + 8) % 26)

theorem isBijection_affine : affine.isBijection = true := by decide

end LetterMap

end SheetCipher
