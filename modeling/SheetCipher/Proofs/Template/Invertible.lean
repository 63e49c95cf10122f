import Mathlib.Data.List.Perm.Subperm
import SheetCipher.Proofs.Template.LetterMap

/-!
# Invertible — maps that can be undone are those whose tables rearrange

A map whose tables have an entry for each letter never misses one, whatever the
entries are. Taking a character back leaves it in its case (`ofChar?_of_preimage`),
so an entry of the other case, or one that is no letter, is not taken back to its
letter; and an entry that stands twice is taken back to one place only. Entries
that are all taken back are therefore letters of their case, none of them twice,
and as many as there are (`table_perm_of_undone`).
-/

namespace SheetCipher.LetterMap

open LetterCase

/-- Each table has one entry for each letter. -/
def IsFull (m : LetterMap) : Prop := ∀ k, (m.table k).length = alphabetSize

variable {m : LetterMap}

/-! ## Nothing is missing -/

theorem IsFull.image_letter (h : m.IsFull) (k : LetterCase) {i : Nat}
    (hi : i < (m.table k).length) : m.image (k.letter i) = .ok (m.table k)[i] := by
  have hlt : i < alphabetSize := h k ▸ hi
  rw [image, ofChar?_letter k hlt]
  simp only [toNat_letter_sub_base k hlt]
  exact Overrun.lookup_of_lt hi

theorem IsFull.exists_image (h : m.IsFull) (c : Char) : ∃ d, m.image c = .ok d := by
  cases hc : ofChar? c with
  | none => exact ⟨c, by rw [image, hc]⟩
  | some k =>
      obtain ⟨i, hi, rfl⟩ := exists_index hc
      exact ⟨_, h.image_letter k (by rwa [h k])⟩

/-- A character is taken back to a letter of its case, or it stays. -/
theorem IsFull.preimage_cases (h : m.IsFull) (c : Char) :
    m.preimage c = .ok c ∨
      ∃ k place, ofChar? c = some k ∧ place < alphabetSize ∧
        m.preimage c = .ok (k.letter place) := by
  cases hc : ofChar? c with
  | none => exact .inl (by rw [preimage, hc])
  | some k =>
      cases hplace : (m.table k).findIdx? (· == c) with
      | none => exact .inl (by simp only [preimage, hc, hplace])
      | some place =>
          obtain ⟨hlt, _⟩ := List.findIdx?_eq_some_iff_getElem.1 hplace
          rw [h k] at hlt
          refine .inr ⟨k, place, rfl, hlt, ?_⟩
          simp only [preimage, hc, hplace]
          exact k.charAt_eq_ok hlt

theorem IsFull.exists_preimage (h : m.IsFull) (c : Char) : ∃ d, m.preimage c = .ok d := by
  rcases h.preimage_cases c with hc | ⟨_, _, _, _, hc⟩
  · exact ⟨_, hc⟩
  · exact ⟨_, hc⟩

/-- **A character is taken back within its case.** -/
theorem IsFull.ofChar?_of_preimage (h : m.IsFull) {c d : Char} (hd : m.preimage c = .ok d) :
    ofChar? d = ofChar? c := by
  rcases h.preimage_cases c with hc | ⟨k, place, hcase, hlt, hc⟩
  · rw [Except.ok.inj (hd.symm.trans hc)]
  · rw [Except.ok.inj (hd.symm.trans hc), ofChar?_letter k hlt, hcase]

/-! ## Maps that can be undone -/

/-- Each entry is taken back to the letter that it belongs to. -/
theorem IsFull.preimage_table (h : m.IsFull) (hundone : ∀ c, (m.image c >>= m.preimage) = .ok c)
    (k : LetterCase) {i : Nat} (hi : i < (m.table k).length) :
    m.preimage (m.table k)[i] = .ok (k.letter i) := by
  have hletter := hundone (k.letter i)
  rwa [h.image_letter k hi] at hletter

/-- **Tables that are undone rearrange their alphabets**: the entries are letters
of the case, none of them twice, and there is no room for others. -/
theorem IsFull.table_perm_of_undone (h : m.IsFull)
    (hundone : ∀ c, (m.image c >>= m.preimage) = .ok c) (k : LetterCase) :
    (m.table k).Perm k.alphabet := by
  have hletters : m.table k ⊆ k.alphabet := by
    intro c hc
    obtain ⟨i, hi, rfl⟩ := List.getElem_of_mem hc
    rw [mem_alphabet, ← h.ofChar?_of_preimage (h.preimage_table hundone k hi)]
    exact ofChar?_letter k (h k ▸ hi)
  have hnodup : (m.table k).Nodup := by
    rw [List.nodup_iff_pairwise_ne, List.pairwise_iff_getElem]
    intro i j hi hj hlt heq
    have hback := h.preimage_table hundone k hi
    rw [heq, h.preimage_table hundone k hj] at hback
    have hsame := k.letter_injective (h k ▸ hj) (h k ▸ hi) (Except.ok.inj hback)
    omega
  have hlength : k.alphabet.length = (m.table k).length := (length_alphabet k).trans (h k).symm
  exact (hnodup.subperm hletters).perm_of_length_le (Nat.le_of_eq hlength)

/-- **A map can be undone just when its tables rearrange their alphabets.** With
an entry for each letter no look-up fails, whatever the entries are. Where the
tables rearrange, each direction undoes the other, and both leave upper-case
letters upper-case, lower-case ones lower-case and all else alone. -/
theorem isBijection_iff_undone (m : LetterMap) (h : m.IsFull) :
    (∀ c, ∃ d e, m.image c = .ok d ∧ m.preimage c = .ok e) ∧
      (m.isBijection = true ↔ ∀ c, (m.image c >>= m.preimage) = .ok c) ∧
      (m.isBijection = true → ∀ c, (m.preimage c >>= m.image) = .ok c ∧
        ∃ d e, m.image c = .ok d ∧ m.preimage c = .ok e ∧
          ofChar? d = ofChar? c ∧ ofChar? e = ofChar? c ∧
          (ofChar? c = none → d = c ∧ e = c)) := by
  refine ⟨fun c => ?_, ⟨fun hm c => ?_, fun hundone => ?_⟩, fun hm c => ⟨?_, ?_⟩⟩
  · obtain ⟨d, hd⟩ := h.exists_image c
    obtain ⟨e, he⟩ := h.exists_preimage c
    exact ⟨d, e, hd, he⟩
  · rw [image_eq_ok hm]
    exact (preimage_eq_ok hm _).trans (congrArg Except.ok (preimageOf_imageOf hm c))
  · rw [isBijection, Bool.and_eq_true, List.isPerm_iff, List.isPerm_iff]
    exact ⟨h.table_perm_of_undone hundone .upper, h.table_perm_of_undone hundone .lower⟩
  · rw [preimage_eq_ok hm]
    exact (image_eq_ok hm _).trans (congrArg Except.ok (imageOf_preimageOf hm c))
  · refine ⟨_, _, image_eq_ok hm c, preimage_eq_ok hm c, ofChar?_imageOf hm c,
      h.ofChar?_of_preimage (preimage_eq_ok hm c), fun hc => ?_⟩
    simp only [imageOf, preimageOf, hc, and_self]

theorem isFull_affine : affine.IsFull := length_table isBijection_affine

/-- The map that changes nothing, but for `A`, which becomes `a`. -/
def crossed : LetterMap := { identity with upper := 'a' :: identity.upper.tail }

theorem isFull_crossed : crossed.IsFull := by
  intro k
  cases k <;> decide

/-- The affine map is undone, and one that takes a letter to the other case is
not. -/
theorem isBijection_iff_undone_affine :
    affine.IsFull ∧ (∀ c, (affine.image c >>= affine.preimage) = .ok c) ∧
      (affine.preimage 'é' >>= affine.image) = .ok 'é' ∧
      crossed.IsFull ∧ ¬ ∀ c, (crossed.image c >>= crossed.preimage) = .ok c := by
  obtain ⟨_, hiff, hback⟩ := isBijection_iff_undone affine isFull_affine
  obtain ⟨_, hcrossed, _⟩ := isBijection_iff_undone crossed isFull_crossed
  refine ⟨isFull_affine, hiff.1 isBijection_affine, (hback isBijection_affine 'é').1,
    isFull_crossed, fun h => ?_⟩
  exact absurd (hcrossed.2 h) (by decide)

end SheetCipher.LetterMap
