import SheetCipher.Proofs.Template.Derive

/-!
# Attempts — what the cap on attempts decides

The triple that counts is the first of all that mixes, and the cap only says
how far it is looked for. Below that triple every cap fails in the same way,
from it on all caps give the same spec (`deriveWithin_threshold`).
-/

namespace SheetCipher.Spec

/-- Whether a triple of an id follows the mixing rule. -/
def MixesAt (id : String) (attempt : Nat) : Prop :=
  Operation.mixes (triple (Draws.ofText id) attempt) = true

/-- The first triple of an id that follows the mixing rule. -/
structure IsFirstMixing (id : String) (found : Nat) : Prop where
  mixes : MixesAt id found
  first : ∀ k < found, ¬ MixesAt id k

variable {id : String} {attempts found : Nat}

theorem accepted?_eq_none_iff : accepted? id attempts = none ↔ ∀ k < attempts, ¬ MixesAt id k := by
  simp [accepted?, MixesAt]

theorem accepted?_eq_some_iff :
    accepted? id attempts = some found ↔ IsFirstMixing id found ∧ found < attempts := by
  rw [accepted?, List.find?_range'_eq_some, List.mem_range'_1]
  constructor
  · rintro ⟨hmixes, ⟨_, hlt⟩, hfirst⟩
    refine ⟨⟨hmixes, fun k hk => ?_⟩, by omega⟩
    simpa [MixesAt] using hfirst k (Nat.zero_le k) hk
  · rintro ⟨h, hlt⟩
    refine ⟨h.mixes, by omega, fun k _ hk => ?_⟩
    simpa [MixesAt] using h.first k hk

theorem exists_isFirstMixing (h : MixesAt id attempts) : ∃ found, IsFirstMixing id found := by
  cases hfound : accepted? id (attempts + 1) with
  | none => exact absurd h (accepted?_eq_none_iff.1 hfound attempts (Nat.lt_succ_self attempts))
  | some found => exact ⟨found, (accepted?_eq_some_iff.1 hfound).1⟩

/-- A cap that does not reach the first triple that mixes. -/
theorem IsFirstMixing.deriveWithin_of_le (hid : id ≠ "") (h : IsFirstMixing id found)
    (hle : attempts ≤ found) : deriveWithin id attempts = .error (.noSequence attempts) :=
  deriveWithin_of_none hid <| accepted?_eq_none_iff.2 fun k hk =>
    h.first k (Nat.lt_of_lt_of_le hk hle)

/-- All caps that reach the first triple that mixes give one spec: what is
drawn behind the triple does not depend on the cap. -/
theorem IsFirstMixing.exists_deriveWithin (hid : id ≠ "") (h : IsFirstMixing id found) :
    ∃ spec, ∀ attempts, found < attempts → deriveWithin id attempts = .ok spec := by
  obtain ⟨spec, hspec, _⟩ := ofDraws_eq_ok id (triple (Draws.ofText id) found)
    ((Draws.ofText id).drop (Operation.mixingSteps * (found + 1)))
  refine ⟨spec, fun attempts hlt => ?_⟩
  rw [deriveWithin_of_some hid (accepted?_eq_some_iff.2 ⟨h, hlt⟩), hspec, ofOverrun_ok]

/-- Where the caps part: nowhere, or at the first triple that mixes. -/
theorem deriveWithin_parts (hid : id ≠ "") :
    (∀ k, ¬ MixesAt id k) ∧
        (∀ attempts, deriveWithin id attempts = .error (.noSequence attempts)) ∨
      ∃ found spec, IsFirstMixing id found ∧
        (∀ attempts ≤ found, deriveWithin id attempts = .error (.noSequence attempts)) ∧
        ∀ attempts > found, deriveWithin id attempts = .ok spec := by
  by_cases hmixes : ∃ k, MixesAt id k
  · obtain ⟨k, hk⟩ := hmixes
    obtain ⟨found, hfound⟩ := exists_isFirstMixing hk
    obtain ⟨spec, hspec⟩ := hfound.exists_deriveWithin hid
    exact .inr ⟨found, spec, hfound, fun _ hle => hfound.deriveWithin_of_le hid hle, hspec⟩
  · have hnone : ∀ k, ¬ MixesAt id k := fun k hk => hmixes ⟨k, hk⟩
    exact .inl ⟨hnone, fun attempts =>
      deriveWithin_of_none hid (accepted?_eq_none_iff.2 fun k _ => hnone k)⟩

/-- **The cap decides whether a spec comes out and never which one.** What a cap
finds every larger one finds, and where a cap fails every smaller one fails,
each with the number of its own attempts. Either no triple of the id mixes and
no cap is large enough, or all caps that reach the first triple that does give
the same spec. -/
theorem deriveWithin_threshold (hid : id ≠ "") :
    (∀ fewer more, fewer ≤ more →
      (∀ spec, deriveWithin id fewer = .ok spec → deriveWithin id more = .ok spec) ∧
      ∀ error, deriveWithin id more = .error error → error = .noSequence more ∧
        deriveWithin id fewer = .error (.noSequence fewer)) ∧
    ((∀ k, ¬ MixesAt id k) ∧
        (∀ attempts, deriveWithin id attempts = .error (.noSequence attempts)) ∨
      ∃ found spec, IsFirstMixing id found ∧
        (∀ attempts ≤ found, deriveWithin id attempts = .error (.noSequence attempts)) ∧
        ∀ attempts > found, deriveWithin id attempts = .ok spec) := by
  have hparts := deriveWithin_parts hid
  refine ⟨fun fewer more hle => ?_, hparts⟩
  rcases hparts with ⟨_, hfails⟩ | ⟨found, spec, _, hfails, hspec⟩
  · rw [hfails fewer, hfails more]
    exact ⟨nofun, fun error herror => ⟨(Except.error.inj herror).symm, rfl⟩⟩
  · rcases Nat.lt_or_ge found more with hlt | hge
    · rw [hspec more hlt]
      refine ⟨fun spec' hok => ?_, nofun⟩
      -- a cap with a result is one that reaches the triple
      rcases Nat.lt_or_ge found fewer with hreaches | hmisses
      · rw [← hok, hspec fewer hreaches]
      · rw [hfails fewer hmisses] at hok
        cases hok
    · rw [hfails fewer (Nat.le_trans hle hge), hfails more hge]
      exact ⟨nofun, fun error herror => ⟨(Except.error.inj herror).symm, rfl⟩⟩

/-- An id that needs four attempts. -/
theorem deriveWithin_threshold_four_attempts : "K7M2P9QR" ≠ "" ∧
    (∀ attempts < 4, deriveWithin "K7M2P9QR" attempts = .error (.noSequence attempts)) ∧
    ∃ spec, ∀ attempts ≥ 4, deriveWithin "K7M2P9QR" attempts = .ok spec := by
  have hid : "K7M2P9QR" ≠ "" := by decide
  have hthree : (deriveWithin "K7M2P9QR" 3).isOk = false := by decide +kernel
  have hfour : (deriveWithin "K7M2P9QR" 4).isOk = true := by decide +kernel
  obtain ⟨_, ⟨_, hfails⟩ | ⟨found, spec, _, hfails, hspec⟩⟩ := deriveWithin_threshold hid
  · rw [hfails] at hfour
    cases hfour
  · have hlow : 3 ≤ found := by
      by_contra hlt
      rw [hspec 3 (by omega)] at hthree
      cases hthree
    have hhigh : found < 4 := by
      by_contra hge
      rw [hfails 4 (by omega)] at hfour
      cases hfour
    exact ⟨hid, fun attempts hlt => hfails attempts (by omega), spec,
      fun attempts hge => hspec attempts (by omega)⟩

end SheetCipher.Spec
