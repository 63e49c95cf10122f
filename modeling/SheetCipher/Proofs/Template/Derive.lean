import SheetCipher.Proofs.Cipher.Stage
import SheetCipher.Proofs.Draws.Shuffle
import SheetCipher.Proofs.Template.Spec
import SheetCipher.Template.Derive

/-!
# Derive — what comes out of an id is a usable spec

Nothing is assumed of the words of an id: every draw is an index of the table
that it is used on, both tables are rearrangements of their alphabets, and the
triple is the first one that mixes (`firstMixing_eq`). So a derivation either
finds no triple or ends with a spec that passes every check.
-/

namespace SheetCipher.Spec

/-! ## The triples -/

/-- The operation that a word selects; there always is one. -/
def drawnOperation (word : UInt32) : Operation :=
  Operation.drawn.getD (Draws.index word (Operation.drawn.length - 1)) default

theorem drawOperation_eq_ok (word : UInt32) : drawOperation word = .ok (drawnOperation word) := by
  have hlt : Draws.index word (Operation.drawn.length - 1) < Operation.drawn.length :=
    Nat.lt_of_le_of_lt (Draws.index_le word _) (by decide)
  rw [drawOperation, Overrun.lookup_of_lt hlt, drawnOperation, List.getD_eq_getElem?_getD,
    List.getElem?_eq_getElem hlt, Option.getD_some]

/-- The triple of an attempt. -/
def triple (draws : Draws) (attempt : Nat) : List Operation :=
  (List.range Operation.mixingSteps).map fun step =>
    drawnOperation (draws (Operation.mixingSteps * attempt + step))

theorem candidate_eq_ok (draws : Draws) (attempt : Nat) :
    candidate draws attempt = .ok (triple draws attempt) := by
  have hdraw : ∀ step, drawOperation (draws (Operation.mixingSteps * attempt + step)) =
      pure (drawnOperation (draws (Operation.mixingSteps * attempt + step))) := fun _ =>
    drawOperation_eq_ok _
  rw [candidate, funext hdraw]
  exact List.mapM_pure

theorem length_triple (draws : Draws) (attempt : Nat) :
    (triple draws attempt).length = Operation.mixingSteps := by
  simp [triple]

/-- **The triple that counts is the first one that mixes.** -/
theorem firstMixing_eq (draws : Draws) (attempt count : Nat) :
    firstMixing draws attempt count =
      .ok (((List.range' attempt count).find? fun k => Operation.mixes (triple draws k)).map
        fun k => (k, triple draws k)) := by
  induction count generalizing attempt with
  | zero => rfl
  | succ count ih =>
      rw [firstMixing, candidate_eq_ok, List.range'_succ, List.find?_cons]
      show (if Operation.mixes (triple draws attempt) then _ else _) = _
      by_cases h : Operation.mixes (triple draws attempt)
      · simp only [h, if_true]
        rfl
      · simp only [h, Bool.false_eq_true, if_false]
        exact ih (attempt + 1)

/-! ## The tables and the shifts -/

/-- A shift is drawn from its range. -/
theorem integer_shift (word : UInt32) :
    ∃ shift, Draws.integer word 1 25 = .ok shift ∧ shiftInRange shift = true := by
  have hrange : (1 : Int64).toInt ≤ (25 : Int64).toInt := by decide
  obtain ⟨shift, hshift, hlow, hhigh⟩ := Draws.integer_mem word hrange (by decide)
  exact ⟨shift, hshift, shiftInRange_iff.2 ⟨hlow, hhigh⟩⟩

theorem shuffle_alphabet (draws : Draws) (k : LetterCase) :
    ∃ table, Draws.shuffle draws k.alphabet = .ok table ∧ table.Perm k.alphabet :=
  Draws.shuffle_perm draws k.alphabet

/-- **Whatever words come, the rest of the spec is in order.** -/
theorem ofDraws_eq_ok (id : String) (ops : List Operation) (draws : Draws) :
    ∃ spec, ofDraws id ops draws = .ok spec ∧ spec.templateId = id ∧
      spec.operations = ops ++ [.map] ∧ shiftInRange spec.substitutionShift = true ∧
      shiftInRange spec.xorSalt = true ∧ spec.mapping.isBijection = true := by
  let spent := alphabetSize - 1
  obtain ⟨upper, hupper, hpermUpper⟩ := shuffle_alphabet draws .upper
  obtain ⟨lower, hlower, hpermLower⟩ := shuffle_alphabet (draws.drop spent) .lower
  obtain ⟨shift, hshift, hshiftRange⟩ := integer_shift (draws (2 * spent))
  obtain ⟨salt, hsalt, hsaltRange⟩ := integer_shift (draws (2 * spent + 1))
  refine ⟨⟨id, ops ++ [.map], shift, salt, ⟨upper, lower⟩⟩, ?_, rfl, rfl, hshiftRange,
    hsaltRange, ?_⟩
  · simp only [spent] at hlower hshift hsalt
    simp only [ofDraws, hupper, hlower, hshift, hsalt]
    rfl
  · rw [LetterMap.isBijection, List.isPerm_iff.2 hpermUpper, List.isPerm_iff.2 hpermLower]
    rfl

/-! ## The whole derivation -/

/-- A triple that mixes, with `map` behind it, follows the rules for the
operations. -/
theorem isValid_of_mixes {spec : Spec} {ops : List Operation} (hnamed : spec.templateId ≠ "")
    (hops : spec.operations = ops ++ [.map]) (hlength : ops.length = Operation.mixingSteps)
    (hmixes : Operation.mixes ops = true) (hshift : shiftInRange spec.substitutionShift = true)
    (hsalt : shiftInRange spec.xorSalt = true) (hmapping : spec.mapping.isBijection = true) :
    spec.IsValid where
  named := hnamed
  count := by rw [hops, List.length_append, hlength]; rfl
  last := by simp [hops, ← hlength]
  mixing := by rw [hops, ← hlength, List.take_left']; exacts [hmixes, rfl]
  shift := hshift
  salt := hsalt
  mapping := hmapping

@[simp] theorem ofOverrun_ok {α : Type} (a : α) : TemplateError.ofOverrun (.ok a) = .ok a := rfl

/-- The attempt whose triple counts. -/
def accepted? (id : String) (attempts : Nat) : Option Nat :=
  (List.range' 0 attempts).find? fun k => Operation.mixes (triple (Draws.ofText id) k)

theorem deriveWithin_of_none {id : String} (hid : id ≠ "") {attempts : Nat}
    (h : accepted? id attempts = none) :
    deriveWithin id attempts = .error (.noSequence attempts) := by
  rw [accepted?] at h
  rw [deriveWithin, if_neg hid]
  simp only [firstMixing_eq, h, ofOverrun_ok, Option.map_none, bind, Except.bind]

theorem deriveWithin_of_some {id : String} (hid : id ≠ "") {attempts found : Nat}
    (h : accepted? id attempts = some found) :
    deriveWithin id attempts = TemplateError.ofOverrun
      (ofDraws id (triple (Draws.ofText id) found)
        ((Draws.ofText id).drop (Operation.mixingSteps * (found + 1)))) := by
  rw [accepted?] at h
  rw [deriveWithin, if_neg hid]
  simp only [firstMixing_eq, h, ofOverrun_ok, Option.map_some, bind, Except.bind]

theorem deriveWithin_cases {id : String} (hid : id ≠ "") (attempts : Nat) :
    deriveWithin id attempts = .error (.noSequence attempts) ∨
      ∃ spec, deriveWithin id attempts = .ok spec ∧ spec.templateId = id ∧ spec.IsValid := by
  cases hfind : accepted? id attempts with
  | none => exact .inl (deriveWithin_of_none hid hfind)
  | some found =>
      have hmixes := List.find?_some hfind
      obtain ⟨spec, hspec, hname, hops, hshift, hsalt, hmapping⟩ :=
        ofDraws_eq_ok id (triple (Draws.ofText id) found)
          ((Draws.ofText id).drop (Operation.mixingSteps * (found + 1)))
      refine .inr ⟨spec, ?_, hname, isValid_of_mixes (by rwa [hname]) hops (length_triple _ _)
        hmixes hshift hsalt hmapping⟩
      rw [deriveWithin_of_some hid hfind, hspec, ofOverrun_ok]

/-- **An id stands for a usable spec unless no triple mixes.** Nothing else can
happen: no draw misses the table that it is used on. The spec is named by the
id and passes its checks, so it has three operations that mix and `map`, shifts
in 1..=25 and tables that rearrange their alphabets. -/
theorem deriveWithin_valid {id : String} (hid : id ≠ "") (attempts : Nat) :
    deriveWithin id attempts = .error (.noSequence attempts) ∨
      ∃ spec, deriveWithin id attempts = .ok spec ∧ spec.templateId = id ∧
        spec.validate = .ok () ∧
        (∃ first second third, spec.operations = [first, second, third, .map] ∧
          first ≠ second ∧ second ≠ third ∧
          ∃ op ∈ [first, second, third], op = .substitute ∨ op = .xor) ∧
        (1 ≤ spec.substitutionShift.toInt ∧ spec.substitutionShift.toInt ≤ 25) ∧
        (1 ≤ spec.xorSalt.toInt ∧ spec.xorSalt.toInt ≤ 25) ∧
        ∀ k, (spec.mapping.table k).Perm k.alphabet := by
  rcases deriveWithin_cases hid attempts with hnone | ⟨spec, hspec, hname, hvalid⟩
  · exact .inl hnone
  · exact .inr ⟨spec, hspec, hname, validate_eq_ok_iff.2 hvalid, hvalid.exists_operations,
      shiftInRange_iff.1 hvalid.shift, shiftInRange_iff.1 hvalid.salt,
      LetterMap.table_perm hvalid.mapping⟩

/-- An id whose third triple is the first that mixes. -/
theorem deriveWithin_valid_third_triple : "中文模板" ≠ "" ∧
    ∃ spec, deriveWithin "中文模板" 3 = .ok spec ∧ spec.templateId = "中文模板" ∧
      spec.validate = .ok () ∧ ∀ k, (spec.mapping.table k).Perm k.alphabet := by
  have hid : "中文模板" ≠ "" := by decide
  have hok : (deriveWithin "中文模板" 3).isOk = true := by decide +kernel
  rcases deriveWithin_valid hid 3 with hnone | ⟨spec, hspec, hname, hvalid, _, _, _, htables⟩
  · rw [hnone] at hok
    cases hok
  · exact ⟨hid, spec, hspec, hname, hvalid, htables⟩

end SheetCipher.Spec
