import Mathlib.Data.List.Basic
import SheetCipher.Proofs.Template.LetterMap
import SheetCipher.Template.Spec

/-!
# Spec — what a usable spec is

`validate` accepts a spec just when every rule holds; `IsValid` is the rules,
and `IsValid.exists_operations` spells those for the operations out.
-/

namespace SheetCipher

namespace Operation

theorem isKeyed_iff {op : Operation} : op.isKeyed = true ↔ op = .substitute ∨ op = .xor := by
  cases op <;> simp [isKeyed]

theorem mixes_three_iff {first second third : Operation} :
    mixes [first, second, third] = true ↔
      first ≠ second ∧ second ≠ third ∧
        ∃ op ∈ [first, second, third], op = .substitute ∨ op = .xor := by
  simp only [mixes, hasRepeat, Bool.and_eq_true, List.any_eq_true, isKeyed_iff,
    Bool.or_false, Bool.not_eq_true', Bool.or_eq_false_iff, beq_eq_false_iff_ne]
  exact ⟨fun ⟨hkeyed, hfirst, hsecond⟩ => ⟨hfirst, hsecond, hkeyed⟩,
    fun ⟨hfirst, hsecond, hkeyed⟩ => ⟨hkeyed, hfirst, hsecond⟩⟩

end Operation

namespace Spec

/-- The rules for a spec. -/
structure IsValid (spec : Spec) : Prop where
  named : spec.templateId ≠ ""
  count : spec.operations.length = Operation.mixingSteps + 1
  last : spec.operations.getD Operation.mixingSteps default = .map
  mixing : Operation.mixes (spec.operations.take Operation.mixingSteps) = true
  shift : shiftInRange spec.substitutionShift = true
  salt : shiftInRange spec.xorSalt = true
  mapping : spec.mapping.isBijection = true

theorem flaw?_eq_none_iff {spec : Spec} : spec.flaw? = none ↔
    spec.operations.length = Operation.mixingSteps + 1 ∧
      spec.operations.getD Operation.mixingSteps default = .map ∧
      Operation.mixes (spec.operations.take Operation.mixingSteps) = true ∧
      shiftInRange spec.substitutionShift = true ∧ shiftInRange spec.xorSalt = true ∧
      spec.mapping.isBijection = true := by
  have hnext : ∀ (broken : Prop) [Decidable broken] (flaw : SpecFlaw) (rest : Option SpecFlaw),
      (if broken then some flaw else rest) = none ↔ ¬ broken ∧ rest = none := by
    intro broken _ flaw rest
    by_cases h : broken <;> simp [h]
  simp only [flaw?, hnext, ne_eq, Decidable.not_not, Bool.not_eq_true', Bool.not_eq_false, and_true]

theorem validate_eq_ok_iff {spec : Spec} : spec.validate = .ok () ↔ spec.IsValid := by
  rw [validate]
  constructor
  · intro h
    split at h
    · cases h
    · rename_i hname
      split at h
      · cases h
      · rename_i hflaw
        obtain ⟨hcount, hlast, hmixing, hshift, hsalt, hmapping⟩ := flaw?_eq_none_iff.1 hflaw
        exact ⟨hname, hcount, hlast, hmixing, hshift, hsalt, hmapping⟩
  · intro h
    have hflaw : spec.flaw? = none :=
      flaw?_eq_none_iff.2 ⟨h.count, h.last, h.mixing, h.shift, h.salt, h.mapping⟩
    rw [if_neg h.named, hflaw]

/-- Three operations that mix, and `map`. -/
theorem IsValid.exists_operations {spec : Spec} (h : spec.IsValid) :
    ∃ first second third, spec.operations = [first, second, third, .map] ∧
      first ≠ second ∧ second ≠ third ∧
        ∃ op ∈ [first, second, third], op = .substitute ∨ op = .xor := by
  obtain ⟨first, second, third, last, hops⟩ := List.length_eq_four.1 h.count
  have hlast := h.last
  have hmixing := h.mixing
  rw [hops] at hlast hmixing
  obtain rfl : last = .map := hlast
  exact ⟨first, second, third, hops, Operation.mixes_three_iff.1 hmixing⟩

/-- A spec with all four operations and the affine map. -/
def affine : Spec where
  templateId := "affine"
  operations := [.reverse, .xor, .substitute, .map]
  substitutionShift := 7
  xorSalt := 19
  mapping := .affine

theorem validate_affine : affine.validate = .ok () :=
  validate_eq_ok_iff.2
    ⟨by decide, rfl, rfl, rfl, by decide, by decide, LetterMap.isBijection_affine⟩

end Spec

end SheetCipher
