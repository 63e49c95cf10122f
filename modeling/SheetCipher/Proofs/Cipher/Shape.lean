import Mathlib.Algebra.Ring.Parity
import Mathlib.Data.List.Basic
import SheetCipher.Proofs.Cipher.Trace

/-!
# Shape — what no stage can change

A text has a shape: where its letters stand, in which case, and every other
character. Shifts and maps keep the shape, and a reversal turns it round; so a
run of stages turns it round as often as there are reversals among them, in
either mode (`run_keeps_shape`).
-/

namespace SheetCipher

/-- What stands at a place of a text: some letter of a case, or a character that
is no letter. -/
inductive Slot where
  | letter (k : LetterCase)
  | other (c : Char)
deriving DecidableEq, Repr

namespace Slot

def ofChar (c : Char) : Slot :=
  match LetterCase.ofChar? c with
  | some k => .letter k
  | none => .other c

theorem ofChar_of_some {c : Char} {k : LetterCase} (h : LetterCase.ofChar? c = some k) :
    ofChar c = .letter k := by
  simp only [ofChar, h]

theorem ofChar_of_none {c : Char} (h : LetterCase.ofChar? c = none) : ofChar c = .other c := by
  simp only [ofChar, h]

/-- **Two characters have one slot** if they are letters of one case or the same
character. -/
theorem ofChar_eq_iff {c d : Char} : ofChar d = ofChar c ↔
    LetterCase.ofChar? d = LetterCase.ofChar? c ∧ (LetterCase.ofChar? c = none → d = c) := by
  cases hc : LetterCase.ofChar? c with
  | none =>
      cases hd : LetterCase.ofChar? d with
      | none => simp [ofChar_of_none hc, ofChar_of_none hd]
      | some k => simp [ofChar_of_none hc, ofChar_of_some hd]
  | some j =>
      cases hd : LetterCase.ofChar? d with
      | none => simp [ofChar_of_some hc, ofChar_of_none hd]
      | some k => simp [ofChar_of_some hc, ofChar_of_some hd]

theorem ofChar_turn (c : Char) (amount : Int) : ofChar (turn c amount) = ofChar c :=
  ofChar_eq_iff.2 ⟨ofChar?_turn c amount, fun hc => turn_of_none hc amount⟩

theorem ofChar_entryOf {m : LetterMap} (h : m.isBijection = true) (direction : Direction)
    (c : Char) : ofChar (m.entryOf direction c) = ofChar c := by
  have himage : ∀ c, ofChar (m.imageOf c) = ofChar c := fun c =>
    ofChar_eq_iff.2
      ⟨LetterMap.ofChar?_imageOf h c, fun hc => by simp only [LetterMap.imageOf, hc]⟩
  cases direction with
  | forward => exact himage c
  | inverse =>
      -- a character is the image of its preimage
      have hback := himage (m.preimageOf c)
      rw [LetterMap.imageOf_preimageOf h] at hback
      exact hback.symm

/-! ## Cases of ASCII letters -/

theorem isUpper_iff {c : Char} : c.isUpper = true ↔ LetterCase.ofChar? c = some .upper := by
  have hcodes : c.isUpper = true ↔ 65 ≤ c.toNat ∧ c.toNat ≤ 90 := decide_eq_true_iff
  rw [hcodes, LetterCase.ofChar?_eq_some_iff]
  simp only [LetterCase.base, alphabetSize]
  omega

theorem isLower_iff {c : Char} : c.isLower = true ↔ LetterCase.ofChar? c = some .lower := by
  have hcodes : c.isLower = true ↔ 97 ≤ c.toNat ∧ c.toNat ≤ 122 :=
    Bool.and_eq_true_iff.trans (and_congr decide_eq_true_iff decide_eq_true_iff)
  rw [hcodes, LetterCase.ofChar?_eq_some_iff]
  simp only [LetterCase.base, alphabetSize]
  omega

theorem ofChar?_of_isAlpha {c : Char} (h : c.isAlpha = false) : LetterCase.ofChar? c = none := by
  obtain ⟨hupper, hlower⟩ := Bool.or_eq_false_iff.1 h
  cases hc : LetterCase.ofChar? c with
  | none => rfl
  | some k =>
      cases k with
      | upper => exact absurd (isUpper_iff.2 hc) (Bool.eq_false_iff.1 hupper)
      | lower => exact absurd (isLower_iff.2 hc) (Bool.eq_false_iff.1 hlower)

/-- Characters of one slot agree in case, and are the same unless they are
letters. -/
theorem of_ofChar_eq {c d : Char} (h : ofChar d = ofChar c) :
    d.isUpper = c.isUpper ∧ d.isLower = c.isLower ∧ (c.isAlpha = false → d = c) := by
  obtain ⟨hcase, hsame⟩ := ofChar_eq_iff.1 h
  refine ⟨?_, ?_, fun hc => hsame (ofChar?_of_isAlpha hc)⟩
  · rw [Bool.eq_iff_iff, isUpper_iff, isUpper_iff, hcase]
  · rw [Bool.eq_iff_iff, isLower_iff, isLower_iff, hcase]

end Slot

/-- The slots of a text. -/
def shape (text : List Char) : List Slot := text.map Slot.ofChar

@[simp] theorem length_shape (text : List Char) : (shape text).length = text.length :=
  List.length_map ..

/-! ## Stages -/

/-- What an operation does to a shape. -/
def Operation.onShape : Operation → List Slot → List Slot
  | reverse, slots => slots.reverse
  | substitute, slots | xor, slots | map, slots => slots

/-- **No stage changes a shape but by turning it round.** -/
theorem Operation.shape_effect {spec : Spec} (h : spec.IsReversible) (op : Operation)
    (direction : Direction) (key : PasswordKey) (text : List Char) :
    shape (op.effect direction spec key text) = op.onShape (shape text) := by
  have hkeyed : op.isKeyed = true →
      shape (op.effect direction spec key text) = shape text := by
    intro hop
    refine List.ext_getElem? fun i => ?_
    rw [effect_of_isKeyed hop, shape, shape, List.getElem?_map, List.getElem?_mapIdx,
      List.getElem?_map, Option.map_map]
    exact congrArg (Option.map · text[i]?) (funext fun c => Slot.ofChar_turn c _)
  cases op with
  | substitute => exact hkeyed rfl
  | xor => exact hkeyed rfl
  | reverse => exact List.map_reverse
  | map =>
      simp only [effect, shape, onShape, List.map_map]
      exact List.map_congr_left fun c _ => Slot.ofChar_entryOf h.mapping direction c

namespace Spec

/-- How often stages turn a text round. -/
def reversals (stages : List (Operation × Direction)) : Nat :=
  (stages.map Prod.fst).count .reverse

theorem reversals_cons (op : Operation) (direction : Direction)
    (stages : List (Operation × Direction)) :
    reversals ((op, direction) :: stages) =
      if op = .reverse then reversals stages + 1 else reversals stages := by
  simp only [reversals, List.map_cons, List.count_cons, beq_iff_eq]
  split <;> rfl

/-- **A run turns the shape round** once for each reversal. -/
theorem shape_foldl_step {spec : Spec} (h : spec.IsReversible) (key : PasswordKey)
    (stages : List (Operation × Direction)) (text : List Char) :
    shape (stages.foldl (spec.step key) text) =
      List.reverse^[reversals stages] (shape text) := by
  induction stages generalizing text with
  | nil => rfl
  | cons stage stages ih =>
      obtain ⟨op, direction⟩ := stage
      rw [List.foldl_cons, ih, step, Operation.shape_effect h, reversals_cons]
      cases op with
      | reverse => rfl
      | substitute | xor | map => rfl

/-- Both modes turn a text round as often. -/
theorem reversals_stages (spec : Spec) (mode : Mode) :
    reversals (spec.stages mode) = spec.operations.count .reverse := by
  cases mode <;> simp [reversals, stages, Function.comp_def]

end Spec

/-- Where an entry stood before the list was turned round a number of times. -/
theorem getElem?_reverse_iterate {α : Type} (n : Nat) (xs : List α) {i : Nat}
    (hi : i < xs.length) :
    (List.reverse^[n] xs)[i]? = xs[if Even n then i else xs.length - 1 - i]? := by
  have hinvolutive : Function.Involutive (List.reverse : List α → List α) :=
    List.reverse_involutive
  by_cases hn : Even n
  · rw [if_pos hn, hinvolutive.iterate_even hn]
    rfl
  · rw [if_neg hn, hinvolutive.iterate_odd (Nat.not_even_iff_odd.1 hn), List.getElem?_reverse hi]

namespace Cipher

/-- **A cipher keeps the shape of its text**, in each mode and whatever the
operations are: a result of the same length, in which each place has the case
of the place that it stems from, or the same character if that is no letter.
Places count from 0. -/
theorem run_keeps_shape {spec : Spec} (hmap : spec.mapping.isBijection = true)
    (hshift : 1 ≤ spec.substitutionShift ∧ spec.substitutionShift ≤ 25)
    (hsalt : 1 ≤ spec.xorSalt ∧ spec.xorSalt ≤ 25) (password : String) (capacity : Nat)
    (mode : Mode) (text : String) :
    let cut := text.toList.take capacity
    let source := fun i =>
      if Even (spec.operations.count .reverse) then i else cut.length - 1 - i
    ∃ output, (ofPassword spec password capacity).run mode text = .ok output ∧
      output.toList.length = cut.length ∧
      ∀ i < cut.length, ∃ c d, cut[source i]? = some c ∧ output.toList[i]? = some d ∧
        d.isUpper = c.isUpper ∧ d.isLower = c.isLower ∧ (c.isAlpha = false → d = c) := by
  intro cut source
  have h : spec.IsReversible := .of_bounds hmap hshift hsalt
  let output := (spec.stages mode).foldl (spec.step (PasswordKey.ofPassword password)) cut
  have hshape : shape output = List.reverse^[spec.operations.count .reverse] (shape cut) := by
    rw [← Spec.reversals_stages spec mode]
    exact Spec.shape_foldl_step h _ _ cut
  have hlength : output.length = cut.length := Spec.length_foldl_step ..
  refine ⟨String.ofList output, run_eq_ok h mode text, ?_, fun i hi => ?_⟩
  · rw [String.toList_ofList, hlength]
  · have hslot : (shape output)[i]? = (shape cut)[source i]? := by
      rw [hshape, getElem?_reverse_iterate _ _ (by rwa [length_shape]), length_shape]
    have hsource : source i < cut.length := by
      simp only [source]
      split <;> omega
    rw [String.toList_ofList]
    have hout : i < output.length := hlength ▸ hi
    simp only [shape, List.getElem?_map, List.getElem?_eq_getElem hout,
      List.getElem?_eq_getElem hsource, Option.map_some, Option.some.injEq] at hslot
    exact ⟨_, _, List.getElem?_eq_getElem hsource, List.getElem?_eq_getElem hout,
      Slot.of_ofChar_eq hslot⟩

/-- Three reversals, so that the first place stems from the last one that is not
cut off. -/
theorem run_keeps_shape_three_reversals :
    let spec : Spec :=
      { templateId := "three", substitutionShift := 25, xorSalt := 1, mapping := .affine,
        operations := [.reverse, .map, .reverse, .substitute, .xor, .reverse, .map] }
    let cut := "Zebra, zébra!".toList.take 12
    spec.mapping.isBijection = true ∧ (1 ≤ spec.substitutionShift ∧ spec.substitutionShift ≤ 25) ∧
      (1 ≤ spec.xorSalt ∧ spec.xorSalt ≤ 25) ∧ cut.length = 12 ∧
      ∃ output, (ofPassword spec "pass" 12).run .decrypt "Zebra, zébra!" = .ok output ∧
        output.toList.length = cut.length ∧
        ∀ i < cut.length, ∃ c d, cut[cut.length - 1 - i]? = some c ∧ output.toList[i]? = some d ∧
          d.isUpper = c.isUpper ∧ d.isLower = c.isLower ∧ (c.isAlpha = false → d = c) := by
  intro spec cut
  have hmap : spec.mapping.isBijection = true := LetterMap.isBijection_affine
  have hshift : 1 ≤ spec.substitutionShift ∧ spec.substitutionShift ≤ 25 := by decide
  have hsalt : 1 ≤ spec.xorSalt ∧ spec.xorSalt ≤ 25 := by decide
  have hodd : ¬ Even (spec.operations.count .reverse) := by decide
  have hkeeps := run_keeps_shape hmap hshift hsalt "pass" 12 .decrypt "Zebra, zébra!"
  simp only [if_neg hodd] at hkeeps
  exact ⟨hmap, hshift, hsalt, by decide, hkeeps⟩

end Cipher

end SheetCipher
