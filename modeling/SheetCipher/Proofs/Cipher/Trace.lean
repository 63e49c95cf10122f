import SheetCipher.Cipher.Trace
import SheetCipher.Proofs.Cipher.Stage

/-!
# Trace — a text there and back

When no stage fails, a trace is a scan of the effects over the text. Running
the opposite stages in reverse order over the result passes the same texts from
the last to the first. The text is cut only once: a stage keeps the length, so
the way back has nothing left to cut.
-/

namespace SheetCipher

namespace Mode

/-- The other mode. -/
def opposite : Mode → Mode
  | encrypt => decrypt
  | decrypt => encrypt

end Mode

/-! ## Traces as scans -/

namespace Spec

/-- The text after a stage. -/
def step (spec : Spec) (key : PasswordKey) (text : List Char) (stage : Operation × Direction) :
    List Char :=
  stage.1.effect stage.2 spec key text

@[simp] theorem length_step (spec : Spec) (key : PasswordKey) (text : List Char)
    (stage : Operation × Direction) : (spec.step key text stage).length = text.length :=
  Operation.length_effect ..

theorem length_foldl_step (spec : Spec) (key : PasswordKey)
    (stages : List (Operation × Direction)) (text : List Char) :
    (stages.foldl (spec.step key) text).length = text.length := by
  induction stages generalizing text with
  | nil => rfl
  | cons stage stages ih => rw [List.foldl_cons, ih, length_step]

end Spec

theorem runStages_eq_ok {spec : Spec} (h : spec.IsReversible) (key : PasswordKey)
    (stages : List (Operation × Direction)) (text : List Char) :
    runStages spec key stages text = .ok (stages.scanl (spec.step key) text) := by
  induction stages generalizing text with
  | nil => rfl
  | cons stage stages ih =>
      rw [runStages, Operation.apply_eq_ok h, List.scanl_cons]
      change (runStages spec key stages (spec.step key text stage) >>= fun later =>
        Except.ok (text :: later)) = _
      rw [ih]
      rfl

namespace Cipher

variable {cipher : Cipher}

theorem trace_eq_ok (h : cipher.spec.IsReversible) (mode : Mode) (text : String) :
    cipher.trace mode text =
      .ok ((cipher.spec.stages mode).scanl (cipher.spec.step cipher.key)
        (text.toList.take cipher.capacity)) :=
  runStages_eq_ok h ..

theorem run_eq_ok (h : cipher.spec.IsReversible) (mode : Mode) (text : String) :
    cipher.run mode text =
      .ok (String.ofList ((cipher.spec.stages mode).foldl (cipher.spec.step cipher.key)
        (text.toList.take cipher.capacity))) := by
  rw [run, trace_eq_ok h]
  change Except.ok (String.ofList (List.getLastD _ [])) = _
  rw [List.getLastD_eq_getLast?, List.getLast?_scanl]
  rfl

end Cipher

/-! ## The way back -/

/-- The opposite stages in reverse order. -/
def undoing (stages : List (Operation × Direction)) : List (Operation × Direction) :=
  stages.reverse.map fun stage => (stage.1, stage.2.opposite)

theorem undoing_cons (stage : Operation × Direction) (stages : List (Operation × Direction)) :
    undoing (stage :: stages) = undoing stages ++ [(stage.1, stage.2.opposite)] := by
  simp [undoing]

theorem Spec.stages_opposite (spec : Spec) (mode : Mode) :
    spec.stages mode.opposite = undoing (spec.stages mode) := by
  cases mode <;>
    simp [Mode.opposite, stages, undoing, Direction.opposite, List.map_reverse, Function.comp_def]

namespace Spec

variable {spec : Spec} (h : spec.IsReversible) (key : PasswordKey)
include h

theorem foldl_undoing (stages : List (Operation × Direction)) (text : List Char) :
    (undoing stages).foldl (spec.step key) (stages.foldl (spec.step key) text) = text := by
  induction stages generalizing text with
  | nil => rfl
  | cons stage stages ih =>
      rw [undoing_cons, List.foldl_append, List.foldl_cons, List.foldl_cons, ih]
      exact Operation.effect_opposite h stage.1 stage.2 key text

/-- **The way back passes the same texts**, from the last to the first. -/
theorem scanl_undoing (stages : List (Operation × Direction)) (text : List Char) :
    (undoing stages).scanl (spec.step key) (stages.foldl (spec.step key) text) =
      (stages.scanl (spec.step key) text).reverse := by
  induction stages generalizing text with
  | nil => rfl
  | cons stage stages ih =>
      -- the first stage is undone last, so the way back ends with it
      have hback : spec.step key (spec.step key text stage) (stage.1, stage.2.opposite) = text :=
        Operation.effect_opposite h stage.1 stage.2 key text
      rw [undoing_cons, List.foldl_cons, List.scanl_append, ih, foldl_undoing h, List.scanl_cons,
        List.scanl_cons, List.scanl_nil, hback]
      simp

end Spec

namespace Cipher

variable {cipher : Cipher}

/-- A result is no longer than the capacity, so that it passes whole. -/
theorem run_opposite (h : cipher.spec.IsReversible) (mode : Mode) (text : String) :
    ∃ texts result, cipher.trace mode text = .ok texts ∧ cipher.run mode text = .ok result ∧
      cipher.trace mode.opposite result = .ok texts.reverse ∧
      cipher.run mode.opposite result = .ok (String.ofList (text.toList.take cipher.capacity)) := by
  have hwhole : ((cipher.spec.stages mode).foldl (cipher.spec.step cipher.key)
      (text.toList.take cipher.capacity)).length ≤ cipher.capacity := by
    rw [Spec.length_foldl_step]
    exact List.length_take_le _ _
  refine ⟨_, _, trace_eq_ok h mode text, run_eq_ok h mode text, ?_, ?_⟩
  · rw [trace_eq_ok h, String.toList_ofList, List.take_of_length_le hwhole, Spec.stages_opposite,
      Spec.scanl_undoing h]
  · rw [run_eq_ok h, String.toList_ofList, List.take_of_length_le hwhole, Spec.stages_opposite,
      Spec.foldl_undoing h]

/-- **Each mode retraces the other backwards**, whatever the operations are. -/
theorem trace_retraces {spec : Spec} (hmap : spec.mapping.isBijection = true)
    (hshift : 1 ≤ spec.substitutionShift ∧ spec.substitutionShift ≤ 25)
    (hsalt : 1 ≤ spec.xorSalt ∧ spec.xorSalt ≤ 25) (password : String) (capacity : Nat) :
    let cipher := Cipher.ofPassword spec password capacity
    (∀ x, ∃ texts result, cipher.trace .encrypt x = .ok texts ∧ cipher.encrypt x = .ok result ∧
        cipher.trace .decrypt result = .ok texts.reverse ∧
        cipher.decrypt result = .ok (String.ofList (x.toList.take capacity))) ∧
      ∀ y, ∃ texts result, cipher.trace .decrypt y = .ok texts ∧ cipher.decrypt y = .ok result ∧
        cipher.trace .encrypt result = .ok texts.reverse ∧
        cipher.encrypt result = .ok (String.ofList (y.toList.take capacity)) := by
  have h : spec.IsReversible := .of_bounds hmap hshift hsalt
  exact ⟨run_opposite h .encrypt, run_opposite h .decrypt⟩

/-- Seven operations, with repeats and with a map in the middle. -/
theorem trace_retraces_seven_operations :
    let spec : Spec :=
      { templateId := "seven", substitutionShift := 25, xorSalt := 1, mapping := .affine,
        operations := [.xor, .reverse, .map, .substitute, .substitute, .reverse, .xor] }
    let cipher := Cipher.ofPassword spec "pass" 12
    spec.mapping.isBijection = true ∧ (1 ≤ spec.substitutionShift ∧ spec.substitutionShift ≤ 25) ∧
      (1 ≤ spec.xorSalt ∧ spec.xorSalt ≤ 25) ∧
      ∃ texts result, cipher.trace .encrypt "Zebra, zebra!" = .ok texts ∧
        cipher.encrypt "Zebra, zebra!" = .ok result ∧
        cipher.trace .decrypt result = .ok texts.reverse ∧
        cipher.decrypt result = .ok (String.ofList ("Zebra, zebra!".toList.take 12)) := by
  intro spec cipher
  have hmap : spec.mapping.isBijection = true := LetterMap.isBijection_affine
  have hshift : 1 ≤ spec.substitutionShift ∧ spec.substitutionShift ≤ 25 := by decide
  have hsalt : 1 ≤ spec.xorSalt ∧ spec.xorSalt ≤ 25 := by decide
  exact ⟨hmap, hshift, hsalt,
    (trace_retraces hmap hshift hsalt "pass" 12).1 "Zebra, zebra!"⟩

end Cipher

end SheetCipher
