import SheetCipher.Proofs.Layout.Cell
import SheetCipher.Proofs.Template.Spec

/-!
# Run — a compiled grid is the cipher

A spec that passes its checks compiles, and the grids that come out do what
the cipher does: every column shows a text of the trace, the last one grows the
result, and the result cell shows it whole. None of this depends on what is
typed.
-/

namespace SheetCipher

/-! ## What is typed -/

namespace Inputs

/-- The text of a mode. -/
def text (inputs : Inputs) : Mode → String
  | .encrypt => inputs.plaintext
  | .decrypt => inputs.ciphertext

theorem getElem?_values (inputs : Inputs) (ref : CellRef) :
    inputs.values[ref]? = List.lookup ref [
      (InputCell.ciphertext, Value.text inputs.ciphertext),
      (InputCell.password, Value.text inputs.password),
      (InputCell.plaintext, Value.text inputs.plaintext)] :=
  CellRef.getElem?_ofList _ ref

theorem getElem?_values_input (inputs : Inputs) (mode : Mode) :
    inputs.values[InputCell.ofMode mode]? = some (.text (inputs.text mode)) := by
  rw [getElem?_values]
  cases mode <;> rfl

theorem getElem?_values_password (inputs : Inputs) :
    inputs.values[InputCell.password]? = some (.text inputs.password) := by
  rw [getElem?_values]
  rfl

theorem text_ofMode (password text : String) (mode : Mode) :
    (ofMode password text mode).text mode = text := by
  cases mode <;> rfl

theorem password_ofMode (password text : String) (mode : Mode) :
    (ofMode password text mode).password = password := by
  cases mode <;> rfl

end Inputs

/-! ## Plans of a valid spec -/

theorem Spec.IsValid.isReversible {spec : Spec} (h : spec.IsValid) : spec.IsReversible :=
  ⟨h.mapping, h.shift, h.salt⟩

namespace GridPlan

@[simp] theorem ofSpec_spec (spec : Spec) (capacity : Nat) (mode : Mode) :
    (ofSpec spec capacity mode).spec = spec := by
  cases mode <;> rfl

@[simp] theorem ofSpec_mode (spec : Spec) (capacity : Nat) (mode : Mode) :
    (ofSpec spec capacity mode).mode = mode := by
  cases mode <;> rfl

@[simp] theorem ofSpec_capacity (spec : Spec) (capacity : Nat) (mode : Mode) :
    (ofSpec spec capacity mode).capacity = capacity := by
  cases mode <;> rfl

theorem isUsable_ofSpec {spec : Spec} (hspec : spec.IsValid) {capacity : Nat}
    (hcapacity : 1 ≤ capacity ∧ capacity ≤ maxCapacity) (mode : Mode) :
    (ofSpec spec capacity mode).IsUsable where
  reversible := by rw [ofSpec_spec]; exact hspec.isReversible
  four := by rw [ofSpec_spec]; exact hspec.count
  pos := by rw [ofSpec_capacity]; exact hcapacity.1
  le := by rw [ofSpec_capacity]; exact hcapacity.2
  low := by
    cases mode with
    | encrypt => exact Nat.le_refl _
    | decrypt => exact Nat.le_trans (Nat.le_add_right _ capacity) (Nat.le_add_right _ gap)
  high := by
    cases mode with
    | encrypt => exact Nat.le_trans (Nat.le_add_right _ maxCapacity) (Nat.le_add_right _ gap)
    | decrypt => exact Nat.add_le_add_right (Nat.add_le_add_left hcapacity.2 _) _
  result := by
    cases mode with
    | encrypt => exact (by decide : 1 < 9)
    | decrypt => exact (by decide : 4 < 9)
  beside := by
    have hcol : (ofSpec spec capacity mode).result.col = spec.operations.length := by
      cases mode <;> rfl
    rw [hcol, hspec.count]
    decide

/-- The cells of a plan as a grid. -/
def grid (plan : GridPlan) : Grid := Grid.ofCells plan.cells

variable {plan : GridPlan}

theorem getElem?_grid (hplan : plan.IsUsable) {ref : CellRef} {cell : Cell} :
    plan.grid[ref]? = some cell ↔ (ref, cell) ∈ plan.cells := by
  constructor
  · exact CellRef.mem_of_getElem?_ofList
  · intro h
    exact CellRef.getElem?_ofList_of_unique h fun cell' h' => hplan.cells_unique h h'

theorem mem_grid (hplan : plan.IsUsable) {ref : CellRef} : ref ∈ plan.grid ↔ plan.Covers ref := by
  simp only [Grid.mem_iff_exists, getElem?_grid hplan, covers_iff]

theorem not_isCyclic_grid (hplan : plan.IsUsable) : ¬ plan.grid.dependencies.IsCyclic := by
  refine DependencyGraph.not_isCyclic_of_measure rank ?_
  intro ref other hdepends
  obtain ⟨hother, cell, hcell, hreads⟩ := Grid.dependsOn_iff.1 hdepends
  rw [mem_grid hplan] at hother
  rcases reads_lower hplan ((getElem?_grid hplan).1 hcell) hreads with rfl | rfl | hlower
  · exact absurd hother (hplan.not_covers_input _)
  · exact absurd hother hplan.not_covers_password
  · exact hlower

/-- What is found beside a plan is still found when values have been entered in
the plan. -/
theorem Finds.of_outside {sheets : Sheets} {values now : Values} {password text : String}
    (h : plan.Finds sheets password text values)
    (hinput : now[InputCell.ofMode plan.mode]? = values[InputCell.ofMode plan.mode]?)
    (hpassword : now[InputCell.password]? = values[InputCell.password]?) :
    plan.Finds sheets password text now where
  input := by
    rw [← h.input, Values.read, Values.read, hinput]
  password := by
    rw [← h.password, Values.read, Values.read, hpassword]
  keyMap := h.keyMap

/-- **The grid of a plan works out to the guess.** -/
theorem solves_grid (hplan : plan.IsUsable) {sheets : Sheets} {values : Values}
    {password text : String} (hfinds : plan.Finds sheets password text values) :
    plan.grid.Solves sheets values (plan.guess password text) where
  acyclic := not_isCyclic_grid hplan
  confirms := by
    intro ref cell hcell now hreads houtside
    have hnow : plan.Finds sheets password text now := by
      refine hfinds.of_outside (houtside _ ?_) (houtside _ ?_) <;> rw [mem_grid hplan]
      · exact hplan.not_covers_input _
      · exact hplan.not_covers_password
    refine cell_value hplan hnow ((getElem?_grid hplan).1 hcell) ?_
    intro other hcovers
    exact hreads other ((mem_grid hplan).2 hcovers)

theorem ofPlan_eq_ok (hplan : plan.IsUsable) :
    CompiledGrid.ofPlan plan = .ok ⟨plan, plan.grid⟩ := by
  obtain ⟨order, horder, _⟩ := DependencyGraph.exists_schedule (not_isCyclic_grid hplan)
  have horder : (Grid.ofCells plan.cells).evaluationOrder = .ok order := horder
  rw [CompiledGrid.ofPlan]
  simp only [horder]
  rfl

end GridPlan

/-! ## The compiled template -/

namespace Spec

/-- The grids of a spec whose plans can be worked out. -/
def template (spec : Spec) (capacity : Nat) (rows : List KeyRow) : CompiledTemplate :=
  let compiled := fun mode =>
    let plan := GridPlan.ofSpec spec capacity mode
    { plan, cells := plan.grid : CompiledGrid }
  { spec, capacity, encrypt := compiled .encrypt, decrypt := compiled .decrypt, keyRows := rows }

/-- **A valid spec compiles.** -/
theorem compile_eq_ok {spec : Spec} (hspec : spec.IsValid) {capacity : Nat}
    (hcapacity : 1 ≤ capacity ∧ capacity ≤ maxCapacity) :
    ∃ rows, spec.mapping.keyRows = .ok rows ∧
      spec.compile capacity = .ok (spec.template capacity rows) := by
  have hrows := LetterMap.keyRows_eq_ok hspec.mapping
  have hofPlan := fun mode => GridPlan.ofPlan_eq_ok (GridPlan.isUsable_ofSpec hspec hcapacity mode)
  refine ⟨_, hrows, ?_⟩
  rw [compile, if_pos hcapacity, validate_eq_ok_iff.2 hspec, hrows, hofPlan, hofPlan]
  rfl

/-- A compiled template is that of a valid spec at a capacity in range. -/
theorem exists_template {spec : Spec} {capacity : Nat} {template : CompiledTemplate}
    (h : spec.compile capacity = .ok template) :
    spec.IsValid ∧ (1 ≤ capacity ∧ capacity ≤ maxCapacity) ∧
      ∃ rows, template = spec.template capacity rows := by
  by_cases hcapacity : 1 ≤ capacity ∧ capacity ≤ maxCapacity
  · cases hvalidate : spec.validate with
    | error error =>
        rw [compile, if_pos hcapacity, hvalidate] at h
        cases h
    | ok _ =>
        have hspec := validate_eq_ok_iff.1 hvalidate
        obtain ⟨rows, _, hcompile⟩ := compile_eq_ok hspec hcapacity
        rw [hcompile] at h
        cases h
        exact ⟨hspec, hcapacity, rows, rfl⟩
  · rw [compile, if_neg hcapacity] at h
    cases h

end Spec

/-! ## What the columns show -/

namespace GridPlan

/-- A sheet shows a trace of texts of one length. Place `k + 1` in the list of
columns, which is that of the input for 0 and that of the `k`-th operation
else, shows the `k`-th text, and the last place shows the last text as far as
each position. -/
structure Displays (plan : GridPlan) (final : Values) (texts : List (List Char)) (length : Nat) :
    Prop where
  stages : texts.length = (plan.spec.stages plan.mode).length + 1
  lengths : ∀ t ∈ texts, t.length = length
  text : ∀ k t p, texts[k]? = some t → 1 ≤ p → p ≤ plan.capacity →
    ∃ ref, plan.cellAt (k + 1) p = .ok ref ∧
      (p ≤ length → ∃ c, t[p - 1]? = some c ∧ final[ref]? = some (.text c.toString)) ∧
      (length < p → final[ref]? = some (.text ""))
  fold : ∀ p, 1 ≤ p → p ≤ plan.capacity →
    ∃ ref, plan.cellAt (texts.length + 1) p = .ok ref ∧
      final[ref]? = some (.text (String.ofList ((texts.getLastD []).take (min p length))))

variable {plan : GridPlan} {password text : String} {final : Values}

theorem cellAt_eq_ok (hplan : plan.IsUsable) {col p : Nat} (hcol : col < plan.kinds.length)
    (hpos : 1 ≤ p) (hp : p ≤ plan.capacity) :
    plan.cellAt col p = .ok ⟨col, plan.originRow + (p - 1)⟩ := by
  have hhigh := hplan.high
  have hle := hplan.le
  have hcolumns : col < plan.columns.length := by
    rwa [columns, List.length_mapIdx]
  simp only [encryptOriginRow, maxCapacity, gap] at hhigh hle
  have hrow : plan.rowOf p = .ok (plan.originRow + (p - 1)) := by
    rw [rowOf, if_neg (by simp only [Word.count]; omega), if_neg (by omega),
      Nat.add_sub_assoc hpos]
  rw [cellAt, Overrun.lookup_of_lt hcolumns, hrow]
  simp only [columns, List.getElem_mapIdx]
  rfl

/-- **A sheet on which every cell of a plan shows its guess shows the trace.** -/
theorem displays_texts (hplan : plan.IsUsable)
    (hfinal : ∀ ref, plan.Covers ref → final[ref]? = some (plan.guess password text ref)) :
    plan.Displays final (plan.texts password text) (min text.toList.length plan.capacity) := by
  have hkinds := hplan.length_kinds
  have hstages : (plan.texts password text).length = 5 := by
    rw [texts, List.length_scanl, hplan.length_stages]
  have hcut : (text.toList.take plan.capacity).length = min text.toList.length plan.capacity := by
    rw [List.length_take, Nat.min_comm]
  refine ⟨?_, ?_, ?_, ?_⟩
  · rw [hstages, hplan.length_stages]
  · intro t ht
    obtain ⟨k, hk⟩ := List.mem_iff_getElem?.1 ht
    rw [length_of_texts hk, hcut]
  · intro k t p ht hpos hp
    have hk : k < 5 := by
      rw [← hstages]
      exact (List.getElem?_eq_some_iff.1 ht).1
    have hlength := length_of_texts ht
    have hguess := hfinal _ (covers_of_lt (k + 1) (p - 1) (by omega) (by omega))
    rw [guess_text hplan _ ht] at hguess
    refine ⟨_, cellAt_eq_ok hplan (by omega) hpos hp, ?_, ?_⟩
    · -- inside the text
      intro hshort
      have hget := List.getElem?_eq_getElem (l := t) (i := p - 1) (by omega)
      rw [hget] at hguess ⊢
      exact ⟨_, rfl, hguess⟩
    · -- the empty rows behind it
      intro hlong
      rw [List.getElem?_eq_none (by omega)] at hguess
      exact hguess
  · intro p hpos hp
    have hguess := hfinal _ (covers_of_lt 6 (p - 1) (by omega) (by omega))
    have hlast := texts_getElem?_last plan password text
    have hlength := length_of_texts hlast
    have hfold := guess_fold hplan password text (p - 1)
    rw [hplan.length_stages] at hlast hfold
    rw [hfold, Nat.sub_add_cancel hpos] at hguess
    refine ⟨_, cellAt_eq_ok hplan (by omega) hpos hp, ?_⟩
    rw [hstages, hguess, List.getLastD_eq_getLast?, List.getLast?_eq_getElem?, hstages, hlast,
      ← hcut, ← hlength, List.take_eq_take_min]
    rfl

end GridPlan

namespace Spec

variable {spec : Spec} {capacity : Nat} {rows : List KeyRow}

theorem template_grid (mode : Mode) : (spec.template capacity rows).grid mode =
    ⟨GridPlan.ofSpec spec capacity mode, (GridPlan.ofSpec spec capacity mode).grid⟩ := by
  cases mode <;> rfl

theorem finds_inputs {sheets : Sheets} {others : Values}
    (hsheet : sheets.find? KeyMap.sheetName = some others)
    (hshows : KeyMap.Shows others spec.mapping) (mode : Mode) (inputs : Inputs) :
    (GridPlan.ofSpec spec capacity mode).Finds sheets inputs.password (inputs.text mode)
      inputs.values where
  input := by
    rw [GridPlan.ofSpec_mode]
    exact Values.read_of_getElem? (inputs.getElem?_values_input mode)
  password := Values.read_of_getElem? inputs.getElem?_values_password
  keyMap := by
    rw [GridPlan.ofSpec_spec]
    exact ⟨others, hsheet, hshows⟩

theorem trace_eq_texts (hspec : spec.IsValid) (mode : Mode) (password text : String) :
    (Cipher.ofPassword spec password capacity).trace mode text =
      .ok ((GridPlan.ofSpec spec capacity mode).texts password text) := by
  rw [Cipher.trace_eq_ok hspec.isReversible]
  cases mode <;> rfl

theorem run_eq_outcome (hspec : spec.IsValid) (mode : Mode) (password text : String) :
    (Cipher.ofPassword spec password capacity).run mode text =
      .ok (String.ofList ((GridPlan.ofSpec spec capacity mode).outcome password text)) := by
  rw [Cipher.run_eq_ok hspec.isReversible]
  cases mode <;> rfl

/-- The grid of a mode works out, and every cell shows its guess. -/
theorem exists_evaluate (hspec : spec.IsValid) (hcapacity : 1 ≤ capacity ∧ capacity ≤ maxCapacity)
    (hrows : spec.mapping.keyRows = .ok rows) (mode : Mode) (inputs : Inputs) :
    ∃ final, ((spec.template capacity rows).grid mode).cells.evaluate
        (spec.template capacity rows).sheets inputs.values = ⟨final, none⟩ ∧
      ∀ ref, (GridPlan.ofSpec spec capacity mode).Covers ref →
        final[ref]? = some ((GridPlan.ofSpec spec capacity mode).guess inputs.password
          (inputs.text mode) ref) := by
  have hplan := GridPlan.isUsable_ofSpec hspec hcapacity mode
  have hsheet : (spec.template capacity rows).sheets.find? KeyMap.sheetName =
      some (KeyMap.grid rows).typedValues := rfl
  have hsolves := GridPlan.solves_grid hplan
    (finds_inputs hsheet (LetterMap.shows_typedValues hspec.mapping hrows) mode inputs)
  obtain ⟨final, hfinal, hshown, _⟩ := hsolves.evaluate
  rw [template_grid]
  exact ⟨final, hfinal, fun ref href => hshown ref ((GridPlan.mem_grid hplan).2 href)⟩

theorem run_grid_eq_ok (hspec : spec.IsValid) (hcapacity : 1 ≤ capacity ∧ capacity ≤ maxCapacity)
    (hrows : spec.mapping.keyRows = .ok rows) (mode : Mode) (inputs : Inputs) :
    ((spec.template capacity rows).grid mode).run (spec.template capacity rows).sheets inputs =
      .ok (String.ofList ((GridPlan.ofSpec spec capacity mode).outcome inputs.password
        (inputs.text mode))) := by
  obtain ⟨final, hfinal, hshown⟩ := exists_evaluate hspec hcapacity hrows mode inputs
  have hresult := hshown _ (.inl rfl)
  rw [GridPlan.guess_result] at hresult
  rw [CompiledGrid.run, hfinal, template_grid]
  simp only [hresult]
  rfl

/-- **A compiled grid is the cipher.** A valid spec compiles; whatever is typed,
both grids work out, their columns show the trace of the cipher, and their
results are its results. -/
theorem compile_agrees (hspec : spec.validate = .ok ())
    (hcapacity : 1 ≤ capacity ∧ capacity ≤ maxCapacity) :
    ∃ template, spec.compile capacity = .ok template ∧
      (∀ (mode : Mode) (inputs : Inputs), ∃ texts final,
        (Cipher.ofPassword spec inputs.password capacity).trace mode (inputs.text mode) =
            .ok texts ∧
          (template.grid mode).cells.evaluate template.sheets inputs.values = ⟨final, none⟩ ∧
          (template.grid mode).plan.Displays final texts
            (min (inputs.text mode).toList.length capacity)) ∧
      (∀ inputs : Inputs, ∃ encrypted decrypted,
        (Cipher.ofPassword spec inputs.password capacity).encrypt inputs.plaintext =
            .ok encrypted ∧
          (Cipher.ofPassword spec inputs.password capacity).decrypt inputs.ciphertext =
            .ok decrypted ∧
          template.run inputs = .ok { encrypted, decrypted }) ∧
      ∀ (mode : Mode) (password text : String), ∃ result,
        (Cipher.ofPassword spec password capacity).run mode text = .ok result ∧
          template.runMode mode password text = .ok result := by
  have hspec := validate_eq_ok_iff.1 hspec
  obtain ⟨rows, hrows, hcompile⟩ := compile_eq_ok hspec hcapacity
  have hrun := run_grid_eq_ok hspec hcapacity hrows
  refine ⟨_, hcompile, ?_, ?_, ?_⟩
  · intro mode inputs
    obtain ⟨final, hfinal, hshown⟩ := exists_evaluate hspec hcapacity hrows mode inputs
    refine ⟨_, final, trace_eq_texts hspec mode _ _, hfinal, ?_⟩
    have hdisplays :=
      GridPlan.displays_texts (GridPlan.isUsable_ofSpec hspec hcapacity mode) hshown
    rw [GridPlan.ofSpec_capacity] at hdisplays
    rw [template_grid]
    exact hdisplays
  · intro inputs
    refine ⟨_, _, run_eq_outcome hspec .encrypt _ _, run_eq_outcome hspec .decrypt _ _, ?_⟩
    have hencrypt : (spec.template capacity rows).encrypt.run
        (spec.template capacity rows).sheets inputs = .ok _ := hrun .encrypt inputs
    have hdecrypt : (spec.template capacity rows).decrypt.run
        (spec.template capacity rows).sheets inputs = .ok _ := hrun .decrypt inputs
    rw [CompiledTemplate.run, hencrypt, hdecrypt]
    rfl
  · intro mode password text
    refine ⟨_, run_eq_outcome hspec mode _ _, ?_⟩
    rw [CompiledTemplate.runMode, hrun, Inputs.password_ofMode, Inputs.text_ofMode]

/-- A capacity that cuts the text, and a password shorter than it. -/
theorem compile_agrees_affine : affine.validate = .ok () ∧ (1 ≤ 9 ∧ 9 ≤ maxCapacity) ∧
    ∃ template, affine.compile 9 = .ok template ∧
      (∃ texts final, (Cipher.ofPassword affine "key" 9).trace .encrypt "Attack at dawn" =
            .ok texts ∧
          (template.grid .encrypt).cells.evaluate template.sheets
            (Inputs.ofMode "key" "Attack at dawn" .encrypt).values = ⟨final, none⟩ ∧
          (template.grid .encrypt).plan.Displays final texts
            (min "Attack at dawn".toList.length 9)) ∧
      ∃ result, (Cipher.ofPassword affine "key" 9).run .decrypt "Attack at dawn" = .ok result ∧
        template.runMode .decrypt "key" "Attack at dawn" = .ok result := by
  have hcapacity : 1 ≤ 9 ∧ 9 ≤ maxCapacity := by decide
  obtain ⟨template, hcompile, hgrid, _, hmode⟩ := compile_agrees validate_affine hcapacity
  have hencrypt := hgrid .encrypt (Inputs.ofMode "key" "Attack at dawn" .encrypt)
  rw [Inputs.password_ofMode, Inputs.text_ofMode] at hencrypt
  have hdecrypt := hmode .decrypt "key" "Attack at dawn"
  exact ⟨validate_affine, hcapacity, template, hcompile, hencrypt, hdecrypt⟩

end Spec

end SheetCipher
