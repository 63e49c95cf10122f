import SheetCipher.Proofs.Layout.Run
import SheetCipher.Workbook.Assemble

/-!
# Assemble — both grids on one sheet

On the sheet that users get, both plans stand among column heads and labels.
No address belongs to both plans, no text stands on either of them, and the
cells in which a user types are free. So neither plan feeds the other, and the
sheet works out to both results at once.
-/

namespace SheetCipher

/-- Addresses of column heads and labels. -/
def CellRef.IsBeside (capacity : Nat) (ref : CellRef) : Prop :=
  ref.row = 0 ∨ ref.row = GridPlan.encryptOriginRow + capacity + GridPlan.gap - 1 ∨
    (ref.col = 0 ∧ ref.row ≤ 3) ∨ (ref.col = 3 ∧ (ref.row = 1 ∨ ref.row = 4))

namespace GridPlan

variable {spec : Spec} {capacity : Nat}

/-! ## Who stands where -/

/-- Where the plan of a mode stands. -/
theorem covers_ofSpec (hspec : spec.IsValid) (mode : Mode) {ref : CellRef} :
    (ofSpec spec capacity mode).Covers ref ↔
      match mode with
      | .encrypt => ref = ⟨4, 1⟩ ∨ ref.col < 7 ∧ 9 ≤ ref.row ∧ ref.row < 9 + capacity
      | .decrypt => ref = ⟨4, 4⟩ ∨
          ref.col < 7 ∧ 9 + capacity + 50 ≤ ref.row ∧ ref.row < 9 + capacity + 50 + capacity := by
  have hcount : spec.operations.length = 4 := hspec.count
  have hkinds : (ofSpec spec capacity mode).kinds.length = 7 := by
    rw [length_kinds]
    cases mode <;> simp [ofSpec, Spec.stages, hcount]
  rw [Covers, hkinds]
  cases mode with
  | encrypt => simp [ofSpec, rows, RowRange.Holds, encryptOriginRow, hcount]
  | decrypt => simp [ofSpec, rows, RowRange.Holds, encryptOriginRow, gap, hcount]

theorem not_covers_decrypt (hspec : spec.IsValid) {ref : CellRef}
    (h : (ofSpec spec capacity .encrypt).Covers ref) :
    ¬ (ofSpec spec capacity .decrypt).Covers ref := by
  rw [covers_ofSpec hspec] at h ⊢
  rintro (rfl | hdecrypt)
  · rcases h with h | h
    · cases h
    · simp only at h
      omega
  · rcases h with rfl | h
    · simp only at hdecrypt
      omega
    · omega

/-- **No address belongs to both plans.** -/
theorem covers_exclusive (hspec : spec.IsValid) {mode mode' : Mode} {ref : CellRef}
    (h : (ofSpec spec capacity mode).Covers ref) (h' : (ofSpec spec capacity mode').Covers ref) :
    mode' = mode := by
  cases mode with
  | encrypt =>
      cases mode' with
      | encrypt => rfl
      | decrypt => exact absurd h' (not_covers_decrypt hspec h)
  | decrypt =>
      cases mode' with
      | encrypt => exact absurd h (not_covers_decrypt hspec h')
      | decrypt => rfl

theorem not_covers_of_isBeside (hspec : spec.IsValid) (mode : Mode) {ref : CellRef}
    (h : ref.IsBeside capacity) : ¬ (ofSpec spec capacity mode).Covers ref := by
  rw [covers_ofSpec hspec, CellRef.IsBeside] at *
  simp only [encryptOriginRow, gap] at h
  cases mode with
  | encrypt =>
      rintro (rfl | hrows)
      · simp only at h
        omega
      · omega
  | decrypt =>
      rintro (rfl | hrows)
      · simp only at h
        omega
      · omega

end GridPlan

/-! ## The sheet with both grids -/

namespace Workbook

open GridPlan

variable {spec : Spec} {capacity : Nat} {rows : List KeyRow}

theorem mem_headerCells {plan : GridPlan} {row : Nat} {ref : CellRef} {cell : Cell}
    (h : (ref, cell) ∈ headerCells plan row) : ref.row = row ∧ ∃ s, cell = .text s := by
  obtain ⟨header, _, heq⟩ := List.mem_map.1 h
  cases heq
  exact ⟨rfl, _, rfl⟩

/-- A cell of the sheet is one of a plan, or a text beside the plans. -/
theorem mem_algorithmCells (hspec : spec.IsValid)
    (hcapacity : 1 ≤ capacity ∧ capacity ≤ maxCapacity) {ref : CellRef} {cell : Cell}
    (h : (ref, cell) ∈ algorithmCells (spec.template capacity rows)) :
    (∃ mode, (ref, cell) ∈ (ofSpec spec capacity mode).cells) ∨
      (ref.IsBeside capacity ∧ ∃ s, cell = .text s) := by
  have hresult : (ofSpec spec capacity .encrypt).result = ⟨4, 1⟩ ∧
      (ofSpec spec capacity .decrypt).result = ⟨4, 4⟩ := by
    have hcount : spec.operations.length = 4 := hspec.count
    simp only [ofSpec, hcount, and_self]
  have hgrid : ∀ mode, (ref, cell) ∈ (ofSpec spec capacity mode).grid.toList →
      ∃ mode, (ref, cell) ∈ (ofSpec spec capacity mode).cells := by
    intro mode hmem
    rw [Std.TreeMap.mem_toList_iff_getElem?_eq_some,
      getElem?_grid (isUsable_ofSpec hspec hcapacity mode)] at hmem
    exact ⟨mode, hmem⟩
  simp only [algorithmCells, gridCells, List.mem_append, List.mem_cons] at h
  -- two lines of heads, the labels of the inputs, and each grid behind its own label
  rcases h with (((h | h) | h) | h | h) | h | h
  · obtain ⟨hrow, htext⟩ := mem_headerCells h
    exact .inr ⟨.inl hrow, htext⟩
  · obtain ⟨hrow, htext⟩ := mem_headerCells h
    exact .inr ⟨.inr (.inl hrow), htext⟩
  · simp only [inputLabels, label, List.mem_cons, List.not_mem_nil, or_false] at h
    rcases h with h | h | h <;> cases h <;> exact .inr ⟨.inr (.inr (.inl (by decide))), _, rfl⟩
  · rw [Spec.template, hresult.1] at h
    cases h
    exact .inr ⟨.inr (.inr (.inr (by decide))), _, rfl⟩
  · exact .inl (hgrid .encrypt h)
  · rw [Spec.template, hresult.2] at h
    cases h
    exact .inr ⟨.inr (.inr (.inr (by decide))), _, rfl⟩
  · exact .inl (hgrid .decrypt h)

theorem mem_algorithmCells_of_plan (hspec : spec.IsValid)
    (hcapacity : 1 ≤ capacity ∧ capacity ≤ maxCapacity) {mode : Mode} {ref : CellRef} {cell : Cell}
    (h : (ref, cell) ∈ (ofSpec spec capacity mode).cells) :
    (ref, cell) ∈ algorithmCells (spec.template capacity rows) := by
  have hgrid : (ref, cell) ∈ (ofSpec spec capacity mode).grid.toList := by
    rwa [Std.TreeMap.mem_toList_iff_getElem?_eq_some,
      getElem?_grid (isUsable_ofSpec hspec hcapacity mode)]
  simp only [algorithmCells, gridCells, List.mem_append, List.mem_cons]
  cases mode with
  | encrypt => exact .inl (.inr (.inr hgrid))
  | decrypt => exact .inr (.inr hgrid)

/-- The sheet with both grids. -/
def algorithm (spec : Spec) (capacity : Nat) (rows : List KeyRow) : Grid :=
  Grid.ofCells (algorithmCells (spec.template capacity rows))

/-- A cell of a plan stands on the sheet: nothing is put in its place. -/
theorem getElem?_algorithm (hspec : spec.IsValid)
    (hcapacity : 1 ≤ capacity ∧ capacity ≤ maxCapacity) {mode : Mode} {ref : CellRef} {cell : Cell}
    (h : (ref, cell) ∈ (ofSpec spec capacity mode).cells) :
    (algorithm spec capacity rows)[ref]? = some cell := by
  refine CellRef.getElem?_ofList_of_unique (mem_algorithmCells_of_plan hspec hcapacity h) ?_
  intro cell' h'
  have hcovers := covers_iff.2 ⟨cell, h⟩
  -- a later cell at this address would be one of the other plan or a text beside both
  rcases mem_algorithmCells hspec hcapacity h' with ⟨mode', h'⟩ | ⟨hbeside, _⟩
  · obtain rfl := covers_exclusive hspec hcovers (covers_iff.2 ⟨cell', h'⟩)
    exact (isUsable_ofSpec hspec hcapacity mode').cells_unique h h'
  · exact absurd hcovers (not_covers_of_isBeside hspec mode hbeside)

theorem mem_algorithm_of_covers (hspec : spec.IsValid)
    (hcapacity : 1 ≤ capacity ∧ capacity ≤ maxCapacity) {mode : Mode} {ref : CellRef}
    (h : (ofSpec spec capacity mode).Covers ref) : ref ∈ algorithm spec capacity rows := by
  obtain ⟨cell, hcell⟩ := covers_iff.1 h
  exact Grid.mem_iff_exists.2 ⟨cell, getElem?_algorithm hspec hcapacity hcell⟩

/-- Where a user types, no cell stands. -/
theorem not_mem_algorithm (hspec : spec.IsValid)
    (hcapacity : 1 ≤ capacity ∧ capacity ≤ maxCapacity) {ref : CellRef} (hcol : ref.col = 1)
    (hrow : 1 ≤ ref.row ∧ ref.row ≤ 3) : ref ∉ algorithm spec capacity rows := by
  intro hmem
  obtain ⟨cell, hcell⟩ := Grid.mem_iff_exists.1 hmem
  rcases mem_algorithmCells hspec hcapacity (CellRef.mem_of_getElem?_ofList hcell) with
    ⟨mode, h⟩ | ⟨hbeside, _⟩
  · refine (isUsable_ofSpec hspec hcapacity mode).not_covers_of_typed hcol ?_
      (covers_iff.2 ⟨cell, h⟩)
    simp only [encryptOriginRow]
    omega
  · simp only [CellRef.IsBeside, encryptOriginRow, gap] at hbeside
    omega

/-! ## Both grids at work -/

/-- What each cell of the sheet is expected to show: each plan its own texts,
and everything beside them what is typed there. -/
def sheetGuess (spec : Spec) (capacity : Nat) (rows : List KeyRow) (inputs : Inputs)
    (ref : CellRef) : Value :=
  if (ofSpec spec capacity .encrypt).Covers ref then
    (ofSpec spec capacity .encrypt).guess inputs.password inputs.plaintext ref
  else if (ofSpec spec capacity .decrypt).Covers ref then
    (ofSpec spec capacity .decrypt).guess inputs.password inputs.ciphertext ref
  else (algorithm spec capacity rows).typedValues.read ref

theorem sheetGuess_of_covers (hspec : spec.IsValid) {mode : Mode} {inputs : Inputs} {ref : CellRef}
    (h : (ofSpec spec capacity mode).Covers ref) : sheetGuess spec capacity rows inputs ref =
      (ofSpec spec capacity mode).guess inputs.password (inputs.text mode) ref := by
  cases mode with
  | encrypt =>
      rw [sheetGuess, if_pos h]
      rfl
  | decrypt =>
      have hencrypt : ¬ (ofSpec spec capacity .encrypt).Covers ref := fun hencrypt =>
        not_covers_decrypt hspec hencrypt h
      rw [sheetGuess, if_neg hencrypt, if_pos h]
      rfl

theorem sheetGuess_of_isBeside (hspec : spec.IsValid) {inputs : Inputs} {ref : CellRef}
    (h : ref.IsBeside capacity) : sheetGuess spec capacity rows inputs ref =
      (algorithm spec capacity rows).typedValues.read ref := by
  rw [sheetGuess, if_neg (not_covers_of_isBeside hspec .encrypt h),
    if_neg (not_covers_of_isBeside hspec .decrypt h)]

/-- What a cell of the sheet reads on the sheet is of a lower rank. -/
theorem not_isCyclic_algorithm (hspec : spec.IsValid)
    (hcapacity : 1 ≤ capacity ∧ capacity ≤ maxCapacity) :
    ¬ (algorithm spec capacity rows).dependencies.IsCyclic := by
  refine DependencyGraph.not_isCyclic_of_measure rank ?_
  intro ref other hdepends
  obtain ⟨hother, cell, hcell, hreads⟩ := Grid.dependsOn_iff.1 hdepends
  rcases mem_algorithmCells hspec hcapacity (CellRef.mem_of_getElem?_ofList hcell) with
    ⟨mode, h⟩ | ⟨_, s, rfl⟩
  · rcases reads_lower (isUsable_ofSpec hspec hcapacity mode) h hreads with rfl | rfl | hlower
    · rw [ofSpec_mode] at hother
      refine absurd hother (not_mem_algorithm hspec hcapacity ?_ ?_) <;> cases mode <;> decide
    · exact absurd hother (not_mem_algorithm hspec hcapacity rfl (by decide))
    · exact hlower
  · obtain ⟨_, hdependency, _⟩ := hreads
    cases hdependency

/-- **The sheet works out to the guess**: in either plan a cell finds the same
values as on a sheet of its own. -/
theorem solves_algorithm (hspec : spec.IsValid)
    (hcapacity : 1 ≤ capacity ∧ capacity ≤ maxCapacity) {sheets : Sheets} {others : Values}
    (hsheet : sheets.find? KeyMap.sheetName = some others)
    (hshows : KeyMap.Shows others spec.mapping) (inputs : Inputs) :
    (algorithm spec capacity rows).Solves sheets inputs.values
      (sheetGuess spec capacity rows inputs) where
  acyclic := not_isCyclic_algorithm hspec hcapacity
  confirms := by
    intro ref cell hcell now hreads houtside
    rcases mem_algorithmCells hspec hcapacity (CellRef.mem_of_getElem?_ofList hcell) with
      ⟨mode, h⟩ | ⟨hbeside, s, rfl⟩
    · have hfinds : (ofSpec spec capacity mode).Finds sheets inputs.password (inputs.text mode)
          now := by
        refine (Spec.finds_inputs hsheet hshows mode inputs).of_outside (houtside _ ?_)
          (houtside _ (not_mem_algorithm hspec hcapacity rfl (by decide)))
        rw [ofSpec_mode]
        refine not_mem_algorithm hspec hcapacity ?_ ?_ <;> cases mode <;> decide
      rw [sheetGuess_of_covers hspec (covers_iff.2 ⟨cell, h⟩)]
      -- what the cell reads outside its own plan are the inputs, which no cell covers
      refine cell_value (isUsable_ofSpec hspec hcapacity mode) hfinds h ?_
      intro other hcovers hother
      rw [hreads other (mem_algorithm_of_covers hspec hcapacity hcovers) hother,
        sheetGuess_of_covers hspec hcovers]
    · rw [sheetGuess_of_isBeside hspec hbeside, Values.read, Grid.typedValues,
        Std.TreeMap.getElem?_map, hcell]
      rfl

/-- The sheet of a letter map holds nothing but texts. -/
theorem exists_evaluate_keyMap (hspec : spec.IsValid) (hrows : spec.mapping.keyRows = .ok rows) :
    ∃ others, (KeyMap.grid rows).evaluate [] ∅ = ⟨others, none⟩ ∧
      KeyMap.Shows others spec.mapping := by
  have htexts : ∀ (ref : CellRef) (cell : Cell), (KeyMap.grid rows)[ref]? = some cell →
      ∃ s, cell = .text s := by
    intro ref cell hcell
    obtain ⟨i, row, _, hentry⟩ := KeyMap.mem_cells.1 (CellRef.mem_of_getElem?_ofList hcell)
    simp only [KeyMap.rowCells, List.mem_cons, List.not_mem_nil, or_false] at hentry
    rcases hentry with h | h | h <;> cases h <;> exact ⟨_, rfl⟩
  obtain ⟨others, hothers, hread⟩ := Grid.evaluate_texts htexts []
  exact ⟨others, hothers, (LetterMap.shows_typedValues hspec.mapping hrows).of_read hread⟩

/-- **The workbook works as a whole.** A valid spec compiles; the sheet of its
letter map works out, and with its values so does the sheet with both grids,
whatever is typed: what was typed stays, and the two result cells hold both
results of the cipher at the same time. -/
theorem assemble_agrees (hspec : spec.validate = .ok ())
    (hcapacity : 1 ≤ capacity ∧ capacity ≤ maxCapacity) :
    ∃ template algorithm keyMap others, spec.compile capacity = .ok template ∧
      (assemble template).sheet? algorithmName = some algorithm ∧
      (assemble template).sheet? KeyMap.sheetName = some keyMap ∧
      keyMap.cells.evaluate [] ∅ = ⟨others, none⟩ ∧
      ∀ inputs : Inputs, ∃ encrypted decrypted final,
        (Cipher.ofPassword spec inputs.password capacity).encrypt inputs.plaintext =
            .ok encrypted ∧
          (Cipher.ofPassword spec inputs.password capacity).decrypt inputs.ciphertext =
            .ok decrypted ∧
          algorithm.cells.evaluate [(keyMap.name, others)] inputs.values = ⟨final, none⟩ ∧
          final[InputCell.plaintext]? = some (.text inputs.plaintext) ∧
          final[InputCell.password]? = some (.text inputs.password) ∧
          final[InputCell.ciphertext]? = some (.text inputs.ciphertext) ∧
          final[template.encrypt.plan.result]? = some (.text encrypted) ∧
          final[template.decrypt.plan.result]? = some (.text decrypted) := by
  have hspec := Spec.validate_eq_ok_iff.1 hspec
  obtain ⟨rows, hrows, hcompile⟩ := Spec.compile_eq_ok hspec hcapacity
  obtain ⟨others, hothers, hshows⟩ := exists_evaluate_keyMap hspec hrows
  refine ⟨_, ⟨algorithmName, algorithm spec capacity rows⟩,
    ⟨KeyMap.sheetName, KeyMap.grid rows⟩, others, hcompile, rfl, rfl, hothers, ?_⟩
  intro inputs
  have hsolves : (algorithm spec capacity rows).Solves [(KeyMap.sheetName, others)] inputs.values
      (sheetGuess spec capacity rows inputs) :=
    solves_algorithm hspec hcapacity rfl hshows inputs
  obtain ⟨final, hfinal, hshown, houtside⟩ := hsolves.evaluate
  have htyped : ∀ mode, final[InputCell.ofMode mode]? = some (.text (inputs.text mode)) := by
    intro mode
    rw [houtside _ (not_mem_algorithm hspec hcapacity (by cases mode <;> rfl)
      (by cases mode <;> decide)), inputs.getElem?_values_input]
  have hpassword : final[InputCell.password]? = some (.text inputs.password) := by
    rw [houtside _ (not_mem_algorithm hspec hcapacity rfl (by decide)),
      inputs.getElem?_values_password]
  have hresult : ∀ mode, final[(ofSpec spec capacity mode).result]? = some (.text (String.ofList
      ((ofSpec spec capacity mode).outcome inputs.password (inputs.text mode)))) := by
    intro mode
    have hcovers : (ofSpec spec capacity mode).Covers (ofSpec spec capacity mode).result := .inl rfl
    rw [hshown _ (mem_algorithm_of_covers hspec hcapacity hcovers),
      sheetGuess_of_covers hspec hcovers, guess_result]
  exact ⟨_, _, final, Spec.run_eq_outcome hspec .encrypt _ _,
    Spec.run_eq_outcome hspec .decrypt _ _, hfinal, htyped .encrypt, hpassword, htyped .decrypt,
    hresult .encrypt, hresult .decrypt⟩

/-- Two texts at once, one longer than the capacity and one shorter. -/
theorem assemble_agrees_affine : Spec.affine.validate = .ok () ∧ (1 ≤ 9 ∧ 9 ≤ maxCapacity) ∧
    ∃ template algorithm keyMap others, Spec.affine.compile 9 = .ok template ∧
      (assemble template).sheet? algorithmName = some algorithm ∧
      (assemble template).sheet? KeyMap.sheetName = some keyMap ∧
      keyMap.cells.evaluate [] ∅ = ⟨others, none⟩ ∧
      ∃ encrypted decrypted final,
        (Cipher.ofPassword .affine "key" 9).encrypt "Attack at dawn" = .ok encrypted ∧
          (Cipher.ofPassword .affine "key" 9).decrypt "Retreat" = .ok decrypted ∧
          algorithm.cells.evaluate [(keyMap.name, others)]
            (Inputs.mk "key" "Attack at dawn" "Retreat").values = ⟨final, none⟩ ∧
          final[template.encrypt.plan.result]? = some (.text encrypted) ∧
          final[template.decrypt.plan.result]? = some (.text decrypted) := by
  have hcapacity : 1 ≤ 9 ∧ 9 ≤ maxCapacity := by decide
  obtain ⟨template, algorithm, keyMap, others, hcompile, hsheet, hkeyMap, hothers, hworks⟩ :=
    assemble_agrees Spec.validate_affine hcapacity
  obtain ⟨encrypted, decrypted, final, hencrypt, hdecrypt, hfinal, _, _, _, hencrypted,
    hdecrypted⟩ := hworks ⟨"key", "Attack at dawn", "Retreat"⟩
  exact ⟨Spec.validate_affine, hcapacity, template, algorithm, keyMap, others, hcompile, hsheet,
    hkeyMap, hothers, encrypted, decrypted, final, hencrypt, hdecrypt, hfinal, hencrypted,
    hdecrypted⟩

end Workbook

end SheetCipher
