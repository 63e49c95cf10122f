import SheetCipher.Proofs.Workbook.Assemble
import SheetCipher.Proofs.Workbook.Lines

/-!
# Listing — the workbook of a template, line by line

Nothing in the workbook of a template has more than one line but the id, which
stands in the first line of the listing and in the instructions as it is. So an
id without line feeds leaves one line for each cell (`text_line_per_cell`), and
one with a line feed may forge a line (`text_forged_line`).
-/

namespace SheetCipher

/-! ## The grids -/

namespace Formula

theorem add_eq (a b : Formula) : a + b = .binary .add a b := rfl

theorem sub_eq (a b : Formula) : a - b = .binary .sub a b := rfl

theorem isOneLine_explode (mode : Mode) (row : Nat) : (explode mode row).IsOneLine := by
  simp [IsOneLine, explode, input, position, number, texts, textsOfAll, blocks, blocksOfAll]

theorem isOneLine_rotated (direction : Direction) (shift : Int64) (row : Nat) (ref : CellRef) :
    (rotated direction shift row (cell ref .relative)).IsOneLine := by
  have hfiller : '\n' ≠ PasswordKey.filler := by decide
  cases direction <;>
    simp [IsOneLine, rotated, byCase, isOfCase, moved, keyCode, key, codeOf, lengthOf, joined,
      number, position, texts, textsOfAll, blocks, blocksOfAll, add_eq, sub_eq, hfiller]

theorem isOneLine_mapped (direction : Direction) (ref : CellRef) :
    (mapped direction (cell ref .relative)).IsOneLine := by
  have hsheet : '\n' ∉ KeyMap.sheetName.toList := by decide
  simp [IsOneLine, mapped, byCase, isOfCase, codeOf, number, KeyMap.block, texts, textsOfAll,
    blocks, blocksOfAll, sub_eq, hsheet]

theorem isOneLine_turned (mode : Mode) (capacity originRow row col : Nat) :
    (turned mode capacity originRow row col).IsOneLine := by
  simp [IsOneLine, turned, filled, lengthOf, number, position, input, texts, textsOfAll, blocks,
    blocksOfAll, add_eq, sub_eq]

end Formula

theorem lineFeed_not_mem_toString (n : Nat) : '\n' ∉ (toString n).toList := by
  intro h
  rw [Nat.toString_eq_repr, Nat.toList_repr] at h
  have hdigit := Nat.isDigit_of_mem_toDigits (by decide) (by decide) h
  cases hdigit

theorem StageKind.lineFeed_not_mem_header (step : Nat) (kind : StageKind) :
    '\n' ∉ (kind.header step).toList := by
  cases kind with
  | index | explode | fold => simp [header]
  | operation op direction =>
      have hname : '\n' ∉ op.name.toList := by cases op <;> decide
      have hstep := lineFeed_not_mem_toString step
      cases direction <;>
        simp only [header, String.toList_append, List.mem_append, hname, hstep, or_false] <;> decide

namespace GridPlan

variable {plan : GridPlan}

theorem isOneLine_operationFormula (op : Operation) (direction : Direction) (col row : Nat) :
    (plan.operationFormula op direction col row).IsOneLine := by
  cases op with
  | substitute | xor => exact Formula.isOneLine_rotated direction _ row _
  | reverse => exact Formula.isOneLine_turned plan.mode plan.capacity plan.originRow row col
  | map => exact Formula.isOneLine_mapped direction _

theorem isOneLine_cell (column : StageColumn) (row : Nat) : (plan.cell column row).IsOneLine := by
  rw [cell]
  cases column.kind with
  | index => trivial
  | explode => exact Formula.isOneLine_explode plan.mode row
  | operation op direction => exact isOneLine_operationFormula op direction _ row
  | fold =>
      dsimp only
      split <;> simp [formulaCell, Cell.IsOneLine, Formula.IsOneLine, Formula.joined,
        Formula.texts, Formula.blocks]

theorem isOneLine_of_mem_cells {ref : CellRef} {cell : Cell} (h : (ref, cell) ∈ plan.cells) :
    cell.IsOneLine := by
  rcases mem_cells.1 h with ⟨col, kind, i, _, _, _, rfl⟩ | ⟨_, rfl⟩
  · exact isOneLine_cell ⟨col, kind⟩ (plan.originRow + i)
  · simp [formulaCell, Cell.IsOneLine, Formula.IsOneLine, Formula.texts, Formula.blocks]

end GridPlan

namespace Workbook

variable {spec : Spec} {capacity : Nat} {rows : List KeyRow}

theorem isOneLine_headerCells (plan : GridPlan) (row : Nat) :
    ∀ entry ∈ headerCells plan row, entry.2.IsOneLine := by
  intro entry h
  obtain ⟨header, hheader, rfl⟩ := List.mem_map.1 h
  obtain ⟨column, _, rfl⟩ := List.mem_map.1 hheader
  exact StageKind.lineFeed_not_mem_header _ column.kind

theorem isOneLine_gridCells {grid : CompiledGrid} (hgrid : grid.cells = grid.plan.grid)
    {text : String} (htext : '\n' ∉ text.toList) :
    ∀ entry ∈ gridCells grid text, entry.2.IsOneLine := by
  refine List.forall_mem_cons.2 ⟨htext, ?_⟩
  rintro ⟨ref, cell⟩ h
  rw [hgrid, Std.TreeMap.mem_toList_iff_getElem?_eq_some] at h
  exact GridPlan.isOneLine_of_mem_cells (CellRef.mem_of_getElem?_ofList h)

theorem isOneLine_algorithmCells :
    ∀ entry ∈ algorithmCells (spec.template capacity rows), entry.2.IsOneLine := by
  have hlabels : ∀ entry ∈ inputLabels, entry.2.IsOneLine := by
    simp [inputLabels, label, Cell.IsOneLine]
  simp only [algorithmCells, List.forall_mem_append]
  exact ⟨⟨⟨⟨isOneLine_headerCells _ _, isOneLine_headerCells _ _⟩, hlabels⟩,
    isOneLine_gridCells rfl (by decide)⟩, isOneLine_gridCells rfl (by decide)⟩

/-- A character with a case is no line feed. -/
theorem isOneLine_letter {c : Char} {k : LetterCase} (h : LetterCase.ofChar? c = some k) :
    (Cell.text c.toString).IsOneLine := by
  simp only [Cell.IsOneLine, Char.toString, String.toList_singleton, List.mem_singleton]
  rintro rfl
  cases h

theorem isOneLine_keyMap {m : LetterMap} (hm : m.isBijection = true)
    (hrows : m.keyRows = .ok rows) :
    ∀ entry ∈ (rows.mapIdx KeyMap.rowCells).flatten, entry.2.IsOneLine := by
  intro entry h
  obtain ⟨i, row, hrow, hentry⟩ := KeyMap.mem_cells.1 h
  rw [LetterMap.keyRows_eq_ok hm] at hrows
  cases hrows
  obtain ⟨c, hc, rfl⟩ := List.mem_map.1 (List.mem_of_getElem? hrow)
  obtain ⟨k, hk⟩ : ∃ k, LetterCase.ofChar? c = some k := by
    rcases List.mem_append.1 hc with hc | hc
    · exact ⟨_, LetterCase.mem_alphabet.1 hc⟩
    · exact ⟨_, LetterCase.mem_alphabet.1 hc⟩
  have himage : LetterCase.ofChar? (m.imageOf c) = some k :=
    (LetterMap.ofChar?_imageOf hm c).trans hk
  have hpreimage : LetterCase.ofChar? (m.preimageOf c) = some k := by
    rw [← LetterMap.ofChar?_imageOf hm, LetterMap.imageOf_preimageOf hm, hk]
  simp only [KeyMap.rowCells, List.mem_cons, List.not_mem_nil, or_false] at hentry
  rcases hentry with rfl | rfl | rfl
  · exact isOneLine_letter hk
  · exact isOneLine_letter himage
  · exact isOneLine_letter hpreimage

theorem isOneLine_lineCells {lines : List String} (h : ∀ line ∈ lines, '\n' ∉ line.toList) :
    ∀ entry ∈ lineCells lines, entry.2.IsOneLine := by
  intro entry hentry
  obtain ⟨⟨ref, line⟩, hline, hsome⟩ := List.mem_filterMap.1 hentry
  obtain ⟨row, hrow, heq⟩ := List.mem_mapIdx.1 hline
  cases heq
  split at hsome
  · cases hsome
  · cases hsome
    exact h _ (List.getElem_mem hrow)

theorem lineFeed_not_mem_instructionLines (template : CompiledTemplate)
    (hid : '\n' ∉ template.spec.templateId.toList) :
    ∀ line ∈ instructionLines template, '\n' ∉ line.toList := by
  have href : ∀ ref : CellRef, '\n' ∉ ref.text.toList := by
    intro ref
    rw [CellRef.text, String.toList_ofList]
    exact ref.lineFeed_not_mem_chars .relative
  have hcapacity := lineFeed_not_mem_toString template.capacity
  have hname : '\n' ∉ algorithmName.toList := by decide
  simp only [instructionLines, List.forall_mem_cons, String.toList_append, List.mem_append, not_or,
    hid, href, hcapacity, hname, not_false_eq_true, and_true]
  simp

theorem isOneLine_assemble (hspec : spec.IsValid) (hrows : spec.mapping.keyRows = .ok rows)
    (hid : '\n' ∉ spec.templateId.toList) :
    ∀ sheet ∈ (assemble (spec.template capacity rows)).sheets, '\n' ∉ sheet.name.toList ∧
      ∀ (ref : CellRef) (cell : Cell), sheet.cells[ref]? = some cell → cell.IsOneLine := by
  have hcells : ∀ cells : List (CellRef × Cell), (∀ entry ∈ cells, entry.2.IsOneLine) →
      ∀ (ref : CellRef) (cell : Cell), (Grid.ofCells cells)[ref]? = some cell → cell.IsOneLine :=
    fun cells h ref cell hcell => h (ref, cell) (CellRef.mem_of_getElem?_ofList hcell)
  simp only [assemble, List.forall_mem_cons]
  refine ⟨⟨by decide, ?_⟩, ⟨by decide, ?_⟩, ⟨by decide, ?_⟩, List.forall_mem_nil _⟩
  · exact hcells _ isOneLine_algorithmCells
  · exact hcells _ (isOneLine_keyMap hspec.mapping hrows)
  · exact hcells _ (isOneLine_lineCells (lineFeed_not_mem_instructionLines _ hid))

end Workbook

namespace Listing

/-- **One line per cell**, as long as the id has no line feed. -/
theorem text_line_per_cell {spec : Spec} (hspec : spec.validate = .ok ()) {capacity : Nat}
    (hcapacity : 1 ≤ capacity ∧ capacity ≤ maxCapacity)
    (hid : '\n' ∉ spec.templateId.toList) :
    ∃ template, spec.compile capacity = .ok template ∧
      (Workbook.assemble template).templateId = spec.templateId ∧
      (Workbook.assemble template).sheets.map Sheet.name =
        ["Algorithm", "KeyMap", "Instructions"] ∧
      IsLineByLine (Workbook.assemble template) := by
  have hspec := Spec.validate_eq_ok_iff.1 hspec
  obtain ⟨rows, hrows, hcompile⟩ := Spec.compile_eq_ok hspec hcapacity
  exact ⟨_, hcompile, rfl, rfl, isLineByLine hid (Workbook.isOneLine_assemble hspec hrows hid)⟩

theorem text_line_per_cell_affine : Spec.affine.validate = .ok () ∧
    '\n' ∉ Spec.affine.templateId.toList ∧
    ∃ template, Spec.affine.compile 250 = .ok template ∧
      (Workbook.assemble template).templateId = Spec.affine.templateId ∧
      (Workbook.assemble template).sheets.map Sheet.name =
        ["Algorithm", "KeyMap", "Instructions"] ∧
      IsLineByLine (Workbook.assemble template) :=
  ⟨Spec.validate_affine, by decide, text_line_per_cell Spec.validate_affine (by decide) (by decide)⟩

/-- A spec whose id goes on with what looks like the line of a cell. -/
def forging : Spec := { Spec.affine with templateId := "T\nA1: 5" }

/-- The id is listed as two lines, and the second one gives a cell that there
is not. -/
theorem text_forged_line : forging.validate = .ok () ∧
    ∃ template, forging.compile 1 = .ok template ∧
      (∃ rest, (text (Workbook.assemble template)).toList.splitOn '\n' =
        "# Cyphergrid Template T".toList :: "A1: 5".toList :: rest) ∧
      readLine? "A1: 5".toList = some (⟨0, 0⟩, .number 5) ∧
      ¬ IsLineByLine (Workbook.assemble template) := by
  have hvalid : forging.IsValid :=
    ⟨by decide, rfl, rfl, rfl, by decide, by decide, LetterMap.isBijection_affine⟩
  have hcapacity : 1 ≤ 1 ∧ 1 ≤ maxCapacity := by decide
  obtain ⟨rows, _, hcompile⟩ := Spec.compile_eq_ok hvalid hcapacity
  let book := Workbook.assemble (forging.template 1 rows)
  have htext : ∃ rest, (text book).toList =
      "# Cyphergrid Template T".toList ++ '\n' :: ("A1: 5".toList ++ '\n' :: rest) := by
    have hheader : "# Cyphergrid Template ".toList ++ book.templateId.toList =
        "# Cyphergrid Template T".toList ++ '\n' :: "A1: 5".toList :=
      show _ ++ "T\nA1: 5".toList = _ by decide
    refine ⟨(book.sheets.flatMap sheetLines).flatMap fun line => line ++ ['\n'], ?_⟩
    rw [text, String.toList_ofList, lines, List.flatMap_cons, hheader]
    simp
  obtain ⟨rest, hrest⟩ := htext
  have hsplit : (text book).toList.splitOn '\n' =
      "# Cyphergrid Template T".toList :: "A1: 5".toList :: rest.splitOn '\n' := by
    rw [hrest, splitOn_line (by decide), splitOn_line (by decide)]
  refine ⟨Spec.validate_eq_ok_iff.2 hvalid, _, hcompile, ⟨_, hsplit⟩, by decide, ?_⟩
  rintro ⟨sections, _, heq⟩
  have hne : "# Cyphergrid Template T".toList ≠
      "# Cyphergrid Template ".toList ++ "T\nA1: 5".toList := by decide
  exact hne (List.cons.inj (hsplit.symm.trans heq)).1

end Listing

end SheetCipher
