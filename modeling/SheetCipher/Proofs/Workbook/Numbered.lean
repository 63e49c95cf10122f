import SheetCipher.Proofs.Sheet.Formula.Reading
import SheetCipher.Proofs.Workbook.Assemble
import SheetCipher.Proofs.Workbook.Csv
import SheetCipher.Workbook.Listing
import SheetCipher.Workbook.OutputFile

/-!
# Numbered — a workbook of a template can be written

Formulas name rows of their own grid, rows in which something is typed and rows
of the key map, and the number of any of these is a word. So the listing of a
workbook and the text of each of its sheets can be shown (`assemble_isShown`).
-/

namespace SheetCipher

/-! ## The grids -/

namespace Formula

theorem row_ofMode_lt (mode : Mode) : (InputCell.ofMode mode).row < 0x100000000 := by
  cases mode <;> decide

/-- A formula that names no rows of other sheets, and of its own no far ones. -/
theorem isNumbered_of_near {e : Formula} (hcells : ∀ ref ∈ e.cells, ref.row < 0x100000000)
    (hblocks : e.blocks = []) : e.isNumbered = true := by
  refine isNumbered_of_lt (fun ref href => Nat.lt_trans (hcells ref href) (by decide)) ?_
  intro block hblock
  rw [hblocks] at hblock
  cases hblock

variable {row : Nat} (hrow : row < 0x100000000)

include hrow

theorem isNumbered_cell (col : Nat) (anchor : Anchor) :
    (cell ⟨col, row⟩ anchor).isNumbered = true :=
  isNumbered_of_near (by simpa [cells] using hrow) rfl

theorem isNumbered_joined {above : Nat} (habove : above < 0x100000000) (col left : Nat) :
    (joined (cell ⟨col, above⟩ .relative) (cell ⟨left, row⟩ .relative)).isNumbered = true :=
  isNumbered_of_near (by simpa [joined, cells] using ⟨habove, hrow⟩) rfl

theorem isNumbered_explode (mode : Mode) : (explode mode row).isNumbered = true := by
  refine isNumbered_of_near (fun ref href => ?_) rfl
  rcases mem_cells_explode.1 href with rfl | rfl
  · exact row_ofMode_lt mode
  · exact hrow

theorem isNumbered_rotated (direction : Direction) (shift : Int64) (col : Nat) :
    (rotated direction shift row (cell ⟨col, row⟩ .relative)).isNumbered = true := by
  refine isNumbered_of_near (fun ref href => ?_) (by cases direction <;> rfl)
  rcases mem_cells_rotated.1 href with href | rfl | rfl
  · cases List.mem_singleton.1 href
    exact hrow
  · exact hrow
  · decide

theorem isNumbered_mapped (direction : Direction) (col : Nat) :
    (mapped direction (cell ⟨col, row⟩ .relative)).isNumbered = true := by
  refine isNumbered_of_lt (fun ref href => ?_) (fun block hblock => ?_)
  · cases List.mem_singleton.1 (mem_cells_mapped.1 href)
    exact Nat.lt_trans hrow (by decide)
  · have hkeyMap : block ∈ [KeyMap.block direction, KeyMap.block direction] := hblock
    obtain rfl : block = KeyMap.block direction := by simpa using hkeyMap
    cases direction <;> decide

theorem isNumbered_turned (mode : Mode) (capacity originRow col : Nat) :
    (turned mode capacity originRow row col).isNumbered = true := by
  refine isNumbered_of_near (fun ref href => ?_) rfl
  rcases mem_cells_turned.1 href with rfl | rfl
  · exact row_ofMode_lt mode
  · exact hrow

end Formula

namespace GridPlan

variable {plan : GridPlan}

theorem isNumbered_operationFormula {row : Nat} (hrow : row < 0x100000000) (op : Operation)
    (direction : Direction) (col : Nat) :
    (plan.operationFormula op direction col row).isNumbered = true := by
  cases op with
  | substitute | xor => exact Formula.isNumbered_rotated hrow direction _ col
  | reverse => exact Formula.isNumbered_turned hrow plan.mode plan.capacity plan.originRow col
  | map => exact Formula.isNumbered_mapped hrow direction col

theorem isNumbered_cell {row : Nat} (hrow : row < 0x100000000) (column : StageColumn) :
    (plan.cell column row).isNumbered = true := by
  rw [cell]
  cases column.kind with
  | index => rfl
  | explode => exact Formula.isNumbered_explode hrow plan.mode
  | operation op direction => exact isNumbered_operationFormula hrow op direction _
  | fold =>
      dsimp only
      split
      · exact Formula.isNumbered_cell hrow _ _
      · exact Formula.isNumbered_joined hrow (Nat.lt_of_le_of_lt (Nat.sub_le _ _) hrow) _ _

theorem IsUsable.isNumbered_of_mem (h : plan.IsUsable) {ref : CellRef} {cell : Cell}
    (hmem : (ref, cell) ∈ plan.cells) : cell.isNumbered = true := by
  rcases mem_cells.1 hmem with ⟨col, kind, i, _, hi, _, rfl⟩ | ⟨_, rfl⟩
  · exact isNumbered_cell (h.row_lt hi) ⟨col, kind⟩
  · have hlast := h.row_lt (Nat.sub_lt h.pos Nat.one_pos)
    rw [← Nat.add_sub_assoc h.pos] at hlast
    exact Formula.isNumbered_cell hlast _ _

end GridPlan

/-! ## The workbook -/

namespace Workbook

variable {spec : Spec} {capacity : Nat}

theorem isNumbered_ofCells {cells : List (CellRef × Cell)}
    (h : ∀ entry ∈ cells, entry.2.isNumbered = true) : (Grid.ofCells cells).isNumbered = true :=
  Csv.isNumbered_iff.2 fun ref cell hcell => h (ref, cell) (CellRef.mem_of_getElem?_ofList hcell)

theorem isNumbered_algorithm (hspec : spec.IsValid)
    (hcapacity : 1 ≤ capacity ∧ capacity ≤ maxCapacity) (rows : List KeyRow) :
    (Grid.ofCells (algorithmCells (spec.template capacity rows))).isNumbered = true := by
  refine isNumbered_ofCells fun ⟨ref, cell⟩ hmem => ?_
  rcases mem_algorithmCells hspec hcapacity hmem with ⟨mode, hcell⟩ | ⟨_, s, rfl⟩
  · exact (GridPlan.isUsable_ofSpec hspec hcapacity mode).isNumbered_of_mem hcell
  · rfl

theorem isNumbered_keyMap (rows : List KeyRow) : (KeyMap.grid rows).isNumbered = true := by
  refine isNumbered_ofCells fun entry hmem => ?_
  obtain ⟨i, row, _, hentry⟩ := KeyMap.mem_cells.1 hmem
  simp only [KeyMap.rowCells, List.mem_cons, List.not_mem_nil, or_false] at hentry
  rcases hentry with rfl | rfl | rfl <;> rfl

theorem isNumbered_lineCells (lines : List String) :
    (Grid.ofCells (lineCells lines)).isNumbered = true := by
  refine isNumbered_ofCells fun entry hmem => ?_
  obtain ⟨_, _, hsome⟩ := List.mem_filterMap.1 hmem
  split at hsome
  · cases hsome
  · cases hsome
    rfl

/-- **Every row that a workbook of a template names** has a number. -/
theorem isNumbered_assemble (hspec : spec.IsValid)
    (hcapacity : 1 ≤ capacity ∧ capacity ≤ maxCapacity) (rows : List KeyRow) :
    ∀ sheet ∈ (assemble (spec.template capacity rows)).sheets, sheet.cells.isNumbered = true := by
  simp only [assemble, List.forall_mem_cons]
  exact ⟨isNumbered_algorithm hspec hcapacity rows, isNumbered_keyMap _, isNumbered_lineCells _,
    List.forall_mem_nil _⟩

theorem exists_text {cells : Grid} (h : cells.isNumbered = true) :
    ∃ t, Csv.text cells = .ok t := by
  cases hempty : cells.isEmpty with
  | true => exact ⟨"", by rw [Csv.text, Csv.chars, if_pos hempty]; rfl⟩
  | false =>
      obtain ⟨t, _, ht, _⟩ := Csv.read?_text hempty h
      exact ⟨t, ht⟩

/-- **A workbook of a template can be written**, as a listing and sheet by sheet. -/
theorem assemble_isShown (hspec : spec.validate = .ok ())
    (hcapacity : 1 ≤ capacity ∧ capacity ≤ maxCapacity) :
    ∃ template, spec.compile capacity = .ok template ∧
      Listing.shown (assemble template) = .ok (Listing.text (assemble template)) ∧
      ∀ dir stem, ∀ file ∈ OutputFile.ofSheets dir stem (assemble template),
        ∃ t, file.text = .ok t := by
  have hspec := Spec.validate_eq_ok_iff.1 hspec
  obtain ⟨rows, _, hcompile⟩ := Spec.compile_eq_ok hspec hcapacity
  have hnumbered := isNumbered_assemble hspec hcapacity rows
  refine ⟨_, hcompile, ?_, fun dir stem file hfile => ?_⟩
  · have hbook : (assemble (spec.template capacity rows)).numbered = .ok _ :=
      if_pos (List.all_eq_true.2 hnumbered)
    rw [Listing.shown, hbook]
    rfl
  · obtain ⟨sheet, hsheet, rfl⟩ := List.mem_map.1 hfile
    exact exists_text (hnumbered sheet hsheet)

end Workbook

end SheetCipher
