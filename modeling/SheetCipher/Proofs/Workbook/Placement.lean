import SheetCipher.Proofs.Layout.Compile
import SheetCipher.Proofs.Workbook.Assemble

/-!
# Placement — nothing is put in the place of anything

The sheet with the grids is filled in one go, and a later cell would replace an
earlier one at its address. None does: two rows of heads, five labels and the
two grids have `14 n + 21` addresses for a capacity of `n`, so all of them are
on the sheet, and the cells in which a user types stay free
(`assemble_holdsAll`).
-/

namespace SheetCipher

/-- The heads of the columns of a mode, from the left. -/
def Spec.columnHeads (spec : Spec) : Mode → List String
  | .encrypt => ["Index", "Input Char"] ++
      (spec.operations.mapIdx fun k op => "Step " ++ toString (k + 1) ++ ": " ++ op.name) ++
      ["Output"]
  | .decrypt => ["Index", "Input Char"] ++
      (spec.operations.reverse.mapIdx fun k op =>
        "Step " ++ toString (k + 1) ++ ": inverse " ++ op.name) ++
      ["Output"]

theorem GridPlan.headers_ofSpec {spec : Spec} (hspec : spec.IsValid) (capacity : Nat)
    (mode : Mode) : (ofSpec spec capacity mode).headers =
      (spec.columnHeads mode).mapIdx fun col head => (col, head) := by
  obtain ⟨first, second, third, hoperations, _⟩ := hspec.exists_operations
  cases mode <;>
    simp [headers, columns, kinds, ofSpec, Spec.stages, Spec.columnHeads, hoperations,
      StageKind.isOperation, StageKind.header, List.countP_cons]

namespace Workbook

open GridPlan

/-- The five labels of the sheet with the grids. -/
def labelTexts : List (CellRef × String) :=
  [(⟨0, 1⟩, "Plaintext"), (⟨0, 2⟩, "Password"), (⟨0, 3⟩, "Ciphertext"),
    (⟨3, 1⟩, "Encrypted"), (⟨3, 4⟩, "Decrypted")]

/-- The row of the heads of a mode: the first one, and the one above the second
grid. -/
def headRow (capacity : Nat) : Mode → Nat
  | .encrypt => 0
  | .decrypt => encryptOriginRow + capacity + gap - 1

/-- A sheet with both grids of a template, their heads and the labels, each at
an address of its own. -/
structure HoldsAll (template : CompiledTemplate) (sheet : Grid) : Prop where
  grids : ∀ mode (ref : CellRef) cell, (template.grid mode).cells[ref]? = some cell →
    sheet[ref]? = some cell
  heads : ∀ mode, (template.spec.columnHeads mode).length = 7 ∧
    ∀ col head, (template.spec.columnHeads mode)[col]? = some head →
      sheet[(⟨col, headRow template.capacity mode⟩ : CellRef)]? = some (.text head)
  labels : ∀ label ∈ labelTexts, sheet[label.1]? = some (.text label.2)
  /-- No two cells that are placed share an address. -/
  distinct : ((algorithmCells template).map Prod.fst).Nodup
  size : sheet.size = 14 * template.capacity + 21
  inputs : ∀ ref ∈ [InputCell.plaintext, InputCell.password, InputCell.ciphertext], ref ∉ sheet

/-! ## Heads and labels -/

variable {spec : Spec} {capacity : Nat}

/-- The heads and labels beside the grids. -/
def besideCells (spec : Spec) (capacity : Nat) : List (CellRef × Cell) :=
  headerCells (ofSpec spec capacity .encrypt) (headRow capacity .encrypt) ++
    headerCells (ofSpec spec capacity .decrypt) (headRow capacity .decrypt) ++
    labelTexts.map fun label => (label.1, .text label.2)

theorem mem_besideCells_of_head (hspec : spec.IsValid) {mode : Mode} {col : Nat} {head : String}
    (h : (spec.columnHeads mode)[col]? = some head) :
    (⟨col, headRow capacity mode⟩, .text head) ∈ besideCells spec capacity := by
  obtain ⟨hcol, rfl⟩ := List.getElem?_eq_some_iff.1 h
  have hmem : (⟨col, headRow capacity mode⟩, .text (spec.columnHeads mode)[col]) ∈
      headerCells (ofSpec spec capacity mode) (headRow capacity mode) := by
    rw [headerCells, headers_ofSpec hspec]
    exact List.mem_map.2 ⟨(col, _), List.mem_mapIdx.2 ⟨col, hcol, rfl⟩, rfl⟩
  cases mode with
  | encrypt => exact List.mem_append_left _ (List.mem_append_left _ hmem)
  | decrypt => exact List.mem_append_left _ (List.mem_append_right _ hmem)

theorem length_columnHeads (hspec : spec.IsValid) (mode : Mode) :
    (spec.columnHeads mode).length = 7 := by
  have hcount : spec.operations.length = 4 := hspec.count
  cases mode <;> simp [Spec.columnHeads, hcount]

theorem addresses_headerCells (plan : GridPlan) (row : Nat) :
    (headerCells plan row).map Prod.fst =
      (List.range plan.kinds.length).map fun col => ⟨col, row⟩ := by
  rw [← addresses_columns, headerCells, headers, List.map_map, List.map_map]
  rfl

theorem nodup_headerCells (plan : GridPlan) (row : Nat) :
    ((headerCells plan row).map Prod.fst).Nodup := by
  rw [addresses_headerCells]
  exact List.nodup_range.map fun _ _ heq => (CellRef.mk.inj heq).1

theorem isBeside_of_mem {entry : CellRef × Cell} (h : entry ∈ besideCells spec capacity) :
    entry.1.IsBeside capacity := by
  obtain ⟨ref, cell⟩ := entry
  simp only [besideCells, List.mem_append] at h
  rcases h with (h | h) | h
  · exact .inl (mem_headerCells h).1
  · exact .inr (.inl (mem_headerCells h).1)
  · obtain ⟨label, hlabel, heq⟩ := List.mem_map.1 h
    cases heq
    have hall : ∀ label ∈ labelTexts, label.1.col = 0 ∧ label.1.row ≤ 3 ∨
        label.1.col = 3 ∧ (label.1.row = 1 ∨ label.1.row = 4) := by decide
    exact .inr (.inr (hall label hlabel))

/-- The first row, the row above the second grid and the labels have no address
in common. -/
theorem nodup_besideCells (spec : Spec) (capacity : Nat) :
    ((besideCells spec capacity).map Prod.fst).Nodup := by
  have hrow : ∀ mode, ∀ ref ∈ (headerCells (ofSpec spec capacity mode)
      (headRow capacity mode)).map Prod.fst, ref.row = headRow capacity mode := by
    intro mode ref href
    obtain ⟨⟨_, cell⟩, hmem, rfl⟩ := List.mem_map.1 href
    exact (mem_headerCells hmem).1
  have hlabel : ∀ ref ∈ labelTexts.map Prod.fst, 1 ≤ ref.row ∧ ref.row ≤ 4 := by decide
  have hfar : headRow capacity .decrypt = 58 + capacity := by
    simp only [headRow, encryptOriginRow, gap]
    omega
  rw [besideCells, List.map_append, List.map_append, List.map_map]
  refine List.nodup_append.2 ⟨List.nodup_append.2 ⟨nodup_headerCells _ _,
    nodup_headerCells _ _, ?_⟩, (by decide : (labelTexts.map Prod.fst).Nodup), ?_⟩
  · rintro ref hencrypt _ hdecrypt rfl
    have hfirst : ref.row = 0 := hrow .encrypt ref hencrypt
    have hsecond := hrow .decrypt ref hdecrypt
    omega
  · rintro ref hhead _ hmem rfl
    have hlow := hlabel ref hmem
    rcases List.mem_append.1 hhead with h | h
    · have hfirst : ref.row = 0 := hrow .encrypt ref h
      omega
    · have hsecond := hrow .decrypt ref h
      omega

/-! ## All cells of the sheet -/

theorem algorithmCells_perm (hspec : spec.IsValid) (rows : List KeyRow) :
    (algorithmCells (spec.template capacity rows)).Perm (besideCells spec capacity ++
      ((ofSpec spec capacity .encrypt).grid.toList ++
        (ofSpec spec capacity .decrypt).grid.toList)) := by
  have hcount : spec.operations.length = 4 := hspec.count
  have hlabels : (labelTexts.map fun label => (label.1, Cell.text label.2)) =
      inputLabels ++ [label (ofSpec spec capacity .encrypt).result "Encrypted",
        label (ofSpec spec capacity .decrypt).result "Decrypted"] := by
    simp [labelTexts, inputLabels, label, ofSpec, hcount, InputCell.plaintext, InputCell.password,
      InputCell.ciphertext]
  -- each grid stands behind its label, and the second label goes in front of the first grid
  have hmiddle : ∀ (before : List (CellRef × Cell)) (a b : CellRef × Cell)
      (as bs : List (CellRef × Cell)),
      (before ++ inputLabels ++ (a :: as) ++ (b :: bs)).Perm
        (before ++ (inputLabels ++ [a, b]) ++ (as ++ bs)) := by
    intro before a b as bs
    have hcells : (a :: (as ++ b :: bs)).Perm (a :: b :: (as ++ bs)) := List.perm_middle.cons a
    simpa using (hcells.append_left inputLabels).append_left before
  rw [besideCells, hlabels]
  exact hmiddle _ _ _ _ _

theorem nodup_algorithmCells (hspec : spec.IsValid)
    (hcapacity : 1 ≤ capacity ∧ capacity ≤ maxCapacity) (rows : List KeyRow) :
    ((algorithmCells (spec.template capacity rows)).map Prod.fst).Nodup := by
  have hcovers : ∀ mode, ∀ ref ∈ (ofSpec spec capacity mode).grid.toList.map Prod.fst,
      (ofSpec spec capacity mode).Covers ref := by
    intro mode ref href
    rw [Std.TreeMap.map_fst_toList_eq_keys, Std.TreeMap.mem_keys] at href
    exact (mem_grid (isUsable_ofSpec hspec hcapacity mode)).1 href
  have hnodup : ∀ mode, ((ofSpec spec capacity mode).grid.toList.map Prod.fst).Nodup := by
    intro mode
    rw [Std.TreeMap.map_fst_toList_eq_keys]
    exact Std.TreeMap.nodup_keys
  rw [((algorithmCells_perm hspec rows).map Prod.fst).nodup_iff, List.map_append, List.map_append]
  refine List.nodup_append.2 ⟨nodup_besideCells spec capacity,
    List.nodup_append.2 ⟨hnodup .encrypt, hnodup .decrypt, ?_⟩, ?_⟩
  · rintro ref hencrypt _ hdecrypt rfl
    exact not_covers_decrypt hspec (hcovers .encrypt ref hencrypt) (hcovers .decrypt ref hdecrypt)
  · rintro ref hmem _ hgrid rfl
    obtain ⟨entry, hentry, rfl⟩ := List.mem_map.1 hmem
    have hbeside := fun mode => not_covers_of_isBeside hspec mode (isBeside_of_mem hentry)
    rcases List.mem_append.1 hgrid with h | h
    · exact hbeside .encrypt (hcovers .encrypt _ h)
    · exact hbeside .decrypt (hcovers .decrypt _ h)

theorem length_algorithmCells (hspec : spec.IsValid)
    (hcapacity : 1 ≤ capacity ∧ capacity ≤ maxCapacity) (rows : List KeyRow) :
    (algorithmCells (spec.template capacity rows)).length = 14 * capacity + 21 := by
  have hgrid : ∀ mode, (ofSpec spec capacity mode).grid.toList.length = 7 * capacity + 1 := by
    intro mode
    rw [Std.TreeMap.length_toList, (isUsable_ofSpec hspec hcapacity mode).size_grid,
      ofSpec_capacity]
  have hheads : ∀ mode, (headerCells (ofSpec spec capacity mode)
      (headRow capacity mode)).length = 7 := by
    intro mode
    rw [headerCells, headers_ofSpec hspec, List.length_map, List.length_mapIdx,
      length_columnHeads hspec]
  rw [(algorithmCells_perm hspec rows).length_eq, besideCells]
  have hlabels : labelTexts.length = 5 := rfl
  simp only [List.length_append, List.length_map, hgrid, hheads, hlabels]
  omega

theorem holdsAll_algorithm (hspec : spec.IsValid)
    (hcapacity : 1 ≤ capacity ∧ capacity ≤ maxCapacity) (rows : List KeyRow) :
    HoldsAll (spec.template capacity rows) (algorithm spec capacity rows) := by
  have hnodup := nodup_algorithmCells hspec hcapacity rows
  have hput : ∀ {entry : CellRef × Cell}, entry ∈ besideCells spec capacity →
      (algorithm spec capacity rows)[entry.1]? = some entry.2 := fun h =>
    (Grid.getElem?_ofCells_iff hnodup).2 <|
      (algorithmCells_perm hspec rows).mem_iff.2 (List.mem_append_left _ h)
  exact
    { grids := by
        intro mode ref cell hcell
        rw [Spec.template_grid] at hcell
        exact getElem?_algorithm hspec hcapacity
          ((getElem?_grid (isUsable_ofSpec hspec hcapacity mode)).1 hcell)
      heads := by
        intro mode
        refine ⟨length_columnHeads hspec mode, fun col head hhead => ?_⟩
        exact hput (mem_besideCells_of_head hspec hhead)
      labels := fun label hlabel =>
        hput (List.mem_append_right _ (List.mem_map.2 ⟨label, hlabel, rfl⟩))
      distinct := hnodup
      size := by
        rw [algorithm, Grid.size_ofCells hnodup, length_algorithmCells hspec hcapacity rows]
        rfl
      inputs := by
        intro ref href
        have htyped : ref.col = 1 ∧ 1 ≤ ref.row ∧ ref.row ≤ 3 := by
          revert ref
          decide
        exact not_mem_algorithm hspec hcapacity htyped.1 htyped.2 }

/-- **Assembling a workbook overwrites nothing.** The sheet with the grids of a
compiled template holds both grids as they are, the seven heads above each and
the five labels, each at an address of its own, and no cell where a user
types. -/
theorem assemble_holdsAll {template : CompiledTemplate}
    (h : spec.compile capacity = .ok template) :
    ∃ sheet, (assemble template).sheet? algorithmName = some sheet ∧
      HoldsAll template sheet.cells := by
  obtain ⟨hspec, hcapacity, rows, rfl⟩ := Spec.exists_template h
  exact ⟨⟨algorithmName, algorithm spec capacity rows⟩, rfl,
    holdsAll_algorithm hspec hcapacity rows⟩

/-- Nine positions, so that the second row of heads is row 68 of the sheet. -/
theorem assemble_holdsAll_affine : ∃ template sheet, Spec.affine.compile 9 = .ok template ∧
    (assemble template).sheet? algorithmName = some sheet ∧ sheet.cells.size = 147 ∧
    sheet.cells[(⟨2, 67⟩ : CellRef)]? = some (.text "Step 1: inverse map") ∧
    sheet.cells[(⟨3, 4⟩ : CellRef)]? = some (.text "Decrypted") ∧
    InputCell.password ∉ sheet.cells := by
  obtain ⟨rows, _, hcompile⟩ :=
    Spec.compile_eq_ok (Spec.validate_eq_ok_iff.1 Spec.validate_affine)
      (by decide : 1 ≤ 9 ∧ 9 ≤ maxCapacity)
  obtain ⟨sheet, hsheet, hholds⟩ := assemble_holdsAll hcompile
  exact ⟨_, sheet, hcompile, hsheet, hholds.size, (hholds.heads .decrypt).2 2 _ rfl,
    hholds.labels (⟨3, 4⟩, "Decrypted") (by decide), hholds.inputs InputCell.password (by decide)⟩

end Workbook

end SheetCipher
