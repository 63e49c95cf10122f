import SheetCipher.Layout.Run
import SheetCipher.Proofs.Cipher.Stage
import SheetCipher.Proofs.Eval.Grid

/-!
# KeyMap — what the sheet of a letter map shows

An invertible map has a row for each letter, and the row shows what the letter
becomes in either direction.
-/

namespace SheetCipher

/-- What a row shows for a direction. -/
def KeyRow.entry (row : KeyRow) : Direction → Char
  | .forward => row.image
  | .inverse => row.preimage

namespace KeyMap

theorem mem_cells {rows : List KeyRow} {entry : CellRef × Cell} :
    entry ∈ (rows.mapIdx rowCells).flatten ↔
      ∃ i row, rows[i]? = some row ∧ entry ∈ rowCells i row := by
  simp only [List.mem_flatten, List.mem_mapIdx]
  constructor
  · rintro ⟨_, ⟨i, hi, rfl⟩, hentry⟩
    exact ⟨i, rows[i], List.getElem?_eq_getElem hi, hentry⟩
  · rintro ⟨i, row, hrow, hentry⟩
    obtain ⟨hi, rfl⟩ := List.getElem?_eq_some_iff.1 hrow
    exact ⟨_, ⟨i, hi, rfl⟩, hentry⟩

/-- In a row the column of a direction holds one character. -/
theorem mem_rowCells {i j : Nat} {row : KeyRow} {direction : Direction} {cell : Cell} :
    ((⟨column direction, j⟩ : CellRef), cell) ∈ rowCells i row ↔
      j = i ∧ cell = .text (row.entry direction).toString := by
  cases direction <;> simp [rowCells, column, KeyRow.entry]

theorem getElem?_grid {rows : List KeyRow} {i : Nat} {row : KeyRow} (h : rows[i]? = some row)
    (direction : Direction) :
    (grid rows)[(⟨column direction, i⟩ : CellRef)]? =
      some (.text (row.entry direction).toString) := by
  refine CellRef.getElem?_ofList_of_unique ?_ ?_
  · exact mem_cells.2 ⟨i, row, h, mem_rowCells.2 ⟨rfl, rfl⟩⟩
  · intro cell hcell
    obtain ⟨i', row', hrow', hentry⟩ := mem_cells.1 hcell
    obtain ⟨rfl, rfl⟩ := mem_rowCells.1 hentry
    rw [h] at hrow'
    cases hrow'
    rfl

theorem read_typedValues_grid {rows : List KeyRow} {i : Nat} {row : KeyRow}
    (h : rows[i]? = some row) (direction : Direction) :
    (grid rows).typedValues.read ⟨column direction, i⟩ =
      .text (String.ofList [row.entry direction]) := by
  rw [Values.read, Grid.typedValues, Std.TreeMap.getElem?_map, getElem?_grid h]
  rfl

/-- Values that show a letter map in both directions, each entry in the row of
its letter. -/
def Shows (others : Values) (m : LetterMap) : Prop :=
  ∀ (direction : Direction) (k : LetterCase) (i : Nat), i < alphabetSize →
    others.read ⟨column direction, rowsBefore k + i⟩ =
      .text (String.ofList [m.entryOf direction (k.letter i)])

theorem Shows.of_read {others typed : Values} {m : LetterMap} (h : Shows typed m)
    (hread : ∀ ref, others.read ref = typed.read ref) : Shows others m := by
  intro direction k i hi
  rw [hread, h direction k i hi]

end KeyMap

namespace LetterMap

theorem letters_getElem? (k : LetterCase) {i : Nat} (h : i < alphabetSize) :
    letters[KeyMap.rowsBefore k + i]? = some (k.letter i) := by
  have hentry : ∀ k : LetterCase, k.alphabet[i]? = some (k.letter i) := by
    intro k
    rw [LetterCase.alphabet, List.getElem?_map, List.getElem?_range h]
    rfl
  cases k with
  | upper =>
      rw [KeyMap.rowsBefore, Nat.zero_add, letters,
        List.getElem?_append_left (by rwa [LetterCase.length_alphabet]), hentry]
  | lower =>
      rw [KeyMap.rowsBefore, letters,
        List.getElem?_append_right (by rw [LetterCase.length_alphabet]; omega),
        LetterCase.length_alphabet, Nat.add_sub_cancel_left, hentry]

variable {m : LetterMap} (h : m.isBijection = true)
include h

theorem keyRows_eq_ok :
    m.keyRows = .ok (letters.map fun c => ⟨c, m.imageOf c, m.preimageOf c⟩) := by
  have hrow : ∀ c, m.keyRow c = pure ⟨c, m.imageOf c, m.preimageOf c⟩ := by
    intro c
    rw [keyRow, image_eq_ok h, preimage_eq_ok h]
    rfl
  rw [keyRows, funext hrow]
  exact List.mapM_pure

/-- **The sheet of an invertible map shows the map**, in both directions. -/
theorem shows_typedValues {rows : List KeyRow} (hrows : m.keyRows = .ok rows) :
    KeyMap.Shows (KeyMap.grid rows).typedValues m := by
  intro direction k i hi
  rw [keyRows_eq_ok h] at hrows
  cases hrows
  -- the row of a letter is its place among all letters
  have hrow := congrArg (Option.map fun c => (⟨c, m.imageOf c, m.preimageOf c⟩ : KeyRow))
    (letters_getElem? k hi)
  rw [← List.getElem?_map] at hrow
  rw [KeyMap.read_typedValues_grid hrow]
  cases direction <;> rfl

end LetterMap

/-! ## Sheets of texts -/

/-- A grid of texts works out to what is typed in. -/
theorem Grid.evaluate_texts {grid : Grid}
    (h : ∀ (ref : CellRef) (cell : Cell), grid[ref]? = some cell → ∃ s, cell = .text s)
    (sheets : Sheets) :
    ∃ final, grid.evaluate sheets ∅ = ⟨final, none⟩ ∧
      ∀ ref, final.read ref = grid.typedValues.read ref := by
  have hsolves : grid.Solves sheets ∅ grid.typedValues.read := by
    refine ⟨DependencyGraph.not_isCyclic_of_measure (fun _ => 0) ?_, ?_⟩
    · -- a text depends on nothing
      intro ref other hdepends
      obtain ⟨_, cell, hcell, _, hdependency, _⟩ := Grid.dependsOn_iff.1 hdepends
      obtain ⟨s, rfl⟩ := h ref cell hcell
      cases hdependency
    · intro ref cell hcell now _ _
      have hread : grid.typedValues.read ref = .text cell.typed := by
        rw [Values.read, typedValues, Std.TreeMap.getElem?_map, hcell]
        rfl
      rw [hread]
      obtain ⟨s, rfl⟩ := h ref cell hcell
      rfl
  obtain ⟨final, hfinal, hshown, houtside⟩ := hsolves.evaluate
  refine ⟨final, hfinal, ?_⟩
  intro ref
  by_cases hmem : ref ∈ grid
  · exact Values.read_of_getElem? (hshown ref hmem)
  · rw [Values.read, Values.read, houtside ref hmem, typedValues, Std.TreeMap.getElem?_map,
      Std.TreeMap.getElem?_eq_none hmem]
    rfl

end SheetCipher
