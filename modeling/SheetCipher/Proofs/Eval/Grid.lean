import SheetCipher.Eval.Grid
import SheetCipher.Proofs.Eval.Order
import SheetCipher.Proofs.Sheet.Grid

/-!
# Grid — grids that work out to given values

To know the values of a grid it is enough to guess them: where no cell depends
on itself and each cell comes to its guess as soon as the cells that it reads
show theirs, an evaluation ends with the guess everywhere, and values outside
the grid stay as they were.
-/

namespace SheetCipher

/-- A cell may read an address of its own sheet. -/
def Cell.Reads (cell : Cell) (ref : CellRef) : Prop :=
  ∃ dependency ∈ cell.dependencies, ref ∈ dependency.refs

theorem Cell.reads_formula {e : Formula} {rows : RowRange} {ref : CellRef} :
    (formula e rows).Reads ref ↔ ref ∈ e.cells ∨ ref.col ∈ e.columns ∧ rows.Holds ref.row := by
  constructor
  · rintro ⟨dependency, hmem, href⟩
    cases dependency with
    | cell target =>
        obtain rfl := List.mem_singleton.1 href
        exact .inl (Formula.cell_mem_dependencies.1 hmem)
    | column col range =>
        obtain ⟨row, hrow, rfl⟩ := List.mem_map.1 href
        obtain ⟨hcol, rfl⟩ := Formula.column_mem_dependencies.1 hmem
        exact .inr ⟨hcol, RowRange.mem_rows.1 hrow⟩
  · rintro (h | ⟨hcol, hrow⟩)
    · exact ⟨.cell ref, Formula.cell_mem_dependencies.2 h, List.mem_singleton_self ref⟩
    · exact ⟨.column ref.col rows, Formula.column_mem_dependencies.2 ⟨hcol, rfl⟩,
        List.mem_map.2 ⟨ref.row, RowRange.mem_rows.2 hrow, rfl⟩⟩

namespace Values

theorem read_of_getElem? {values : Values} {ref : CellRef} {v : Value}
    (h : values[ref]? = some v) : values.read ref = v := by
  rw [read, h]
  rfl

end Values

namespace Grid

theorem mem_iff_exists {grid : Grid} {ref : CellRef} :
    ref ∈ grid ↔ ∃ cell, grid[ref]? = some cell := by
  rw [Std.TreeMap.mem_iff_isSome_getElem?, Option.isSome_iff_exists]

theorem mem_dependencies {grid : Grid} {ref : CellRef} : ref ∈ grid.dependencies ↔ ref ∈ grid :=
  Std.TreeMap.mem_map

theorem dependsOn_iff {grid : Grid} {a b : CellRef} :
    grid.dependencies.DependsOn a b ↔ b ∈ grid ∧ ∃ cell, grid[a]? = some cell ∧ cell.Reads b := by
  rw [DependencyGraph.DependsOn, mem_dependencies, dependencies, Std.TreeMap.getElem?_map]
  constructor
  · rintro ⟨hb, dependencies, hget, hreads⟩
    obtain ⟨cell, hcell, rfl⟩ := Option.map_eq_some_iff.1 hget
    exact ⟨hb, cell, hcell, hreads⟩
  · rintro ⟨hb, cell, hcell, hreads⟩
    exact ⟨hb, cell.dependencies, by rw [hcell]; rfl, hreads⟩

/-- A guess that every cell confirms: a cell comes to it where the cells that it
reads show it and the values outside the grid are the given ones. -/
structure Solves (grid : Grid) (sheets : Sheets) (values : Values) (guess : CellRef → Value) :
    Prop where
  acyclic : ¬ grid.dependencies.IsCyclic
  confirms : ∀ (ref : CellRef) (cell : Cell), grid[ref]? = some cell → ∀ now : Values,
    (∀ other ∈ grid, cell.Reads other → now.read other = guess other) →
    (∀ other, other ∉ grid → now[other]? = values[other]?) → cell.value sheets now = .ok (guess ref)

/-- The values after some cells of a schedule. -/
structure ShowsUpTo (grid : Grid) (values : Values) (guess : CellRef → Value)
    (done : List CellRef) (now : Values) : Prop where
  shown : ∀ ref ∈ done, now[ref]? = some (guess ref)
  outside : ∀ ref, ref ∉ grid → now[ref]? = values[ref]?

variable {grid : Grid} {sheets : Sheets} {values now : Values} {guess : CellRef → Value}

theorem ShowsUpTo.insert {done : List CellRef} {ref : CellRef}
    (h : grid.ShowsUpTo values guess done now) (href : ref ∈ grid) :
    grid.ShowsUpTo values guess (done ++ [ref]) (now.insert ref (guess ref)) where
  shown := by
    intro other hother
    rw [CellRef.getElem?_insert]
    split
    · rename_i heq
      rw [heq]
    · rename_i hne
      rcases List.mem_append.1 hother with hother | hother
      · exact h.shown other hother
      · exact absurd (List.mem_singleton.1 hother).symm hne
  outside := by
    intro other hother
    have hne : ref ≠ other := fun heq => hother (heq ▸ href)
    rw [CellRef.getElem?_insert, if_neg hne, h.outside other hother]

/-- **One step after the other** along a schedule, each cell comes to its
guess. -/
theorem Solves.evaluateCells (h : grid.Solves sheets values guess) {order : List CellRef}
    (horder : grid.dependencies.IsSchedule order) :
    ∀ (rest done : List CellRef) (now : Values), order = done ++ rest →
      grid.ShowsUpTo values guess done now → ∃ final,
        grid.evaluateCells sheets rest now = ⟨final, none⟩ ∧
          grid.ShowsUpTo values guess order final := by
  intro rest
  induction rest with
  | nil =>
      intro done now heq hnow
      rw [List.append_nil] at heq
      exact ⟨now, rfl, heq ▸ hnow⟩
  | cons ref rest ih =>
      intro done now heq hnow
      have hmem : ref ∈ grid :=
        mem_dependencies.1 ((horder.mem_iff ref).1 (by simp [heq]))
      obtain ⟨cell, hcell⟩ := mem_iff_exists.1 hmem
      have hvalue : cell.value sheets now = .ok (guess ref) := by
        refine h.confirms ref cell hcell now ?_ hnow.outside
        -- what the cell reads stands before it in the schedule and shows its guess
        intro other hother hreads
        have hdone : other ∈ done :=
          horder.before done ref rest heq other (dependsOn_iff.2 ⟨hother, cell, hcell, hreads⟩)
        exact Values.read_of_getElem? (hnow.shown other hdone)
      rw [Grid.evaluateCells, hcell]
      simp only [hvalue]
      exact ih (done ++ [ref]) _ (by simp [heq]) (hnow.insert hmem)

/-- **A confirmed guess is what an evaluation leaves.** -/
theorem Solves.evaluate (h : grid.Solves sheets values guess) :
    ∃ final, grid.evaluate sheets values = ⟨final, none⟩ ∧
      (∀ ref ∈ grid, final[ref]? = some (guess ref)) ∧
      ∀ ref, ref ∉ grid → final[ref]? = values[ref]? := by
  obtain ⟨order, horder, hschedule⟩ := DependencyGraph.exists_schedule h.acyclic
  obtain ⟨final, hfinal, hshows⟩ := h.evaluateCells hschedule order [] values rfl
    ⟨by simp, fun _ _ => rfl⟩
  refine ⟨final, ?_, ?_, hshows.outside⟩
  · rw [Grid.evaluate, Grid.evaluateBy, horder]
    exact hfinal
  · intro ref href
    exact hshows.shown ref ((hschedule.mem_iff ref).2 (mem_dependencies.2 href))

end Grid

end SheetCipher
