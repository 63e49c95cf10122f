import SheetCipher.Proofs.Eval.Grid

/-!
# Failure — what an evaluation leaves that does not come to its end

Cells are worked out one after the other and each value is entered at once, so
between two cells the values are the ones that were there with an entry for each
cell that has been worked out (`IsRun`). One cell more is one entry more
(`IsRun.concat`), and a cell without a value adds none: where an evaluation stops
it leaves the entries of the cells in front of that cell, which holds a formula,
and everything else as it was (`evaluate_enters_before_failure`). A circle is
found before any cell is worked out. All this goes for any dependencies that the
cells are said to have, those that their formulas give them among others.
-/

namespace SheetCipher

/-- The cell whose formula has no value. -/
def EvaluationError.cell? : EvaluationError → Option CellRef
  | circular _ => none
  | formula ref _ => some ref

/-- Only formulas can be without a value. -/
theorem Cell.exists_formula_of_error {cell : Cell} {sheets : Sheets} {values : Values}
    {fault : Fault} (h : cell.value sheets values = .error fault) :
    ∃ e rows, cell = .formula e rows ∧ e.value sheets values = .error fault := by
  cases cell with
  | formula e rows => exact ⟨e, rows, rfl, h⟩
  | _ => cases h

namespace Grid

/-- Cells with their values, worked out in this order: each value is what the
cell comes to where the values of the cells before it have been entered. -/
def IsRun (grid : Grid) (sheets : Sheets) (values : Values) (entries : List (CellRef × Value)) :
    Prop :=
  ∀ before ref v after, entries = before ++ (ref, v) :: after →
    ∃ cell, grid[ref]? = some cell ∧ cell.value sheets (values.insertMany before) = .ok v

/-- What an evaluation of the cells of an order leaves: a run of all of them, or
one of those in front of a cell that has no value then. -/
def Leaves (grid : Grid) (sheets : Sheets) (values : Values) (order : List CellRef)
    (evaluation : Evaluation) : Prop :=
  ∃ entries, grid.IsRun sheets values entries ∧ evaluation.values = values.insertMany entries ∧
    (evaluation.failure = none ∧ order = entries.map Prod.fst ∨
      ∃ ref later cell fault, evaluation.failure = some (.formula ref fault) ∧
        order = entries.map Prod.fst ++ ref :: later ∧ grid[ref]? = some cell ∧
        cell.value sheets evaluation.values = .error fault)

/-- An evaluation that has stopped at a cell with these values: the cell is a
formula without a value, the cells in front of it in the order show the values to
which they come one after the other, and all other addresses, the cell itself and
the later ones among them, have what they had before. -/
structure StopsAt (grid : Grid) (graph : DependencyGraph) (sheets : Sheets)
    (values final : Values) (ref : CellRef) (fault : Fault) (entries : List (CellRef × Value))
    (later : List CellRef) : Prop where
  order : graph.order = .ok (entries.map Prod.fst ++ ref :: later)
  fails : ∃ e rows, grid[ref]? = some (.formula e rows) ∧ e.value sheets final = .error fault
  run : grid.IsRun sheets values entries
  entered : ∀ other v, (other, v) ∈ entries → final[other]? = some v
  kept : ∀ other, other ∉ entries.map Prod.fst → final[other]? = values[other]?
  keptBehind : ∀ other ∈ ref :: later, final[other]? = values[other]?

variable {grid : Grid} {sheets : Sheets} {values : Values} {entries : List (CellRef × Value)}

theorem IsRun.nil : grid.IsRun sheets values [] := by
  intro before ref v after heq
  cases before <;> cases heq

/-- **One cell more.** -/
theorem IsRun.concat (h : grid.IsRun sheets values entries) {ref : CellRef} {cell : Cell}
    {v : Value} (hcell : grid[ref]? = some cell)
    (hvalue : cell.value sheets (values.insertMany entries) = .ok v) :
    grid.IsRun sheets values (entries ++ [(ref, v)]) := by
  intro before other w after heq
  rcases List.eq_nil_or_concat' after with rfl | ⟨after, entry, rfl⟩
  · obtain ⟨rfl, hlast⟩ := List.append_inj' heq rfl
    cases hlast
    exact ⟨cell, hcell, hvalue⟩
  · rw [← List.cons_append, ← List.append_assoc] at heq
    exact h before other w after (List.append_inj' heq rfl).1

/-- The values of a run are shown, if no cell comes twice. -/
theorem getElem?_of_mem_entries (hnodup : (entries.map Prod.fst).Nodup) {ref : CellRef} {v : Value}
    (h : (ref, v) ∈ entries) : (values.insertMany entries)[ref]? = some v := by
  refine Std.TreeMap.getElem?_insertMany_list_of_mem Std.compare_self ?_ h
  exact (List.pairwise_map.1 hnodup).imp fun hne heq => hne (Std.compare_eq_iff_eq.1 heq)

/-- All other addresses keep what they had. -/
theorem getElem?_of_not_mem_entries {ref : CellRef} (h : ref ∉ entries.map Prod.fst) :
    (values.insertMany entries)[ref]? = values[ref]? :=
  Std.TreeMap.getElem?_insertMany_list_of_contains_eq_false (by simpa using h)

/-- **One cell after the other**, the entries grow until a cell has no value. -/
theorem leaves_of_isRun (sheets : Sheets) (values : Values) {order : List CellRef}
    (hmem : ∀ ref ∈ order, ref ∈ grid) :
    ∀ (rest : List CellRef) (entries : List (CellRef × Value)),
      order = entries.map Prod.fst ++ rest → grid.IsRun sheets values entries →
        grid.Leaves sheets values order
          (grid.evaluateCells sheets rest (values.insertMany entries)) := by
  intro rest
  induction rest with
  | nil =>
      intro entries heq hrun
      exact ⟨entries, hrun, rfl, .inl ⟨rfl, by rw [heq, List.append_nil]⟩⟩
  | cons ref rest ih =>
      intro entries heq hrun
      obtain ⟨cell, hcell⟩ := mem_iff_exists.1 (hmem ref (by simp [heq]))
      rw [evaluateCells, hcell]
      cases hvalue : cell.value sheets (values.insertMany entries) with
      | error fault =>
          simp only [hvalue]
          exact ⟨entries, hrun, rfl, .inr ⟨ref, rest, cell, fault, rfl, heq, hcell, hvalue⟩⟩
      | ok v =>
          simp only [hvalue]
          have hnext := ih (entries ++ [(ref, v)]) (by simp [heq]) (hrun.concat hcell hvalue)
          rwa [Std.TreeMap.insertMany_append, Std.TreeMap.insertMany_list_singleton] at hnext

/-- How an evaluation ends: with a circle and nothing entered, or with a run
along a schedule. -/
theorem evaluateBy_cases (graph : DependencyGraph) (hcells : ∀ ref ∈ graph, ref ∈ grid)
    (sheets : Sheets) (values : Values) :
    (∃ path, grid.evaluateBy graph sheets values = ⟨values, some (.circular path)⟩) ∨
      ∃ order, graph.order = .ok order ∧ graph.IsSchedule order ∧
        grid.Leaves sheets values order (grid.evaluateBy graph sheets values) := by
  rcases DependencyGraph.order_cases graph with ⟨order, horder, hschedule⟩ | ⟨path, hpath, _⟩
  · have hmem : ∀ ref ∈ order, ref ∈ grid := fun ref href =>
      hcells ref ((hschedule.mem_iff ref).1 href)
    refine .inr ⟨order, horder, hschedule, ?_⟩
    rw [evaluateBy, horder]
    exact leaves_of_isRun sheets values hmem order [] rfl IsRun.nil
  · exact .inl ⟨path, by rw [evaluateBy, hpath]⟩

/-- **An evaluation writes the cells in front of a failure and nothing else**,
whatever its cells are said to depend on. An address off the grid is never
written, a circle leaves all values as they were, and a cell without a value
stops the evaluation where it stands in the order. -/
theorem evaluate_enters_before_failure (grid : Grid) (depends : CellRef → Cell → List Dependency)
    (sheets : Sheets) (values : Values) :
    let graph : DependencyGraph := grid.map depends
    let evaluation := grid.evaluateBy graph sheets values
    (∀ ref, ref ∉ grid → evaluation.values[ref]? = values[ref]?) ∧
      (∀ path, evaluation.failure = some (.circular path) → evaluation.values = values) ∧
      ∀ ref fault, evaluation.failure = some (.formula ref fault) →
        ∃ entries later,
          grid.StopsAt graph sheets values evaluation.values ref fault entries later := by
  intro graph evaluation
  have hcells : ∀ ref, ref ∈ graph ↔ ref ∈ grid := fun ref => Std.TreeMap.mem_map
  rcases evaluateBy_cases graph (fun ref => (hcells ref).1) sheets values with
    ⟨path, hpath⟩ | ⟨order, horder, hschedule, entries, hrun, hvalues, hend⟩
  · rw [show evaluation = _ from hpath]
    refine ⟨fun _ _ => rfl, fun _ _ => rfl, fun ref fault h => ?_⟩
    cases h
  · have hvalues : evaluation.values = values.insertMany entries := hvalues
    have houtside : ∀ ref, ref ∉ grid → ref ∉ order := fun ref href hmem =>
      href ((hcells ref).1 ((hschedule.mem_iff ref).1 hmem))
    rw [hvalues]
    rcases hend with ⟨hnone, rfl⟩ | ⟨ref, later, cell, fault, hsome, rfl, hcell, hfault⟩
    · rw [show evaluation.failure = _ from hnone]
      refine ⟨fun ref href => getElem?_of_not_mem_entries (houtside ref href), ?_, ?_⟩
      · intro path h
        cases h
      · intro ref fault h
        cases h
    · rw [show evaluation.failure = _ from hsome]
      have hnodup := hschedule.nodup
      rw [List.nodup_append] at hnodup
      obtain ⟨hnodup, _, hdisjoint⟩ := hnodup
      refine ⟨fun other hother => getElem?_of_not_mem_entries fun hmem =>
        houtside other hother (List.mem_append_left _ hmem), ?_, ?_⟩
      · intro path h
        cases h
      · intro ref' fault' h
        cases h
        obtain ⟨e, rows, rfl, hfault⟩ := Cell.exists_formula_of_error hfault
        exact ⟨entries, later, {
          order := horder
          fails := ⟨e, rows, hcell, hvalues ▸ hfault⟩
          run := hrun
          entered := fun _ _ => getElem?_of_mem_entries hnodup
          kept := fun _ => getElem?_of_not_mem_entries
          keptBehind := fun other hother => getElem?_of_not_mem_entries fun hmem =>
            hdisjoint other hmem other hother rfl }⟩

/-- The cells of a grid in which `A1` depends on `B2` and `C1` divides by zero. -/
def dividingCells : List (CellRef × Cell) :=
  [(⟨0, 0⟩, .formula (.binary .add (.cell ⟨1, 1⟩ .relative) (.int 1)) ⟨0, 0⟩),
    (⟨2, 0⟩, .formula (.call .mod [.cell ⟨0, 0⟩ .relative, .int 0]) ⟨0, 0⟩),
    (⟨3, 0⟩, .text "later"), (⟨1, 1⟩, .number 4)]

/-- Old entries at `A1`, at `C1` and off the grid. -/
def oldValues : Values :=
  Std.TreeMap.ofList [((⟨0, 0⟩ : CellRef), Value.int 7), (⟨2, 0⟩, .text "old"), (⟨4, 4⟩, .int 8)]

theorem exists_fault_of_cell? {failure : Option EvaluationError} {ref : CellRef}
    (h : failure.bind EvaluationError.cell? = some ref) :
    ∃ fault, failure = some (.formula ref fault) := by
  rcases failure with _ | ⟨path⟩ | ⟨other, fault⟩
  · cases h
  · cases h
  · cases h
    exact ⟨fault, rfl⟩

/-- `B2` and `A1` come before `C1` and show new values; `C1` keeps its old entry. -/
theorem evaluate_enters_before_failure_dividing :
    let grid := ofCells dividingCells
    let final := (grid.evaluate [] oldValues).values
    (final.read ⟨0, 0⟩).shown = "5" ∧
      ∃ fault entries later,
        (grid.evaluate [] oldValues).failure = some (.formula ⟨2, 0⟩ fault) ∧
        grid.StopsAt grid.dependencies [] oldValues final ⟨2, 0⟩ fault entries later ∧
        entries.map Prod.fst ++ ⟨2, 0⟩ :: later = [⟨1, 1⟩, ⟨0, 0⟩, ⟨2, 0⟩, ⟨3, 0⟩] := by
  intro grid final
  have horder : grid.dependencies.order = .ok [⟨1, 1⟩, ⟨0, 0⟩, ⟨2, 0⟩, ⟨3, 0⟩] := by decide +kernel
  obtain ⟨fault, hfailure⟩ : ∃ fault,
      (grid.evaluate [] oldValues).failure = some (.formula ⟨2, 0⟩ fault) :=
    exists_fault_of_cell? (by decide +kernel)
  obtain ⟨_, _, hstops⟩ :=
    evaluate_enters_before_failure grid (fun _ cell => cell.dependencies) [] oldValues
  obtain ⟨entries, later, hstopsAt⟩ := hstops ⟨2, 0⟩ fault hfailure
  exact ⟨by decide +kernel, fault, entries, later, hfailure, hstopsAt,
    Except.ok.inj (hstopsAt.order.symm.trans horder)⟩

end Grid

end SheetCipher
