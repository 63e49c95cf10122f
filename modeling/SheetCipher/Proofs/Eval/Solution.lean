import SheetCipher.Proofs.Eval.Access
import SheetCipher.Proofs.Eval.Grid

/-!
# Solution — an evaluation finds the only values that fit

Values solve a grid if each cell shows what it comes to against these very
values. An evaluation writes each value once, against a cache that later
writes still change; what it wrote fits the final values because a cell has
looked at nothing that is written later: its references are declared, and the
rows that it computed are assumed to be (`LandsDeclared`). So each cell confirms
the final values (`evaluate_solves`), there are no others that fit, and neither
what the grid's addresses held before nor the order makes a difference.
-/

namespace SheetCipher

/-- A reference that computed its row: the rows that its cell declares, and the
address on which it landed. -/
structure Landing where
  rows : RowRange
  target : CellRef

/-- A landing on a declared row or off the grid. -/
def Landing.IsDeclared (grid : Grid) (landing : Landing) : Prop :=
  landing.target ∈ grid → landing.rows.Holds landing.target.row

instance (grid : Grid) (landing : Landing) : Decidable (landing.IsDeclared grid) :=
  inferInstanceAs (Decidable (_ → _))

namespace Cell

/-- Whether the names of sheets in the formula of a cell stand for
themselves. -/
def isPlain : Cell → Bool
  | formula e _ => e.isPlain
  | _ => true

/-- What working a cell out looks at. -/
def accesses (cell : Cell) (sheets : Sheets) (values : Values) : List Access :=
  match cell with
  | formula e _ => e.accesses sheets values
  | _ => []

/-- Where the references of a cell land that compute their row. -/
def landings (cell : Cell) (sheets : Sheets) (values : Values) : List Landing :=
  match cell with
  | formula e rows =>
    (e.accesses sheets values).filterMap fun access => access.landing?.map (Landing.mk rows)
  | _ => []

variable {cell : Cell} {sheets : Sheets} {now later : Values}

theorem value_congr (hplain : cell.isPlain = true)
    (h : Values.AgreeAt (cell.accesses sheets now) now later) :
    cell.value sheets later = cell.value sheets now := by
  cases cell with
  | formula e rows => exact Formula.value_congr hplain h
  | _ => rfl

/-- **What a cell looks at on its grid it has declared**, if its landings are
declared. -/
theorem reads_of_mem_accesses {grid : Grid}
    (hlands : ∀ landing ∈ cell.landings sheets now, landing.IsDeclared grid) {access : Access}
    (haccess : access ∈ cell.accesses sheets now) (hmem : access.target ∈ grid) :
    cell.Reads access.target := by
  cases cell with
  | formula e rows =>
      have hamong := Formula.isAmong_of_mem_accesses haccess
      refine Cell.reads_formula.2 ?_
      cases access with
      | named ref => exact .inl hamong
      | landed ref =>
          have hlanding : ⟨rows, ref⟩ ∈ (formula e rows).landings sheets now :=
            List.mem_filterMap.2 ⟨.landed ref, haccess, rfl⟩
          exact .inr ⟨hamong, hlands _ hlanding hmem⟩
  | _ => cases haccess

end Cell

namespace Grid

/-- The names of sheets in all formulas stand for themselves. -/
def IsPlain (grid : Grid) : Prop :=
  ∀ (ref : CellRef) (cell : Cell), grid[ref]? = some cell → cell.isPlain = true

/-- The landings while cells are worked out in the given order. -/
def landingsOfCells (grid : Grid) (sheets : Sheets) : List CellRef → Values → List Landing
  | [], _ => []
  | ref :: rest, values =>
    match grid[ref]? with
    | none => landingsOfCells grid sheets rest values
    | some cell =>
      cell.landings sheets values ++
        match cell.value sheets values with
        | .ok v => landingsOfCells grid sheets rest (values.insert ref v)
        | .error _ => []

/-- The landings of an evaluation. -/
def landings (grid : Grid) (sheets : Sheets) (values : Values) : List Landing :=
  match grid.evaluationOrder with
  | .ok order => grid.landingsOfCells sheets order values
  | .error _ => []

/-- An evaluation in which each reference that computes its row lands on a
declared row or off the grid. -/
def LandsDeclared (grid : Grid) (sheets : Sheets) (values : Values) : Prop :=
  ∀ landing ∈ grid.landings sheets values, landing.IsDeclared grid

instance (grid : Grid) (sheets : Sheets) (values : Values) :
    Decidable (grid.LandsDeclared sheets values) :=
  inferInstanceAs (Decidable (∀ landing ∈ _, _))

/-- Values that solve a grid: those off the grid are given, and each cell shows
what it comes to against all of them. -/
structure IsSolution (grid : Grid) (sheets : Sheets) (values solution : Values) : Prop where
  outside : ∀ ref, ref ∉ grid → solution[ref]? = values[ref]?
  shown : ∀ (ref : CellRef) (cell : Cell), grid[ref]? = some cell →
    ∃ v, cell.value sheets solution = .ok v ∧ solution[ref]? = some v

variable {grid : Grid} {sheets : Sheets} {values now final : Values} {guess : CellRef → Value}

/-! ## One cell after the other -/

/-- How a step of a successful evaluation goes on. -/
theorem evaluateCells_cons {ref : CellRef} {rest : List CellRef} {cell : Cell}
    (hcell : grid[ref]? = some cell)
    (h : grid.evaluateCells sheets (ref :: rest) now = ⟨final, none⟩) :
    ∃ v, cell.value sheets now = .ok v ∧
      grid.evaluateCells sheets rest (now.insert ref v) = ⟨final, none⟩ := by
  rw [evaluateCells, hcell] at h
  cases hvalue : cell.value sheets now with
  | error fault =>
      simp only [hvalue, Evaluation.mk.injEq, reduceCtorEq, and_false] at h
  | ok v =>
      simp only [hvalue] at h
      exact ⟨v, rfl, h⟩

/-- Only the cells that are worked out are written. -/
theorem getElem?_of_evaluateCells {order : List CellRef}
    (h : grid.evaluateCells sheets order now = ⟨final, none⟩) {ref : CellRef}
    (href : ref ∉ order) : final[ref]? = now[ref]? := by
  induction order generalizing now with
  | nil =>
      cases h
      rfl
  | cons first rest ih =>
      rw [List.mem_cons, not_or] at href
      cases hcell : grid[first]? with
      | none =>
          rw [evaluateCells, hcell] at h
          exact ih h href.2
      | some cell =>
          obtain ⟨v, _, h⟩ := evaluateCells_cons hcell h
          rw [ih h href.2, CellRef.getElem?_insert, if_neg (Ne.symm href.1)]

/-- A cell shows in `final` what it comes to against all values that show the
same where it reads, and off the grid. -/
def Confirms (grid : Grid) (sheets : Sheets) (final : Values) (ref : CellRef) (cell : Cell) :
    Prop :=
  ∃ v, final[ref]? = some v ∧ ∀ later : Values,
    (∀ other ∈ grid, cell.Reads other → later.read other = final.read other) →
    (∀ other, other ∉ grid → later[other]? = final[other]?) → cell.value sheets later = .ok v

/-- **What a step writes fits the final values**: nothing that the cell has
looked at is written afterwards. -/
theorem confirms_of_step {order done rest : List CellRef} {ref : CellRef} {cell : Cell} {v : Value}
    (horder : grid.dependencies.IsSchedule order) (heq : order = done ++ ref :: rest)
    (hcell : grid[ref]? = some cell) (hplain : cell.isPlain = true)
    (hlands : ∀ landing ∈ cell.landings sheets now, landing.IsDeclared grid)
    (hvalue : cell.value sheets now = .ok v)
    (hrest : grid.evaluateCells sheets rest (now.insert ref v) = ⟨final, none⟩) :
    grid.Confirms sheets final ref cell := by
  have hnodup := horder.nodup
  rw [heq, List.nodup_append, List.nodup_cons] at hnodup
  obtain ⟨_, ⟨hfresh, _⟩, hdisjoint⟩ := hnodup
  have hkept : ∀ other, other ∉ ref :: rest → final[other]? = now[other]? := by
    intro other hother
    rw [List.mem_cons, not_or] at hother
    rw [getElem?_of_evaluateCells hrest hother.2, CellRef.getElem?_insert,
      if_neg (Ne.symm hother.1)]
  refine ⟨v, ?_, fun later hreads houtside => ?_⟩
  · rw [getElem?_of_evaluateCells hrest hfresh, CellRef.getElem?_insert, if_pos rfl]
  rw [← hvalue]
  refine Cell.value_congr hplain fun access haccess => ?_
  by_cases hmem : access.target ∈ grid
  · have hread := Cell.reads_of_mem_accesses hlands haccess hmem
    have hdone : access.target ∈ done :=
      horder.before done ref rest heq _ (dependsOn_iff.2 ⟨hmem, cell, hcell, hread⟩)
    rw [hreads _ hmem hread, Values.read, Values.read,
      hkept _ fun hlater => hdisjoint _ hdone _ hlater rfl]
  · have hlater : access.target ∉ ref :: rest := fun hlater =>
      hmem (mem_dependencies.1 ((horder.mem_iff _).1 (heq ▸ List.mem_append_right done hlater)))
    rw [Values.read, Values.read, houtside _ hmem, hkept _ hlater]

/-- **Every cell confirms what an evaluation leaves.** -/
theorem confirms_of_evaluateCells (hplain : grid.IsPlain) {order : List CellRef}
    (horder : grid.dependencies.IsSchedule order) :
    ∀ (rest done : List CellRef) (now : Values), order = done ++ rest →
      grid.evaluateCells sheets rest now = ⟨final, none⟩ →
      (∀ landing ∈ grid.landingsOfCells sheets rest now, landing.IsDeclared grid) →
      ∀ ref ∈ rest, ∀ cell, grid[ref]? = some cell → grid.Confirms sheets final ref cell := by
  intro rest
  induction rest with
  | nil => simp
  | cons first rest ih =>
      intro done now heq h hlands ref href cell hcell
      obtain ⟨cell', hcell'⟩ := mem_iff_exists.1 <|
        mem_dependencies.1 ((horder.mem_iff first).1 (by simp [heq]))
      obtain ⟨v, hvalue, h⟩ := evaluateCells_cons hcell' h
      simp only [landingsOfCells, hcell', hvalue, List.mem_append] at hlands
      rcases List.mem_cons.1 href with rfl | href
      · cases hcell'.symm.trans hcell
        exact confirms_of_step horder heq hcell (hplain ref cell hcell)
          (fun landing hlanding => hlands landing (.inl hlanding)) hvalue h
      · exact ih (done ++ [first]) _ (by simp [heq]) h
          (fun landing hlanding => hlands landing (.inr hlanding)) ref href cell hcell

/-! ## The only values that fit -/

theorem Solves.of_outside {start : Values} (h : grid.Solves sheets values guess)
    (hstart : ∀ ref, ref ∉ grid → start[ref]? = values[ref]?) :
    grid.Solves sheets start guess where
  acyclic := h.acyclic
  confirms := fun ref cell hcell now hreads houtside =>
    h.confirms ref cell hcell now hreads fun other hother =>
      (houtside other hother).trans (hstart other hother)

/-- **Only the guess fits**: along a schedule, each cell reads what is settled
before it. -/
theorem Solves.unique (h : grid.Solves sheets values guess) {other : Values}
    (hother : grid.IsSolution sheets values other) {ref : CellRef} (href : ref ∈ grid) :
    other[ref]? = some (guess ref) := by
  obtain ⟨order, _, horder⟩ := DependencyGraph.exists_schedule h.acyclic
  suffices hall : ∀ rest done : List CellRef, order = done ++ rest →
      (∀ ref ∈ done, other[ref]? = some (guess ref)) →
      ∀ ref ∈ order, other[ref]? = some (guess ref) from
    hall order [] rfl (by simp) ref ((horder.mem_iff ref).2 (mem_dependencies.2 href))
  intro rest
  induction rest with
  | nil =>
      intro done heq hdone
      rw [List.append_nil] at heq
      exact heq ▸ hdone
  | cons first rest ih =>
      intro done heq hdone
      refine ih (done ++ [first]) (by simp [heq]) ?_
      have hfirst : other[first]? = some (guess first) := by
        obtain ⟨cell, hcell⟩ := mem_iff_exists.1 <|
          mem_dependencies.1 ((horder.mem_iff first).1 (by simp [heq]))
        obtain ⟨v, hvalue, hshown⟩ := hother.shown first cell hcell
        have hguess := h.confirms first cell hcell other (fun target htarget hreads =>
          Values.read_of_getElem? (hdone target (horder.before done first rest heq target
            (dependsOn_iff.2 ⟨htarget, cell, hcell, hreads⟩)))) hother.outside
        rw [hshown, Except.ok.inj (hvalue.symm.trans hguess)]
      intro ref href
      rcases List.mem_append.1 href with href | href
      · exact hdone ref href
      · rw [List.mem_singleton.1 href, hfirst]

/-- What a successful evaluation leaves is confirmed by every cell. -/
theorem confirms_of_evaluate (hplain : grid.IsPlain) (hlands : grid.LandsDeclared sheets values)
    (h : grid.evaluate sheets values = ⟨final, none⟩) :
    ¬ grid.dependencies.IsCyclic ∧ (∀ ref, ref ∉ grid → final[ref]? = values[ref]?) ∧
      ∀ (ref : CellRef) (cell : Cell), grid[ref]? = some cell →
        grid.Confirms sheets final ref cell := by
  rcases DependencyGraph.order_cases grid.dependencies with
    ⟨order, horder, hschedule⟩ | ⟨path, hpath, _⟩
  · rw [evaluate, evaluateBy, horder] at h
    rw [LandsDeclared, landings, evaluationOrder, horder] at hlands
    have hmem : ∀ ref, ref ∈ order ↔ ref ∈ grid := fun ref =>
      (hschedule.mem_iff ref).trans mem_dependencies
    refine ⟨hschedule.not_isCyclic, fun ref href => ?_, fun ref cell hcell => ?_⟩
    · exact getElem?_of_evaluateCells h fun hplaced => href ((hmem ref).1 hplaced)
    · exact confirms_of_evaluateCells hplain hschedule order [] values rfl h hlands ref
        ((hmem ref).2 (mem_iff_exists.2 ⟨cell, hcell⟩)) cell hcell
  · rw [evaluate, evaluateBy, hpath] at h
    cases h

theorem solves_of_confirms (hacyclic : ¬ grid.dependencies.IsCyclic)
    (hconfirms : ∀ (ref : CellRef) (cell : Cell), grid[ref]? = some cell →
      grid.Confirms sheets final ref cell) : grid.Solves sheets final final.read where
  acyclic := hacyclic
  confirms := by
    intro ref cell hcell now hreads houtside
    obtain ⟨v, hshown, hvalue⟩ := hconfirms ref cell hcell
    rw [Values.read_of_getElem? hshown]
    exact hvalue now hreads houtside

/-- **An evaluation finds the only values that fit.** If it succeeds and its
computed rows are declared, or off the grid, then the values that it leaves
solve the grid and no others do. Whatever the grid's addresses held before, an
evaluation comes to these values, and so does any other schedule. -/
theorem evaluate_solves (grid : Grid) (sheets : Sheets) (values final : Values)
    (hplain : grid.IsPlain) (hlands : grid.LandsDeclared sheets values)
    (h : grid.evaluate sheets values = ⟨final, none⟩) :
    grid.IsSolution sheets values final ∧
      (∀ other, grid.IsSolution sheets values other → ∀ ref : CellRef, other[ref]? = final[ref]?) ∧
      ∀ start : Values, (∀ ref, ref ∉ grid → start[ref]? = values[ref]?) →
        (∃ again, grid.evaluate sheets start = ⟨again, none⟩ ∧
          ∀ ref : CellRef, again[ref]? = final[ref]?) ∧
        ∀ order, grid.dependencies.IsSchedule order →
          ∃ again, grid.evaluateCells sheets order start = ⟨again, none⟩ ∧
            ∀ ref : CellRef, again[ref]? = final[ref]? := by
  obtain ⟨hacyclic, houtside, hconfirms⟩ := confirms_of_evaluate hplain hlands h
  have hsolves : ∀ start : Values, (∀ ref, ref ∉ grid → start[ref]? = values[ref]?) →
      grid.Solves sheets start final.read := fun start hstart =>
    (solves_of_confirms hacyclic hconfirms).of_outside fun ref href =>
      (hstart ref href).trans (houtside ref href).symm
  have hshown : ∀ ref ∈ grid, final[ref]? = some (final.read ref) := by
    intro ref href
    obtain ⟨cell, hcell⟩ := mem_iff_exists.1 href
    obtain ⟨v, hv, _⟩ := hconfirms ref cell hcell
    rw [hv, Values.read_of_getElem? hv]
  -- values that show the guess on the grid and the given values off it are the final ones
  have hsame : ∀ other : Values, (∀ ref ∈ grid, other[ref]? = some (final.read ref)) →
      (∀ ref, ref ∉ grid → other[ref]? = values[ref]?) →
        ∀ ref : CellRef, other[ref]? = final[ref]? := by
    intro other hgrid hoff ref
    by_cases href : ref ∈ grid
    · rw [hgrid ref href, hshown ref href]
    · rw [hoff ref href, houtside ref href]
  refine ⟨⟨houtside, fun ref cell hcell => ?_⟩, fun other hother => ?_,
    fun start hstart => ⟨?_, ?_⟩⟩
  · obtain ⟨v, hv, hvalue⟩ := hconfirms ref cell hcell
    exact ⟨v, hvalue final (fun _ _ _ => rfl) (fun _ _ => rfl), hv⟩
  · exact hsame other (fun ref => (hsolves values fun _ _ => rfl).unique hother) hother.outside
  · obtain ⟨again, hagain, hgrid, hoff⟩ := (hsolves start hstart).evaluate
    exact ⟨again, hagain, hsame again hgrid fun ref href => (hoff ref href).trans (hstart ref href)⟩
  · intro order horder
    obtain ⟨again, hagain, hshows⟩ := (hsolves start hstart).evaluateCells horder order [] start rfl
      ⟨by simp, fun _ _ => rfl⟩
    refine ⟨again, hagain, hsame again (fun ref href => ?_) fun ref href =>
      (hshows.outside ref href).trans (hstart ref href)⟩
    exact hshows.shown ref ((horder.mem_iff ref).2 (mem_dependencies.2 href))

/-- The cells of a grid in which `A2` reads the row of column `B` that `A1`
says. -/
def lookUpCells : List (CellRef × Cell) :=
  [(⟨0, 0⟩, .number 2), (⟨0, 1⟩, .formula (.indirect 1 (.cell ⟨0, 0⟩ .relative)) ⟨0, 3⟩),
    (⟨1, 1⟩, .text "x")]

/-- Old entries on the grid and off it. -/
def staleValues : Values :=
  (Std.TreeMap.empty.insert (⟨1, 1⟩ : CellRef) (Value.int 7)).insert ⟨1, 2⟩ (.int 8)

theorem isPlain_lookUp : (ofCells lookUpCells).IsPlain := by
  intro ref cell hcell
  have hall : ∀ entry ∈ lookUpCells, entry.2.isPlain = true := by decide
  exact hall _ (CellRef.mem_of_getElem?_ofList hcell)

theorem evaluate_eq_of_isNone {grid : Grid} {sheets : Sheets} {values : Values}
    (h : (grid.evaluate sheets values).failure.isNone = true) :
    grid.evaluate sheets values = ⟨(grid.evaluate sheets values).values, none⟩ := by
  rw [← Option.isNone_iff_eq_none.1 h]

/-- The computed row is read, not the old entry. -/
theorem evaluate_solves_lookUp :
    (((ofCells lookUpCells).evaluate [] staleValues).values.read ⟨0, 1⟩).shown = "x" ∧
    (ofCells lookUpCells).IsSolution [] staleValues
      ((ofCells lookUpCells).evaluate [] staleValues).values :=
  ⟨by decide +kernel, (evaluate_solves _ [] staleValues _ isPlain_lookUp (by decide +kernel)
    (evaluate_eq_of_isNone (by decide +kernel))).1⟩

/-- A formula whose sheet has a name that ends the text that it stands in, so
that `A2` is read undeclared. -/
def quotedName : Formula := .index
  ⟨"\", 0, 0, 0, 1) + VALUE(0, 1) + INDEX(\"", 0, 0, 0⟩ (.int 1)

/-- The cells of a grid in which `A1` reads `A2` by such a name. -/
def quotedNameCells : List (CellRef × Cell) :=
  [(⟨0, 0⟩, .formula quotedName ⟨0, 0⟩), (⟨0, 1⟩, .text "x")]

/-- **Names that do not stand for themselves are not covered**: the evaluation
succeeds and lands nowhere, but `A1` is worked out before `A2` and does not fit
what comes after. -/
theorem evaluate_misses_quotedName :
    ¬ ∀ (grid : Grid) (sheets : Sheets) (values final : Values),
      grid.LandsDeclared sheets values → grid.evaluate sheets values = ⟨final, none⟩ →
        grid.IsSolution sheets values final := by
  intro hall
  have hsolution := hall (ofCells quotedNameCells) [] ∅ _ (by decide +kernel)
    (evaluate_eq_of_isNone (by decide +kernel))
  have hcell : (ofCells quotedNameCells)[(⟨0, 0⟩ : CellRef)]? =
      some (.formula quotedName ⟨0, 0⟩) := CellRef.getElem?_ofList quotedNameCells _
  obtain ⟨v, hvalue, hshown⟩ := hsolution.shown _ _ hcell
  have hafter : ((Cell.formula quotedName ⟨0, 0⟩).value []
      ((ofCells quotedNameCells).evaluate [] ∅).values).toOption.map Value.shown = some "x" := by
    decide +kernel
  have hbefore : (((ofCells quotedNameCells).evaluate [] ∅).values[(⟨0, 0⟩ : CellRef)]?).map
      Value.shown = some "" := by
    decide +kernel
  rw [hvalue] at hafter
  rw [hshown] at hbefore
  exact absurd (hafter.symm.trans hbefore) (by decide)

end Grid

end SheetCipher
