import SheetCipher.Proofs.Layout.Run

/-!
# Compile — what comes out of a compilation

A compilation fails for its capacity, then for its spec, and for nothing else.
The grids that come out fill every row of their seven columns, and each cell
feeds the result: through its row to the last column, and down that column to
the last row. So an order of the cells always ends with the result.
-/

namespace SheetCipher

open Relation

namespace GridPlan

variable {plan : GridPlan}

/-! ## How many cells there are -/

/-- The columns stand side by side from column A on. -/
theorem addresses_columns (plan : GridPlan) (row : Nat) :
    (plan.columns.map fun column => (⟨column.col, row⟩ : CellRef)) =
      (List.range plan.kinds.length).map fun col => ⟨col, row⟩ := by
  refine List.ext_getElem (by simp [columns]) fun col _ _ => ?_
  simp [columns]

theorem addresses_eq (plan : GridPlan) : plan.cells.map Prod.fst =
    (plan.rows.rows.flatMap fun row =>
      (List.range plan.kinds.length).map fun col => ⟨col, row⟩) ++ [plan.result] := by
  simp only [cells, List.map_append, List.map_flatMap, List.map_map, Function.comp_def,
    addresses_columns, List.map_cons, List.map_nil]

theorem IsUsable.nodup_addresses (h : plan.IsUsable) : (plan.cells.map Prod.fst).Nodup := by
  rw [addresses_eq, List.nodup_append]
  refine ⟨List.nodup_flatMap.2 ⟨fun row _ => ?_, ?_⟩, List.nodup_singleton _, ?_⟩
  · exact List.nodup_range.map fun _ _ heq => (CellRef.mk.inj heq).1
  · -- two rows have no address in common
    have hrows : plan.rows.rows.Nodup := List.nodup_range'
    refine hrows.imp fun hne => ?_
    simp only [Function.onFun, List.disjoint_left, List.mem_map, not_exists, not_and]
    rintro _ ⟨col, _, rfl⟩ col' _ heq
    exact hne (CellRef.mk.inj heq).2.symm
  · intro ref href other hother heq
    obtain ⟨row, hrow, hcol⟩ := List.mem_flatMap.1 href
    obtain ⟨col, _, rfl⟩ := List.mem_map.1 hcol
    have hstart : plan.originRow ≤ row := (RowRange.mem_rows.1 hrow).1
    refine h.ne_result col (row - plan.originRow) ?_
    rw [Nat.add_sub_cancel' hstart, heq, List.mem_singleton.1 hother]

theorem IsUsable.size_grid (h : plan.IsUsable) : plan.grid.size = 7 * plan.capacity + 1 := by
  have hlength : plan.cells.length = (plan.cells.map Prod.fst).length := by
    rw [List.length_map]
  rw [grid, Grid.size_ofCells h.nodup_addresses, hlength, addresses_eq]
  simp [h.length_kinds, rows, RowRange.rows, Nat.mul_comm]

/-! ## Every cell feeds the result -/

/-- In each row every column but the first reads the one on its left. -/
theorem reads_left {col i : Nat} (hi : i < plan.capacity) {kind : StageKind}
    (hkind : plan.kinds[col + 1]? = some kind) :
    (plan.cell ⟨col + 1, kind⟩ (plan.originRow + i)).Reads ⟨col, plan.originRow + i⟩ := by
  rcases kinds_cases hkind with
    ⟨hcol, _⟩ | ⟨hcol, rfl⟩ | ⟨k, stage, _, hcol, rfl⟩ | ⟨_, rfl⟩
  · cases hcol
  · obtain rfl : col = 0 := by omega
    exact Cell.reads_formula.2 (.inl (Formula.mem_cells_explode.2 (.inr rfl)))
  · obtain ⟨op, direction⟩ := stage
    show (plan.formulaCell (plan.operationFormula op direction col _)).Reads _
    have hbefore : (⟨col, plan.originRow + i⟩ : CellRef) ∈
        (Formula.cell ⟨col, plan.originRow + i⟩ .relative).cells := List.mem_singleton_self _
    cases op with
    | substitute | xor =>
        exact Cell.reads_formula.2 (.inl (Formula.mem_cells_rotated.2 (.inl hbefore)))
    | reverse =>
        -- a reversal may read any row, so its own row too
        exact Cell.reads_formula.2 (.inr ⟨List.mem_singleton_self _, Nat.le_add_right _ _,
          Nat.add_lt_add_left hi _⟩)
    | map => exact Cell.reads_formula.2 (.inl (Formula.mem_cells_mapped.2 hbefore))
  · have hmem : ∀ before : List CellRef, (⟨col, plan.originRow + i⟩ : CellRef) ∈
        before ++ [⟨col, plan.originRow + i⟩] := fun before => by simp
    simp only [GridPlan.cell]
    split
    · exact Cell.reads_formula.2 (.inl (hmem []))
    · exact Cell.reads_formula.2 (.inl (hmem [_]))

/-- Below the first row the last column reads the row above. -/
theorem reads_above (plan : GridPlan) (col i : Nat) :
    (plan.cell ⟨col, .fold⟩ (plan.originRow + (i + 1))).Reads ⟨col, plan.originRow + i⟩ := by
  have hrow : plan.originRow + (i + 1) ≠ plan.originRow := by omega
  simp only [GridPlan.cell, if_neg hrow]
  exact Cell.reads_formula.2 (.inl (List.mem_cons_self ..))

section

variable (h : plan.IsUsable)
include h

theorem dependsOn_of_reads {ref other : CellRef} {cell : Cell} (hcell : (ref, cell) ∈ plan.cells)
    (hreads : cell.Reads other) (hother : plan.Covers other) :
    plan.grid.dependencies.DependsOn ref other :=
  Grid.dependsOn_iff.2 ⟨(mem_grid h).2 hother, cell, (getElem?_grid h).2 hcell, hreads⟩

/-- A cell of the last column waits for all of its row. -/
theorem dependsOn_row {col i : Nat} (hcol : col < 6) (hi : i < plan.capacity) :
    TransGen plan.grid.dependencies.DependsOn ⟨6, plan.originRow + i⟩
      ⟨col, plan.originRow + i⟩ := by
  have hkinds := h.length_kinds
  have hleft : ∀ col, col < 6 → plan.grid.dependencies.DependsOn
      ⟨col + 1, plan.originRow + i⟩ ⟨col, plan.originRow + i⟩ := by
    intro col hcol
    have hkind := List.getElem?_eq_getElem (l := plan.kinds) (i := col + 1) (by omega)
    exact dependsOn_of_reads h (mem_cells.2 (.inl ⟨_, _, i, hkind, hi, rfl, rfl⟩))
      (reads_left hi hkind) (covers_of_lt col i (by omega) hi)
  -- from the last column to the left
  refine Nat.decreasingInduction' (P := fun col => col < 6 → TransGen
    plan.grid.dependencies.DependsOn ⟨6, plan.originRow + i⟩ ⟨col, plan.originRow + i⟩)
    (m := col) (n := 5) ?_ (by omega) (fun _ => .single (hleft 5 (by omega))) hcol
  intro k hk _ ih hlt
  exact (ih (by omega)).tail (hleft k (by omega))

/-- The last cell of the last column waits for all of that column. -/
theorem dependsOn_column {i j : Nat} (hij : i < j) (hj : j < plan.capacity) :
    TransGen plan.grid.dependencies.DependsOn ⟨6, plan.originRow + j⟩ ⟨6, plan.originRow + i⟩ := by
  have hkinds := h.length_kinds
  have hfold := plan.kinds_getElem?_fold
  rw [h.length_stages] at hfold
  have habove : ∀ i, i + 1 < plan.capacity → plan.grid.dependencies.DependsOn
      ⟨6, plan.originRow + (i + 1)⟩ ⟨6, plan.originRow + i⟩ := fun i hi =>
    dependsOn_of_reads h (mem_cells.2 (.inl ⟨_, _, i + 1, hfold, hi, rfl, rfl⟩))
      (plan.reads_above 6 i) (covers_of_lt 6 i (by omega) (by omega))
  induction j with
  | zero => omega
  | succ j ih =>
      rcases Nat.lt_or_eq_of_le (Nat.le_of_lt_succ hij) with hlt | rfl
      · exact .head (habove j hj) (ih hlt (by omega))
      · exact .single (habove i hj)

/-- **Every cell feeds the result.** -/
theorem result_dependsOn {ref : CellRef} (href : plan.Covers ref) (hne : ref ≠ plan.result) :
    TransGen plan.grid.dependencies.DependsOn plan.result ref := by
  have hpos := h.pos
  have hkinds := h.length_kinds
  have houtput : plan.output = ⟨6, plan.originRow + (plan.capacity - 1)⟩ := by
    rw [output, hkinds, Nat.add_sub_assoc hpos]
  have hlast : plan.grid.dependencies.DependsOn plan.result
      ⟨6, plan.originRow + (plan.capacity - 1)⟩ := by
    refine dependsOn_of_reads h (mem_cells.2 (.inr ⟨rfl, rfl⟩)) ?_
      (covers_of_lt 6 _ (by omega) (by omega))
    rw [houtput]
    exact Cell.reads_formula.2 (.inl (List.mem_singleton_self _))
  have hbottom : ∀ i, i < plan.capacity →
      TransGen plan.grid.dependencies.DependsOn plan.result ⟨6, plan.originRow + i⟩ := by
    intro i hi
    rcases Nat.lt_or_eq_of_le (Nat.le_sub_one_of_lt hi) with hlt | rfl
    · exact .head hlast (dependsOn_column h hlt (by omega))
    · exact .single hlast
  rcases href with rfl | ⟨hcol, hstart, hstop⟩
  · exact absurd rfl hne
  · obtain ⟨col, row⟩ := ref
    simp only [rows] at hcol hstart hstop
    obtain ⟨i, rfl⟩ := Nat.exists_eq_add_of_le hstart
    by_cases hfold : col = 6
    · subst hfold
      exact hbottom i (by omega)
    · exact (hbottom i (by omega)).trans (dependsOn_row h (by omega) (by omega))

end

end GridPlan

/-! ## Complete grids -/

/-- A grid that fills the rows of its seven columns and ends in its result. -/
structure CompiledGrid.IsComplete (grid : CompiledGrid) : Prop where
  size : grid.cells.size = 7 * grid.plan.capacity + 1
  mem_iff : ∀ ref, ref ∈ grid.cells ↔
    (ref.col ≤ 6 ∧ grid.plan.rows.Holds ref.row) ∨ ref = grid.plan.result
  order : ∃ order, grid.cells.evaluationOrder = .ok order ∧ order.Nodup ∧
    (∀ ref, ref ∈ order ↔ ref ∈ grid.cells) ∧ order.getLast? = some grid.plan.result
  feeds : ∀ ref ∈ grid.cells, ref ≠ grid.plan.result →
    TransGen grid.cells.dependencies.DependsOn grid.plan.result ref

theorem GridPlan.IsUsable.isComplete {plan : GridPlan} (h : plan.IsUsable) :
    CompiledGrid.IsComplete ⟨plan, plan.grid⟩ where
  size := h.size_grid
  mem_iff := by
    intro ref
    have hkinds := h.length_kinds
    rw [mem_grid h, Covers, or_comm, hkinds, Nat.lt_succ_iff]
  order := by
    obtain ⟨order, horder, hschedule⟩ :=
      DependencyGraph.exists_schedule (not_isCyclic_grid h)
    have hresult : plan.result ∈ plan.grid.dependencies :=
      Grid.mem_dependencies.2 ((mem_grid h).2 (.inl rfl))
    refine ⟨order, horder, hschedule.nodup, fun ref => ?_, hschedule.getLast?_eq hresult ?_⟩
    · rw [hschedule.mem_iff, Grid.mem_dependencies]
    · intro ref href hne
      exact result_dependsOn h ((mem_grid h).1 (Grid.mem_dependencies.1 href)) hne
  feeds := fun ref href hne => result_dependsOn h ((mem_grid h).1 href) hne

namespace Spec

/-- **A compilation fails for its capacity, then for its spec, and for nothing
else.** No cell ever depends on itself, and the grids that come out are
complete. -/
theorem compile_outcome (spec : Spec) (capacity : Nat) :
    (∀ requested, spec.compile capacity = .error (.capacity requested) ↔
      requested = capacity ∧ ¬ (1 ≤ capacity ∧ capacity ≤ maxCapacity)) ∧
    (∀ error, spec.compile capacity = .error (.template error) ↔
      (1 ≤ capacity ∧ capacity ≤ maxCapacity) ∧ spec.validate = .error error) ∧
    (∀ path, spec.compile capacity ≠ .error (.circular path)) ∧
    ((∃ template, spec.compile capacity = .ok template) ↔
      (1 ≤ capacity ∧ capacity ≤ maxCapacity) ∧ spec.validate = .ok ()) ∧
    ∀ template mode, spec.compile capacity = .ok template →
      (template.grid mode).plan = GridPlan.ofSpec spec capacity mode ∧
        (template.grid mode).IsComplete := by
  by_cases hcapacity : 1 ≤ capacity ∧ capacity ≤ maxCapacity
  · cases hvalidate : spec.validate with
    | error error =>
        have hcompile : spec.compile capacity = .error (.template error) := by
          rw [compile, if_pos hcapacity, hvalidate]
          rfl
        simp [hcompile, hcapacity, eq_comm]
    | ok _ =>
        have hspec := validate_eq_ok_iff.1 hvalidate
        obtain ⟨rows, _, hcompile⟩ := compile_eq_ok hspec hcapacity
        simp only [hcompile, hcapacity]
        refine ⟨by simp, by simp, by simp, by simp, ?_⟩
        rintro _ mode ⟨⟩
        rw [template_grid]
        exact ⟨rfl, (GridPlan.isUsable_ofSpec hspec hcapacity mode).isComplete⟩
  · have hcompile : spec.compile capacity = .error (.capacity capacity) := by
      rw [compile, if_neg hcapacity]
    simp [hcompile, hcapacity, eq_comm]

/-- The largest capacity, and one more. -/
theorem compile_outcome_affine : affine.compile 4097 = .error (.capacity 4097) ∧
    ∃ template, affine.compile 4096 = .ok template ∧
      ∀ mode, (template.grid mode).IsComplete ∧ (template.grid mode).cells.size = 28673 := by
  obtain ⟨htooLarge, _⟩ := compile_outcome affine 4097
  obtain ⟨_, _, _, hok, hcomplete⟩ := compile_outcome affine 4096
  obtain ⟨template, htemplate⟩ := hok.2 ⟨by decide, validate_affine⟩
  refine ⟨(htooLarge 4097).2 ⟨rfl, by decide⟩, template, htemplate, fun mode => ?_⟩
  obtain ⟨hplan, hgrid⟩ := hcomplete template mode htemplate
  refine ⟨hgrid, ?_⟩
  rw [hgrid.size, hplan, GridPlan.ofSpec_capacity]

end Spec

end SheetCipher
