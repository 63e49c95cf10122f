import SheetCipher.Proofs.Eval.Grid
import SheetCipher.Proofs.Layout.Plan
import SheetCipher.Proofs.Layout.StageFormula

/-!
# Cell — each cell of a plan does its part

A cell comes to its guess once the cells that it reads show theirs
(`cell_value`), and what it reads has been typed or is of a lower rank
(`reads_lower`), so that no cell waits for itself. Both are said of the cells of
a plan alone: they hold on any sheet on which the plan stands.
-/

namespace SheetCipher

namespace GridPlan

variable {plan : GridPlan} {password text : String}

/-! ## Each cell comes to its guess -/

/-- What the formulas of a plan find outside the plan: what has been typed, and
the sheet of the letter map. -/
structure Finds (plan : GridPlan) (sheets : Sheets) (password text : String) (now : Values) :
    Prop where
  input : now.read (InputCell.ofMode plan.mode) = .text text
  password : now.read InputCell.password = .text password
  keyMap : ∃ others, sheets.find? KeyMap.sheetName = some others ∧
    KeyMap.Shows others plan.spec.mapping

/-- What a cell of the plan reads in the plan shows what it is expected to. -/
def ReadsGuess (plan : GridPlan) (password text : String) (now : Values) (cell : Cell) : Prop :=
  ∀ other, plan.Covers other → cell.Reads other → now.read other = plan.guess password text other

variable {sheets : Sheets} {now : Values} {e : Formula}

theorem ReadsGuess.of_cells (h : plan.ReadsGuess password text now (plan.formulaCell e))
    (ref : CellRef) (hcovers : plan.Covers ref) (href : ref ∈ e.cells) :
    now.read ref = plan.guess password text ref :=
  h ref hcovers (Cell.reads_formula.2 (.inl href))

theorem ReadsGuess.isRowOf (h : plan.ReadsGuess password text now (plan.formulaCell e))
    (hplan : plan.IsUsable) {i : Nat} (hi : i < plan.capacity)
    (he : (⟨0, plan.originRow + i⟩ : CellRef) ∈ e.cells) :
    Formula.IsRowOf now (plan.originRow + i) i := by
  have hlength := hplan.length_kinds
  refine ⟨?_, Nat.le_add_left _ _, hplan.row_lt hi⟩
  rw [h.of_cells _ (covers_of_lt 0 i (by omega) hi) he, guess_index hplan]

/-- A formula finds the guess at each cell of the plan that it names. -/
theorem ReadsGuess.meaning_cell (sheets : Sheets)
    (h : plan.ReadsGuess password text now (plan.formulaCell e)) (hplan : plan.IsUsable)
    (col i : Nat) (hcol : col ≤ 6) (hi : i < plan.capacity)
    (he : (⟨col, plan.originRow + i⟩ : CellRef) ∈ e.cells) :
    (Formula.cell ⟨col, plan.originRow + i⟩ .relative).meaning sheets now =
      .ok (plan.guess password text ⟨col, plan.originRow + i⟩) := by
  have hlength := hplan.length_kinds
  have hcolumn : col < 0x100000000 := by omega
  rw [Formula.meaning_cell (Word.le_largest hcolumn) (Word.le_largest (hplan.row_lt hi)),
    h.of_cells _ (covers_of_lt col i (by omega) hi) he]

/-- The character before, as the formula of an operation finds it. -/
theorem ReadsGuess.isText_before (sheets : Sheets)
    (h : plan.ReadsGuess password text now (plan.formulaCell e))
    (hplan : plan.IsUsable) {k i : Nat} {t : List Char} (hk : k ≤ 4) (hi : i < plan.capacity)
    (ht : (plan.texts password text)[k]? = some t)
    (he : (⟨k + 1, plan.originRow + i⟩ : CellRef) ∈ e.cells) :
    Formula.IsText sheets now (.cell ⟨k + 1, plan.originRow + i⟩ .relative) t[i]?.toList := by
  rw [Formula.IsText, h.meaning_cell sheets hplan _ _ (by omega) hi he, guess_text hplan i ht]
  rfl

theorem operationFormula_of_isKeyed {op : Operation} (hop : op.isKeyed = true)
    (direction : Direction) (col row : Nat) :
    plan.operationFormula op direction col row =
      .rotated direction (plan.spec.shiftOf op) row (.cell ⟨col, row⟩ .relative) := by
  cases op with
  | substitute | xor => rfl
  | reverse | map => cases hop

/-- **The formula of an operation does to a character what the operation does
to the text.** -/
theorem operationFormula_value (hplan : plan.IsUsable)
    (hfinds : plan.Finds sheets password text now) {k i : Nat} {op : Operation}
    {direction : Direction} {t : List Char} (hk : k < 4) (hi : i < plan.capacity)
    (ht : (plan.texts password text)[k]? = some t)
    (h : plan.ReadsGuess password text now
      (plan.formulaCell (plan.operationFormula op direction (k + 1) (plan.originRow + i)))) :
    (plan.operationFormula op direction (k + 1) (plan.originRow + i)).value sheets now =
      .ok (.ofChar? (op.effect direction plan.spec (.ofPassword password) t)[i]?) := by
  have hkeyed : op.isKeyed = true →
      (plan.operationFormula op direction (k + 1) (plan.originRow + i)).value sheets now =
        .ok (.ofChar? (op.effect direction plan.spec (.ofPassword password) t)[i]?) := by
    intro hop
    rw [operationFormula_of_isKeyed hop] at h ⊢
    have hcells : ∀ ref, ref = ⟨k + 1, plan.originRow + i⟩ ∨ ref = ⟨0, plan.originRow + i⟩ →
        ref ∈ (Formula.rotated direction (plan.spec.shiftOf op) (plan.originRow + i)
          (.cell ⟨k + 1, plan.originRow + i⟩ .relative)).cells := by
      rintro ref (rfl | rfl)
      · exact Formula.mem_cells_rotated.2 (.inl (List.mem_singleton_self _))
      · exact Formula.mem_cells_rotated.2 (.inr (.inl rfl))
    have hbefore := h.isText_before sheets hplan (by omega) hi ht (hcells _ (.inl rfl))
    have hrow := h.isRowOf hplan hi (hcells _ (.inr rfl))
    have hrotated := hbefore.rotated hrow hfinds.password
      (hplan.reversible.shiftOf_bounds op) direction
    rw [(Formula.isReadable_rotated _ _ _ _ _).value_of_isText hrotated,
      Operation.effect_of_isKeyed hop, List.getElem?_mapIdx]
    rfl
  cases op with
  | substitute => exact hkeyed rfl
  | xor => exact hkeyed rfl
  | reverse =>
      have hrow := h.isRowOf hplan hi (Formula.mem_cells_turned.2 (.inr rfl))
      have hlength := length_of_texts ht
      have hcut := List.length_take_le plan.capacity text.toList
      have hkinds := hplan.length_kinds
      have hbefore : ∀ j, j < t.length →
          now.read ⟨k + 1, plan.originRow + j⟩ = .text (String.ofList t[j]?.toList) := by
        intro j hj
        have hheld : plan.rows.Holds (plan.originRow + j) :=
          ⟨Nat.le_add_right _ _, Nat.add_lt_add_left (by omega) _⟩
        have hread := h _ (covers_of_lt (k + 1) j (by omega) (by omega))
          (Cell.reads_formula.2 (.inr ⟨List.mem_singleton_self _, hheld⟩))
        rw [hread, guess_text hplan j ht]
        rfl
      have hturned := Formula.isText_turned sheets plan.originRow (k + 1) hlength hrow
        hfinds.input hplan.capacity_lt (hplan.row_lt hplan.pos) (by omega) hbefore
      exact (Formula.isReadable_turned _ _ _ _ _).value_of_isText hturned
  | map =>
      obtain ⟨others, hsheet, hshows⟩ := hfinds.keyMap
      have hbefore := h.isText_before sheets hplan (by omega) hi ht
        (Formula.mem_cells_mapped.2 (List.mem_singleton_self _))
      have hmapped := hbefore.mapped hsheet hshows direction
      rw [Operation.effect, List.getElem?_map]
      exact (Formula.isReadable_mapped _ _ _).value_of_isText hmapped

theorem foldFormula_value (hplan : plan.IsUsable) {i : Nat} (hi : i < plan.capacity)
    (h : plan.ReadsGuess password text now
      (plan.cell ⟨(plan.spec.stages plan.mode).length + 2, .fold⟩ (plan.originRow + i))) :
    (plan.cell ⟨(plan.spec.stages plan.mode).length + 2, .fold⟩ (plan.originRow + i)).value sheets
      now = .ok (.text (String.ofList ((plan.outcome password text).take (i + 1)))) := by
  have hlength := hplan.length_stages
  have hkinds := hplan.length_kinds
  have hlast : (plan.texts password text)[4]? = some (plan.outcome password text) := by
    rw [← texts_getElem?_last plan password text, hlength]
  rw [hlength] at h ⊢
  -- the first row starts the result, the others add to the row above
  cases i with
  | zero =>
      have hcell : plan.cell ⟨4 + 2, .fold⟩ (plan.originRow + 0) =
          plan.formulaCell (.cell ⟨4 + 1, plan.originRow + 0⟩ .relative) := if_pos rfl
      rw [hcell] at h ⊢
      have hbefore := h.isText_before sheets (k := 4) hplan (by omega) hi hlast
        (List.mem_singleton_self _)
      rw [List.take_add_one, List.take_zero, List.nil_append]
      exact (Formula.isReadable_cell _ _).value_of_isText hbefore
  | succ i =>
      have hcell : plan.cell ⟨4 + 2, .fold⟩ (plan.originRow + (i + 1)) = plan.formulaCell
          (.joined (.cell ⟨4 + 2, plan.originRow + i⟩ .relative)
            (.cell ⟨4 + 1, plan.originRow + (i + 1)⟩ .relative)) :=
        if_neg (by omega)
      rw [hcell] at h ⊢
      have hbefore := h.isText_before sheets (k := 4) hplan (by omega) hi hlast
        (List.mem_cons_of_mem _ (List.mem_singleton_self _))
      have habove : Formula.IsText sheets now (.cell ⟨4 + 2, plan.originRow + i⟩ .relative)
          ((plan.outcome password text).take (i + 1)) := by
        have hfold := guess_fold hplan password text i
        rw [hlength] at hfold
        rw [Formula.IsText, h.meaning_cell sheets hplan _ _ (by omega) (by omega)
          (List.mem_cons_self ..), hfold]
      have hjoined := habove.joined hbefore
      rw [List.take_add_one]
      exact (Formula.isReadable_joined _ _ _).value_of_isText hjoined

/-- **Each cell comes to its guess** once the cells that it reads show
theirs. -/
theorem cell_value (hplan : plan.IsUsable) (hfinds : plan.Finds sheets password text now)
    {ref : CellRef} {cell : Cell} (hcell : (ref, cell) ∈ plan.cells)
    (h : plan.ReadsGuess password text now cell) :
    cell.value sheets now = .ok (plan.guess password text ref) := by
  have hlength := hplan.length_stages
  have hkinds := hplan.length_kinds
  rcases mem_cells.1 hcell with ⟨col, kind, i, hkind, hi, rfl, rfl⟩ | ⟨rfl, rfl⟩
  · rcases kinds_cases hkind with
      ⟨rfl, rfl⟩ | ⟨rfl, rfl⟩ | ⟨k, stage, hstage, rfl, rfl⟩ | ⟨rfl, rfl⟩
    · rw [guess_index hplan, cell]
      simp only [Nat.add_sub_cancel_left]
      rfl
    · -- column B cuts the text
      have hrow := h.isRowOf hplan hi (Formula.mem_cells_explode.2 (.inr rfl))
      have hexplode := Formula.isText_explode sheets hrow hfinds.input
      rw [guess_text hplan i (texts_getElem?_zero plan password text), List.getElem?_take_of_lt hi]
      exact (Formula.isReadable_explode _ _).value_of_isText hexplode
    · -- the column of the operation after `k` others
      have hk : k < 4 := by
        rw [← hlength]
        exact (List.getElem?_eq_some_iff.1 hstage).1
      obtain ⟨t, ht⟩ := exists_texts_getElem? plan password text (k := k) (by omega)
      rw [guess_text hplan i (texts_getElem?_succ hstage ht)]
      exact operationFormula_value hplan hfinds hk hi ht h
    · rw [guess_fold hplan]
      exact foldFormula_value hplan hi h
  · -- the result is the last row of the last column
    have hpos := hplan.pos
    have houtput : plan.output = ⟨4 + 2, plan.originRow + (plan.capacity - 1)⟩ := by
      rw [output, length_kinds, hlength, Nat.add_sub_assoc hpos]
    have hwhole : (plan.outcome password text).length ≤ plan.capacity := by
      rw [length_of_texts (texts_getElem?_last plan password text)]
      exact List.length_take_le ..
    have hfold := guess_fold hplan password text (plan.capacity - 1)
    rw [hlength, Nat.sub_add_cancel hpos, List.take_of_length_le hwhole] at hfold
    have hread := h.meaning_cell sheets hplan (4 + 2) (plan.capacity - 1)
      (by omega) (by omega) (by rw [← houtput]; exact List.mem_singleton_self _)
    rw [guess_result]
    refine (Formula.isReadable_cell _ _).value_of_isText ?_
    rw [Formula.IsText, houtput, hread, hfold]

/-! ## No cell waits for itself -/

/-- Where a cell comes in an evaluation: the results last, before them the last
column row by row, and before it the other columns from the left. -/
def rank (ref : CellRef) : Nat :=
  if ref.row < encryptOriginRow then 6 + (encryptOriginRow + maxCapacity + gap + maxCapacity)
  else if ref.col = 6 then 6 + ref.row
  else ref.col

theorem rank_of_col {col row : Nat} (hrow : encryptOriginRow ≤ row) (hcol : col < 6) :
    rank ⟨col, row⟩ = col := by
  rw [rank, if_neg (Nat.not_lt.2 hrow), if_neg (Nat.ne_of_lt hcol)]

theorem rank_of_fold {row : Nat} (hrow : encryptOriginRow ≤ row) : rank ⟨6, row⟩ = 6 + row := by
  rw [rank, if_neg (Nat.not_lt.2 hrow), if_pos rfl]

/-- What the formula of an operation reads: what has been typed, and cells on
its left. -/
theorem operationFormula_reads {op : Operation} {direction : Direction} {col i : Nat}
    {other : CellRef} (hi : i < plan.capacity)
    (h : (plan.formulaCell (plan.operationFormula op direction col (plan.originRow + i))).Reads
      other) :
    other = InputCell.ofMode plan.mode ∨ other = InputCell.password ∨
      (other.col ≤ col ∧ plan.rows.Holds other.row) := by
  have hrow : plan.rows.Holds (plan.originRow + i) :=
    ⟨Nat.le_add_right _ _, Nat.add_lt_add_left hi _⟩
  have hbefore : ∀ ref ∈ (Formula.cell ⟨col, plan.originRow + i⟩ .relative).cells,
      ref.col ≤ col ∧ plan.rows.Holds ref.row := by
    intro ref href
    obtain rfl := List.mem_singleton.1 href
    exact ⟨Nat.le_refl _, hrow⟩
  have hkeyed : op.isKeyed = true → other = InputCell.ofMode plan.mode ∨
      other = InputCell.password ∨ (other.col ≤ col ∧ plan.rows.Holds other.row) := by
    intro hop
    rw [operationFormula_of_isKeyed hop] at h
    rcases Cell.reads_formula.1 h with hcells | ⟨hcolumns, _⟩
    · rcases Formula.mem_cells_rotated.1 hcells with hmem | rfl | rfl
      · exact .inr (.inr (hbefore other hmem))
      · exact .inr (.inr ⟨Nat.zero_le _, hrow⟩)
      · exact .inr (.inl rfl)
    · cases direction <;> cases hcolumns
  cases op with
  | substitute => exact hkeyed rfl
  | xor => exact hkeyed rfl
  | reverse =>
      rcases Cell.reads_formula.1 h with hcells | ⟨hcolumns, hrows⟩
      · rcases Formula.mem_cells_turned.1 hcells with rfl | rfl
        · exact .inl rfl
        · exact .inr (.inr ⟨Nat.zero_le _, hrow⟩)
      · exact .inr (.inr ⟨Nat.le_of_eq (List.mem_singleton.1 hcolumns), hrows⟩)
  | map =>
      rcases Cell.reads_formula.1 h with hcells | ⟨hcolumns, _⟩
      · exact .inr (.inr (hbefore other (Formula.mem_cells_mapped.1 hcells)))
      · cases hcolumns

/-- What a formula of the last column reads: the last text, and the row above. -/
theorem foldFormula_reads {col i : Nat} {other : CellRef}
    (h : (plan.cell ⟨col + 1, .fold⟩ (plan.originRow + i)).Reads other) :
    other = ⟨col, plan.originRow + i⟩ ∨
      0 < i ∧ other = ⟨col + 1, plan.originRow + i - 1⟩ := by
  simp only [GridPlan.cell] at h
  split at h
  · rcases Cell.reads_formula.1 h with hcells | ⟨hcolumns, _⟩
    · exact .inl (List.mem_singleton.1 hcells)
    · cases hcolumns
  · rename_i hne
    rcases Cell.reads_formula.1 h with hcells | ⟨hcolumns, _⟩
    · rcases List.mem_cons.1 hcells with rfl | hcells
      · exact .inr ⟨by omega, rfl⟩
      · exact .inl (List.mem_singleton.1 hcells)
    · cases hcolumns

/-- **What a cell of a plan reads has been typed or is of a lower rank.** -/
theorem reads_lower (hplan : plan.IsUsable) {ref other : CellRef} {cell : Cell}
    (hcell : (ref, cell) ∈ plan.cells) (h : cell.Reads other) :
    other = InputCell.ofMode plan.mode ∨ other = InputCell.password ∨ rank other < rank ref := by
  have hlow := hplan.low
  have hhigh := hplan.high
  have hle := hplan.le
  have hpos := hplan.pos
  have hlength := hplan.length_stages
  have hkinds := hplan.length_kinds
  rcases mem_cells.1 hcell with ⟨col, kind, i, hkind, hi, rfl, rfl⟩ | ⟨rfl, rfl⟩
  · rcases kinds_cases hkind with
      ⟨rfl, rfl⟩ | ⟨rfl, rfl⟩ | ⟨k, stage, hstage, rfl, rfl⟩ | ⟨rfl, rfl⟩
    · -- a number reads nothing
      obtain ⟨_, hmem, _⟩ := h
      cases hmem
    · rcases Cell.reads_formula.1 h with hcells | ⟨hcolumns, _⟩
      · rcases Formula.mem_cells_explode.1 hcells with rfl | rfl
        · exact .inl rfl
        · refine .inr (.inr ?_)
          rw [rank_of_col (by omega) (by omega), rank_of_col (by omega) (by omega)]
          exact Nat.zero_lt_one
      · cases hcolumns
    · have hk : k < 4 := by
        rw [← hlength]
        exact (List.getElem?_eq_some_iff.1 hstage).1
      rcases operationFormula_reads hi h with rfl | rfl | ⟨hcol, hrow, _⟩
      · exact .inl rfl
      · exact .inr (.inl rfl)
      · refine .inr (.inr ?_)
        have hcol : other.col ≤ k + 1 := hcol
        have hrow : plan.originRow ≤ other.row := hrow
        rw [rank_of_col (by omega) (by omega), rank_of_col (by omega) (by omega)]
        omega
    · -- the last column reads the one on its left and the row above
      refine .inr (.inr ?_)
      rw [hlength] at h ⊢
      rw [rank_of_fold (by omega)]
      rcases foldFormula_reads h with rfl | ⟨hi, rfl⟩
      · rw [rank_of_col (by omega) (by omega)]
        omega
      · rw [rank_of_fold (by omega)]
        omega
  · refine .inr (.inr ?_)
    rcases Cell.reads_formula.1 h with hcells | ⟨hcolumns, _⟩
    · obtain rfl := List.mem_singleton.1 hcells
      rw [output, hkinds, rank_of_fold (by omega), rank, if_pos hplan.result]
      omega
    · cases hcolumns

end GridPlan

end SheetCipher
