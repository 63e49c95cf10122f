import Mathlib.Data.List.TakeWhile
import Mathlib.Order.Bounds.Basic
import SheetCipher.Proofs.Workbook.Records

/-!
# Csv — what a sheet gives back

The text of a sheet is a file with a record for every row up to the last one
that a cell stands in, and in each a field for every column up to the last one,
so the place of a field is the address of its cell. There is such a text unless
a formula of the sheet cannot be shown (`text_reads_back`).
-/

namespace SheetCipher.Csv

/-! ## What a field says -/

/-- Whether the first character of a text, blanks skipped, would make it a
formula. -/
def LooksLikeFormula (text : List Char) : Prop :=
  ∃ blanks c rest, text = blanks ++ c :: rest ∧ (∀ b ∈ blanks, b = ' ' ∨ b = '\t') ∧
    (c = '=' ∨ c = '+' ∨ c = '-' ∨ c = '@')

/-- What a field says about the cell at its place, if there is one. -/
inductive Says : Option Cell → List Char → Prop where
  | absent : Says none []
  | empty : Says (some .empty) []
  | number (n : Int64) : Says (some (.number n)) (Decimal.ofInt n.toInt)
  | formula (e : Formula) (rows : RowRange) (t : String) (h : e.shown = .ok t) :
      Says (some (.formula e rows)) ('=' :: t.toList)
  | text (s : String) (h : ¬ LooksLikeFormula s.toList) : Says (some (.text s)) s.toList
  | guarded (s : String) (h : LooksLikeFormula s.toList) :
      Says (some (.text s)) ('\'' :: s.toList)

theorem looksLikeFormula_iff {text : List Char} :
    LooksLikeFormula text ↔ (text.dropWhile isBlank).head?.any startsFormula = true := by
  constructor
  · rintro ⟨blanks, c, rest, rfl, hblanks, hc⟩
    have hnot : isBlank c = false := by rcases hc with rfl | rfl | rfl | rfl <;> rfl
    have hall : ∀ b ∈ blanks, isBlank b = true := by simpa [isBlank] using hblanks
    rw [List.dropWhile_append_of_pos hall, List.dropWhile_cons_of_neg (by simp [hnot])]
    simpa [startsFormula, or_assoc] using hc
  · intro h
    cases hrest : text.dropWhile isBlank with
    | nil =>
        rw [hrest] at h
        cases h
    | cons c rest =>
        rw [hrest] at h
        refine ⟨text.takeWhile isBlank, c, rest, ?_, ?_, ?_⟩
        · rw [← hrest, List.takeWhile_append_dropWhile]
        · intro b hb
          simpa [isBlank] using List.mem_takeWhile_imp hb
        · simpa [startsFormula, or_assoc] using h

theorem says_of_content {cell : Cell} {said : List Char} (h : content cell = .ok said) :
    Says (some cell) said := by
  cases cell with
  | empty =>
      cases h
      exact .empty
  | text s =>
      cases h
      by_cases hlooks : LooksLikeFormula s.toList
      · rw [guarded, if_pos (looksLikeFormula_iff.1 hlooks)]
        exact .guarded s hlooks
      · rw [guarded, if_neg (mt looksLikeFormula_iff.2 hlooks)]
        exact .text s hlooks
  | number n =>
      cases h
      exact .number n
  | formula e rows =>
      cases hshown : e.shown with
      | error report =>
          rw [content, hshown] at h
          cases h
      | ok t =>
          rw [content, hshown] at h
          cases h
          exact .formula e rows t hshown

theorem exists_content {cell : Cell} (h : cell.isNumbered = true) :
    ∃ said, content cell = .ok said := by
  cases cell with
  | formula e rows =>
      have hshown : e.shown = .ok e.sheetText := if_pos h
      rw [content, hshown]
      exact ⟨_, rfl⟩
  | _ => exact ⟨_, rfl⟩

theorem content_eq_error {cell : Cell} (h : cell.isNumbered = false) :
    content cell = .error .sum := by
  cases cell with
  | formula e rows =>
      have hshown : e.shown = .error .sum := if_neg (Bool.eq_false_iff.1 h)
      rw [content, hshown]
      rfl
  | _ => cases h

/-- What stands in the field at an address. -/
def value (cells : Grid) (ref : CellRef) : Except Overrun (List Char) :=
  match cells[ref]? with
  | some cell => content cell
  | none => .ok []

theorem value_of_cell {cells : Grid} {ref : CellRef} {cell : Cell} (h : cells[ref]? = some cell) :
    value cells ref = content cell := by
  rw [value, h]

theorem says_of_value {cells : Grid} {ref : CellRef} {said : List Char}
    (h : value cells ref = .ok said) : Says cells[ref]? said := by
  rw [value] at h
  cases hcell : cells[ref]? with
  | some cell =>
      rw [hcell] at h
      exact says_of_content h
  | none =>
      rw [hcell] at h
      cases h
      exact .absent

/-! ## Which sheets can be shown -/

theorem isNumbered_iff {cells : Grid} : cells.isNumbered = true ↔
    ∀ (ref : CellRef) (cell : Cell), cells[ref]? = some cell → cell.isNumbered = true := by
  simp only [Grid.isNumbered, List.all_eq_true, Prod.forall,
    Std.TreeMap.mem_toList_iff_getElem?_eq_some]

theorem isNumbered_eq_false_iff {cells : Grid} : cells.isNumbered = false ↔
    ∃ (ref : CellRef) (e : Formula) (rows : RowRange),
      cells[ref]? = some (.formula e rows) ∧ e.shown = .error .sum := by
  constructor
  · intro h
    obtain ⟨ref, cell, hcell, hnot⟩ : ∃ (ref : CellRef) (cell : Cell),
        cells[ref]? = some cell ∧ cell.isNumbered = false := by
      simpa using mt isNumbered_iff.2 (Bool.eq_false_iff.1 h)
    cases cell with
    | formula e rows => exact ⟨ref, e, rows, hcell, if_neg (Bool.eq_false_iff.1 hnot)⟩
    | _ => cases hnot
  · rintro ⟨ref, e, rows, hcell, hshown⟩
    refine Bool.eq_false_iff.2 fun h => ?_
    have hok : e.shown = .ok e.sheetText := if_pos (isNumbered_iff.1 h ref _ hcell)
    rw [hok] at hshown
    cases hshown

theorem exists_value {cells : Grid} (h : cells.isNumbered = true) (ref : CellRef) :
    ∃ said, value cells ref = .ok said := by
  cases hcell : cells[ref]? with
  | some cell =>
      rw [value_of_cell hcell]
      exact exists_content (isNumbered_iff.1 h ref cell hcell)
  | none => exact ⟨[], by rw [value, hcell]⟩

/-! ## How it is written -/

theorem needsQuotes_eq_false_iff {field : List Char} :
    needsQuotes field = false ↔ ∀ c ∈ field, isPlain c = true := by
  simp [needsQuotes, isPlain, and_assoc]

theorem isField_escaped (field : List Char) : IsField (escaped field) field := by
  by_cases h : needsQuotes field = true
  · rw [escaped, if_pos h]
    exact .quoted field
  · rw [escaped, if_neg h]
    exact .plain (needsQuotes_eq_false_iff.1 (Bool.eq_false_iff.2 h))

theorem field_eq (cells : Grid) (ref : CellRef) :
    field cells ref = escaped <$> value cells ref := by
  rw [field, value]
  cases cells[ref]? with
  | some cell => rfl
  | none => rfl

/-- Fields up to a row and a column. -/
def table (said : CellRef → List Char) (lastRow lastCol : Nat) : List (List (List Char)) :=
  (List.range (lastRow + 1)).map fun row =>
    (List.range (lastCol + 1)).map fun col => said ⟨col, row⟩

theorem isFile_table (said : CellRef → List Char) (lastRow lastCol : Nat) :
    IsFile ((table (fun ref => escaped (said ref)) lastRow lastCol).flatMap
        fun row => record row ++ ['\n'])
      (table said lastRow lastCol) := by
  refine ⟨(table (fun ref => escaped (said ref)) lastRow lastCol).map record, ?_, ?_⟩
  · rw [table, table, List.map_map, List.forall₂_map_left_iff, List.forall₂_map_right_iff,
      List.forall₂_same]
    intro row _
    refine ⟨_, ?_, ?_, rfl⟩
    · simp
    · rw [List.forall₂_map_left_iff, List.forall₂_map_right_iff, List.forall₂_same]
      exact fun col _ => isField_escaped (said ⟨col, row⟩)
  · rw [List.flatMap_map]

theorem fields_eq_ok {cells : Grid} {said : CellRef → List Char}
    (h : ∀ ref, value cells ref = .ok (said ref)) :
    fields cells =
      .ok (table (fun ref => escaped (said ref)) (extent cells).1 (extent cells).2) := by
  have hfield : ∀ ref, field cells ref = pure (escaped (said ref)) := by
    intro ref
    rw [field_eq, h]
    rfl
  simp only [fields, hfield, List.mapM_pure]
  rfl

/-! ## Rows and columns -/

theorem isGreatest_foldl_max {α : Type} {xs : List α} (h : xs ≠ []) (f : α → Nat) :
    IsGreatest {n | ∃ x ∈ xs, f x = n} (xs.foldl (fun last x => max last (f x)) 0) := by
  obtain ⟨n, hn⟩ : ∃ n, (xs.map f).max? = some n := by
    rw [← Option.ne_none_iff_exists', ne_eq, List.max?_eq_none_iff, List.map_eq_nil_iff]
    exact h
  rw [← List.foldl_map, List.foldl_max, hn, Option.getD_some, Nat.zero_max]
  obtain ⟨hmem, hbound⟩ := List.max?_eq_some_iff.1 hn
  exact ⟨List.mem_map.1 hmem, fun m hm => hbound m (List.mem_map.2 hm)⟩

theorem extent_eq (cells : Grid) : extent cells =
    (cells.keys.foldl (fun last ref => max last ref.row) 0,
      cells.keys.foldl (fun last ref => max last ref.col) 0) := by
  suffices h : ∀ (refs : List CellRef) (row col : Nat),
      refs.foldl (fun last ref => (max last.1 ref.row, max last.2 ref.col)) (row, col) =
        (refs.foldl (fun last ref => max last ref.row) row,
          refs.foldl (fun last ref => max last ref.col) col) from h cells.keys 0 0
  intro refs
  induction refs with
  | nil => intro row col; rfl
  | cons ref refs ih => intro row col; exact ih _ _

/-- **The last row and the last column** are those of cells. -/
theorem isGreatest_extent {cells : Grid} (h : cells.isEmpty = false) :
    IsGreatest {row | ∃ ref ∈ cells, ref.row = row} (extent cells).1 ∧
      IsGreatest {col | ∃ ref ∈ cells, ref.col = col} (extent cells).2 := by
  have hkeys : cells.keys ≠ [] := by
    intro hnil
    rw [← Std.TreeMap.isEmpty_keys, hnil] at h
    cases h
  rw [extent_eq]
  simp only [← Std.TreeMap.mem_keys]
  exact ⟨isGreatest_foldl_max hkeys CellRef.row, isGreatest_foldl_max hkeys CellRef.col⟩

theorem not_isEmpty_of_mem {cells : Grid} {ref : CellRef} (h : ref ∈ cells) :
    cells.isEmpty = false :=
  Std.TreeMap.isEmpty_eq_false_iff_exists_mem.2 ⟨ref, h⟩

theorem mem_of_getElem? {cells : Grid} {ref : CellRef} {cell : Cell}
    (h : cells[ref]? = some cell) : ref ∈ cells :=
  Std.TreeMap.mem_iff_isSome_getElem?.2 (by rw [h]; rfl)

/-- A cell stands in the rows and columns of its sheet. -/
theorem le_extent {cells : Grid} {ref : CellRef} (h : ref ∈ cells) :
    ref.row ≤ (extent cells).1 ∧ ref.col ≤ (extent cells).2 := by
  obtain ⟨⟨_, hrow⟩, _, hcol⟩ := isGreatest_extent (not_isEmpty_of_mem h)
  exact ⟨hrow ⟨ref, h, rfl⟩, hcol ⟨ref, h, rfl⟩⟩

/-! ## The text of a sheet -/

/-- **The text of a sheet is read back** as the table of what its cells say. -/
theorem read?_text {cells : Grid} (h : cells.isEmpty = false)
    (hnumbered : cells.isNumbered = true) :
    ∃ (t : String) (said : CellRef → List Char), text cells = .ok t ∧
      (∀ ref, value cells ref = .ok (said ref)) ∧
      read? t.toList = some (table said (extent cells).1 (extent cells).2) := by
  choose said hsaid using exists_value hnumbered
  let rows := table (fun ref => escaped (said ref)) (extent cells).1 (extent cells).2
  refine ⟨String.ofList (rows.flatMap fun row => record row ++ ['\n']), said, ?_, hsaid, ?_⟩
  · rw [text, chars, if_neg (by simp [h]), fields_eq_ok hsaid]
    rfl
  · rw [String.toList_ofList]
    exact read?_eq_some_iff.2 (isFile_table said _ _)

/-- Of several computations the first one that fails counts. -/
theorem exists_of_mapM_eq_error {α β ε : Type} {f : α → Except ε β} {xs : List α} {report : ε}
    (h : xs.mapM f = .error report) : ∃ x ∈ xs, f x = .error report := by
  induction xs with
  | nil => cases h
  | cons x xs ih =>
      rw [List.mapM_cons] at h
      cases hx : f x with
      | error other =>
          rw [hx] at h
          cases h
          exact ⟨x, List.mem_cons_self, hx⟩
      | ok y =>
          cases hrest : xs.mapM f with
          | error other =>
              rw [hx, hrest] at h
              cases h
              obtain ⟨x, hmem, hx⟩ := ih hrest
              exact ⟨x, List.mem_cons_of_mem _ hmem, hx⟩
          | ok ys =>
              rw [hx, hrest] at h
              cases h

theorem exists_of_mapM_eq_ok {α β ε : Type} {f : α → Except ε β} {xs : List α} {ys : List β}
    (h : xs.mapM f = .ok ys) {x : α} (hx : x ∈ xs) : ∃ y, f x = .ok y := by
  induction xs generalizing ys with
  | nil => cases hx
  | cons first xs ih =>
      rw [List.mapM_cons] at h
      cases hfirst : f first with
      | error report =>
          rw [hfirst] at h
          cases h
      | ok y =>
          cases hrest : xs.mapM f with
          | error report =>
              rw [hfirst, hrest] at h
              cases h
          | ok rest =>
              rcases List.mem_cons.1 hx with rfl | hx
              · exact ⟨y, hfirst⟩
              · exact ih hrest hx

theorem eq_sum_of_value {cells : Grid} {ref : CellRef} {report : Overrun}
    (h : value cells ref = .error report) : report = .sum := by
  cases hcell : cells[ref]? with
  | none =>
      rw [value, hcell] at h
      cases h
  | some cell =>
      rw [value_of_cell hcell] at h
      cases hnumbered : cell.isNumbered with
      | true =>
          obtain ⟨said, hsaid⟩ := exists_content hnumbered
          cases h.symm.trans hsaid
      | false =>
          cases h.symm.trans (content_eq_error hnumbered)
          rfl

/-- **A sheet with a formula that cannot be shown** has no text. -/
theorem text_eq_error {cells : Grid} (h : cells.isNumbered = false) : text cells = .error .sum := by
  obtain ⟨ref, e, rows, hcell, hshown⟩ := isNumbered_eq_false_iff.1 h
  have hmem : ref ∈ cells := mem_of_getElem? hcell
  have hfield : field cells ref = .error .sum := by
    rw [field, hcell]
    simp only [content, hshown]
    rfl
  suffices hfields : fields cells = .error .sum by
    rw [text, chars, if_neg (by simp [not_isEmpty_of_mem hmem]), hfields]
    rfl
  obtain ⟨hrow, hcol⟩ := le_extent hmem
  cases hfields : fields cells with
  | ok table =>
      -- the field of the formula is among those that have been made
      obtain ⟨record, hrecord⟩ :=
        exists_of_mapM_eq_ok hfields (List.mem_range.2 (Nat.lt_succ_of_le hrow))
      obtain ⟨said, hsaid⟩ :=
        exists_of_mapM_eq_ok hrecord (List.mem_range.2 (Nat.lt_succ_of_le hcol))
      cases hfield.symm.trans hsaid
  | error report =>
      obtain ⟨row, _, hrecord⟩ := exists_of_mapM_eq_error hfields
      obtain ⟨col, _, hfails⟩ := exists_of_mapM_eq_error hrecord
      rw [field_eq] at hfails
      cases hvalue : value cells ⟨col, row⟩ with
      | ok said =>
          rw [hvalue] at hfails
          cases hfails
      | error other =>
          rw [hvalue] at hfails
          cases hfails
          rw [eq_sum_of_value hvalue]

/-- **A sheet comes back place by place.** If all its formulas can be shown, its
text is read as one record for each row and one field for each column, up to the
last ones, and each field says what stands in the cell at its place. If one of
them cannot, which is one that names the last row of all, the sheet has no text. -/
theorem text_reads_back {cells : Grid} (h : cells.isEmpty = false) :
    (cells.isNumbered = true →
      ∃ t lastRow lastCol records, text cells = .ok t ∧
        IsGreatest {row | ∃ ref ∈ cells, ref.row = row} lastRow ∧
        IsGreatest {col | ∃ ref ∈ cells, ref.col = col} lastCol ∧
        read? t.toList = some records ∧
        records.length = lastRow + 1 ∧ (∀ record ∈ records, record.length = lastCol + 1) ∧
        ∀ row record col field, records[row]? = some record → record[col]? = some field →
          Says cells[(⟨col, row⟩ : CellRef)]? field) ∧
      (cells.isNumbered = false → text cells = .error .sum) ∧
      (cells.isNumbered = false ↔ ∃ (ref : CellRef) (e : Formula) (rows : RowRange),
        cells[ref]? = some (.formula e rows) ∧ e.shown = .error .sum) := by
  refine ⟨fun hnumbered => ?_, text_eq_error, isNumbered_eq_false_iff⟩
  obtain ⟨hrow, hcol⟩ := isGreatest_extent h
  obtain ⟨t, said, ht, hsaid, hread⟩ := read?_text h hnumbered
  refine ⟨t, _, _, _, ht, hrow, hcol, hread, ?_, ?_, ?_⟩
  · simp [table]
  · intro record hrecord
    obtain ⟨row, _, rfl⟩ := List.mem_map.1 hrecord
    simp
  · intro row record col field hrecord hfield
    rw [table, List.getElem?_map, Option.map_eq_some_iff] at hrecord
    obtain ⟨r, hr, rfl⟩ := hrecord
    rw [List.getElem?_map, Option.map_eq_some_iff] at hfield
    obtain ⟨c, hc, rfl⟩ := hfield
    obtain ⟨_, rfl⟩ := List.getElem?_eq_some_iff.1 hr
    obtain ⟨_, rfl⟩ := List.getElem?_eq_some_iff.1 hc
    simpa using says_of_value (hsaid ⟨col, row⟩)

/-- Cells with gaps between them: a text with quotes and a comma, one that looks
like a formula, a number, and a formula with a comma and a quote in it. -/
def scattered : Grid :=
  .ofCells [(⟨1, 1⟩, .text "\"a\", b\n"), (⟨0, 2⟩, .text " =1"), (⟨2, 0⟩, .number (-5)),
    (⟨3, 1⟩, .formula (.call .mid [.cell ⟨1, 1⟩ .absolute, .int 1, .int 2]) ⟨0, 0⟩)]

theorem text_reads_back_scattered : scattered.isEmpty = false ∧ scattered.isNumbered = true ∧
    ∃ t lastRow lastCol records, text scattered = .ok t ∧
      IsGreatest {row | ∃ ref ∈ scattered, ref.row = row} lastRow ∧
      IsGreatest {col | ∃ ref ∈ scattered, ref.col = col} lastCol ∧
      read? t.toList = some records ∧
      records.length = lastRow + 1 ∧ (∀ record ∈ records, record.length = lastCol + 1) ∧
      ∀ row record col field, records[row]? = some record → record[col]? = some field →
        Says scattered[(⟨col, row⟩ : CellRef)]? field := by
  have h : scattered.isEmpty = false := by decide
  have hnumbered : scattered.isNumbered = true := by decide
  exact ⟨h, hnumbered, (text_reads_back h).1 hnumbered⟩

/-- The last column of all can be named and the last row cannot. -/
theorem text_of_lastRow :
    let naming (ref : CellRef) : Grid := .ofCells [(⟨0, 0⟩, .formula (.cell ref .relative) ⟨0, 0⟩)]
    (∃ t, text (naming ⟨0xffffffffffffffff, 0⟩) = .ok t) ∧
      (naming ⟨0, 0xffffffffffffffff⟩).isEmpty = false ∧
      text (naming ⟨0, 0xffffffffffffffff⟩) = .error .sum := by
  intro naming
  obtain ⟨t, _, ht, _⟩ := @read?_text (naming ⟨0xffffffffffffffff, 0⟩) rfl (by decide)
  exact ⟨⟨t, ht⟩, rfl, text_eq_error (by decide)⟩

end SheetCipher.Csv
