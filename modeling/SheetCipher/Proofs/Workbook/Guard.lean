import SheetCipher.Proofs.Workbook.Csv

/-!
# Guard — texts that a spreadsheet takes for formulas

A spreadsheet may skip more than blanks in front of a sign that starts a
formula: it may skip ends of lines too. A text that shows such a sign behind
blanks alone is kept from being a formula, so a field is one only if an end of
line stands between the blanks and the sign (`text_imported_iff`).
-/

namespace SheetCipher.Csv

/-- Whether the first character of a text that is not skipped is a sign. -/
def StartsBehind (skipped signs text : List Char) : Prop :=
  ∃ lead c rest, text = lead ++ c :: rest ∧ (∀ b ∈ lead, b ∈ skipped) ∧ c ∈ signs

def blanks : List Char := [' ', '\t']

def lineEnds : List Char := ['\r', '\n']

/-- What a formula starts with. -/
def formulaSigns : List Char := ['=', '+', '-', '@']

/-- Whether a spreadsheet that skips white space takes a field for a formula. -/
def IsImportedAsFormula (field : List Char) : Prop :=
  StartsBehind (blanks ++ lineEnds) formulaSigns field

/-- Whether the white space that a text starts with ends a line. -/
def StartsNewLine (text : List Char) : Prop := StartsBehind blanks lineEnds text

/-! ## The first character that counts -/

section

variable {skipped signs text : List Char}

theorem not_startsBehind_nil : ¬ StartsBehind skipped signs [] := by
  rintro ⟨lead, c, rest, heq, _⟩
  simp at heq

theorem startsBehind_cons {c : Char} : StartsBehind skipped signs (c :: text) ↔
    c ∈ signs ∨ c ∈ skipped ∧ StartsBehind skipped signs text := by
  constructor
  · rintro ⟨lead, sign, rest, heq, hlead, hsign⟩
    cases lead with
    | nil =>
        cases heq
        exact .inl hsign
    | cons b lead =>
        cases heq
        obtain ⟨hb, hlead⟩ := List.forall_mem_cons.1 hlead
        exact .inr ⟨hb, lead, sign, rest, rfl, hlead, hsign⟩
  · rintro (hc | ⟨hc, lead, sign, rest, rfl, hlead, hsign⟩)
    · exact ⟨[], c, text, rfl, by simp, hc⟩
    · exact ⟨c :: lead, sign, rest, rfl, List.forall_mem_cons.2 ⟨hc, hlead⟩, hsign⟩

/-- Where more is skipped, the sign stands behind what was skipped before or
behind a character that was not. -/
theorem startsBehind_append {others : List Char} (h : StartsBehind (skipped ++ others) signs text) :
    StartsBehind skipped signs text ∨ StartsBehind skipped others text := by
  induction text with
  | nil => exact absurd h not_startsBehind_nil
  | cons c text ih =>
      simp only [startsBehind_cons, List.mem_append] at h ⊢
      rcases h with hsign | ⟨hskipped | hother, hrest⟩
      · exact .inl (.inl hsign)
      · exact (ih hrest).imp (fun h => .inr ⟨hskipped, h⟩) fun h => .inr ⟨hskipped, h⟩
      · exact .inr (.inl hother)

/-- A text starts in one way only. -/
theorem StartsBehind.exclusive {others : List Char} (h : StartsBehind skipped signs text)
    (hsigns : ∀ c ∈ signs, c ∉ skipped ∧ c ∉ others) (hothers : ∀ c ∈ others, c ∉ skipped) :
    ¬ StartsBehind skipped others text := by
  induction text with
  | nil => exact not_startsBehind_nil
  | cons c text ih =>
      rw [startsBehind_cons] at h ⊢
      rintro (hother | ⟨hskipped, hrest⟩)
      · rcases h with hsign | ⟨hskipped, _⟩
        · exact (hsigns c hsign).2 hother
        · exact hothers c hother hskipped
      · rcases h with hsign | ⟨_, h⟩
        · exact (hsigns c hsign).1 hskipped
        · exact ih h hrest

end

/-! ## The guard -/

theorem looksLikeFormula_iff_startsBehind {text : List Char} :
    LooksLikeFormula text ↔ StartsBehind blanks formulaSigns text := by
  simp [LooksLikeFormula, StartsBehind, blanks, formulaSigns]

/-- Behind an apostrophe nothing is a formula. -/
theorem not_isImportedAsFormula_apostrophe (text : List Char) :
    ¬ IsImportedAsFormula ('\'' :: text) := by
  rw [IsImportedAsFormula, startsBehind_cons]
  rintro (hsign | ⟨hskipped, _⟩)
  · exact absurd hsign (by decide)
  · exact absurd hskipped (by decide)

/-- **What the guard lets through**: the sign stands behind an end of line. -/
theorem isImportedAsFormula_guarded_iff {text : List Char} :
    IsImportedAsFormula (guarded text) ↔ IsImportedAsFormula text ∧ StartsNewLine text := by
  by_cases h : LooksLikeFormula text
  · rw [guarded, if_pos (looksLikeFormula_iff.1 h)]
    have hline : ¬ StartsNewLine text :=
      (looksLikeFormula_iff_startsBehind.1 h).exclusive (by simp [formulaSigns, blanks, lineEnds])
        (by simp [blanks, lineEnds])
    simp [not_isImportedAsFormula_apostrophe, hline]
  · rw [guarded, if_neg (mt looksLikeFormula_iff.2 h)]
    have hline : IsImportedAsFormula text → StartsNewLine text := fun himported =>
      (startsBehind_append himported).resolve_left (mt looksLikeFormula_iff_startsBehind.2 h)
    exact (and_iff_left_of_imp hline).symm

/-! ## The field of a cell -/

theorem exists_record_table (said : CellRef → List Char) {ref : CellRef} {lastRow lastCol : Nat}
    (hrow : ref.row ≤ lastRow) (hcol : ref.col ≤ lastCol) :
    ∃ record, (table said lastRow lastCol)[ref.row]? = some record ∧
      record[ref.col]? = some (said ref) := by
  refine ⟨(List.range (lastCol + 1)).map fun col => said ⟨col, ref.row⟩, ?_, ?_⟩
  · rw [table, List.getElem?_map, List.getElem?_range (by omega)]
    rfl
  · rw [List.getElem?_map, List.getElem?_range (by omega)]
    rfl

/-- **The content of a cell is read back** at the place of the cell. -/
theorem exists_field {cells : Grid} (hnumbered : cells.isNumbered = true) {ref : CellRef}
    {cell : Cell} (h : cells[ref]? = some cell) :
    ∃ t records record said, text cells = .ok t ∧ read? t.toList = some records ∧
      records[ref.row]? = some record ∧ record[ref.col]? = some said ∧ content cell = .ok said := by
  have hmem : ref ∈ cells := mem_of_getElem? h
  obtain ⟨hrow, hcol⟩ := le_extent hmem
  obtain ⟨t, said, ht, hsaid, hread⟩ := read?_text (not_isEmpty_of_mem hmem) hnumbered
  obtain ⟨record, hrecord, hfield⟩ := exists_record_table said hrow hcol
  refine ⟨t, _, record, said ref, ht, hread, hrecord, hfield, ?_⟩
  rw [← value_of_cell h, hsaid]

/-- **No text is exported as a formula, unless it starts a new line first.** The
field that is read back for a text cell starts with the sign of a formula, white
space skipped, just when the text itself does and has an end of line in front of
the sign. Of a sheet that has no text nothing is exported. -/
theorem text_imported_iff {cells : Grid} {ref : CellRef} {s : String}
    (h : cells[ref]? = some (.text s)) :
    (cells.isNumbered = true →
      ∃ t records record field, text cells = .ok t ∧ read? t.toList = some records ∧
        records[ref.row]? = some record ∧ record[ref.col]? = some field ∧
        (IsImportedAsFormula field ↔
          IsImportedAsFormula s.toList ∧ StartsNewLine s.toList)) ∧
      (cells.isNumbered = false → text cells = .error .sum) := by
  refine ⟨fun hnumbered => ?_, text_eq_error⟩
  obtain ⟨t, records, record, field, ht, hread, hrecord, hfield, hsaid⟩ := exists_field hnumbered h
  cases hsaid
  exact ⟨t, records, record, _, ht, hread, hrecord, hfield, isImportedAsFormula_guarded_iff⟩

/-- A text with a sign behind blanks, and with quotes and a comma, so that its
field stands in quotes, beside a formula. -/
def indentedSum : Grid :=
  .ofCells [(⟨1, 0⟩, .text "\t @SUM(A1, \"x\")\n"), (⟨0, 0⟩, .formula (.int 7) ⟨0, 0⟩)]

theorem text_imported_iff_indentedSum :
    indentedSum[(⟨1, 0⟩ : CellRef)]? = some (.text "\t @SUM(A1, \"x\")\n") ∧
    ∃ t records record field, text indentedSum = .ok t ∧ read? t.toList = some records ∧
      records[0]? = some record ∧ record[1]? = some field ∧ ¬ IsImportedAsFormula field := by
  have hcell : indentedSum[(⟨1, 0⟩ : CellRef)]? = some (.text "\t @SUM(A1, \"x\")\n") := rfl
  obtain ⟨t, records, record, field, ht, hread, hrecord, hfield, hiff⟩ :=
    (text_imported_iff hcell).1 (by decide)
  have hline : ¬ StartsNewLine "\t @SUM(A1, \"x\")\n".toList := by
    simp [StartsNewLine, startsBehind_cons, blanks, lineEnds]
  exact ⟨hcell, t, records, record, field, ht, hread, hrecord, hfield, fun h => hline (hiff.1 h).2⟩

/-- A line feed in front of the sign, and the field is a formula. -/
theorem text_imported_behind_lineFeed :
    let cells : Grid := .ofCells [(⟨0, 0⟩, .text "\n=1+1")]
    cells[(⟨0, 0⟩ : CellRef)]? = some (.text "\n=1+1") ∧
      ∃ t, text cells = .ok t ∧ read? t.toList = some [["\n=1+1".toList]] ∧
      IsImportedAsFormula "\n=1+1".toList := by
  refine ⟨rfl, _, rfl, by decide, ?_⟩
  simp [IsImportedAsFormula, startsBehind_cons, blanks, lineEnds, formulaSigns]

end SheetCipher.Csv
