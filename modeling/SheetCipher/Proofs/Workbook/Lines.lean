import Mathlib.Data.List.Forall2
import SheetCipher.Proofs.Sheet.Formula.Tokens
import SheetCipher.Workbook.Listing

/-!
# Lines — reading a listing

A line of a listing says where a cell stands and what stands in it, and both
are read back from it (`readLine?_line`). Where no text of a workbook has a line
feed, the lines of its listing are those that it is split into, and those of a
sheet are an empty one, the name and one for each cell (`isSection_sheetLines`).
-/

namespace SheetCipher

/-! ## Characters that are no line feeds -/

theorem not_mem_of_all {p : Char → Bool} {cs : List Char} (h : cs.all p = true) {c : Char}
    (hc : p c = false) : c ∉ cs := by
  intro hmem
  exact Token.ne_of_kind (List.all_eq_true.1 h c hmem) hc rfl

theorem Decimal.lineFeed_not_mem_digits (n : Nat) : '\n' ∉ digits n :=
  not_mem_of_all (all_isDigit_digits n) rfl

theorem Decimal.lineFeed_not_mem_ofInt (n : Int) : '\n' ∉ ofInt n := by
  rw [ofInt]
  split
  · simp [lineFeed_not_mem_digits]
  · exact lineFeed_not_mem_digits _

theorem CellRef.lineFeed_not_mem_chars (ref : CellRef) (anchor : Anchor) :
    '\n' ∉ ref.chars anchor :=
  not_mem_of_all (p := (· ≠ '\n')) (Token.all_chars
    (fun _ hc => decide_eq_true (Token.ne_of_kind hc rfl))
    (fun _ hc => decide_eq_true (Token.ne_of_kind hc rfl)) rfl ref anchor) rfl

theorem Quoted.lineFeed_not_mem_doubled {s : List Char} (h : '\n' ∉ s) : '\n' ∉ doubled s := by
  have hchar : ∀ c ∈ s, '\n' ∉ doubledChar c := by
    intro c hc hmem
    by_cases hquote : c = '"'
    · simp [doubledChar, hquote] at hmem
    · simp only [doubledChar, if_neg hquote, List.mem_singleton] at hmem
      exact h (hmem ▸ hc)
  simpa [doubled] using hchar

theorem Quoted.lineFeed_not_mem_escaped {s : List Char} (h : '\n' ∉ s) : '\n' ∉ escaped s := by
  have hchar : ∀ c ∈ s, '\n' ∉ escapedChar c := by
    intro c hc hmem
    by_cases hslash : c = '\\' ∨ c = '"'
    · rcases hslash with rfl | rfl <;> simp [escapedChar] at hmem
    · simp only [escapedChar, if_neg hslash, List.mem_singleton] at hmem
      exact h (hmem ▸ hc)
  simpa [escaped] using hchar

theorem Token.IsCommon.lineFeed_not_mem {t : Token} (h : t.IsCommon) : '\n' ∉ t.chars := by
  cases t with
  | text s =>
      obtain ⟨col, rfl⟩ := h
      rw [chars, CellRef.columnText, String.toList_ofList]
      exact Quoted.lineFeed_not_mem_doubled (not_mem_of_all (CellRef.all_isLetter_letters col) rfl)
  | int n => exact Decimal.lineFeed_not_mem_ofInt n.toInt
  | cell ref anchor => exact ref.lineFeed_not_mem_chars anchor
  | name word => exact not_mem_of_all h.2 rfl
  | block b => exact h.elim
  | operator op => cases op <;> decide
  | openParen | closeParen | comma => decide

/-- Whether the texts and the names of sheets in a formula are lines. -/
def Formula.IsOneLine (e : Formula) : Prop :=
  (∀ s ∈ e.texts, '\n' ∉ s.toList) ∧ ∀ block ∈ e.blocks, '\n' ∉ block.sheet.toList

/-- **A formula is one line** if all that is free in it is. -/
theorem Formula.IsOneLine.lineFeed_not_mem {e : Formula} (h : e.IsOneLine) : '\n' ∉ e.chars := by
  have htokens : ∀ t ∈ e.tokens, '\n' ∉ t.chars := by
    refine forall_tokens (fun t ht => ht.lineFeed_not_mem) e ?_ ?_
    · intro s hs
      exact Quoted.lineFeed_not_mem_doubled (h.1 s hs)
    · intro block hblock
      simp [Token.chars, ColumnBlock.chars, h.2 block hblock, CellRef.lineFeed_not_mem_chars]
  intro hmem
  obtain ⟨t, ht, hchar⟩ := List.mem_flatMap.1 hmem
  exact htokens t ht hchar

/-- Whether what a cell shows is one line. -/
def Cell.IsOneLine : Cell → Prop
  | empty | number _ => True
  | text s => '\n' ∉ s.toList
  | formula e _ => e.IsOneLine

namespace Listing

theorem lineFeed_not_mem_line {ref : CellRef} {cell : Cell} (h : cell.IsOneLine)
    {line : List Char} (hline : line? ref cell = some line) : '\n' ∉ line := by
  obtain ⟨content, hcontent, rfl⟩ := Option.map_eq_some_iff.1 hline
  have hnot : '\n' ∉ content := by
    cases cell with
    | empty => cases hcontent
    | text s =>
        cases hcontent
        exact Quoted.lineFeed_not_mem_escaped h
    | number n =>
        cases hcontent
        exact Decimal.lineFeed_not_mem_ofInt n.toInt
    | formula e rows =>
        cases hcontent
        simp [Formula.IsOneLine.lineFeed_not_mem h]
  simp [CellRef.lineFeed_not_mem_chars, hnot]

end Listing

/-! ## Reading a line -/

/-- What a listing says of a cell. -/
inductive Entry where
  | text (s : String)
  | number (n : Int64)
  /-- A formula as it is shown. -/
  | formula (shown : String)
deriving DecidableEq

namespace Entry

/-- What a listing has to say of a cell. -/
def ofCell? : Cell → Option Entry
  | .empty => none
  | .text s => some (text s)
  | .number n => some (number n)
  | .formula e _ => some (formula e.sheetText)

/-- The text behind the quote that starts it, up to the one that ends it. -/
def unescaped? : List Char → Option (List Char)
  | ['"'] => some []
  | '\\' :: c :: rest => (unescaped? rest).map (c :: ·)
  | c :: rest => if c = '"' then none else (unescaped? rest).map (c :: ·)
  | [] => none

/-- Reads what stands in a cell: a text in quotes, a formula behind its sign or
a number. -/
def ofChars? : List Char → Option Entry
  | '"' :: rest => (unescaped? rest).map fun s => text (String.ofList s)
  | '=' :: rest => some (formula (String.ofList rest))
  | cs => (Token.int? cs).map number

theorem unescaped?_flatMap (s : List Char) :
    unescaped? (s.flatMap Quoted.escapedChar ++ ['"']) = some s := by
  induction s with
  | nil => rfl
  | cons c s ih =>
      rw [List.flatMap_cons, List.append_assoc]
      by_cases hslash : c = '\\' ∨ c = '"'
      · simp [Quoted.escapedChar, hslash, unescaped?, ih]
      · obtain ⟨hslash', hquote⟩ := not_or.1 hslash
        simp [Quoted.escapedChar, hslash', hquote, unescaped?, ih]

theorem ofChars?_of_head? {cs : List Char} {c : Char} (h : cs.head? = some c) (hquote : c ≠ '"')
    (hsign : c ≠ '=') : ofChars? cs = (Token.int? cs).map number := by
  cases cs with
  | nil => cases h
  | cons d rest =>
      cases h
      simp [ofChars?, hquote, hsign]

theorem ofChars?_content {cell : Cell} {content : List Char}
    (h : Listing.content? cell = some content) : ofChars? content = ofCell? cell := by
  cases cell with
  | empty => cases h
  | text s =>
      cases h
      simp [Quoted.escaped, ofChars?, unescaped?_flatMap, ofCell?]
  | formula e rows =>
      cases h
      rfl
  | number n =>
      cases h
      obtain ⟨c, hc, hkind⟩ : ∃ c, (Decimal.ofInt n.toInt).head? = some c ∧
          (c = '-' ∨ Decimal.isDigit c = true) := by
        rw [Decimal.ofInt]
        split
        · exact ⟨'-', rfl, .inl rfl⟩
        · obtain ⟨c, hc, hdigit⟩ := Token.head?_of_all (Decimal.digits_ne_nil _)
            (Decimal.all_isDigit_digits n.toInt.natAbs)
          exact ⟨c, hc, .inr hdigit⟩
      have hne : ∀ other, other ≠ '-' → Decimal.isDigit other = false → c ≠ other := by
        intro other hminus hother
        rcases hkind with rfl | hdigit
        · exact hminus.symm
        · exact Token.ne_of_kind hdigit hother
      rw [ofChars?_of_head? hc (hne '"' (by decide) rfl) (hne '=' (by decide) rfl),
        Token.int?_ofInt]
      rfl

end Entry

namespace Listing

/-- Reads a line: an address, a colon, a blank and what stands in the cell. -/
def readLine? (line : List Char) : Option (CellRef × Entry) :=
  match Token.address? (line.takeWhile (· ≠ ':')), line.dropWhile (· ≠ ':') with
  | some (ref, .relative), ':' :: ' ' :: content =>
    (Entry.ofChars? content).map fun entry => (ref, entry)
  | _, _ => none

/-- **A line is read back.** -/
theorem readLine?_line {ref : CellRef} {cell : Cell} {line : List Char}
    (h : line? ref cell = some line) :
    ∃ entry, Entry.ofCell? cell = some entry ∧ readLine? line = some (ref, entry) := by
  obtain ⟨content, hcontent, rfl⟩ := Option.map_eq_some_iff.1 h
  have hread := Entry.ofChars?_content hcontent
  obtain ⟨entry, hentry⟩ : ∃ entry, Entry.ofCell? cell = some entry := by
    cases cell with
    | empty => cases hcontent
    | text | number | formula => exact ⟨_, rfl⟩
  refine ⟨entry, hentry, ?_⟩
  have hall : (ref.chars .relative).all (· ≠ ':') = true :=
    Token.all_chars (fun _ hc => decide_eq_true (Token.ne_of_kind hc rfl))
      (fun _ hc => decide_eq_true (Token.ne_of_kind hc rfl)) rfl ref .relative
  have hcolon : ∀ c, (':' :: ' ' :: content).head? = some c → decide (c ≠ ':') = false := by
    rintro c ⟨⟩
    rfl
  obtain ⟨htake, hdrop⟩ := Token.span_append hall hcolon
  rw [readLine?, htake, hdrop, Token.address?_chars]
  simp [hread, hentry]

/-! ## Splitting a listing -/

theorem splitOn_line {line : List Char} (h : '\n' ∉ line) (rest : List Char) :
    (line ++ '\n' :: rest).splitOn '\n' = line :: rest.splitOn '\n' := by
  have hnot : ∀ c ∈ line, (c == '\n') = false := by
    intro c hc
    exact beq_false_of_ne fun heq => h (heq ▸ hc)
  rw [List.splitOn_eq_splitOnP, List.splitOn_eq_splitOnP,
    List.splitOnP_append_cons_of_forall_mem hnot '\n' rfl]

theorem splitOn_flatMap {lines : List (List Char)} (h : ∀ line ∈ lines, '\n' ∉ line) :
    (lines.flatMap fun line => line ++ ['\n']).splitOn '\n' = lines ++ [[]] := by
  induction lines with
  | nil => rfl
  | cons line lines ih =>
      obtain ⟨hline, hlines⟩ := List.forall_mem_cons.1 h
      rw [List.flatMap_cons, List.append_assoc, List.singleton_append, splitOn_line hline,
        ih hlines]
      rfl

/-- Row by row, and in a row from the left. -/
def Precedes (ref other : CellRef) : Prop :=
  ref.row < other.row ∨ (ref.row = other.row ∧ ref.col < other.col)

/-- A line that starts with the address of a cell and gives back what stands in
it. -/
def IsLineOf (cell : CellRef × Cell) (line : List Char) : Prop :=
  (∃ content, line = cell.1.chars .relative ++ ':' :: ' ' :: content) ∧
    ∃ entry, Entry.ofCell? cell.2 = some entry ∧ readLine? line = some (cell.1, entry)

/-- The lines of a sheet: an empty one, the name in brackets, and one for each
cell that is not empty, in order. -/
def IsSection (sheet : Sheet) (lines : List (List Char)) : Prop :=
  ∃ cells cellLines, lines = [] :: ('[' :: sheet.name.toList ++ [']']) :: cellLines ∧
    cells.Pairwise (fun cell other => Precedes cell.1 other.1) ∧
    (∀ ref cell, (ref, cell) ∈ cells ↔ sheet.cells[ref]? = some cell ∧ cell ≠ .empty) ∧
    List.Forall₂ IsLineOf cells cellLines

theorem precedes_iff {ref other : CellRef} : compare ref other = .lt ↔ Precedes ref other := by
  show CellRef.order ref other = .lt ↔ _
  simp [CellRef.order, compareLex, compareOn, Precedes, Ordering.then_eq_lt, Nat.compare_eq_lt]

theorem isSome_line?_iff {ref : CellRef} {cell : Cell} :
    (line? ref cell).isSome = true ↔ cell ≠ .empty := by
  cases cell <;> simp [line?, content?]

theorem isLineOf_line {ref : CellRef} {cell : Cell} {line : List Char}
    (h : line? ref cell = some line) : IsLineOf (ref, cell) line := by
  obtain ⟨content, _, hline⟩ := Option.map_eq_some_iff.1 h
  exact ⟨⟨content, hline.symm⟩, readLine?_line h⟩

theorem forall₂_isLineOf (cells : List (CellRef × Cell)) :
    List.Forall₂ IsLineOf (cells.filter fun cell => (line? cell.1 cell.2).isSome)
      (cells.filterMap fun cell => line? cell.1 cell.2) := by
  induction cells with
  | nil => exact .nil
  | cons cell cells ih =>
      cases hline : line? cell.1 cell.2 with
      | none =>
          simpa [List.filter_cons, List.filterMap_cons, hline] using ih
      | some line =>
          simpa [List.filter_cons, List.filterMap_cons, hline] using ⟨isLineOf_line hline, ih⟩

/-- **The lines of a sheet** are one for each cell in order, and two before
them. -/
theorem isSection_sheetLines (sheet : Sheet) : IsSection sheet (sheetLines sheet) := by
  refine ⟨sheet.cells.toList.filter fun cell => (line? cell.1 cell.2).isSome, _, rfl, ?_, ?_,
    forall₂_isLineOf _⟩
  · exact (Std.TreeMap.ordered_keys_toList.imp fun h => precedes_iff.1 h).filter _
  · intro ref cell
    rw [List.mem_filter, Std.TreeMap.mem_toList_iff_getElem?_eq_some, isSome_line?_iff]

/-- Whether the listing of a workbook is split into a line with the id, then
the lines of each sheet, and nothing else. -/
def IsLineByLine (book : Workbook) : Prop :=
  ∃ sections, List.Forall₂ IsSection book.sheets sections ∧
    (text book).toList.splitOn '\n' =
      ("# Cyphergrid Template ".toList ++ book.templateId.toList) :: sections.flatten ++ [[]]

/-- **A workbook of single lines is listed line by line.** -/
theorem isLineByLine {book : Workbook} (hid : '\n' ∉ book.templateId.toList)
    (hsheets : ∀ sheet ∈ book.sheets, '\n' ∉ sheet.name.toList ∧
      ∀ (ref : CellRef) (cell : Cell), sheet.cells[ref]? = some cell → cell.IsOneLine) :
    IsLineByLine book := by
  have hlines : ∀ line ∈ lines book, '\n' ∉ line := by
    refine List.forall_mem_cons.2 ⟨?_, ?_⟩
    · rw [List.mem_append, not_or]
      exact ⟨by decide, hid⟩
    · intro line hline
      obtain ⟨sheet, hsheet, hmem⟩ := List.mem_flatMap.1 hline
      obtain ⟨hname, hcells⟩ := hsheets sheet hsheet
      rw [sheetLines, List.mem_cons, List.mem_cons] at hmem
      rcases hmem with rfl | rfl | hmem
      · exact List.not_mem_nil
      · simpa using hname
      · obtain ⟨⟨ref, cell⟩, hcell, hread⟩ := List.mem_filterMap.1 hmem
        rw [Std.TreeMap.mem_toList_iff_getElem?_eq_some] at hcell
        exact lineFeed_not_mem_line (hcells ref cell hcell) hread
  refine ⟨book.sheets.map sheetLines, ?_, ?_⟩
  · rw [List.forall₂_map_right_iff, List.forall₂_same]
    exact fun sheet _ => isSection_sheetLines sheet
  · rw [text, String.toList_ofList, splitOn_flatMap hlines, lines, List.flatMap_def]

end Listing

end SheetCipher
