import SheetCipher.Workbook.Sheet

/-!
# Csv — sheets as comma-separated values

A sheet is written from A1 on, row by row, so that addresses survive; rows end
with a line feed. A field with a comma, a quote or a line end stands in quotes,
each quote inside written twice. A text that a spreadsheet would take for a
formula gets an apostrophe in front. A formula that cannot be shown leaves the
whole sheet without a text.
-/

namespace SheetCipher.Csv

/-- Whether a text that starts with this character, blanks skipped, would be
read as a formula. -/
def startsFormula (c : Char) : Bool := c = '=' || c = '+' || c = '-' || c = '@'

/-- Whether a character is a blank that is skipped. -/
def isBlank (c : Char) : Bool := c = ' ' || c = '\t'

/-- A text that is not read as a formula. -/
def guarded (text : List Char) : List Char :=
  if (text.dropWhile isBlank).head?.any startsFormula then '\'' :: text else text

def needsQuotes (field : List Char) : Bool :=
  field.any fun c => c = ',' || c = '"' || c = '\n' || c = '\r'

def escaped (field : List Char) : List Char :=
  if needsQuotes field then Quoted.doubled field else field

/-- What a cell puts into its field, if all rows in it are numbered. -/
def content : Cell → Except Overrun (List Char)
  | .empty => .ok []
  | .text s => .ok (guarded s.toList)
  | .number n => .ok (Decimal.ofInt n.toInt)
  | .formula e _ => do return '=' :: (← e.shown).toList

def field (cells : Grid) (ref : CellRef) : Except Overrun (List Char) :=
  match cells[ref]? with
  | some cell => escaped <$> content cell
  | none => .ok []

/-- A record: fields with commas between them. -/
def record (fields : List (List Char)) : List Char := List.intercalate [','] fields

/-- The last row and the last column that a cell stands in. -/
def extent (cells : Grid) : Nat × Nat :=
  cells.keys.foldl (fun last ref => (max last.1 ref.row, max last.2 ref.col)) (0, 0)

/-- The fields of a sheet, row by row, up to its last row and column. -/
def fields (cells : Grid) : Except Overrun (List (List (List Char))) :=
  let last := extent cells
  (List.range (last.1 + 1)).mapM fun row =>
    (List.range (last.2 + 1)).mapM fun col => field cells ⟨col, row⟩

/-- The characters of a sheet; none if it has no cells. -/
def chars (cells : Grid) : Except Overrun (List Char) :=
  if cells.isEmpty then .ok []
  else do return (← fields cells).flatMap fun row => record row ++ ['\n']

/-- The text of a sheet, if all its formulas can be shown. -/
def text (cells : Grid) : Except Overrun String := String.ofList <$> chars cells

/-! ## File names -/

/-- Whether a character stands in a file name as it is: an ASCII letter or
digit, `-` or `_`. -/
def isNameChar (c : Char) : Bool := c.isAlphanum || c = '-' || c = '_'

/-- A text as the beginning of a file name: letters, digits, `-` and `_` stay,
anything else becomes `_`. -/
def fileStem (stem : String) : String :=
  String.ofList (stem.toList.map fun c => if isNameChar c then c else '_')

def fileName (stem sheetName : String) : String :=
  fileStem stem ++ "-" ++ sheetName ++ ".csv"

end SheetCipher.Csv
