import SheetCipher.Workbook.Sheet

/-!
# Listing — a workbook as plain text

The id, then each sheet under its name with one line per cell in sheet order:
the address and what stands in the cell. Texts are in quotes.
-/

namespace SheetCipher.Listing

/-- What the line of a cell says; empty cells have none. -/
def content? : Cell → Option (List Char)
  | .empty => none
  | .text s => some (Quoted.escaped s.toList)
  | .number n => some (Decimal.ofInt n.toInt)
  | .formula e _ => some ('=' :: e.chars)

def line? (ref : CellRef) (cell : Cell) : Option (List Char) :=
  (content? cell).map fun content => ref.chars .relative ++ ':' :: ' ' :: content

/-- The lines of a sheet: an empty one, its name, its cells. -/
def sheetLines (sheet : Sheet) : List (List Char) :=
  [] :: ('[' :: sheet.name.toList ++ [']']) ::
    sheet.cells.toList.filterMap fun entry => line? entry.1 entry.2

def lines (book : Workbook) : List (List Char) :=
  ("# Cyphergrid Template ".toList ++ book.templateId.toList) :: book.sheets.flatMap sheetLines

/-- The text of a workbook; every line ends with a line feed. -/
def text (book : Workbook) : String :=
  String.ofList ((lines book).flatMap fun line => line ++ ['\n'])

/-- The listing of a workbook as it is shown, if all its rows are numbered. -/
def shown (book : Workbook) : Except Overrun String := text <$> book.numbered

end SheetCipher.Listing
