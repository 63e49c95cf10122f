import SheetCipher.Sheet.Grid

/-!
# Sheet — named grids and the workbook they make up
-/

namespace SheetCipher

/-- A named sheet of cells. -/
structure Sheet where
  name : String
  cells : Grid

/-- The sheets of a template. -/
structure Workbook where
  templateId : String
  sheets : List Sheet

namespace Workbook

/-- The workbook itself, if all rows that its formulas name are numbered; no
other workbook can be written. -/
def numbered (book : Workbook) : Except Overrun Workbook :=
  if book.sheets.all fun sheet => sheet.cells.isNumbered then .ok book
  else .error .sum

def sheet? (book : Workbook) (name : String) : Option Sheet :=
  book.sheets.find? fun sheet => sheet.name == name

end Workbook

end SheetCipher
