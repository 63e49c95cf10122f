import Std.Data.TreeMap
import SheetCipher.Sheet.Formula.Text

/-!
# Grid — cells by address

A cell holds nothing, a text, a number or a formula. A formula cell also says
on which rows its indirect references may land, and what the cell depends on
follows from the two: no cell is ever made with other dependencies. A grid keeps
its cells in sheet order.
-/

namespace SheetCipher

/-- What stands in a cell. -/
inductive Cell where
  | empty
  | text (s : String)
  | number (n : Int64)
  /-- A formula whose indirect references land on `rows`. -/
  | formula (e : Formula) (rows : RowRange)
deriving Inhabited

namespace Cell

/-- What the cell may read. -/
def dependencies : Cell → List Dependency
  | empty | text _ | number _ => []
  | formula e rows => e.dependencies rows

def isFormula : Cell → Bool
  | formula _ _ => true
  | _ => false

def typed : Cell → String
  | empty => ""
  | text s => s
  | number n => String.ofList (Decimal.ofInt n.toInt)
  | formula e _ => String.ofList ('=' :: e.chars)

/-- Whether all rows that the formula of a cell names are numbered. -/
def isNumbered : Cell → Bool
  | formula e _ => e.isNumbered
  | _ => true

/-- The cell as it is shown, if all rows in it are numbered. -/
def shown (cell : Cell) : Except Overrun String :=
  if cell.isNumbered then .ok cell.typed else .error .sum

/-- The word for what stands in the cell. -/
def kind : Cell → String
  | empty => "empty"
  | text _ => "text"
  | number _ => "number"
  | formula _ _ => "formula"

end Cell

/-- Cells by address, in sheet order. -/
abbrev Grid := Std.TreeMap CellRef Cell

/-- What each cell may read, by address, in sheet order. -/
abbrev DependencyGraph := Std.TreeMap CellRef (List Dependency)

namespace Grid

/-- The grid of a list of cells; a later cell replaces an earlier one at the
same address. -/
def ofCells (cells : List (CellRef × Cell)) : Grid := Std.TreeMap.ofList cells

/-- Whether all rows that the formulas of a grid name are numbered. -/
def isNumbered (grid : Grid) : Bool := grid.toList.all fun entry => entry.2.isNumbered

/-- What the cells of a grid may read. -/
def dependencies (grid : Grid) : DependencyGraph := grid.map fun _ cell => cell.dependencies

end Grid

end SheetCipher
