import SheetCipher.Sheet.Grid
import SheetCipher.Template.LetterMap
import SheetCipher.Template.Operation

/-!
# KeyMap — the letter map as a sheet

Each letter has a row, upper case first: the letter, what it becomes and what
becomes it, in columns A to C. A letter's row follows from its code, so a
formula finds its entry by place.
-/

namespace SheetCipher

/-- A letter, what it becomes and what becomes it. -/
structure KeyRow where
  source : Char
  image : Char
  preimage : Char
deriving DecidableEq, Repr

namespace LetterMap

def keyRow (m : LetterMap) (c : Char) : Except Overrun KeyRow := do
  return { source := c, image := ← m.image c, preimage := ← m.preimage c }

def keyRows (m : LetterMap) : Except Overrun (List KeyRow) := letters.mapM m.keyRow

end LetterMap

namespace KeyMap

def sheetName : String := "KeyMap"

def column : Direction → Nat
  | .forward => 1
  | .inverse => 2

/-- The entries that a direction reads. -/
def block (direction : Direction) : ColumnBlock :=
  { sheet := sheetName, col := column direction, firstRow := 0, lastRow := 2 * alphabetSize - 1 }

/-- How many rows stand before those of a case. -/
def rowsBefore : LetterCase → Nat
  | .upper => 0
  | .lower => alphabetSize

def rowCells (index : Nat) (row : KeyRow) : List (CellRef × Cell) :=
  [(⟨0, index⟩, .text row.source.toString),
    (⟨column .forward, index⟩, .text row.image.toString),
    (⟨column .inverse, index⟩, .text row.preimage.toString)]

def grid (rows : List KeyRow) : Grid := Grid.ofCells (rows.mapIdx rowCells).flatten

end KeyMap

end SheetCipher
