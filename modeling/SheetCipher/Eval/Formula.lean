import SheetCipher.Eval.Read
import SheetCipher.Eval.Simplify
import SheetCipher.Script.Run
import SheetCipher.Sheet.Formula.Script

/-!
# Formula — the value of a formula

A formula is read, simplified and worked out. The names of sheets stand in its
script as they are; only a name that could end the text it stands in, or mean
something else inside it, makes it necessary to run the script itself.
-/

namespace SheetCipher

namespace Formula

/-- Whether the name of a sheet stands for itself between quotes. -/
def isPlainName (name : String) : Bool :=
  name.toList.all fun c => c ≠ '"' && c ≠ '\\' && c ≠ '\n'

/-- Whether the names of all sheets stand for themselves. -/
def isPlain (e : Formula) : Bool := e.blocks.all fun block => isPlainName block.sheet

/-- The value of a formula whose names stand for themselves, if it is not
rejected. -/
def plainValue (e : Formula) (sheets : Sheets) (values : Values) : Except Fault Value :=
  match e.read fullRoom with
  | .error fault => .error (.syntaxFault fault)
  | .ok t => t.simplify.eval sheets values

def value (e : Formula) (sheets : Sheets) (values : Values) : Except Fault Value :=
  if e.isPlain then e.plainValue sheets values else Script.value e.scriptChars sheets values

end Formula

namespace Cell

/-- The value of a cell: what stands in it, or what its formula comes to. -/
def value (cell : Cell) (sheets : Sheets) (values : Values) : Except Fault Value :=
  match cell with
  | empty => .ok (.text "")
  | text s => .ok (.text s)
  | number n => .ok (.int n)
  | formula e _ => e.value sheets values

end Cell

end SheetCipher
