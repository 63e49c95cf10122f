import SheetCipher.Layout.Compile

/-!
# Run — compiled grids at work

The texts are entered where a user would type them, the key map is the other
sheet, and what the result cell then shows is the answer.
-/

namespace SheetCipher

/-- What a user types. -/
structure Inputs where
  password : String := ""
  plaintext : String := ""
  ciphertext : String := ""
deriving DecidableEq

/-- What the two result cells show. -/
structure Outputs where
  encrypted : String
  decrypted : String
deriving DecidableEq

namespace Inputs

/-- The inputs as values of their cells. -/
def values (inputs : Inputs) : Values :=
  Std.TreeMap.ofList [
    (InputCell.plaintext, Value.text inputs.plaintext),
    (InputCell.password, Value.text inputs.password),
    (InputCell.ciphertext, Value.text inputs.ciphertext)]

def ofMode (password text : String) : Mode → Inputs
  | .encrypt => { password, plaintext := text }
  | .decrypt => { password, ciphertext := text }

end Inputs

namespace Grid

/-- The cells of a sheet as they are typed, each as a text. -/
def typedValues (grid : Grid) : Values := grid.map fun _ cell => .text cell.typed

end Grid

namespace CompiledGrid

/-- Works the grid out and reads its result. -/
def run (grid : CompiledGrid) (sheets : Sheets) (inputs : Inputs) :
    Except EvaluationError String :=
  let evaluation := grid.cells.evaluate sheets inputs.values
  match evaluation.failure with
  | some error => .error error
  | none => .ok ((evaluation.values[grid.plan.result]?).map Value.shown |>.getD "")

end CompiledGrid

namespace CompiledTemplate

/-- The sheets that the grids read: the key map. -/
def sheets (template : CompiledTemplate) : Sheets :=
  [(KeyMap.sheetName, (KeyMap.grid template.keyRows).typedValues)]

/-- Runs both grids on the same inputs. -/
def run (template : CompiledTemplate) (inputs : Inputs) : Except EvaluationError Outputs := do
  return {
    encrypted := ← template.encrypt.run template.sheets inputs
    decrypted := ← template.decrypt.run template.sheets inputs }

def runMode (template : CompiledTemplate) (mode : Mode) (password text : String) :
    Except EvaluationError String :=
  (template.grid mode).run template.sheets (Inputs.ofMode password text mode)

end CompiledTemplate

end SheetCipher
