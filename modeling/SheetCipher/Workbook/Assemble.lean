import SheetCipher.Layout.Compile
import SheetCipher.Workbook.Sheet

/-!
# Assemble — the workbook of a template

Three sheets: both grids with their column heads, labels and result cells; the
key map; and instructions in plain text. The three cells that a user fills in
are left free.
-/

namespace SheetCipher

namespace Workbook

/-- The name of the sheet with the grids. -/
def algorithmName : String := "Algorithm"

def instructionsName : String := "Instructions"

/-- The column heads of a grid in a row. -/
def headerCells (plan : GridPlan) (row : Nat) : List (CellRef × Cell) :=
  plan.headers.map fun header => (⟨header.1, row⟩, .text header.2)

def label (ref : CellRef) (text : String) : CellRef × Cell :=
  (⟨ref.col - 1, ref.row⟩, .text text)

/-- The labels of the cells that a user fills in. -/
def inputLabels : List (CellRef × Cell) :=
  [label InputCell.plaintext "Plaintext",
    label InputCell.password "Password",
    label InputCell.ciphertext "Ciphertext"]

/-- A grid with the label of its result. -/
def gridCells (grid : CompiledGrid) (text : String) : List (CellRef × Cell) :=
  label grid.plan.result text :: grid.cells.toList

/-- The cells of the sheet with the grids. -/
def algorithmCells (template : CompiledTemplate) : List (CellRef × Cell) :=
  headerCells template.encrypt.plan 0 ++
    headerCells template.decrypt.plan (template.decrypt.plan.originRow - 1) ++
    inputLabels ++
    gridCells template.encrypt "Encrypted" ++
    gridCells template.decrypt "Decrypted"

def instructionLines (template : CompiledTemplate) : List String :=
  let capacity := toString template.capacity
  let password := InputCell.password.text
  [ "Cyphergrid template " ++ template.spec.templateId,
    "",
    "Encrypt",
    "  1. On the " ++ algorithmName ++ " sheet, type your password into " ++ password ++ ".",
    "  2. Type the text to protect into " ++ InputCell.plaintext.text ++ ".",
    "  3. The encrypted text appears in " ++ template.encrypt.plan.result.text ++
      ". Keep a copy of it.",
    "",
    "Decrypt",
    "  1. Type the same password into " ++ password ++ ".",
    "  2. Paste the encrypted text into " ++ InputCell.ciphertext.text ++ ".",
    "  3. The original text appears in " ++ template.decrypt.plan.result.text ++ ".",
    "",
    "Notes",
    "  Only the letters A-Z and a-z change. Other characters keep their value but may move.",
    "  Text longer than " ++ capacity ++ " characters is cut off at " ++ capacity ++ ".",
    "  Decrypting needs both this workbook and the password. Store them apart." ]

/-- Lines down column A; an empty line has no cell. -/
def lineCells (lines : List String) : List (CellRef × Cell) :=
  (lines.mapIdx fun row line => ((⟨0, row⟩ : CellRef), line)).filterMap fun entry =>
    if entry.2 = "" then none else some (entry.1, .text entry.2)

def assemble (template : CompiledTemplate) : Workbook :=
  { templateId := template.spec.templateId
    sheets := [
      ⟨algorithmName, Grid.ofCells (algorithmCells template)⟩,
      ⟨KeyMap.sheetName, KeyMap.grid template.keyRows⟩,
      ⟨instructionsName, Grid.ofCells (lineCells (instructionLines template))⟩] }

end Workbook

end SheetCipher
