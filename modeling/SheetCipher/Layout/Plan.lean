import SheetCipher.Layout.StageFormula

/-!
# Plan — where everything of a grid stands

Each mode has a grid: a row for every position and a column for every stage.
Column A holds the position, column B the character of the input, then each
operation has a column, and the last column joins the characters from the top
down, so that its last cell holds the whole result. One more cell outside the
rows shows it.
-/

namespace SheetCipher

/-- What a column of a grid holds. -/
inductive StageKind where
  /-- The positions. -/
  | index
  /-- The characters of the input. -/
  | explode
  /-- The characters after an operation. -/
  | operation (op : Operation) (direction : Direction)
  /-- The characters so far, joined. -/
  | fold
deriving DecidableEq, Repr

namespace StageKind

def isOperation : StageKind → Bool
  | operation _ _ => true
  | _ => false

/-- The head of the column; `step` counts the operations up to it. -/
def header (step : Nat) : StageKind → String
  | index => "Index"
  | explode => "Input Char"
  | operation op .forward => "Step " ++ toString step ++ ": " ++ op.name
  | operation op .inverse => "Step " ++ toString step ++ ": inverse " ++ op.name
  | fold => "Output"

end StageKind

/-- A column and what it holds. -/
structure StageColumn where
  col : Nat
  kind : StageKind
deriving DecidableEq, Repr

/-- The grid of one mode: how many positions it has, the row of the first one
and the cell that shows the result. -/
structure GridPlan where
  spec : Spec
  mode : Mode
  capacity : Nat
  originRow : Nat
  result : CellRef

namespace GridPlan

/-- The row of the first position of the encrypt grid: row 10 of the sheet. -/
def encryptOriginRow : Nat := 9

/-- How many rows stay free between the two grids. -/
def gap : Nat := 50

def ofSpec (spec : Spec) (capacity : Nat) : Mode → GridPlan
  | .encrypt =>
    { spec, mode := .encrypt, capacity,
      originRow := encryptOriginRow,
      result := ⟨spec.operations.length, 1⟩ }
  | .decrypt =>
    { spec, mode := .decrypt, capacity,
      originRow := encryptOriginRow + capacity + gap,
      result := ⟨spec.operations.length, 4⟩ }

/-- Where the text is typed. -/
def input (plan : GridPlan) : CellRef := InputCell.ofMode plan.mode

def rows (plan : GridPlan) : RowRange := ⟨plan.originRow, plan.originRow + plan.capacity⟩

/-- What the columns hold, from the left. -/
def kinds (plan : GridPlan) : List StageKind :=
  .index :: .explode ::
    (plan.spec.stages plan.mode).map (fun stage => .operation stage.1 stage.2) ++ [.fold]

def columns (plan : GridPlan) : List StageColumn :=
  plan.kinds.mapIdx fun col kind => ⟨col, kind⟩

/-- The heads of the columns; operations are numbered from 1. -/
def headers (plan : GridPlan) : List (Nat × String) :=
  plan.columns.map fun column =>
    let step := (plan.kinds.take (column.col + 1)).countP StageKind.isOperation
    (column.col, column.kind.header step)

/-- The formula of an operation in a row, reading the column `col`. -/
def operationFormula (plan : GridPlan) (op : Operation) (direction : Direction)
    (col row : Nat) : Formula :=
  let before : Formula := .cell ⟨col, row⟩ .relative
  match op with
  | .substitute | .xor => .rotated direction (plan.spec.shiftOf op) row before
  | .reverse => .turned plan.mode plan.capacity plan.originRow row col
  | .map => .mapped direction before

def formulaCell (plan : GridPlan) (e : Formula) : Cell := .formula e plan.rows

def cell (plan : GridPlan) (column : StageColumn) (row : Nat) : Cell :=
  let before : Formula := .cell ⟨column.col - 1, row⟩ .relative
  match column.kind with
  | .index => .number (Int64.ofNat (row - plan.originRow + 1))
  | .explode => plan.formulaCell (.explode plan.mode row)
  | .operation op direction =>
    plan.formulaCell (plan.operationFormula op direction (column.col - 1) row)
  | .fold =>
    if row = plan.originRow then plan.formulaCell before
    else plan.formulaCell (.joined (.cell ⟨column.col, row - 1⟩ .relative) before)

/-- The cell that holds the whole result: the last one of the last column. -/
def output (plan : GridPlan) : CellRef :=
  ⟨plan.kinds.length - 1, plan.originRow + plan.capacity - 1⟩

/-- All cells with their addresses. -/
def cells (plan : GridPlan) : List (CellRef × Cell) :=
  (plan.rows.rows.flatMap fun row =>
    plan.columns.map fun column => (⟨column.col, row⟩, plan.cell column row)) ++
  [(plan.result, plan.formulaCell (.cell plan.output .relative))]

/-- The row of a position, counted from 1, if the number behind it is a word. -/
def rowOf (plan : GridPlan) (position : Nat) : Except Overrun Nat :=
  let number := plan.originRow + position
  if Word.count ≤ number then .error .sum
  else if number = 0 then .error .difference
  else .ok (number - 1)

/-- The cell of a column, by its place in the list, at a position. -/
def cellAt (plan : GridPlan) (stage position : Nat) : Except Overrun CellRef := do
  let column ← Overrun.lookup plan.columns stage
  return ⟨column.col, ← plan.rowOf position⟩

end GridPlan

end SheetCipher
