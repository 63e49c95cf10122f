import SheetCipher.Eval.Formula
import SheetCipher.Eval.Order

/-!
# Grid — the values of a whole grid

The cells are worked out in an order in which each comes after those that it
depends on, and each value is entered at once, in place of any value that the
address had. The first cell without a value ends the evaluation; what was
entered before stays. What a cell is said to depend on settles the order and
nothing else, and need not be what the cell reads.
-/

namespace SheetCipher

/-- Why a grid cannot be worked out. -/
inductive EvaluationError where
  /-- Cells depend on themselves; the way to one and round the circle. -/
  | circular (path : List CellRef)
  /-- The formula of a cell has no value. -/
  | formula (ref : CellRef) (fault : Fault)

namespace EvaluationError

def message : EvaluationError → String
  | circular path =>
    "Circular dependency: " ++ " -> ".intercalate (path.map fun ref => ref.text)
  | formula _ (.overrun report) => report.message
  | formula ref fault => "Error evaluating " ++ ref.text ++ ": " ++ fault.message

end EvaluationError

/-- What an evaluation leaves: the values, and why it stopped if it did. -/
structure Evaluation where
  values : Values
  failure : Option EvaluationError

namespace Grid

/-- Works cells out in the given order, entering each value. -/
def evaluateCells (grid : Grid) (sheets : Sheets) : List CellRef → Values → Evaluation
  | [], values => ⟨values, none⟩
  | ref :: rest, values =>
    match grid[ref]? with
    | none => evaluateCells grid sheets rest values
    | some cell =>
      match cell.value sheets values with
      | .ok v => evaluateCells grid sheets rest (values.insert ref v)
      | .error fault => ⟨values, some (.formula ref fault)⟩

/-- Works a grid out in an order for some dependencies of its cells, starting
from values that are already there. -/
def evaluateBy (grid : Grid) (dependencies : DependencyGraph) (sheets : Sheets) (values : Values) :
    Evaluation :=
  match dependencies.order with
  | .ok order => grid.evaluateCells sheets order values
  | .error path => ⟨values, some (.circular path)⟩

/-- Works a grid out whose cells depend on what they may read. -/
def evaluate (grid : Grid) (sheets : Sheets) (values : Values) : Evaluation :=
  grid.evaluateBy grid.dependencies sheets values

end Grid

end SheetCipher
