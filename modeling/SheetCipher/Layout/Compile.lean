import SheetCipher.Eval.Grid
import SheetCipher.Layout.Plan

/-!
# Compile — a spec as formulas

A spec becomes two grids, one per mode, and the sheet of its letter map. The
capacity is checked first, then the spec; a grid whose cells depend on
themselves would be refused, and none of these does.
-/

namespace SheetCipher

/-- The largest capacity that a grid may have. -/
def maxCapacity : Nat := 4096

/-- Why no grids come out. -/
inductive CompileError where
  /-- The capacity is 0 or too large. -/
  | capacity (requested : Nat)
  /-- The spec is not usable. -/
  | template (error : TemplateError)
  /-- Cells depend on themselves. -/
  | circular (path : List CellRef)
deriving DecidableEq

namespace CompileError

def message : CompileError → String
  | capacity requested =>
    "Grid capacity " ++ toString requested ++ " is out of range (1..=" ++
      toString maxCapacity ++ ")"
  | template error => error.message
  | circular path => (EvaluationError.circular path).message

/-- A part of a compilation that concerns the spec. -/
def ofTemplate {α : Type} : Except TemplateError α → Except CompileError α
  | .ok a => .ok a
  | .error e => .error (.template e)

end CompileError

/-- A plan with its cells. -/
structure CompiledGrid where
  plan : GridPlan
  cells : Grid

namespace CompiledGrid

/-- The cells of a plan, if they can be worked out in some order. -/
def ofPlan (plan : GridPlan) : Except CompileError CompiledGrid :=
  let cells := Grid.ofCells plan.cells
  match cells.evaluationOrder with
  | .ok _ => .ok ⟨plan, cells⟩
  | .error path => .error (.circular path)

/-- The formulas with their cells, in sheet order. -/
def formulas (grid : CompiledGrid) : List (CellRef × Formula) :=
  grid.cells.toList.filterMap fun entry =>
    match entry.2 with
    | .formula e _ => some (entry.1, e)
    | _ => none

end CompiledGrid

/-- The grids of a spec and the rows of its key map. -/
structure CompiledTemplate where
  spec : Spec
  capacity : Nat
  encrypt : CompiledGrid
  decrypt : CompiledGrid
  keyRows : List KeyRow

namespace CompiledTemplate

def grid (template : CompiledTemplate) : Mode → CompiledGrid
  | .encrypt => template.encrypt
  | .decrypt => template.decrypt

end CompiledTemplate

namespace Spec

/-- The grids of a spec for texts of up to `capacity` characters. -/
def compile (spec : Spec) (capacity : Nat) : Except CompileError CompiledTemplate :=
  if 1 ≤ capacity ∧ capacity ≤ maxCapacity then do
    CompileError.ofTemplate spec.validate
    let encrypt ← CompiledGrid.ofPlan (GridPlan.ofSpec spec capacity .encrypt)
    let decrypt ← CompiledGrid.ofPlan (GridPlan.ofSpec spec capacity .decrypt)
    let keyRows ← CompileError.ofTemplate (TemplateError.ofOverrun spec.mapping.keyRows)
    return { spec, capacity, encrypt, decrypt, keyRows }
  else .error (.capacity capacity)

end Spec

end SheetCipher
