import SheetCipher.Sheet.Grid

/-!
# Order — cells after what they depend on

Depth-first search from each cell in sheet order: a cell is placed when all
that it depends on is placed. A column of which every row has been searched is
not searched again. Coming upon a cell that is being searched closes a circle,
and the way to it is the report. Addresses outside the graph are inputs and
depend on nothing.
-/

namespace SheetCipher

/-- What a search has done so far. -/
structure Walk where
  placed : Std.TreeSet CellRef := ∅
  /-- The placed cells, last one first. -/
  order : List CellRef := []
  /-- The columns that have been searched, with the rows. -/
  columns : List (Nat × RowRange) := []

namespace Walk

def place (w : Walk) (ref : CellRef) : Walk :=
  { w with placed := w.placed.insert ref, order := ref :: w.order }

/-- Notes that a column has been searched. -/
def closeColumn (w : Walk) (col : Nat) (rows : RowRange) : Walk :=
  { w with columns := (col, rows) :: w.columns }

end Walk

namespace DependencyGraph

/-- Searches what a dependency stands for, cell by cell through `go`. -/
def follow (go : Walk → CellRef → Except (List CellRef) Walk) (w : Walk) :
    Dependency → Except (List CellRef) Walk
  | .cell target => go w target
  | .column col rows =>
    if (col, rows) ∈ w.columns then .ok w
    else do
      let w ← rows.rows.foldlM (fun w row => go w ⟨col, row⟩) w
      return w.closeColumn col rows

/-- Searches one cell, `path` being the cells that are being searched, last one
first. The steps are a bound on the depth that is left. -/
def visit (graph : DependencyGraph) :
    (steps : Nat) → (path : List CellRef) → Walk → CellRef → Except (List CellRef) Walk
  | 0, _, w, _ => .ok w
  | steps + 1, path, w, ref =>
    if w.placed.contains ref then .ok w
    else
      match graph[ref]? with
      | none => .ok w
      | some dependencies =>
        if ref ∈ path then .error (path.reverse ++ [ref])
        else do
          let w ← dependencies.foldlM (follow (visit graph steps (ref :: path))) w
          return w.place ref

/-- All cells of the graph, each after those that it depends on; or the way
into a circle and round it. -/
def order (graph : DependencyGraph) : Except (List CellRef) (List CellRef) := do
  let w ← graph.keys.foldlM (fun w ref => visit graph (graph.size + 1) [] w ref) {}
  return w.order.reverse

end DependencyGraph

namespace Grid

/-- The cells of a grid in an order in which they can be worked out. -/
def evaluationOrder (grid : Grid) : Except (List CellRef) (List CellRef) :=
  DependencyGraph.order grid.dependencies

end Grid

end SheetCipher
