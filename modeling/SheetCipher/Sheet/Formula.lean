import Std.Data.TreeSet
import SheetCipher.Sheet.CellRef

/-!
# Formula — the expressions of a sheet

Formulas are trees over texts, 64-bit integers and cell references. Two kinds
of reference are known only when a formula is worked out: an indirect reference
computes the row it reads, and an index reads a place of a column of another
sheet. What a formula may read on its own sheet is a list of cells, and for
each column that it refers to indirectly the rows that it may land on.
-/

namespace SheetCipher

/-- The functions a formula may call. -/
inductive Builtin where
  /-- Characters of a text from a place on. -/
  | mid
  /-- The code point of the first character. -/
  | code
  /-- The character of a code point. -/
  | char
  /-- The remainder with the sign of the divisor. -/
  | mod
  /-- The number of characters. -/
  | len
  /-- The smaller of two numbers. -/
  | min
deriving DecidableEq, Repr

/-- The operators between two operands. -/
inductive Operator where
  | add
  | sub
  | concat
  | eq
  | gt
  | ge
  | le
deriving DecidableEq, Repr

/-- A run of rows, the last one excluded. -/
structure RowRange where
  start : Nat
  stop : Nat
deriving DecidableEq, Repr

namespace RowRange

def rows (range : RowRange) : List Nat := List.range' range.start (range.stop - range.start)

def Holds (range : RowRange) (row : Nat) : Prop := range.start ≤ row ∧ row < range.stop

instance (range : RowRange) (row : Nat) : Decidable (range.Holds row) :=
  inferInstanceAs (Decidable (_ ∧ _))

@[simp] theorem mem_rows {range : RowRange} {row : Nat} : row ∈ range.rows ↔ range.Holds row := by
  simp only [rows, List.mem_range'_1, Holds]
  omega

end RowRange

/-- Rows `firstRow` to `lastRow` of a column of another sheet. -/
structure ColumnBlock where
  sheet : String
  col : Nat
  firstRow : Nat
  lastRow : Nat
deriving DecidableEq, Repr

/-- What a cell may read on its own sheet. -/
inductive Dependency where
  | cell (ref : CellRef)
  /-- Any cell of a column in a range of rows. -/
  | column (col : Nat) (rows : RowRange)
deriving DecidableEq, Repr

namespace Dependency

def refs : Dependency → List CellRef
  | cell ref => [ref]
  | column col rows => rows.rows.map fun row => ⟨col, row⟩

end Dependency

/-- A formula. -/
inductive Formula where
  /-- A literal text. -/
  | text (s : String)
  /-- A literal integer. -/
  | int (n : Int64)
  /-- A cell of the same sheet. -/
  | cell (ref : CellRef) (anchor : Anchor)
  /-- A call of a function. -/
  | call (f : Builtin) (args : List Formula)
  /-- Whether all arguments hold. -/
  | all (args : List Formula)
  /-- Two operands and the operator between them. -/
  | binary (op : Operator) (lhs rhs : Formula)
  /-- One of two formulas, as the condition says. -/
  | cond (condition thenForm elseForm : Formula)
  /-- The cell of a column whose row, counted from 1, is computed. -/
  | indirect (col : Nat) (row : Formula)
  /-- The entry of a block at a computed place, counted from 1. -/
  | index (block : ColumnBlock) (position : Formula)
deriving Inhabited

namespace Formula

mutual

/-- The cells that are referred to directly, as often as they occur. -/
def cells : Formula → List CellRef
  | text _ | int _ => []
  | cell ref _ => [ref]
  | call _ args => cellsOfAll args
  | all args => cellsOfAll args
  | binary _ lhs rhs => lhs.cells ++ rhs.cells
  | cond condition thenForm elseForm => condition.cells ++ thenForm.cells ++ elseForm.cells
  | indirect _ row => row.cells
  | index _ position => position.cells

/-- The direct references of several formulas. -/
def cellsOfAll : List Formula → List CellRef
  | [] => []
  | e :: es => e.cells ++ cellsOfAll es

end

mutual

/-- The columns that are referred to indirectly, as often as they occur. -/
def columns : Formula → List Nat
  | text _ | int _ | cell _ _ => []
  | call _ args => columnsOfAll args
  | all args => columnsOfAll args
  | binary _ lhs rhs => lhs.columns ++ rhs.columns
  | cond condition thenForm elseForm => condition.columns ++ thenForm.columns ++ elseForm.columns
  | indirect col row => row.columns ++ [col]
  | index _ position => position.columns

/-- The indirect references of several formulas. -/
def columnsOfAll : List Formula → List Nat
  | [] => []
  | e :: es => e.columns ++ columnsOfAll es

end

mutual

/-- The blocks that are referred to, as often as they occur. -/
def blocks : Formula → List ColumnBlock
  | text _ | int _ | cell _ _ => []
  | call _ args => blocksOfAll args
  | all args => blocksOfAll args
  | binary _ lhs rhs => lhs.blocks ++ rhs.blocks
  | cond condition thenForm elseForm => condition.blocks ++ thenForm.blocks ++ elseForm.blocks
  | indirect _ row => row.blocks
  | index block position => block :: position.blocks

def blocksOfAll : List Formula → List ColumnBlock
  | [] => []
  | e :: es => e.blocks ++ blocksOfAll es

end

/-- What the formula may read if its indirect references land on `rows`: the
cells in sheet order, then the columns in order, none of them twice. -/
def dependencies (e : Formula) (rows : RowRange) : List Dependency :=
  (Std.TreeSet.ofList e.cells).toList.map .cell ++
    (Std.TreeSet.ofList e.columns).toList.map fun col => .column col rows

theorem cell_mem_dependencies {e : Formula} {rows : RowRange} {ref : CellRef} :
    .cell ref ∈ e.dependencies rows ↔ ref ∈ e.cells := by
  simp [dependencies]

theorem column_mem_dependencies {e : Formula} {rows range : RowRange} {col : Nat} :
    .column col range ∈ e.dependencies rows ↔ col ∈ e.columns ∧ rows = range := by
  constructor
  · intro h
    rcases List.mem_append.1 h with h | h
    · obtain ⟨_, _, h⟩ := List.mem_map.1 h
      cases h
    · obtain ⟨col, hcol, h⟩ := List.mem_map.1 h
      cases h
      exact ⟨by simpa using hcol, rfl⟩
  · intro ⟨h, hrows⟩
    subst hrows
    exact List.mem_append_right _ (List.mem_map.2 ⟨col, by simpa using h, rfl⟩)

end Formula

end SheetCipher
