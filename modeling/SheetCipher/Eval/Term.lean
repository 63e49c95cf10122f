import SheetCipher.Eval.Callee
import SheetCipher.Eval.Operator

/-!
# Term — formulas that have been read

A term is a formula as the evaluator holds it. Constants are values, references
are calls with numbers as arguments, and an `AND` is the list of all that has
to hold, those of an `AND` inside it included. Arguments are worked out from
left to right, conditions and `AND` only as far as they are needed.
-/

namespace SheetCipher

/-- A formula that has been read. -/
inductive Term where
  /-- A constant. -/
  | literal (v : Value)
  | call (f : Callee) (args : List Term)
  /-- Whether all terms hold. -/
  | all (terms : List Term)
  /-- Two operands and the operator between them. -/
  | binary (op : ValueOperator) (lhs rhs : Term)
  /-- One of two terms, as the condition says. -/
  | cond (condition thenTerm elseTerm : Term)
deriving Inhabited

namespace Value

def asBool : Value → Except Fault Bool
  | bool b => .ok b
  | v => .error (.wrongType v.typeName (bool true).typeName)

end Value

namespace Term

/-- The terms that have to hold for a term to hold. -/
def conjuncts : Term → List Term
  | all terms => terms
  | t => [t]

/-- A row or column number as an argument. -/
def number (n : Nat) : Term := literal (.ofInt n)

def cell (ref : CellRef) : Term := call .value [number ref.col, number ref.row]

/-- A reference to a column at a computed row. -/
def indirect (col : Nat) (row : Term) : Term := call .indirect [number col, row]

/-- A reference to a block at a computed place. -/
def index (block : ColumnBlock) (position : Term) : Term :=
  call .index [literal (.text block.sheet), number block.col, number block.firstRow,
    number block.lastRow, position]

mutual

/-- Works a term out against the values of its own sheet and of the others. -/
def eval (sheets : Sheets) (values : Values) : Term → Except Fault Value
  | literal v => .ok v
  | call f args => do f.apply sheets values (← evalArgs sheets values args)
  | all terms => do return .bool (← holdAll sheets values terms)
  | binary op lhs rhs => do
      let a ← eval sheets values lhs
      let b ← eval sheets values rhs
      op.apply a b
  | cond condition thenTerm elseTerm => do
      let v ← eval sheets values condition
      if ← v.asBool then eval sheets values thenTerm else eval sheets values elseTerm

/-- Works arguments out in order. -/
def evalArgs (sheets : Sheets) (values : Values) : List Term → Except Fault (List Value)
  | [] => .ok []
  | t :: ts => do
      let v ← eval sheets values t
      return v :: (← evalArgs sheets values ts)

/-- Whether all terms hold, as far as the first that does not. -/
def holdAll (sheets : Sheets) (values : Values) : List Term → Except Fault Bool
  | [] => .ok true
  | t :: ts => do
      let v ← eval sheets values t
      if ← v.asBool then holdAll sheets values ts else return false

end

end Term

end SheetCipher
