import SheetCipher.Eval.Levels

/-!
# Read — formulas that are rejected unseen

Before a formula is worked out it is read once from left to right. It is
rejected at the first text that runs over a line end, at the first constant
that stands as a condition or among several arguments of `AND`, or where it
gets too deep. Names of sheets are taken as they are.
-/

namespace SheetCipher

namespace Formula

/-- A text, if it ends on the line on which it starts. -/
def readText (s : String) : Except SyntaxFault Term :=
  if '\n' ∈ s.toList then .error .openText else .ok (.literal (.text s))

/-- Rejects a text that runs over a line end in front of all other arguments; it
is seen before the arguments take a level. -/
def checkFront : List Formula → Except SyntaxFault Unit
  | text s :: _ => do let _ ← readText s
  | _ => .ok ()

mutual

/-- Reads a formula that has `room` levels left. -/
def read (room : Nat) : Formula → Except SyntaxFault Term
  | text s => readText s
  | int n => .ok (.literal (.int n))
  | cell ref _ => do
      let _ ← spend nestingRoom room
      return .cell ref
  | call f args => do
      checkFront args
      return .call (.builtin f) (← readArgs room args)
  | all [] => .ok (.literal .blank)
  | all (e :: es) => do
      let inner ← spend nestingRoom room
      let first ← read inner e
      readConjuncts inner first es
  | binary op lhs rhs => do
      let inner ← spend nestingRoom room
      let lhs ← read inner lhs
      let rhs ← read inner rhs
      let _ ← spend operatorRoom inner
      return .binary op.onValues lhs rhs
  | cond condition thenForm elseForm => do
      let condition ← read (← spend conditionRoom room) condition
      condition.needTruth
      let inner ← spend branchRoom room
      let thenTerm ← read inner thenForm
      let elseTerm ← read inner elseForm
      return .cond condition thenTerm elseTerm
  | indirect col row => do
      let inner ← spend nestingRoom room
      return .indirect col (← read inner row)
  | index block position => do
      let inner ← spend nestingRoom room
      return .index block (← read inner position)

/-- Reads the arguments of a call that has `room` levels left. -/
def readArgs (room : Nat) : List Formula → Except SyntaxFault (List Term)
  | [] => .ok []
  | e :: es => do
      let inner ← spend nestingRoom room
      let t ← read inner e
      return t :: (← readArgs room es)

/-- Reads the arguments of an `AND` behind those that came to `before`. -/
def readConjuncts (room : Nat) (before : Term) : List Formula → Except SyntaxFault Term
  | [] => .ok before
  | e :: es => do
      let t ← read room e
      let rest ← spend operatorRoom room
      readConjuncts rest (← before.both t) es

end

end Formula

end SheetCipher
