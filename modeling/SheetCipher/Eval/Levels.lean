import SheetCipher.Eval.Term

/-!
# Levels — how deep a formula may be nested, and where constants may stand

Reading starts with a number of levels. What is inside a construct has fewer
levels than the construct itself, and each operator of a chain takes one from
what follows; a formula that needs more than there are is rejected. So is one
with a constant, other than a truth value, for a condition.
-/

namespace SheetCipher

namespace Formula

/-- The levels that are left to a whole formula. -/
def fullRoom : Nat := 254

/-- The levels that parentheses take, and the arguments of a call. -/
def nestingRoom : Nat := 2

/-- The levels that the condition of a choice takes. -/
def conditionRoom : Nat := 5

/-- The levels that a branch of a choice takes. -/
def branchRoom : Nat := 7

def operatorRoom : Nat := 1

def spend (needed room : Nat) : Except SyntaxFault Nat :=
  if needed ≤ room then .ok (room - needed) else .error .tooDeep

end Formula

namespace Value

/-- Rejects a constant where a truth value has to stand. -/
def needTruth : Value → Except SyntaxFault Unit
  | bool _ => .ok ()
  | v => .error (.literalCondition (.ofValue v))

end Value

namespace Term

/-- Rejects a term that is a constant other than a truth value. -/
def needTruth : Term → Except SyntaxFault Unit
  | literal v => v.needTruth
  | _ => .ok ()

/-- That two terms both hold. -/
def both (lhs rhs : Term) : Except SyntaxFault Term := do
  needTruth lhs
  needTruth rhs
  return all (lhs.conjuncts ++ rhs.conjuncts)

end Term

end SheetCipher
