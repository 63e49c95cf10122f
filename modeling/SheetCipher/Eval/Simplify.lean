import SheetCipher.Eval.Term

/-!
# Simplify — what is settled before a term is worked out

An operator between two constants becomes its result where that needs no
function of the evaluator. A condition that is settled leaves one branch. Of an
`AND`, what is settled as true is left out, and a single term left over takes
its place, whatever its type; it is settled as false if what is settled as
false comes first among the terms that may have an effect.
-/

namespace SheetCipher

namespace Term

/-- Whether a term is settled as the truth value `b`. -/
def isBool (b : Bool) : Term → Bool
  | literal v => v.isBool b
  | _ => false

mutual

/-- Whether working a term out has no effect but its result: it refers to no
cell and needs no function or operator. -/
def isInert : Term → Bool
  | literal _ => true
  | all terms => areInert terms
  | cond condition thenTerm elseTerm =>
    condition.isInert && thenTerm.isInert && elseTerm.isInert
  | call _ _ | binary _ _ _ => false

def areInert : List Term → Bool
  | [] => true
  | t :: ts => t.isInert && areInert ts

end

/-- Whether a term settled as false comes before all terms but inert ones. -/
def isRefuted : List Term → Bool
  | [] => false
  | t :: ts => t.isBool false || (t.isInert && isRefuted ts)

/-- The term that all of several terms hold. -/
def conjunction (terms : List Term) : Term :=
  match terms.filter fun t => !t.isBool true with
  | [] => literal (.bool true)
  | [t] => t
  | ts => if isRefuted ts then literal (.bool false) else all ts

/-- An operator between two terms, or its result if it is settled. -/
def operation (op : ValueOperator) (lhs rhs : Term) : Term :=
  match lhs, rhs with
  | literal a, literal b =>
    if op.settles a b then
      match op.apply a b with
      | .ok v => literal v
      | .error _ => binary op lhs rhs
    else binary op lhs rhs
  | _, _ => binary op lhs rhs

/-- One of two terms, as the condition says, or the branch that is settled. -/
def choice (condition thenTerm elseTerm : Term) : Term :=
  match condition with
  | literal (.bool true) => thenTerm
  | literal (.bool false) => elseTerm
  | _ => cond condition thenTerm elseTerm

mutual

/-- Settles what can be settled without the values of any cell. -/
def simplify : Term → Term
  | literal v => literal v
  | call f args => call f (simplifyAll args)
  | all terms => conjunction (simplifyAll terms)
  | binary op lhs rhs => operation op lhs.simplify rhs.simplify
  | cond condition thenTerm elseTerm =>
    choice condition.simplify thenTerm.simplify elseTerm.simplify

def simplifyAll : List Term → List Term
  | [] => []
  | t :: ts => t.simplify :: simplifyAll ts

end

end Term

end SheetCipher
