import SheetCipher.Eval.Operator
import SheetCipher.Script.Syntax

/-!
# Outlook — what is known of an expression before it is worked out

An operator between two constants is settled where that needs no function of
the evaluator, and a settled condition leaves one branch. Of terms that all
have to hold, those settled as true do not count; a single one left over takes
the place of all, whatever its type; and they are settled as false if one
settled as false comes first among those that may have an effect. The same
holds of terms one of which has to hold, with true and false changed over.
-/

namespace SheetCipher.Script

/-- What is known of an expression beforehand. -/
structure Outlook where
  /-- The value, if it is settled. -/
  value? : Option Value
  /-- Whether working the expression out has no effect but its value. -/
  isInert : Bool
deriving Inhabited

namespace Outlook

/-- What is known of a constant. -/
def settled (v : Value) : Outlook := ⟨some v, true⟩

/-- What is known of an expression that may have an effect. -/
def active : Outlook := ⟨none, false⟩

/-- Whether an expression is settled as a truth value. -/
def isBool (b : Bool) (o : Outlook) : Bool := o.value?.any (Value.isBool b)

/-- Whether an expression is settled as a blank. -/
def isBlank (o : Outlook) : Bool := o.value?.any Value.isBlank

/-- Whether terms are settled as `b` since one that is comes before all that
may have an effect. -/
def isSettledBy (b : Bool) : List Outlook → Bool
  | [] => false
  | o :: os => o.isBool b || (o.isInert && isSettledBy b os)

/-- What is known of terms that are joined, where those settled as `neutral` do
not count. -/
def junction (neutral : Bool) (terms : List Outlook) : Outlook :=
  match terms.filter fun o => !o.isBool neutral with
  | [] => settled (.bool neutral)
  | [o] => o
  | os => if isSettledBy (!neutral) os then settled (.bool !neutral) else ⟨none, os.all isInert⟩

/-- What is known of the first of several terms that is no blank; of blanks
alone it is settled as false. -/
def first (terms : List Outlook) : Outlook :=
  match terms.filter fun o => !o.isBlank with
  | [] => settled (.bool false)
  | o :: os => ⟨o.value?, o.value?.isSome || (o :: os).all isInert⟩

/-- What is known of an operator between two expressions. -/
def operation (op : ValueOperator) (lhs rhs : Outlook) : Outlook :=
  match lhs.value?, rhs.value? with
  | some a, some b =>
    if op.settles a b then
      match op.apply a b with
      | .ok v => settled v
      | .error _ => active
    else active
  | _, _ => active

def choice (condition thenPart elsePart : Outlook) : Outlook :=
  match condition.value? with
  | some (.bool true) => thenPart
  | some (.bool false) => elsePart
  | _ => ⟨none, condition.isInert && thenPart.isInert && elsePart.isInert⟩

end Outlook

mutual

/-- What is known of an expression beforehand. -/
def Expression.outlook : Expression → Outlook
  | .constant v => .settled v
  | .template es | .list es | .record _ es => ⟨none, (outlooks es).all Outlook.isInert⟩
  | .operation op lhs rhs => .operation op lhs.outlook rhs.outlook
  | .all terms => .junction true (outlooks terms)
  | .any terms => .junction false (outlooks terms)
  | .first terms => .first (outlooks terms)
  | .statement s => s.outlook
  | _ => .active

/-- What is known of several expressions. -/
def outlooks : List Expression → List Outlook
  | [] => []
  | e :: es => e.outlook :: outlooks es

/-- What is known of a statement beforehand. -/
def Statement.outlook : Statement → Outlook
  | .evaluate e => e.outlook
  | .block [] => .settled .blank
  | .block [s] => s.outlook
  | .choice condition thenPart elsePart =>
    .choice condition.outlook thenPart.outlook elsePart.outlook
  | _ => .active

end

end SheetCipher.Script
