import SheetCipher.Script.Syntax
import SheetCipher.Eval.Levels

/-!
# Connective — what stands between two operands

Each sign between two operands binds with a strength of its own. Of signs of
one strength the left one binds first, but of two powers the right one.
-/

namespace SheetCipher.Script

/-- What stands between two operands. -/
inductive Connective where
  /-- An operator between two values. -/
  | operator (op : ValueOperator)
  /-- Both have to hold. -/
  | and
  /-- One has to hold. -/
  | or
  /-- The first that is no blank. -/
  | first
  /-- The right one contains the left one, or does not. -/
  | within (negated : Bool)
deriving DecidableEq, Repr

namespace Expression

/-- Rejects a literal where a truth value has to stand. -/
def needTruth (e : Expression) : Except SyntaxFault Unit :=
  match e.literalKind? with
  | some .truth | none => .ok ()
  | some kind => .error (.literalCondition kind)

/-- Rejects a literal where something with many values has to stand. -/
def needSource (e : Expression) : Except SyntaxFault Unit :=
  match e.literalKind? with
  | some .list | none => .ok ()
  | some kind => .error (.literalSource kind)

/-- The kind of an expression that cannot be the place of an entry. -/
def placeKind? : Expression → Option LiteralKind
  | all _ | any _ => some .truth
  | e => e.literalKind?

/-- Rejects a literal as the place of an entry of another literal. -/
def needPlace (whole place : Expression) : Except SyntaxFault Unit :=
  match whole.literalKind?, place.placeKind? with
  | some .record, some .text | _, some .list | _, some .record | _, none => .ok ()
  | some .record, some kind => .error (.literalPlace true kind)
  | some .integer, some .integer | some .list, some .integer | some .text, some .integer => .ok ()
  | some .integer, some kind | some .list, some kind | some .text, some kind =>
    .error (.literalPlace false kind)
  | _, _ => .ok ()

/-- The constant that an expression is as the label of a case. -/
def label? : Expression → Option Value
  | constant v => some v
  | operation .upTo (constant (.int a)) (constant (.int b)) => some (.range a b false)
  | operation .through (constant (.int a)) (constant (.int b)) => some (.range a b true)
  | _ => none

end Expression

namespace Connective

/-- The signs of the operators that bind values. -/
def operators : List ValueOperator :=
  [.add, .sub, .mul, .div, .mod, .pow, .eq, .ne, .lt, .le, .gt, .ge, .bitAnd, .bitOr, .bitXor,
    .shiftLeft, .shiftRight, .upTo, .through]

def ofSign? (text : String) : Option Connective :=
  if text = "&&" then some and
  else if text = "||" then some or
  else if text = "??" then some first
  else if text = "!in" then some (within true)
  else (operators.find? fun op => op.sign == text).map operator

/-- How tightly a connective binds. -/
def strength : Connective → Nat
  | or | operator .bitOr | operator .bitXor => 30
  | and | operator .bitAnd => 60
  | operator .eq | operator .ne => 90
  | within _ => 110
  | operator .lt | operator .le | operator .gt | operator .ge => 130
  | first => 135
  | operator .upTo | operator .through => 140
  | operator .add | operator .sub => 150
  | operator .mul | operator .div | operator .mod => 180
  | operator .pow => 190
  | operator .shiftLeft | operator .shiftRight => 210

/-- Whether of two such connectives in a row the right one binds first. -/
def bindsRight (c : Connective) : Bool := c == operator .pow

/-- Whether a connective behind an operand takes it from what binds with a
strength on the operand's left. -/
def takes (c : Connective) (strength : Nat) : Bool :=
  strength < c.strength || (strength == c.strength && c.bindsRight)

/-- The function that says whether its first argument contains the second. -/
def container : String := "contains"

def join (c : Connective) (lhs rhs : Expression) : Except SyntaxFault Expression := do
  match c with
  | operator op => return .operation op lhs rhs
  | and =>
    lhs.needTruth
    rhs.needTruth
    return .all (lhs.conjuncts ++ rhs.conjuncts)
  | or =>
    lhs.needTruth
    rhs.needTruth
    return .any (lhs.disjuncts ++ rhs.disjuncts)
  | first => return .first (lhs.candidates ++ rhs.candidates)
  | within false => return .call false [] container [rhs, lhs]
  | within true => return .signed "!" (.call false [] container [rhs, lhs])

/-- The operators by which a target is given a new value. -/
def updates : List ValueOperator :=
  [.add, .sub, .mul, .div, .mod, .pow, .bitAnd, .bitOr, .bitXor, .shiftLeft, .shiftRight]

/-- The operator of a sign that gives a target a new value by it. -/
def ofUpdate? (text : String) : Option ValueOperator :=
  updates.find? fun op => op.sign ++ "=" == text

end Connective

end SheetCipher.Script
