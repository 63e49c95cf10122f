import SheetCipher.Template.LetterMap
import SheetCipher.Template.Operation

/-!
# Spec — everything that a template fixes

A spec names its operations, its two shifts and its letter map. Specs come
from an id or from outside; `validate` tells the usable ones, and for the
others the first rule that they break.
-/

namespace SheetCipher

/-- The parameters of a template. -/
structure Spec where
  templateId : String
  operations : List Operation
  substitutionShift : Int64
  xorSalt : Int64
  mapping : LetterMap
deriving DecidableEq

/-- A rule that a spec breaks. -/
inductive SpecFlaw where
  /-- There are not four operations. -/
  | operationCount (found : Nat)
  /-- The last operation is not `map`. -/
  | lastOperation (found : Operation)
  /-- The operations before the last break the mixing rule. -/
  | mixing (operations : List Operation)
  /-- A shift is not in 1..=25. -/
  | shift (name : String) (value : Int64)
  /-- The letter map is not invertible. -/
  | mapping
deriving DecidableEq

namespace SpecFlaw

def message : SpecFlaw → String
  | operationCount found =>
    "expected " ++ toString (Operation.mixingSteps + 1) ++ " operations, found " ++ toString found
  | lastOperation found => "last operation must be map, found " ++ found.name
  | mixing operations =>
    "operation sequence [" ++ ", ".intercalate (operations.map Operation.title) ++
      "] breaks the sampling rules"
  | shift name value => name ++ " " ++ toString value.toInt ++ " is outside 1..=25"
  | mapping => "mapping is not a bijection over A-Z and a-z"

end SpecFlaw

/-- Why no template comes out. -/
inductive TemplateError where
  | emptyId
  /-- None of the drawn triples satisfies the mixing rule. -/
  | noSequence (attempts : Nat)
  /-- The spec breaks a rule. -/
  | invalid (flaw : SpecFlaw)
  /-- The derivation overruns a table or a word. -/
  | overrun (report : Overrun)
deriving DecidableEq

namespace TemplateError

def message : TemplateError → String
  | emptyId => "Template id must not be empty"
  | noSequence attempts =>
    "No valid operation sequence after " ++ toString attempts ++ " attempts"
  | invalid flaw => "Invalid pipeline spec: " ++ flaw.message
  | overrun report => report.message

/-- A computation on the way to a template. -/
def ofOverrun {α : Type} : Except Overrun α → Except TemplateError α
  | .ok a => .ok a
  | .error report => .error (.overrun report)

end TemplateError

namespace Spec

/-- Whether a shift is in 1..=25. -/
def shiftInRange (value : Int64) : Bool := 1 ≤ value && value ≤ 25

/-- The first rule that the spec breaks. -/
def flaw? (spec : Spec) : Option SpecFlaw :=
  let ops := spec.operations
  if ops.length ≠ Operation.mixingSteps + 1 then
    some (.operationCount ops.length)
  else if ops.getD Operation.mixingSteps default ≠ .map then
    some (.lastOperation (ops.getD Operation.mixingSteps default))
  else if !Operation.mixes (ops.take Operation.mixingSteps) then
    some (.mixing ops)
  else if !shiftInRange spec.substitutionShift then
    some (.shift "substitutionShift" spec.substitutionShift)
  else if !shiftInRange spec.xorSalt then
    some (.shift "xorSalt" spec.xorSalt)
  else if !spec.mapping.isBijection then
    some .mapping
  else
    none

/-- Checks every rule: the id first, then the flaws in their order. -/
def validate (spec : Spec) : Except TemplateError Unit :=
  if spec.templateId = "" then .error .emptyId
  else
    match spec.flaw? with
    | some flaw => .error (.invalid flaw)
    | none => .ok ()

/-- The shift of an operation; 0 for those that shift nothing. -/
def shiftOf (spec : Spec) : Operation → Int64
  | .substitute => spec.substitutionShift
  | .xor => spec.xorSalt
  | .reverse | .map => 0

/-- The operations in the order in which they run: forward as listed, backward
inverted. -/
def stages (spec : Spec) : Mode → List (Operation × Direction)
  | .encrypt => spec.operations.map fun op => (op, .forward)
  | .decrypt => spec.operations.reverse.map fun op => (op, .inverse)

end Spec

end SheetCipher
