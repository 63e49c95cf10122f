import SheetCipher.Script.Connective
import SheetCipher.Script.Lexer

/-!
# Reading — how far the reading of a script has come

Reading goes from left to right over a row of tokens and stops at the first
fault; nothing is looked at beyond the token that shows it. On the way the
variables that are known are noted, since a constant may not be assigned to and
a function without a name shares those around it.
-/

namespace SheetCipher.Script

/-- What has been read and what is still to be read. -/
structure Reading where
  rest : List Token
  /-- The variables that are known, the latest first, and whether each is a
  constant. -/
  known : List (String × Bool)
  /-- The variables around a function without a name that it uses. -/
  shared : List String
  /-- The functions so far. -/
  functions : List Function

/-- Where in a script something is read. -/
structure Setting where
  /-- The levels that are left. -/
  room : Nat
  /-- Whether functions may be defined here. -/
  isTop : Bool
  /-- Whether a function is being read. -/
  inFunction : Bool
  /-- Whether it is one without a name of its own. -/
  inClosure : Bool
  /-- Whether there is a loop to leave. -/
  inLoop : Bool
  /-- Whether a bar ends an expression. -/
  inCase : Bool

/-- Reading from the front of a row of tokens. -/
abbrev Reader := StateT Reading (Except SyntaxFault)

namespace Setting

/-- The levels of a whole script. -/
def scriptRoom : Nat := Formula.fullRoom + 2

def top : Setting where
  room := scriptRoom
  isTop := true
  inFunction := false
  inClosure := false
  inLoop := false
  inCase := false

def ofBlock (at_ : Setting) : Setting := { at_ with isTop := false, inCase := false }

def ofLoop (at_ : Setting) : Setting := { at_ with inLoop := true }

/-- Inside a function with a name, which starts with all levels. -/
def ofFunction : Setting :=
  { top with room := scriptRoom - 1, isTop := false, inFunction := true }

/-- Inside a function without a name. -/
def ofClosure (at_ : Setting) : Setting :=
  { ofFunction with room := at_.room, inClosure := true }

def ofLabel (at_ : Setting) : Setting := { at_ with inCase := true }

def deeper (levels : Nat) (at_ : Setting) : Reader Setting := do
  return { at_ with room := ← Formula.spend levels at_.room }

end Setting

namespace Reader

/-! ## Tokens -/

/-- The next token, which stays. -/
def peek : Reader (Option Token) := return (← get).rest.head?

/-- Leaves the next token behind. -/
def skip : Reader Unit := modify fun r => { r with rest := r.rest.tail }

/-- The next token, which is left behind. -/
def take : Reader (Option Token) := do
  let token ← peek
  skip
  return token

def nextIs (test : Token → Bool) : Reader Bool := return (← peek).any test

/-- Leaves the next token behind if it passes a test, and says whether it
does. -/
def skipIf (test : Token → Bool) : Reader Bool := do
  if ← nextIs test then
    skip
    return true
  else return false

/-- Gives a fault for the next token; that of the script itself counts more. -/
def refuse {α : Type} (fault : SyntaxFault) : Reader α := do
  match ← peek with
  | some (.flaw found) => throw found
  | _ => throw fault

/-- Expects a sign or word. -/
def expect (test : Token → Bool) (place : MissingPlace) : Reader Unit := do
  unless ← skipIf test do refuse (.missing place)

/-- Expects a sign or word whose absence is a fault even before one of the
script itself. -/
def demand (test : Token → Bool) (place : MissingPlace) : Reader Unit := do
  unless ← skipIf test do throw (.missing place)

/-- The connective that comes next, if one does. -/
def connective (at_ : Setting) : Reader (Option Connective) := do
  match ← peek with
  | some (.sign text) =>
    return if at_.inCase && text == "|" then none else Connective.ofSign? text
  | some (.keyword "in") => return some (.within false)
  | some (.reserved text) =>
    if SyntaxFault.isWord text then return none else throw (.unknownOperator text)
  | _ => return none

def variableName : Reader String := do
  match ← peek with
  | some (.name word) =>
    skip
    return word
  | some (.reserved text) =>
    throw (if SyntaxFault.isWord text then .reserved text else .missingName)
  | some (.flaw fault) => throw fault
  | _ => throw .missingName

/-- Rejects an assignment where a condition has ended. -/
def rejectAssignment : Reader Unit := do
  match ← peek with
  | some (.sign "=") => throw .assignedCondition
  | some (.sign text) => if (Connective.ofUpdate? text).isSome then throw .updatedCondition
  | _ => return

/-- Rejects a block where a condition should start. -/
def rejectBlock : Reader Unit := do
  if ← nextIs (Token.isSign "\x7b") then throw .missingCondition

/-! ## Variables -/

/-- Notes a variable from here on. -/
def introduce (name : String) (isConstant : Bool) : Reader Unit :=
  modify fun r => { r with known := (name, isConstant) :: r.known }

/-- Notes that a variable is used: a function without a name shares it if it is
none of its own. -/
def refer (at_ : Setting) (name : String) : Reader Unit := do
  let r ← get
  if at_.inClosure ∧ (r.known.lookup name).isNone ∧ name ∉ r.shared then
    set { r with shared := r.shared ++ [name] }

/-- Reads something behind which the variables noted in it are forgotten. -/
def inScope {α : Type} (reader : Reader α) : Reader α := do
  let known := (← get).known
  let a ← reader
  modify fun r => { r with known := known }
  return a

/-! ## Expressions -/

/-- A sign in front of an operand; that of a constant number is part of it. -/
def signed (text : String) (e : Expression) : Expression :=
  match text, e with
  | "-", .constant (.int n) => .constant (.ofInt (-n.toInt))
  | "-", .constant (.real x) => .constant (.real x.neg)
  | "+", .constant (.int n) => .constant (.int n)
  | "+", .constant (.real x) => .constant (.real x)
  | text, e => .signed text e

/-- Whether a value can be given to what a step reaches. -/
def isSettable : Link → Bool
  | .property _ _ | .entry _ _ => true
  | .method _ _ _ => false

/-- Whether an expression names a variable or the subject of a function. -/
def isVariable : Expression → Bool
  | .reference _ _ | .subject => true
  | _ => false

/-- Rejects what no value can be given to. -/
def checkTarget (isPlain : Bool) (target : Expression) : Reader Unit := do
  match target with
  | .subject => return
  | .reference [] name =>
    if (← get).known.lookup name = some true then throw (.constantTarget name)
  | .reference _ _ => return
  | .chain root links =>
    unless links.all isSettable && isVariable root do throw .badTarget
  | .constant _ => throw (.constantTarget "")
  | .all _ | .any _ | .first _ => throw (if isPlain then .assignedCondition else .badTarget)
  | _ => throw .badTarget

/-- Adds a function, unless there is one of its name with as many parameters. -/
def define (f : Function) : Reader Unit := do
  let r ← get
  let same := fun (g : Function) => g.name = f.name ∧ g.parameters.length = f.parameters.length
  if r.functions.any same then throw (.repeatedFunction f.name f.parameters.length)
  set { r with functions := f :: r.functions }

/-- The fault of a reading that takes more steps than a script can need. -/
def outOfSteps {α : Type} : Reader α := throw .tooDeep

end Reader

/-- The readers of what constructs are made of. -/
structure Parts where
  expression : Setting → Reader Expression
  block : Setting → Reader Statement
  /-- Nothing is left of an empty statement or of the definition of a
  function. -/
  statement : Setting → Reader (Option Statement)

end SheetCipher.Script
