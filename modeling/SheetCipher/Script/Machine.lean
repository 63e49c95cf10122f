import SheetCipher.Eval.Callee
import SheetCipher.Script.Library
import SheetCipher.Script.Outlook

/-!
# Machine — what a running script remembers

Variables have places, and a place keeps its value as long as the script runs,
so that a function without a name can share the variables around it. A script
may stop before its end: at a fault, where it leaves a loop, a function or itself,
or where it goes on with the next round of a loop.
-/

namespace SheetCipher.Script

/-- Why a script stops before its end. -/
inductive Stop where
  | fault (fault : Fault)
  /-- A loop is left with a value. -/
  | leave (v : Value)
  /-- A loop goes on with its next round. -/
  | next
  /-- A function or the script is left with a value. -/
  | answer (v : Value)
  /-- The whole script is left with a value. -/
  | finish (v : Value)

/-- A variable. -/
structure Variable where
  name : String
  place : Nat
  isConstant : Bool

/-- What a running script remembers: values by place, the variables that can
be seen, the latest first, the places that functions share, and the constants of
the script itself. -/
structure Memory where
  store : Array Value
  scope : List Variable
  shared : List Nat
  constants : List (String × Value)

/-- A part of a running script. -/
abbrev Run := EStateM Stop Memory

/-- What surrounds a part of a running script. -/
structure World where
  sheets : Sheets
  values : Values
  functions : List Function
  /-- How many functions have been called and not been left. -/
  level : Nat
  /-- The place of the subject of the function, if it has one. -/
  subject? : Option Nat
  /-- Whether it is neither in a block nor in a function. -/
  isTop : Bool

namespace World

/-- How many functions can be called inside one another. -/
def deepest : Nat := 8

/-- The function of a name that takes some number of arguments. -/
def function? (w : World) (name : String) (arity : Nat) : Option Function :=
  w.functions.find? fun f => f.name == name && f.parameters.length == arity

/-- A function of a name, whatever its parameters. -/
def named? (w : World) (name : String) : Option Function :=
  w.functions.find? fun f => f.name == name

end World

namespace Run

def fail {α : Type} (fault : Fault) : Run α := throw (.fault fault)

/-- The result of a computation that may fail. -/
def ofExcept {α : Type} : Except Fault α → Run α
  | .ok a => pure a
  | .error fault => fail fault

/-- A part of a script with what stopped it, if anything did. -/
def caught {α : Type} (r : Run α) : Run (Except Stop α) := fun m =>
  match r m with
  | .ok a m => .ok (.ok a) m
  | .error stop m => .ok (.error stop) m

/-- Runs a part of a script that sees only these variables, and behind which
those that it saw before are seen again. -/
def within {α : Type} (scope : List Variable) (r : Run α) : Run α := fun m =>
  match r { m with scope := scope } with
  | .ok a m' => .ok a { m' with scope := m.scope }
  | .error stop m' => .error stop { m' with scope := m.scope }

/-- Runs a part of a script behind which its variables cannot be seen. -/
def enclosed {α : Type} (r : Run α) : Run α := fun m => within m.scope r m

/-! ## Variables -/

def lookUp? (name : String) : Run (Option Variable) := do
  return (← get).scope.find? fun x => x.name == name

def lookUp (name : String) : Run Variable := do
  match ← lookUp? name with
  | some x => return x
  | none => fail (.unknownName name)

def valueAt (place : Nat) : Run Value := return ((← get).store[place]?).getD .blank

def putAt (place : Nat) (v : Value) : Run Unit :=
  modify fun m => { m with store := m.store.setIfInBounds place v }

/-- A new place with a value. -/
def keep (v : Value) : Run Nat := do
  let m ← get
  set { m with store := m.store.push v }
  return m.store.size

/-- Makes a place be seen by a name. -/
def bind (name : String) (isConstant : Bool) (place : Nat) : Run Unit :=
  modify fun m => { m with scope := ⟨name, place, isConstant⟩ :: m.scope }

/-- A new variable with a value. -/
def declare (name : String) (isConstant : Bool) (v : Value) : Run Unit := do
  bind name isConstant (← keep v)

/-- Makes a variable one that functions share, and gives its place. -/
def share (name : String) : Run Nat := do
  let x ← lookUp name
  modify fun m => { m with shared := x.place :: m.shared }
  return x.place

/-- The place of the subject of a function. -/
def subject (w : World) : Run Nat :=
  match w.subject? with
  | some place => pure place
  | none => fail .noSubject

/-! ## Values -/

def truth (v : Value) : Run Bool :=
  match v with
  | .bool b => pure b
  | v => fail (.wrongType v.typeName (Value.bool true).typeName)

end Run

/-- What runs the parts of a script. -/
structure Runner where
  /-- How many rounds a loop may have. -/
  rounds : Nat
  expression : World → Expression → Run Value
  statement : World → Statement → Run Value

namespace Runner

/-- The values of several expressions in order. -/
def expressions (r : Runner) (w : World) (es : List Expression) : Run (List Value) :=
  es.mapM (r.expression w)

/-- Runs statements in order; the value is that of the last one. The others
count only if they may have an effect. -/
def statements (r : Runner) (w : World) : List Statement → Run Value
  | [] => return .blank
  | [s] => r.statement w s
  | s :: rest => do
    unless s.outlook.isInert do let _ ← r.statement w s
    r.statements w rest

end Runner

end SheetCipher.Script
