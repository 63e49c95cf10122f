import SheetCipher.Script.Chain

/-!
# Control — conditions, loops, selections and handlers

A loop has a blank for its value unless it is left with another one. A selection
takes the case of an equal constant of the same type, else one whose range holds
the item, else the one for all others. A handler goes on after a fault unless
the fault ends the whole script.
-/

namespace SheetCipher.Script

/-- The rounds of a loop that are left: values, or integers from one on. -/
inductive Rounds where
  | items (vs : List Value)
  | integers (next : Int) (count : Nat)

namespace Rounds

/-- The rounds of a loop over a value, if it has values to loop over. -/
def of? : Value → Option Rounds
  | .list vs => some (items vs)
  | .range first last closed => some (integers first.toInt (rangeLength first last closed))
  | _ => none

def next? : Rounds → Option (Value × Rounds)
  | items [] | integers _ 0 => none
  | items (v :: vs) => some (v, items vs)
  | integers n (count + 1) => some (.ofInt n, integers (n + 1) count)

end Rounds

namespace Case

def isDefault : Case → Bool
  | mk labels _ _ => labels.isEmpty

/-- Whether a case has a constant of the type and the value of the item. -/
def isFor (item : Value) : Case → Bool
  | mk labels _ _ => labels.any fun v => v.typeName == item.typeName && v.same item

/-- Whether a range holds a value. -/
def covers (item : Value) : Value → Bool
  | .range first last closed =>
    let within (lower upper : ValueOperator) : Bool :=
      [lower.apply item (.int first), upper.apply item (.int last)].all fun result =>
        result.toOption.any (Value.isBool true)
    within .ge (if closed then .le else .lt)
  | _ => false

/-- Whether a case has a range that holds the item. -/
def isAround (item : Value) : Case → Bool
  | mk labels _ _ => labels.any (covers item)

end Case

namespace Runner

open Run

/-! ## Conditions -/

def holds (r : Runner) (w : World) (e : Expression) : Run Bool := do truth (← r.expression w e)

/-- Whether all of several expressions hold, as far as the first that does not;
or, with false as `neutral`, whether one of them does. -/
def junctionFrom (r : Runner) (w : World) (neutral : Bool) : List Expression → Run Bool
  | [] => return neutral
  | e :: es => do
    if (← r.holds w e) == neutral then r.junctionFrom w neutral es else return !neutral

/-- The value of expressions that are joined, where those settled as `neutral`
do not count. -/
def junction (r : Runner) (w : World) (neutral : Bool) (terms : List Expression) : Run Value :=
  match terms.filter fun e => !e.outlook.isBool neutral with
  | [] => return .bool neutral
  | [e] => r.expression w e
  | es =>
    if Outlook.isSettledBy (!neutral) (outlooks es) then return .bool !neutral
    else return .bool (← r.junctionFrom w neutral es)

/-- The value of the first expression that comes to no blank. -/
def firstFrom (r : Runner) (w : World) : List Expression → Run Value
  | [] => return .blank
  | e :: es => do
    let v ← r.expression w e
    if v.isBlank then r.firstFrom w es else return v

/-- The first of several expressions that is no blank; of those settled as
blanks alone it is false. -/
def first (r : Runner) (w : World) (terms : List Expression) : Run Value :=
  match terms.filter fun e => !e.outlook.isBlank with
  | [] => return .bool false
  | es => r.firstFrom w es

/-! ## Loops -/

/-- A round of a loop: the value with which it leaves the loop, if it does. -/
def round (body : Run Value) : Run (Option Value) := do
  match ← caught body with
  | .ok _ | .error .next => return none
  | .error (.leave v) => return some v
  | .error stop => throw stop

def whileLoop (condition : Run Bool) (body : Run Value) : (rounds : Nat) → Run Value
  | 0 => fail .endless
  | rounds + 1 => do
    if ← condition then
      match ← round body with
      | some v => return v
      | none => whileLoop condition body rounds
    else return .blank

/-- Runs a loop with its condition behind. A round that is cut short goes on
with the next one at once. -/
def doLoop (condition : Run Bool) (body : Run Value) : (rounds : Nat) → Run Value
  | 0 => fail .endless
  | rounds + 1 => do
    match ← caught body with
    | .ok _ => if ← condition then doLoop condition body rounds else return .blank
    | .error .next => doLoop condition body rounds
    | .error (.leave v) => return v
    | .error stop => throw stop

/-- Runs the rounds of a loop over several values, counted from `number` on. -/
def roundsFrom (start : Nat → Value → Run Unit) (body : Run Value) : (fuel number : Nat) →
    Rounds → Run Value
  | 0, _, _ => fail .endless
  | fuel + 1, number, rounds =>
    match rounds.next? with
    | none => return .blank
    | some (v, later) => do
      start number v
      match ← round body with
      | some v => return v
      | none => roundsFrom start body fuel (number + 1) later

/-- Runs a loop over several values; its variables keep their places. -/
def forLoop (r : Runner) (w : World) (name : String) (counter : Option String)
    (source : Expression) (body : Statement) : Run Value := do
  match Rounds.of? (← r.expression w source) with
  | none => fail .notIterable
  | some rounds =>
    let item ← keep .blank
    let number ← keep (.int 0)
    let start (n : Nat) (v : Value) : Run Unit := do
      putAt number (count n)
      putAt item v
    enclosed do
      counter.forM fun name => bind name false number
      bind name false item
      roundsFrom start (r.statement w body) r.rounds 0 rounds

/-! ## Selections -/

/-- What the first of several cases does whose condition holds, if there is
one. -/
def firstCase (r : Runner) (w : World) : List Case → Run (Option Statement)
  | [] => return none
  | .mk _ condition action :: cases => do
    let chosen ← (condition.map (r.holds w)).getD (pure true)
    if chosen then return some action else r.firstCase w cases

/-- Runs a selection. Ranges count only where there is no equal constant. -/
def selection (r : Runner) (w : World) (item : Expression) (cases : List Case) : Run Value := do
  let v ← r.expression w item
  let equal := cases.filter (Case.isFor v)
  let chosen ← r.firstCase w (if equal.isEmpty then cases.filter (Case.isAround v) else equal)
  match chosen, cases.find? Case.isDefault with
  | some action, _ | none, some (.mk _ _ action) => r.statement w action
  | none, none => return .blank

/-! ## Handlers -/

/-- Whether something that stops a script can be handled: its fault. -/
def handled? : Stop → Option Fault
  | .fault fault => if fault.isFinal then none else some fault
  | _ => none

/-- Runs a handler; a fault is raised again if the handler gives up without a
value. -/
def handle (r : Runner) (w : World) (name : Option String) (handler : Statement) (fault : Fault) :
    Run Value := enclosed do
  name.forM fun name => declare name false fault.seen
  match ← caught (r.statement w handler) with
  | .ok _ => return .blank
  | .error (.fault (.raised .blank)) => fail fault
  | .error stop => throw stop

/-- Runs a body and, where it fails, its handler. -/
def attempt (r : Runner) (w : World) (body : Statement) (name : Option String)
    (handler : Statement) : Run Value := do
  match ← caught (r.statement w body) with
  | .ok v => return v
  | .error stop =>
    match handled? stop with
    | some fault => r.handle w name handler fault
    | none => throw stop

/-! ## Definitions -/

/-- Defines a variable. The constants of a script that has functions are kept
for them. -/
def define (r : Runner) (w : World) (isConstant : Bool) (name : String) (value : Expression) :
    Run Unit := do
  let v ← r.expression w value
  declare name isConstant v
  if isConstant && w.isTop && !w.functions.isEmpty then
    modify fun m => { m with constants := (name, v) :: m.constants }

/-- The value of an expression that may be left out. -/
def optional (r : Runner) (w : World) (e : Option Expression) : Run Value :=
  (e.map (r.expression w)).getD (return .blank)

/-- Takes in a collection of functions; there are none. -/
def use (r : Runner) (w : World) (source : Expression) : Run Value := do
  match ← r.expression w source with
  | .text name => fail (.unknownModule name)
  | v => fail (mismatch v (.text ""))

end Runner

end SheetCipher.Script
