import SheetCipher.Script.Call

/-!
# Chain — steps from a value to what it holds

The arguments and places of all steps are worked out before the value that the
steps start from. What is changed at the end of a chain is changed in the values
that hold it, as far as the variable that the chain starts from.
-/

namespace SheetCipher.Script

/-- A step from a value to what it holds, its arguments worked out. -/
inductive Step where
  | property (guarded : Bool) (name : String)
  | method (guarded : Bool) (name : String) (args : List Value)
  | entry (guarded : Bool) (place : Value)

namespace Step

/-- Whether the step stops at a blank. -/
def isGuarded : Step → Bool
  | property guarded _ | method guarded _ _ | entry guarded _ => guarded

end Step

/-- A new value for a target, perhaps by an operator on the one it has. -/
structure Update where
  op : Option ValueOperator
  value : Value

namespace Update

def apply (u : Update) (old : Value) : Except Fault Value :=
  match u.op with
  | some op => Library.updated op old u.value
  | none => .ok u.value

/-- What comes of a part of a value: `reached` is the part, and `replaced` puts
another one in its place. Where the old part does not count it is not looked
at. -/
def applyPart (u : Update) (reached : Except Fault Value) (replaced : Value → Except Fault Value) :
    Except Fault Value := do
  match u.op with
  | some _ => replaced (← u.apply (← reached))
  | none => replaced u.value

end Update

namespace Runner

open Run

/-- A step with its arguments worked out. -/
def step (r : Runner) (w : World) (link : Link) : Run Step := do
  match link with
  | .property guarded name => return .property guarded name
  | .method guarded name args => return .method guarded name (← r.expressions w args)
  | .entry guarded place => return .entry guarded (← r.expression w place)

/-- Goes on at a part of a value: what is reached from there, and the value with
the part as it is left. An update that comes `now` is one of the part. -/
def onPart (goOn : Value → Run Effect) (now : Option Update) (reached : Except Fault Value)
    (replaced : Value → Except Fault Value) : Run Effect := do
  match now with
  | some update => return (.blank, some (← ofExcept (update.applyPart reached replaced)))
  | none =>
    let (result, changed) ← goOn (← ofExcept reached)
    return (result, changed.bind fun part => (replaced part).toOption)

/-- Follows steps from a value, and changes what they reach if there is an
update: what is reached, and the value as it is left, if it has been changed.
Nothing in a constant is changed. -/
def follow (r : Runner) (w : World) (update? : Option Update) : (isConstant : Bool) → Value →
    List Step → Run Effect
  | _, v, [] =>
    match update? with
    | some update => return (.blank, some (← ofExcept (update.apply v)))
    | none => return (v, none)
  | isConstant, v, step :: steps => do
    let now := if steps.isEmpty then update? else none
    if step.isGuarded && v.isBlank then return (.blank, none)
    else
      match step with
      | .method _ name args =>
        let (result, changed) ← r.callMethod w isConstant v name args
        return ((← r.follow w update? false result steps).1, changed)
      | .property _ name =>
        onPart (fun part => r.follow w update? isConstant part steps) now
          (Library.property v name) (Library.setProperty v name)
      | .entry _ place =>
        onPart (fun part => r.follow w update? isConstant part steps) now
          (Library.entry v place) (Library.setEntry v place)

/-- The value of a name: that of a variable, or a function of the script. -/
def named (w : World) (name : String) : Run Value := do
  match ← lookUp? name, w.named? name with
  | some x, _ => valueAt x.place
  | none, some f => return .function f.name [] []
  | none, none => fail (.unknownName name)

/-- The value of a name, or of one in a collection. Functions see the constants
of the script itself in a collection. -/
def reference (w : World) (path : List String) (name : String) : Run Value := do
  match path with
  | [] => named w name
  | ["global"] =>
    match (← get).constants.lookup name with
    | some v => return v
    | none => fail (.unknownName ("global::" ++ name))
  | path => fail (.unknownModule ("::".intercalate path))

/-- Follows links from a root, and changes what they reach if there is an
update. -/
def chain (r : Runner) (w : World) (update? : Option Update) (root : Expression)
    (links : List Link) : Run Value := do
  let steps ← links.mapM (r.step w)
  match ← variableOf? w root with
  | some x =>
    if x.isConstant && update?.isSome then fail (.constantVariable x.name)
    let (result, changed) ← r.follow w update? x.isConstant (← valueAt x.place) steps
    changed.forM (putAt x.place)
    return result
  | none => return (← r.follow w update? false (← r.expression w root) steps).1

def assign (r : Runner) (w : World) (op : Option ValueOperator) (target value : Expression) :
    Run Unit := do
  let update := Update.mk op (← r.expression w value)
  match target with
  | .chain root links =>
    let _ ← r.chain w (some update) root links
  | target =>
    match ← variableOf? w target with
    | some x =>
      if x.isConstant then fail (.constantVariable x.name)
      putAt x.place (← ofExcept (update.apply (← valueAt x.place)))
    | none =>
      let _ ← r.expression w target
      fail (.constantVariable "")

end Runner

end SheetCipher.Script
