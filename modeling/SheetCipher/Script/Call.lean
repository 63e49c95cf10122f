import SheetCipher.Script.Machine
import SheetCipher.Script.Reader

/-!
# Call — functions at work

A call by name goes to the function of the script with that name and as many
parameters, and else to the sheet and the library. A function of the script sees
nothing but its parameters, unless the call looks round or the function shares
variables; what it answers is its value. A function as a value may be called as
well, with arguments that were given to it before in front.
-/

namespace SheetCipher.Script

/-- A value with what is left of another one, if that has been changed. -/
abbrev Effect := Value × Option Value

namespace Runner

open Run

/-! ## Functions of the script -/

/-- Calls a function of the script with its arguments at these places; besides
them it sees the variables `around`. -/
def enter (r : Runner) (w : World) (f : Function) (subject? : Option Nat) (around : List Variable)
    (places : List Nat) : Run Value := do
  let level := w.level + 1
  if World.deepest < level then fail .tooManyCalls
  let scope := (f.shared ++ f.parameters).zipWith (⟨·, ·, false⟩) places
  let inside : World := { w with level := level, subject? := subject?, isTop := false }
  match ← caught (within (scope.reverse ++ around) (r.statement inside f.body)) with
  | .ok v | .error (.answer v) => return v
  | .error (.fault cause) => fail (cause.outside f.name)
  | .error stop => throw stop

/-- Calls a function of the script that has a subject: its value, and the subject
as the function leaves it. -/
def enterOn (r : Runner) (w : World) (f : Function) (subject : Value) (places : List Nat) :
    Run Effect := do
  let place ← keep subject
  let v ← r.enter w f (some place) [] places
  return (v, some (← valueAt place))

/-! ## Functions of the sheet and the library -/

/-- The outcome of a function of the sheet or of the library, or of the one that
leaves the whole script. -/
def native (w : World) (name : String) (args : List Value) : Run Effect := do
  match Callee.ofName? name, Library.call? name args with
  | some f, _ => return (← ofExcept (f.apply w.sheets w.values args), none)
  | none, some outcome =>
    let outcome ← ofExcept outcome
    return (outcome.value, outcome.changed?)
  | none, none =>
    match name, args with
    | "exit", [] => throw (.finish .blank)
    | "exit", [v] => throw (.finish v)
    | name, args => fail (Library.missing name args)

/-! ## Functions as values -/

def functionType : String := (Value.function "" [] []).typeName

def noFunction (v : Value) : Fault := .wrongType v.typeName functionType

/-- Calls a function, perhaps on a subject: its value, and the subject as it is
left. -/
def invoke (r : Runner) (w : World) (f : Value) (subject? : Option Value) (args : List Value) :
    Run Effect := do
  match f with
  | .function name given shared =>
    let args := given ++ args
    match w.function? name args.length, subject? with
    | some function, none =>
      return (← r.enter w function none [] (shared ++ (← args.mapM keep)), none)
    | some function, some subject => r.enterOn w function subject (shared ++ (← args.mapM keep))
    | none, subject? => native w name (subject?.toList ++ (← shared.mapM valueAt) ++ args)
  | v => fail (noFunction v)

def value (r : Runner) (w : World) (f : Value) (args : List Value) : Run Value :=
  return (← r.invoke w f none args).1

/-- Whether there is a function of the script for a function with some number of
arguments more. -/
def takes (w : World) (f : Value) (arguments : Nat) : Bool :=
  match f with
  | .function name given _ =>
    (w.function? name (given.length + arguments)).isSome
  | _ => false

/-- Calls a function on an item of a list: it may have the item as its subject,
or take the item, or the item and its place. -/
def onItem (r : Runner) (w : World) (f item : Value) (place : Nat) : Run Effect :=
  if takes w f 0 then r.invoke w f (some item) []
  else if takes w f 2 && !takes w f 1 then r.invoke w f none [item, count place]
  else r.invoke w f none [item]

/-- The items of a list for which a function holds, each with its place; at most
`wanted` of them. -/
def satisfying (r : Runner) (w : World) (f : Value) (holds : Bool) : (wanted place : Nat) →
    List Value → Run (List (Value × Nat))
  | 0, _, _ | _, _, [] => return []
  | wanted + 1, place, item :: items => do
    let found := (← r.onItem w f item place).1.isBool true == holds
    if found then
      return (item, place) :: (← r.satisfying w f holds wanted (place + 1) items)
    else r.satisfying w f holds (wanted + 1) (place + 1) items

/-- The values of a function on items of a list, and the items as they are
left. -/
def mapItems (r : Runner) (w : World) (f : Value) : (place : Nat) → List Value →
    Run (List Value × List Value)
  | _, [] => return ([], [])
  | place, item :: items => do
    let (v, changed) ← r.onItem w f item place
    let (vs, left) ← r.mapItems w f (place + 1) items
    return (v :: vs, changed.getD item :: left)

/-- The first value of a function on items of a list that is no blank. -/
def firstOf (r : Runner) (w : World) (f : Value) : (place : Nat) → List Value → Run Value
  | _, [] => return .blank
  | place, item :: items => do
    let v := (← r.onItem w f item place).1
    if v.isBlank then r.firstOf w f (place + 1) items else return v

/-- What a function makes of a value so far and each item in turn. -/
def fold (r : Runner) (w : World) (f start : Value) (items : List Value) : Run Value :=
  items.zipIdx.foldlM (fun v (item, place) =>
    r.value w f (if takes w f 3 then [v, item, count place] else [v, item])) start

/-- The outcome of a function of lists that takes another function. -/
def onList? (r : Runner) (w : World) (name : String) (args : List Value) : Option (Run Effect) :=
  match args with
  | [.list items, .function f given shared] =>
    let f := Value.function f given shared
    let found (wanted : Nat) (holds : Bool) := r.satisfying w f holds wanted 0 items
    match name with
    | "map" => some do return (.list (← r.mapItems w f 0 items).1, none)
    | "for_each" => some do return (.blank, some (.list (← r.mapItems w f 0 items).2))
    | "filter" => some do return (.list ((← found items.length true).map Prod.fst), none)
    | "some" => some do return (.bool !(← found 1 true).isEmpty, none)
    | "all" => some do return (.bool (← found 1 false).isEmpty, none)
    | "find" => some do return (((← found 1 true).head?.map Prod.fst).getD .blank, none)
    | "find_map" => some do return (← r.firstOf w f 0 items, none)
    | "index_of" => some do
      return (((← found 1 true).head?.map fun (_, place) => count place).getD (.int (-1)), none)
    | "reduce" => some do return (← r.fold w f .blank items, none)
    | "reduce_rev" => some do return (← r.fold w f .blank items.reverse, none)
    | _ => none
  | [.list items, .function f given shared, start] =>
    let f := Value.function f given shared
    match name with
    | "reduce" => some do return (← r.fold w f start items, none)
    | "reduce_rev" => some do return (← r.fold w f start items.reverse, none)
    | _ => none
  | _ => none

/-- The outcome of a function of the sheet or of the library, which may take
another function. -/
def nativeCall (r : Runner) (w : World) (name : String) (args : List Value) : Run Effect :=
  (r.onList? w name args).getD (native w name args)

/-! ## Calls by name -/

def mismatch (found wanted : Value) : Fault := .wrongType found.typeName wanted.typeName

def isFunctionName (text : String) : Bool :=
  match tokens text.toList with
  | [.name word] => word == text
  | _ => false

def functionOf (text : String) : Except Fault Value :=
  if isFunctionName text then .ok (.function text [] []) else .error (.badFunctionName text)

/-- Runs a text as a part of the script, which counts as a call. -/
def runText (r : Runner) (w : World) (text : String) : Run Value := do
  let level := w.level + 1
  if World.deepest < level then fail .tooManyCalls
  match Script.read text.toList with
  | .error fault => fail (.syntaxFault fault)
  | .ok program =>
    if program.functions.isEmpty then r.statements { w with level := level } program.body
    else fail (.syntaxFault .innerFunction)

def callWord? (r : Runner) (w : World) (word : String) (args : List Value) : Option (Run Value) :=
  match word, args with
  | "type_of", [v] => some (return .text v.typeName)
  | "print", [] | "debug", [] | "print", [_] | "debug", [_] => some (return .blank)
  | "Fn", [.text name] => some (ofExcept (functionOf name))
  | "Fn", [v] => some (fail (mismatch v (.text "")))
  | "call", f :: args => some (r.value w f args)
  | "curry", .function name given shared :: arg :: args =>
    some (return .function name (given ++ arg :: args) shared)
  | "curry", v :: _ :: _ => some (fail (noFunction v))
  | "is_def_var", [.text name] => some (return .bool (← lookUp? name).isSome)
  | "is_def_var", [v] => some (fail (mismatch v (.text "")))
  | "is_def_fn", [.text name, .int n] =>
    some (return .bool (0 ≤ n && (w.function? name n.toInt.toNat).isSome))
  | "is_def_fn", [.text _, v] => some (fail (mismatch v (.int 0)))
  | "is_def_fn", [v, _] => some (fail (mismatch v (.text "")))
  | "is_shared", [_] => some (return .bool false)
  | "eval", [.text s] => some (r.runText w s)
  | "eval", [v] => some (fail (mismatch v (.text "")))
  | _, _ => none

def call (r : Runner) (w : World) (looksRound : Bool) (name : String) (args : List Value) :
    Run Effect := do
  match w.function? name args.length with
  | some f =>
    let seen := (← get).scope
    return (← r.enter w f none (if looksRound then seen else []) (← args.mapM keep), none)
  | none => r.nativeCall w name args

/-- The variable that an expression names, if it is one, or the subject of the
function. -/
def variableOf? (w : World) (e : Expression) : Run (Option Variable) := do
  match e with
  | .reference [] name => lookUp? name
  | .subject => return some ⟨subjectWord, ← Run.subject w, false⟩
  | _ => return none

/-- Calls a function by name on expressions. A variable in front is looked up
last, and a function of the library may change it unless it is constant or
shared. -/
def callNamed (r : Runner) (w : World) (looksRound : Bool) (name : String)
    (args : List Expression) : Run Value := do
  match args with
  | front :: rest =>
    if Reader.isVariable front && !looksRound then
      let others ← r.expressions w rest
      let v ← r.expression w front
      let (result, changed) ← r.call w false name (v :: others)
      match changed, ← variableOf? w front with
      | some changed, some x =>
        let isShared := (← get).shared.contains x.place
        unless x.isConstant || isShared do putAt x.place changed
      | _, _ => pure ()
      return result
    else return (← r.call w looksRound name (← r.expressions w args)).1
  | [] => return (← r.call w looksRound name []).1

def callPath (r : Runner) (w : World) (looksRound : Bool) (path : List String) (name : String)
    (args : List Expression) : Run Value := do
  if !path.isEmpty then
    let _ ← r.expressions w args
    fail (.unknownModule ("::".intercalate path))
  else if name = "is_shared" then
    match args with
    | [e] =>
      let shared := (← get).shared
      return .bool ((← variableOf? w e).any fun x => shared.contains x.place)
    | args => fail (Library.missing name (← r.expressions w args))
  else if name ∈ callableWords then
    let vs ← r.expressions w args
    (r.callWord? w name vs).getD (fail (Library.missing name vs))
  else r.callNamed w looksRound name args

/-! ## Calls behind a period -/

/-- Calls a function on a subject: its value, and the subject as it is left. A
constant subject is left as it is. -/
def callMethod (r : Runner) (w : World) (isConstant : Bool) (subject : Value) (name : String)
    (args : List Value) : Run Effect := do
  let result ←
    match name, subject, args with
    | "call", .function f given shared, args => r.invoke w (.function f given shared) none args
    | "call", subject, f :: args => r.invoke w f (some subject) args
    | "call", subject, [] => fail (noFunction subject)
    | "is_shared", _, [] => pure (.bool false, none)
    | "curry", subject, args | "type_of", subject, args =>
      match r.callWord? w name (subject :: args) with
      | some value => pure (← value, none)
      | none => fail (Library.missing name (subject :: args))
    | name, subject, args =>
      match memberOf? subject name, w.function? name args.length with
      | some f, _ => r.invoke w f (some subject) args
      | none, some f => r.enterOn w f subject (← args.mapM keep)
      | none, none =>
        let result ← r.nativeCall w name (subject :: args)
        if isConstant && result.2.isSome then fail (.constantArgument name)
        pure result
  return if isConstant then (result.1, none) else result
where
  /-- The function that a record holds by a name. -/
  memberOf? (subject : Value) (name : String) : Option Value :=
    match subject with
    | .record names items =>
      match (names.zip items).lookup name with
      | some (.function f given shared) => some (.function f given shared)
      | _ => none
    | _ => none

end Runner

end SheetCipher.Script
