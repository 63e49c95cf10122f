import SheetCipher.Script.Reading

/-!
# Sequence — items with commas between them

The arguments of a call, the items of a list, the entries of a record and the
names of parameters stand between a sign that starts them, which has been read,
and one that ends them. A comma may stand behind the last item.
-/

namespace SheetCipher.Script

namespace Reader

/-- Reads the arguments that are left of a call, and its end. -/
def arguments (item : Reader Expression) (name : String) : (steps : Nat) →
    Reader (List Expression)
  | 0 => outOfSteps
  | steps + 1 => do
    if ← skipIf (Token.isSign ")") then return []
    else
      let e ← item
      match ← peek with
      | some (.sign ")") =>
        skip
        return [e]
      | some (.sign ",") =>
        skip
        return e :: (← arguments item name steps)
      | none => throw (.missing (.callEnd name))
      | _ => refuse (.missing (.callComma name))

/-- Reads the items that are left of a list, and its end. -/
def items (item : Reader Expression) : (steps : Nat) → Reader (List Expression)
  | 0 => outOfSteps
  | steps + 1 => do
    match ← peek with
    | none => throw (.missing .listEnd)
    | some (.sign "]") =>
      skip
      return []
    | some _ =>
      let e ← item
      match ← peek with
      | some (.sign ",") =>
        skip
        return e :: (← items item steps)
      | some (.sign "]") =>
        skip
        return [e]
      | none => throw (.missing .listEnd)
      | _ => refuse (.missing .listComma)

/-- Reads the name that starts an entry of a record, if there is an entry. -/
def entryName? : Reader (Option String) := do
  match ← take with
  | none => throw (.missing .recordEnd)
  | some (.sign "\x7d") => return none
  | some (.name name) | some (.constant (.text name)) => return some name
  | some (.reserved word) =>
    throw (if SyntaxFault.isWord word then .reserved word else .missingProperty)
  | some (.flaw fault) => throw fault
  | some _ => throw .missingProperty

/-- Reads the entries that are left of a record, behind those `before`, and its
end. -/
def entries (item : Reader Expression) : (steps : Nat) →
    (before : List (String × Expression)) → Reader (List (String × Expression))
  | 0, _ => outOfSteps
  | steps + 1, before => do
    match ← entryName? with
    | none => return before
    | some name =>
      if (before.lookup name).isSome then throw (.repeatedProperty name)
      expect (Token.isSign ":") (.recordColon name)
      let before := before ++ [(name, ← item)]
      match ← peek with
      | some (.sign ",") =>
        skip
        entries item steps before
      | some (.sign "\x7d") =>
        skip
        return before
      | some (.name _) => throw (.missing .recordComma)
      | _ => refuse (.missing .recordEnd)

/-- Reads the names that are left of parameters, behind those `before`, up to
the sign that ends them; `ended` and `comma` are the places of that sign and of
the comma. -/
def parameters (function : String) (ended comma : MissingPlace) : (steps : Nat) →
    (before : List String) → Reader (List String)
  | 0, _ => outOfSteps
  | steps + 1, before => do
    match ← take with
    | some (.name name) =>
      if name ∈ before then throw (.repeatedParameter function name)
      match ← take with
      | some (.sign ",") => parameters function ended comma steps (before ++ [name])
      | some (.flaw fault) => throw fault
      | found =>
        if found.any (Token.isSign ended.sign) then return before ++ [name]
        else throw (.missing comma)
    | some (.flaw fault) => throw fault
    | found =>
      if found.any (Token.isSign ended.sign) then return before else throw (.missing ended)

end Reader

namespace Parts

open Reader

/-- Reads the arguments of a call, if there are any behind a name, and whether
the call looks round. A call without arguments takes no level. -/
def callArguments? (parts : Parts) (steps : Nat) (at_ : Setting) (name : String) :
    Reader (Option (Bool × List Expression)) := do
  let looksRound ← skipIf (Token.isSign "!")
  let at_ ←
    if looksRound then
      unless ← nextIs fun token => token.isUnit || token.isSign "(" do
        throw (.missing .callStart)
      at_.deeper 1
    else pure at_
  if ← skipIf Token.isUnit then return some (looksRound, [])
  else if ← skipIf (Token.isSign "(") then
    match ← peek with
    | none => throw (.missing (.callEnd name))
    | some (.flaw fault) => throw fault
    | some (.sign ")") =>
      skip
      return some (looksRound, [])
    | some _ =>
      return some (looksRound, ← arguments (parts.expression (← at_.deeper 1)) name steps)
  else return none

/-- Reads what follows a name: the name that it is a collection for, the
arguments of a call, or nothing. -/
def named (parts : Parts) (at_ : Setting) : (steps : Nat) → (path : List String) →
    (word : String) → Reader Expression
  | 0, _, _ => outOfSteps
  | steps + 1, path, word => do
    match ← parts.callArguments? steps at_ word with
    | some (looksRound, args) => return .call looksRound path word args
    | none =>
      if ← skipIf (Token.isSign "::") then
        named parts at_ steps (path ++ [word]) (← variableName)
      else
        if path.isEmpty then refer at_ word
        return .reference path word

/-- Reads the name behind a period, and the arguments if it is called. -/
def member (parts : Parts) (steps : Nat) (at_ : Setting) (guarded : Bool) : Reader Link := do
  match ← peek with
  | some (.name word) =>
    skip
    match ← parts.callArguments? steps at_ word with
    | some (true, _) => throw .methodLooksRound
    | some (false, args) => return .method guarded word args
    | none => return .property guarded word
  | some (.reserved word) =>
    if word ∉ methodWords then throw (.reserved word)
    skip
    match ← parts.callArguments? steps at_ word with
    | some (true, _) => throw .methodLooksRound
    | some (false, args) => return .method guarded word args
    | none => throw (.reserved word)
  | _ => throw .missingProperty

/-- Reads the pieces that are left of a text, each behind a block. -/
def pieces (parts : Parts) (at_ : Setting) : (steps : Nat) → Reader (List Expression)
  | 0 => outOfSteps
  | steps + 1 => do
    let inside := Expression.statement (← parts.block at_)
    let withText := fun (text : String) (rest : List Expression) =>
      if text = "" then inside :: rest else inside :: .constant (.text text) :: rest
    match ← take with
    | some (.piece text) => return withText text (← pieces parts at_ steps)
    | some (.constant (.text text)) => return withText text []
    | _ => throw .openText

/-- Reads a function without a name of its own. -/
def closure (parts : Parts) (steps : Nat) (at_ : Setting) : Reader Expression := do
  let at_ ← at_.deeper 1
  let outer ← get
  let names ←
    if (← take).any (Token.isSign "||") then pure []
    else parameters "" .closureEnd .closureComma steps []
  modify fun r => { r with known := names.map fun name => (name, false), shared := [] }
  let body ← parts.statement at_.ofClosure
  let inner ← get
  let name := Fault.closureMark ++ toString inner.functions.length
  set { inner with known := outer.known, shared := outer.shared }
  define ⟨name, inner.shared, names, body.getD (.block [])⟩
  inner.shared.forM (refer at_)
  return .closure name inner.shared

end Parts

end SheetCipher.Script
