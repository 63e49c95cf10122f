import SheetCipher.Script.Construct

/-!
# Reader — scripts as programs

A script is a row of statements with semicolons between them, most often a
single expression. Expressions are read with the usual strength of their
operators. What is inside a construct has fewer levels than the construct
itself.
-/

namespace SheetCipher.Script

namespace Reader

mutual

def expression : (steps : Nat) → Setting → Reader Expression
  | 0, _ => outOfSteps
  | steps + 1, at_ => do
    let at_ ← at_.deeper 1
    let lhs ← operand steps at_
    chain steps at_ 0 lhs

/-- Reads the connectives that bind tighter than `strength`, and what they join
to the expression on their left. -/
def chain : (steps : Nat) → Setting → (strength : Nat) → Expression → Reader Expression
  | 0, _, _, _ => outOfSteps
  | steps + 1, at_, strength, lhs => do
    match ← connective at_ with
    | none => return lhs
    | some c =>
      if !c.takes strength then return lhs
      else
        skip
        let rhs ← operand steps at_
        let rhs ←
          match ← connective at_ with
          | some next => if next.takes c.strength then chain steps at_ c.strength rhs else pure rhs
          | none => pure rhs
        let at_ ← at_.deeper 1
        chain steps at_ strength (← c.join lhs rhs)

/-- Reads an operand with the signs in front of it. -/
def operand : (steps : Nat) → Setting → Reader Expression
  | 0, _ => outOfSteps
  | steps + 1, at_ => do
    match ← peek with
    | some (.sign text) =>
      if text ∈ ["-", "+", "!"] then
        skip
        return signed text (← operand steps (← at_.deeper 1))
      else links steps at_ (← primary steps at_) []
    | _ => links steps at_ (← primary steps at_) []

/-- Reads an operand without signs in front of it or steps behind it. -/
def primary : (steps : Nat) → Setting → Reader Expression
  | 0, _ => outOfSteps
  | steps + 1, at_ => do
    let parts : Parts := ⟨expression steps, block steps, statement steps⟩
    match ← peek with
    | none => throw .incomplete
    | some (.flaw fault) => throw fault
    | some (.constant v) =>
      skip
      return .constant v
    | some (.piece text) =>
      skip
      let rest ← parts.pieces (← at_.deeper 1) steps
      return .template (if text = "" then rest else .constant (.text text) :: rest)
    | some (.name word) =>
      skip
      parts.named at_ steps [] word
    | some (.reserved word) =>
      skip
      if word ∈ callableWords then
        match ← parts.callArguments? steps at_ word with
        | some (looksRound, args) => return .call looksRound [] word args
        | none => throw (.reserved word)
      else if word = subjectWord then
        if at_.inFunction then return .subject else throw (.onlyInFunction word)
      else throw (.reserved word)
    | some (.keyword word) =>
      match ← parts.construct? steps at_ word with
      | some s => return .statement s
      | none => throw (.unexpected word)
    | some (.sign text) =>
      match text with
      | "(" =>
        skip
        let at_ ← at_.deeper 1
        if ← skipIf (Token.isSign ")") then return .constant .blank
        else
          let e ← expression steps at_
          expect (Token.isSign ")") .parenEnd
          return e
      | "\x7b" => return .statement (← block steps (← at_.deeper 1))
      | "[" =>
        skip
        return .list (← items (expression steps (← at_.deeper 1)) steps)
      | "#\x7b" =>
        skip
        let found ← entries (expression steps (← at_.deeper 1)) steps []
        return .record (found.map Prod.fst) (found.map Prod.snd)
      | "|" | "||" => parts.closure steps (← at_.deeper 1)
      | text => throw (.unexpected text)

/-- Reads the steps that are left from an expression to what it holds. -/
def links : (steps : Nat) → Setting → Expression → (before : List Link) → Reader Expression
  | 0, _, _, _ => outOfSteps
  | steps + 1, at_, root, before => do
    let parts : Parts := ⟨expression steps, block steps, statement steps⟩
    let text := match ← peek with
      | some (.sign text) => text
      | _ => ""
    if text = "." ∨ text = "?." then
      skip
      let at_ ← at_.deeper 1
      links steps at_ root (before ++ [← parts.member steps at_ (text = "?.")])
    else if text = "[" ∨ text = "?[" then
      skip
      let at_ ← at_.deeper 1
      let place ← expression steps at_
      if before.isEmpty then root.needPlace place
      expect (Token.isSign "]") .entryEnd
      links steps at_ root (before ++ [.entry (text = "?[") place])
    else return if before.isEmpty then root else .chain root before

/-- Reads a statement. Nothing is left of an empty one or of the definition of
a function. -/
def statement : (steps : Nat) → Setting → Reader (Option Statement)
  | 0, _ => outOfSteps
  | steps + 1, at_ => do
    let parts : Parts := ⟨expression steps, block steps, statement steps⟩
    match ← peek with
    | none => return none
    | some (.sign ";") =>
      skip
      return none
    | some (.sign "\x7b") => return some (← block steps (← at_.deeper 1))
    | some (.keyword word) =>
      if word = "fn" ∧ !at_.isTop then throw .innerFunction
      else if word ∈ ["fn", "private"] ∧ at_.isTop then
        parts.functionDefinition steps
        return none
      else
        match ← parts.construct? steps at_ word with
        | some s => return some s
        | none =>
          match ← parts.instruction? at_ word with
          | some s => return some s
          | none => return some (← parts.assignment at_)
    | some _ => return some (← parts.assignment at_)

/-- Reads statements between braces. -/
def block : (steps : Nat) → Setting → Reader Statement
  | 0, _ => outOfSteps
  | steps + 1, at_ => do
    expect (Token.isSign "\x7b") .blockStart
    let inner := (← at_.deeper 1).ofBlock
    inScope do return .block (← statements steps inner true)

/-- Reads statements up to the brace that ends their block, or up to the end of
the script. -/
def statements : (steps : Nat) → Setting → (inBlock : Bool) → Reader (List Statement)
  | 0, _, _ => outOfSteps
  | steps + 1, at_, inBlock => do
    let isEnd := fun (token : Token) => inBlock && token.isSign "\x7d"
    if (← peek).isNone then
      if inBlock then throw (.missing .blockEnd) else return []
    else if ← skipIf isEnd then return []
    else
      match ← statement steps (← at_.deeper 1) with
      | none => statements steps at_ inBlock
      | some s =>
        let next ← peek
        if next.isNone && !inBlock then return [s]
        else
          let separated ← skipIf (Token.isSign ";")
          unless separated || next.any isEnd || s.endsItself do refuse (.missing .statementEnd)
          return s :: (← statements steps at_ inBlock)

end

end Reader

/-- How many calls of the reader a token or a level can need. -/
def stepsPerToken : Nat := 16

/-- Reads a script. Every call of the reader takes a token or a level, up to a
constant factor, so that the steps suffice. -/
def read (script : List Char) : Except SyntaxFault Program := do
  let row := tokens script
  let steps := stepsPerToken * (row.length + Setting.scriptRoom)
  let (body, reading) ← (Reader.statements steps .top false).run ⟨row, [], [], []⟩
  return ⟨reading.functions, body⟩

end SheetCipher.Script
