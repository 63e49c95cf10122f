import SheetCipher.Script.Sequence

/-!
# Construct — choices, loops, selections and definitions

Each construct starts with a word of its own, which is still the next token
when its reading starts.
-/

namespace SheetCipher.Script

namespace Parts

open Reader

def condition (parts : Parts) (at_ : Setting) : Reader Expression := do
  rejectBlock
  let e ← parts.expression at_
  e.needTruth
  rejectAssignment
  return e

def choice (parts : Parts) : (steps : Nat) → Setting → Reader Statement
  | 0, _ => outOfSteps
  | steps + 1, at_ => do
    skip
    let at_ ← at_.deeper 1
    let e ← parts.condition at_
    let thenPart ← parts.block at_
    if ← skipIf (Token.isKeyword "else") then
      if ← nextIs (Token.isKeyword "if") then
        return .choice e thenPart (← choice parts steps at_)
      else return .choice e thenPart (← parts.block at_)
    else return .choice e thenPart (.block [])

/-- Reads a loop with its condition in front, or with none. -/
def whileLoop (parts : Parts) (at_ : Setting) : Reader Statement := do
  let at_ ← at_.deeper 1
  let e ←
    if (← take).any (Token.isKeyword "while") then parts.condition at_
    else pure (.constant (.bool true))
  return .whileLoop e (← parts.block at_.ofLoop)

/-- Reads a loop with its condition behind. -/
def doLoop (parts : Parts) (at_ : Setting) : Reader Statement := do
  skip
  let at_ ← at_.deeper 1
  let body ← parts.block at_.ofLoop
  let goOn ←
    if ← skipIf (Token.isKeyword "until") then pure false
    else
      demand (Token.isKeyword "while") .loopCondition
      pure true
  return .doLoop body goOn (← parts.condition at_)

/-- Reads the name for each value of a loop, and the one for its number. -/
def loopNames : Reader (String × Option String) := do
  if ← skipIf (Token.isSign "(") then
    let name ← variableName
    demand (Token.isSign ",") .loopComma
    let counter ← variableName
    if counter = name then throw (.repeatedVariable counter)
    demand (Token.isSign ")") .loopNamesEnd
    return (name, some counter)
  else return (← variableName, none)

/-- Reads a loop over several values. -/
def forLoop (parts : Parts) (at_ : Setting) : Reader Statement := do
  skip
  let at_ ← at_.deeper 1
  let (name, counter) ← loopNames
  expect (Token.isKeyword "in") .loopSource
  rejectBlock
  let source ← parts.expression at_
  source.needSource
  inScope do
    counter.forM fun name => introduce name false
    introduce name false
    return .forLoop name counter source (← parts.block at_.ofLoop)

/-- Reads the labels of a case, with bars between them. -/
def labels (parts : Parts) (at_ : Setting) : (steps : Nat) → Reader (List Value)
  | 0 => outOfSteps
  | steps + 1 => do
    let e ← tryCatch (parts.expression at_) fun _ => throw (.missingLiteral false)
    match e.label? with
    | none => throw (.missingLiteral true)
    | some v =>
      if ← skipIf (Token.isSign "|") then return v :: (← labels parts at_ steps) else return [v]

/-- Reads the labels of a case and its condition; none of the case for all
others. -/
def caseHead (parts : Parts) (steps : Nat) (at_ : Setting) :
    Reader (List Value × Option Expression) := do
  if ← skipIf (Token.isKeyword "_") then
    if ← nextIs (Token.isKeyword "if") then throw .conditionalDefault
    return ([], none)
  else
    let values ← parts.labels at_.ofLabel steps
    if ← skipIf (Token.isKeyword "if") then return (values, some (← parts.condition at_))
    else return (values, none)

/-- Reads the cases that are left of a selection, and its end; `ranges` says
whether there has been a case for a range, and `closed` whether there has been
the one for all others. -/
def cases (parts : Parts) (at_ : Setting) : (steps : Nat) → (ranges closed : Bool) →
    Reader (List Case)
  | 0, _, _ => outOfSteps
  | steps + 1, ranges, closed => do
    match ← peek with
    | none => throw (.missing .casesEnd)
    | some (.sign "\x7d") =>
      skip
      return []
    | some _ =>
      if closed then throw .caseBehindDefault
      let (values, guard) ← parts.caseHead steps at_
      expect (Token.isSign "=>") .caseArrow
      let action ← parts.statement at_
      let ranges ← values.foldlM afterLabel ranges
      let found := Case.mk values guard (action.getD (.block []))
      match ← peek with
      | some (.sign ",") => skip
      | some (.sign "\x7d") => pure ()
      | none => throw (.missing .casesEnd)
      | some _ => unless action.any Statement.endsItself do refuse (.missing .caseComma)
      return found :: (← cases parts at_ steps ranges values.isEmpty)
where
  /-- Whether there has been a range once one more label is known. -/
  afterLabel (ranges : Bool) (label : Value) : Reader Bool := do
    match label with
    | .range _ _ _ => return true
    | .int _ => if ranges then throw .integerBehindRange else return false
    | _ => return ranges

def selection (parts : Parts) (steps : Nat) (at_ : Setting) : Reader Statement := do
  skip
  let at_ ← at_.deeper 1
  let item ← parts.expression at_
  expect (Token.isSign "\x7b") .casesStart
  return .selection item (← parts.cases at_ steps false false)

/-- Reads a body and its handler. -/
def attempt (parts : Parts) (at_ : Setting) : Reader Statement := do
  skip
  let at_ ← at_.deeper 1
  let body ← parts.block at_
  demand (Token.isKeyword "catch") .handler
  if ← skipIf (Token.isSign "(") then
    let name ← variableName
    demand (Token.isSign ")") .handlerNameEnd
    inScope do
      introduce name false
      return .attempt body (some name) (← parts.block at_)
  else return .attempt body none (← parts.block at_)

/-- Reads the definition of a variable. -/
def definition (parts : Parts) (at_ : Setting) : Reader Statement := do
  let isConstant := (← take).any (Token.isKeyword "const")
  let name ← variableName
  let value ←
    if ← skipIf (Token.isSign "=") then parts.expression (← at_.deeper 1)
    else pure (.constant .blank)
  introduce name isConstant
  return .define isConstant name value

/-- Reads the definition of a function, which may be marked as private. -/
def functionDefinition (parts : Parts) (steps : Nat) : Reader Unit := do
  if ← skipIf (Token.isKeyword "private") then
    unless ← nextIs (Token.isKeyword "fn") do throw (.missing .functionWord)
  skip
  match ← take with
  | some (.name name) =>
    let names ←
      if ← skipIf Token.isUnit then pure []
      else if ← skipIf (Token.isSign "(") then
        parameters name (.parametersEnd name) (.parametersComma name) steps []
      else throw (.missingParameters name)
    unless ← nextIs (Token.isSign "\x7b") do throw (.missingBody name)
    let outer ← get
    set { outer with known := names.map fun name => (name, false), shared := [] }
    let body ← parts.block .ofFunction
    modify fun r => { r with known := outer.known, shared := outer.shared }
    define ⟨name, [], names, body⟩
  | some (.reserved word) => throw (.reserved word)
  | _ => throw .missingFunctionName

/-- Reads the expression behind a word, unless the statement ends there. -/
def result? (parts : Parts) (at_ : Setting) : Reader (Option Expression) := do
  match ← peek with
  | none | some (.sign ";") => return none
  | some token =>
    if token.isSign "\x7d" && !at_.isTop then return none
    else return some (← parts.expression (← at_.deeper 1))

/-- Reads an expression as a statement, and what is assigned to it. -/
def assignment (parts : Parts) (at_ : Setting) : Reader Statement := do
  let target ← parts.expression at_
  match ← peek with
  | some (.sign text) =>
    let op := Connective.ofUpdate? text
    if text = "=" ∨ op.isSome then
      skip
      let value ← parts.expression (← at_.deeper 1)
      checkTarget op.isNone target
      return .assign op target value
    else return .evaluate target
  | _ => return .evaluate target

/-- Takes in a collection of functions, perhaps under a name of its own. -/
def importing (parts : Parts) (at_ : Setting) : Reader Statement := do
  skip
  let source ← parts.expression (← at_.deeper 1)
  if ← skipIf (Token.isKeyword "as") then
    let _ ← variableName
  return .use source

/-- Reads what lets others see a variable, which may be defined there. -/
def exposure (parts : Parts) (at_ : Setting) : Reader Statement := do
  unless at_.isTop do throw .innerExport
  skip
  match ← peek with
  | some (.keyword "let") | some (.keyword "const") => parts.definition (← at_.deeper 1)
  | _ =>
    let name ← variableName
    if ← skipIf (Token.isKeyword "as") then
      let _ ← variableName
    return .expose name

/-- Reads what starts with a word and may stand for an expression. -/
def construct? (parts : Parts) (steps : Nat) (at_ : Setting) (word : String) :
    Reader (Option Statement) := do
  match word with
  | "if" => return some (← parts.choice steps (← at_.deeper 1))
  | "switch" => return some (← parts.selection steps (← at_.deeper 1))
  | "while" | "loop" => return some (← parts.whileLoop (← at_.deeper 1))
  | "do" => return some (← parts.doLoop (← at_.deeper 1))
  | "for" => return some (← parts.forLoop (← at_.deeper 1))
  | _ => return none

/-- Reads what starts with a word and stands for no expression. -/
def instruction? (parts : Parts) (at_ : Setting) (word : String) :
    Reader (Option Statement) := do
  match word with
  | "try" => return some (← parts.attempt (← at_.deeper 1))
  | "let" | "const" => return some (← parts.definition (← at_.deeper 1))
  | "import" => return some (← parts.importing (← at_.deeper 1))
  | "export" => return some (← parts.exposure (← at_.deeper 1))
  | "break" | "continue" =>
    unless at_.inLoop do throw .noLoop
    skip
    if word = "break" then return some (.leave (← parts.result? at_.ofBlock))
    else return some .next
  | "return" =>
    skip
    return some (.answer (← parts.result? at_))
  | "throw" =>
    skip
    return some (.raise (← parts.result? at_))
  | _ => return none

end Parts

end SheetCipher.Script
