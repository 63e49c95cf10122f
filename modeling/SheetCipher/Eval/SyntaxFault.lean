import SheetCipher.Eval.Value

/-!
# SyntaxFault — why a formula is rejected

A formula is rejected before anything is worked out: where its script cannot be
read, where a literal stands that cannot have an effect there, or where it is
nested too deeply. Each fault is kept with what its text needs.
-/

namespace SheetCipher

/-- What a literal is called where another value has to stand. -/
inductive LiteralKind where
  | integer
  | real
  | character
  | text
  | truth
  | unit
  | list
  | record
deriving DecidableEq, Repr

/-- The place of a sign that is missing. -/
inductive MissingPlace where
  | callStart
  | callEnd (name : String)
  | callComma (name : String)
  | parenEnd
  | entryEnd
  | listComma
  | listEnd
  | recordColon (name : String)
  | recordComma
  | recordEnd
  | blockStart
  | blockEnd
  | statementEnd
  | loopCondition
  | loopComma
  | loopNamesEnd
  | loopSource
  | handler
  | handlerNameEnd
  | casesStart
  | casesEnd
  | caseArrow
  | caseComma
  | functionWord
  | parametersEnd (name : String)
  | parametersComma (name : String)
  | closureEnd
  | closureComma
deriving DecidableEq, Repr

/-- Why a formula is rejected before it is worked out. -/
inductive SyntaxFault where
  /-- A text is not ended on the line on which it should be. -/
  | openText
  /-- In a text, a backslash and what follows stand for nothing. -/
  | badEscape (sequence : List Char)
  /-- A single character is wanted between single quotes. -/
  | badCharacter (text : String)
  /-- Digits that make up no number. -/
  | badNumber (text : String)
  /-- A name has no letter. -/
  | badName (text : String)
  /-- Something stands where it cannot. -/
  | unexpected (text : String)
  /-- A word or a sign that stands for nothing yet. -/
  | reserved (text : String)
  /-- A sign of another language, with advice on what to write. -/
  | foreign (advice : String)
  /-- A sign that stands for nothing yet, where an operator may stand. -/
  | unknownOperator (sign : String)
  /-- The end comes where an operand is due. -/
  | incomplete
  /-- Something else stands where a sign is due. -/
  | missing (place : MissingPlace)
  /-- No name of a variable stands where one is due. -/
  | missingName
  /-- No name follows a period, or none starts an entry of a record. -/
  | missingProperty
  /-- No name follows the word that starts a function. -/
  | missingFunctionName
  /-- No parameters follow the name of a function. -/
  | missingParameters (function : String)
  /-- No block follows the parameters of a function. -/
  | missingBody (function : String)
  /-- A block stands where a condition is due. -/
  | missingCondition
  /-- A case is no literal. -/
  | missingLiteral (article : Bool)
  /-- Two parameters of one name. -/
  | repeatedParameter (function name : String)
  /-- Two entries of one name. -/
  | repeatedProperty (name : String)
  /-- Two variables of one name. -/
  | repeatedVariable (name : String)
  /-- Two functions of one name with as many parameters. -/
  | repeatedFunction (name : String) (parameters : Nat)
  /-- A function is defined inside a block. -/
  | innerFunction
  /-- A variable is exposed inside a block. -/
  | innerExport
  /-- A loop is left where there is none. -/
  | noLoop
  /-- A word that only a function may use. -/
  | onlyInFunction (word : String)
  /-- A function behind a period that looks round. -/
  | methodLooksRound
  /-- A single `=` where a condition ends. -/
  | assignedCondition
  /-- A combined assignment where a condition ends. -/
  | updatedCondition
  /-- A constant is assigned to; without a name if it is a literal. -/
  | constantTarget (name : String)
  /-- Something is assigned to that holds no value. -/
  | badTarget
  /-- A case for an integer behind one for a range. -/
  | integerBehindRange
  | caseBehindDefault
  /-- The case for all others has a condition. -/
  | conditionalDefault
  /-- A literal stands where a truth value has to. -/
  | literalCondition (found : LiteralKind)
  /-- A literal stands where something with many values has to. -/
  | literalSource (found : LiteralKind)
  /-- A literal stands for the place of an entry that it cannot be; of a record
  if `inRecord`. -/
  | literalPlace (inRecord : Bool) (found : LiteralKind)
  /-- The formula is nested too deeply. -/
  | tooDeep
deriving DecidableEq, Repr

namespace LiteralKind

def ofValue : Value → LiteralKind
  | .text _ => text
  | .int _ | .range _ _ _ => integer
  | .real _ => real
  | .char _ => character
  | .bool _ => truth
  | .blank | .function _ _ _ => unit
  | .list _ => list
  | .record _ _ => record

def phrase : LiteralKind → String
  | integer => "a number"
  | real => "a floating-point number"
  | character => "a character"
  | text => "a string"
  | truth => "a boolean"
  | unit => "()"
  | list => "an array"
  | record => "an object map"

/-- The literal in words, as the place of an entry. -/
def placePhrase : LiteralKind → String
  | real => "a float"
  | kind => kind.phrase

end LiteralKind

namespace MissingPlace

def sign : MissingPlace → String
  | callStart => "("
  | callEnd _ | parenEnd | loopNamesEnd | handlerNameEnd | parametersEnd _ => ")"
  | callComma _ | listComma | recordComma | loopComma | caseComma | parametersComma _
  | closureComma => ","
  | entryEnd | listEnd => "]"
  | recordColon _ => ":"
  | blockStart | casesStart => "\x7b"
  | recordEnd | blockEnd | casesEnd => "\x7d"
  | statementEnd => ";"
  | loopCondition => "while"
  | loopSource => "in"
  | handler => "catch"
  | caseArrow => "=>"
  | functionWord => "fn"
  | closureEnd => "|"

def purpose : MissingPlace → String
  | callStart => "to start arguments list of function call"
  | callEnd name => "to close the arguments list of this function call '" ++ name ++ "'"
  | callComma name => "to separate the arguments to function call '" ++ name ++ "'"
  | parenEnd => "for a matching ( in this expression"
  | entryEnd => "for a matching [ in this index expression"
  | listComma => "to separate the items of this array literal"
  | listEnd => "to end this array literal"
  | recordColon name => "to follow the property '" ++ name ++ "' in this object map literal"
  | recordComma => "to separate the items of this object map literal"
  | recordEnd => "to end this object map literal"
  | blockStart => "to start a statement block"
  | blockEnd => "to terminate this block"
  | statementEnd => "to terminate this statement"
  | loopCondition => "for the do statement"
  | loopComma => "after the iteration variable name"
  | loopNamesEnd => "to close the iteration variable"
  | loopSource => "after the iteration variable"
  | handler => "for the 'try' statement"
  | handlerNameEnd => "to enclose the catch variable"
  | casesStart => "to start a switch block"
  | casesEnd => "to end this switch block"
  | caseArrow => "in this switch case"
  | caseComma => "to separate the items in this switch block"
  | functionWord => "following 'private'"
  | parametersEnd name => "to close the parameters list of function '" ++ name ++ "'"
  | parametersComma name => "to separate the parameters of function '" ++ name ++ "'"
  | closureEnd => "to close the parameters list of anonymous function or closure"
  | closureComma => "to separate the parameters of anonymous function"

end MissingPlace

namespace SyntaxFault

def isWord (text : String) : Bool := text.toList.head?.any CellRef.isLetter

/-- What is wrong, without the kind of the fault. -/
def phrase : SyntaxFault → String
  | openText => "Open string is not terminated"
  | badEscape sequence => "Invalid escape sequence: '" ++ String.ofList sequence ++ "'"
  | badCharacter text => "Invalid character: '" ++ text ++ "'"
  | badNumber text => "Invalid number: '" ++ text ++ "'"
  | badName text => "Variable name is not proper: '" ++ text ++ "'"
  | unexpected text => "Unexpected '" ++ text ++ "'"
  | reserved text =>
    "'" ++ text ++ "' is a reserved " ++ (if isWord text then "keyword" else "symbol")
  | foreign advice => advice
  | unknownOperator sign => "Unknown operator: '" ++ sign ++ "'"
  | incomplete => "Script is incomplete"
  | missing place => "Expecting '" ++ place.sign ++ "' " ++ place.purpose
  | missingName => "Expecting name of a variable"
  | missingProperty => "Expecting name of a property"
  | missingFunctionName => "Expecting function name in function declaration"
  | missingParameters function => "Expecting parameters for function " ++ function
  | missingBody function =>
    if function = "" then "Expecting body statement block for anonymous function"
    else "Expecting body statement block for function " ++ function
  | missingCondition => "Expecting a boolean expression"
  | missingLiteral article => "Expecting " ++ (if article then "a " else "") ++ "literal expression"
  | repeatedParameter function name =>
    "Duplicated parameter " ++ name ++ " for function " ++ function
  | repeatedProperty name => "Duplicated property for object map literal: " ++ name
  | repeatedVariable name => "Duplicated variable name: " ++ name
  | repeatedFunction name 0 => "Function " ++ name ++ "() already exists"
  | repeatedFunction name 1 => "Function " ++ name ++ " with 1 parameter already exists"
  | repeatedFunction name n =>
    "Function " ++ name ++ " with " ++ toString n ++ " parameters already exists"
  | innerFunction =>
    "Function definitions must be at global level and cannot be inside a block or another function"
  | innerExport => "Export statement can only appear at global level"
  | noLoop => "Break statement should only be used inside a loop"
  | onlyInFunction word => "'" ++ word ++ "' can only be used in functions"
  | methodLooksRound =>
    "method-call style does not support running within the caller's scope"
  | assignedCondition => "Possibly a typo of '=='?"
  | updatedCondition => "Expecting a boolean expression, not an assignment"
  | constantTarget "" => "Cannot assign to a constant value"
  | constantTarget name => "Cannot assign to constant " ++ name
  | badTarget => "Expression cannot be assigned to"
  | integerBehindRange => "Numeric switch case cannot follow a range case"
  | caseBehindDefault => "Default switch case must be the last"
  | conditionalDefault => "This switch case cannot have a condition"
  | literalCondition found => "Expecting a boolean expression, not " ++ found.phrase
  | literalSource found => "Expecting an iterable value, not " ++ found.phrase
  | literalPlace true found =>
    "Object map expects string index, not " ++ found.placePhrase
  | literalPlace false .text =>
    "Array, string or bit-field expects numeric index, not a string"
  | literalPlace false found =>
    "Array, string or bit-field expects integer index, not " ++ found.placePhrase
  | tooDeep => "Expression exceeds maximum complexity"

def message (fault : SyntaxFault) : String := "Syntax error: " ++ fault.phrase

end SyntaxFault

end SheetCipher
