import SheetCipher.Eval.SyntaxFault

/-!
# Fault — why a formula has no value

Some formulas are rejected before anything is worked out; the others fail at
the first operation that has no result.
-/

namespace SheetCipher

/-- The operators between two values. -/
inductive ValueOperator where
  | add
  | sub
  | mul
  | div
  | mod
  | pow
  | eq
  | ne
  | lt
  | le
  | gt
  | ge
  | bitAnd
  | bitOr
  | bitXor
  | shiftLeft
  | shiftRight
  /-- The integers up to one, without it. -/
  | upTo
  /-- The integers up to one, with it. -/
  | through
deriving DecidableEq, Repr

/-- What has entries at numbered places. -/
inductive Numbered where
  | list
  | text
  | bits
deriving DecidableEq, Repr

/-- Why a formula has no value. -/
inductive Fault where
  | syntaxFault (fault : SyntaxFault)
  /-- There is no such operation on arguments of these types. -/
  | noOperation (name : String) (arguments : List String)
  | badFunctionName (text : String)
  /-- Values of this type have no such property. -/
  | noProperty (name typeName : String)
  /-- A property of values of this type cannot be given a value. -/
  | fixedProperty (name typeName valueType : String)
  /-- Values of these types have no entries at such places. -/
  | noEntries (types : String)
  /-- Nothing has this name. -/
  | unknownName (name : String)
  /-- No collection of functions has this name. -/
  | unknownModule (name : String)
  /-- The result of an operator leaves the 64-bit integers. -/
  | overflow (op : ValueOperator) (lhs rhs : Int64)
  /-- An integer has no counterpart of the other sign. -/
  | negationOverflow (n : Int64)
  /-- A number leaves the integers, or a text is no number. -/
  | badConversion (text : String)
  /-- The divisor of a remainder is 0. -/
  | divisionByZero
  /-- A function overruns its words. -/
  | overrun (report : Overrun)
  /-- A value of one type is needed and this is one of another. -/
  | wrongType (found wanted : String)
  /-- There is no entry at this place. -/
  | outOfBounds (what : Numbered) (size : Nat) (place : Int64)
  /-- A loop over something without values. -/
  | notIterable
  /-- A constant is given a value. -/
  | constantVariable (name : String)
  /-- A constant would be changed by a function. -/
  | constantArgument (function : String)
  /-- The subject of a function that has none. -/
  | noSubject
  /-- A script gives up with a value. -/
  | raised (value : Value)
  /-- A fault inside a function of a script. -/
  | inFunction (name : String) (cause : Fault)
  /-- Functions of a script are called too deeply. -/
  | tooManyCalls
  /-- A script goes on for too long. -/
  | endless

namespace ValueOperator

def sign : ValueOperator → String
  | add => "+"
  | sub => "-"
  | mul => "*"
  | div => "/"
  | mod => "%"
  | pow => "**"
  | eq => "=="
  | ne => "!="
  | lt => "<"
  | le => "<="
  | gt => ">"
  | ge => ">="
  | bitAnd => "&"
  | bitOr => "|"
  | bitXor => "^"
  | shiftLeft => "<<"
  | shiftRight => ">>"
  | upTo => ".."
  | through => "..="

/-- The largest power that integers are raised to. -/
def largestPower : Int64 := 4294967295

/-- What has gone wrong when an operator on integers has no result. -/
def trouble (op : ValueOperator) (rhs : Int64) : String :=
  match op with
  | add => "Addition overflow"
  | sub => "Subtraction overflow"
  | mul => "Multiplication overflow"
  | div => if rhs = 0 then "Division by zero" else "Division overflow"
  | pow =>
    if rhs < 0 then "Integer raised to a negative power"
    else if largestPower < rhs then "Integer raised to too large an index"
    else "Exponential overflow"
  | _ => "Modulo division by zero or overflow"

end ValueOperator

namespace Numbered

/-- How a place is called, what has places, and what stands there, one and
several. -/
def words : Numbered → String × String × String × String
  | list => ("Array index ", "array", "element", "elements")
  | text => ("String index ", "string", "character", "characters")
  | bits => ("Bit-field index ", "bit-field", "bit", "bits")

end Numbered

namespace Fault

def boundsPhrase (what : Numbered) (size : Nat) (place : Int64) : String :=
  let (start, whole, one, several) := what.words
  start ++ Value.intText place ++ " out of bounds: " ++
    match size with
    | 0 => whole ++ " is empty"
    | 1 => "only 1 " ++ one ++ " in " ++ whole
    | n => "only " ++ toString n ++ " " ++ several ++ " in " ++ whole

/-- How a function without a name of its own begins. -/
def closureMark : String := "anon$"

def message : Fault → String
  | syntaxFault fault => fault.message
  | noOperation name arguments =>
    "Function not found: " ++ name ++ " (" ++ ", ".intercalate arguments ++ ")"
  | badFunctionName text => "Function not found: " ++ text
  | noProperty name typeName =>
    "Unknown property '" ++ name ++ "' - a getter is not registered for type '" ++ typeName ++ "'"
  | fixedProperty name typeName valueType =>
    "No writable property '" ++ name ++ "' - a setter is not registered for type '" ++ typeName ++
      "' to handle '" ++ valueType ++ "'"
  | noEntries types => "Indexer unavailable: " ++ types
  | unknownName name => "Variable not found: " ++ name
  | unknownModule name => "Module not found: " ++ name
  | overflow op lhs rhs =>
    op.trouble rhs ++ ": " ++ Value.intText lhs ++ " " ++ op.sign ++ " " ++ Value.intText rhs
  | negationOverflow n => "Negation overflow: -" ++ Value.intText n
  | badConversion text => text
  | divisionByZero => "Runtime error: #DIV/0!"
  | overrun report => report.message
  | wrongType found wanted => "Data type incorrect: " ++ found ++ " (expecting " ++ wanted ++ ")"
  | outOfBounds what size place => boundsPhrase what size place
  | notIterable => "For loop expects iterable type"
  | constantVariable name => "Cannot modify constant: " ++ name
  | constantArgument function =>
    "Non-pure method '" ++ function ++ "' cannot be called on constant"
  | noSubject => "'this' not bound"
  | raised .blank | raised (.text "") => "Runtime error"
  | raised value => "Runtime error: " ++ value.joined
  | inFunction name cause =>
    cause.message ++ " in call to " ++
      (if closureMark.toList.isPrefixOf name.toList then "closure"
        else "function '" ++ name ++ "'")
  | tooManyCalls => "Stack overflow"
  | endless => "Too many operations"

/-- The kind of a fault, as a script that handles it sees it. -/
def kind : Fault → String
  | syntaxFault _ => "ErrorParsing"
  | noOperation _ _ | badFunctionName _ => "ErrorFunctionNotFound"
  | noProperty _ _ | fixedProperty _ _ _ => "ErrorDotExpr"
  | noEntries _ => "ErrorIndexingType"
  | unknownName _ => "ErrorVariableNotFound"
  | unknownModule _ => "ErrorModuleNotFound"
  | overflow _ _ _ | negationOverflow _ | badConversion _ => "ErrorArithmetic"
  | divisionByZero | raised _ | overrun _ => "ErrorRuntime"
  | wrongType _ _ => "ErrorMismatchDataType"
  | outOfBounds .list _ _ => "ErrorArrayBounds"
  | outOfBounds .text _ _ => "ErrorStringBounds"
  | outOfBounds .bits _ _ => "ErrorBitFieldBounds"
  | notIterable => "ErrorFor"
  | constantVariable _ => "ErrorAssignmentToConstant"
  | constantArgument _ => "ErrorNonPureMethodCallOnConstant"
  | noSubject => "ErrorUnboundThis"
  | inFunction _ _ => "ErrorInFunctionCall"
  | tooManyCalls => "ErrorStackOverflow"
  | endless => "ErrorTooManyOperations"

/-- Whether a fault ends the whole script: no handler sees it. -/
def isFinal : Fault → Bool
  | syntaxFault _ | overrun _ | tooManyCalls | endless => true
  | _ => false

/-- A fault seen from outside the function that it arose in. -/
def outside (function : String) (fault : Fault) : Fault :=
  if fault.isFinal then fault else inFunction function fault

/-- What a handler gets to see of a fault: the value that a script gives up
with, or a record of the kind and the text. -/
def seen : Fault → Value
  | raised v => v
  | divisionByZero => .text "#DIV/0!"
  | inFunction _ cause => cause.seen
  | fault => .record ["error", "message"] [.text fault.kind, .text fault.message]

end Fault

end SheetCipher
