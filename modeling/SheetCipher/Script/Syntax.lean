import SheetCipher.Eval.Fault

/-!
# Syntax — scripts that have been read

A script is a row of statements and the functions that it defines. Expressions
have values; statements may stand for expressions, and a block has the value of
its last statement. An `and` inside an `and` is part of its list, and so for
`or` and for the first of several that is no blank.
-/

namespace SheetCipher.Script

mutual

/-- What has a value. -/
inductive Expression where
  | constant (v : Value)
  /-- A text of pieces. -/
  | template (parts : List Expression)
  /-- A variable, or one of a collection. -/
  | reference (path : List String) (name : String)
  /-- The subject of a function. -/
  | subject
  | list (items : List Expression)
  | record (names : List String) (items : List Expression)
  /-- A function that is called, or one of a collection; one that looks round
  sees the variables around the call. -/
  | call (looksRound : Bool) (path : List String) (name : String) (args : List Expression)
  /-- A sign in front of an operand. -/
  | signed (sign : String) (operand : Expression)
  | operation (op : ValueOperator) (lhs rhs : Expression)
  /-- Whether all hold. -/
  | all (terms : List Expression)
  /-- Whether any holds. -/
  | any (terms : List Expression)
  /-- The first that is no blank. -/
  | first (terms : List Expression)
  /-- What is reached from a value step by step. -/
  | chain (root : Expression) (links : List Link)
  /-- A function without a name of its own, and the variables that it shares. -/
  | closure (name : String) (shared : List String)
  /-- A statement that has a value. -/
  | statement (body : Statement)

/-- A step from a value to what it holds; a guarded one stops at a blank. -/
inductive Link where
  | property (guarded : Bool) (name : String)
  | method (guarded : Bool) (name : String) (args : List Expression)
  | entry (guarded : Bool) (place : Expression)

/-- What is done. -/
inductive Statement where
  | evaluate (e : Expression)
  | block (body : List Statement)
  | choice (condition : Expression) (thenPart elsePart : Statement)
  | selection (item : Expression) (cases : List Case)
  | whileLoop (condition : Expression) (body : Statement)
  /-- A loop whose condition comes last; it goes on as long as the condition
  comes to `goOn`. -/
  | doLoop (body : Statement) (goOn : Bool) (condition : Expression)
  /-- A loop over several values, with a name for each and perhaps one for its
  number. -/
  | forLoop (name : String) (counter : Option String) (source : Expression) (body : Statement)
  | define (isConstant : Bool) (name : String) (value : Expression)
  /-- Gives a value to a target, perhaps by an operator on the one it has. -/
  | assign (op : Option ValueOperator) (target value : Expression)
  /-- Leaves a loop. -/
  | leave (value : Option Expression)
  /-- Goes on with the next round of a loop. -/
  | next
  /-- Leaves a function or the script. -/
  | answer (value : Option Expression)
  /-- Gives up with a value. -/
  | raise (value : Option Expression)
  /-- Goes on with the handler, which may name the cause, if the body fails. -/
  | attempt (body : Statement) (name : Option String) (handler : Statement)
  /-- Takes in a collection of functions. -/
  | use (name : Expression)
  /-- Lets others see a variable. -/
  | expose (name : String)

/-- One case of a selection: the constants that it is for, none if it is for
all others, its condition and what is done. -/
inductive Case where
  | mk (labels : List Value) (condition : Option Expression) (action : Statement)

end

instance : Inhabited Expression := ⟨.constant .blank⟩

instance : Inhabited Statement := ⟨.block []⟩

/-- A function of a script. One without a name of its own shares variables. -/
structure Function where
  name : String
  shared : List String
  parameters : List String
  body : Statement

/-- A script that has been read. -/
structure Program where
  functions : List Function
  body : List Statement

/-! ## What is written as a constant -/

namespace Expression

def literalKind? : Expression → Option LiteralKind
  | constant v => some (.ofValue v)
  | template _ => some .text
  | list _ => some .list
  | record _ _ => some .record
  | _ => none

/-- The terms that have to hold for an expression to hold. -/
def conjuncts : Expression → List Expression
  | all terms => terms
  | e => [e]

/-- The terms one of which has to hold for an expression to hold. -/
def disjuncts : Expression → List Expression
  | any terms => terms
  | e => [e]

/-- The terms the first of which that is no blank counts. -/
def candidates : Expression → List Expression
  | first terms => terms
  | e => [e]

end Expression

namespace Statement

/-- Whether the end of a statement shows without a semicolon. -/
def endsItself : Statement → Bool
  | choice _ _ _ | selection _ _ | whileLoop _ _ | forLoop _ _ _ _ | block _ | attempt _ _ _ => true
  | _ => false

end Statement

end SheetCipher.Script
