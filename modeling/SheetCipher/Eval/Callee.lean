import SheetCipher.Eval.Builtin

/-!
# Callee — what formulas call

Besides the functions of a sheet a formula calls the three that read values:
the value of a cell, the value at a computed row and an entry of a block of
another sheet.
-/

namespace SheetCipher

/-- What a formula calls. -/
inductive Callee where
  /-- A function of a sheet. -/
  | builtin (f : Builtin)
  /-- The value at a column and a row. -/
  | value
  /-- The value at a column and a row counted from 1. -/
  | indirect
  /-- The entry of a block of another sheet. -/
  | index
deriving DecidableEq, Repr

namespace Callee

/-- Everything that formulas call. -/
def every : List Callee :=
  [value, indirect, index] ++ [Builtin.mid, .code, .char, .mod, .len, .min].map builtin

def name : Callee → String
  | builtin f => f.name
  | value => "VALUE"
  | indirect => "INDIRECT"
  | index => "INDEX"

def ofName? (name : String) : Option Callee := every.find? fun f => f.name == name

/-- A computation in words as part of an evaluation. -/
def inWords {α : Type} : Except Overrun α → Except Fault α
  | .ok a => .ok a
  | .error report => .error (.overrun report)

/-- The value of a call, against the values of the own sheet and of the
others. -/
def apply (sheets : Sheets) (values : Values) (f : Callee) (args : List Value) :
    Except Fault Value :=
  match f, args with
  | builtin f, args => f.apply args
  | value, [.int col, .int row] => .ok (values.readAt col row)
  | indirect, [.int col, .int row] => do return values.readAt col (← inWords (Word.sub row 1))
  | index, [.text sheet, .int col, .int firstRow, .int lastRow, .int position] =>
    inWords (sheets.indexAt sheet col firstRow lastRow position)
  | f, args => .error (.noOperation f.name (args.map Value.argumentType))

end Callee

end SheetCipher
