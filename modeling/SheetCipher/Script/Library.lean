import SheetCipher.Script.Library.Collections
import SheetCipher.Script.Library.Texts

/-!
# Library — what scripts can do with values

The functions of the library by name, the properties of values, and what
stands at the places of lists, texts, records and the bits of integers.
-/

namespace SheetCipher.Script

namespace Library

open Native

/-- The functions on any value, and those on functions. Nothing is waited for. -/
def general : Natives :=
  [("to_string", fun
      | [v] => gives (.text v.joined)
      | _ => none),
    ("to_debug", fun
      | [v] => gives (.text v.written)
      | _ => none),
    ("sleep", fun
      | [.int _] | [.real _] => gives .blank
      | _ => none),
    ("take", fun
      | [v] => turns v .blank
      | _ => none),
    ("name", fun
      | [.function name _ _] => gives (.text name)
      | _ => none),
    ("is_anonymous", fun
      | [.function name _ _] => gives (.bool (Fault.closureMark.toList.isPrefixOf name.toList))
      | _ => none)]

def every : Natives :=
  general ++ Numbers.ofIntegers ++ Numbers.ofReals ++ Texts.looking ++ Texts.changing ++
    Collections.lookingAtLists ++ Collections.changingLists ++ Collections.ofRecords ++
    Collections.ofRanges

/-- The outcome of a call, if there is such a function on such arguments. -/
def call? (name : String) (args : List Value) : Option (Except Fault Outcome) :=
  every.findSome? fun (known, f) => if known == name then f args else none

/-- The report that there is no such function. -/
def missing (name : String) (args : List Value) : Fault :=
  .noOperation name (args.map Value.argumentType)

/-! ## Signs -/

/-- The value of a sign in front of an operand. -/
def signed (sign : String) (v : Value) : Except Fault Value :=
  match sign, v with
  | "!", .bool b => .ok (.bool !b)
  | "+", .int n => .ok (.int n)
  | "+", .real x => .ok (.real x)
  | "-", .int n => Numbers.negated n
  | "-", .real x => .ok (.real x.neg)
  | sign, v => .error (missing sign [v])

/-- The new value of a target by an operator: an item or a list is added to a
list, a text or a character to a text. -/
def updated (op : ValueOperator) (old v : Value) : Except Fault Value :=
  match op, old, v with
  | .add, .list items, .list others => .ok (.list (items ++ others))
  | .add, .list items, v => .ok (.list (items ++ [v]))
  | op, old, v => op.apply old v

/-! ## Properties -/

/-- The functions of one argument that can be read as a property. -/
def properties : List String :=
  ["len", "is_empty", "bytes", "chars", "is_zero", "is_odd", "is_even", "floor", "ceiling", "round",
    "int", "fraction", "is_nan", "is_finite", "is_infinite", "start", "end", "is_inclusive",
    "is_exclusive", "name", "is_anonymous"]

/-- The property of a value. A record has any; what is not there is a blank. -/
def property (v : Value) (name : String) : Except Fault Value :=
  match v with
  | .record names items => .ok (((names.zip items).lookup name).getD .blank)
  | v =>
    match if name ∈ properties then call? name [v] else none with
    | some outcome => outcome.map Outcome.value
    | none => .error (.noProperty name v.typeName)

def setProperty (v : Value) (name : String) (new : Value) : Except Fault Value :=
  match v with
  | .record names items => .ok (.ofEntries (Value.putEntry (names.zip items) (name, new)))
  | v => .error (.fixedProperty name v.typeName new.typeName)

/-! ## Entries -/

/-- How many bits an integer has. -/
def bitCount : Nat := 64

def bit (n : Int64) (place : Nat) : Bool := n.toInt / Nat.pow 2 place % 2 = 1

/-- The bits of an integer in a row, as an integer. -/
def bits (n : Int64) (start length : Nat) : Value :=
  .ofInt (n.toInt / Nat.pow 2 start % Nat.pow 2 length)

def setBit (n : Int64) (place : Nat) (b : Bool) : Int64 :=
  let power := Int64.ofInt (Nat.pow 2 place)
  if b = bit n place then n else if b then n + power else n - power

/-- Something at a place, or the fault that there is no such place. -/
def atPlace {α : Type} (what : Numbered) (size : Nat) (place : Int64) (f : Nat → α) :
    Except Fault α :=
  match place? size place with
  | some n => .ok (f n)
  | none => .error (.outOfBounds what size place)

def mismatch (found : Value) (wanted : Value) : Fault := .wrongType found.typeName wanted.typeName

def entry (v place : Value) : Except Fault Value :=
  match v, place with
  | .list items, .int n => atPlace .list items.length n fun n => items[n]?.getD .blank
  | .list _, place => .error (mismatch place (.int 0))
  | .record names items, .text name => .ok (((names.zip items).lookup name).getD .blank)
  | .record _ _, place => .error (mismatch place (.text ""))
  | .text s, .int n => atPlace .text s.length n fun n => s.toList[n]?.elim .blank .char
  | .text s, .range first last closed => .ok (chars (slice s.toList first last closed))
  | .text _, place => .error (mismatch place (.int 0))
  | .int n, .int place => atPlace .bits bitCount place fun place => .bool (bit n place)
  | .int n, .range first last closed =>
    let (start, length) :=
      part bitCount first (Int64.ofNat (rangeLength first last closed))
    .ok (bits n start length)
  | .int _, place => .error (mismatch place (.int 0))
  | v, place => .error (.noEntries (v.typeName ++ " [" ++ place.typeName ++ "]"))

def setEntry (v place new : Value) : Except Fault Value :=
  match v, place, new with
  | .list items, .int n, new => atPlace .list items.length n fun n => .list (items.set n new)
  | .record _ _, .text name, new => setProperty v name new
  | .text s, .int n, .char c => atPlace .text s.length n fun n => chars (s.toList.set n c)
  | .text _, .int _, new => .error (mismatch new (.char ' '))
  | .int m, .int n, .bool b => atPlace .bits bitCount n fun n => .int (setBit m n b)
  | .int _, .int _, new => .error (mismatch new (.bool true))
  | .list _, place, _ | .text _, place, _ | .int _, place, _ => .error (mismatch place (.int 0))
  | .record _ _, place, _ => .error (mismatch place (.text ""))
  | v, place, new =>
    .error (.noEntries (v.typeName ++ " [" ++ place.typeName ++ "] = " ++ new.typeName))

end Library

end SheetCipher.Script
