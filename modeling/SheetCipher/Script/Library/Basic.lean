import SheetCipher.Eval.Operator

/-!
# Basic — functions of the library

A function of the library takes any values; for values of types that it is not
made for it has no outcome. Some functions change their first argument.
-/

namespace SheetCipher.Script

/-- What a function leaves: its value, and its first argument if it has changed
it. -/
structure Outcome where
  value : Value
  changed? : Option Value

/-- A function of the library; none if it is not made for the types of its
arguments. -/
abbrev Native := List Value → Option (Except Fault Outcome)

/-- Functions by name. -/
abbrev Natives := List (String × Native)

namespace Native

def gives (v : Value) : Option (Except Fault Outcome) := some (.ok ⟨v, none⟩)

/-- A new first argument as the outcome, and a value besides. -/
def turns (v changed : Value) : Option (Except Fault Outcome) := some (.ok ⟨v, some changed⟩)

/-- A new first argument as the outcome. -/
def becomes (changed : Value) : Option (Except Fault Outcome) := turns .blank changed

def fails (fault : Fault) : Option (Except Fault Outcome) := some (.error fault)

/-- The outcome of a computation that may fail. -/
def yields (result : Except Fault Value) : Option (Except Fault Outcome) :=
  some (result.map fun v => ⟨v, none⟩)

/-- The first of two functions that is made for the arguments. -/
def orElse (f g : Native) : Native := fun args => (f args).orElse fun _ => g args

def onText (f : List Char → Value) : Native
  | [.text s] => gives (f s.toList)
  | _ => none

/-- A function of one number with a fraction. -/
def onReal (f : Double → Value) : Native
  | [.real x] => gives (f x)
  | _ => none

end Native

/-- A number of things as a value. -/
def count (n : Nat) : Value := .int (Int64.ofNat n)

def chars (cs : List Char) : Value := .text (String.ofList cs)

/-- The place that an index stands for among `size` things; a negative one
counts from the end. -/
def place? (size : Nat) (index : Int64) : Option Nat :=
  let n := index.toInt
  if 0 ≤ n then (if n < size then some n.toNat else none)
  else if -n ≤ size then some (size - n.natAbs) else none

/-- The place that an index stands for, moved to the nearest end if it is out
of bounds. -/
def nearPlace (size : Nat) (index : Int64) : Nat :=
  let n := index.toInt
  if 0 ≤ n then min n.toNat size else size - min n.natAbs size

/-- The place and the length of a part of `size` things. -/
def part (size : Nat) (start length : Int64) : Nat × Nat :=
  let first := nearPlace size start
  (first, min length.toInt.toNat (size - first))

def rangeLength (first last : Int64) (closed : Bool) : Nat :=
  (last.toInt - first.toInt + (if closed then 1 else 0)).toNat

/-- The part of things that a range stands for. -/
def slice {α : Type} (things : List α) (first last : Int64) (closed : Bool) : List α :=
  let (start, length) :=
    part things.length first (Int64.ofNat (rangeLength first last closed))
  (things.drop start).take length

end SheetCipher.Script
