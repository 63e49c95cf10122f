import SheetCipher.Script.Library.Basic

/-!
# Collections — functions of the library on lists, records and ranges

Places in a list are counted from 0 on, or from the end if they are negative.
What is not there reads as a blank.
-/

namespace SheetCipher.Script.Collections

open Native

/-- A list with a value inserted at a place, at the nearest end if it is out of
bounds. -/
def insertAt (items : List Value) (index : Int64) (v : Value) : List Value :=
  items.insertIdx (nearPlace items.length index) v

/-- Where a value stands first in a list at or behind a place, or -1. -/
def index (items : List Value) (v : Value) (start : Nat) : Value :=
  match (items.drop start).findIdx? fun item => v.same item with
  | some n => count (start + n)
  | none => .int (-1)

/-- Entries whose names differ from a name. -/
def withoutName (name : String) (entries : List (String × Value)) : List (String × Value) :=
  entries.filter fun entry => entry.1 != name

/-- The values of a range from its start on by steps. -/
def stepped (first last step : Int) : List Value :=
  let size := if step = 0 then 0 else ((last - first) + (step - step.sign)) / step
  (List.range size.toNat).map fun (n : Nat) => .ofInt (first + step * (n : Int))

def notBehind (a b : Value) : Bool :=
  (ValueOperator.apply .le a b).toOption.any (Value.isBool true)

/-- Whether values of a type can be sorted. -/
def isSortable : Value → Bool
  | .int _ | .real _ | .text _ | .char _ | .bool _ => true
  | _ => false

/-- Values of one type in order; nothing of values of several types. -/
def sorted? (items : List Value) : Option (List Value) :=
  match items with
  | [] => some []
  | first :: rest =>
    if isSortable first && rest.all fun v => v.typeName == first.typeName then
      some (items.mergeSort notBehind)
    else none

/-- Values without those equal to the one before. -/
def withoutRepeats : List Value → List Value
  | [] => []
  | v :: vs =>
    let rest := withoutRepeats vs
    v :: if rest.head?.any v.same then rest.tail else rest

/-- The functions that only look at a list. -/
def lookingAtLists : Natives :=
  [("len", fun
      | [.list items] => gives (count items.length)
      | [.record names _] => gives (count names.length)
      | _ => none),
    ("is_empty", fun
      | [.list items] => gives (.bool items.isEmpty)
      | [.record names _] => gives (.bool names.isEmpty)
      | [.range first last closed] => gives (.bool (rangeLength first last closed = 0))
      | _ => none),
    ("contains", fun
      | [.list items, v] => gives (.bool (items.any fun item => v.same item))
      | [.record names _, .text name] => gives (.bool (name ∈ names))
      | [.range first last closed, .int n] =>
        gives (.bool (first ≤ n ∧ (n < last ∨ (closed ∧ n = last))))
      | _ => none),
    ("index_of", fun
      | [.list _, .function _ _ _] => none
      | [.list items, v] => gives (index items v 0)
      | [.list items, v, .int start] => gives (index items v (nearPlace items.length start))
      | _ => none),
    ("get", fun
      | [.list items, .int place] =>
        gives (((place? items.length place).bind fun n => items[n]?).getD .blank)
      | [.record names items, .text name] => gives (((names.zip items).lookup name).getD .blank)
      | _ => none),
    ("extract", fun
      | [.list items, .int start] => gives (.list (items.drop (nearPlace items.length start)))
      | [.list items, .int start, .int length] =>
        let (first, length) := part items.length start length
        gives (.list ((items.drop first).take length))
      | [.list items, .range first last closed] => gives (.list (slice items first last closed))
      | _ => none)]

def changingLists : Natives :=
  [("push", fun
      | [.list items, v] => becomes (.list (items ++ [v]))
      | _ => none),
    ("append", fun
      | [.list items, .list others] => becomes (.list (items ++ others))
      | _ => none),
    ("insert", fun
      | [.list items, .int place, v] => becomes (.list (insertAt items place v))
      | _ => none),
    ("pop", fun
      | [.list items] => turns (items.getLast?.getD .blank) (.list items.dropLast)
      | _ => none),
    ("shift", fun
      | [.list items] => turns (items.head?.getD .blank) (.list items.tail)
      | _ => none),
    ("remove", fun
      | [.list items, .int place] =>
        match place? items.length place with
        | some n => turns (items[n]?.getD .blank) (.list (items.eraseIdx n))
        | none => gives .blank
      | [.record names items, .text name] =>
        let entries := names.zip items
        turns ((entries.lookup name).getD .blank) (.ofEntries (withoutName name entries))
      | _ => none),
    ("set", fun
      | [.list items, .int place, v] =>
        match place? items.length place with
        | some n => becomes (.list (items.set n v))
        | none => gives .blank
      | [.record names items, .text name, v] =>
        becomes (.ofEntries (Value.putEntry (names.zip items) (name, v)))
      | _ => none),
    ("clear", fun
      | [.list _] => becomes (.list [])
      | [.record _ _] => becomes (.record [] [])
      | _ => none),
    ("reverse", fun
      | [.list items] => becomes (.list items.reverse)
      | _ => none),
    ("sort", fun
      | [.list items] => (sorted? items).bind fun items => becomes (.list items)
      | _ => none),
    ("dedup", fun
      | [.list items] => becomes (.list (withoutRepeats items))
      | _ => none),
    ("splice", fun
      | [.list items, .int start, .int length, .list others] =>
        let (first, length) := part items.length start length
        becomes (.list (items.take first ++ others ++ items.drop (first + length)))
      | [.list items, .range start last closed, .list others] =>
        let (first, length) :=
          part items.length start (Int64.ofNat (rangeLength start last closed))
        becomes (.list (items.take first ++ others ++ items.drop (first + length)))
      | _ => none),
    ("truncate", fun
      | [.list items, .int length] => becomes (.list (items.take length.toInt.toNat))
      | _ => none),
    ("chop", fun
      | [.list items, .int length] =>
        becomes (.list (items.drop (items.length - length.toInt.toNat)))
      | _ => none),
    ("split", fun
      | [.list items, .int start] =>
        let n := nearPlace items.length start
        turns (.list (items.drop n)) (.list (items.take n))
      | _ => none),
    ("pad", fun
      | [.list items, .int length, v] =>
        becomes (.list (items ++ List.replicate (length.toInt.toNat - items.length) v))
      | _ => none)]

def ofRecords : Natives :=
  [("keys", fun
      | [.record names _] => gives (.list (names.map .text))
      | _ => none),
    ("values", fun
      | [.record _ items] => gives (.list items)
      | _ => none),
    ("mixin", fun
      | [.record names items, .record names' items'] =>
        becomes (.ofEntries ((names'.zip items').foldl Value.putEntry (names.zip items)))
      | _ => none),
    ("fill_with", fun
      | [.record names items, .record names' items'] =>
        becomes (.ofEntries ((names.zip items).foldl Value.putEntry (names'.zip items')))
      | _ => none)]

/-- The functions on ranges and on the bits of integers. -/
def ofRanges : Natives :=
  [("range", fun
      | [.int first, .int last] => gives (.range first last false)
      | [.int first, .int last, .int step] =>
        gives (.list (stepped first.toInt last.toInt step.toInt))
      | _ => none),
    ("start", fun
      | [.range first _ _] => gives (.int first)
      | _ => none),
    ("end", fun
      | [.range _ last _] => gives (.int last)
      | _ => none),
    ("is_inclusive", fun
      | [.range _ _ closed] => gives (.bool closed)
      | _ => none),
    ("is_exclusive", fun
      | [.range _ _ closed] => gives (.bool !closed)
      | _ => none)]

end SheetCipher.Script.Collections
