import SheetCipher.Double.Text
import SheetCipher.Sheet.Grid
import SheetCipher.Text.Quoted

/-!
# Value — what cells evaluate to

The formulas of a sheet come to texts, 64-bit integers, truth values and
blanks. A script knows more: characters, numbers with a fraction, ranges of
integers, lists, records and functions. The values of a sheet are kept by
address; those of other sheets by the sheet's name as well. An address without
a value reads as the empty text.
-/

namespace SheetCipher

/-- The value of a cell. -/
inductive Value where
  | text (s : String)
  | int (n : Int64)
  | bool (b : Bool)
  | blank
  | char (c : Char)
  | real (x : Double)
  /-- The integers from `first` on up to `last`, which belongs to a closed
  range. -/
  | range (first last : Int64) (closed : Bool)
  | list (items : List Value)
  /-- Values by name, the names in order. -/
  | record (names : List String) (items : List Value)
  /-- A function by name, with arguments that are given already and the places
  of variables that it shares. -/
  | function (name : String) (given : List Value) (shared : List Nat)
deriving Inhabited

namespace Value

def typeName : Value → String
  | text _ => "string"
  | int _ => "i64"
  | bool _ => "bool"
  | blank => "()"
  | char _ => "char"
  | real _ => "f64"
  | range _ _ false => "range"
  | range _ _ true => "range="
  | list _ => "array"
  | record _ _ => "map"
  | function _ _ _ => "Fn"

def argumentType : Value → String
  | text _ => "&str | ImmutableString | String"
  | v => v.typeName

/-- The value of an integer that may be too large for a word. -/
def ofInt (n : Int) : Value :=
  if Word.fits n then int (Int64.ofInt n) else real (Double.ofInt n)

def intText (n : Int64) : String := String.ofList (Decimal.ofInt n.toInt)

/-- A truth value as a script writes it. -/
def boolText (b : Bool) : String := if b then "true" else "false"

/-- A range as a script writes it. -/
def rangeText (first last : Int64) (closed : Bool) : String :=
  intText first ++ (if closed then "..=" else "..") ++ intText last

/-- A function as a script shows it. -/
def functionText (inside : String) : String := "Fn(" ++ inside ++ ")"

def entryText (name written : String) : String :=
  String.ofList (Quoted.spelled '"' name.toList) ++ ": " ++ written

mutual

def written : Value → String
  | text s => String.ofList (Quoted.spelled '"' s.toList)
  | int n => intText n
  | bool b => boolText b
  | blank => "()"
  | char c => String.ofList (Quoted.spelled '\'' [c])
  | real x => x.text .inner
  | range first last closed => rangeText first last closed
  | list items => "[" ++ ", ".intercalate (writtenAll items) ++ "]"
  | record names items =>
    "#\x7b" ++ ", ".intercalate (names.zipWith entryText (writtenAll items)) ++ "\x7d"
  | function name given _ =>
    functionText (", ".intercalate (String.ofList (Quoted.spelled '"' name.toList) ::
      writtenAll given))

/-- Several values as they are written inside another one. -/
def writtenAll : List Value → List String
  | [] => []
  | v :: vs => v.written :: writtenAll vs

end

def joined : Value → String
  | text s => s
  | char c => c.toString
  | blank => ""
  | real x => x.text .joined
  | function name _ _ => functionText name
  | v => v.written

/-- The value as a sheet shows it. -/
def shown : Value → String
  | text s => s
  | bool true => "TRUE"
  | bool false => "FALSE"
  | blank => ""
  | v => v.written

mutual

/-- Whether two values are equal. Numbers are equal in value, and a text of one
character is equal to the character. Functions are equal to nothing. -/
def same : Value → Value → Bool
  | text s, text t => s == t
  | int m, int n => m == n
  | bool a, bool b => a == b
  | blank, blank => true
  | char c, char d => c == d
  | char c, text s | text s, char c => s.toList == [c]
  | real x, real y => x.equal y
  | int n, real x | real x, int n => x.equal (Double.ofInt n.toInt)
  | range a b closed, range c d closed' => a == c && b == d && closed == closed'
  | list items, list items' => sameAll items items'
  | record names items, record names' items' => names == names' && sameAll items items'
  | _, _ => false

/-- Whether two rows of values are equal one by one. -/
def sameAll : List Value → List Value → Bool
  | [], [] => true
  | v :: vs, w :: ws => v.same w && sameAll vs ws
  | _, _ => false

end

/-- Puts an entry where its name belongs, in place of any of the same name. -/
def putEntry (entries : List (String × Value)) (entry : String × Value) :
    List (String × Value) :=
  match entries with
  | [] => [entry]
  | first :: rest =>
    match compare entry.1.toList first.1.toList with
    | .lt => entry :: first :: rest
    | .eq => entry :: rest
    | .gt => first :: putEntry rest entry

/-- The record of entries whose names are in order. -/
def ofEntries (entries : List (String × Value)) : Value :=
  record (entries.map Prod.fst) (entries.map Prod.snd)

def isText : Value → Bool
  | text _ => true
  | _ => false

def isBlank : Value → Bool
  | blank => true
  | _ => false

def isBool (b : Bool) : Value → Bool
  | bool c => b == c
  | _ => false

end Value

/-- The values of a sheet by address, in sheet order. -/
abbrev Values := Std.TreeMap CellRef Value

namespace Values

/-- The value at an address; the empty text if there is none. -/
def read (values : Values) (ref : CellRef) : Value := (values[ref]?).getD (.text "")

/-- The value at a column and a row that may be negative: no cell is there. -/
def readAt (values : Values) (col row : Int64) : Value :=
  if col < 0 ∨ row < 0 then .text ""
  else values.read ⟨col.toInt.toNat, row.toInt.toNat⟩

end Values

abbrev Sheets := List (String × Values)

namespace Sheets

def find? (sheets : Sheets) (name : String) : Option Values := sheets.lookup name

/-- Adds a sheet in place of any of the same name. -/
def insert (sheets : Sheets) (name : String) (values : Values) : Sheets :=
  (name, values) :: sheets.filter fun sheet => sheet.1 != name

end Sheets

end SheetCipher
