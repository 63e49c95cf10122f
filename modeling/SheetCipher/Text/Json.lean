import SheetCipher.Text.Decimal

/-!
# Json — structured values and their indented text

The values a spec is exchanged in. Integers are kept exactly; a number written
with a fraction or an exponent is kept apart, because it never stands for an
integer. The indented form puts one member or element on a line.
-/

namespace SheetCipher

/-- A JSON value. -/
inductive Json where
  | null
  | bool (b : Bool)
  | int (n : Int)
  /-- A number with a fraction or an exponent, as it was written. -/
  | real (text : String)
  | string (s : String)
  | array (items : List Json)
  | object (members : List (String × Json))
deriving Inhabited

namespace Json

/-- The value of a member; the last one if the name occurs again. -/
def member? (members : List (String × Json)) (name : String) : Option Json :=
  (members.reverse.find? fun m => m.1 == name).map (·.2)

/-! ## Text -/

def hexDigit (d : Nat) : Char := if d < 10 then Char.ofNat (48 + d) else Char.ofNat (87 + d)

/-- A character inside quotes: quotes, backslashes and control characters are
escaped. -/
def escaped (c : Char) : List Char :=
  if c = '"' then ['\\', '"']
  else if c = '\\' then ['\\', '\\']
  else if c = '\n' then ['\\', 'n']
  else if c = '\r' then ['\\', 'r']
  else if c = '\t' then ['\\', 't']
  else if c.toNat = 8 then ['\\', 'b']
  else if c.toNat = 12 then ['\\', 'f']
  else if c.toNat < 32 then ['\\', 'u', '0', '0', hexDigit (c.toNat / 16), hexDigit (c.toNat % 16)]
  else [c]

def quoted (s : String) : String :=
  String.ofList ('"' :: s.toList.flatMap escaped ++ ['"'])

/-- A new line, indented by `depth` steps of two blanks. -/
def newLine (depth : Nat) : String :=
  String.ofList ('\n' :: List.replicate (2 * depth) ' ')

mutual

/-- The indented text of a value that stands at a depth. -/
def indentedAt (depth : Nat) : Json → String
  | null => "null"
  | bool true => "true"
  | bool false => "false"
  | int n => String.ofList (Decimal.ofInt n)
  | real text => text
  | string s => quoted s
  | array [] => "[]"
  | array (item :: rest) =>
    "[" ++ newLine (depth + 1) ++ indentedAt (depth + 1) item ++
      indentedItems (depth + 1) rest ++ newLine depth ++ "]"
  | object [] => "\x7b\x7d"
  | object ((name, value) :: rest) =>
    "\x7b" ++ newLine (depth + 1) ++ quoted name ++ ": " ++ indentedAt (depth + 1) value ++
      indentedMembers (depth + 1) rest ++ newLine depth ++ "\x7d"

/-- The later elements of an array, each behind a comma. -/
def indentedItems (depth : Nat) : List Json → String
  | [] => ""
  | item :: rest =>
    "," ++ newLine depth ++ indentedAt depth item ++ indentedItems depth rest

/-- The later members of an object, each behind a comma. -/
def indentedMembers (depth : Nat) : List (String × Json) → String
  | [] => ""
  | (name, value) :: rest =>
    "," ++ newLine depth ++ quoted name ++ ": " ++ indentedAt depth value ++
      indentedMembers depth rest

end

def indented (json : Json) : String := json.indentedAt 0

end Json

end SheetCipher
