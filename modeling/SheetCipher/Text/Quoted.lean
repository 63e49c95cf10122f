import SheetCipher.Text.Digit

/-!
# Quoted — texts in quotes

Two ways to put a text between quotes so that a quote inside does not end it:
write it twice, or put a backslash in front of it and of every backslash. A
third one also spells out what is not visible. Reading takes the first two, and
more: a backslash may stand before the letter of a
control character, before the digits of a code point and at the end of a line
that goes on. The line behind may be indented up to the quote that the text
started with, and what blanks do so are no part of the text.
-/

namespace SheetCipher.Quoted

/-! ## Writing -/

/-- A character inside quotes, a quote twice. -/
def doubledChar (c : Char) : List Char := if c = '"' then ['"', '"'] else [c]

/-- A text in quotes, each quote inside written twice. -/
def doubled (s : List Char) : List Char := '"' :: s.flatMap doubledChar ++ ['"']

/-- A character inside quotes, a quote or a backslash behind a backslash. -/
def escapedChar (c : Char) : List Char := if c = '\\' ∨ c = '"' then ['\\', c] else [c]

/-- A text in quotes, each quote and each backslash inside behind a
backslash. -/
def escaped (s : List Char) : List Char := '"' :: s.flatMap escapedChar ++ ['"']

/-- A character inside these quotes, spelled out behind a backslash if it is
the quote, a backslash or no visible character. -/
def spelledChar (quote c : Char) : List Char :=
  if c = quote ∨ c = '\\' then ['\\', c]
  else if c = '\n' then ['\\', 'n']
  else if c = '\r' then ['\\', 'r']
  else if c = '\t' then ['\\', 't']
  else if c.toNat = 0 then ['\\', '0']
  else if c.toNat < 32 ∨ (127 ≤ c.toNat ∧ c.toNat < 160) then
    '\\' :: 'u' :: '\x7b' :: Nat.toDigits 16 c.toNat ++ ['\x7d']
  else [c]

/-- A text in these quotes, with what is not visible spelled out. -/
def spelled (quote : Char) (s : List Char) : List Char :=
  quote :: s.flatMap (spelledChar quote) ++ [quote]

/-! ## Reading -/

/-- Why characters in quotes are no text. -/
inductive Flaw where
  /-- No quote ends the text on the line on which it should. -/
  | unclosed
  /-- A backslash and what follows stand for nothing. -/
  | badEscape (sequence : List Char)
deriving DecidableEq, Repr

/-- A place in a text of several lines: what is still to be read, and the
column of the last character that was, counted from 1 on each line. -/
structure Cursor where
  rest : List Char
  column : Nat
deriving DecidableEq, Repr

/-- The largest column; all columns behind it are counted as this one. -/
def lastColumn : Nat := 65535

/-- The column behind `n` others. -/
def columnAfter (column n : Nat) : Nat := min (column + n) lastColumn

/-- How the reading of a text goes. -/
inductive Place where
  /-- Between two characters. -/
  | between
  /-- Behind a backslash. -/
  | escape
  /-- Behind the start of a code point, with digits to come. -/
  | codePoint (seen : List Char) (missing : Nat)
deriving DecidableEq, Repr

/-- Whether a character is white space. -/
def isSpace (c : Char) : Bool :=
  let n := c.toNat
  (9 ≤ n && n ≤ 13) || (0x2000 ≤ n && n ≤ 0x200a) ||
    n ∈ [0x20, 0x85, 0xa0, 0x1680, 0x2028, 0x2029, 0x202f, 0x205f, 0x3000]

/-- The character that a letter, or the quote itself, stands for behind a
backslash. -/
def escape? (quote c : Char) : Option Char :=
  if c = 'n' then some '\n'
  else if c = 'r' then some '\r'
  else if c = 't' then some '\t'
  else if c = '\\' ∨ c = quote then some c
  else none

/-- How many digits of a code point follow a letter behind a backslash. -/
def codePointDigits? : Char → Option Nat
  | 'x' => some 2
  | 'u' => some 4
  | 'U' => some 8
  | _ => none

/-- The character of a code point, written as a backslash, a letter and
hexadecimal digits. -/
def codePoint? (sequence : List Char) : Option Char := do
  let n := Digit.number 16 (← (sequence.drop 2).mapM (Digit.value? 16))
  if n.isValidChar then some (Char.ofNat n) else none

/-- A text with one more character in front. -/
def withFirst (c : Char) (found : List Char × Cursor) : List Char × Cursor :=
  (c :: found.1, found.2)

/-- Reads a text up to the quote that ends it; `start` is the column of the
quote that it started with, and `indent` says that only blanks have been seen
on a line that continues another one. -/
def readFrom (quote : Char) (start : Nat) :
    Place → (indent : Bool) → (column : Nat) → List Char → Except Flaw (List Char × Cursor)
  | .codePoint seen _, _, _, [] => .error (.badEscape seen)
  | _, _, _, [] => .error .unclosed
  | .codePoint seen missing, indent, column, c :: rest =>
    let sequence := seen ++ [c]
    if (Digit.value? 16 c).isNone then .error (.badEscape sequence)
    else if 1 < missing then
      readFrom quote start (.codePoint sequence (missing - 1)) indent (columnAfter column 1) rest
    else
      match codePoint? sequence with
      | some c => withFirst c <$> readFrom quote start .between indent (columnAfter column 1) rest
      | none => .error (.badEscape sequence)
  | .escape, indent, column, c :: rest =>
    if c = '\r' ∧ rest.head? = some '\n' then
      readFrom quote start .escape indent (columnAfter column 1) rest
    else if c = '\n' then
      if quote = '"' then readFrom quote start .between true 0 rest else .error .unclosed
    else
      match escape? quote c, codePointDigits? c with
      | some c, _ =>
        withFirst c <$> readFrom quote start .between indent (columnAfter column 1) rest
      | none, some missing =>
        readFrom quote start (.codePoint ['\\', c] missing) indent (columnAfter column 1) rest
      | none, none => .error (.badEscape ['\\', c])
  | .between, indent, column, c :: rest =>
    if c = quote then
      match rest with
      | [] => .ok ([], ⟨[], columnAfter column 1⟩)
      | next :: later =>
        if next = quote then
          withFirst quote <$> readFrom quote start .between false (columnAfter column 2) later
        else .ok ([], ⟨rest, columnAfter column 1⟩)
    else if c = '\n' then .error .unclosed
    else if c = '\r' ∧ rest.head? = some '\n' then .error .unclosed
    else if c = '\\' then readFrom quote start .escape indent (columnAfter column 1) rest
    else if indent && isSpace c && decide (columnAfter column 1 ≤ start) then
      readFrom quote start .between true (columnAfter column 1) rest
    else withFirst c <$> readFrom quote start .between false (columnAfter column 1) rest

/-- Reads a text behind the quote that starts it, and says where it ends. -/
def read (quote : Char) (cursor : Cursor) : Except Flaw (List Char × Cursor) :=
  readFrom quote cursor.column .between false cursor.column cursor.rest

end SheetCipher.Quoted
