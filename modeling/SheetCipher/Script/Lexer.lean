import SheetCipher.Script.Token
import SheetCipher.Text.Quoted

/-!
# Lexer — scripts as rows of tokens

Blanks and comments stand between tokens and nowhere else. A minus sign in
front of a digit is part of the number unless an operand stands before it. A
text between backquotes may hold blocks; behind the brace that ends one it goes
on. Characters that make up no token stand as a flaw at the end of the row;
nothing behind them counts.
-/

namespace SheetCipher.Script

open Quoted (Cursor columnAfter)

/-- The cursor behind `n` characters of a line. -/
def behind (cursor : Cursor) (n : Nat) : Cursor :=
  ⟨cursor.rest.drop n, columnAfter cursor.column n⟩

/-! ## Blanks and comments -/

/-- Whether a character separates tokens and is no part of one. -/
def isSeparator (c : Char) : Bool := c ∈ [' ', '\t', '\n', '\r', '\x0c']

/-- What is behind a comment that ends with its line. -/
def afterLine : (column : Nat) → List Char → Cursor
  | column, [] => ⟨[], column⟩
  | column, c :: rest =>
    if c = '\n' then ⟨rest, 0⟩
    else if c = '\r' then ⟨if rest.head? = some '\n' then rest.tail else rest, 0⟩
    else afterLine (columnAfter column 1) rest

/-- What is behind a comment in which `depth + 1` others are open. -/
def afterComment : (depth column : Nat) → List Char → Cursor
  | _, column, [] => ⟨[], column⟩
  | depth, column, '/' :: '*' :: rest => afterComment (depth + 1) (columnAfter column 2) rest
  | 0, column, '*' :: '/' :: rest => ⟨rest, columnAfter column 2⟩
  | depth + 1, column, '*' :: '/' :: rest => afterComment depth (columnAfter column 2) rest
  | depth, column, c :: rest =>
    afterComment depth (if c = '\n' then 0 else columnAfter column 1) rest

/-! ## Numbers -/

/-- Whether a character continues a number. -/
def isNumeric (c : Char) : Bool := Decimal.isDigit c || c = '_'

/-- Whether a character continues a name. -/
def isNameChar (c : Char) : Bool := CellRef.isLetter c || Decimal.isDigit c || c = '_'

/-- Characters without separators of digits. -/
def digitsOf (cs : List Char) : List Char := cs.filter (· ≠ '_')

/-- The base that a letter behind a zero stands for. -/
def base? : Char → Option Nat
  | 'x' | 'X' => some 16
  | 'o' | 'O' => some 8
  | 'b' | 'B' => some 2
  | _ => none

/-- Whether a character continues a number of the base: a digit of the base
sixteen, or for a smaller base any decimal digit. -/
def isBased (base : Nat) (c : Char) : Bool :=
  c = '_' || (Digit.value? (max base 10) c).isSome

/-- The number of digits in a base: a word whose bits are given. -/
def based (base : Nat) (negative : Bool) (digits : List Char) : Token :=
  match digits.mapM (Digit.value? base) with
  | some values =>
    let n := Digit.number base values
    if digits.isEmpty || Word.count ≤ n then .flaw (.badNumber (String.ofList digits))
    else
      let word := Int64.ofInt n
      .constant (.int (if negative then -word else word))
  | none => .flaw (.badNumber (String.ofList digits))

/-- How many characters of a fraction follow the whole part of a number. -/
def fractionLength : List Char → Nat
  | '.' :: next :: rest =>
    if Decimal.isDigit next then 2 + (rest.takeWhile isNumeric).length
    else if isNameChar next || next = '.' then 0
    else 1
  | _ => 0

/-- How many characters of a power of ten follow the digits of a number. -/
def powerLength : List Char → Nat
  | mark :: next :: rest =>
    if mark ≠ 'e' ∧ mark ≠ 'E' then 0
    else if Decimal.isDigit next || next = '+' || next = '-' then
      2 + (rest.takeWhile isNumeric).length
    else 0
  | _ => 0

/-- The exponent that the characters of a power of ten stand for, if any. -/
def exponent? (power : List Char) : Option Int :=
  match power with
  | [] => some 0
  | _ :: rest =>
    let digits := rest.filter Decimal.isDigit
    let n : Int := Decimal.value digits
    if digits.isEmpty then none else some (if rest.head? = some '-' then -n else n)

/-- The number of a whole part, a fraction and a power of ten, as they are
written. Without the last two it is an integer, if it is a word. -/
def decimal (negative : Bool) (whole fraction power : List Char) : Token :=
  let places := fraction.drop 1
  let digits := Decimal.value (whole ++ places)
  match exponent? power with
  | none =>
    let point := if fraction.isEmpty then [] else '.' :: (if places.isEmpty then ['0'] else places)
    let written := whole ++ point ++ 'e' :: power.drop 1
    .flaw (.badNumber (String.ofList (if negative then '-' :: written else written)))
  | some exponent =>
    if fraction.isEmpty && power.isEmpty && Word.fits (if negative then -digits else digits) then
      .constant (.ofInt (if negative then -digits else digits))
    else .constant (.real ((Double.ofDecimal digits (exponent - places.length)).withSign negative))

/-- The number at the cursor; `negative` says that a minus sign stands before
its digits. -/
def number (negative : Bool) (cursor : Cursor) : Token × Cursor :=
  let start := behind cursor (if negative then 1 else 0)
  let whole := start.rest.takeWhile isNumeric
  let next := behind start whole.length
  let base := if digitsOf whole = ['0'] then next.rest.head?.bind base? else none
  match base with
  | some base =>
    let digits := next.rest.tail.takeWhile (isBased base)
    (based base negative (digitsOf digits), behind next (digits.length + 1))
  | none =>
    let fraction := next.rest.take (fractionLength next.rest)
    let next := behind next fraction.length
    let power := next.rest.take (powerLength next.rest)
    (decimal negative (digitsOf whole) (digitsOf fraction) (digitsOf power),
      behind next power.length)

/-! ## Names -/

def word (cursor : Cursor) : Token × Cursor :=
  let chars := cursor.rest.takeWhile isNameChar
  let text := String.ofList chars
  let token :=
    if text = "true" then .constant (.bool true)
    else if text = "false" then .constant (.bool false)
    else if text ∈ keywords then .keyword text
    else if text = subjectWord ∨ text ∈ reservedWords ∨ text ∈ callableWords then .reserved text
    else if (chars.dropWhile (· = '_')).head?.any CellRef.isLetter then .name text
    else .flaw (.badName text)
  (token, behind cursor chars.length)

/-! ## Texts -/

/-- What is wrong with a text that is not ended or not well written. -/
def ofFlaw : Quoted.Flaw → SyntaxFault
  | .unclosed => .openText
  | .badEscape sequence => .badEscape sequence

/-- The text at the cursor, which stands behind the quote that starts it. -/
def text (cursor : Cursor) : Token × Cursor :=
  match Quoted.read '"' cursor with
  | .ok (chars, after) => (.constant (.text (String.ofList chars)), after)
  | .error flaw => (.flaw (ofFlaw flaw), cursor)

/-- The single character at the cursor, which stands behind a single quote. -/
def character (cursor : Cursor) : Token × Cursor :=
  if cursor.rest.head? = some '\'' then (.flaw (.badCharacter ""), cursor)
  else
    match Quoted.read '\'' cursor with
    | .ok ([c], after) => (.constant (.char c), after)
    | .ok (chars, _) => (.flaw (.badCharacter (String.ofList chars)), cursor)
    | .error flaw => (.flaw (ofFlaw flaw), cursor)

/-- A piece of a text between backquotes, and whether a block follows it. -/
structure Piece where
  chars : List Char
  isOpen : Bool
  after : Cursor

/-- A piece with one more character in front. -/
def Piece.withFirst (c : Char) (piece : Piece) : Piece := { piece with chars := c :: piece.chars }

/-- Reads a text up to the backquote that ends it or the block that it holds; it
may have several lines. A backquote inside is written twice. -/
def pieceFrom : (column : Nat) → List Char → Option Piece
  | _, [] => none
  | column, c :: rest =>
    if c = '\x60' then
      match rest with
      | [] => some ⟨[], false, ⟨[], columnAfter column 1⟩⟩
      | next :: later =>
        if next = '\x60' then Piece.withFirst c <$> pieceFrom (columnAfter column 2) later
        else some ⟨[], false, ⟨rest, columnAfter column 1⟩⟩
    else if c = '$' ∧ rest.head? = some '\x7b' then
      some ⟨[], true, ⟨rest, columnAfter column 1⟩⟩
    else if c = '\r' ∧ rest.head? = some '\n' then pieceFrom (columnAfter column 1) rest
    else Piece.withFirst c <$> pieceFrom (if c = '\n' then 0 else columnAfter column 1) rest

/-- The piece of a text at the cursor, which stands behind the backquote or the
brace that it starts with. -/
def piece (cursor : Cursor) : Token × Cursor :=
  match pieceFrom cursor.column cursor.rest with
  | some ⟨chars, isOpen, after⟩ =>
    let text := String.ofList chars
    (if isOpen then .piece text else .constant (.text text), after)
  | none => (.flaw .openText, cursor)

def pastLineEnd (cursor : Cursor) : Cursor :=
  match cursor.rest with
  | '\r' :: '\n' :: rest | '\r' :: rest | '\n' :: rest => ⟨rest, 0⟩
  | _ => cursor

/-! ## Signs -/

/-- The longest of several texts that characters begin with. -/
def longest? (texts : List String) (cs : List Char) : Option String :=
  texts.find? fun text => text.toList.isPrefixOf cs

def sign (cursor : Cursor) : Token × Cursor :=
  match foreignSigns.find? fun (text, _) => text.toList.isPrefixOf cursor.rest with
  | some (_, advice) => (.flaw (.foreign advice), cursor)
  | none =>
    let plain := (longest? signs cursor.rest).getD ""
    let kept := (longest? reservedSigns cursor.rest).getD ""
    if plain.length < kept.length then (.reserved kept, behind cursor kept.length)
    else if 0 < plain.length then (.sign plain, behind cursor plain.length)
    else (.flaw (.unexpected (String.ofList (cursor.rest.take 1))), cursor)

/-! ## Rows of tokens -/

/-- Reads what is at a cursor: a token or none, and the cursor behind it. -/
def step (afterOperand : Bool) (cursor : Cursor) : Option Token × Cursor :=
  let found (token : Token × Cursor) : Option Token × Cursor := (some token.1, token.2)
  match cursor.rest with
  | [] => (none, cursor)
  | '\n' :: rest => (none, ⟨rest, 0⟩)
  | '(' :: ')' :: _ => (some (.constant .blank), behind cursor 2)
  | '/' :: '/' :: rest => (none, afterLine (columnAfter cursor.column 2) rest)
  | '/' :: '*' :: rest => (none, afterComment 0 (columnAfter cursor.column 2) rest)
  | c :: rest =>
    if c = '"' then found (text (behind cursor 1))
    else if c = '\'' then found (character (behind cursor 1))
    else if c = '\x60' then found (piece (pastLineEnd (behind cursor 1)))
    else if Decimal.isDigit c then found (number false cursor)
    else if c = '-' ∧ rest.head?.any Decimal.isDigit ∧ !afterOperand then
      found (number true cursor)
    else if isNameChar c then found (word cursor)
    else if isSeparator c then (none, behind cursor 1)
    else if "!in".toList.isPrefixOf cursor.rest && !(rest.drop 2).head?.any isNameChar then
      (some (.sign "!in"), behind cursor 3)
    else found (sign cursor)

/-- How many braces are open in each block of a text that is being read, after
one more token. -/
def bracesAfter (token : Token) (braces : List Nat) : List Nat :=
  match token, braces with
  | .piece _, braces => 0 :: braces
  | token, n :: outer =>
    if token.isSign "\x7b" || token.isSign "#\x7b" then (n + 1) :: outer
    else if token.isSign "\x7d" then (n - 1) :: outer
    else n :: outer
  | _, [] => []

/-- The tokens at a cursor. The steps are a bound on the characters that are
left; `braces` counts the braces that are open in the blocks of texts. -/
def tokensFrom : (steps : Nat) → (afterOperand : Bool) → (braces : List Nat) → Cursor → List Token
  | 0, _, _, _ => []
  | steps + 1, afterOperand, braces, cursor =>
    if cursor.rest.isEmpty then []
    else
      match step afterOperand cursor with
      | (none, after) => tokensFrom steps afterOperand braces after
      | (some (.flaw fault), _) => [.flaw fault]
      | (some token, after) =>
        match bracesAfter token braces with
        | 0 :: outer =>
          if token.isSign "\x7d" then
            match piece after with
            | (.flaw fault, _) => [token, .flaw fault]
            | (next, after) =>
              token :: next :: tokensFrom steps true (bracesAfter next outer) after
          else token :: tokensFrom steps token.endsOperand (0 :: outer) after
        | braces => token :: tokensFrom steps token.endsOperand braces after

def tokens (script : List Char) : List Token := tokensFrom script.length false [] ⟨script, 0⟩

end SheetCipher.Script
