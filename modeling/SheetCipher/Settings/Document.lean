import SheetCipher.Text.Digit
import SheetCipher.Word

/-!
# Document — the text of a settings file

One setting per line, `key = integer`, both settings optional and in any order.
Lines may be blank, be indented and end with a comment. A key stands bare or in
quotes; an integer is decimal, hexadecimal, octal or binary, with `_` between
digits if wanted, and lies within 64 bits. Everything else is refused: another
key, a key that occurs again, another kind of value, a character that has no
place in a line.
-/

namespace SheetCipher

/-- The settings that a file gives. -/
structure SettingsDocument where
  maxLen : Option Nat := none
  idLength : Option Nat := none
deriving DecidableEq, Repr

namespace SettingsDocument

/-! ## Integers -/

/-- The digits of a number, each `_` between two of them left out. -/
def digits? (base : Nat) : List Char → Option (List Nat)
  | [] => none
  | [c] => do return [← Digit.value? base c]
  | c :: '_' :: rest => do return (← Digit.value? base c) :: (← digits? base rest)
  | c :: rest => do return (← Digit.value? base c) :: (← digits? base rest)

def based? (base : Nat) (cs : List Char) : Option Nat := (digits? base cs).map (Digit.number base)

/-- A decimal number, without leading zeros. -/
def decimal? (cs : List Char) : Option Nat :=
  if cs.head? = some '0' ∧ cs.length ≠ 1 then none else based? 10 cs

/-- An integer that is not negative and lies within 64 bits. -/
def natural? (cs : List Char) : Option Nat := do
  let n ← match cs with
    | '0' :: 'x' :: rest => based? 16 rest
    | '0' :: 'o' :: rest => based? 8 rest
    | '0' :: 'b' :: rest => based? 2 rest
    | '+' :: rest => decimal? rest
    | '-' :: rest => (decimal? rest).filter (· == 0)
    | cs => decimal? cs
  if Word.fits n then some n else none

/-! ## Keys -/

/-- Whether a character may stand in a bare key: an ASCII letter or digit, `-`
or `_`. -/
def isBare (c : Char) : Bool := c.isAlphanum || c = '-' || c = '_'

/-- The character of a code point in hexadecimal digits. -/
def codePoint? (cs : List Char) : Option Char := do
  return Char.ofNat (Digit.number 16 (← cs.mapM (Digit.value? 16)))

/-- A key in double quotes, behind the opening quote, and what follows the
closing one. Of the escapes only those of code points can spell a key. -/
def quotedKey? : List Char → Option (List Char × List Char)
  | [] => none
  | '"' :: rest => some ([], rest)
  | '\\' :: 'u' :: a :: b :: c :: d :: rest => do
    let (key, rest) ← quotedKey? rest
    return ((← codePoint? [a, b, c, d]) :: key, rest)
  | '\\' :: 'U' :: a :: b :: c :: d :: e :: f :: g :: h :: rest => do
    let (key, rest) ← quotedKey? rest
    return ((← codePoint? [a, b, c, d, e, f, g, h]) :: key, rest)
  | '\\' :: _ => none
  | c :: rest => do
    let (key, rest) ← quotedKey? rest
    return (c :: key, rest)

def key? : List Char → Option (List Char × List Char)
  | '"' :: rest => quotedKey? rest
  | '\'' :: rest =>
    match rest.dropWhile (· ≠ '\'') with
    | _ :: after => some (rest.takeWhile (· ≠ '\''), after)
    | [] => none
  | cs => some (cs.takeWhile isBare, cs.dropWhile isBare)

/-! ## Lines -/

def isBlank (c : Char) : Bool := c = ' ' || c = '\t'

/-- Whether a character may stand in a comment: no control character but a
tab. -/
def isPrintable (c : Char) : Bool := c = '\t' || (32 ≤ c.toNat && c.toNat ≠ 127)

/-- Whether a line ends here: there are blanks at most, and perhaps a
comment. -/
def isLineEnd (cs : List Char) : Bool :=
  match cs.dropWhile isBlank with
  | [] => true
  | c :: rest => c = '#' && rest.all isPrintable

/-- The key and the value of a line. -/
def entry? (cs : List Char) : Option (List Char × Nat) := do
  let (key, rest) ← key? (cs.dropWhile isBlank)
  match rest.dropWhile isBlank with
  | '=' :: rest =>
    let rest := rest.dropWhile isBlank
    let isPart := fun c => !isBlank c && c ≠ '#'
    let value ← natural? (rest.takeWhile isPart)
    if isLineEnd (rest.dropWhile isPart) then some (key, value) else none
  | _ => none

def enter? (document : SettingsDocument) (entry : List Char × Nat) : Option SettingsDocument :=
  if entry.1 = "max_len".toList ∧ document.maxLen = none then
    some { document with maxLen := some entry.2 }
  else if entry.1 = "id_length".toList ∧ document.idLength = none then
    some { document with idLength := some entry.2 }
  else none

def readLine? (document : SettingsDocument) (line : List Char) : Option SettingsDocument :=
  if isLineEnd line then some document
  else do document.enter? (← entry? line)

/-- A line without the carriage return at its end. -/
def dropReturn (line : List Char) : List Char :=
  if line.getLast? = some '\r' then line.dropLast else line

/-- The lines of a text. They end with a line feed or a carriage return and a
line feed; the last one may go without, but then a carriage return counts. -/
def lines (cs : List Char) : List (List Char) :=
  let parts := cs.splitOn '\n'
  parts.dropLast.map dropReturn ++ [parts.getLastD []]

/-- The text behind a byte order mark. -/
def dropMark : List Char → List Char
  | '\uFEFF' :: rest => rest
  | cs => cs

/-- Reads the text of a file. -/
def ofText? (text : String) : Option SettingsDocument :=
  (lines (dropMark text.toList)).foldlM readLine? {}

end SettingsDocument

end SheetCipher
