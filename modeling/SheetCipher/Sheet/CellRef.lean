import SheetCipher.Text.Decimal
import SheetCipher.Word

/-!
# CellRef — the address of a cell

A cell stands in a column and a row, both counted from 0. Written in A1 form,
the column is a word of letters (`A` … `Z`, `AA`, …) and the row is counted
from 1; a `$` in front of either pins it. Rows and columns are machine words:
reading refuses what does not fit in 64 bits, and the last row of all has no
number, so an address in it cannot be shown.
-/

namespace SheetCipher

/-- The column and the row of a cell, counted from 0. -/
structure CellRef where
  col : Nat
  row : Nat
deriving DecidableEq, Repr, Inhabited

/-- What a written address pins. -/
inductive Anchor where
  /-- Nothing: `B10`. -/
  | relative
  /-- The column: `$B10`. -/
  | column
  /-- Column and row: `$B$10`. -/
  | absolute
deriving DecidableEq, Repr

namespace CellRef

/-- Sheet order: by row, then by column. -/
def order : CellRef → CellRef → Ordering :=
  compareLex (compareOn CellRef.row) (compareOn CellRef.col)

instance : Ord CellRef := ⟨order⟩

instance : Std.TransOrd CellRef :=
  inferInstanceAs (Std.TransCmp (compareLex (compareOn CellRef.row) (compareOn CellRef.col)))

instance : Std.LawfulEqOrd CellRef where
  eq_of_compare {a b} h := by
    have h : compareLex (compareOn CellRef.row) (compareOn CellRef.col) a b = .eq := h
    simp only [compareLex, Ordering.then_eq_eq, compareOn, Nat.compare_eq_eq] at h
    cases a
    cases b
    simp_all

def letters (col : Nat) : List Char :=
  if col < 26 then [Char.ofNat (65 + col)]
  else letters (col / 26 - 1) ++ [Char.ofNat (65 + col % 26)]

/-- The number of a row. That of the last row is no word: such a row can be
written here, but nothing in it is ever `shown`. -/
def rowDigits (row : Nat) : List Char := Decimal.digits (row + 1)

/-- The characters of an address. -/
def chars (ref : CellRef) : Anchor → List Char
  | .relative => letters ref.col ++ rowDigits ref.row
  | .column => '$' :: letters ref.col ++ rowDigits ref.row
  | .absolute => '$' :: letters ref.col ++ '$' :: rowDigits ref.row

/-- An address in A1 form. -/
def text (ref : CellRef) (anchor : Anchor := .relative) : String :=
  String.ofList (ref.chars anchor)

def columnText (col : Nat) : String := String.ofList (letters col)

/-- Whether the number of a row is a word. -/
def rowIsNumbered (row : Nat) : Bool := row + 1 < Word.count

/-- An address as it is shown, if its row is numbered. -/
def shown (ref : CellRef) (anchor : Anchor := .relative) : Except Overrun String :=
  if rowIsNumbered ref.row then .ok (ref.text anchor) else .error .sum

/-! ## Reading -/

/-- Whether a character is an ASCII letter. -/
def isLetter (c : Char) : Bool := ('A' ≤ c && c ≤ 'Z') || ('a' ≤ c && c ≤ 'z')

/-- What a letter of either case counts for: 1 to 26. -/
def letterValue (c : Char) : Nat := if c ≤ 'Z' then c.toNat - 64 else c.toNat - 96

/-- The number that a word of letters stands for; one more than its column. -/
def lettersValue (cs : List Char) : Nat :=
  cs.foldl (fun n c => 26 * n + letterValue c) 0

def dropPin : List Char → List Char
  | '$' :: rest => rest
  | cs => cs

/-- Reads an address: a word of letters of either case and a row number from 1
on, each with or without a pin, and nothing else. -/
def ofChars? (cs : List Char) : Option CellRef :=
  let body := dropPin cs
  let word := body.takeWhile isLetter
  let number := dropPin (body.dropWhile isLetter)
  let col := lettersValue word
  let row := Decimal.value number
  if word ≠ [] ∧ number ≠ [] ∧ number.all Decimal.isDigit ∧
      col < Word.count ∧ row < Word.count ∧ 1 ≤ row then
    some ⟨col - 1, row - 1⟩
  else none

/-- Reads an address in A1 form. -/
def ofText? (s : String) : Option CellRef := ofChars? s.toList

end CellRef

end SheetCipher
