import SheetCipher.Cipher.Key
import SheetCipher.Layout.KeyMap
import SheetCipher.Template.Spec

/-!
# StageFormula — the formulas of one position

The formula of a stage reads the character before it in its row, or for a
reversal the character of another row of the column before. A formula that
changes letters leaves everything else, and the empty text behind the end of
the input, as it is.
-/

namespace SheetCipher

namespace InputCell

/-- Where the text to encrypt is typed: B2. -/
def plaintext : CellRef := ⟨1, 1⟩

/-- Where the password is typed: B3. -/
def password : CellRef := ⟨1, 2⟩

/-- Where the text to decrypt is typed: B4. -/
def ciphertext : CellRef := ⟨1, 3⟩

/-- Where the text of a mode is typed. -/
def ofMode : Mode → CellRef
  | .encrypt => plaintext
  | .decrypt => ciphertext

end InputCell

namespace Formula

instance : Add Formula := ⟨.binary .add⟩

instance : Sub Formula := ⟨.binary .sub⟩

def number (n : Nat) : Formula := .int (Int64.ofNat n)

/-- Two texts joined. -/
def joined (a b : Formula) : Formula := .binary .concat a b

def codeOf (e : Formula) : Formula := .call .code [e]

/-- The number of characters of a text. -/
def lengthOf (e : Formula) : Formula := .call .len [e]

/-- The position of a row: column A. -/
def position (row : Nat) : Formula := .cell ⟨0, row⟩ .column

/-- The cell where the text of a mode is typed. -/
def input (mode : Mode) : Formula := .cell (InputCell.ofMode mode) .absolute

/-- The character of the input at the position of a row. -/
def explode (mode : Mode) (row : Nat) : Formula :=
  .call .mid [input mode, position row, number 1]

/-- The number of positions that carry a character. -/
def filled (mode : Mode) (capacity : Nat) : Formula :=
  .call .min [lengthOf (input mode), number capacity]

/-- The password with the filler letter behind it. -/
def key : Formula :=
  joined (.cell InputCell.password .absolute) (.text PasswordKey.filler.toString)

def keyCode (row : Nat) : Formula :=
  codeOf (.call .mid
    [key, .call .mod [position row - number 1, lengthOf key] + number 1, number 1])

/-- Whether the code of a character is that of a letter of the case. -/
def isOfCase (e : Formula) (k : LetterCase) : Formula :=
  .all [.binary .ge (codeOf e) (number k.base),
    .binary .le (codeOf e) (number (k.base + alphabetSize - 1))]

/-- What a letter becomes by its case; nothing and other characters stay. -/
def byCase (e : Formula) (changed : LetterCase → Formula) : Formula :=
  .cond (.binary .eq e (.text "")) (.text "")
    (.cond (isOfCase e .upper) (changed .upper)
      (.cond (isOfCase e .lower) (changed .lower) e))

/-- The index of a letter moved by a shift and the key code of a row. -/
def moved (direction : Direction) (shift : Int64) (row : Nat) (index : Formula) : Formula :=
  match direction with
  | .forward => index + .int shift + keyCode row
  | .inverse => index - .int shift - keyCode row

/-- The letter rotated by a shift and the key code of a row. -/
def rotated (direction : Direction) (shift : Int64) (row : Nat) (e : Formula) : Formula :=
  byCase e fun k =>
    let index := moved direction shift row (codeOf e - number k.base)
    .call .char [.call .mod [index, number alphabetSize] + number k.base]

/-- The letter replaced through the key map. -/
def mapped (direction : Direction) (e : Formula) : Formula :=
  byCase e fun k =>
    .index (KeyMap.block direction) (codeOf e - number (k.base - 1 - KeyMap.rowsBefore k))

/-- The character as far from the end of the column before as the row is from
its beginning; nothing behind the end of the input. -/
def turned (mode : Mode) (capacity originRow : Nat) (row col : Nat) : Formula :=
  .cond (.binary .gt (position row) (filled mode capacity)) (.text "")
    (.indirect col
      (number originRow + (filled mode capacity - position row + number 1)))

end Formula

end SheetCipher
