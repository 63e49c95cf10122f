import SheetCipher.Cipher.Key
import SheetCipher.Template.Spec
import SheetCipher.Word

/-!
# Stage — one operation on a whole text

Each operation keeps the length of the text and every character that is no
ASCII letter; letters stay in their case. Keyed operations rotate the letter at
a position by a shift plus the key code of the position. Amounts are 64-bit
words; they are added up for every character, letter or not, and the first that
overruns its word stops the operation.
-/

namespace SheetCipher

/-- Rotates an ASCII letter by `amount` within its case; any other character
stays. The index of the letter and the amount are added as words. -/
def rotate (c : Char) (amount : Int64) (arithmetic : Word.Arithmetic := .checked) :
    Except Overrun Char :=
  match LetterCase.ofChar? c with
  | some k => do
      let moved ← Word.add (Int64.ofNat (c.toNat - k.base)) amount arithmetic
      return k.letter (moved.toInt % (alphabetSize : Int)).toNat
  | none => .ok c

namespace Direction

/-- The amount as it is added in this direction. -/
def signed : Direction → Int64 → Except Overrun Int64
  | forward, amount => .ok amount
  | inverse, amount => Word.neg amount

end Direction

namespace Operation

/-- Rotates a character by `shift` plus a key code. -/
def shiftChar (direction : Direction) (shift code : Int64) (c : Char) : Except Overrun Char := do
  let amount ← direction.signed (← Word.add shift code)
  rotate c amount

/-- Rotates the character at each position by `shift` plus its key code. -/
def shiftText (direction : Direction) (shift : Int64) (key : PasswordKey) (text : List Char) :
    Except Overrun (List Char) :=
  text.zipIdx.mapM fun entry => shiftChar direction shift (key.codeAt (entry.2 + 1)) entry.1

/-- Replaces each character through the letter map. -/
def mapText (direction : Direction) (m : LetterMap) (text : List Char) :
    Except Overrun (List Char) :=
  match direction with
  | .forward => text.mapM m.image
  | .inverse => text.mapM m.preimage

def apply (op : Operation) (direction : Direction) (spec : Spec) (key : PasswordKey)
    (text : List Char) : Except Overrun (List Char) :=
  match op with
  | .substitute | .xor => shiftText direction (spec.shiftOf op) key text
  | .reverse => .ok text.reverse
  | .map => mapText direction spec.mapping text

end Operation

end SheetCipher
