import SheetCipher.Overrun

/-!
# LetterMap — a substitution of letters within their case

Two tables, one for `A`–`Z` and one for `a`–`z`: entry `i` is what the letter
of index `i` becomes. A map whose tables permute their alphabets is invertible,
and `preimage` then undoes `image`. Tables of other lengths and contents are
possible; an image may then be missing, and a preimage lie too far off.
-/

namespace SheetCipher

/-- The case of a letter. -/
inductive LetterCase where
  | upper
  | lower
deriving DecidableEq, Repr

namespace LetterCase

/-- The code of the first letter. -/
def base : LetterCase → Nat
  | upper => 65
  | lower => 97

def ofChar? (c : Char) : Option LetterCase :=
  if 'A' ≤ c ∧ c ≤ 'Z' then some upper
  else if 'a' ≤ c ∧ c ≤ 'z' then some lower
  else none

def letter (k : LetterCase) (index : Nat) : Char := Char.ofNat (k.base + index)

/-- The character at a place of a table that may be longer than the alphabet.
Places are counted in one byte, and so is the code of the character. -/
def charAt (k : LetterCase) (place : Nat) : Except Overrun Char :=
  let code := k.base + place % 256
  if code < 256 then .ok (Char.ofNat code) else .error .sum

end LetterCase

def alphabetSize : Nat := 26

def LetterCase.alphabet (k : LetterCase) : List Char :=
  (List.range alphabetSize).map k.letter

/-- What the letters become: entry `i` of `upper` for the `i`-th upper-case
letter, of `lower` for the `i`-th lower-case one. -/
structure LetterMap where
  upper : List Char
  lower : List Char
deriving DecidableEq, Repr

namespace LetterMap

/-- The map that changes nothing. -/
def identity : LetterMap := ⟨LetterCase.upper.alphabet, LetterCase.lower.alphabet⟩

def table (m : LetterMap) : LetterCase → List Char
  | .upper => m.upper
  | .lower => m.lower

/-- What a character becomes: a letter the entry of its table, anything else
itself. -/
def image (m : LetterMap) (c : Char) : Except Overrun Char :=
  match LetterCase.ofChar? c with
  | some k => Overrun.lookup (m.table k) (c.toNat - k.base)
  | none => .ok c

/-- What becomes `c`: for a letter, the character of the first place in its
case's table that holds it; itself if there is none or if it is no letter. -/
def preimage (m : LetterMap) (c : Char) : Except Overrun Char :=
  match LetterCase.ofChar? c with
  | some k =>
    match (m.table k).findIdx? (· == c) with
    | some place => k.charAt place
    | none => .ok c
  | none => .ok c

/-- Whether each table is a rearrangement of its alphabet. -/
def isBijection (m : LetterMap) : Bool :=
  m.upper.isPerm LetterCase.upper.alphabet && m.lower.isPerm LetterCase.lower.alphabet

/-- All letters, in table order. -/
def letters : List Char := LetterCase.upper.alphabet ++ LetterCase.lower.alphabet

end LetterMap

end SheetCipher
