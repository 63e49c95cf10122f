/-!
# Key — the codes that a password lends to each position

A password followed by one filler letter is written over and over above the
text; the code point above a position is its key code. The filler gives even
the empty password a key.
-/

namespace SheetCipher

/-- The key of a password: its characters and the filler. -/
structure PasswordKey where
  letters : List Char
deriving DecidableEq, Repr

namespace PasswordKey

/-- The letter behind every password. -/
def filler : Char := 'Z'

def ofPassword (password : String) : PasswordKey := ⟨password.toList ++ [filler]⟩

/-- The letter above a position; positions count from 1, and 0 counts as 1. -/
def letterAt (key : PasswordKey) (position : Nat) : Char :=
  key.letters.getD ((max position 1 - 1) % key.letters.length) filler

def codeAt (key : PasswordKey) (position : Nat) : Int64 :=
  Int64.ofNat (key.letterAt position).toNat

end PasswordKey

end SheetCipher
