import SheetCipher.Cipher.Stage

/-!
# Trace — a text on its way through a template

A cipher is a spec, a key and a capacity. It cuts a text to the capacity and
runs it through the stages of a mode; the trace holds the text before, between
and after the stages, and its last entry is the result.
-/

namespace SheetCipher

/-- The texts between stages, the first one included. -/
def runStages (spec : Spec) (key : PasswordKey) :
    List (Operation × Direction) → List Char → Except Overrun (List (List Char))
  | [], text => .ok [text]
  | (op, direction) :: stages, text => do
      let next ← op.apply direction spec key text
      let later ← runStages spec key stages next
      return text :: later

/-- A spec with a password, for texts of up to `capacity` characters. -/
structure Cipher where
  spec : Spec
  key : PasswordKey
  capacity : Nat

namespace Cipher

/-- The capacity when nothing else is asked for. -/
def defaultCapacity : Nat := 250

def ofPassword (spec : Spec) (password : String) (capacity : Nat := defaultCapacity) : Cipher :=
  ⟨spec, PasswordKey.ofPassword password, capacity⟩

/-- The text before, between and after the stages, cut to the capacity first. -/
def trace (cipher : Cipher) (mode : Mode) (text : String) :
    Except Overrun (List (List Char)) :=
  runStages cipher.spec cipher.key (cipher.spec.stages mode) (text.toList.take cipher.capacity)

/-- The text after the last stage. -/
def run (cipher : Cipher) (mode : Mode) (text : String) : Except Overrun String := do
  let texts ← cipher.trace mode text
  return String.ofList (texts.getLastD [])

/-- Runs the stages forward. -/
def encrypt (cipher : Cipher) (text : String) : Except Overrun String :=
  cipher.run .encrypt text

/-- Runs the inverse stages backward. -/
def decrypt (cipher : Cipher) (text : String) : Except Overrun String :=
  cipher.run .decrypt text

end Cipher

end SheetCipher
