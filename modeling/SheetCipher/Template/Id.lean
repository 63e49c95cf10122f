import SheetCipher.Draws.Seed

/-!
# Id — fresh template ids

An id is written with 32 characters, the letters and digits that are hard to
mistake for one another: neither `I` nor `O`, neither `0` nor `1`.
-/

namespace SheetCipher.TemplateId

def alphabet : List Char := "ABCDEFGHJKLMNPQRSTUVWXYZ23456789".toList

/-- The length of an id when nothing else is asked for. -/
def defaultLength : Nat := 8

/-- The character that a word selects. -/
def letter (word : UInt32) : Char :=
  alphabet.getD (word.toNat % alphabet.length) 'A'

/-- The id that the first `length` words spell. -/
def ofDraws (draws : Draws) (length : Nat) : String :=
  String.ofList ((List.range length).map fun k => letter (draws k))

end SheetCipher.TemplateId
