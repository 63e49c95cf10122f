import SheetCipher.Draws.Seed
import SheetCipher.Word

/-!
# Integer — a word of the stream scaled into a range of integers

A word `n` stands for the fraction `n / 2 ^ 32`. Scaling it into `lo .. hi`
multiplies it by the number of integers in the range and drops the fraction of
the product. The number of integers and the product are each kept to 53
significant bits, to the nearest and a tie to the even neighbour, so that a
range of up to 53 bits loses nothing of its size.
-/

namespace SheetCipher

/-- Keeps `bits` significant bits of `n`: the nearest number that has no more,
of two equally near ones the one whose last kept bit is 0. -/
def roundToBits (bits n : Nat) : Nat :=
  let dropped := n.log2 + 1 - bits
  let unit := Nat.pow 2 dropped
  let kept := n / unit
  let rest := n % unit
  if unit < 2 * rest ∨ (unit = 2 * rest ∧ kept % 2 = 1) then (kept + 1) * unit else kept * unit

namespace Draws

/-- The significant bits that a scaled word is kept to. -/
def precision : Nat := 53

/-- How far above the low end of a range of `size` integers the word lands.
A negative size goes below it. -/
def offset (word : UInt32) (size : Int) : Int :=
  let scaled := roundToBits precision (word.toNat * roundToBits precision size.natAbs)
  (if size < 0 then -(scaled : Int) else scaled) / 0x100000000

/-- The number of integers in `lo .. hi`. -/
def rangeSize (lo hi : Int64) : Except Overrun Int64 := do
  Word.add (← Word.sub hi lo) 1

/-- The integer of `lo .. hi` that the word selects. -/
def integer (word : UInt32) (lo hi : Int64) : Except Overrun Int64 := do
  let size ← rangeSize lo hi
  Word.add lo (Int64.ofInt (offset word size.toInt))

/-- Draws an integer of `lo .. hi`: the integer, and the stream that is left. A
range whose size is no word spends none of the stream. -/
def drawInteger (draws : Draws) (lo hi : Int64) : Except Overrun Int64 × Draws :=
  match rangeSize lo hi with
  | .ok _ => (integer (draws 0) lo hi, draws.drop 1)
  | .error overrun => (.error overrun, draws)

/-- The index of `0 .. last` that the word selects. -/
def index (word : UInt32) (last : Nat) : Nat := (offset word (last + 1)).toNat

end Draws

end SheetCipher
