/-!
# Seed — from a text to an unbounded stream of words

A text is mixed, one UTF-16 unit at a time, into four 32-bit words. The first
of them starts a counter that moves by a fixed odd step; word `k` of the stream
is a scramble of the counter after `k + 1` steps. The stream of a text is
therefore a function of the position alone, and two readers of one text can
never disagree.
-/

namespace SheetCipher

/-- A stream of 32-bit words, read from position 0 on. -/
abbrev Draws := Nat → UInt32

/-- The four words that a text is mixed into. -/
structure Seed where
  first : UInt32
  second : UInt32
  third : UInt32
  fourth : UInt32
deriving DecidableEq, Repr

namespace Seed

/-- The UTF-16 units of a character: itself, or a surrogate pair. -/
def utf16Units (c : Char) : List UInt32 :=
  if c.val < 0x10000 then [c.val]
  else
    let rest : UInt32 := c.val - 0x10000
    [rest / 1024 + 0xD800, rest % 1024 + 0xDC00]

/-- The words before any text is read. -/
def initial : Seed := ⟨1779033703, 3144134277, 1013904242, 2773480762⟩

/-- Takes one unit in. Each word sees the ones already renewed. -/
def absorb (s : Seed) (unit : UInt32) : Seed :=
  let first := s.second ^^^ (s.first ^^^ unit) * 597399067
  let second := s.third ^^^ (s.second ^^^ unit) * 2869860233
  let third := s.fourth ^^^ (s.third ^^^ unit) * 951274213
  let fourth := first ^^^ (s.fourth ^^^ unit) * 2716044179
  ⟨first, second, third, fourth⟩

/-- The last mixing, after all units are in. -/
def finish (s : Seed) : Seed :=
  let first := (s.third ^^^ (s.first >>> 18)) * 597399067
  let second := (s.fourth ^^^ (s.second >>> 22)) * 2869860233
  let third := (first ^^^ (s.third >>> 17)) * 951274213
  let fourth := (second ^^^ (s.fourth >>> 19)) * 2716044179
  ⟨first ^^^ second ^^^ third ^^^ fourth, second ^^^ first, third ^^^ first, fourth ^^^ first⟩

/-- The four words of a text. -/
def ofText (text : String) : Seed :=
  ((text.toList.flatMap utf16Units).foldl absorb initial).finish

end Seed

namespace Draws

def step : UInt32 := 0x6D2B79F5

def scramble (counter : UInt32) : UInt32 :=
  let t := (counter ^^^ (counter >>> 15)) * (counter ||| 1)
  let t := t ^^^ (t + (t ^^^ (t >>> 7)) * (t ||| 61))
  t ^^^ (t >>> 14)

/-- The stream of a counter that stands at `start`. -/
def ofCounter (start : UInt32) : Draws :=
  fun k => scramble (start + UInt32.ofNat (k + 1) * step)

def ofText (text : String) : Draws :=
  ofCounter (Seed.ofText text).first

/-- A fixed list of words, over and over; zeros if there are none. -/
def cycle (words : Array UInt32) : Draws :=
  fun k => words.getD (k % words.size) 0

/-- The stream with its first `n` words spent. -/
def drop (draws : Draws) (n : Nat) : Draws :=
  fun k => draws (n + k)

@[simp] theorem drop_apply (draws : Draws) (n k : Nat) : draws.drop n k = draws (n + k) := rfl

end Draws

end SheetCipher
