import SheetCipher.Draws.Integer
import SheetCipher.Overrun

/-!
# Shuffle — a list in the order that a stream of words gives it

From the last place down to the second: one word selects an item among those
not yet placed, it goes to the place, and the item that stood there takes the
freed place. A list of `n + 1` items spends `n` words.
-/

namespace SheetCipher.Draws

variable {α : Type}

/-- Fills the places `places`, …, 1 of a list of `places + 1` items, last place
first; the item left over stays in front. -/
def fillPlaces : (places : Nat) → Draws → List α → Except Overrun (List α)
  | 0, _, items => .ok items
  | places + 1, draws, items => do
      let picked := index (draws 0) (places + 1)
      let chosen ← Overrun.lookup items picked
      let last ← Overrun.lookup items (places + 1)
      let rest ← fillPlaces places (draws.drop 1) ((items.take (places + 1)).set picked last)
      return rest ++ [chosen]

/-- The items in the order that the words give them. -/
def shuffle (draws : Draws) (items : List α) : Except Overrun (List α) :=
  fillPlaces (items.length - 1) draws items

end SheetCipher.Draws
