import Mathlib.Data.List.Perm.Basic
import SheetCipher.Draws.Shuffle
import SheetCipher.Proofs.Draws.Integer

/-!
# Shuffle — the same items in another order

Filling a place swaps the item that stands there with one that is not placed
yet. Every index that is drawn is one of those places, so no look-up ever
fails, and a row of swaps rearranges the items (`shuffle_perm`).
-/

namespace SheetCipher.Draws

variable {α : Type}

/-- Putting an item last and the last one in its place is a swap. -/
theorem swap_last_perm {items : List α} {places picked : Nat} (hlen : items.length = places + 1)
    (h : picked ≤ places) :
    ((items.take places).set picked items[places] ++ [items[picked]]).Perm items := by
  have hswap : ((items.set picked items[places]).set places items[picked]).Perm items :=
    List.set_set_perm (by omega) (by omega)
  have hlast : items.take places ++ [items[places]] = items := by
    rw [List.take_append_getElem, ← hlen, List.take_length]
  have hfront : (items.take places).length = places := by
    rw [List.length_take]
    omega
  have heq : (items.set picked items[places]).set places items[picked] =
      (items.take places).set picked items[places] ++ [items[picked]] := by
    by_cases hin : picked < places
    · have hset : items.set picked items[places] =
          (items.take places).set picked items[places] ++ [items[places]] := by
        rw [← List.set_append_left picked items[places] (by omega), hlast]
      rw [hset, List.set_append_right _ _ (by rw [List.length_set]; omega)]
      simp [hfront]
    · -- the last item itself was picked
      obtain rfl : picked = places := by omega
      rw [List.set_getElem_self, List.set_getElem_self, List.set_eq_of_length_le (by omega), hlast]
  rwa [heq] at hswap

/-- How a place is filled: the picked item goes to it, and the one that stood
there takes the freed place. -/
theorem fillPlaces_succ {draws : Draws} {items : List α} {places picked : Nat}
    (hlen : items.length = places + 1 + 1) (hpicked : index (draws 0) (places + 1) = picked)
    (h : picked ≤ places + 1) :
    fillPlaces (places + 1) draws items =
      (fillPlaces places (draws.drop 1)
        ((items.take (places + 1)).set picked items[places + 1])).map (· ++ [items[picked]]) := by
  have hchosen : Overrun.lookup items picked = .ok items[picked] :=
    Overrun.lookup_of_lt (by omega)
  have hlast : Overrun.lookup items (places + 1) = .ok items[places + 1] :=
    Overrun.lookup_of_lt (by omega)
  rw [fillPlaces, hpicked, hchosen, hlast]
  show (fillPlaces places (draws.drop 1) _ >>= fun rest => Except.ok (rest ++ [_])) = _
  cases fillPlaces places (draws.drop 1) ((items.take (places + 1)).set picked items[places + 1])
    <;> rfl

theorem length_set_take {items : List α} {places : Nat} (hlen : items.length = places + 1 + 1)
    (picked : Nat) (a : α) : ((items.take (places + 1)).set picked a).length = places + 1 := by
  rw [List.length_set, List.length_take]
  omega

/-- The places are filled with the items, whatever is drawn. -/
theorem fillPlaces_perm {places : Nat} (draws : Draws) {items : List α}
    (hlen : items.length = places + 1) :
    ∃ result, fillPlaces places draws items = .ok result ∧ result.Perm items := by
  induction places generalizing draws items with
  | zero => exact ⟨items, rfl, List.Perm.refl items⟩
  | succ places ih =>
      have hpicked := index_le (draws 0) (places + 1)
      obtain ⟨rest, hrest, hperm⟩ := ih (draws.drop 1) (length_set_take hlen _ _)
      refine ⟨rest ++ [items[index (draws 0) (places + 1)]], ?_, ?_⟩
      · rw [fillPlaces_succ hlen rfl hpicked, hrest]
        rfl
      · exact (hperm.append_right _).trans (swap_last_perm hlen hpicked)

/-- **A shuffle rearranges the items** and never misses one. -/
theorem shuffle_perm (draws : Draws) (items : List α) :
    ∃ result, shuffle draws items = .ok result ∧ result.Perm items := by
  cases items with
  | nil => exact ⟨[], rfl, List.Perm.refl []⟩
  | cons item items => exact fillPlaces_perm draws rfl

end SheetCipher.Draws
