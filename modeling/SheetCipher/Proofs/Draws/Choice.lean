import Mathlib.Data.List.Nodup
import SheetCipher.Proofs.Draws.Shuffle

/-!
# Choice — one choice of indices for each order of the items

All that a shuffle takes from its words is one index for each place: `picks`.
Where no item comes twice, the last one of a shuffled list says which index was
picked for the last place, and so on down; so lists that are shuffled the same
have been shuffled by the same picks (`fillPlaces_eq_iff`). Read the other way
round, this is how to pick for a given order (`exists_fillPlaces`). Up to
`2 ^ 21` items there is a word for each index, so that none of the choices, and
none of the orders, is out of reach (`shuffle_oneToOne`).
-/

namespace SheetCipher.Draws

variable {α : Type}

/-! ## Vocabulary -/

/-- The indices that words select for the places `places`, …, 1. -/
def picks : (places : Nat) → Draws → List Nat
  | 0, _ => []
  | places + 1, draws => index (draws 0) (places + 1) :: picks places (draws.drop 1)

/-- One index for each of the places `places`, …, 1, none of them behind its
place. -/
inductive IsChoice : (places : Nat) → List Nat → Prop
  | nil : IsChoice 0 []
  | cons {places picked : Nat} {choice : List Nat} (h : picked ≤ places + 1)
      (hrest : IsChoice places choice) : IsChoice (places + 1) (picked :: choice)

/-- A word in front of a stream. -/
def cons (word : UInt32) (draws : Draws) : Draws
  | 0 => word
  | k + 1 => draws k

theorem drop_cons (word : UInt32) (draws : Draws) : (cons word draws).drop 1 = draws := by
  funext k
  rw [drop_apply, Nat.add_comm]
  rfl

/-! ## A word for each index -/

/-- Every index of a range that is scaled without rounding has a word that
selects it. -/
theorem exists_index_eq {picked last : Nat} (h : picked ≤ last) (hexact : last < exactSize) :
    ∃ word, index word last = picked := by
  -- the first word that lands no lower
  obtain ⟨n, hn⟩ : ∃ n, n = (picked * 0x100000000 + last) / (last + 1) := ⟨_, rfl⟩
  have hdiv := Nat.div_add_mod' (picked * 0x100000000 + last) (last + 1)
  have hmod : (picked * 0x100000000 + last) % (last + 1) < last + 1 := Nat.mod_lt _ last.succ_pos
  rw [← hn] at hdiv
  have hlow : picked * 0x100000000 ≤ n * (last + 1) := by omega
  have hhigh : n * (last + 1) < (picked + 1) * 0x100000000 := by
    rw [exactSize] at hexact
    omega
  have hword : n < 0x100000000 := by
    refine Nat.lt_of_mul_lt_mul_right (a := last + 1) (Nat.lt_of_lt_of_le hhigh ?_)
    rw [Nat.mul_comm 0x100000000]
    exact Nat.mul_le_mul_right _ (Nat.succ_le_succ h)
  refine ⟨UInt32.ofNat n, ?_⟩
  have hoffset := offset_eq (UInt32.ofNat n) (show last + 1 ≤ exactSize from hexact)
  rw [UInt32.toNat_ofNat', Nat.mod_eq_of_lt hword, Nat.div_eq_of_lt_le hlow hhigh] at hoffset
  rw [index, ← Int.natCast_add_one, hoffset, Int.toNat_natCast]

theorem isChoice_picks (places : Nat) (draws : Draws) : IsChoice places (picks places draws) := by
  induction places generalizing draws with
  | zero => exact .nil
  | succ places ih => exact .cons (index_le _ _) (ih _)

/-- Every choice is picked by some words. -/
theorem IsChoice.exists_picks {places : Nat} {choice : List Nat} (h : IsChoice places choice)
    (hexact : places < exactSize) : ∃ draws, picks places draws = choice := by
  induction h with
  | nil => exact ⟨fun _ => 0, rfl⟩
  | cons hle _ ih =>
      obtain ⟨draws, hdraws⟩ := ih (by omega)
      obtain ⟨word, hword⟩ := exists_index_eq hle hexact
      refine ⟨Draws.cons word draws, ?_⟩
      rw [picks, drop_cons, hdraws]
      exact congrArg (· :: _) hword

/-! ## Orders and choices -/

/-- **Items are put in the same order by the same picks only**, where none of
them comes twice. -/
theorem fillPlaces_eq_iff {places : Nat} {draws draws' : Draws} {items : List α}
    (hlen : items.length = places + 1) (hnodup : items.Nodup) :
    fillPlaces places draws items = fillPlaces places draws' items ↔
      picks places draws = picks places draws' := by
  induction places generalizing draws draws' items with
  | zero => exact iff_of_true rfl rfl
  | succ places ih =>
      have hle := index_le (draws 0) (places + 1)
      have hle' := index_le (draws' 0) (places + 1)
      generalize hpicked : index (draws 0) (places + 1) = picked at hle
      generalize hpicked' : index (draws' 0) (places + 1) = picked' at hle'
      have hlen' := length_set_take hlen picked items[places + 1]
      have hnodup' : ((items.take (places + 1)).set picked items[places + 1]).Nodup :=
        ((swap_last_perm hlen hle).nodup_iff.2 hnodup).of_append_left
      obtain ⟨rest, hrest, _⟩ := fillPlaces_perm (draws.drop 1) hlen'
      obtain ⟨rest', hrest', _⟩ := fillPlaces_perm (draws'.drop 1)
        (length_set_take hlen picked' items[places + 1])
      rw [picks, picks, hpicked, hpicked', List.cons.injEq, ← ih hlen' hnodup',
        fillPlaces_succ hlen hpicked hle, fillPlaces_succ hlen hpicked' hle', hrest, hrest']
      constructor
      · intro h
        -- the last items agree, and so do their indices
        obtain ⟨heq, hlast⟩ := List.append_inj' (Except.ok.inj h) rfl
        obtain rfl : picked = picked' := hnodup.getElem_inj_iff.1 (List.singleton_inj.1 hlast)
        exact ⟨rfl, by rw [hrest', heq]⟩
      · rintro ⟨rfl, h⟩
        rw [hrest'] at h
        rw [Except.ok.inj h]

/-- **Every order of the items** comes out for some words. -/
theorem exists_fillPlaces {places : Nat} (hexact : places < exactSize) {items target : List α}
    (hlen : items.length = places + 1) (htarget : target.Perm items) :
    ∃ draws, fillPlaces places draws items = .ok target := by
  induction places generalizing items target with
  | zero =>
      obtain ⟨item, rfl⟩ := List.length_eq_one_iff.1 hlen
      exact ⟨fun _ => 0, by rw [List.perm_singleton.1 htarget]; rfl⟩
  | succ places ih =>
      have hne : target ≠ [] := by
        rintro rfl
        rw [← htarget.length_eq] at hlen
        cases hlen
      obtain ⟨rest, last, rfl⟩ := (List.eq_nil_or_concat' target).resolve_left hne
      -- pick what has to be last and go on with what is left
      have hmem : last ∈ items := htarget.subset (List.mem_append_right rest List.mem_cons_self)
      obtain ⟨picked, hlt, rfl⟩ := List.getElem_of_mem hmem
      have hle : picked ≤ places + 1 := by omega
      have hrest : rest.Perm ((items.take (places + 1)).set picked items[places + 1]) :=
        (List.perm_append_right_iff _).1 (htarget.trans (swap_last_perm hlen hle).symm)
      obtain ⟨draws, hdraws⟩ := ih (by omega) (length_set_take hlen _ _) hrest
      obtain ⟨word, hword⟩ := exists_index_eq hle hexact
      have hpicked : index (cons word draws 0) (places + 1) = picked := hword
      refine ⟨cons word draws, ?_⟩
      rw [fillPlaces_succ hlen hpicked hle, drop_cons, hdraws]
      rfl

/-- **Choices and orders correspond one to one.** Whatever words come, a shuffle
misses no item and rearranges them all. Up to `2 ^ 21` items of which none comes
twice are put in the same order by the same picks and no others, in every order
by some words, and every choice of indices is picked by some words. -/
theorem shuffle_oneToOne (items : List α) :
    (∀ draws, ∃ result, shuffle draws items = .ok result ∧ result.Perm items) ∧
      (items.Nodup → items.length ≤ exactSize →
        (∀ draws draws', shuffle draws items = shuffle draws' items ↔
          picks (items.length - 1) draws = picks (items.length - 1) draws') ∧
        (∀ target, target.Perm items → ∃ draws, shuffle draws items = .ok target) ∧
        ∀ choice, IsChoice (items.length - 1) choice ↔
          ∃ draws, picks (items.length - 1) draws = choice) := by
  refine ⟨fun draws => shuffle_perm draws items, fun hnodup hexact => ⟨?_, ?_, ?_⟩⟩
  · intro draws draws'
    cases items with
    | nil => exact iff_of_true rfl rfl
    | cons item items => exact fillPlaces_eq_iff rfl hnodup
  · intro target htarget
    cases items with
    | nil => exact ⟨fun _ => 0, by rw [htarget.eq_nil]; rfl⟩
    | cons item items => exact exists_fillPlaces hexact rfl htarget
  · intro choice
    refine ⟨fun h => h.exists_picks ?_, ?_⟩
    · rw [exactSize] at hexact ⊢
      omega
    · rintro ⟨draws, rfl⟩
      exact isChoice_picks _ draws

/-- Five items come out as the words of `x` put them by these picks only, and as
they were by some words. -/
theorem shuffle_oneToOne_five :
    let items := [1, 2, 3, 4, 5]
    items.Nodup ∧ items.length ≤ exactSize ∧
      shuffle (ofText "x") items = .ok [2, 4, 3, 5, 1] ∧
      (∀ draws, shuffle draws items = .ok [2, 4, 3, 5, 1] ↔ picks 4 draws = [0, 0, 2, 0]) ∧
      ∃ draws, shuffle draws items = .ok items := by
  intro items
  have hnodup : items.Nodup := by decide
  have hexact : items.length ≤ exactSize := by decide
  have hresult : shuffle (ofText "x") items = .ok [2, 4, 3, 5, 1] := by decide +kernel
  have hpicks : picks 4 (ofText "x") = [0, 0, 2, 0] := by decide +kernel
  obtain ⟨_, hall⟩ := shuffle_oneToOne items
  obtain ⟨hiff, hevery, _⟩ := hall hnodup hexact
  refine ⟨hnodup, hexact, hresult, fun draws => ?_, hevery items (List.Perm.refl items)⟩
  rw [← hresult, ← hpicks]
  exact hiff draws (ofText "x")

end SheetCipher.Draws
