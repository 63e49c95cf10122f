import Mathlib.Data.List.Basic
import SheetCipher.Proofs.Cipher.Stage

/-!
# Key — passwords with one row of key codes

A key is a word that is written over and over. Two words make the same endless
row if and only if they commute, and that is the case if and only if both repeat
one word (`exists_repeated_of_commute`). The row of two words is told by its
beginning: where they agree as far as both are long, one after the other, they
commute (`append_comm_of_agree`).
-/

namespace SheetCipher.PasswordKey

/-! ## Words written several times -/

/-- A word written `n` times. -/
def repeated (n : Nat) (w : List Char) : List Char := (List.replicate n w).flatten

theorem repeated_succ (n : Nat) (w : List Char) : repeated (n + 1) w = w ++ repeated n w := by
  rw [repeated, List.replicate_succ, List.flatten_cons, repeated]

theorem repeated_add (m n : Nat) (w : List Char) :
    repeated (m + n) w = repeated m w ++ repeated n w := by
  rw [repeated, List.replicate_add, List.flatten_append, repeated, repeated]

theorem repeated_one (w : List Char) : repeated 1 w = w := by
  rw [repeated_succ]
  exact List.append_nil w

theorem length_repeated (n : Nat) (w : List Char) :
    (repeated n w).length = n * w.length := by
  induction n with
  | zero => rw [Nat.zero_mul]; rfl
  | succ n ih => rw [repeated_succ, List.length_append, ih, Nat.succ_mul, Nat.add_comm]

theorem getElem?_repeated {n i : Nat} {w : List Char} (h : i < n * w.length) :
    (repeated n w)[i]? = w[i % w.length]? := by
  induction n generalizing i with
  | zero => omega
  | succ n ih =>
      rw [repeated_succ, List.getElem?_append]
      split
      · rename_i hlt
        rw [Nat.mod_eq_of_lt hlt]
      · rename_i hge
        rw [Nat.succ_mul] at h
        rw [ih (by omega), Nat.mod_eq_sub_mod (Nat.not_lt.1 hge)]

/-- **Words that commute repeat one word.** -/
theorem exists_repeated_of_commute {u v : List Char} (h : u ++ v = v ++ u) :
    ∃ w i j, u = repeated i w ∧ v = repeated j w := by
  -- the shorter word is a beginning of the longer one, and commutes with what is left of it
  induction hn : u.length + v.length using Nat.strongRecOn generalizing u v with
  | ind n ih =>
      by_cases hu : u = []
      · exact ⟨v, 0, 1, hu, (repeated_one v).symm⟩
      by_cases hv : v = []
      · exact ⟨u, 1, 0, (repeated_one u).symm, hv⟩
      have hulen := List.length_pos_iff.2 hu
      have hvlen := List.length_pos_iff.2 hv
      obtain ⟨rest, hright, hleft⟩ | ⟨rest, hright, hleft⟩ := List.append_eq_append_iff.1 h
      · subst hright
        rw [List.length_append] at hn hvlen
        obtain ⟨w, i, j, hu, hrest⟩ := ih _ (by omega) hleft rfl
        exact ⟨w, i, i + j, hu, by rw [repeated_add, ← hu, ← hrest]⟩
      · subst hright
        rw [List.length_append] at hn hulen
        obtain ⟨w, i, j, hv, hrest⟩ := ih _ (by omega) hleft rfl
        exact ⟨w, i + j, i, by rw [repeated_add, ← hv, ← hrest], hv⟩

/-! ## Words over and over -/

/-- The row of a word is the row of what it repeats. -/
theorem getElem?_row_repeated {n : Nat} {w : List Char} (h : repeated n w ≠ []) (i : Nat) :
    (repeated n w)[i % (repeated n w).length]? = w[i % w.length]? := by
  have hpos := List.length_pos_iff.2 h
  rw [length_repeated] at hpos ⊢
  rw [getElem?_repeated (Nat.mod_lt i hpos), Nat.mod_mul_left_mod]

/-- The row of a word goes on with the other word, while the two rows agree. -/
theorem getElem?_append_of_agree {u q : List Char} {z : Char}
    (h : ∀ i < u.length + q.length,
      u[i % u.length]? = (q ++ [z])[i % (q ++ [z]).length]?)
    {i : Nat} (hi : i < u.length + q.length) : (u ++ q)[i]? = u[i % u.length]? := by
  rw [List.getElem?_append]
  split
  · rename_i hlt
    rw [Nat.mod_eq_of_lt hlt]
  · rename_i hge
    have hrest : i - u.length < q.length := by omega
    have hmod : (i - u.length) % (q ++ [z]).length = i - u.length :=
      Nat.mod_eq_of_lt (by rw [List.length_append]; omega)
    have hagree := h (i - u.length) (by omega)
    rw [hmod, List.getElem?_append_left hrest, ← Nat.mod_eq_sub_mod (Nat.not_lt.1 hge)] at hagree
    exact hagree.symm

/-- **Words whose rows begin alike commute**, if they end with the same
letter. -/
theorem append_comm_of_agree {p q : List Char} {z : Char}
    (h : ∀ i ≤ p.length + q.length,
      (p ++ [z])[i % (p ++ [z]).length]? = (q ++ [z])[i % (q ++ [z]).length]?) :
    (p ++ [z]) ++ (q ++ [z]) = (q ++ [z]) ++ (p ++ [z]) := by
  have hfront : (p ++ [z]) ++ q = (q ++ [z]) ++ p := by
    have hp : (p ++ [z]).length = p.length + 1 := List.length_append
    have hq : (q ++ [z]).length = q.length + 1 := List.length_append
    apply List.ext_getElem?
    intro i
    by_cases hi : i ≤ p.length + q.length
    · rw [getElem?_append_of_agree (fun j hj => h j (by omega)) (by omega),
        getElem?_append_of_agree (fun j hj => (h j (by omega)).symm) (by omega), h i hi]
    · rw [List.getElem?_eq_none (by rw [List.length_append]; omega),
        List.getElem?_eq_none (by rw [List.length_append]; omega)]
  calc
    (p ++ [z]) ++ (q ++ [z]) = ((p ++ [z]) ++ q) ++ [z] := (List.append_assoc ..).symm
    _ = ((q ++ [z]) ++ p) ++ [z] := by rw [hfront]
    _ = (q ++ [z]) ++ (p ++ [z]) := List.append_assoc ..

/-! ## Passwords -/

theorem codeAt_eq_iff {key other : PasswordKey} {position : Nat} :
    key.codeAt position = other.codeAt position ↔
      key.letterAt position = other.letterAt position := by
  rw [← Int64.toInt_inj, toInt_codeAt, toInt_codeAt, Int.natCast_inj, Char.toNat_inj]

/-- The word that is written over and over: a password and the filler. -/
def word (password : String) : List Char := password.toList ++ ['Z']

theorem letters_ofPassword (password : String) : (ofPassword password).letters = word password :=
  rfl

theorem word_ne_nil (password : String) : word password ≠ [] := by simp [word]

/-- What stands above a position, by the row of the word. -/
theorem codeAt_eq_iff_row (p q : String) (i : Nat) :
    (ofPassword p).codeAt (i + 1) = (ofPassword q).codeAt (i + 1) ↔
      (word p)[i % (word p).length]? = (word q)[i % (word q).length]? := by
  have hp := getElem?_letters p i
  have hq := getElem?_letters q i
  rw [letters_ofPassword] at hp hq
  rw [codeAt_eq_iff, hp, hq, Option.some_inj]

/-- **Passwords that repeat one word** have one key. -/
theorem codeAt_eq_of_repeated {p q : String} {w : List Char} {m n : Nat}
    (hp : word p = repeated m w) (hq : word q = repeated n w) (position : Nat) :
    (ofPassword p).codeAt position = (ofPassword q).codeAt position := by
  have hpne : repeated m w ≠ [] := hp ▸ word_ne_nil p
  have hqne : repeated n w ≠ [] := hq ▸ word_ne_nil q
  have hsucc : ∀ i, (ofPassword p).codeAt (i + 1) = (ofPassword q).codeAt (i + 1) := by
    intro i
    rw [codeAt_eq_iff_row, hp, hq, getElem?_row_repeated hpne, getElem?_row_repeated hqne]
  cases position with
  | zero => exact hsucc 0  -- position 0 counts as 1
  | succ i => exact hsucc i

/-- `ab` and `abZab` repeat one word. -/
example : word "ab" = repeated 1 ['a', 'b', 'Z'] ∧ word "abZab" = repeated 2 ['a', 'b', 'Z'] := by
  decide

/-- **Passwords have one key** if and only if their words commute, which is to say
that both repeat one word. The beginning of the key tells: as many positions as
both passwords have characters, and one more. -/
theorem codeAt_eq_iff_commute (p q : String) :
    ((∀ position, (ofPassword p).codeAt position = (ofPassword q).codeAt position) ↔
        word p ++ word q = word q ++ word p) ∧
      ((∀ position ≤ p.length + q.length + 1,
          (ofPassword p).codeAt position = (ofPassword q).codeAt position) ↔
        word p ++ word q = word q ++ word p) ∧
      (word p ++ word q = word q ++ word p ↔
        ∃ w m n, word p = repeated m w ∧ word q = repeated n w) := by
  have hcommute : (∀ position ≤ p.length + q.length + 1,
      (ofPassword p).codeAt position = (ofPassword q).codeAt position) →
      word p ++ word q = word q ++ word p := by
    intro h
    refine append_comm_of_agree fun i hi => (codeAt_eq_iff_row p q i).1 (h _ ?_)
    rw [String.length_toList, String.length_toList] at hi
    omega
  have hagree : word p ++ word q = word q ++ word p →
      ∀ position, (ofPassword p).codeAt position = (ofPassword q).codeAt position := by
    intro h position
    obtain ⟨w, m, n, hp, hq⟩ := exists_repeated_of_commute h
    exact codeAt_eq_of_repeated hp hq position
  refine ⟨⟨fun h => hcommute fun position _ => h position, hagree⟩,
    ⟨hcommute, fun h position _ => hagree h position⟩, exists_repeated_of_commute, ?_⟩
  rintro ⟨w, m, n, hp, hq⟩
  rw [hp, hq, ← repeated_add, ← repeated_add, Nat.add_comm]

end SheetCipher.PasswordKey
