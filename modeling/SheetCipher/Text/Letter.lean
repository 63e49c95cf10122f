/-!
# Letter — large and small letters

Letters come in pairs of a small and a large one. In most alphabets the pairs
of a stretch are equally far apart, or each large letter stands right before
its small one.
-/

namespace SheetCipher.Letter

/-- Small letters from `first` to `last`, each `distance` behind its large
one. -/
structure Stretch where
  first : Nat
  last : Nat
  distance : Nat

/-- The stretches of the Latin, Greek, Cyrillic and Armenian alphabets. -/
def stretches : List Stretch :=
  [⟨0x61, 0x7a, 32⟩, ⟨0xe0, 0xf6, 32⟩, ⟨0xf8, 0xfe, 32⟩, ⟨0x3b1, 0x3c1, 32⟩, ⟨0x3c3, 0x3cb, 32⟩,
    ⟨0x430, 0x44f, 32⟩, ⟨0x450, 0x45f, 80⟩, ⟨0x561, 0x586, 48⟩]

/-- The stretches of pairs next to one another, by the first large letter and
the last small one. -/
def pairs : List (Nat × Nat) :=
  [(0x100, 0x12f), (0x132, 0x137), (0x139, 0x148), (0x14a, 0x177), (0x179, 0x17e), (0x460, 0x481),
    (0x48a, 0x4bf), (0x4d0, 0x52f), (0x1e00, 0x1e95), (0x1ea0, 0x1eff)]

/-- The large letter of a small one, any other character itself. -/
def upper (c : Char) : List Char :=
  let n := c.toNat
  if n = 0xdf then ['S', 'S']
  else if n = 0xff then [Char.ofNat 0x178]
  else if n = 0xb5 then [Char.ofNat 0x39c]
  else
    match stretches.find? fun s => s.first ≤ n && n ≤ s.last with
    | some s => [Char.ofNat (n - s.distance)]
    | none =>
      match pairs.find? fun (first, last) => first ≤ n && n ≤ last with
      | some (first, _) => [Char.ofNat (if (n - first) % 2 = 1 then n - 1 else n)]
      | none => [c]

/-- The small letter of a large one, any other character itself. -/
def lower (c : Char) : List Char :=
  let n := c.toNat
  if n = 0x178 then [Char.ofNat 0xff]
  else
    match stretches.find? fun s => s.first ≤ n + s.distance && n + s.distance ≤ s.last with
    | some s => [Char.ofNat (n + s.distance)]
    | none =>
      match pairs.find? fun (first, last) => first ≤ n && n ≤ last with
      | some (first, _) => [Char.ofNat (if (n - first) % 2 = 0 then n + 1 else n)]
      | none => [c]

end SheetCipher.Letter
