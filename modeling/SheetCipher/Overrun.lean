/-!
# Overrun — what a table or a machine word cannot hold

A letter table may be shorter than the alphabet and a list of columns shorter
than the number asked for; a sum may need more bits than its word has. Any of
these stops the computation, and this is the report of what went wrong.
-/

namespace SheetCipher

/-- What went past an end. -/
inductive Overrun where
  /-- A look-up at `wanted` in a table of `size` entries, with `size ≤ wanted`. -/
  | index (size wanted : Nat)
  | sum
  | difference
  | product
  /-- The least integer divided by -1, for its remainder. -/
  | remainder
deriving DecidableEq, Repr

namespace Overrun

/-- The report as it is shown. -/
def message : Overrun → String
  | index size wanted =>
    "index out of bounds: the len is " ++ toString size ++ " but the index is " ++ toString wanted
  | sum => "attempt to add with overflow"
  | difference => "attempt to subtract with overflow"
  | product => "attempt to multiply with overflow"
  | remainder => "attempt to calculate the remainder with overflow"

/-- The entry at `index`, or the report that there is none. -/
def lookup {α : Type} (table : List α) (index : Nat) : Except Overrun α :=
  match table[index]? with
  | some a => .ok a
  | none => .error (.index table.length index)

theorem lookup_eq_ok_iff {α : Type} {table : List α} {index : Nat} {a : α} :
    lookup table index = .ok a ↔ table[index]? = some a := by
  unfold lookup
  split <;> simp_all

theorem lookup_of_lt {α : Type} {table : List α} {index : Nat}
    (h : index < table.length) : lookup table index = .ok table[index] :=
  lookup_eq_ok_iff.2 (List.getElem?_eq_getElem h)

end Overrun

end SheetCipher
