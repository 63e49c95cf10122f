/-!
# Digit — digits of any base up to sixteen

The letters `a` to `f`, in either case, follow the digits `0` to `9`.
-/

namespace SheetCipher.Digit

/-- What a character counts for as a digit, if it is one of the base. -/
def value? (base : Nat) (c : Char) : Option Nat :=
  let value :=
    if '0' ≤ c ∧ c ≤ '9' then c.toNat - 48
    else if 'a' ≤ c ∧ c ≤ 'f' then c.toNat - 87
    else if 'A' ≤ c ∧ c ≤ 'F' then c.toNat - 55
    else base
  if value < base then some value else none

/-- The number of digits in a base, most significant first. -/
def number (base : Nat) (digits : List Nat) : Nat := digits.foldl (fun n d => base * n + d) 0

end SheetCipher.Digit
