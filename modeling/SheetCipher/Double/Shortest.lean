import SheetCipher.Double.Basic
import SheetCipher.Text.Decimal

/-!
# Shortest — the fewest digits that single a number out

A double-precision number stands for the interval of all reals that are nearer
to it than to its neighbours; the ends belong to it if its significand is even.
Of the decimals in the interval those with the fewest digits are written, and
among them the one nearest to the number, the larger of two equally near ones.
Everything is decided in whole numbers.
-/

namespace SheetCipher

/-- The number `digits` times a power of ten. -/
structure Scientific where
  digits : Nat
  exponent : Int
deriving DecidableEq, Repr

namespace Scientific

/-- Compares a decimal with `n` times a power of two. -/
def compareBinary (d : Scientific) (n : Nat) (power : Int) : Ordering :=
  compare (d.digits * Nat.pow 10 d.exponent.toNat * Nat.pow 2 (-power).toNat)
    (n * Nat.pow 2 power.toNat * Nat.pow 10 (-d.exponent).toNat)

/-- Moves trailing zeros of the digits into the exponent, at most `steps` of
them. -/
def stripped : (steps : Nat) → Scientific → Scientific
  | 0, d => d
  | steps + 1, d =>
    if d.digits ≠ 0 ∧ d.digits % 10 = 0 then stripped steps ⟨d.digits / 10, d.exponent + 1⟩ else d

end Scientific

namespace Double

/-- Four times the lower end of the interval, in units of the significand. -/
def lowerEnd (x : Double) : Nat :=
  if x.fraction = 0 ∧ 1 < x.exponentField then 4 * x.significand - 1 else 4 * x.significand - 2

/-- Four times the upper end of the interval, in units of the significand. -/
def upperEnd (x : Double) : Nat := 4 * x.significand + 2

/-- Whether a decimal lies in the interval of a number. -/
def readsBack (x : Double) (d : Scientific) : Bool :=
  let lower := d.compareBinary x.lowerEnd (x.scale - 2)
  let upper := d.compareBinary x.upperEnd (x.scale - 2)
  let closed := x.significand % 2 == 0
  (lower == .gt || (closed && lower == .eq)) && (upper == .lt || (closed && upper == .eq))

/-- The whole part of the number over a power of ten. -/
def quotient (x : Double) (exponent : Int) : Nat :=
  (x.significand * Nat.pow 2 x.scale.toNat * Nat.pow 10 (-exponent).toNat) /
    (Nat.pow 2 (-x.scale).toNat * Nat.pow 10 exponent.toNat)

/-- The least `k` for which the number is below the `k`-th power of ten. -/
def magnitude (x : Double) : Int :=
  (Decimal.digits (x.quotient (-widestExponent))).length - widestExponent

/-- The better of the two decimals with `n` digits on either side of the
number, if one of them lies in its interval. -/
def neighbour? (x : Double) (n : Nat) : Option Scientific :=
  let exponent := x.magnitude - n
  let below : Scientific := ⟨x.quotient exponent, exponent⟩
  let above : Scientific := ⟨below.digits + 1, exponent⟩
  let middle : Scientific := ⟨2 * below.digits + 1, exponent⟩
  if x.readsBack below && x.readsBack above then
    if middle.compareBinary x.significand (x.scale + 1) = .gt then some below else some above
  else if x.readsBack below then some below
  else if x.readsBack above then some above
  else none

/-- The most digits that a number needs. -/
def mostDigits : Nat := 17

/-- The decimal with the fewest digits that stands for a finite number, its
sign left out. -/
def shortest (x : Double) : Scientific :=
  if x.isZero then ⟨0, 0⟩
  else
    match (List.range mostDigits).findSome? fun n => x.neighbour? (n + 1) with
    | some d => d.stripped mostDigits
    | none => ⟨x.quotient (x.magnitude - mostDigits), x.magnitude - mostDigits⟩

end Double

end SheetCipher
