import SheetCipher.Word

/-!
# Double — numbers of double precision

A number with a fraction is kept as the 64 bits of its double-precision form:
a sign, an exponent and a significand. Two numbers are the same exactly if
their bits are; whether they are equal in value is another question, which
`equal` answers.
-/

namespace SheetCipher

/-- A number of double precision, by its bits. -/
structure Double where
  bits : UInt64
deriving DecidableEq, Repr, Inhabited

namespace Double

/-! ## Parts -/

/-- Whether the sign is minus. -/
def isNegative (x : Double) : Bool := x.bits >>> 63 == 1

def exponentField (x : Double) : Nat := ((x.bits >>> 52) &&& 0x7ff).toNat

def fraction (x : Double) : Nat := (x.bits &&& 0xfffffffffffff).toNat

/-- Whether the number is neither infinite nor undefined. -/
def isFinite (x : Double) : Bool := x.exponentField != 0x7ff

def isUndefined (x : Double) : Bool := x.exponentField == 0x7ff && x.fraction != 0

/-- Whether the number is a zero of either sign. -/
def isZero (x : Double) : Bool := x.exponentField == 0 && x.fraction == 0

/-- The significand as a whole number. -/
def significand (x : Double) : Nat :=
  if x.exponentField = 0 then x.fraction else 0x10000000000000 + x.fraction

/-- The power of two by which the significand is scaled. -/
def scale (x : Double) : Int :=
  if x.exponentField = 0 then -1074 else (x.exponentField : Int) - 1075

/-! ## From and to other numbers -/

/-- The number that the machine holds as a float. -/
def ofFloat (x : Float) : Double := ⟨x.toBits⟩

/-- The number as a float of the machine. -/
def toFloat (x : Double) : Float := Float.ofBits x.bits

/-- The number with the other sign. -/
def neg (x : Double) : Double := ⟨x.bits ^^^ 0x8000000000000000⟩

/-- The number without its sign. -/
def abs (x : Double) : Double := ⟨x.bits &&& 0x7fffffffffffffff⟩

/-- A number with a sign in front. -/
def withSign (negative : Bool) (x : Double) : Double := if negative then x.neg else x

/-- The number nearest to an integer. -/
def ofInt (n : Int) : Double := (ofFloat (Float.ofNat n.natAbs)).withSign (n < 0)

/-- Where the exponents of ten end that can matter. -/
def widestExponent : Nat := 400

/-- The number nearest to `digits` times the power of ten; beyond all numbers
it is infinite. -/
def ofDecimal (digits : Nat) (exponent : Int) : Double :=
  if digits = 0 ∨ exponent + (digits.log2 : Int) < -(2 * widestExponent : Int) then ⟨0⟩
  else if (widestExponent : Int) < exponent then ⟨0x7ff0000000000000⟩
  else ofFloat (Float.ofScientific digits (exponent < 0) exponent.natAbs)

def undefined : Double := ⟨0x7ff8000000000000⟩

/-- The number `n` times a power of two, of an `n` for which it exists. -/
def ofScaled (n : Nat) (power : Int) : Double :=
  let extra := n.log2 - 53
  ofFloat ((Float.ofNat (n >>> extra)).scaleB (power + extra))

/-- The whole part of a finite number. -/
def truncated (x : Double) : Int :=
  let n :=
    if 0 ≤ x.scale then x.significand <<< x.scale.toNat else x.significand >>> (-x.scale).toNat
  if x.isNegative then -(n : Int) else n

/-- The whole part as a word, if it is one. -/
def toWord? (x : Double) : Option Int64 :=
  let n := x.truncated
  if x.isFinite && Word.fits n then some (Int64.ofInt n) else none

/-! ## Arithmetic -/

/-- An operation of the machine on two numbers. -/
def lift₂ (f : Float → Float → Float) (x y : Double) : Double := ofFloat (f x.toFloat y.toFloat)

/-- An operation of the machine on a number. -/
def lift (f : Float → Float) (x : Double) : Double := ofFloat (f x.toFloat)

/-- The remainder of a division whose quotient is cut to a whole number; it is
exact and has the sign of `x`. -/
def remainder (x y : Double) : Double :=
  if !x.isFinite || y.isUndefined || y.isZero then undefined
  else if !y.isFinite then x
  else
    let power := min x.scale y.scale
    let n := x.significand <<< (x.scale - power).toNat
    let d := y.significand <<< (y.scale - power).toNat
    (ofScaled (n % d) power).withSign x.isNegative

/-- How two numbers compare, if both are defined. -/
def compare? (x y : Double) : Option Ordering :=
  if x.toFloat < y.toFloat then some .lt
  else if y.toFloat < x.toFloat then some .gt
  else if x.toFloat == y.toFloat then some .eq
  else none

/-- Whether two numbers are equal in value. -/
def equal (x y : Double) : Bool := x.compare? y == some .eq

end Double

end SheetCipher
