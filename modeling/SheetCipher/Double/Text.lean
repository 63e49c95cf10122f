import SheetCipher.Double.Shortest

/-!
# Text — how numbers of double precision are written

A number is written with the fewest digits that single it out, either with all
its places or with one digit in front of the point and a power of ten behind.
Two styles say where the one form ends and the other begins.
-/

namespace SheetCipher

namespace Scientific

/-- A decimal with all its places; a whole one has no point. -/
def positional (d : Scientific) : List Char :=
  let digits := Decimal.digits d.digits
  if 0 ≤ d.exponent then digits ++ List.replicate d.exponent.toNat '0'
  else
    let places := (-d.exponent).toNat
    let padded := List.replicate (places + 1 - digits.length) '0' ++ digits
    let whole := padded.length - places
    padded.take whole ++ '.' :: padded.drop whole

/-- A decimal with one digit in front of the point and a power of ten. -/
def exponential (d : Scientific) : List Char :=
  match Decimal.digits d.digits with
  | [] => []
  | first :: rest =>
    let power := d.exponent + rest.length
    first :: (if rest.isEmpty then [] else '.' :: rest) ++ 'e' :: Decimal.ofInt power

end Scientific

namespace Double

/-- Where numbers are written with all their places. -/
structure Style where
  /-- The least number that is. -/
  least : Double
  /-- The first number above that is not. -/
  limit : Double
  /-- Whether a zero keeps its sign. -/
  signedZero : Bool

namespace Style

/-- The style of a number that becomes part of a text: places up to the number
next to 10 ^ 13 and down to that next to 10 ^ -7 that single precision has. -/
def joined : Style where
  least := ⟨0x3e7ad7f2a0000000⟩
  limit := ⟨0x42a2309ce0000001⟩
  signedZero := false

/-- The style of a number inside another value: places below 10 ^ 16 and from
10 ^ -4 on. -/
def inner : Style where
  least := ofDecimal 1 (-4)
  limit := ofDecimal 1 16
  signedZero := true

end Style

/-- Whether a style writes a number with all its places. -/
def isPositional (style : Style) (x : Double) : Bool :=
  let size := x.abs
  size.isZero || (style.least.bits ≤ size.bits && size.bits < style.limit.bits)

/-- A number as a text. A whole number written with all its places ends in
`.0`. -/
def text (style : Style) (x : Double) : String :=
  if x.isUndefined then "NaN"
  else
    let sign := if x.isNegative && (style.signedZero || !x.isZero) then "-" else ""
    if !x.isFinite then sign ++ "inf"
    else
      let d := x.shortest
      if x.isPositional style then
        sign ++ String.ofList d.positional ++ (if 0 ≤ d.exponent then ".0" else "")
      else sign ++ String.ofList d.exponential

end Double

end SheetCipher
