import SheetCipher.Script.Library.Basic

/-!
# Numbers — functions of the library on numbers

Integers are words, and a result that is none is a fault. Numbers with a
fraction follow the rules of double precision.
-/

namespace SheetCipher.Script.Numbers

open Native

/-! ## Reading numbers -/

def signOf : List Char → Bool × List Char
  | '-' :: rest => (true, rest)
  | '+' :: rest => (false, rest)
  | rest => (false, rest)

/-- The digit of a character in a base up to thirty-six. -/
def digit? (base : Nat) (c : Char) : Option Nat :=
  let value :=
    if '0' ≤ c ∧ c ≤ '9' then c.toNat - 48
    else if 'a' ≤ c ∧ c ≤ 'z' then c.toNat - 87
    else if 'A' ≤ c ∧ c ≤ 'Z' then c.toNat - 55
    else base
  if value < base then some value else none

/-- A text without the white space around it. -/
def trimmed (s : List Char) : List Char :=
  ((s.dropWhile Quoted.isSpace).reverse.dropWhile Quoted.isSpace).reverse

/-- The integer that a text stands for in a base, or what is wrong with it. -/
def integer (base : Nat) (s : List Char) : Except String Int64 :=
  let (negative, digits) := signOf s
  if s.isEmpty then .error "cannot parse integer from empty string"
  else
    match digits.mapM (digit? base) with
    | none => .error "invalid digit found in string"
    | some [] => .error "invalid digit found in string"
    | some values =>
      let n : Int := Digit.number base values
      let n := if negative then -n else n
      if Word.fits n then .ok (Int64.ofInt n)
      else if negative then .error "number too small to fit in target type"
      else .error "number too large to fit in target type"

/-- Reads an integer in a base. -/
def parseInt (s : String) (base : Int64) : Except Fault Value :=
  if base < 2 ∨ 36 < base then
    .error (.badConversion ("Invalid radix: '" ++ Value.intText base ++ "'"))
  else
    match integer base.toInt.toNat (trimmed s.toList) with
    | .ok n => .ok (.int n)
    | .error reason =>
      .error (.badConversion ("Error parsing integer number '" ++ s ++ "': " ++ reason))

/-- The number that a text with or without a fraction and a power of ten stands
for. -/
def real? (s : List Char) : Option Double := do
  let (negative, rest) := signOf s
  let whole := rest.takeWhile Decimal.isDigit
  let rest := rest.dropWhile Decimal.isDigit
  let (places, rest) :=
    match rest with
    | '.' :: rest => (rest.takeWhile Decimal.isDigit, rest.dropWhile Decimal.isDigit)
    | rest => ([], rest)
  if whole.isEmpty && places.isEmpty then none
  else
    let power ←
      match rest with
      | [] => some 0
      | mark :: rest =>
        if mark ≠ 'e' ∧ mark ≠ 'E' then none
        else
          let (down, digits) := signOf rest
          if digits.isEmpty || !digits.all Decimal.isDigit then none
          else
            let n : Int := Decimal.value digits
            some (if down then -n else n)
    let digits := Decimal.value (whole ++ places)
    return (Double.ofDecimal digits (power - places.length)).withSign negative

/-- Reads a number with a fraction. -/
def parseReal (s : String) : Except Fault Value :=
  match trimmed s.toList, real? (trimmed s.toList) with
  | _, some x => .ok (.real x)
  | cs, none =>
    let reason :=
      if cs.isEmpty then "cannot parse float from empty string" else "invalid float literal"
    .error (.badConversion ("Error parsing floating-point number '" ++ s ++ "': " ++ reason))

/-! ## Functions -/

/-- An integer with the other sign. -/
def negated (n : Int64) : Except Fault Value :=
  if n = Int64.minValue then .error (.negationOverflow n) else .ok (.int (-n))

/-- The sign of a number as an integer. -/
def signum (order : Ordering) : Value :=
  match order with
  | .lt => .int (-1)
  | .eq => .int 0
  | .gt => .int 1

/-- The bits of a word in a base that is a power of two. -/
def bitsText (base : Nat) (n : Int64) : Value :=
  chars (Nat.toDigits base (n.toInt % Word.count).toNat)

/-- The greater of two values, or the lesser. -/
def extreme (wanted : ValueOperator) : Native
  | [a, b] =>
    match a, b with
    | .int m, .real y => gives (.real (pick (.ofInt m.toInt) y))
    | .real x, .int n => gives (.real (pick x (.ofInt n.toInt)))
    | .int _, .int _ | .real _, .real _ | .text _, .text _ | .char _, .char _ =>
      match wanted.apply a b with
      | .ok (.bool true) => gives a
      | _ => gives b
    | _, _ => none
  | _ => none
where
  /-- The wanted one of two numbers. -/
  pick (x y : Double) : Double := if (x.compare? y).any wanted.holds then x else y

def toInt (x : Double) : Except Fault Value :=
  match x.toWord? with
  | some n => .ok (.int n)
  | none => .error (.badConversion ("Integer overflow: to_int(" ++ x.text .joined ++ ")"))

def fractionOf (x : Double) : Double :=
  Double.ofFloat (x.toFloat - (if x.isNegative then x.toFloat.ceil else x.toFloat.floor))

def cut (x : Double) : Double :=
  Double.ofFloat (if x.isNegative then x.toFloat.ceil else x.toFloat.floor)

/-- The ratio of a circle to its diameter. -/
def pi : Double := ⟨0x400921fb54442d18⟩

/-- The base of natural logarithms. -/
def euler : Double := ⟨0x4005bf0a8b145769⟩

def machine (f : Float → Float) : Native := onReal fun x => .real (x.lift f)

/-- A function of the machine on two numbers. -/
def machine₂ (f : Float → Float → Float) : Native
  | [.real x, .real y] => gives (.real (Double.lift₂ f x y))
  | _ => none

def ofIntegers : Natives :=
  [("abs", fun
      | [.int n] => if n < 0 then yields (negated n) else gives (.int n)
      | [.real x] => gives (.real x.abs)
      | _ => none),
    ("sign", fun
      | [.int n] => gives (signum (compare n 0))
      | [.real x] => gives (signum ((x.compare? ⟨0⟩).getD .eq))
      | _ => none),
    ("is_zero", fun
      | [.int n] => gives (.bool (n = 0))
      | [.real x] => gives (.bool x.isZero)
      | _ => none),
    ("is_odd", fun
      | [.int n] => gives (.bool (n.toInt % 2 = 1))
      | _ => none),
    ("is_even", fun
      | [.int n] => gives (.bool (n.toInt % 2 = 0))
      | _ => none),
    ("max", extreme .gt),
    ("min", extreme .lt),
    ("to_float", fun
      | [.int n] => gives (.real (.ofInt n.toInt))
      | _ => none),
    ("to_int", fun
      | [.int n] => gives (.int n)
      | [.real x] => yields (toInt x)
      | [.char c] => gives (count c.toNat)
      | _ => none),
    ("to_hex", fun
      | [.int n] => gives (bitsText 16 n)
      | _ => none),
    ("to_octal", fun
      | [.int n] => gives (bitsText 8 n)
      | _ => none),
    ("to_binary", fun
      | [.int n] => gives (bitsText 2 n)
      | _ => none),
    ("parse_int", fun
      | [.text s] => yields (parseInt s 10)
      | [.text s, .int base] => yields (parseInt s base)
      | _ => none),
    ("parse_float", fun
      | [.text s] => yields (parseReal s)
      | _ => none)]

/-- The functions on numbers with a fraction. -/
def ofReals : Natives :=
  [("PI", fun args => if args.isEmpty then gives (.real pi) else none),
    ("E", fun args => if args.isEmpty then gives (.real euler) else none),
    ("floor", machine Float.floor),
    ("ceiling", machine Float.ceil),
    ("round", machine Float.round),
    ("int", onReal fun x => .real (cut x)),
    ("fraction", onReal fun x => .real (fractionOf x)),
    ("is_nan", onReal fun x => .bool x.isUndefined),
    ("is_finite", onReal fun x => .bool x.isFinite),
    ("is_infinite", onReal fun x => .bool (!x.isFinite && !x.isUndefined)),
    ("sqrt", machine Float.sqrt),
    ("exp", machine Float.exp),
    ("ln", machine Float.log),
    ("log", fun
      | [.real x] => gives (.real (x.lift Float.log10))
      | [.real x, .real base] => gives (.real (.lift₂ (fun x b => x.log / b.log) x base))
      | _ => none),
    ("sin", machine Float.sin),
    ("cos", machine Float.cos),
    ("tan", machine Float.tan),
    ("sinh", machine Float.sinh),
    ("cosh", machine Float.cosh),
    ("tanh", machine Float.tanh),
    ("asin", machine Float.asin),
    ("acos", machine Float.acos),
    ("atan", (machine Float.atan).orElse (machine₂ Float.atan2)),
    ("asinh", machine Float.asinh),
    ("acosh", machine Float.acosh),
    ("atanh", machine Float.atanh),
    ("hypot", machine₂ fun x y => (x * x + y * y).sqrt),
    ("to_degrees", machine fun x => x * (180.0 / pi.toFloat)),
    ("to_radians", machine fun x => x * (pi.toFloat / 180.0))]

end SheetCipher.Script.Numbers
