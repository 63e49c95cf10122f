import SheetCipher.Eval.Fault

/-!
# Operator — what operators do to values

`+` and `&` of a sheet are one operator: it adds integers and joins anything
else to a text. Comparisons never fail: values of different types are unequal
and unordered. Integers are checked, so that a result is always exact; next to
a number with a fraction an integer becomes such a number.
-/

namespace SheetCipher

namespace Operator

/-- What an operator of a sheet does to values. -/
def onValues : Operator → ValueOperator
  | add | concat => .add
  | sub => .sub
  | eq => .eq
  | gt => .gt
  | ge => .ge
  | le => .le

end Operator

namespace ValueOperator

/-! ## Texts -/

/-- The text without any occurrence of `s`, taken from left to right;
`skip` characters belong to an occurrence already found. -/
def without (s : List Char) : (skip : Nat) → List Char → List Char
  | _, [] => []
  | skip + 1, _ :: rest => without s skip rest
  | 0, c :: rest =>
    if s.isPrefixOf (c :: rest) then without s (s.length - 1) rest else c :: without s 0 rest

/-- The left text less all occurrences of the right one. If either is empty
the other is left. -/
def subtractText (lhs rhs : String) : String :=
  if rhs = "" then lhs
  else if lhs = "" then rhs
  else String.ofList (without rhs.toList 0 lhs.toList)

/-! ## Comparisons -/

/-- Whether values in this order to one another satisfy a comparison. -/
def holds (op : ValueOperator) (order : Ordering) : Bool :=
  match op with
  | eq => order.isEq
  | ne => order.isNe
  | lt => order.isLT
  | le => order.isLE
  | gt => order.isGT
  | ge => order.isGE
  | _ => false

def compares : ValueOperator → Bool
  | eq | ne | lt | le | gt | ge => true
  | _ => false

/-- The report that there is no such operation. -/
def missing (op : ValueOperator) (a b : Value) : Fault :=
  .noOperation op.sign [a.argumentType, b.argumentType]

/-! ## Integers -/

/-- An integer, if it is a word. -/
def checked (op : ValueOperator) (lhs rhs : Int64) (result : Int) : Except Fault Value :=
  if Word.fits result then .ok (.int (Int64.ofInt result)) else .error (.overflow op lhs rhs)

/-- A power of integers. No base but 0, 1 and -1 has a power of 64 or more that
is a word; of those only the parity of the exponent counts. -/
def power (a b : Int64) : Except Fault Value :=
  if b < 0 ∨ largestPower < b then .error (.overflow pow a b)
  else
    let exponent := b.toInt.toNat
    let exponent := if a.toInt.natAbs ≤ 1 then exponent % 2 + 2 * min exponent 1 else exponent
    if 64 ≤ exponent then .error (.overflow pow a b)
    else pow.checked a b (Int.pow a.toInt exponent)

/-- An integer times a power of two, without the bits beyond the word; a
negative power divides, rounding down. -/
def shifted (n : Int64) (places : Int) : Int64 :=
  if 64 ≤ places then 0
  else if 0 ≤ places then Int64.ofInt (n.toInt * Nat.pow 2 places.toNat)
  else Int64.ofInt (n.toInt / Nat.pow 2 (min (-places).toNat 64))

/-- The value of an operator between two integers. -/
def applyInts (op : ValueOperator) (a b : Int64) : Except Fault Value :=
  match op with
  | add => op.checked a b (a.toInt + b.toInt)
  | sub => op.checked a b (a.toInt - b.toInt)
  | mul => op.checked a b (a.toInt * b.toInt)
  | div => if b = 0 then .error (.overflow op a b) else op.checked a b (a.toInt.tdiv b.toInt)
  | mod =>
    if b = 0 ∨ (a = Int64.minValue ∧ b = -1) then .error (.overflow op a b)
    else op.checked a b (a.toInt.tmod b.toInt)
  | pow => power a b
  | eq => .ok (.bool (a = b))
  | ne => .ok (.bool (a ≠ b))
  | lt => .ok (.bool (a < b))
  | le => .ok (.bool (a ≤ b))
  | gt => .ok (.bool (b < a))
  | ge => .ok (.bool (b ≤ a))
  | bitAnd => .ok (.int (a &&& b))
  | bitOr => .ok (.int (a ||| b))
  | bitXor => .ok (.int (a ^^^ b))
  | shiftLeft => .ok (.int (shifted a b.toInt))
  | shiftRight => .ok (.int (shifted a (-b.toInt)))
  | upTo => .ok (.range a b false)
  | through => .ok (.range a b true)

/-! ## Other values -/

/-- The value of an operator between two texts. -/
def applyTexts (op : ValueOperator) (s t : String) : Except Fault Value :=
  match op with
  | add => .ok (.text (s ++ t))
  | sub => .ok (.text (subtractText s t))
  | op =>
    if op.compares then .ok (.bool (op.holds (compare s.toList t.toList)))
    else .error (op.missing (.text s) (.text t))

/-- The value of an operator between two truth values. -/
def applyBools (op : ValueOperator) (a b : Bool) : Except Fault Value :=
  match op with
  | bitAnd => .ok (.bool (a && b))
  | bitOr => .ok (.bool (a || b))
  | bitXor => .ok (.bool (a ^^ b))
  | op =>
    if op.compares then .ok (.bool (op.holds (compare a b)))
    else .error (op.missing (.bool a) (.bool b))

/-- The value of an operator between two numbers with a fraction. Nothing
compares with an undefined number but that it is unequal. -/
def applyReals (op : ValueOperator) (x y : Double) : Except Fault Value :=
  match op with
  | add => .ok (.real (Double.lift₂ (· + ·) x y))
  | sub => .ok (.real (Double.lift₂ (· - ·) x y))
  | mul => .ok (.real (Double.lift₂ (· * ·) x y))
  | div => .ok (.real (Double.lift₂ (· / ·) x y))
  | mod => .ok (.real (x.remainder y))
  | pow => .ok (.real (Double.lift₂ Float.pow x y))
  | op =>
    if op.compares then .ok (.bool ((x.compare? y).elim (op == ne) op.holds))
    else .error (op.missing (.real x) (.real y))

/-- The value of an operator between two characters: `+` joins them. -/
def applyChars (op : ValueOperator) (c d : Char) : Except Fault Value :=
  match op with
  | add => .ok (.text (String.ofList [c, d]))
  | op =>
    if op.compares then .ok (.bool (op.holds (compare c d)))
    else .error (op.missing (.char c) (.char d))

/-- The value of an operator between two records: `+` puts the right entries in
place of those on the left. -/
def applyRecords (op : ValueOperator) (names names' : List String) (items items' : List Value) :
    Except Fault Value :=
  let same := (Value.record names items).same (.record names' items')
  match op with
  | add => .ok (.ofEntries ((names'.zip items').foldl Value.putEntry (names.zip items)))
  | eq => .ok (.bool same)
  | ne => .ok (.bool !same)
  | op => .error (op.missing (.record names items) (.record names' items'))

/-- The value of an operator between two lists: `+` puts one behind the
other. -/
def applyLists (op : ValueOperator) (items items' : List Value) : Except Fault Value :=
  let same := (Value.list items).same (.list items')
  match op with
  | add => .ok (.list (items ++ items'))
  | eq => .ok (.bool same)
  | ne => .ok (.bool !same)
  | op => .error (op.missing (.list items) (.list items'))

/-- The value of an operator between two other values: they may be equal or
unequal, and `+` joins anything to a text. -/
def applyOthers (op : ValueOperator) (a b : Value) : Except Fault Value :=
  match op with
  | eq => .ok (.bool (a.same b))
  | ne => .ok (.bool !a.same b)
  | add =>
    if a.isText || b.isText then .ok (.text (a.joined ++ b.joined)) else .error (op.missing a b)
  | op => if op.compares then .ok (.bool false) else .error (op.missing a b)

/-- The value of an operator between a text and a character, in this order or
in the other one. -/
def applyMixed (op : ValueOperator) (a b : Value) : Except Fault Value :=
  if op.compares then op.applyTexts a.joined b.joined
  else
    match op, a with
    | add, _ | sub, .text _ => op.applyTexts a.joined b.joined
    | _, _ => .error (op.missing a b)

/-- The value of an operator between two values. -/
def apply (op : ValueOperator) (lhs rhs : Value) : Except Fault Value :=
  match lhs, rhs with
  | .int a, .int b => op.applyInts a b
  | .text s, .text t => op.applyTexts s t
  | .bool a, .bool b => op.applyBools a b
  | .real x, .real y => op.applyReals x y
  | .int a, .real y => op.applyReals (Double.ofInt a.toInt) y
  | .real x, .int b => op.applyReals x (Double.ofInt b.toInt)
  | .char c, .char d => op.applyChars c d
  | .list items, .list items' => op.applyLists items items'
  | .record names items, .record names' items' => op.applyRecords names names' items items'
  | .text s, .char c => op.applyMixed (.text s) (.char c)
  | .char c, .text s => op.applyMixed (.char c) (.text s)
  | a, b => op.applyOthers a b

/-- Whether an operator between two constants is settled at once: every
comparison, any operation on numbers or truth values, a join of texts or of a
text with a character or a blank, a difference of two texts. -/
def settles (op : ValueOperator) (a b : Value) : Bool :=
  op.compares ||
    match op, a, b with
    | _, .int _, .int _ | _, .int _, .real _ | _, .real _, .int _ | _, .real _, .real _ => true
    | _, .bool _, .bool _ => true
    | add, .text _, .text _ | add, .text _, .blank | add, .blank, .text _ => true
    | add, .text _, .char _ | add, .char _, .text _ | add, .char _, .char _ => true
    | sub, .text _, .text _ | sub, .text _, .char _ => true
    | _, _, _ => false

end ValueOperator

end SheetCipher
