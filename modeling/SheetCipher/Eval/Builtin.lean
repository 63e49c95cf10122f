import SheetCipher.Eval.Fault

/-!
# Builtin — the functions of a sheet

Text functions count characters. Where an argument is out of range the result
is the empty text; only a division by zero and what overruns a word have no
result.
-/

namespace SheetCipher

namespace Builtin

/-- Up to `count` characters from the character at `start` on, counted from
1. -/
def midText (s : String) (start count : Int64) : String :=
  if start < 1 ∨ count < 1 then ""
  else String.ofList ((s.toList.drop (start.toInt.toNat - 1)).take count.toInt.toNat)

/-- The number of characters, or the largest word if there are more. -/
def lenText (s : String) : Int64 := Int64.ofNat (Nat.min s.toList.length Word.largest)

/-- The code point of the first character, 0 if there is none. -/
def codeText (s : String) : Int64 :=
  match s.toList with
  | [] => 0
  | c :: _ => Int64.ofNat c.toNat

/-- The character of a code point, the empty text if there is none. -/
def charText (code : Int64) : String :=
  if 0 ≤ code ∧ code.toInt.toNat.isValidChar then (Char.ofNat code.toInt.toNat).toString else ""

/-- The remainder that has the sign of the divisor. -/
def floorMod (n d : Int64) : Except Fault Int64 :=
  if d = 0 then .error .divisionByZero
  else if n = Int64.minValue ∧ d = -1 then .error (.overrun .remainder)
  else
    let r := n % d
    .ok (if r ≠ 0 ∧ (r < 0) ≠ (d < 0) then r + d else r)

def apply (f : Builtin) (args : List Value) : Except Fault Value :=
  match f, args with
  | mid, [.text s, .int start, .int count] => .ok (.text (midText s start count))
  | code, [.text s] => .ok (.int (codeText s))
  | char, [.int n] => .ok (.text (charText n))
  | mod, [.int n, .int d] => (floorMod n d).map .int
  | len, [.text s] => .ok (.int (lenText s))
  | min, [.int a, .int b] => .ok (.int (if a ≤ b then a else b))
  | _, _ => .error (.noOperation f.name (args.map Value.argumentType))

end Builtin

namespace Sheets

/-- The entry of a block of another sheet at a place counted from 1. The row is
computed first, in words; outside the block, and where nothing stands, the
entry is the empty text. -/
def indexAt (sheets : Sheets) (sheet : String) (col firstRow lastRow position : Int64)
    (arithmetic : Word.Arithmetic := .checked) : Except Overrun Value := do
  let row ← Word.sub (← Word.add firstRow position arithmetic) 1 arithmetic
  if position < 1 ∨ lastRow < row then return .text ""
  else
    match sheets.find? sheet with
    | some values => return values.readAt col row
    | none => return .text ""

end Sheets

end SheetCipher
