/-!
# Operation — the steps a template is made of

Four operations and the two directions each of them runs in. A template mixes
with three operations and ends with `map`; which triples may come first is the
mixing rule.
-/

namespace SheetCipher

/-- One step of a cipher. -/
inductive Operation where
  /-- Shifts each letter by the key and the template's substitution shift. -/
  | substitute
  /-- Shifts each letter by the key and the template's salt. -/
  | xor
  /-- Turns the text round. -/
  | reverse
  /-- Replaces each letter through the letter map. -/
  | map
deriving DecidableEq, Repr, Inhabited

/-- Which way an operation runs. -/
inductive Direction where
  | forward
  | inverse
deriving DecidableEq, Repr

/-- Which way a whole template runs. -/
inductive Mode where
  | encrypt
  | decrypt
deriving DecidableEq, Repr

namespace Operation

/-- The name of an operation in specs and column heads. -/
def name : Operation → String
  | substitute => "substitute"
  | xor => "xor"
  | reverse => "reverse"
  | map => "map"

/-- The name of an operation in reports about a sequence. -/
def title : Operation → String
  | substitute => "Substitute"
  | xor => "Xor"
  | reverse => "Reverse"
  | map => "Map"

def ofName? (s : String) : Option Operation :=
  [substitute, xor, reverse, map].find? fun op => op.name == s

theorem ofName?_name (op : Operation) : ofName? op.name = some op := by
  cases op <;> decide

/-- Whether the operation shifts letters by the key. -/
def isKeyed : Operation → Bool
  | substitute | xor => true
  | reverse | map => false

/-- How many operations are drawn before the last one, which is `map`. -/
def mixingSteps : Nat := 3

def drawn : List Operation := [substitute, xor, reverse]

/-- Whether two neighbours in the list are equal. -/
def hasRepeat : List Operation → Bool
  | a :: b :: rest => a == b || hasRepeat (b :: rest)
  | _ => false

/-- The mixing rule: at least one keyed operation, and no operation twice in a
row. -/
def mixes (ops : List Operation) : Bool :=
  ops.any isKeyed && !hasRepeat ops

end Operation

end SheetCipher
