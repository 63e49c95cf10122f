import SheetCipher.Template.Spec
import SheetCipher.Text.Json
import SheetCipher.Word

/-!
# Document — specs as JSON

A spec is an object of five named members, its letter map an object of two. A
record may also be given as the array of its members in their order, and an
operation as an object that names it with a null. Members that are not asked
for are ignored; a missing one, or one of another shape, and there is no spec.
-/

namespace SheetCipher

namespace Json

/-- The members of a record, in the order of their names: from an object by
name, from an array by place. -/
def record? (names : List String) : Json → Option (List Json)
  | object members => names.mapM (member? members)
  | array items => if items.length = names.length then some items else none
  | _ => none

def text? : Json → Option String
  | string s => some s
  | _ => none

/-- A text of one character. -/
def char? : Json → Option Char
  | string s =>
    match s.toList with
    | [c] => some c
    | _ => none
  | _ => none

/-- An integer of 64 bits. -/
def int64? : Json → Option Int64
  | int n => if Word.fits n then some (Int64.ofInt n) else none
  | _ => none

/-- The elements of an array, each of them read. -/
def list? {α : Type} (read : Json → Option α) : Json → Option (List α)
  | array items => items.mapM read
  | _ => none

end Json

namespace Operation

/-- An operation, by its name alone or as the one member of an object. -/
def ofJson? : Json → Option Operation
  | .string s => ofName? s
  | .object [(s, .null)] => ofName? s
  | _ => none

end Operation

namespace LetterMap

/-- A letter map from its two tables. -/
def ofJson? (json : Json) : Option LetterMap :=
  match json.record? ["upper", "lower"] with
  | some [upper, lower] => do
      return { upper := ← upper.list? Json.char?, lower := ← lower.list? Json.char? }
  | _ => none

/-- A table, one text per letter. -/
def tableJson (table : List Char) : Json :=
  .array (table.map fun c => .string c.toString)

/-- The two tables. -/
def toJson (m : LetterMap) : Json :=
  .object [("upper", tableJson m.upper), ("lower", tableJson m.lower)]

end LetterMap

namespace Spec

def memberNames : List String :=
  ["templateId", "operationSequence", "substitutionShift", "xorSalt", "mapping"]

/-- A spec from its members; nothing is checked but their shapes. -/
def ofJson? (json : Json) : Option Spec :=
  match json.record? memberNames with
  | some [templateId, operations, substitutionShift, xorSalt, mapping] => do
      return {
        templateId := ← templateId.text?
        operations := ← operations.list? Operation.ofJson?
        substitutionShift := ← substitutionShift.int64?
        xorSalt := ← xorSalt.int64?
        mapping := ← LetterMap.ofJson? mapping }
  | _ => none

/-- The members of a spec, in order. -/
def toJson (spec : Spec) : Json :=
  .object [
    ("templateId", .string spec.templateId),
    ("operationSequence", .array (spec.operations.map fun op => .string op.name)),
    ("substitutionShift", .int spec.substitutionShift.toInt),
    ("xorSalt", .int spec.xorSalt.toInt),
    ("mapping", spec.mapping.toJson)]

end Spec

end SheetCipher
