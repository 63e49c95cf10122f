import SheetCipher.Draws.Shuffle
import SheetCipher.Template.Spec

/-!
# Derive — the spec that an id stands for

The words of an id are spent in a fixed order: triples of operations until one
satisfies the mixing rule, then the upper-case table, the lower-case table, the
substitution shift and the salt. What comes after the accepted triple depends
on where it was found and on nothing else, so the cap on attempts decides
whether there is a spec and never which one.
-/

namespace SheetCipher

namespace Spec

/-- How many triples are tried. -/
def maxAttempts : Nat := 1000

def drawOperation (word : UInt32) : Except Overrun Operation :=
  Overrun.lookup Operation.drawn (Draws.index word (Operation.drawn.length - 1))

/-- The triple that the words of attempt `attempt`, counted from 0, select. -/
def candidate (draws : Draws) (attempt : Nat) : Except Overrun (List Operation) :=
  (List.range Operation.mixingSteps).mapM fun step =>
    drawOperation (draws (Operation.mixingSteps * attempt + step))

/-- The first of `count` attempts from `attempt` on whose triple mixes, with
the triple. -/
def firstMixing (draws : Draws) (attempt : Nat) :
    (count : Nat) → Except Overrun (Option (Nat × List Operation))
  | 0 => .ok none
  | count + 1 => do
      let ops ← candidate draws attempt
      if Operation.mixes ops then return some (attempt, ops)
      else firstMixing draws (attempt + 1) count

/-- The spec with these operations and with its tables and shifts taken from
the words. -/
def ofDraws (id : String) (ops : List Operation) (draws : Draws) : Except Overrun Spec := do
  let spent := alphabetSize - 1
  let upper ← Draws.shuffle draws LetterCase.upper.alphabet
  let lower ← Draws.shuffle (draws.drop spent) LetterCase.lower.alphabet
  return {
    templateId := id
    operations := ops ++ [.map]
    substitutionShift := ← Draws.integer (draws (2 * spent)) 1 25
    xorSalt := ← Draws.integer (draws (2 * spent + 1)) 1 25
    mapping := ⟨upper, lower⟩ }

/-- The spec of an id, if one of the first `attempts` triples mixes. -/
def deriveWithin (id : String) (attempts : Nat) : Except TemplateError Spec :=
  if id = "" then .error .emptyId
  else do
    let draws := Draws.ofText id
    match ← TemplateError.ofOverrun (firstMixing draws 0 attempts) with
    | none => .error (.noSequence attempts)
    | some (attempt, ops) =>
      TemplateError.ofOverrun
        (ofDraws id ops (draws.drop (Operation.mixingSteps * (attempt + 1))))

def derive (id : String) : Except TemplateError Spec := deriveWithin id maxAttempts

end Spec

end SheetCipher
