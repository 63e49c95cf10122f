import SheetCipher.Script.Control

/-!
# Run — the value of a script

The value of a script is that of its last statement or the one that it answers
before. A script that goes on for too long is stopped.
-/

namespace SheetCipher.Script

open Run Runner

mutual

def expression : (steps : Nat) → World → Expression → Run Value
  | 0, _, _ => fail .endless
  | steps + 1, w, e =>
    let r : Runner := ⟨steps, expression steps, statement steps⟩
    match e with
    | .constant v => return v
    | .template parts =>
      return .text (String.join ((← r.expressions w parts).map Value.joined))
    | .reference path name => reference w path name
    | .subject => do valueAt (← subject w)
    | .list items => return .list (← r.expressions w items)
    | .record names items =>
      return .ofEntries ((names.zip (← r.expressions w items)).foldl Value.putEntry [])
    | .call looksRound path name args => r.callPath w looksRound path name args
    | .signed sign operand => do ofExcept (Library.signed sign (← r.expression w operand))
    | .operation op lhs rhs => do
      let a ← r.expression w lhs
      let b ← r.expression w rhs
      ofExcept (op.apply a b)
    | .all terms => r.junction w true terms
    | .any terms => r.junction w false terms
    | .first terms => r.first w terms
    | .chain root links => r.chain w none root links
    | .closure name shared => return .function name [] (← shared.mapM share)
    | .statement body => r.statement w body

def statement : (steps : Nat) → World → Statement → Run Value
  | 0, _, _ => fail .endless
  | steps + 1, w, s =>
    let r : Runner := ⟨steps, expression steps, statement steps⟩
    match s with
    | .evaluate e => r.expression w e
    | .block body => enclosed (r.statements { w with isTop := false } body)
    | .choice condition thenPart elsePart => do
      if ← r.holds w condition then r.statement w thenPart else r.statement w elsePart
    | .selection item cases => r.selection w item cases
    | .whileLoop condition body => whileLoop (r.holds w condition) (r.statement w body) r.rounds
    | .doLoop body goOn condition =>
      doLoop (return (← r.holds w condition) == goOn) (r.statement w body) r.rounds
    | .forLoop name counter source body => r.forLoop w name counter source body
    | .define isConstant name value => do
      r.define w isConstant name value
      return .blank
    | .assign op target value => do
      r.assign w op target value
      return .blank
    | .leave value => do throw (.leave (← r.optional w value))
    | .next => throw .next
    | .answer value => do throw (.answer (← r.optional w value))
    | .raise value => do fail (.raised (← r.optional w value))
    | .attempt body name handler => r.attempt w body name handler
    | .use source => r.use w source
    | .expose name => do
      let _ ← lookUp name
      return .blank

end

/-- How many steps a script may take inside one another or in a loop. -/
def mostSteps : Nat := 4000000

/-- The value of a script, against the values of its own sheet and of the
others. -/
def value (script : List Char) (sheets : Sheets) (values : Values) : Except Fault Value :=
  match read script with
  | .error fault => .error (.syntaxFault fault)
  | .ok program =>
    let r : Runner := ⟨mostSteps, expression mostSteps, statement mostSteps⟩
    let w : World := ⟨sheets, values, program.functions, 0, none, true⟩
    match (r.statements w program.body).run ⟨#[], [], [], []⟩ with
    | .ok v _ | .error (.answer v) _ | .error (.finish v) _ | .error (.leave v) _ => .ok v
    | .error (.fault fault) _ => .error fault
    | .error .next _ => .ok .blank

end SheetCipher.Script
