import Mathlib.Data.List.Basic
import SheetCipher.Workbook.OutputFile

/-!
# Path — the steps of a path

A path leads from the root or from where one is, name by name; empty names and
dots between slashes lead nowhere, and two dots lead up. Two paths are one if
their steps are. A name behind the path of a directory is one more step
(`steps_join`), as long as it is a name and nothing else.
-/

namespace SheetCipher

/-- A step of a path. -/
inductive PathStep where
  /-- To the root, which is only a first step. -/
  | root
  /-- To where one is, which is only a first step, too. -/
  | here
  | up
  | name (chars : List Char)
deriving DecidableEq, Repr

namespace PathStep

/-- The step of what stands between two slashes, if it is one. -/
def ofPart? (part : List Char) : Option PathStep :=
  if part = [] ∨ part = ['.'] then none
  else if part = ['.', '.'] then some .up
  else some (.name part)

end PathStep

namespace Path

/-- The first step of a path that does not start with a name. -/
def start (path : List Char) : List PathStep :=
  if path.head? = some '/' then [.root]
  else if (path.splitOn '/').head? = some ['.'] then [.here]
  else []

/-- The steps that the characters of a path stand for. -/
def stepsOf (path : List Char) : List PathStep :=
  start path ++ (path.splitOn '/').filterMap PathStep.ofPart?

def steps (path : String) : List PathStep := stepsOf path.toList

/-- The steps to the directory that the last step of a path is made from. The
root is in no directory. -/
def parent? (path : String) : Option (List PathStep) :=
  match (steps path).getLast? with
  | none | some .root => none
  | some _ => some (steps path).dropLast

/-- Whether characters are one name: neither empty nor dots that lead elsewhere,
and without a slash. -/
structure IsName (name : List Char) : Prop where
  noSlash : '/' ∉ name
  isStep : PathStep.ofPart? name = some (.name name)

theorem isName_of_length {name : List Char} (hslash : '/' ∉ name) (hlength : 2 < name.length) :
    IsName name where
  noSlash := hslash
  isStep := by
    have hempty : ¬ (name = [] ∨ name = ['.']) := by
      rintro (rfl | rfl)
      · exact absurd hlength (by decide)
      · exact absurd hlength (by decide)
    have hup : name ≠ ['.', '.'] := by
      rintro rfl
      exact absurd hlength (by decide)
    rw [PathStep.ofPart?, if_neg hempty, if_neg hup]

theorem splitOn_slash (front : List Char) {name : List Char} (h : '/' ∉ name) :
    (front ++ '/' :: name).splitOn '/' = front.splitOn '/' ++ [name] := by
  rw [List.splitOn_eq_splitOnP, List.splitOnP_append_cons front name rfl,
    ← List.splitOn_eq_splitOnP, ← List.splitOn_eq_splitOnP, List.splitOn_eq_singleton h]

theorem head?_splitOn_slash (front : List Char) {name : List Char} (h : '/' ∉ name) :
    ((front ++ '/' :: name).splitOn '/').head? = (front.splitOn '/').head? := by
  rw [splitOn_slash front h, List.head?_append_of_ne_nil _ (List.splitOn_ne_nil '/' front)]

/-- What follows a slash is of no account for the first step. -/
theorem start_slash (front : List Char) {name other : List Char} (h : '/' ∉ name)
    (hother : '/' ∉ other) : start (front ++ '/' :: name) = start (front ++ '/' :: other) := by
  rw [start, start, head?_splitOn_slash front h, head?_splitOn_slash front hother,
    List.head?_append, List.head?_append]
  rfl

theorem start_of_ne_nil {front name : List Char} (hfront : front ≠ []) (h : '/' ∉ name) :
    start (front ++ '/' :: name) = start front := by
  rw [start, start, head?_splitOn_slash front h, List.head?_append_of_ne_nil _ hfront]

theorem IsName.stepsOf_eq {name : List Char} (h : IsName name) : stepsOf name = [.name name] := by
  have hhead : name.head? ≠ some '/' := fun hhead => h.noSlash (List.mem_of_head? hhead)
  have hdot : [name].head? ≠ some ['.'] := by
    rintro hdot
    cases Option.some.inj hdot
    cases h.isStep
  rw [stepsOf, start, List.splitOn_eq_singleton h.noSlash, if_neg hhead, if_neg hdot,
    List.filterMap_cons, h.isStep]
  rfl

/-- Behind a slash, a name is one more step than nothing. -/
theorem IsName.stepsOf_slash {name : List Char} (h : IsName name) (front : List Char) :
    stepsOf (front ++ '/' :: name) = stepsOf (front ++ ['/']) ++ [.name name] := by
  have hnil : '/' ∉ ([] : List Char) := List.not_mem_nil
  have hnothing : PathStep.ofPart? [] = none := rfl
  rw [stepsOf, stepsOf, splitOn_slash front h.noSlash, splitOn_slash front hnil,
    start_slash front h.noSlash hnil, List.filterMap_append, List.filterMap_append,
    List.append_assoc, List.append_assoc]
  simp [h.isStep, hnothing]

theorem IsName.stepsOf_behind {front name : List Char} (h : IsName name) (hfront : front ≠ []) :
    stepsOf (front ++ '/' :: name) = stepsOf front ++ [.name name] := by
  rw [stepsOf, stepsOf, splitOn_slash front h.noSlash, start_of_ne_nil hfront h.noSlash,
    List.filterMap_append, List.append_assoc]
  simp [h.isStep]

/-- **A name in a directory** is one step behind it. -/
theorem steps_join (dir : String) {name : String} (h : IsName name.toList) :
    steps (OutputFile.join dir name) = steps dir ++ [.name name.toList] := by
  rw [OutputFile.join]
  split
  · rename_i hdir
    subst hdir
    exact h.stepsOf_eq
  · rename_i hdir
    have hchars : dir.toList ≠ [] := fun hnil => hdir (String.toList_eq_nil_iff.1 hnil)
    split
    · rename_i hlast
      obtain ⟨front, hfront⟩ := List.getLast?_eq_some_iff.1 hlast
      rw [steps, steps, String.toList_append, hfront, List.append_assoc, List.singleton_append,
        h.stepsOf_slash]
    · rw [steps, steps, String.toList_append, String.toList_append, List.append_assoc]
      exact h.stepsOf_behind hchars

/-- **The directory of a name in a directory** is that directory. -/
theorem parent?_join (dir : String) {name : String} (h : IsName name.toList) :
    parent? (OutputFile.join dir name) = some (steps dir) := by
  rw [parent?, steps_join dir h, List.getLast?_concat, List.dropLast_concat]

end Path

end SheetCipher
