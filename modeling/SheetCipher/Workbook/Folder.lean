import Std.Data.TreeMap
import SheetCipher.Workbook.OutputFile

/-!
# Folder — a folder of plain files

The folder holds files and no directories, and it has a name of its own or is
the one that work is done in. A path is followed name by name: a dot stays, two
dots lead out of the folder, any other name but the last would have to be a
directory. Outside of the folder nothing is known to exist.
-/

namespace SheetCipher

/-- A folder of plain files: their texts by name. -/
structure Folder where
  /-- What the paths of its files begin with, if work is done elsewhere. -/
  name? : Option String := none
  files : Std.TreeMap String String := ∅

namespace Folder

def maxNameBytes : Nat := 255

def maxPathBytes : Nat := 4095

/-- Where a path leads that is to be written. -/
inductive Target where
  /-- A file of the folder. -/
  | inside (name : String)
  /-- A file elsewhere. -/
  | outside
deriving DecidableEq

def bytes (name : List Char) : Nat := (String.ofList name).utf8ByteSize

/-- Follows the names of a path, empty ones skipped; `inside` says whether they are looked up in
the folder or elsewhere, where nothing is known to exist. -/
def follow (folder : Folder) : (inside : Bool) → List (List Char) → Except FileError Target
  | _, [] => .error .isADirectory
  | inside, name :: rest =>
    if name = [] ∨ name = ['.'] then follow folder inside rest
    else if name = ['.', '.'] then follow folder false rest
    else
      match rest with
      | [] =>
        if maxNameBytes < bytes name then .error .nameTooLong
        else if inside then .ok (.inside (String.ofList name)) else .ok .outside
      | next :: rest =>
        if next = [] ∧ (rest.all fun name => name = []) then .error .isADirectory
        else if maxNameBytes < bytes name then .error .nameTooLong
        else if inside ∧ folder.files.contains (String.ofList name) then .error .notADirectory
        else .error .notFound

/-- Follows the names of a path from where work is done. -/
def followFrom (folder : Folder) (names : List (List Char)) : Except FileError Target :=
  match folder.name?, names with
  | none, names => folder.follow true names
  | some own, name :: rest => folder.follow (name = own.toList) rest
  | some _, [] => .error .notFound

/-- Where a path leads. -/
def target (folder : Folder) (path : String) : Except FileError Target :=
  let chars := path.toList
  if '\x00' ∈ chars then .error .nulInPath
  else if maxPathBytes < path.utf8ByteSize then .error .nameTooLong
  else if chars = [] then .error .notFound
  else if chars.head? = some '/' then folder.follow false (chars.splitOn '/')
  else folder.followFrom (chars.splitOn '/')

/-- Puts a text where a path leads; elsewhere it is lost. -/
def put (text : String) : Target → StateM Folder Unit
  | .inside name => modify fun folder => { folder with files := folder.files.insert name text }
  | .outside => pure ()

/-- Writes a file, in place of any file of the same name. The file is there, and
empty, before its text is. -/
def write (file : OutputFile) : ExceptT FileError (StateM Folder) Unit := do
  let target ← (← getThe Folder).target file.path
  put "" target
  put (← file.contents) target

end Folder

end SheetCipher
