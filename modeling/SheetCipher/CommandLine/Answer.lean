import SheetCipher.CommandLine.Command
import SheetCipher.CommandLine.Failure
import SheetCipher.Layout.Run
import SheetCipher.Settings.Load
import SheetCipher.Template.Derive
import SheetCipher.Template.Document
import SheetCipher.Workbook.Assemble
import SheetCipher.Workbook.Listing
import SheetCipher.Workbook.OutputFile

/-!
# Answer — what a command does

An answer lists the files to be written, the text to be printed once they are,
and the failure that the command ends with, if it does. Finding the answer is
pure; `perform` writes the files by whatever means there are.
-/

namespace SheetCipher

/-- What a command does. -/
structure Answer where
  files : List OutputFile := []
  /-- What is being done while the files are written. -/
  writing : String := ""
  printed : String := ""
  failure? : Option Failure := none

/-- What can be seen of a command. -/
structure Report where
  printed : String
  failure? : Option Failure
deriving DecidableEq

namespace Report

/-- The exit code: 1 for a failure. -/
def exitCode (report : Report) : Nat := if report.failure?.isSome then 1 else 0

end Report

namespace Answer

def derive (id : String) : Except Failure Spec :=
  match Spec.derive id with
  | .ok spec => .ok spec
  | .error e => .error ⟨"Failed to derive template " ++ Failure.quoted id, [e.message]⟩

def compile (capacity : Nat) (spec : Spec) : Except Failure CompiledTemplate :=
  match spec.compile capacity with
  | .ok template => .ok template
  | .error e =>
    .error ⟨"Failed to compile template " ++ Failure.quoted spec.templateId, [e.message]⟩

/-- A text that is made without a grid. -/
def direct {α : Type} : Except Overrun α → Except Failure α
  | .ok a => .ok a
  | .error report => .error ⟨report.message, []⟩

/-- A text from a grid. -/
def evaluated {α : Type} : Except EvaluationError α → Except Failure α
  | .ok a => .ok a
  | .error e => .error ⟨"Grid evaluation failed", [e.message]⟩

def specText (spec : Spec) : String := spec.toJson.indented ++ "\n"

def writeListing (path : String) (book : Workbook) : Except Failure Answer := do
  let text ← direct (Listing.shown book)
  return { files := [⟨path, .ok text⟩], writing := "Failed to write " ++ path }

/-- The sheets of a workbook in a directory; their paths are printed. -/
def writeSheets (dir stem : String) (book : Workbook) : Answer :=
  let files := OutputFile.ofSheets dir stem book
  { files
    writing := "Failed to write CSV sheets to " ++ dir
    printed := String.join (files.map fun file => file.path ++ "\n") }

/-- Prints the spec of an id, and writes the listing if there is a path. -/
def create (settings : Settings) (id : String) (output? : Option String) :
    Except Failure Answer := do
  let spec ← derive id
  match output? with
  | none => return { printed := specText spec }
  | some path =>
    let template ← compile settings.maxLen spec
    return { ← writeListing path (Workbook.assemble template) with printed := specText spec }

/-- Writes a template, a listing without a path to the screen. -/
def compileTo (settings : Settings) (id : String) (output? : Option String)
    (format : OutputFormat) : Except Failure Answer := do
  let template ← compile settings.maxLen (← derive id)
  let book := Workbook.assemble template
  match format, output? with
  | .listing, some path => writeListing path book
  | .listing, none => return { printed := ← direct (Listing.shown book) }
  | .csv, dir? => return writeSheets (dir?.getD ".") id book

/-- Runs a text through a template. -/
def runText (settings : Settings) (mode : Mode) (id password text : String) (viaGrid : Bool) :
    Except Failure Answer := do
  let spec ← derive id
  let output ←
    if viaGrid then do
      let template ← compile settings.maxLen spec
      evaluated (template.runMode mode password text)
    else
      direct ((Cipher.ofPassword spec password settings.maxLen).run mode text)
  return { printed := output ++ "\n" }

def checkLine (check : String × Bool) : String :=
  check.1 ++ ": " ++ (if check.2 then "ok" else "MISMATCH") ++ "\n"

/-- Compares the direct cipher with itself and with both grids. -/
def verify (settings : Settings) (id password text : String) : Except Failure Answer := do
  let spec ← derive id
  let template ← compile settings.maxLen spec
  let cipher := Cipher.ofPassword spec password settings.maxLen
  let encrypted ← direct (cipher.encrypt text)
  let decrypted ← direct (cipher.decrypt encrypted)
  let outputs ← evaluated (template.run { password, plaintext := text, ciphertext := encrypted })
  let checks := [
    ("direct round-trip", decrypted == String.ofList (text.toList.take settings.maxLen)),
    ("grid encrypt matches direct", outputs.encrypted == encrypted),
    ("grid decrypt matches direct", outputs.decrypted == decrypted)]
  let failed := checks.countP fun check => !check.2
  return {
    printed :=
      "template " ++ id ++ " (" ++ toString settings.maxLen ++ " rows)\n" ++
      "ciphertext: " ++ encrypted ++ "\n" ++
      String.join (checks.map checkLine)
    failure? :=
      if failed = 0 then none
      else some ⟨toString failed ++ " of " ++ toString checks.length ++
        " checks failed for template " ++ Failure.quoted id, []⟩ }

/-- The answer of a command; `draws` makes up the id of a new template. -/
def attempt (settings : Settings) (draws : Draws) : Command → Except Failure Answer
  | .create id? output? =>
    create settings (id?.getD (TemplateId.ofDraws draws settings.idLength)) output?
  | .spec id => do return { printed := specText (← derive id) }
  | .compile id output? format => compileTo settings id output? format
  | .run mode id password text viaGrid => runText settings mode id password text viaGrid
  | .verify id password text => verify settings id password text

def ofCommand (settings : Settings) (draws : Draws) (command : Command) : Answer :=
  match attempt settings draws command with
  | .ok answer => answer
  | .error failure => { failure? := some failure }

/-- The failure of a command whose files cannot be written. -/
def refusal (answer : Answer) : FileError → Failure
  | .overrun report => ⟨report.message, []⟩
  | e => ⟨answer.writing, ["IO error: " ++ e.message, e.message]⟩

/-- Writes the files and reports what is printed. -/
def perform {m : Type → Type} [Monad m] (write : OutputFile → ExceptT FileError m Unit)
    (answer : Answer) : m Report := do
  match ← (OutputFile.writeAll write answer.files).run with
  | .ok _ => return { printed := answer.printed, failure? := answer.failure? }
  | .error e => return { printed := "", failure? := some (answer.refusal e) }

end Answer

namespace Invocation

/-- The settings that hold: those of the file, the capacity replaced by one
given as an option. -/
def settings (invocation : Invocation) (fromFile : Settings) : Settings :=
  { fromFile with maxLen := invocation.maxLen?.getD fromFile.maxLen }

end Invocation

end SheetCipher
