import SheetCipher.Workbook.Csv

/-!
# OutputFile — files to be written

A file is a path and a text. A workbook goes into a directory with one file per
sheet. The text of a sheet is made only once its file is there, and it may turn
out that there is none. Writing stops at the first file that cannot be written;
those before it stay. How a single file is written is left open.
-/

namespace SheetCipher

/-- Why a file cannot be written. -/
inductive FileError where
  /-- The system refuses, with a reason and its number. -/
  | system (reason : String) (code : Nat)
  /-- The path holds a NUL character. -/
  | nulInPath
  /-- The file is there, but it has no text. -/
  | overrun (report : Overrun)
deriving DecidableEq, Repr

namespace FileError

def message : FileError → String
  | system reason code => reason ++ " (os error " ++ toString code ++ ")"
  | nulInPath => "file name contained an unexpected NUL byte"
  | overrun report => report.message

/-- Something on the way does not exist. -/
def notFound : FileError := .system "No such file or directory" 2

/-- Something on the way is a file. -/
def notADirectory : FileError := .system "Not a directory" 20

/-- The path leads to a directory. -/
def isADirectory : FileError := .system "Is a directory" 21

def nameTooLong : FileError := .system "File name too long" 36

end FileError

/-- A path and the text to be written there, if there is one. -/
structure OutputFile where
  path : String
  text : Except Overrun String

namespace OutputFile

/-- The text of a file that is being written. -/
def contents (file : OutputFile) : Except FileError String := file.text.mapError .overrun

/-- The path of a name in a directory. -/
def join (dir name : String) : String :=
  if dir = "" then name
  else if dir.toList.getLast? = some '/' then dir ++ name
  else dir ++ "/" ++ name

/-- The files of a workbook in a directory, one per sheet. -/
def ofSheets (dir stem : String) (book : Workbook) : List OutputFile :=
  book.sheets.map fun sheet =>
    ⟨join dir (Csv.fileName stem sheet.name), Csv.text sheet.cells⟩

/-- Writes files in order, up to the first that cannot be written; answers
their paths. -/
def writeAll {m : Type → Type} [Monad m] (write : OutputFile → ExceptT FileError m Unit)
    (files : List OutputFile) : ExceptT FileError m (List String) :=
  files.mapM fun file => do
    write file
    return file.path

end OutputFile

end SheetCipher
