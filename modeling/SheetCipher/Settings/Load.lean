import SheetCipher.Cipher.Trace
import SheetCipher.Layout.Compile
import SheetCipher.Settings.Document
import SheetCipher.Template.Id

/-!
# Load — settings from a file that may be missing or wrong

Two settings, each with a range and a default. Whatever the file holds, usable
settings come out: a file that cannot be used leaves both defaults, a value out
of its range leaves its own, and each is reported by a warning.
-/

namespace SheetCipher

/-- The settings of the program. -/
structure Settings where
  /-- The capacity of grids and texts. -/
  maxLen : Nat := Cipher.defaultCapacity
  /-- The length of the ids that are made up. -/
  idLength : Nat := TemplateId.defaultLength
deriving DecidableEq, Repr

/-- What is not as it should be about a settings file. -/
inductive SettingsWarning where
  /-- The file has too many bytes. -/
  | tooLarge (path : String) (size : Nat)
  /-- The file cannot be read. -/
  | unreadable (path : String) (reason : String)
  /-- The text is no list of settings. -/
  | invalid (path : String)
  /-- There is no such file. -/
  | notFound (path : String)
  /-- A value is not in `least`..=`most`. -/
  | outOfRange (key : String) (value least most fallback : Nat)
deriving DecidableEq, Repr

/-- What there is at the path of a settings file. -/
inductive SettingsFile where
  | missing
  /-- A file that the system does not let us read, with its number of bytes. -/
  | unreadable (size : Nat) (reason : String)
  | present (bytes : ByteArray)

namespace Settings

def maxFileBytes : Nat := 1048576

def minIdLength : Nat := 4

def maxIdLength : Nat := 64

end Settings

namespace SettingsWarning

def message : SettingsWarning → String
  | tooLarge path size =>
    "Refusing to read " ++ path ++ ": file too large (" ++ toString size ++ " bytes, max " ++
      toString Settings.maxFileBytes ++ ")"
  | unreadable path reason => "Failed to read " ++ path ++ ": " ++ reason
  | invalid path => "Failed to parse " ++ path ++ ": expected lines of the form key = integer"
  | notFound path => "Config file not found: " ++ path
  | outOfRange key value least most fallback =>
    key ++ " = " ++ toString value ++ " is out of range (" ++ toString least ++ "..=" ++
      toString most ++ "); using " ++ toString fallback

end SettingsWarning

namespace Settings

def readBytes (path : String) (bytes : ByteArray) : Except SettingsWarning SettingsDocument :=
  if maxFileBytes < bytes.size then .error (.tooLarge path bytes.size)
  else
    match String.fromUTF8? bytes with
    | none => .error (.unreadable path "stream did not contain valid UTF-8")
    | some text =>
      match SettingsDocument.ofText? text with
      | some document => .ok document
      | none => .error (.invalid path)

/-- Reads what is at a path; a missing file is as good as an empty one, and is
worth a warning if it was asked for. -/
def readFile (path : String) (isExplicit : Bool) :
    SettingsFile → SettingsDocument × List SettingsWarning
  | .missing => ({}, if isExplicit then [.notFound path] else [])
  | .unreadable size reason =>
    ({}, [if maxFileBytes < size then .tooLarge path size else .unreadable path reason])
  | .present bytes =>
    match readBytes path bytes with
    | .ok document => (document, [])
    | .error warning => ({}, [warning])

def pick (key : String) (value? : Option Nat) (least most fallback : Nat) :
    Nat × List SettingsWarning :=
  match value? with
  | none => (fallback, [])
  | some value =>
    if least ≤ value ∧ value ≤ most then (value, [])
    else (fallback, [.outOfRange key value least most fallback])

def ofDocument (document : SettingsDocument) : Settings × List SettingsWarning :=
  let maxLen := pick "max_len" document.maxLen 1 maxCapacity Cipher.defaultCapacity
  let idLength :=
    pick "id_length" document.idLength minIdLength maxIdLength TemplateId.defaultLength
  ({ maxLen := maxLen.1, idLength := idLength.1 }, maxLen.2 ++ idLength.2)

def load (path : String) (isExplicit : Bool) (file : SettingsFile) :
    Settings × List SettingsWarning :=
  let read := readFile path isExplicit file
  let settings := ofDocument read.1
  (settings.1, read.2 ++ settings.2)

end Settings

end SheetCipher
