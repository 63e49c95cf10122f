import SheetCipher.CommandLine.Words
import SheetCipher.Layout.Compile
import SheetCipher.Template.Operation

/-!
# Command — what a command line asks for

Some options stand before or behind the name of the command; given on both
sides, the one behind it counts. The capacity has to be in the range that a
grid may have.
-/

namespace SheetCipher

/-- How a compiled template is written. -/
inductive OutputFormat where
  /-- One file with a line per cell. -/
  | listing
  /-- A file of comma-separated values per sheet. -/
  | csv
deriving DecidableEq, Repr

/-- What is to be done. -/
inductive Command where
  /-- Print the spec of a new template, made up unless an id is given, and
  write its listing if a path is given. -/
  | create (id? output? : Option String)
  /-- Print the spec of a template. -/
  | spec (id : String)
  /-- Write a template as formulas. -/
  | compile (id : String) (output? : Option String) (format : OutputFormat)
  /-- Run a text through a template, directly or by its grid. -/
  | run (mode : Mode) (id password text : String) (viaGrid : Bool)
  /-- Compare the two ways to run a text. -/
  | verify (id password text : String)
deriving DecidableEq

/-- A command with the options that hold for all. -/
structure Invocation where
  config? : Option String
  maxLen? : Option Nat
  logLevel : String
  command : Command
deriving DecidableEq

namespace OutputFormat

def ofName? : String → Option OutputFormat
  | "listing" => some listing
  | "csv" => some csv
  | _ => none

end OutputFormat

namespace Invocation

def sharedOptions : List OptionName := [.config, .maxLen, .logLevel, .help]

/-- A capacity, written in decimal digits behind an optional `+`. -/
def capacity? (s : String) : Option Nat :=
  let digits := match s.toList with
    | '+' :: rest => rest
    | cs => cs
  let n := Decimal.value digits
  if digits ≠ [] ∧ digits.all Decimal.isDigit ∧ 1 ≤ n ∧ n ≤ maxCapacity then some n else none

/-- Which values an option takes. -/
def accepts : OptionName → String → Bool
  | .config, value | .output, value => value ≠ ""
  | .maxLen, value => (capacity? value).isSome
  | .format, value => (OutputFormat.ofName? value).isSome
  | _, _ => true

/-- The level before the name of the command. -/
def outerLevel : Level :=
  { options := .version :: sharedOptions, endsAtWord := true, wordLimit := 0, accepts }

def commandNames : List String := ["new", "spec", "compile", "encrypt", "decrypt", "verify", "help"]

/-- The number of words that a command takes besides its options. -/
def wordCount (name : String) : Nat := if name = "new" then 0 else 1

def innerLevel (name : String) (own : List OptionName) : Level :=
  { options := own ++ sharedOptions, endsAtWord := false, wordLimit := wordCount name, accepts }

/-- The options of a command besides the shared ones. -/
def ownOptions : String → Option (List OptionName)
  | "new" => some [.id, .output]
  | "spec" => some []
  | "compile" => some [.output, .format]
  | "encrypt" | "decrypt" => some [.id, .password, .viaGrid]
  | "verify" => some [.id, .password]
  | _ => none

def command? (name : String) (found : Found) : Option Command :=
  match name, found.words with
  | "new", [] => some (.create (found.value? .id) (found.value? .output))
  | "spec", [id] => some (.spec id)
  | "compile", [id] =>
    let format := ((found.value? .format).bind OutputFormat.ofName?).getD .listing
    some (.compile id (found.value? .output) format)
  | "encrypt", [text] => do
    return .run .encrypt (← found.value? .id) (← found.value? .password) text (found.has .viaGrid)
  | "decrypt", [text] => do
    return .run .decrypt (← found.value? .id) (← found.value? .password) text (found.has .viaGrid)
  | "verify", [text] => do
    return .verify (← found.value? .id) (← found.value? .password) text
  | _, _ => none

/-- The level of logging when nothing else is asked for. -/
def defaultLogLevel : String := "warn"

/-- The invocation of a command with the shared options found before and behind
its name. -/
def ofFound (outer inner : Found) (command : Command) : Invocation :=
  let shared := fun name => (inner.value? name).or (outer.value? name)
  { config? := shared .config
    maxLen? := (shared .maxLen).bind capacity?
    logLevel := (shared .logLevel).getD defaultLogLevel
    command }

def showsWarnings (invocation : Invocation) : Bool :=
  invocation.logLevel ≠ "off" && invocation.logLevel ≠ "error"

/-- What is printed about the commands. -/
def usage : String :=
  "Usage: cyphergrid [--config <file>] [--max-len <n>] [--log-level <level>] <command>\n" ++
  "\n" ++
  "Commands:\n" ++
  "  new [--id <id>] [-o <file>]                        print the spec of a new template\n" ++
  "  spec <id>                                          print the spec of a template\n" ++
  "  compile <id> [-o <path>] [--format listing|csv]    write a template as formulas\n" ++
  "  encrypt --id <id> --password <text> [--via-grid] <text>\n" ++
  "  decrypt --id <id> --password <text> [--via-grid] <text>\n" ++
  "  verify --id <id> --password <text> <text>          compare grid and direct cipher\n"

/-- What is printed about the version. -/
def versionText : String := "cyphergrid 0.1.0\n"

def ofWords (words : List String) : Except Stop Invocation := do
  let (outer, rest) ← outerLevel.scan {} words
  match rest with
  | [] => .error .misuse
  | "help" :: topics =>
    if topics.length ≤ 1 ∧ topics.all commandNames.contains then .error .help
    else .error .misuse
  | name :: rest =>
    match ownOptions name with
    | none => .error .misuse
    | some own =>
      let (inner, _) ← (innerLevel name own).scan {} rest
      match command? name inner with
      | some command => return ofFound outer inner command
      | none => .error .misuse

end Invocation

end SheetCipher
