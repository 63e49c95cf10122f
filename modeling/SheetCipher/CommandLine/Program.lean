import SheetCipher.CommandLine.Answer

/-!
# Program — a command line from its words to its outcome

The program reads one settings file, writes the files of its answer, and leaves
an exit code, a text and, if something went wrong, a report. What surrounds it
— files and randomness — is a parameter.
-/

namespace SheetCipher

/-- What the program asks of its surroundings. -/
structure Surroundings (m : Type → Type) where
  /-- The path of the settings file, the one asked for or else the user's own,
  and what is there. -/
  settingsFile : Option String → m (String × SettingsFile)
  /-- Words to make up an id from. -/
  draws : m Draws
  /-- Writes a file. -/
  write : OutputFile → ExceptT FileError m Unit

/-- What is seen of a run. -/
structure Outcome where
  code : Nat
  printed : String := ""
  /-- The report of a failure. -/
  failure? : Option String := none
  /-- The warnings that are shown. -/
  warnings : List SettingsWarning := []
deriving DecidableEq

namespace Outcome

/-- The outcome of words that do not come to a command. -/
def ofStop : Stop → Outcome
  | .misuse => { code := 2, failure? := some Invocation.usage }
  | .help => { code := 0, printed := Invocation.usage }
  | .version => { code := 0, printed := Invocation.versionText }

def ofReport (warnings : List SettingsWarning) (report : Report) : Outcome :=
  { code := report.exitCode
    printed := report.printed
    failure? := report.failure?.map Failure.text
    warnings }

end Outcome

namespace Invocation

def run {m : Type → Type} [Monad m] (around : Surroundings m) (invocation : Invocation) :
    m Outcome := do
  let (path, file) ← around.settingsFile invocation.config?
  let (settings, warnings) := Settings.load path invocation.config?.isSome file
  let answer :=
    Answer.ofCommand (invocation.settings settings) (← around.draws) invocation.command
  let shown := if invocation.showsWarnings then warnings else []
  return .ofReport shown (← answer.perform around.write)

def runWords {m : Type → Type} [Monad m] (around : Surroundings m) (words : List String) :
    m Outcome :=
  match ofWords words with
  | .ok invocation => invocation.run around
  | .error stop => return .ofStop stop

end Invocation

end SheetCipher
