import SheetCipher.CommandLine.Program

/-!
# Main — the program on the system's files

The settings file of a user is `cyphergrid/config.toml` in the configuration
directory. Warnings and failures go to standard error.
-/

namespace SheetCipher

/-- The error that the system answered to writing a file. -/
def FileError.ofSystem : IO.Error → FileError
  | .noFileOrDirectory _ code details
  | .permissionDenied _ code details
  | .inappropriateType _ code details
  | .invalidArgument _ code details
  | .resourceExhausted _ code details
  | .alreadyExists _ code details
  | .noSuchThing _ code details
  | .interrupted _ code details
  | .resourceBusy code details
  | .resourceVanished code details
  | .unsupportedOperation code details
  | .hardwareFault code details
  | .unsatisfiedConstraints code details
  | .illegalOperation code details
  | .protocolError code details
  | .timeExpired code details
  | .otherError code details => .system details code.toNat
  | .unexpectedEof => .system "Unexpected end of file" 0
  | .userError details => .system details 0

/-- What the system answers to something asked of it. -/
def FileError.asked {α : Type} (request : IO α) : ExceptT FileError IO α := do
  match ← request.toBaseIO with
  | .ok a => return a
  | .error e => throw (FileError.ofSystem e)

/-- The path of the user's own settings file. -/
def userSettingsPath : IO (Option String) := do
  match ← IO.getEnv "XDG_CONFIG_HOME", ← IO.getEnv "HOME" with
  | some dir, home =>
    if dir.startsWith "/" then return some (dir ++ "/cyphergrid/config.toml")
    else return home.map (· ++ "/.config/cyphergrid/config.toml")
  | none, home => return home.map (· ++ "/.config/cyphergrid/config.toml")

/-- What is at a path. Of a file that cannot be read the size stays unknown, and counts as none. -/
def settingsFileAt (path : String) : IO SettingsFile := do
  try
    return .present (← IO.FS.readBinFile path)
  catch
    | .noFileOrDirectory _ _ _ => return .missing
    | e => return .unreadable 0 (FileError.ofSystem e).message

/-- The words that bytes make up, four bytes each. -/
def wordsOfBytes : List UInt8 → List UInt32
  | a :: b :: c :: d :: rest =>
    (a.toUInt32 <<< 24 ||| b.toUInt32 <<< 16 ||| c.toUInt32 <<< 8 ||| d.toUInt32) ::
      wordsOfBytes rest
  | _ => []

/-- The files and the randomness of the system. -/
def systemSurroundings : Surroundings IO where
  settingsFile
    | some path => return (path, ← settingsFileAt path)
    | none => do
      match ← userSettingsPath with
      | some path => return (path, ← settingsFileAt path)
      | none => return ("", .missing)
  draws := return Draws.cycle (wordsOfBytes (← IO.getRandomBytes 1024).toList).toArray
  write file := do
    let handle ← FileError.asked (IO.FS.Handle.mk file.path .write)
    FileError.asked (handle.putStr (← file.contents))

end SheetCipher

/-- Runs the words of the command line. -/
def main (words : List String) : IO UInt32 := do
  let outcome ← SheetCipher.Invocation.runWords SheetCipher.systemSurroundings words
  for warning in outcome.warnings do
    IO.eprintln ("WARN " ++ warning.message)
  IO.print outcome.printed
  if let some report := outcome.failure? then
    IO.eprint report
  return outcome.code.toUInt32
