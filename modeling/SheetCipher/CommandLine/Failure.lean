/-!
# Failure — why a command did not do what it was asked

A failure says what was being done and, if there is more to say, why: the
causes from the outermost to the innermost.
-/

namespace SheetCipher

/-- What was being done when a command failed, and the causes. -/
structure Failure where
  attempt : String
  causes : List String := []
deriving DecidableEq

namespace Failure

/-- A name in quotes; quotes, backslashes and line ends inside are escaped. -/
def quoted (name : String) : String :=
  let escaped := fun (c : Char) =>
    if c = '"' || c = '\\' then ['\\', c]
    else if c = '\n' then ['\\', 'n']
    else if c = '\r' then ['\\', 'r']
    else if c = '\t' then ['\\', 't']
    else [c]
  String.ofList ('"' :: name.toList.flatMap escaped ++ ['"'])

/-- The lines of the causes; they are numbered if there are several. -/
def causeLines : List String → List String
  | [] => []
  | [cause] => ["", "Caused by:", "    " ++ cause]
  | causes =>
    "" :: "Caused by:" :: causes.mapIdx fun i cause => "    " ++ toString i ++ ": " ++ cause

def text (failure : Failure) : String :=
  String.join ((("Error: " ++ failure.attempt) :: causeLines failure.causes).map (· ++ "\n"))

end Failure

end SheetCipher
