/-!
# Words — the words of a command line

A level of the command line takes options and other words. An option starts
with `--` and may be followed by its value, in the same word behind `=` or in
the next one; some have a one-letter form as well. Behind `--` nothing is an
option. Each option may be given once; a word that fits nowhere is a misuse, and
of two reasons to stop the first one counts.
-/

namespace SheetCipher

/-- The options. -/
inductive OptionName where
  | config
  | maxLen
  | logLevel
  | id
  | password
  | output
  | format
  | viaGrid
  | help
  | version
deriving DecidableEq, Repr

/-- Why the words of a command line do not come to a command. -/
inductive Stop where
  /-- A word has no place, is missing or has no meaning. -/
  | misuse
  /-- The user asks for help. -/
  | help
  /-- The user asks for the version. -/
  | version
deriving DecidableEq, Repr

namespace OptionName

def all : List OptionName :=
  [config, maxLen, logLevel, id, password, output, format, viaGrid, help, version]

/-- The name behind `--`. -/
def long : OptionName → String
  | config => "config"
  | maxLen => "max-len"
  | logLevel => "log-level"
  | id => "id"
  | password => "password"
  | output => "output"
  | format => "format"
  | viaGrid => "via-grid"
  | help => "help"
  | version => "version"

/-- The letter behind `-`, if there is one. -/
def short? : OptionName → Option Char
  | output => some 'o'
  | help => some 'h'
  | version => some 'V'
  | _ => none

def takesValue : OptionName → Bool
  | viaGrid | help | version => false
  | _ => true

end OptionName

/-- A word as it stands, its options not looked up. -/
inductive Word where
  /-- The word `--`. -/
  | stopper
  /-- A name behind `--`, with what follows `=`. -/
  | long (name : List Char) (value? : Option (List Char))
  /-- A letter behind `-`, with what follows it. -/
  | short (letter : Char) (rest : List Char)
  | plain
deriving DecidableEq, Repr

namespace Word

def ofChars : List Char → Word
  | ['-', '-'] => stopper
  | '-' :: '-' :: rest =>
    match rest.dropWhile (· ≠ '=') with
    | [] => long rest none
    | _ :: value => long (rest.takeWhile (· ≠ '=')) (some value)
  | '-' :: c :: rest => short c rest
  | _ => plain

end Word

/-- What has been found on a level. -/
structure Found where
  /-- The options with their values; empty for an option without one. -/
  options : List (OptionName × String) := []
  /-- The other words, in order. -/
  words : List String := []
deriving DecidableEq

namespace Found

def value? (found : Found) (name : OptionName) : Option String := found.options.lookup name

def has (found : Found) (name : OptionName) : Bool := (found.value? name).isSome

/-- Notes an option, if it is not there yet and takes the value. -/
def give (accepts : OptionName → String → Bool) (found : Found) (name : OptionName)
    (value : String) : Except Stop Found :=
  if found.has name || !accepts name value then .error .misuse
  else .ok { found with options := found.options ++ [(name, value)] }

/-- Notes an option without a value; help and version are given at once. -/
def giveFlag (accepts : OptionName → String → Bool) (found : Found) :
    OptionName → Except Stop Found
  | .help => .error .help
  | .version => .error .version
  | name => found.give accepts name ""

/-- Notes a word, if there are fewer than `limit`. -/
def addWord (limit : Nat) (found : Found) (word : String) : Except Stop Found :=
  if found.words.length < limit then .ok { found with words := found.words ++ [word] }
  else .error .misuse

end Found

/-- What a level of the command line takes. -/
structure Level where
  options : List OptionName
  /-- Whether the first other word ends it. -/
  endsAtWord : Bool
  /-- How many other words it takes if none ends it. -/
  wordLimit : Nat
  /-- Which values an option takes. -/
  accepts : OptionName → String → Bool

namespace Level

/-- The option that a word names, with the value that stands in the word. -/
def option? (level : Level) : Word → Option (OptionName × Option String)
  | .long name value? =>
    (level.options.find? fun option => option.long.toList = name).map fun option =>
      (option, value?.map String.ofList)
  | .short letter rest =>
    (level.options.find? fun option => option.short? = some letter).map fun option =>
      let value := if rest.head? = some '=' then rest.tail else rest
      (option, if rest = [] ∨ !option.takesValue then none else some (String.ofList value))
  | .stopper | .plain => none

/-- Goes through the words of a level; answers what it found and the words
that are left when the level ends at one. -/
def scan (level : Level) : Found → List String → Except Stop (Found × List String)
  | found, [] => .ok (found, [])
  | found, word :: rest =>
    match Word.ofChars word.toList with
    | .plain =>
      if level.endsAtWord then .ok (found, word :: rest)
      else
        match found.addWord level.wordLimit word with
        | .ok found => scan level found rest
        | .error stop => .error stop
    | .stopper => do return (← rest.foldlM (Found.addWord level.wordLimit) found, [])
    | w =>
      match level.option? w with
      | none => .error .misuse
      | some (name, some value) =>
        if name.takesValue then
          match found.give level.accepts name value with
          | .ok found => scan level found rest
          | .error stop => .error stop
        else .error .misuse
      | some (name, none) =>
        if name.takesValue then
          match rest with
          | [] => .error .misuse
          | value :: rest =>
            match Word.ofChars value.toList, found.give level.accepts name value with
            | .plain, .ok found => scan level found rest
            | _, _ => .error .misuse
        else
          match found.giveFlag level.accepts name with
          | .ok found => scan level found rest
          | .error stop => .error stop

end Level

end SheetCipher
