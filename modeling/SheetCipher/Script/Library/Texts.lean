import SheetCipher.Script.Library.Numbers
import SheetCipher.Text.Letter

/-!
# Texts — functions of the library on texts and characters

Places in a text are counted in characters from 0 on, or from the end if they
are negative. Functions that change a text leave a blank.
-/

namespace SheetCipher.Script.Texts

open Native

/-- The characters of a text or of a character. -/
def charsOf? : Value → Option (List Char)
  | .text s => some s.toList
  | .char c => some [c]
  | _ => none

/-- Where a text occurs first at or behind a place. -/
def indexFrom (wanted : List Char) : (place : Nat) → List Char → Option Nat
  | place, [] => if wanted.isEmpty then some place else none
  | place, c :: rest =>
    if wanted.isPrefixOf (c :: rest) then some place else indexFrom wanted (place + 1) rest

/-- Where a text occurs in another one, or -1. -/
def index (whole wanted : List Char) (start : Nat) : Value :=
  match indexFrom wanted start (whole.drop start) with
  | some n => count n
  | none => .int (-1)

/-- The parts of a text between the occurrences of another one; `part` holds
what has been read of a part, the latest first, and `skip` characters belong to
an occurrence already found. -/
def splitFrom (separator : List Char) : (skip : Nat) → (part : List Char) → List Char →
    List (List Char)
  | _, part, [] => [part.reverse]
  | skip + 1, part, _ :: rest => splitFrom separator skip part rest
  | 0, part, c :: rest =>
    if separator.isPrefixOf (c :: rest) then
      part.reverse :: splitFrom separator (separator.length - 1) [] rest
    else splitFrom separator 0 (c :: part) rest

/-- The parts of a text between the occurrences of another one. The empty text
occurs on either side of each character. -/
def split (separator s : List Char) : List (List Char) :=
  if separator.isEmpty then [] :: s.map (fun c => [c]) ++ [[]] else splitFrom separator 0 [] s

def words (s : List Char) : List (List Char) :=
  (splitFrom [' '] 0 [] (s.map fun c => if Quoted.isSpace c then ' ' else c)).filter
    fun part => !part.isEmpty

def texts (parts : List (List Char)) : Value := .list (parts.map chars)

def replace (wanted other s : List Char) : List Char := other.intercalate (split wanted s)

/-- A text with something behind it, over and over, up to a length. -/
def pad (s : List Char) (length : Nat) (filler : List Char) : List Char :=
  if filler.isEmpty || length ≤ s.length then s
  else (s ++ (List.replicate (length - s.length) filler).flatten).take length

/-- A text with another character at a place. -/
def setChar (s : List Char) (index : Int64) (c : Char) : List Char :=
  match place? s.length index with
  | some n => s.set n c
  | none => s

/-- A function of a text and another one or a character. -/
def onTexts (f : List Char → List Char → Option (Except Fault Outcome)) : Native
  | [.text s, other] => (charsOf? other).bind (f s.toList)
  | _ => none

/-- A function that changes a text. -/
def turning (f : List Char → List Char) : Native
  | [.text s] => becomes (chars (f s.toList))
  | _ => none

/-- A function on the letters of a text or of a character. -/
def onLetters (f : Char → List Char) : Native
  | [.text s] => gives (chars (s.toList.flatMap f))
  | [.char c] =>
    match f c with
    | [d] => gives (.char d)
    | _ => gives (.char c)
  | _ => none

/-- The functions that only look at a text. -/
def looking : Natives :=
  [("len", onText fun s => count s.length),
    ("is_empty", onText fun s => .bool s.isEmpty),
    ("bytes", fun
      | [.text s] => gives (count s.utf8ByteSize)
      | _ => none),
    ("chars", onText fun s => .list (s.map .char)),
    ("to_chars", onText fun s => .list (s.map .char)),
    ("contains", onTexts fun s other => gives (.bool (indexFrom other 0 s).isSome)),
    ("starts_with", onTexts fun s other => gives (.bool (other.isPrefixOf s))),
    ("ends_with", onTexts fun s other => gives (.bool (other.isSuffixOf s))),
    ("index_of", fun
      | [.text s, other] => (charsOf? other).bind fun other => gives (index s.toList other 0)
      | [.text s, other, .int start] => (charsOf? other).bind fun other =>
        gives (index s.toList other (nearPlace s.length start))
      | _ => none),
    ("sub_string", fun
      | [.text s, .int start] =>
        gives (chars (s.toList.drop (nearPlace s.length start)))
      | [.text s, .int start, .int length] =>
        let (first, length) := part s.length start length
        gives (chars ((s.toList.drop first).take length))
      | [.text s, .range first last closed] => gives (chars (slice s.toList first last closed))
      | _ => none),
    ("split", fun
      | [.text s] => gives (texts (words s.toList))
      | [.text s, .int place] =>
        let n := nearPlace s.length place
        gives (texts [s.toList.take n, s.toList.drop n])
      | [.text s, other] => (charsOf? other).bind fun other => gives (texts (split other s.toList))
      | _ => none),
    ("split_rev", onTexts fun s other => gives (texts (split other s).reverse)),
    ("get", fun
      | [.text s, .int place] =>
        gives (((place? s.length place).bind fun n => s.toList[n]?).elim .blank .char)
      | _ => none),
    ("to_upper", onLetters Letter.upper),
    ("to_lower", onLetters Letter.lower)]

def changing : Natives :=
  [("make_upper", turning fun s => s.flatMap Letter.upper),
    ("make_lower", turning fun s => s.flatMap Letter.lower),
    ("trim", turning Numbers.trimmed),
    ("clear", turning fun _ => []),
    ("append", onTexts fun s other => becomes (chars (s ++ other))),
    ("remove", onTexts fun s other => becomes (chars (replace other [] s))),
    ("replace", fun
      | [.text s, wanted, other] => do
        let wanted ← charsOf? wanted
        becomes (chars (replace wanted (← charsOf? other) s.toList))
      | _ => none),
    ("truncate", fun
      | [.text s, .int length] => becomes (chars (s.toList.take length.toInt.toNat))
      | _ => none),
    ("crop", fun
      | [.text s, .int start] => becomes (chars (s.toList.drop (nearPlace s.length start)))
      | [.text s, .int start, .int length] =>
        let (first, length) := part s.length start length
        becomes (chars ((s.toList.drop first).take length))
      | [.text s, .range first last closed] => becomes (chars (slice s.toList first last closed))
      | _ => none),
    ("pad", fun
      | [.text s, .int length, filler] => do
        becomes (chars (pad s.toList length.toInt.toNat (← charsOf? filler)))
      | _ => none),
    ("pop", fun
      | [.text s] =>
        turns (s.toList.getLast?.elim .blank .char) (chars s.toList.dropLast)
      | [.text s, .int length] =>
        let kept := s.length - min length.toInt.toNat s.length
        turns (chars (s.toList.drop kept)) (chars (s.toList.take kept))
      | _ => none),
    ("set", fun
      | [.text s, .int place, .char c] => becomes (chars (setChar s.toList place c))
      | _ => none)]

end SheetCipher.Script.Texts
