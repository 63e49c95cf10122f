import SheetCipher.Eval.Fault

/-!
# Token — the pieces of a script

A script is a row of constants, names, words with a meaning of their own, and
signs. Some words and signs are kept for later use; some signs of other
languages are known only to give advice on what to write instead.
-/

namespace SheetCipher.Script

/-- A piece of a script. -/
inductive Token where
  /-- A constant; the unit, too, is one token. -/
  | constant (v : Value)
  /-- A piece of a text that goes on behind the block that follows. -/
  | piece (text : String)
  | name (word : String)
  /-- A word with a meaning of its own. -/
  | keyword (word : String)
  /-- An operator or a mark. -/
  | sign (text : String)
  /-- A word or sign that is kept for later use. -/
  | reserved (text : String)
  /-- Characters that make up no token. -/
  | flaw (fault : SyntaxFault)

namespace Token

/-- The signs behind which an operand cannot start. -/
def closingSigns : List String := [")", "]", "\x7d", ".", "?.", "=>", "::", "#\x7b"]

/-- The words behind which an operand may start. -/
def openingWords : List String := ["if", "while", "until", "in", "return", "throw"]

/-- Whether a sign behind the token stands between two operands rather than in
front of one. -/
def endsOperand : Token → Bool
  | sign text => text ∈ closingSigns
  | keyword word => word ∉ openingWords
  | _ => true

/-- The token as it is shown where it cannot stand. -/
def shown : Token → String
  | constant v => v.joined
  | piece text => text
  | name word | keyword word => word
  | sign text | reserved text => text
  | flaw fault => fault.phrase

def isSign (text : String) : Token → Bool
  | sign found => found == text
  | _ => false

/-- Whether a token is this word with a meaning of its own. -/
def isKeyword (word : String) : Token → Bool
  | keyword found => found == word
  | _ => false

def isUnit : Token → Bool
  | constant .blank => true
  | _ => false

end Token

/-! ## Tables -/

/-- The words with a meaning of their own. -/
def keywords : List String :=
  ["if", "else", "let", "const", "fn", "private", "while", "until", "loop", "for", "in", "do",
    "continue", "break", "return", "throw", "switch", "try", "catch", "import", "export", "as", "_"]

/-- The words kept for later use. -/
def reservedWords : List String :=
  ["var", "static", "shared", "goto", "match", "case", "public", "protected", "new", "use",
    "with", "is", "module", "package", "super", "thread", "spawn", "go", "sync", "await", "async",
    "yield", "default", "void", "null", "nil"]

/-- The reserved words that may be called. -/
def callableWords : List String :=
  ["print", "debug", "type_of", "eval", "Fn", "call", "curry", "is_def_var", "is_def_fn",
    "is_shared"]

/-- The reserved words that may be called behind a period. -/
def methodWords : List String := ["type_of", "call", "curry", "is_shared"]

def subjectWord : String := "this"

/-- The operators and marks, longer ones before those that they begin with. -/
def signs : List String :=
  ["**=", "<<=", ">>=", "..=",
    "+=", "-=", "*=", "/=", "%=", "&=", "|=", "^=", "==", "!=", "<=", ">=", "&&", "||", "**", "<<",
    ">>", "..", "=>", "::", "??", "?.", "?[", "#\x7b",
    "+", "-", "*", "/", "%", "&", "|", "^", "=", "!", "<", ">", "(", ")", "[", "]", "\x7b", "\x7d",
    ";", ",", ".", ":"]

/-- The signs kept for later use. -/
def reservedSigns : List String :=
  ["...", "++", "--", "#!", "<|", "|>", "!.", "#", "~", "@", "$", "?"]

/-- The signs of other languages, and the advice on what to write. -/
def foreignSigns : List (String × String) :=
  [("===", "'===' is not a valid operator. This is not JavaScript! Should it be '=='?"),
    ("!==", "'!==' is not a valid operator. This is not JavaScript! Should it be '!='?"),
    ("->", "'->' is not a valid symbol. This is not C or C++!"),
    ("<-", "'<-' is not a valid symbol. This is not Go! Should it be '<='?"),
    (":=", "':=' is not a valid assignment operator. This is not Go or Pascal! " ++
      "Should it be simply '='?"),
    (":;", "':;' is not a valid symbol. Should it be '::'?"),
    ("::<", "'::<>' is not a valid symbol. This is not Rust! Should it be '::'?"),
    ("(*", "'(* .. *)' is not a valid comment format. This is not Pascal! " ++
      "Should it be '/* .. */'?"),
    ("*)", "'(* .. *)' is not a valid comment format. This is not Pascal! " ++
      "Should it be '/* .. */'?"),
    ("# \x7b", "'#' is not a valid symbol. Should it be '#\x7b'?")]

end SheetCipher.Script
