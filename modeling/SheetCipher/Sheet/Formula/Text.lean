import SheetCipher.Sheet.Formula
import SheetCipher.Text.Quoted

/-!
# Text — formulas as they are typed into a sheet

A formula is written as a row of tokens. Comparisons bind loosest, then `&`,
then `+` and `-`; an operand gets parentheses when it binds looser than the
operator it belongs to, when it stands on the right of `-` or of a comparison
of the same strength, and on either side of a comparison when it is one itself.
-/

namespace SheetCipher

/-- A piece of formula text. -/
inductive Token where
  /-- A text in quotes. -/
  | text (s : String)
  | int (n : Int64)
  | cell (ref : CellRef) (anchor : Anchor)
  /-- The name of a function. -/
  | name (word : String)
  | block (b : ColumnBlock)
  | operator (op : Operator)
  | openParen
  | closeParen
  | comma
deriving DecidableEq

namespace Builtin

/-- The name a function is called by. -/
def name : Builtin → String
  | mid => "MID"
  | code => "CODE"
  | char => "CHAR"
  | mod => "MOD"
  | len => "LEN"
  | min => "MIN"

end Builtin

namespace Operator

/-- How tightly an operator binds. -/
def strength : Operator → Nat
  | eq | gt | ge | le => 1
  | concat => 2
  | add | sub => 3

/-- Whether a right operand of the same strength may stand without
parentheses. -/
def isAssociative : Operator → Bool
  | add | concat => true
  | sub | eq | gt | ge | le => false

def sign : Operator → String
  | add => "+"
  | sub => "-"
  | concat => "&"
  | eq => "="
  | gt => ">"
  | ge => ">="
  | le => "<="

end Operator

namespace ColumnBlock

/-- The sheet and the two corners of a block. -/
def chars (b : ColumnBlock) : List Char :=
  b.sheet.toList ++ '!' :: CellRef.chars ⟨b.col, b.firstRow⟩ .absolute ++
    ':' :: CellRef.chars ⟨b.col, b.lastRow⟩ .absolute

end ColumnBlock

namespace Token

def chars : Token → List Char
  | text s => Quoted.doubled s.toList
  | int n => Decimal.ofInt n.toInt
  | cell ref anchor => ref.chars anchor
  | name word => word.toList
  | block b => b.chars
  | operator op => ' ' :: op.sign.toList ++ [' ']
  | openParen => ['(']
  | closeParen => [')']
  | comma => [',', ' ']

end Token

namespace Formula

/-- Whether an operand of `parent` stands in parentheses. -/
def isWrapped (parent : Operator) (onRight : Bool) : Formula → Bool
  | binary op _ _ =>
    op.strength < parent.strength ||
      (op.strength == parent.strength &&
        ((onRight && !parent.isAssociative) || parent.strength == 1))
  | _ => false

def inParens (tokens : List Token) : List Token := .openParen :: tokens ++ [.closeParen]

mutual

def tokens : Formula → List Token
  | text s => [.text s]
  | int n => [.int n]
  | cell ref anchor => [.cell ref anchor]
  | call f args => .name f.name :: inParens (argTokens args)
  | all args => .name "AND" :: inParens (argTokens args)
  | binary op lhs rhs =>
    (if lhs.isWrapped op false then inParens lhs.tokens else lhs.tokens) ++ .operator op ::
      (if rhs.isWrapped op true then inParens rhs.tokens else rhs.tokens)
  | cond condition thenForm elseForm =>
    .name "IF" ::
      inParens (condition.tokens ++ .comma :: thenForm.tokens ++ .comma :: elseForm.tokens)
  | indirect col row =>
    .name "INDIRECT" ::
      inParens (.text (CellRef.columnText col) :: .operator .concat :: inParens row.tokens)
  | index block position =>
    .name "INDEX" :: inParens (.block block :: .comma :: position.tokens)

/-- The tokens of arguments, a comma between each two. -/
def argTokens : List Formula → List Token
  | [] => []
  | [e] => e.tokens
  | e :: es => e.tokens ++ .comma :: argTokens es

end

def chars (e : Formula) : List Char := e.tokens.flatMap Token.chars

/-- A formula as it is typed, without the leading `=`. -/
def sheetText (e : Formula) : String := String.ofList e.chars

/-- Whether all rows that the text of a formula names are numbered. -/
def isNumbered (e : Formula) : Bool :=
  e.cells.all (fun ref => CellRef.rowIsNumbered ref.row) &&
    e.blocks.all fun block =>
      CellRef.rowIsNumbered block.firstRow && CellRef.rowIsNumbered block.lastRow

/-- A formula as it is shown, without the leading `=`, if all its rows are
numbered. -/
def shown (e : Formula) : Except Overrun String :=
  if e.isNumbered then .ok e.sheetText else .error .sum

end Formula

end SheetCipher
