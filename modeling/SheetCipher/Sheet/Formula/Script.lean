import SheetCipher.Sheet.Formula.Text

/-!
# Script — formulas as the evaluator reads them

The evaluator reads a form in which everything stands in parentheses and cells
are given by two numbers. `&` is written like `+`; quotes and backslashes of a
text are escaped. The name of a sheet stands between quotes as it is.
-/

namespace SheetCipher

namespace Operator

def scriptSign : Operator → String
  | add | concat => "+"
  | sub => "-"
  | eq => "=="
  | gt => ">"
  | ge => ">="
  | le => "<="

end Operator

namespace Formula

/-- The separator between arguments. -/
def scriptComma : List Char := [',', ' ']

/-- The sheet, the column and the rows of a block, as arguments. -/
def scriptBlock (b : ColumnBlock) : List Char :=
  '"' :: b.sheet.toList ++ '"' :: scriptComma ++ Decimal.digits b.col ++ scriptComma ++
    Decimal.digits b.firstRow ++ scriptComma ++ Decimal.digits b.lastRow

mutual

/-- The characters of a formula's script. -/
def scriptChars : Formula → List Char
  | text s => Quoted.escaped s.toList
  | int n => Decimal.ofInt n.toInt
  | cell ref _ =>
    "VALUE(".toList ++ Decimal.digits ref.col ++ scriptComma ++ Decimal.digits ref.row ++ [')']
  | call f args => f.name.toList ++ '(' :: scriptArgs scriptComma args ++ [')']
  | all args => '(' :: scriptArgs " && ".toList args ++ [')']
  | binary op lhs rhs =>
    '(' :: lhs.scriptChars ++ ' ' :: op.scriptSign.toList ++ ' ' :: rhs.scriptChars ++ [')']
  | cond condition thenForm elseForm =>
    "(if ".toList ++ condition.scriptChars ++ " \x7b ".toList ++ thenForm.scriptChars ++
      " \x7d else \x7b ".toList ++ elseForm.scriptChars ++ " \x7d)".toList
  | indirect col row =>
    "INDIRECT(".toList ++ Decimal.digits col ++ scriptComma ++ row.scriptChars ++ [')']
  | index block position =>
    "INDEX(".toList ++ scriptBlock block ++ scriptComma ++ position.scriptChars ++ [')']

/-- The scripts of arguments, a separator between each two. -/
def scriptArgs (separator : List Char) : List Formula → List Char
  | [] => []
  | [e] => e.scriptChars
  | e :: es => e.scriptChars ++ separator ++ scriptArgs separator es

end

/-- A formula as the evaluator reads it. -/
def script (e : Formula) : String := String.ofList e.scriptChars

end Formula

end SheetCipher
