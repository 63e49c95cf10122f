import SheetCipher.Cipher.Trace
import SheetCipher.Eval.Grid
import SheetCipher.Layout.Run
import SheetCipher.Main
import SheetCipher.Proofs.Cipher.Drift
import SheetCipher.Proofs.Cipher.Key
import SheetCipher.Proofs.Cipher.Shape
import SheetCipher.Proofs.Cipher.Trace
import SheetCipher.Proofs.CommandLine.Program
import SheetCipher.Proofs.Draws.Choice
import SheetCipher.Proofs.Eval.Circle
import SheetCipher.Proofs.Eval.Coverage
import SheetCipher.Proofs.Eval.Failure
import SheetCipher.Proofs.Eval.Order
import SheetCipher.Proofs.Eval.Remainder
import SheetCipher.Proofs.Eval.Solution
import SheetCipher.Proofs.Layout.Compile
import SheetCipher.Proofs.Layout.Run
import SheetCipher.Proofs.Script.Formula
import SheetCipher.Proofs.Settings.Load
import SheetCipher.Proofs.Sheet.Address
import SheetCipher.Proofs.Sheet.Formula.Reading
import SheetCipher.Proofs.Sheet.Formula.Script
import SheetCipher.Proofs.Template.Attempts
import SheetCipher.Proofs.Template.Derive
import SheetCipher.Proofs.Template.Invertible
import SheetCipher.Proofs.Workbook.Assemble
import SheetCipher.Proofs.Workbook.Csv
import SheetCipher.Proofs.Workbook.Guard
import SheetCipher.Proofs.Workbook.Listing
import SheetCipher.Proofs.Workbook.Numbered
import SheetCipher.Proofs.Workbook.OutputFile
import SheetCipher.Proofs.Workbook.Placement
import SheetCipher.Settings.Load
import SheetCipher.Sheet.Formula.Script
import SheetCipher.Template.Derive
import SheetCipher.Template.Document
import SheetCipher.Template.Id
import SheetCipher.Workbook.Assemble
import SheetCipher.Workbook.Folder
import SheetCipher.Workbook.Listing
