import SheetCipher.Proofs.Eval.Builtin

/-!
# Block — look-ups in a block of another sheet

What stands at a place of a block is said in integers by `entry?`. A look-up
works the row out in words first and looks at the bounds of the block then. As
long as the words hold the row it finds this entry. In wrapping arithmetic it
never finds anything else: a row that went round is negative, and there is no
cell (`index_reads_block`).
-/

namespace SheetCipher

namespace Sheets

/-- What stands at a place of a block of another sheet. Places count from 1, rows
go from `firstRow` to `lastRow`, and all of them are integers. -/
def entry? (sheets : Sheets) (sheet : String) (col firstRow lastRow position : Int) :
    Option Value :=
  let row := firstRow + position - 1
  if 1 ≤ position ∧ 0 ≤ col ∧ 0 ≤ row ∧ row ≤ lastRow then
    (sheets.find? sheet).bind fun values => values[(⟨col.toNat, row.toNat⟩ : CellRef)]?
  else none

variable {sheets : Sheets} {sheet : String} {col firstRow lastRow position behind row : Int64}
  {arithmetic : Word.Arithmetic}

theorem indexAt_of_row (hadd : Word.add firstRow position arithmetic = .ok behind)
    (hsub : Word.sub behind 1 arithmetic = .ok row) :
    sheets.indexAt sheet col firstRow lastRow position arithmetic =
      .ok (if position < 1 ∨ lastRow < row then .text ""
        else ((sheets.find? sheet).map fun values => values.readAt col row).getD (.text "")) := by
  rw [indexAt, hadd]
  change (Word.sub behind 1 arithmetic >>= fun row => _) = _
  rw [hsub]
  change (if position < 1 ∨ lastRow < row then _ else _) = _
  split
  · rfl
  · cases sheets.find? sheet <;> rfl

/-- A row finds the entry if it is the one in integers, and also if it is negative
while that one lies behind all words. -/
theorem indexAt_eq_entry (hadd : Word.add firstRow position arithmetic = .ok behind)
    (hsub : Word.sub behind 1 arithmetic = .ok row)
    (hrow : 1 ≤ position.toInt → row.toInt = firstRow.toInt + position.toInt - 1 ∨
      row.toInt < 0 ∧ 0x8000000000000000 ≤ firstRow.toInt + position.toInt - 1) :
    sheets.indexAt sheet col firstRow lastRow position arithmetic =
      .ok ((sheets.entry? sheet col.toInt firstRow.toInt lastRow.toInt position.toInt).getD
        (.text "")) := by
  have hlast := lastRow.toInt_lt
  rw [indexAt_of_row hadd hsub, entry?]
  simp only [Values.readAt, Int64.lt_iff_toInt_lt, Int64.toInt_one, Int64.toInt_zero]
  congr 1
  by_cases hinside : 1 ≤ position.toInt ∧ 0 ≤ col.toInt ∧
      0 ≤ firstRow.toInt + position.toInt - 1 ∧ firstRow.toInt + position.toInt - 1 ≤ lastRow.toInt
  · -- the bound of the block is a word, so that the row is not behind all words
    have hexact : row.toInt = firstRow.toInt + position.toInt - 1 :=
      (hrow hinside.1).resolve_right (by omega)
    rw [if_pos hinside, if_neg (by omega), ← hexact]
    cases sheets.find? sheet with
    | none => rfl
    | some values => exact if_neg (by omega)
  · rw [if_neg hinside]
    split
    · rfl
    · have hnegative : col.toInt < 0 ∨ row.toInt < 0 := by
        have := hrow (by omega)
        omega
      cases sheets.find? sheet with
      | none => rfl
      | some values => exact if_pos hnegative

/-- In words that hold the row a look-up finds the entry. -/
theorem indexAt_of_fits (hbehind : Word.fits (firstRow.toInt + position.toInt) = true)
    (hfits : Word.fits (firstRow.toInt + position.toInt - 1) = true) :
    sheets.indexAt sheet col firstRow lastRow position =
      .ok ((sheets.entry? sheet col.toInt firstRow.toInt lastRow.toInt position.toInt).getD
        (.text "")) := by
  obtain ⟨behind, hadd, hval⟩ := Word.exists_ofInt .sum hbehind
  obtain ⟨row, hsub, hvalrow⟩ := Word.exists_ofInt .difference
    (n := behind.toInt - (1 : Int64).toInt) (by rwa [hval, Int64.toInt_one])
  exact indexAt_eq_entry hadd hsub fun _ => .inl (by rw [hvalrow, hval, Int64.toInt_one])

theorem indexAt_of_not_fits (hbehind : ¬ Word.fits (firstRow.toInt + position.toInt) = true) :
    sheets.indexAt sheet col firstRow lastRow position = .error .sum := by
  have hadd : Word.add firstRow position = .error .sum := Word.ofInt_eq_error hbehind
  rw [indexAt, hadd]
  rfl

theorem indexAt_of_not_fits_row (hbehind : Word.fits (firstRow.toInt + position.toInt) = true)
    (hfits : ¬ Word.fits (firstRow.toInt + position.toInt - 1) = true) :
    sheets.indexAt sheet col firstRow lastRow position = .error .difference := by
  obtain ⟨behind, hadd, hval⟩ := Word.exists_ofInt .sum hbehind
  have hadd : Word.add firstRow position = .ok behind := hadd
  have hsub : Word.sub behind 1 = .error .difference :=
    Word.ofInt_eq_error (by rwa [hval, Int64.toInt_one])
  rw [indexAt, hadd]
  change (Word.sub behind 1 >>= fun row => _) = _
  rw [hsub]
  rfl

/-- In words that go round a look-up finds the entry. -/
theorem indexAt_wrapping (sheets : Sheets) (sheet : String)
    (col firstRow lastRow position : Int64) :
    sheets.indexAt sheet col firstRow lastRow position .wrapping =
      .ok ((sheets.entry? sheet col.toInt firstRow.toInt lastRow.toInt position.toInt).getD
        (.text "")) := by
  have hlow := firstRow.le_toInt
  have hhigh := firstRow.toInt_lt
  have hword := position.toInt_lt
  refine indexAt_eq_entry (Word.ofInt_wrapping ..) (Word.ofInt_wrapping ..) fun hposition => ?_
  -- two steps round are the one by their sum
  rw [Int64.toInt_one, Int64.ofInt_sub, Int64.ofInt_toInt, ← Int64.ofInt_sub]
  by_cases hfits : firstRow.toInt + position.toInt - 1 < 0x8000000000000000
  · exact .inl (Int64.toInt_ofInt_of_le (by omega) (by omega))
  · refine .inr ⟨?_, by omega⟩
    rw [Word.toInt_ofInt_of_ge (by omega) (by omega)]
    simp only [Word.count]
    omega

/-- A place inside a block is read from its row. -/
theorem indexAt_eq_ok {values : Values} (hsheet : sheets.find? sheet = some values)
    {ref : CellRef} (hcol : col.toInt = ref.col) (hposition : 1 ≤ position.toInt)
    (hrow : firstRow.toInt + position.toInt = ref.row + 1) (hlast : ref.row ≤ lastRow.toInt)
    (hbound : ref.row < 0x100000000) :
    sheets.indexAt sheet col firstRow lastRow position = .ok (values.read ref) := by
  rw [indexAt_of_fits (Word.fits_iff.2 (by omega)) (Word.fits_iff.2 (by omega)), entry?,
    if_pos (by omega), hsheet, hcol, show firstRow.toInt + position.toInt - 1 = ref.row by omega]
  rfl

end Sheets

/-- **A look-up never leaves its block.** In wrapping arithmetic it finds the entry
that stands at its place in integers, and the empty text where there is none,
however the row goes round. Checked arithmetic finds the same, or reports that
the row or the number behind it is no word. -/
theorem Callee.index_reads_block (sheets : Sheets) (values : Values) (sheet : String)
    (col firstRow lastRow position : Int64) :
    sheets.indexAt sheet col firstRow lastRow position .wrapping =
        .ok ((sheets.entry? sheet col.toInt firstRow.toInt lastRow.toInt position.toInt).getD
          (.text "")) ∧
      index.apply sheets values
          [.text sheet, .int col, .int firstRow, .int lastRow, .int position] =
        if Word.fits (firstRow.toInt + position.toInt) then
          if Word.fits (firstRow.toInt + position.toInt - 1) then
            .ok ((sheets.entry? sheet col.toInt firstRow.toInt lastRow.toInt position.toInt).getD
              (.text ""))
          else .error (.overrun .difference)
        else .error (.overrun .sum) := by
  refine ⟨Sheets.indexAt_wrapping .., ?_⟩
  change inWords (sheets.indexAt sheet col firstRow lastRow position) = _
  split
  · rename_i hbehind
    split
    · rename_i hfits
      rw [Sheets.indexAt_of_fits hbehind hfits]
      rfl
    · rename_i hfits
      rw [Sheets.indexAt_of_not_fits_row hbehind hfits]
      rfl
  · rename_i hbehind
    rw [Sheets.indexAt_of_not_fits hbehind]
    rfl

end SheetCipher
