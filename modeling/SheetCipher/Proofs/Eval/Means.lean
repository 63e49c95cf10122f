import SheetCipher.Proofs.Eval.Block
import SheetCipher.Proofs.Eval.Meaning
import SheetCipher.Layout.StageFormula

/-!
# Means — formulas of known parts

What a formula comes to follows from what its parts come to. A formula is a
number, a text or a truth value here: `IsNumber`, `IsText` and `IsTruth` say
which one, and each way to build a formula has a lemma in these terms. Numbers
are exact, and texts are lists of characters.
-/

namespace SheetCipher

namespace Formula

/-- A formula comes to a number. -/
def IsNumber (sheets : Sheets) (values : Values) (e : Formula) (n : Int) : Prop :=
  ∃ w : Int64, e.meaning sheets values = .ok (.int w) ∧ w.toInt = n

/-- A formula comes to a text. -/
def IsText (sheets : Sheets) (values : Values) (e : Formula) (s : List Char) : Prop :=
  e.meaning sheets values = .ok (.text (String.ofList s))

/-- A formula comes to a truth value. -/
def IsTruth (sheets : Sheets) (values : Values) (e : Formula) (b : Bool) : Prop :=
  e.meaning sheets values = .ok (.bool b)

variable {sheets : Sheets} {values : Values} {a b c e : Formula}

/-! ## Operators and choices -/

theorem meaning_binary {op : Operator} {v w : Value} (ha : a.meaning sheets values = .ok v)
    (hb : b.meaning sheets values = .ok w) :
    (binary op a b).meaning sheets values = op.onValues.apply v w := by
  rw [meaning, ha, hb]
  rfl

theorem meaning_cond {truth : Bool} (h : IsTruth sheets values c truth) :
    (cond c a b).meaning sheets values =
      if truth then a.meaning sheets values else b.meaning sheets values := by
  rw [meaning, h]
  rfl

theorem isNumber_int (w : Int64) : IsNumber sheets values (int w) w.toInt := ⟨w, rfl, rfl⟩

theorem isNumber_number {n : Nat} (h : n ≤ Word.largest) : IsNumber sheets values (number n) n :=
  ⟨_, rfl, Word.toInt_ofNat h⟩

theorem isText_empty : IsText sheets values (text "") [] := rfl

/-- Sums and differences are checked, so that those that are words are
exact. -/
theorem isNumber_checked {op : Operator} {m n result : Int}
    (hop : ∀ x y : Int64, x.toInt = m → y.toInt = n →
      op.onValues.apply (.int x) (.int y) = op.onValues.checked x y result)
    (ha : IsNumber sheets values a m) (hb : IsNumber sheets values b n)
    (h : Word.fits result = true) : IsNumber sheets values (binary op a b) result := by
  obtain ⟨x, hx, hm⟩ := ha
  obtain ⟨y, hy, hn⟩ := hb
  have hfits := Word.fits_iff.1 h
  refine ⟨Int64.ofInt result, ?_, Int64.toInt_ofInt_of_le hfits.1 hfits.2⟩
  rw [meaning_binary hx hy, hop x y hm hn]
  exact if_pos h

theorem IsNumber.add {m n : Int} (ha : IsNumber sheets values a m)
    (hb : IsNumber sheets values b n)
    (h : -0x8000000000000000 ≤ m + n ∧ m + n < 0x8000000000000000) :
    IsNumber sheets values (a + b) (m + n) :=
  isNumber_checked (fun _ _ hm hn => by rw [← hm, ← hn]; rfl) ha hb (Word.fits_iff.2 h)

theorem IsNumber.sub {m n : Int} (ha : IsNumber sheets values a m)
    (hb : IsNumber sheets values b n)
    (h : -0x8000000000000000 ≤ m - n ∧ m - n < 0x8000000000000000) :
    IsNumber sheets values (a - b) (m - n) :=
  isNumber_checked (fun _ _ hm hn => by rw [← hm, ← hn]; rfl) ha hb (Word.fits_iff.2 h)

theorem IsText.joined {s t : List Char} (ha : IsText sheets values a s)
    (hb : IsText sheets values b t) : IsText sheets values (joined a b) (s ++ t) := by
  rw [IsText, Formula.joined, meaning_binary ha hb, String.ofList_append]
  rfl

theorem IsNumber.ge {m n : Int} (ha : IsNumber sheets values a m)
    (hb : IsNumber sheets values b n) :
    IsTruth sheets values (binary .ge a b) (decide (n ≤ m)) := by
  obtain ⟨x, hx, rfl⟩ := ha
  obtain ⟨y, hy, rfl⟩ := hb
  rw [IsTruth, meaning_binary hx hy]
  simp only [← Int64.le_iff_toInt_le]
  rfl

theorem IsNumber.le {m n : Int} (ha : IsNumber sheets values a m)
    (hb : IsNumber sheets values b n) :
    IsTruth sheets values (binary .le a b) (decide (m ≤ n)) := by
  obtain ⟨x, hx, rfl⟩ := ha
  obtain ⟨y, hy, rfl⟩ := hb
  rw [IsTruth, meaning_binary hx hy]
  simp only [← Int64.le_iff_toInt_le]
  rfl

theorem IsNumber.gt {m n : Int} (ha : IsNumber sheets values a m)
    (hb : IsNumber sheets values b n) :
    IsTruth sheets values (binary .gt a b) (decide (n < m)) := by
  obtain ⟨x, hx, rfl⟩ := ha
  obtain ⟨y, hy, rfl⟩ := hb
  rw [IsTruth, meaning_binary hx hy]
  simp only [← Int64.lt_iff_toInt_lt]
  rfl

theorem IsText.isEmpty {s : List Char} (ha : IsText sheets values a s) :
    IsTruth sheets values (binary .eq a (text "")) s.isEmpty := by
  have hcompare : (compare s ([] : List Char)).isEq = s.isEmpty := by
    cases s <;> rfl
  rw [IsTruth, meaning_binary ha isText_empty, ← hcompare]
  change Except.ok (Value.bool
    (compare (String.ofList s).toList (String.ofList []).toList).isEq) = _
  rw [String.toList_ofList, String.toList_ofList]

theorem IsTruth.both {p q : Bool} (ha : IsTruth sheets values a p)
    (hb : IsTruth sheets values b q) : IsTruth sheets values (all [a, b]) (p && q) := by
  rw [IsTruth, meaning, ha]
  cases p with
  | false => rfl
  | true =>
      change (holdEach sheets values [b] >>= fun b => Except.ok (Value.bool b)) = _
      rw [holdEach, hb]
      cases q <;> rfl

/-! ## Calls -/

theorem meaning_call_one {f : Builtin} {v : Value} (ha : a.meaning sheets values = .ok v) :
    (call f [a]).meaning sheets values = f.apply [v] := by
  rw [meaning, meanings, meanings, ha]
  rfl

theorem meaning_call_two {f : Builtin} {v w : Value} (ha : a.meaning sheets values = .ok v)
    (hb : b.meaning sheets values = .ok w) :
    (call f [a, b]).meaning sheets values = f.apply [v, w] := by
  rw [meaning, meanings, meanings, meanings, ha, hb]
  rfl

theorem meaning_call_three {f : Builtin} {u v w : Value} (ha : a.meaning sheets values = .ok u)
    (hb : b.meaning sheets values = .ok v) (hc : c.meaning sheets values = .ok w) :
    (call f [a, b, c]).meaning sheets values = f.apply [u, v, w] := by
  rw [meaning, meanings, meanings, meanings, meanings, ha, hb, hc]
  rfl

/-- One character of a text, or none behind its end. -/
theorem IsText.mid_one {s : List Char} (ha : IsText sheets values a s) {i : Nat}
    (hb : IsNumber sheets values b (i + 1)) :
    IsText sheets values (call .mid [a, b, number 1]) s[i]?.toList := by
  obtain ⟨start, hstart, hval⟩ := hb
  have hone : (number 1).meaning sheets values = .ok (.int 1) := rfl
  rw [IsText, meaning_call_three ha hstart hone]
  change Except.ok (Value.text (Builtin.midText (String.ofList s) start 1)) = _
  rw [Builtin.midText_one _ hval, String.toList_ofList]

theorem IsText.lengthOf {s : List Char} (ha : IsText sheets values a s) :
    IsNumber sheets values (lengthOf a) (min s.length Word.largest : Nat) := by
  refine ⟨_, meaning_call_one ha, ?_⟩
  rw [Builtin.toInt_lenText, String.toList_ofList]

theorem IsText.codeOf {c : Char} (ha : IsText sheets values a [c]) :
    IsNumber sheets values (codeOf a) c.toNat :=
  ⟨_, meaning_call_one ha, Builtin.toInt_codeText c⟩

theorem IsNumber.char {c : Char} (ha : IsNumber sheets values a c.toNat) :
    IsText sheets values (call .char [a]) [c] := by
  obtain ⟨code, hcode, hval⟩ := ha
  rw [IsText, meaning_call_one hcode, ← Builtin.charText_toNat c hval]
  rfl

theorem IsNumber.mod {m n : Int} (ha : IsNumber sheets values a m)
    (hb : IsNumber sheets values b n) (h : 0 < n) :
    IsNumber sheets values (call .mod [a, b]) (m % n) := by
  obtain ⟨x, hx, rfl⟩ := ha
  obtain ⟨y, hy, rfl⟩ := hb
  obtain ⟨r, hr, hval⟩ := Builtin.floorMod_of_pos x h
  refine ⟨r, ?_, hval⟩
  rw [meaning_call_two hx hy]
  change (Builtin.floorMod x y).map Value.int = _
  rw [hr]
  rfl

theorem IsNumber.min {m n : Int} (ha : IsNumber sheets values a m)
    (hb : IsNumber sheets values b n) :
    IsNumber sheets values (call .min [a, b]) (min m n) := by
  obtain ⟨x, hx, rfl⟩ := ha
  obtain ⟨y, hy, rfl⟩ := hb
  exact ⟨_, meaning_call_two hx hy, Word.toInt_min x y⟩

/-! ## References -/

theorem meaning_cell {ref : CellRef} (hcol : ref.col ≤ Word.largest)
    (hrow : ref.row ≤ Word.largest) (anchor : Anchor) :
    (cell ref anchor).meaning sheets values = .ok (values.read ref) := by
  obtain ⟨col, hofcol, hvalcol⟩ := Value.exists_ofInt hcol
  obtain ⟨row, hofrow, hvalrow⟩ := Value.exists_ofInt hrow
  rw [meaning, hofcol, hofrow, ← values.readAt_eq_read hvalcol hvalrow]
  rfl

theorem meaning_indirect (ref : CellRef) (hcol : ref.col ≤ Word.largest)
    (hrow : IsNumber sheets values e (ref.row + 1)) :
    (indirect ref.col e).meaning sheets values = .ok (values.read ref) := by
  obtain ⟨col, hofcol, hvalcol⟩ := Value.exists_ofInt hcol
  obtain ⟨behind, hbehind, hval⟩ := hrow
  -- rows are counted from 1 in a formula and from 0 on the sheet
  have hone := Int64.toInt_one
  have hword := behind.toInt_lt
  obtain ⟨row, hsub, hvalrow⟩ := Word.exists_ofInt .difference
    (n := behind.toInt - (1 : Int64).toInt) (Word.fits_iff.2 (by omega))
  have hsub : Word.sub behind 1 = .ok row := hsub
  rw [meaning, hbehind, hofcol]
  change (Callee.inWords (Word.sub behind 1) >>= fun row =>
    Except.ok (values.readAt col row)) = _
  rw [hsub, ← values.readAt_eq_read hvalcol (by omega : row.toInt = ref.row)]
  rfl

theorem meaning_index (block : ColumnBlock) {others : Values} {position : Nat}
    (hsheet : sheets.find? block.sheet = some others) (hcol : block.col < 0x100000000)
    (hlast : block.lastRow < 0x100000000) (hplace : block.firstRow + position ≤ block.lastRow)
    (he : IsNumber sheets values e (position + 1)) :
    (index block e).meaning sheets values =
      .ok (others.read ⟨block.col, block.firstRow + position⟩) := by
  have hfirst : block.firstRow < 0x100000000 := by omega
  obtain ⟨col, hofcol, hvalcol⟩ := Value.exists_ofInt (Word.le_largest hcol)
  obtain ⟨first, hoffirst, hvalfirst⟩ := Value.exists_ofInt (Word.le_largest hfirst)
  obtain ⟨last, hoflast, hvallast⟩ := Value.exists_ofInt (Word.le_largest hlast)
  obtain ⟨place, hplacemeans, hval⟩ := he
  have hentry : sheets.indexAt block.sheet col first last place =
      .ok (others.read ⟨block.col, block.firstRow + position⟩) := by
    refine Sheets.indexAt_eq_ok hsheet hvalcol (by omega) ?_ ?_ ?_ <;> simp only <;> omega
  rw [meaning, hplacemeans, hofcol, hoffirst, hoflast]
  change Callee.inWords (sheets.indexAt block.sheet col first last place) = _
  rw [hentry]
  rfl

end Formula

end SheetCipher
