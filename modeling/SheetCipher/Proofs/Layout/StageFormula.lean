import SheetCipher.Proofs.Eval.Means
import SheetCipher.Proofs.Layout.KeyMap

/-!
# StageFormula — what the formulas of one position come to

Each formula of a row does to the character at its position what the stage
does to the text. Where there is no character the formulas show the empty text
and go on showing it.
-/

namespace SheetCipher

namespace Formula

/-- Row `row` is that of the place `i`, counted from 0, and says so in
column A. -/
structure IsRowOf (values : Values) (row i : Nat) : Prop where
  shown : values.read ⟨0, row⟩ = .int (Int64.ofNat (i + 1))
  le : i ≤ row
  bound : row < 0x100000000

variable {sheets : Sheets} {values : Values} {password text : String} {mode : Mode}
  {row i capacity : Nat} {e : Formula}

/-! ## Positions, inputs and key codes -/

theorem IsRowOf.isNumber (h : IsRowOf values row i) :
    IsNumber sheets values (position row) (i + 1) := by
  have hbound := h.bound
  have hle := h.le
  refine ⟨Int64.ofNat (i + 1), ?_, ?_⟩
  · rw [position, meaning_cell (Nat.zero_le _) (Word.le_largest hbound), h.shown]
  · rw [Word.toInt_ofNat (by simp only [Word.largest]; omega)]
    rfl

theorem isText_input (sheets : Sheets) (h : values.read (InputCell.ofMode mode) = .text text) :
    IsText sheets values (input mode) text.toList := by
  rw [IsText, input, meaning_cell (by cases mode <;> decide) (by cases mode <;> decide), h,
    String.ofList_toList]

theorem isText_key (sheets : Sheets) (h : values.read InputCell.password = .text password) :
    IsText sheets values key (PasswordKey.ofPassword password).letters := by
  refine IsText.joined ?_ rfl
  rw [IsText, meaning_cell (by decide) (by decide), h, String.ofList_toList]

theorem isText_explode (sheets : Sheets) (hrow : IsRowOf values row i)
    (h : values.read (InputCell.ofMode mode) = .text text) :
    IsText sheets values (explode mode row) text.toList[i]?.toList :=
  (isText_input sheets h).mid_one hrow.isNumber

/-- The length of the text as it is cut. -/
theorem isNumber_filled (hcapacity : capacity < 0x100000000)
    (h : values.read (InputCell.ofMode mode) = .text text) :
    IsNumber sheets values (filled mode capacity) (text.toList.take capacity).length := by
  have hfilled := ((isText_input sheets h).lengthOf).min
    (isNumber_number (Word.le_largest hcapacity))
  rw [List.length_take]
  simp only [Word.largest] at hfilled
  rwa [show ((min capacity text.toList.length : Nat) : Int) =
    min ((min text.toList.length 0x7fffffffffffffff : Nat) : Int) capacity by omega]

/-- A key that is longer than the largest word never starts over. -/
theorem mod_min_largest {length : Nat} (h : i < 0x100000000) :
    i % min length Word.largest = i % length := by
  simp only [Word.largest]
  rcases Nat.le_total length 0x7fffffffffffffff with hshort | hlong
  · rw [Nat.min_eq_left hshort]
  · rw [Nat.min_eq_right hlong, Nat.mod_eq_of_lt (by omega), Nat.mod_eq_of_lt (by omega)]

/-- **The key code of a row is that of its position.** -/
theorem isNumber_keyCode (sheets : Sheets) (hrow : IsRowOf values row i)
    (h : values.read InputCell.password = .text password) :
    IsNumber sheets values (keyCode row)
      ((PasswordKey.ofPassword password).letterAt (i + 1)).toNat := by
  have hbound := hrow.bound
  have hle := hrow.le
  have hone : IsNumber sheets values (number 1) 1 := isNumber_number (by decide)
  have hkey := isText_key sheets h
  have hpos := PasswordKey.length_letters_pos password
  generalize hletters : (PasswordKey.ofPassword password).letters = letters at hkey hpos
  have hplace : IsNumber sheets values
      (.call .mod [position row - number 1, lengthOf key] + number 1)
      ((i % letters.length : Nat) + 1) := by
    -- the place among the letters of the key starts over behind the last one
    have hmod := (hrow.isNumber.sub hone (by omega)).mod hkey.lengthOf
      (by simp only [Word.largest]; omega)
    rw [Int.add_sub_cancel, ← Int.natCast_emod, mod_min_largest (by omega)] at hmod
    have hlt := Nat.mod_lt i hpos
    have hlei := Nat.mod_le i letters.length
    exact hmod.add hone (by omega)
  have hmid := hkey.mid_one hplace
  rw [← hletters, PasswordKey.getElem?_letters] at hmid
  exact hmid.codeOf

/-! ## Letters by case -/

theorem isTruth_isOfCase {c : Char} (he : IsText sheets values e [c]) (k : LetterCase) :
    IsTruth sheets values (isOfCase e k) (decide (LetterCase.ofChar? c = some k)) := by
  have hlow : IsNumber sheets values (number k.base) k.base :=
    isNumber_number (by cases k <;> decide)
  have hhigh : IsNumber sheets values (number (k.base + alphabetSize - 1))
      (k.base + alphabetSize - 1 : Nat) :=
    isNumber_number (by cases k <;> decide)
  have hboth := (he.codeOf.ge hlow).both (he.codeOf.le hhigh)
  rw [← Bool.decide_and] at hboth
  have hiff : LetterCase.ofChar? c = some k ↔
      (k.base : Int) ≤ c.toNat ∧ (c.toNat : Int) ≤ (k.base + alphabetSize - 1 : Nat) := by
    rw [LetterCase.ofChar?_eq_some_iff]
    simp only [alphabetSize]
    omega
  rw [decide_eq_decide.2 hiff]
  exact hboth

/-- Where each case is changed as `f` says, and `f` changes letters only, the
character is changed as `f` says. -/
theorem IsText.byCase {o : Option Char} (he : IsText sheets values e o.toList)
    {changed : LetterCase → Formula} {f : Char → Char}
    (hletter : ∀ c k, IsText sheets values e [c] → LetterCase.ofChar? c = some k →
      IsText sheets values (changed k) [f c])
    (hother : ∀ c, LetterCase.ofChar? c = none → f c = c) :
    IsText sheets values (byCase e changed) (o.map f).toList := by
  rw [IsText, Formula.byCase, meaning_cond he.isEmpty]
  cases o with
  | none => rfl
  | some c =>
      -- the outer condition asks for an upper letter, the inner one for a lower letter
      have hupper := isTruth_isOfCase he .upper
      have hlower := isTruth_isOfCase he .lower
      change (cond _ _ _).meaning sheets values = _
      rw [meaning_cond hupper]
      cases hc : LetterCase.ofChar? c with
      | none =>
          simp only [hc, reduceCtorEq, decide_false, Bool.false_eq_true, if_false]
            at hupper hlower ⊢
          rw [meaning_cond hlower]
          change e.meaning sheets values = _
          rw [he, Option.map_some, hother c hc]
      | some k =>
          have hchanged := hletter c k he hc
          cases k with
          | upper =>
              simp only [decide_true, if_true]
              exact hchanged
          | lower =>
              simp only [hc, Option.some.injEq, reduceCtorEq, decide_false, decide_true,
                Bool.false_eq_true, if_false] at hupper hlower ⊢
              rw [meaning_cond hlower]
              exact hchanged

/-! ## The formulas of the operations -/

theorem isNumber_index {c : Char} (he : IsText sheets values e [c]) {k : LetterCase}
    (hc : LetterCase.ofChar? c = some k) :
    IsNumber sheets values (codeOf e - number k.base) (c.toNat - k.base : Nat) := by
  have hcode := Char.toNat_lt_codes c
  have hle := (LetterCase.ofChar?_eq_some_iff.1 hc).1
  rw [Int.ofNat_sub hle]
  exact he.codeOf.sub (isNumber_number (Word.le_largest (by omega))) (by omega)

theorem IsNumber.moved {index code : Nat} {shift : Int64}
    (he : IsNumber sheets values e index) (hcode : IsNumber sheets values (keyCode row) code)
    (hindex : index < 0x100000000) (hlt : code < 0x100000000)
    (hshift : 0 ≤ shift.toInt ∧ shift.toInt ≤ 25) (direction : Direction) :
    IsNumber sheets values (moved direction shift row e)
      (index + direction.sign * (shift.toInt + code)) := by
  cases direction with
  | forward =>
      rw [Direction.sign, Int.one_mul, ← Int.add_assoc]
      exact (he.add (isNumber_int shift) (by omega)).add hcode (by omega)
  | inverse =>
      rw [Direction.sign, Int.neg_mul, Int.one_mul, ← Int.sub_eq_add_neg, ← Int.sub_sub]
      exact (he.sub (isNumber_int shift) (by omega)).sub hcode (by omega)

/-- The letter of a moved index is the letter turned. -/
theorem IsNumber.turned_letter {j : Nat} {amount : Int} (k : LetterCase)
    (he : IsNumber sheets values e (j + amount)) (hj : j < alphabetSize) :
    IsText sheets values (.call .char [.call .mod [e, number alphabetSize] + number k.base])
      [turn (k.letter j) amount] := by
  have hbase : IsNumber sheets values (number k.base) k.base :=
    isNumber_number (by cases k <;> decide)
  have hmod := he.mod (isNumber_number (n := alphabetSize) (by decide)) (by decide)
  have hlow := Int.emod_nonneg (j + amount) (by decide : (alphabetSize : Int) ≠ 0)
  have hhigh := toNat_emod_lt (j + amount)
  have hlt := k.base_add_lt hhigh
  rw [turn_letter k hj]
  refine IsNumber.char ?_
  rw [LetterCase.toNat_letter k hhigh, Int.natCast_add, Int.toNat_of_nonneg hlow,
    Int.add_comm (k.base : Int)]
  exact hmod.add hbase (by omega)

/-- **A keyed formula turns the letter** by the shift and the key code of its
row. -/
theorem IsText.rotated {o : Option Char} (he : IsText sheets values e o.toList)
    (hrow : IsRowOf values row i) (h : values.read InputCell.password = .text password)
    {shift : Int64} (hshift : 0 ≤ shift.toInt ∧ shift.toInt ≤ 25) (direction : Direction) :
    IsText sheets values (rotated direction shift row e)
      (o.map fun c => turn c (direction.sign *
        (shift.toInt + ((PasswordKey.ofPassword password).letterAt (i + 1)).toNat))).toList := by
  have hcode := isNumber_keyCode sheets hrow h
  have hcodelt := Char.toNat_lt_codes ((PasswordKey.ofPassword password).letterAt (i + 1))
  refine he.byCase (fun c k he hc => ?_) fun c hc => turn_of_none hc _
  have hlt := Char.toNat_lt_codes c
  have hmoved := (isNumber_index he hc).moved hcode (by omega) (by omega) hshift direction
  obtain ⟨j, hj, rfl⟩ := LetterCase.exists_index hc
  rw [LetterCase.toNat_letter_sub_base k hj] at hmoved
  exact hmoved.turned_letter k hj

/-- The code of a letter, less what lies before its case, is the place of the
letter on the sheet of the letter map. -/
theorem IsText.keyMapPlace {k : LetterCase} {j : Nat}
    (he : IsText sheets values e [k.letter j]) (hj : j < alphabetSize) :
    IsNumber sheets values (Formula.codeOf e - number (k.base - 1 - KeyMap.rowsBefore k))
      ((KeyMap.rowsBefore k + j : Nat) + 1) := by
  have hbefore : k.base - 1 - KeyMap.rowsBefore k + KeyMap.rowsBefore k + 1 = k.base := by
    cases k <;> rfl
  have hbase := k.base_add_lt hj
  have hcode := he.codeOf
  rw [LetterCase.toNat_letter k hj] at hcode
  rw [show ((KeyMap.rowsBefore k + j : Nat) + 1 : Int) =
    (k.base + j : Nat) - (k.base - 1 - KeyMap.rowsBefore k : Nat) by omega]
  exact hcode.sub (isNumber_number (Word.le_largest (by omega))) (by omega)

/-- **A map formula looks the letter up** on the sheet of the letter map. -/
theorem IsText.mapped {o : Option Char} (he : IsText sheets values e o.toList) {m : LetterMap}
    {others : Values} (hsheet : sheets.find? KeyMap.sheetName = some others)
    (hshows : KeyMap.Shows others m) (direction : Direction) :
    IsText sheets values (mapped direction e) (o.map (m.entryOf direction)).toList := by
  refine he.byCase (fun c k he hc => ?_) fun c hc => ?_
  · obtain ⟨j, hj, rfl⟩ := LetterCase.exists_index hc
    have hlast : KeyMap.rowsBefore k + j ≤ 2 * alphabetSize - 1 := by
      simp only [alphabetSize] at hj ⊢
      cases k <;> simp only [KeyMap.rowsBefore, alphabetSize] <;> omega
    rw [IsText, meaning_index (KeyMap.block direction) hsheet
      (by cases direction <;> decide) (by decide : 2 * alphabetSize - 1 < 0x100000000)
      (by rw [KeyMap.block, Nat.zero_add]; exact hlast) (he.keyMapPlace hj)]
    change Except.ok (Values.read _ ⟨KeyMap.column direction, 0 + (KeyMap.rowsBefore k + j)⟩) = _
    rw [Nat.zero_add, hshows direction k j hj]
  · cases direction <;> simp only [LetterMap.entryOf, LetterMap.imageOf, LetterMap.preimageOf, hc]

/-- **A reversal formula reads the column before from the end.** -/
theorem isText_turned (sheets : Sheets) (originRow col : Nat) {t : List Char}
    (hlength : t.length = (text.toList.take capacity).length)
    (hrow : IsRowOf values row i) (h : values.read (InputCell.ofMode mode) = .text text)
    (hcapacity : capacity < 0x100000000) (horigin : originRow < 0x100000000)
    (hcol : col < 0x100000000)
    (hbefore : ∀ j, j < t.length →
      values.read ⟨col, originRow + j⟩ = .text (String.ofList t[j]?.toList)) :
    IsText sheets values (turned mode capacity originRow row col) t.reverse[i]?.toList := by
  have hle := hrow.le
  have hbound := hrow.bound
  have hshort : (text.toList.take capacity).length ≤ capacity := List.length_take_le ..
  have hfilled : IsNumber sheets values (filled mode capacity) t.length := by
    rw [hlength]
    exact isNumber_filled (by omega) h
  rw [IsText, turned, meaning_cond (hrow.isNumber.gt hfilled)]
  by_cases hi : i < t.length
  · -- the formula counts rows from 1, so that it points at the row before
    have hnumber : IsNumber sheets values
        (number originRow + (filled mode capacity - position row + number 1))
        ((originRow + (t.length - 1 - i) : Nat) + 1) := by
      have hsum := (isNumber_number (Word.le_largest horigin)).add
        ((hfilled.sub hrow.isNumber (by omega)).add (isNumber_number (n := 1) (by decide))
          (by omega)) (by omega)
      rwa [show ((originRow + (t.length - 1 - i) : Nat) + 1 : Int) =
        originRow + (t.length - (i + 1) + (1 : Nat)) by omega]
    have hread := meaning_indirect ⟨col, originRow + (t.length - 1 - i)⟩
      (Word.le_largest hcol) hnumber
    rw [List.getElem?_reverse hi, ← hbefore _ (by omega), ← hread]
    simp only [show ¬ ((t.length : Int) < i + 1) by omega, decide_false, Bool.false_eq_true,
      if_false]
  · -- behind the text there is nothing to turn round
    simp only [show (t.length : Int) < i + 1 by omega, decide_true, if_true]
    rw [List.getElem?_eq_none (by rw [List.length_reverse]; omega)]
    rfl

/-! ## What the formulas read -/

@[simp] theorem cells_add (a b : Formula) : (a + b).cells = a.cells ++ b.cells := rfl

@[simp] theorem cells_sub (a b : Formula) : (a - b).cells = a.cells ++ b.cells := rfl

@[simp] theorem cells_number (n : Nat) : (number n).cells = [] := rfl

@[simp] theorem cells_codeOf (e : Formula) : (codeOf e).cells = e.cells := List.append_nil _

@[simp] theorem cells_lengthOf (e : Formula) : (lengthOf e).cells = e.cells := List.append_nil _

variable {ref : CellRef} {direction : Direction}

theorem mem_cells_explode :
    ref ∈ (explode mode row).cells ↔ ref = InputCell.ofMode mode ∨ ref = ⟨0, row⟩ := by
  simp [explode, input, position, cells, cellsOfAll]

theorem mem_cells_keyCode :
    ref ∈ (keyCode row).cells ↔ ref = ⟨0, row⟩ ∨ ref = InputCell.password := by
  simp [keyCode, key, joined, position, cells, cellsOfAll, or_comm]

theorem mem_cells_byCase {changed : LetterCase → Formula} :
    ref ∈ (byCase e changed).cells ↔ ref ∈ e.cells ∨ ∃ k, ref ∈ (changed k).cells := by
  have hcase : ∀ k, ref ∈ (isOfCase e k).cells ↔ ref ∈ e.cells := by
    intro k
    simp [isOfCase, cells, cellsOfAll]
  simp only [byCase, cells, List.append_nil, List.mem_append, hcase]
  constructor
  · rintro (h | (h | h) | (h | h) | h)
    all_goals first | exact .inl h | exact .inr ⟨_, h⟩
  · rintro (h | ⟨k, h⟩)
    · exact .inl h
    · cases k with
      | upper => exact .inr (.inl (.inr h))
      | lower => exact .inr (.inr (.inl (.inr h)))

theorem mem_cells_rotated {shift : Int64} :
    ref ∈ (rotated direction shift row e).cells ↔
      ref ∈ e.cells ∨ ref = ⟨0, row⟩ ∨ ref = InputCell.password := by
  have hmoved : ∀ k : LetterCase,
      ref ∈ (moved direction shift row (codeOf e - number k.base)).cells ↔
        ref ∈ e.cells ∨ ref = ⟨0, row⟩ ∨ ref = InputCell.password := by
    intro k
    cases direction <;> simp [moved, cells, mem_cells_keyCode]
  simp only [rotated, mem_cells_byCase, cells, cellsOfAll, cells_number,
    List.append_nil, hmoved]
  constructor
  · rintro (h | ⟨_, h⟩)
    · exact .inl h
    · exact h
  · exact fun h => .inr ⟨.upper, h⟩

theorem mem_cells_mapped : ref ∈ (mapped direction e).cells ↔ ref ∈ e.cells := by
  rw [mapped, mem_cells_byCase]
  simp [cells]

theorem mem_cells_turned {originRow col : Nat} :
    ref ∈ (turned mode capacity originRow row col).cells ↔
      ref = InputCell.ofMode mode ∨ ref = ⟨0, row⟩ := by
  simp [turned, filled, input, position, cells, cellsOfAll]
  grind

/-! ## No formula is rejected -/

/-- The formula can be read, and the names in it stand for themselves. -/
structure IsReadable (e : Formula) : Prop where
  plain : e.isPlain = true
  read : ∃ t, e.read fullRoom = .ok t

theorem IsReadable.value_of_isText (h : e.IsReadable) {s : List Char}
    (he : IsText sheets values e s) : e.value sheets values = .ok (.text (String.ofList s)) :=
  value_of_meaning h.plain h.read he

variable (before : CellRef) (anchor : Anchor)

theorem isReadable_cell : (cell before anchor).IsReadable := ⟨rfl, _, rfl⟩

theorem isReadable_joined (above : CellRef) :
    (joined (cell above anchor) (cell before anchor)).IsReadable := ⟨rfl, _, rfl⟩

theorem isReadable_explode (mode : Mode) (row : Nat) : (explode mode row).IsReadable :=
  ⟨rfl, _, rfl⟩

theorem isReadable_rotated (direction : Direction) (shift : Int64) (row : Nat) :
    (rotated direction shift row (cell before anchor)).IsReadable := by
  cases direction <;> exact ⟨rfl, _, rfl⟩

theorem isReadable_mapped (direction : Direction) :
    (mapped direction (cell before anchor)).IsReadable := by
  cases direction <;> exact ⟨rfl, _, rfl⟩

theorem isReadable_turned (mode : Mode) (capacity originRow row col : Nat) :
    (turned mode capacity originRow row col).IsReadable := ⟨rfl, _, rfl⟩

end Formula

end SheetCipher
