import SheetCipher.Proofs.Sheet.CellRef
import SheetCipher.Sheet.Formula.Text

/-!
# Word — what a word of formula text is

A word of formula text is the name of a function, an integer, an address or a
block of another sheet. It says itself which one; each is read back from what
is written for it (`ofWord?_name`, `ofWord?_int`, `ofWord?_cell`,
`ofWord?_block`).
-/

namespace SheetCipher

/-- A name that is a word of letters. -/
def IsWord (name : String) : Prop := name ≠ "" ∧ name.toList.all CellRef.isLetter = true

instance (name : String) : Decidable (IsWord name) := inferInstanceAs (Decidable (_ ∧ _))

namespace Token

/-- Reads an integer, with or without a minus sign. -/
def int? (cs : List Char) : Option Int64 :=
  let digits := if cs.head? = some '-' then cs.tail else cs
  let n : Int := if cs.head? = some '-' then -Decimal.value digits else Decimal.value digits
  if digits ≠ [] ∧ digits.all Decimal.isDigit ∧ Word.fits n then some (Int64.ofInt n) else none

/-- What the pins of an address pin. A row is not pinned alone. -/
def anchor? : (column row : Bool) → Option Anchor
  | false, false => some .relative
  | true, false => some .column
  | true, true => some .absolute
  | false, true => none

/-- Reads an address: letters and the number of a row, with or without pins. -/
def address? (cs : List Char) : Option (CellRef × Anchor) :=
  let body := CellRef.dropPin cs
  let word := body.takeWhile CellRef.isLetter
  let rest := body.dropWhile CellRef.isLetter
  let number := CellRef.dropPin rest
  if word ≠ [] ∧ number ≠ [] ∧ number.all Decimal.isDigit ∧ 1 ≤ Decimal.value number then
    (anchor? (cs.head? = some '$') (rest.head? = some '$')).map fun anchor =>
      (⟨CellRef.lettersValue word - 1, Decimal.value number - 1⟩, anchor)
  else none

/-- Reads a block: the name of a sheet and two addresses in one column. -/
def block? (cs : List Char) : Option ColumnBlock := do
  let sheet := cs.takeWhile (· ≠ '!')
  let range := (cs.dropWhile (· ≠ '!')).drop 1
  let first ← address? (range.takeWhile (· ≠ ':'))
  let last ← address? ((range.dropWhile (· ≠ ':')).drop 1)
  if sheet ≠ [] ∧ sheet.all CellRef.isLetter ∧ first.1.col = last.1.col then
    some ⟨String.ofList sheet, first.1.col, first.1.row, last.1.row⟩
  else none

/-- What a word is: a name if it is all letters, or else an integer, an address
or a block. -/
def ofWord? (cs : List Char) : Option Token :=
  if cs.all CellRef.isLetter then some (.name (String.ofList cs))
  else
    (int? cs).map .int <|> (address? cs).map (fun found => .cell found.1 found.2) <|>
      (block? cs).map .block

/-! ## Words are read back -/

theorem isDigit_eq_false_of_isLetter {c : Char} (h : CellRef.isLetter c = true) :
    Decimal.isDigit c = false := by
  simp only [CellRef.isLetter, Decimal.isDigit, Char.le_def, UInt32.le_iff_toNat_le,
    Bool.or_eq_true, Bool.and_eq_true, decide_eq_true_eq, Bool.and_eq_false_iff,
    decide_eq_false_iff_not] at h ⊢
  simp only [Char.reduceVal, UInt32.reduceToNat] at h ⊢
  omega

theorem isLetter_eq_false_of_isDigit {c : Char} (h : Decimal.isDigit c = true) :
    CellRef.isLetter c = false := by
  cases hletter : CellRef.isLetter c with
  | false => rfl
  | true =>
      rw [isDigit_eq_false_of_isLetter hletter] at h
      cases h

section

variable {p q : Char → Bool} {cs : List Char}

theorem ne_of_kind {c other : Char} (h : p c = true) (hother : p other = false) : c ≠ other := by
  rintro rfl
  rw [h] at hother
  cases hother

theorem all_of_all (hpq : ∀ c, p c = true → q c = true) (h : cs.all p = true) :
    cs.all q = true :=
  List.all_eq_true.2 fun c hc => hpq c (List.all_eq_true.1 h c hc)

/-- A word with a character that is no letter is no name. -/
theorem all_isLetter_eq_false {c : Char} (hmem : c ∈ cs) (hc : CellRef.isLetter c = false) :
    cs.all CellRef.isLetter = false :=
  List.all_eq_false.2 ⟨c, hmem, by simp [hc]⟩

theorem head?_append_of_all (hne : cs ≠ []) (hall : cs.all p = true) (rest : List Char) :
    ∃ c, (cs ++ rest).head? = some c ∧ p c = true := by
  obtain ⟨c, cs, rfl⟩ := List.exists_cons_of_ne_nil hne
  exact ⟨c, rfl, List.all_eq_true.1 hall c List.mem_cons_self⟩

theorem head?_of_all (hne : cs ≠ []) (hall : cs.all p = true) :
    ∃ c, cs.head? = some c ∧ p c = true := by
  simpa using head?_append_of_all hne hall []

theorem head?_append_ne (hne : cs ≠ []) (hall : cs.all p = true) (rest : List Char) {other : Char}
    (hother : p other = false) : (cs ++ rest).head? ≠ some other := by
  obtain ⟨c, hc, hkind⟩ := head?_append_of_all hne hall rest
  rw [hc]
  exact fun heq => ne_of_kind hkind hother (Option.some.inj heq)

theorem head?_ne (hne : cs ≠ []) (hall : cs.all p = true) {other : Char}
    (hother : p other = false) : cs.head? ≠ some other := by
  simpa using head?_append_ne hne hall [] hother

/-- A run of characters ends where another kind of character follows. -/
theorem span_append {rest : List Char} (hall : cs.all p = true)
    (hrest : ∀ c, rest.head? = some c → p c = false) :
    (cs ++ rest).takeWhile p = cs ∧ (cs ++ rest).dropWhile p = rest := by
  have hall := List.all_eq_true.1 hall
  rw [List.takeWhile_append_of_pos hall, List.dropWhile_append_of_pos hall]
  cases rest with
  | nil => simp
  | cons c rest =>
      have hc := hrest c rfl
      simp [hc]

end

/-! ### Integers -/

theorem int?_ofInt (n : Int64) : int? (Decimal.ofInt n.toInt) = some n := by
  have hfits : Word.fits n.toInt = true := by
    have hmin := n.le_toInt
    have hmax := n.toInt_lt
    simp only [Word.fits, Bool.and_eq_true, decide_eq_true_eq]
    omega
  have hne := Decimal.digits_ne_nil n.toInt.natAbs
  have hall := Decimal.all_isDigit_digits n.toInt.natAbs
  rw [Decimal.ofInt]
  split
  · rename_i hneg
    have hval : -(n.toInt.natAbs : Int) = n.toInt := by omega
    simp only [int?, List.head?_cons, if_true, List.tail_cons, Decimal.value_digits, hval]
    rw [if_pos ⟨hne, hall, hfits⟩, Int64.ofInt_toInt]
  · rename_i hpos
    have hval : (n.toInt.natAbs : Int) = n.toInt := by omega
    have hhead : (Decimal.digits n.toInt.natAbs).head? ≠ some '-' := head?_ne hne hall rfl
    simp only [int?, if_neg hhead, Decimal.value_digits, hval]
    rw [if_pos ⟨hne, hall, hfits⟩, Int64.ofInt_toInt]

theorem int?_eq_none {cs : List Char} {c : Char} (hhead : cs.head? = some c)
    (hsign : c ≠ '-') (hdigit : Decimal.isDigit c = false) : int? cs = none := by
  have hall : cs.all Decimal.isDigit = false :=
    List.all_eq_false.2 ⟨c, List.mem_of_head? hhead, by simp [hdigit]⟩
  simp [int?, hhead, hsign, hall]

/-! ### Addresses and blocks -/

/-- Characters with a pin in front or none. -/
def pinned (pin : Bool) (cs : List Char) : List Char := if pin then '$' :: cs else cs

section

variable (pin : Bool) {cs : List Char} (h : cs.head? ≠ some '$')
include h

theorem dropPin_pinned : CellRef.dropPin (pinned pin cs) = cs := by
  cases pin with
  | true => rfl
  | false =>
      rw [pinned, if_neg Bool.false_ne_true, CellRef.dropPin.eq_def]
      split
      · exact absurd rfl h
      · rfl

theorem head?_pinned : decide ((pinned pin cs).head? = some '$') = pin := by
  cases pin with
  | true => rfl
  | false => exact decide_eq_false h

end

/-- Letters and digits with pins or none in front are told apart. -/
theorem parts_pinned {word number : List Char} (hword : word ≠ [])
    (hletters : word.all CellRef.isLetter = true) (hnumber : number ≠ [])
    (hdigits : number.all Decimal.isDigit = true) (column row : Bool) :
    let body := word ++ pinned row number
    CellRef.dropPin (pinned column body) = body ∧
      decide ((pinned column body).head? = some '$') = column ∧
      body.takeWhile CellRef.isLetter = word ∧
      body.dropWhile CellRef.isLetter = pinned row number ∧
      CellRef.dropPin (pinned row number) = number ∧
      decide ((pinned row number).head? = some '$') = row := by
  have hnumberHead : number.head? ≠ some '$' := head?_ne hnumber hdigits rfl
  have hwordHead : (word ++ pinned row number).head? ≠ some '$' :=
    head?_append_ne hword hletters _ rfl
  have hrest : ∀ c, (pinned row number).head? = some c → CellRef.isLetter c = false := by
    intro c hc
    cases row with
    | true =>
        cases hc
        rfl
    | false =>
        obtain ⟨d, hd, hdigit⟩ := head?_of_all hnumber hdigits
        cases hd.symm.trans hc
        exact isLetter_eq_false_of_isDigit hdigit
  obtain ⟨htake, hdrop⟩ := span_append hletters hrest
  exact ⟨dropPin_pinned column hwordHead, head?_pinned column hwordHead, htake, hdrop,
    dropPin_pinned row hnumberHead, head?_pinned row hnumberHead⟩

/-- An address is a pin or none, letters, a pin or none, and digits. -/
theorem address?_pinned {word number : List Char} (hword : word ≠ [])
    (hletters : word.all CellRef.isLetter = true) (hnumber : number ≠ [])
    (hdigits : number.all Decimal.isDigit = true) (hpos : 1 ≤ Decimal.value number)
    (column row : Bool) :
    address? (pinned column (word ++ pinned row number)) = (anchor? column row).map fun anchor =>
      (⟨CellRef.lettersValue word - 1, Decimal.value number - 1⟩, anchor) := by
  obtain ⟨hbody, hcolumn, htake, hdrop, hrest, hrow⟩ :=
    parts_pinned hword hletters hnumber hdigits column row
  simp only [address?, hbody, hcolumn, htake, hdrop, hrest, hrow]
  exact if_pos ⟨hword, hnumber, hdigits, hpos⟩

theorem exists_pins (ref : CellRef) (anchor : Anchor) : ∃ column row,
    anchor? column row = some anchor ∧ ref.chars anchor =
      pinned column (CellRef.letters ref.col ++ pinned row (CellRef.rowDigits ref.row)) := by
  cases anchor with
  | relative => exact ⟨false, false, rfl, rfl⟩
  | column => exact ⟨true, false, rfl, rfl⟩
  | absolute => exact ⟨true, true, rfl, rfl⟩

/-- **An address is read back**, with its pins. -/
theorem address?_chars (ref : CellRef) (anchor : Anchor) :
    address? (ref.chars anchor) = some (ref, anchor) := by
  obtain ⟨column, row, hanchor, hchars⟩ := exists_pins ref anchor
  have hpos : 1 ≤ Decimal.value (Decimal.digits (ref.row + 1)) := by
    rw [Decimal.value_digits]
    omega
  rw [hchars, CellRef.rowDigits, address?_pinned (CellRef.letters_ne_nil _)
    (CellRef.all_isLetter_letters _) (Decimal.digits_ne_nil _) (Decimal.all_isDigit_digits _) hpos,
    hanchor, CellRef.lettersValue_letters, Decimal.value_digits]
  rfl

theorem all_chars {p : Char → Bool} (hletter : ∀ c, CellRef.isLetter c = true → p c = true)
    (hdigit : ∀ c, Decimal.isDigit c = true → p c = true) (hpin : p '$' = true) (ref : CellRef)
    (anchor : Anchor) : (ref.chars anchor).all p = true := by
  have hword := all_of_all hletter (CellRef.all_isLetter_letters ref.col)
  have hnumber : (CellRef.rowDigits ref.row).all p = true :=
    all_of_all hdigit (Decimal.all_isDigit_digits _)
  cases anchor <;> simp [CellRef.chars, hword, hnumber, hpin]

/-- What is written of a block behind the name of its sheet. -/
def rangeChars (b : ColumnBlock) : List Char :=
  '!' :: CellRef.chars ⟨b.col, b.firstRow⟩ .absolute ++
    ':' :: CellRef.chars ⟨b.col, b.lastRow⟩ .absolute

theorem chars_block (b : ColumnBlock) : b.chars = b.sheet.toList ++ rangeChars b := by
  rw [ColumnBlock.chars, List.append_assoc]
  rfl

/-- **A block is read back.** -/
theorem block?_chars {b : ColumnBlock} (h : IsWord b.sheet) : block? b.chars = some b := by
  have hsheet : b.sheet.toList.all (· ≠ '!') = true :=
    all_of_all (fun c hc => decide_eq_true (ne_of_kind hc rfl)) h.2
  have hfirst : (CellRef.chars ⟨b.col, b.firstRow⟩ .absolute).all (· ≠ ':') = true :=
    all_chars (fun c hc => decide_eq_true (ne_of_kind hc rfl))
      (fun c hc => decide_eq_true (ne_of_kind hc rfl)) rfl _ _
  have hbang : ∀ c, (rangeChars b).head? = some c → decide (c ≠ '!') = false := by
    rintro c ⟨⟩
    rfl
  have hcolon : ∀ c, (':' :: CellRef.chars ⟨b.col, b.lastRow⟩ .absolute).head? = some c →
      decide (c ≠ ':') = false := by
    rintro c ⟨⟩
    rfl
  obtain ⟨htake, hdrop⟩ := span_append hsheet hbang
  obtain ⟨htake', hdrop'⟩ := span_append hfirst hcolon
  have hne : b.sheet.toList ≠ [] := by simpa using h.1
  rw [block?, chars_block, htake, hdrop]
  simp only [rangeChars, List.cons_append, List.drop_succ_cons, List.drop_zero, htake', hdrop',
    address?_chars]
  simp [hne, h.2]

/-! ### What a word is -/

/-- A token that can be written: names are made of letters. -/
def IsWritable : Token → Prop
  | name word => IsWord word
  | block b => IsWord b.sheet
  | _ => True

theorem ofWord?_of_not_name {cs : List Char} {c : Char} (hmem : c ∈ cs)
    (hc : CellRef.isLetter c = false) : ofWord? cs = ((int? cs).map .int <|>
      (address? cs).map (fun found => .cell found.1 found.2) <|> (block? cs).map .block) := by
  rw [ofWord?, all_isLetter_eq_false hmem hc]
  rfl

theorem exists_digit (n : Nat) : ∃ c ∈ Decimal.digits n, CellRef.isLetter c = false := by
  obtain ⟨c, hc, hdigit⟩ := head?_of_all (Decimal.digits_ne_nil n) (Decimal.all_isDigit_digits n)
  exact ⟨c, List.mem_of_head? hc, isLetter_eq_false_of_isDigit hdigit⟩

theorem ofWord?_name {word : String} (h : IsWord word) :
    ofWord? word.toList = some (.name word) := by
  rw [ofWord?, if_pos h.2, String.ofList_toList]

theorem ofWord?_int (n : Int64) : ofWord? (Decimal.ofInt n.toInt) = some (.int n) := by
  obtain ⟨c, hmem, hc⟩ := exists_digit n.toInt.natAbs
  have hmem : c ∈ Decimal.ofInt n.toInt := by
    rw [Decimal.ofInt]
    split
    · exact List.mem_cons_of_mem _ hmem
    · exact hmem
  rw [ofWord?_of_not_name hmem hc, int?_ofInt]
  rfl

/-- The first character of an address is a pin or a letter. -/
theorem int?_chars (ref : CellRef) (anchor : Anchor) : int? (ref.chars anchor) = none := by
  cases anchor with
  | relative =>
      obtain ⟨c, hc, hletter⟩ := head?_append_of_all (CellRef.letters_ne_nil ref.col)
        (CellRef.all_isLetter_letters ref.col) (CellRef.rowDigits ref.row)
      exact int?_eq_none hc (ne_of_kind hletter rfl) (isDigit_eq_false_of_isLetter hletter)
  | column => exact int?_eq_none (c := '$') rfl (by decide) rfl
  | absolute => exact int?_eq_none (c := '$') rfl (by decide) rfl

theorem ofWord?_cell (ref : CellRef) (anchor : Anchor) :
    ofWord? (ref.chars anchor) = some (.cell ref anchor) := by
  obtain ⟨c, hmem, hc⟩ := exists_digit (ref.row + 1)
  have hmem : c ∈ ref.chars anchor := by
    cases anchor <;> simp [CellRef.chars, CellRef.rowDigits, hmem]
  rw [ofWord?_of_not_name hmem hc, int?_chars, address?_chars]
  rfl

theorem ofWord?_block {b : ColumnBlock} (h : IsWord b.sheet) :
    ofWord? b.chars = some (.block b) := by
  have hne : b.sheet.toList ≠ [] := by simpa using h.1
  obtain ⟨c, hc, hletter⟩ := head?_append_of_all hne h.2 (rangeChars b)
  rw [← chars_block] at hc
  have hint : int? b.chars = none :=
    int?_eq_none hc (ne_of_kind hletter rfl) (isDigit_eq_false_of_isLetter hletter)
  -- the sheet would be the column, and behind it no row begins
  have haddress : address? b.chars = none := by
    have hpin : b.chars.head? ≠ some '$' := by
      rw [chars_block]
      exact head?_append_ne hne h.2 _ rfl
    have hbody : CellRef.dropPin b.chars = b.chars := dropPin_pinned false hpin
    have hbang : ∀ c, (rangeChars b).head? = some c → CellRef.isLetter c = false := by
      rintro c ⟨⟩
      rfl
    obtain ⟨htake, hdrop⟩ := span_append h.2 hbang
    rw [← chars_block] at htake hdrop
    simp only [address?, hbody, htake, hdrop]
    exact if_neg fun hrow => by cases hrow.2.2.1
  rw [ofWord?_of_not_name (c := '!') (by simp [ColumnBlock.chars]) rfl, hint, haddress,
    block?_chars h]
  rfl

end Token

end SheetCipher
