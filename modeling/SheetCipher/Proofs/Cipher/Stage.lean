import SheetCipher.Proofs.Cipher.Rotation

/-!
# Stage — what an operation does to a text

With an invertible letter map and shifts in their range no stage ever fails:
what it does is `effect`, a function on texts that moves letters by exact
amounts, turns the text round or looks letters up. Each effect keeps the length
of the text and is undone by the effect of the other direction.
-/

namespace SheetCipher

/-! ## Directions and specs that can be undone -/

namespace Direction

/-- The other direction. -/
def opposite : Direction → Direction
  | forward => inverse
  | inverse => forward

/-- The sign of the amounts of a direction. -/
def sign : Direction → Int
  | forward => 1
  | inverse => -1

@[simp] theorem sign_opposite (direction : Direction) :
    direction.opposite.sign = -direction.sign := by
  cases direction <;> rfl

end Direction

namespace Spec

/-- The letter map is invertible and both shifts are in 1..=25; the operations
may be any. -/
structure IsReversible (spec : Spec) : Prop where
  mapping : spec.mapping.isBijection = true
  shift : shiftInRange spec.substitutionShift = true
  salt : shiftInRange spec.xorSalt = true

theorem shiftInRange_iff {value : Int64} :
    shiftInRange value = true ↔ 1 ≤ value.toInt ∧ value.toInt ≤ 25 := by
  simp only [shiftInRange, Bool.and_eq_true, decide_eq_true_eq, Int64.le_iff_toInt_le]
  rfl

theorem IsReversible.of_bounds {spec : Spec} (hmap : spec.mapping.isBijection = true)
    (hshift : 1 ≤ spec.substitutionShift ∧ spec.substitutionShift ≤ 25)
    (hsalt : 1 ≤ spec.xorSalt ∧ spec.xorSalt ≤ 25) : spec.IsReversible := by
  refine ⟨hmap, ?_, ?_⟩ <;> simp only [shiftInRange, Bool.and_eq_true, decide_eq_true_eq]
  · exact hshift
  · exact hsalt

theorem IsReversible.shiftOf_bounds {spec : Spec} (h : spec.IsReversible) (op : Operation) :
    0 ≤ (spec.shiftOf op).toInt ∧ (spec.shiftOf op).toInt ≤ 25 := by
  have hshift := shiftInRange_iff.1 h.shift
  have hsalt := shiftInRange_iff.1 h.salt
  cases op with
  | substitute => exact ⟨by simp only [shiftOf]; omega, hshift.2⟩
  | xor => exact ⟨by simp only [shiftOf]; omega, hsalt.2⟩
  | reverse => simp [shiftOf]
  | map => simp [shiftOf]

/-- How far a keyed operation moves the letter at a position. -/
def amount (spec : Spec) (op : Operation) (key : PasswordKey) (position : Nat) : Int :=
  (spec.shiftOf op).toInt + (key.letterAt position).toNat

end Spec

theorem Char.toNat_lt_codes (c : Char) : c.toNat < 0x110000 := by
  have := c.valid
  simp only [UInt32.isValidChar, Nat.isValidChar] at this
  simp only [Char.toNat]
  omega

theorem PasswordKey.toInt_codeAt (key : PasswordKey) (position : Nat) :
    (key.codeAt position).toInt = (key.letterAt position).toNat := by
  have := Char.toNat_lt_codes (key.letterAt position)
  exact Int64.toInt_ofNat_of_lt (by omega)

theorem PasswordKey.length_letters_pos (password : String) :
    0 < (ofPassword password).letters.length := by
  simp [ofPassword]

/-- The letters of a key come round again above a long text. -/
theorem PasswordKey.getElem?_letters (password : String) (i : Nat) :
    (ofPassword password).letters[i % (ofPassword password).letters.length]? =
      some ((ofPassword password).letterAt (i + 1)) := by
  have hget := List.getElem?_eq_getElem (Nat.mod_lt i (length_letters_pos password))
  rw [letterAt, show max (i + 1) 1 - 1 = i by omega, List.getD_eq_getElem?_getD, hget]
  rfl

/-- What becomes of a character when the map runs in a direction. -/
def LetterMap.entryOf (m : LetterMap) : Direction → Char → Char
  | .forward => m.imageOf
  | .inverse => m.preimageOf

theorem LetterMap.entryOf_opposite {m : LetterMap} (h : m.isBijection = true)
    (direction : Direction) (c : Char) :
    m.entryOf direction.opposite (m.entryOf direction c) = c := by
  cases direction with
  | forward => exact preimageOf_imageOf h c
  | inverse => exact imageOf_preimageOf h c

/-! ## Effects -/

namespace Operation

/-- The text after an operation, when nothing overruns. -/
def effect (op : Operation) (direction : Direction) (spec : Spec) (key : PasswordKey)
    (text : List Char) : List Char :=
  match op with
  | .substitute | .xor =>
    text.mapIdx fun i c => turn c (direction.sign * spec.amount op key (i + 1))
  | .reverse => text.reverse
  | .map => text.map (spec.mapping.entryOf direction)

theorem effect_of_isKeyed {op : Operation} (h : op.isKeyed = true) (direction : Direction)
    (spec : Spec) (key : PasswordKey) (text : List Char) :
    op.effect direction spec key text =
      text.mapIdx fun i c => turn c (direction.sign * spec.amount op key (i + 1)) := by
  cases op with
  | substitute | xor => rfl
  | reverse | map => cases h

@[simp] theorem length_effect (op : Operation) (direction : Direction) (spec : Spec)
    (key : PasswordKey) (text : List Char) :
    (op.effect direction spec key text).length = text.length := by
  cases op <;> simp [effect]

/-- **Each effect is undone by the one of the other direction.** -/
theorem effect_opposite {spec : Spec} (h : spec.IsReversible) (op : Operation)
    (direction : Direction) (key : PasswordKey) (text : List Char) :
    op.effect direction.opposite spec key (op.effect direction spec key text) = text := by
  have hkeyed : op.isKeyed = true →
      op.effect direction.opposite spec key (op.effect direction spec key text) = text := by
    intro hop
    rw [effect_of_isKeyed hop, effect_of_isKeyed hop, List.mapIdx_mapIdx]
    -- both ways a position takes the same letter of the key
    have hcancel : ∀ n : Int, direction.sign * n + direction.opposite.sign * n = 0 := by
      intro n
      rw [Direction.sign_opposite, Int.neg_mul, Int.add_right_neg]
    simp only [Function.comp_def, turn_turn, hcancel, turn_zero]
    exact List.mapIdx_eq_iff.2 fun i => by simp
  cases op with
  | substitute => exact hkeyed rfl
  | xor => exact hkeyed rfl
  | reverse => simp [effect]
  | map =>
      simp only [effect, List.map_map, Function.comp_def, LetterMap.entryOf_opposite h.mapping,
        List.map_id']

/-! ## No stage fails -/

/-- A shift and a key code never overrun a word. -/
theorem shiftChar_eq_ok {shift code : Int64} (hshift : 0 ≤ shift.toInt ∧ shift.toInt ≤ 25)
    (hcode : 0 ≤ code.toInt ∧ code.toInt < 0x110000) (direction : Direction) (c : Char) :
    shiftChar direction shift code c =
      .ok (turn c (direction.sign * (shift.toInt + code.toInt))) := by
  obtain ⟨amount, hamount, hval⟩ := Word.exists_ofInt .sum
    (n := shift.toInt + code.toInt) (Word.fits_iff.2 (by omega))
  have hadd : Word.add shift code = .ok amount := hamount
  cases direction with
  | forward =>
      rw [Direction.sign, Int.one_mul, ← hval]
      have hrotate := rotate_eq_turn (not_isTooFar c amount (by omega))
      rw [← hrotate, shiftChar, hadd]
      rfl
  | inverse =>
      obtain ⟨negated, hneg, hnegval⟩ := Word.exists_ofInt .product
        (n := -amount.toInt) (Word.fits_iff.2 (by omega))
      have hneg : Word.neg amount = .ok negated := hneg
      rw [Direction.sign, ← hval, Int.neg_mul, Int.one_mul, ← hnegval]
      have hrotate := rotate_eq_turn (not_isTooFar c negated (by omega))
      rw [← hrotate, shiftChar, hadd]
      change (Word.neg amount >>= fun negated => rotate c negated) = rotate c negated
      rw [hneg]
      rfl

theorem shiftText_eq_ok {spec : Spec} (h : spec.IsReversible) {op : Operation}
    (hop : op.isKeyed = true) (direction : Direction) (key : PasswordKey) (text : List Char) :
    shiftText direction (spec.shiftOf op) key text = .ok (op.effect direction spec key text) := by
  have hchar : ∀ entry : Char × Nat,
      shiftChar direction (spec.shiftOf op) (key.codeAt (entry.2 + 1)) entry.1 =
        pure (turn entry.1 (direction.sign * spec.amount op key (entry.2 + 1))) := by
    intro entry
    have hcode := key.toInt_codeAt (entry.2 + 1)
    have hlt := Char.toNat_lt_codes (key.letterAt (entry.2 + 1))
    rw [shiftChar_eq_ok (h.shiftOf_bounds op) (by omega), hcode]
    rfl
  rw [shiftText, funext hchar, List.mapM_pure, effect_of_isKeyed hop, List.mapIdx_eq_zipIdx_map]
  rfl

theorem mapText_eq_ok {m : LetterMap} (h : m.isBijection = true) (direction : Direction)
    (text : List Char) : mapText direction m text = .ok (text.map (m.entryOf direction)) := by
  cases direction with
  | forward =>
      rw [mapText, funext fun c => LetterMap.image_eq_ok h c]
      exact List.mapM_pure
  | inverse =>
      rw [mapText, funext fun c => LetterMap.preimage_eq_ok h c]
      exact List.mapM_pure

/-- **No stage fails**, and what it does is its effect. -/
theorem apply_eq_ok {spec : Spec} (h : spec.IsReversible) (op : Operation)
    (direction : Direction) (key : PasswordKey) (text : List Char) :
    op.apply direction spec key text = .ok (op.effect direction spec key text) := by
  cases op with
  | substitute => exact shiftText_eq_ok h rfl direction key text
  | xor => exact shiftText_eq_ok h rfl direction key text
  | reverse => rfl
  | map => exact mapText_eq_ok h.mapping direction text

end Operation

end SheetCipher
