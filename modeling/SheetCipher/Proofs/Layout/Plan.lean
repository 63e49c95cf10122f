import SheetCipher.Layout.Compile
import SheetCipher.Proofs.Cipher.Trace
import SheetCipher.Proofs.Eval.Builtin

/-!
# Plan — what every cell of a grid is expected to show

Column by column a grid does what the stages do: column B is the first text,
the column of the `k`-th operation is the text behind it, and the last column
grows the result from the top. `guess` writes this down for every address that
a plan covers; the rest of this module says which addresses these are and which
cell stands at each of them.
-/

namespace SheetCipher

namespace GridPlan

/-! ## Plans that can be worked out -/

/-- The texts can be computed, and the result is shown above the rows, beside
the column in which texts are typed. -/
structure IsUsable (plan : GridPlan) : Prop where
  reversible : plan.spec.IsReversible
  four : plan.spec.operations.length = 4
  pos : 1 ≤ plan.capacity
  le : plan.capacity ≤ maxCapacity
  low : encryptOriginRow ≤ plan.originRow
  high : plan.originRow ≤ encryptOriginRow + maxCapacity + gap
  result : plan.result.row < encryptOriginRow
  beside : plan.result.col ≠ 1

/-- The address of a cell of the plan. -/
def Covers (plan : GridPlan) (ref : CellRef) : Prop :=
  ref = plan.result ∨ ref.col < plan.kinds.length ∧ plan.rows.Holds ref.row

instance (plan : GridPlan) (ref : CellRef) : Decidable (plan.Covers ref) :=
  inferInstanceAs (Decidable (_ ∨ _))

variable {plan : GridPlan}

theorem length_kinds (plan : GridPlan) :
    plan.kinds.length = (plan.spec.stages plan.mode).length + 3 := by
  simp [kinds]

theorem kinds_getElem?_operation (plan : GridPlan) {k : Nat} {stage : Operation × Direction}
    (h : (plan.spec.stages plan.mode)[k]? = some stage) :
    plan.kinds[k + 2]? = some (.operation stage.1 stage.2) := by
  obtain ⟨hk, rfl⟩ := List.getElem?_eq_some_iff.1 h
  rw [kinds]
  simp [List.getElem?_append, hk]

theorem kinds_getElem?_fold (plan : GridPlan) :
    plan.kinds[(plan.spec.stages plan.mode).length + 2]? = some .fold := by
  rw [kinds]
  simp

/-- The kind of a column says where the column stands. -/
theorem kinds_cases {col : Nat} {kind : StageKind} (h : plan.kinds[col]? = some kind) :
    (col = 0 ∧ kind = .index) ∨ (col = 1 ∧ kind = .explode) ∨
      (∃ k stage, (plan.spec.stages plan.mode)[k]? = some stage ∧ col = k + 2 ∧
        kind = .operation stage.1 stage.2) ∨
      (col = (plan.spec.stages plan.mode).length + 2 ∧ kind = .fold) := by
  have hcol : col < (plan.spec.stages plan.mode).length + 3 := by
    rw [← plan.length_kinds]
    exact (List.getElem?_eq_some_iff.1 h).1
  match col, h, hcol with
  | 0, h, _ => exact .inl ⟨rfl, (Option.some.inj h).symm⟩
  | 1, h, _ => exact .inr (.inl ⟨rfl, (Option.some.inj h).symm⟩)
  | k + 2, h, hcol =>
      refine .inr (.inr ?_)
      -- behind the operations only the last column is left
      by_cases hk : k < (plan.spec.stages plan.mode).length
      · have hstage := List.getElem?_eq_getElem hk
        rw [kinds_getElem?_operation plan hstage] at h
        exact .inl ⟨k, _, hstage, rfl, (Option.some.inj h).symm⟩
      · obtain rfl : k = (plan.spec.stages plan.mode).length := by omega
        rw [kinds_getElem?_fold] at h
        exact .inr ⟨rfl, (Option.some.inj h).symm⟩

theorem covers_of_lt (col i : Nat) (hcol : col < plan.kinds.length) (hi : i < plan.capacity) :
    plan.Covers ⟨col, plan.originRow + i⟩ :=
  .inr ⟨hcol, Nat.le_add_right _ _, Nat.add_lt_add_left hi _⟩

theorem mem_cells {ref : CellRef} {cell : Cell} : (ref, cell) ∈ plan.cells ↔
    (∃ col kind i, plan.kinds[col]? = some kind ∧ i < plan.capacity ∧
      ref = ⟨col, plan.originRow + i⟩ ∧ cell = plan.cell ⟨col, kind⟩ (plan.originRow + i)) ∨
      (ref = plan.result ∧ cell = plan.formulaCell (.cell plan.output .relative)) := by
  simp only [cells, columns, List.mem_append, List.mem_flatMap, List.mem_map, List.mem_mapIdx,
    RowRange.mem_rows, RowRange.Holds, rows, List.mem_singleton, Prod.mk.injEq]
  refine or_congr ?_ Iff.rfl
  constructor
  · rintro ⟨row, ⟨hlow, hhigh⟩, column, ⟨col, hcol, rfl⟩, rfl, rfl⟩
    refine ⟨col, plan.kinds[col], row - plan.originRow, List.getElem?_eq_getElem hcol,
      by omega, ?_⟩
    rw [Nat.add_sub_cancel' hlow]
    exact ⟨rfl, rfl⟩
  · rintro ⟨col, kind, i, hkind, hi, rfl, rfl⟩
    obtain ⟨hcol, rfl⟩ := List.getElem?_eq_some_iff.1 hkind
    exact ⟨plan.originRow + i, by omega, _, ⟨col, hcol, rfl⟩, rfl, rfl⟩

theorem covers_iff {ref : CellRef} : plan.Covers ref ↔ ∃ cell, (ref, cell) ∈ plan.cells := by
  simp only [mem_cells]
  constructor
  · rintro (rfl | ⟨hcol, hlow, hhigh⟩)
    · exact ⟨_, .inr ⟨rfl, rfl⟩⟩
    · simp only [rows] at hlow hhigh
      refine ⟨_, .inl ⟨ref.col, _, ref.row - plan.originRow, List.getElem?_eq_getElem hcol,
        by omega, ?_, rfl⟩⟩
      rw [Nat.add_sub_cancel' hlow]
  · rintro ⟨cell, ⟨col, kind, i, hkind, hi, rfl, _⟩ | ⟨rfl, _⟩⟩
    · exact covers_of_lt col i (List.getElem?_eq_some_iff.1 hkind).1 hi
    · exact .inl rfl

theorem IsUsable.length_stages (h : plan.IsUsable) : (plan.spec.stages plan.mode).length = 4 := by
  cases hmode : plan.mode <;> simp [Spec.stages, h.four]

theorem IsUsable.length_kinds (h : plan.IsUsable) : plan.kinds.length = 7 := by
  rw [GridPlan.length_kinds, h.length_stages]

/-- Rows are numbered by words, and the largest word is far away. -/
theorem IsUsable.row_lt (h : plan.IsUsable) {i : Nat} (hi : i < plan.capacity) :
    plan.originRow + i < 0x100000000 := by
  have hhigh := h.high
  have hle := h.le
  simp only [encryptOriginRow, maxCapacity, gap] at hhigh hle
  omega

theorem IsUsable.capacity_lt (h : plan.IsUsable) : plan.capacity < 0x100000000 :=
  Nat.lt_of_le_of_lt h.le (by decide)

theorem IsUsable.ne_result (h : plan.IsUsable) (col i : Nat) :
    (⟨col, plan.originRow + i⟩ : CellRef) ≠ plan.result := by
  intro heq
  have hrow := h.result
  have hlow := h.low
  rw [← heq] at hrow
  simp only at hrow
  omega

/-- No cell of the plan stands where a user types. -/
theorem IsUsable.not_covers_of_typed (h : plan.IsUsable) {ref : CellRef} (hcol : ref.col = 1)
    (hrow : ref.row < encryptOriginRow) : ¬ plan.Covers ref := by
  have hlow := h.low
  rintro (rfl | ⟨_, hrows, _⟩)
  · exact h.beside hcol
  · simp only [rows] at hrows
    omega

theorem IsUsable.not_covers_input (h : plan.IsUsable) (mode : Mode) :
    ¬ plan.Covers (InputCell.ofMode mode) := by
  cases mode <;> exact h.not_covers_of_typed rfl (by decide)

theorem IsUsable.not_covers_password (h : plan.IsUsable) : ¬ plan.Covers InputCell.password :=
  h.not_covers_of_typed rfl (by decide)

/-- No address has two cells. -/
theorem IsUsable.cells_unique (h : plan.IsUsable) {ref : CellRef} {cell cell' : Cell}
    (hcell : (ref, cell) ∈ plan.cells) (hcell' : (ref, cell') ∈ plan.cells) : cell' = cell := by
  rcases mem_cells.1 hcell with ⟨col, kind, i, hkind, _, rfl, rfl⟩ | ⟨rfl, rfl⟩
  · rcases mem_cells.1 hcell' with ⟨col', kind', i', hkind', _, heq, rfl⟩ | ⟨heq, _⟩
    · obtain ⟨rfl, hrow⟩ := CellRef.mk.inj heq
      rw [hkind] at hkind'
      cases hkind'
      rw [hrow]
    · exact absurd heq (h.ne_result col i)
  · rcases mem_cells.1 hcell' with ⟨col', _, i', _, _, heq, _⟩ | ⟨_, rfl⟩
    · exact absurd heq.symm (h.ne_result col' i')
    · rfl

/-! ## The texts between the stages -/

/-- The texts that the stages of the plan pass. -/
def texts (plan : GridPlan) (password text : String) : List (List Char) :=
  (plan.spec.stages plan.mode).scanl (plan.spec.step (.ofPassword password))
    (text.toList.take plan.capacity)

/-- The text behind the last stage. -/
def outcome (plan : GridPlan) (password text : String) : List Char :=
  (plan.spec.stages plan.mode).foldl (plan.spec.step (.ofPassword password))
    (text.toList.take plan.capacity)

theorem texts_getElem?_zero (plan : GridPlan) (password text : String) :
    (plan.texts password text)[0]? = some (text.toList.take plan.capacity) :=
  List.getElem?_scanl_zero

variable {password text : String}

theorem texts_getElem?_succ {k : Nat} {stage : Operation × Direction} {t : List Char}
    (hstage : (plan.spec.stages plan.mode)[k]? = some stage)
    (ht : (plan.texts password text)[k]? = some t) :
    (plan.texts password text)[k + 1]? =
      some (stage.1.effect stage.2 plan.spec (.ofPassword password) t) := by
  rw [texts] at ht ⊢
  rw [List.getElem?_succ_scanl, ht, hstage]
  rfl

theorem exists_texts_getElem? (plan : GridPlan) (password text : String) {k : Nat}
    (h : k ≤ (plan.spec.stages plan.mode).length) :
    ∃ t, (plan.texts password text)[k]? = some t := by
  refine ⟨_, List.getElem?_eq_getElem ?_⟩
  rw [texts, List.length_scanl]
  omega

theorem texts_getElem?_last (plan : GridPlan) (password text : String) :
    (plan.texts password text)[(plan.spec.stages plan.mode).length]? =
      some (plan.outcome password text) := by
  have hlast := List.getLast?_scanl (b := text.toList.take plan.capacity)
    (l := plan.spec.stages plan.mode) (f := plan.spec.step (.ofPassword password))
  rwa [List.getLast?_eq_getElem?, List.length_scanl, Nat.add_sub_cancel] at hlast

/-- All texts are as long as the first one. -/
theorem length_of_texts {k : Nat} {t : List Char} (h : (plan.texts password text)[k]? = some t) :
    t.length = (text.toList.take plan.capacity).length := by
  induction k generalizing t with
  | zero =>
      rw [texts_getElem?_zero] at h
      cases h
      rfl
  | succ k ih =>
      have hk : k < (plan.spec.stages plan.mode).length := by
        have hlt := (List.getElem?_eq_some_iff.1 h).1
        rw [texts, List.length_scanl] at hlt
        omega
      obtain ⟨before, hbefore⟩ := exists_texts_getElem? plan password text (Nat.le_of_lt hk)
      rw [texts_getElem?_succ (List.getElem?_eq_getElem hk) hbefore] at h
      cases h
      rw [Operation.length_effect, ih hbefore]

/-! ## The guess -/

/-- What each cell of the plan is expected to show. -/
def guess (plan : GridPlan) (password text : String) (ref : CellRef) : Value :=
  if ref = plan.result then .text (String.ofList (plan.outcome password text))
  else
    let i := ref.row - plan.originRow
    match plan.kinds[ref.col]? with
    | some .index => .int (Int64.ofNat (i + 1))
    | some .fold => .text (String.ofList ((plan.outcome password text).take (i + 1)))
    | _ => .ofChar? ((plan.texts password text).getD (ref.col - 1) [])[i]?

theorem guess_result :
    plan.guess password text plan.result = .text (String.ofList (plan.outcome password text)) :=
  if_pos rfl

section

variable (h : plan.IsUsable) (password text : String) (i : Nat)
include h

theorem guess_index :
    plan.guess password text ⟨0, plan.originRow + i⟩ = .int (Int64.ofNat (i + 1)) := by
  rw [guess, if_neg (h.ne_result 0 i)]
  simp only [Nat.add_sub_cancel_left]
  rfl

theorem guess_fold :
    plan.guess password text ⟨(plan.spec.stages plan.mode).length + 2, plan.originRow + i⟩ =
      .text (String.ofList ((plan.outcome password text).take (i + 1))) := by
  rw [guess, if_neg (h.ne_result _ i)]
  simp only [Nat.add_sub_cancel_left, kinds_getElem?_fold]

variable {password text}

theorem guess_text {k : Nat} {t : List Char} (ht : (plan.texts password text)[k]? = some t) :
    plan.guess password text ⟨k + 1, plan.originRow + i⟩ = .ofChar? t[i]? := by
  have hk : k ≤ (plan.spec.stages plan.mode).length := by
    have hlt := (List.getElem?_eq_some_iff.1 ht).1
    rw [texts, List.length_scanl] at hlt
    omega
  rw [guess, if_neg (h.ne_result _ i)]
  simp only [Nat.add_sub_cancel_left, Nat.add_sub_cancel, List.getD_eq_getElem?_getD, ht,
    Option.getD_some]
  -- column B shows the first text, the column of an operation the one behind it
  cases k with
  | zero => rfl
  | succ k =>
      have hstage := List.getElem?_eq_getElem (l := plan.spec.stages plan.mode) (i := k) (by omega)
      rw [kinds_getElem?_operation plan hstage]

end

end GridPlan

end SheetCipher
