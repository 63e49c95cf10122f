import SheetCipher.Proofs.Sheet.Formula.ScriptParts

/-!
# Script — formulas are known by their scripts

A script does not show what an address pins, and `&` is written like `+`. All
else can be told from it, as long as no sheet has a quote in its name: the
first characters say what kind of formula it is, and each part ends where its
characters say, whatever follows (`isLegible`). So formulas with one script
differ in pins and in `&` and `+` alone (`script_eq_iff`).
-/

namespace SheetCipher

/-- Whether the name of a sheet has no quote in it. -/
def ColumnBlock.IsQuoteFree (block : ColumnBlock) : Prop := '"' ∉ block.sheet.toList

instance (block : ColumnBlock) : Decidable block.IsQuoteFree := inferInstanceAs (Decidable (¬ _))

/-! ## What a script does not show -/

/-- `&` and `+` as one operator. -/
def Operator.merged : Operator → Operator
  | concat => add
  | op => op

theorem Operator.scriptSign_merged (op : Operator) : op.merged.scriptSign = op.scriptSign := by
  cases op <;> rfl

theorem Operator.scriptSign_append_inj {op op' : Operator} {rest rest' : List Char}
    (h : op.scriptSign.toList ++ ' ' :: rest = op'.scriptSign.toList ++ ' ' :: rest') :
    op.merged = op'.merged ∧ rest = rest' := by
  have hends : ∀ rest, EndsRun (· != ' ') (' ' :: rest) := .cons rfl
  have hsign : ∀ op : Operator, op.scriptSign.toList.all (· != ' ') = true := by
    intro op
    cases op <;> decide
  obtain ⟨heq, hrests⟩ := (hends rest).append_inj (hends rest') (hsign op) (hsign op') h
  refine ⟨?_, (List.cons.inj hrests).2⟩
  have hinj : op.scriptSign.toList = op'.scriptSign.toList → op.merged = op'.merged := by
    cases op <;> cases op' <;> decide
  exact hinj heq

namespace Formula

mutual

/-- A formula without what its script does not show. -/
def unmarked : Formula → Formula
  | text s => text s
  | int n => int n
  | cell ref _ => cell ref .relative
  | call f args => call f (unmarkedAll args)
  | all args => all (unmarkedAll args)
  | binary op lhs rhs => binary op.merged lhs.unmarked rhs.unmarked
  | cond condition thenForm elseForm =>
    cond condition.unmarked thenForm.unmarked elseForm.unmarked
  | indirect col row => indirect col row.unmarked
  | index block position => index block position.unmarked

/-- Several formulas, all without what their scripts do not show. -/
def unmarkedAll : List Formula → List Formula
  | [] => []
  | e :: es => e.unmarked :: unmarkedAll es

end

/-! ## Formulas are told apart -/

/-- A formula that is known by its script, whatever follows. -/
def IsLegible (e : Formula) : Prop :=
  ∀ {e' : Formula} {rest rest' : List Char}, (∀ block ∈ e'.blocks, block.IsQuoteFree) →
    EndsRun Decimal.isDigit rest → EndsRun Decimal.isDigit rest' →
      e.scriptChars ++ rest = e'.scriptChars ++ rest' → e.unmarked = e'.unmarked ∧ rest = rest'

theorem isLegible_text (s : String) : (text s).IsLegible := by
  intro e' rest rest' _ _ _ h
  have hopening := opening_eq h
  cases e' with
  | text s' =>
      obtain ⟨hs, hrests⟩ := Quoted.escaped_append_inj h
      rw [String.toList_inj.1 hs]
      exact ⟨rfl, hrests⟩
  | _ => cases hopening

theorem isLegible_int (n : Int64) : (int n).IsLegible := by
  intro e' rest rest' _ hends hends' h
  have hopening := opening_eq h
  cases e' with
  | int n' =>
      obtain ⟨hn, hrests⟩ := Decimal.ofInt_append_inj hends hends' h
      rw [Int64.toInt_inj.1 hn]
      exact ⟨rfl, hrests⟩
  | call f args => cases f <;> cases hopening
  | _ => cases hopening

theorem isLegible_cell (ref : CellRef) (anchor : Anchor) : (cell ref anchor).IsLegible := by
  intro e' rest rest' _ _ _ h
  have hopening := opening_eq h
  cases e' with
  | cell ref' anchor' =>
      rw [cell_append, cell_append] at h
      obtain ⟨hcol, hbehind⟩ := Decimal.digits_scriptComma_inj (List.append_cancel_left h)
      obtain ⟨hrow, hrests⟩ :=
        Decimal.digits_append_inj (.cons rfl rest) (.cons rfl rest') hbehind
      obtain rfl : ref = ref' := by
        cases ref
        cases ref'
        rw [CellRef.mk.injEq]
        exact ⟨hcol, hrow⟩
      exact ⟨rfl, (List.cons.inj hrests).2⟩
  | call f args => cases f <;> cases hopening
  | _ => cases hopening

/-! ### Arguments -/

section

variable {c : Char} {separator : List Char} (hclose : c ≠ ')')
  (hdigit : Decimal.isDigit c = false) {es : List Formula} (hes : ∀ e ∈ es, e.IsLegible)
include hdigit

theorem endsNumber_scriptTail (es : List Formula) (rest : List Char) :
    EndsRun Decimal.isDigit (scriptTail (c :: separator) es ++ ')' :: rest) := by
  cases es with
  | nil => exact .cons rfl rest
  | cons e es => exact .cons hdigit _

include hclose hes

theorem scriptTail_append_inj {es' : List Formula} {rest rest' : List Char}
    (hfree : ∀ block ∈ blocksOfAll es', block.IsQuoteFree)
    (h : scriptTail (c :: separator) es ++ ')' :: rest =
      scriptTail (c :: separator) es' ++ ')' :: rest') :
    unmarkedAll es = unmarkedAll es' ∧ rest = rest' := by
  induction es generalizing es' with
  | nil =>
      cases es' with
      | nil => exact ⟨rfl, (List.cons.inj h).2⟩
      | cons e' es' => exact absurd (List.cons.inj h).1.symm hclose
  | cons e es ih =>
      cases es' with
      | nil => exact absurd (List.cons.inj h).1 hclose
      | cons e' es' =>
          obtain ⟨he, hes⟩ := List.forall_mem_cons.1 hes
          obtain ⟨hfree, hfrees⟩ := List.forall_mem_append.1 hfree
          simp only [scriptTail, List.flatMap_cons, List.append_assoc] at h
          obtain ⟨heq, h⟩ := he hfree (endsNumber_scriptTail hdigit es rest)
            (endsNumber_scriptTail hdigit es' rest') (List.append_cancel_left h)
          obtain ⟨heqs, hrests⟩ := ih hes hfrees h
          exact ⟨by rw [unmarkedAll, unmarkedAll, heq, heqs], hrests⟩

theorem scriptArgs_append_inj {es' : List Formula} {rest rest' : List Char}
    (hfree : ∀ block ∈ blocksOfAll es', block.IsQuoteFree)
    (h : scriptArgs (c :: separator) es ++ ')' :: rest =
      scriptArgs (c :: separator) es' ++ ')' :: rest') :
    unmarkedAll es = unmarkedAll es' ∧ rest = rest' := by
  cases es with
  | nil =>
      cases es' with
      | nil => exact ⟨rfl, (List.cons.inj h).2⟩
      | cons e' es' =>
          rw [scriptArgs_cons, List.append_assoc] at h
          exact absurd h.symm (e'.scriptChars_append_ne _ _)
  | cons e es =>
      rw [scriptArgs_cons, List.append_assoc] at h
      cases es' with
      | nil => exact absurd h (e.scriptChars_append_ne _ _)
      | cons e' es' =>
          rw [scriptArgs_cons, List.append_assoc] at h
          obtain ⟨he, hes⟩ := List.forall_mem_cons.1 hes
          obtain ⟨hfree, hfrees⟩ := List.forall_mem_append.1 hfree
          obtain ⟨heq, h⟩ := he hfree (endsNumber_scriptTail hdigit es rest)
            (endsNumber_scriptTail hdigit es' rest') h
          obtain ⟨heqs, hrests⟩ := scriptTail_append_inj hclose hdigit hes hfrees h
          exact ⟨by rw [unmarkedAll, unmarkedAll, heq, heqs], hrests⟩

end

theorem isLegible_call (f : Builtin) {args : List Formula} (hargs : ∀ e ∈ args, e.IsLegible) :
    (call f args).IsLegible := by
  intro e' rest rest' hfree _ _ h
  have hopening := opening_eq h
  cases e' with
  | call f' args' =>
      obtain rfl : f = f' := Builtin.name_toList_inj (Opening.word.inj hopening)
      rw [call_append, call_append] at h
      obtain ⟨heqs, hrests⟩ := scriptArgs_append_inj (by decide) rfl hargs hfree
        (List.cons.inj (List.append_cancel_left h)).2
      exact ⟨congrArg (call f) heqs, hrests⟩
  | int n => cases f <;> cases hopening
  | cell ref anchor => cases f <;> cases hopening
  | indirect col row => cases f <;> cases hopening
  | index block position => cases f <;> cases hopening
  | _ => cases hopening

/-! ### Operands in parentheses -/

/-- Behind the first of several conditions no operator stands. -/
theorem scriptTail_append_ne (op : Operator) (es : List Formula) (rest after : List Char) :
    scriptTail " && ".toList es ++ ')' :: rest ≠ ' ' :: (op.scriptSign.toList ++ after) := by
  cases es with
  | nil => exact fun h => absurd (List.cons.inj h).1 (by decide)
  | cons e es =>
      intro h
      have h := (List.cons.inj h).2
      cases op <;> exact absurd (List.cons.inj h).1 (by decide)

theorem endsNumber_and (es : List Formula) (rest : List Char) :
    EndsRun Decimal.isDigit (scriptTail " && ".toList es ++ ')' :: rest) :=
  endsNumber_scriptTail rfl es rest

theorem isLegible_all {args : List Formula} (hargs : ∀ e ∈ args, e.IsLegible) :
    (all args).IsLegible := by
  intro e' rest rest' hfree _ _ h
  have hopening := opening_eq h
  cases e' with
  | all args' =>
      rw [all_append, all_append] at h
      obtain ⟨heqs, hrests⟩ :=
        scriptArgs_append_inj (by decide) rfl hargs hfree (List.cons.inj h).2
      exact ⟨congrArg all heqs, hrests⟩
  | binary op lhs rhs =>
      rw [all_append, binary_append] at h
      have h := (List.cons.inj h).2
      cases args with
      | nil => exact absurd h.symm (lhs.scriptChars_append_ne _ _)
      | cons e es =>
          rw [scriptArgs_cons, List.append_assoc] at h
          obtain ⟨_, h⟩ := hargs e List.mem_cons_self (List.forall_mem_append.1 hfree).1
            (endsNumber_and es rest) (.cons rfl _) h
          exact absurd h (scriptTail_append_ne op es _ _)
  | call f args => cases f <;> cases hopening
  | _ => cases hopening

theorem isLegible_binary (op : Operator) {lhs rhs : Formula} (hlhs : lhs.IsLegible)
    (hrhs : rhs.IsLegible) : (binary op lhs rhs).IsLegible := by
  intro e' rest rest' hfree _ _ h
  have hopening := opening_eq h
  cases e' with
  | all args =>
      rw [all_append, binary_append] at h
      have h := (List.cons.inj h).2
      cases args with
      | nil => exact absurd h (lhs.scriptChars_append_ne _ _)
      | cons e es =>
          rw [scriptArgs_cons, List.append_assoc] at h
          obtain ⟨_, h⟩ := hlhs (List.forall_mem_append.1 hfree).1 (.cons rfl _)
            (endsNumber_and es rest') h
          exact absurd h.symm (scriptTail_append_ne op es _ _)
  | binary op' lhs' rhs' =>
      obtain ⟨hfreeLhs, hfreeRhs⟩ := List.forall_mem_append.1 hfree
      rw [binary_append, binary_append] at h
      obtain ⟨heqLhs, h⟩ := hlhs hfreeLhs (.cons rfl _) (.cons rfl _) (List.cons.inj h).2
      obtain ⟨hop, h⟩ := Operator.scriptSign_append_inj (List.cons.inj h).2
      obtain ⟨heqRhs, h⟩ := hrhs hfreeRhs (.cons rfl _) (.cons rfl _) h
      rw [unmarked, unmarked, hop, heqLhs, heqRhs]
      exact ⟨rfl, (List.cons.inj h).2⟩
  | call f args => cases f <;> cases hopening
  | _ => cases hopening

theorem isLegible_cond {condition thenForm elseForm : Formula} (hcondition : condition.IsLegible)
    (hthen : thenForm.IsLegible) (helse : elseForm.IsLegible) :
    (cond condition thenForm elseForm).IsLegible := by
  intro e' rest rest' hfree _ _ h
  have hopening := opening_eq h
  cases e' with
  | cond condition' thenForm' elseForm' =>
      obtain ⟨hfree, hfreeElse⟩ := List.forall_mem_append.1 hfree
      obtain ⟨hfreeCondition, hfreeThen⟩ := List.forall_mem_append.1 hfree
      rw [cond_append, cond_append] at h
      obtain ⟨heqCondition, h⟩ := hcondition hfreeCondition (.append (by decide) _)
        (.append (by decide) _) (List.append_cancel_left h)
      obtain ⟨heqThen, h⟩ := hthen hfreeThen (.append (by decide) _) (.append (by decide) _)
        (List.append_cancel_left h)
      obtain ⟨heqElse, h⟩ := helse hfreeElse (.append (by decide) _) (.append (by decide) _)
        (List.append_cancel_left h)
      rw [unmarked, unmarked, heqCondition, heqThen, heqElse]
      exact ⟨rfl, List.append_cancel_left h⟩
  | call f args => cases f <;> cases hopening
  | _ => cases hopening

/-! ### Other references -/

theorem isLegible_indirect (col : Nat) {row : Formula} (hrow : row.IsLegible) :
    (indirect col row).IsLegible := by
  intro e' rest rest' hfree _ _ h
  have hopening := opening_eq h
  cases e' with
  | indirect col' row' =>
      rw [indirect_append, indirect_append] at h
      obtain ⟨hcol, hbehind⟩ := Decimal.digits_scriptComma_inj (List.append_cancel_left h)
      have hfree : ∀ block ∈ row'.blocks, block.IsQuoteFree := hfree
      obtain ⟨heq, hrests⟩ := hrow hfree (.cons rfl rest) (.cons rfl rest') hbehind
      rw [unmarked, unmarked, hcol, heq]
      exact ⟨rfl, (List.cons.inj hrests).2⟩
  | call f args => cases f <;> cases hopening
  | _ => cases hopening

/-- Here it counts that no name has a quote in it: the quote behind a name is
the first one. -/
theorem isLegible_index {block : ColumnBlock} (hblock : block.IsQuoteFree) {position : Formula}
    (hposition : position.IsLegible) : (index block position).IsLegible := by
  intro e' rest rest' hfree _ _ h
  have hopening := opening_eq h
  cases e' with
  | index block' position' =>
      obtain ⟨hblock', hfree⟩ := List.forall_mem_cons.1 hfree
      rw [index_append, index_append] at h
      obtain ⟨hsheet, h⟩ := Quoted.quoteFree_append_inj hblock hblock'
        (List.cons.inj (List.append_cancel_left h)).2
      obtain ⟨hcol, hbehind⟩ := Decimal.digits_scriptComma_inj (List.append_cancel_left h)
      obtain ⟨hfirst, hbehind⟩ := Decimal.digits_scriptComma_inj hbehind
      obtain ⟨hlast, hbehind⟩ := Decimal.digits_scriptComma_inj hbehind
      obtain ⟨heq, hrests⟩ := hposition hfree (.cons rfl rest) (.cons rfl rest') hbehind
      have heqBlock : block = block' := by
        cases block
        cases block'
        simp_all [String.toList_inj]
      rw [unmarked, unmarked, heqBlock, heq]
      exact ⟨rfl, (List.cons.inj hrests).2⟩
  | call f args => cases f <;> cases hopening
  | _ => cases hopening

mutual

/-- **A formula is known by its script** if no sheet of it has a quote in its
name. -/
theorem isLegible : ∀ e : Formula, (∀ block ∈ e.blocks, block.IsQuoteFree) → e.IsLegible
  | text s, _ => isLegible_text s
  | int n, _ => isLegible_int n
  | cell ref anchor, _ => isLegible_cell ref anchor
  | call f args, hfree => isLegible_call f (isLegible_of_mem args hfree)
  | all args, hfree => isLegible_all (isLegible_of_mem args hfree)
  | binary op lhs rhs, hfree => by
      obtain ⟨hlhs, hrhs⟩ := List.forall_mem_append.1 hfree
      exact isLegible_binary op (isLegible lhs hlhs) (isLegible rhs hrhs)
  | cond condition thenForm elseForm, hfree => by
      obtain ⟨hfree, helse⟩ := List.forall_mem_append.1 hfree
      obtain ⟨hcondition, hthen⟩ := List.forall_mem_append.1 hfree
      exact isLegible_cond (isLegible condition hcondition) (isLegible thenForm hthen)
        (isLegible elseForm helse)
  | indirect col row, hfree => isLegible_indirect col (isLegible row hfree)
  | index block position, hfree => by
      obtain ⟨hblock, hposition⟩ := List.forall_mem_cons.1 hfree
      exact isLegible_index hblock (isLegible position hposition)

theorem isLegible_of_mem : ∀ es : List Formula,
    (∀ block ∈ blocksOfAll es, block.IsQuoteFree) → ∀ e ∈ es, e.IsLegible
  | [], _ => by simp
  | e :: es, hfree => by
      obtain ⟨hfree, hfrees⟩ := List.forall_mem_append.1 hfree
      exact List.forall_mem_cons.2 ⟨isLegible e hfree, isLegible_of_mem es hfrees⟩

end

/-! ## Formulas with one script -/

mutual

theorem scriptChars_unmarked : ∀ e : Formula, e.unmarked.scriptChars = e.scriptChars
  | text _ | int _ | cell _ _ => rfl
  | call f args => by
      rw [unmarked, scriptChars.eq_def, scriptChars.eq_def (call f args)]
      simp only [scriptArgs_unmarked]
  | all args => by
      rw [unmarked, scriptChars.eq_def, scriptChars.eq_def (all args)]
      simp only [scriptArgs_unmarked]
  | binary op lhs rhs => by
      rw [unmarked, scriptChars.eq_def, scriptChars.eq_def (binary op lhs rhs)]
      simp only [scriptChars_unmarked lhs, scriptChars_unmarked rhs, Operator.scriptSign_merged]
  | cond condition thenForm elseForm => by
      rw [unmarked, scriptChars.eq_def, scriptChars.eq_def (cond condition thenForm elseForm)]
      simp only [scriptChars_unmarked condition, scriptChars_unmarked thenForm,
        scriptChars_unmarked elseForm]
  | indirect col row => by
      rw [unmarked, scriptChars.eq_def, scriptChars.eq_def (indirect col row)]
      simp only [scriptChars_unmarked row]
  | index block position => by
      rw [unmarked, scriptChars.eq_def, scriptChars.eq_def (index block position)]
      simp only [scriptChars_unmarked position]

theorem scriptArgs_unmarked (separator : List Char) : ∀ es : List Formula,
    scriptArgs separator (unmarkedAll es) = scriptArgs separator es
  | [] => rfl
  | [e] => scriptChars_unmarked e
  | e :: e' :: es => by
      change e.unmarked.scriptChars ++ separator ++ scriptArgs separator (unmarkedAll (e' :: es)) =
        e.scriptChars ++ separator ++ scriptArgs separator (e' :: es)
      rw [scriptChars_unmarked e, scriptArgs_unmarked separator (e' :: es)]

end

/-- **Formulas with one script are one formula**, pins and `&` and `+` apart,
if no sheet of them has a quote in its name. -/
theorem script_eq_iff {e e' : Formula} (hfree : ∀ block ∈ e.blocks, block.IsQuoteFree)
    (hfree' : ∀ block ∈ e'.blocks, block.IsQuoteFree) :
    e.script = e'.script ↔ e.unmarked = e'.unmarked := by
  constructor
  · intro h
    have hchars : e.scriptChars ++ [] = e'.scriptChars ++ [] := by
      rw [List.append_nil, List.append_nil]
      exact String.ofList_injective h
    exact (isLegible e hfree hfree' .nil .nil hchars).1
  · intro h
    rw [script, script, ← scriptChars_unmarked e, h, scriptChars_unmarked]

/-- `A1`, a text with quotes in it and a cell of a block, joined from the left. -/
def joinedFromLeft (op : Operator) (anchor : Anchor) : Formula :=
  .binary .add (.binary op (.cell ⟨0, 0⟩ anchor) (.text "say \"hi\""))
    (.index ⟨"back\\slash", 0, 0, 9⟩ (.int (-1)))

/-- The same, joined from the right. -/
def joinedFromRight : Formula :=
  .binary .add (.cell ⟨0, 0⟩ .relative)
    (.binary .add (.text "say \"hi\"") (.index ⟨"back\\slash", 0, 0, 9⟩ (.int (-1))))

/-- Pins and `&` do not show, the order does. -/
theorem script_eq_iff_joined :
    (∀ op anchor, ∀ block ∈ (joinedFromLeft op anchor).blocks, block.IsQuoteFree) ∧
      (∀ block ∈ joinedFromRight.blocks, block.IsQuoteFree) ∧
      (joinedFromLeft .concat .column).script = (joinedFromLeft .add .relative).script ∧
      (joinedFromLeft .add .relative).script ≠ joinedFromRight.script := by
  have hleft : ∀ op anchor, ∀ block ∈ (joinedFromLeft op anchor).blocks, block.IsQuoteFree := by
    intro op anchor block hblock
    obtain rfl := List.mem_singleton.1 hblock
    decide
  have hright : ∀ block ∈ joinedFromRight.blocks, block.IsQuoteFree := by decide
  refine ⟨hleft, hright, (script_eq_iff (hleft _ _) (hleft _ _)).2 rfl, ?_⟩
  rw [Ne, script_eq_iff (hleft _ _) hright]
  simp [joinedFromLeft, joinedFromRight, unmarked]

/-- **A quote in the name of a sheet can hide where its block ends**: two blocks
are written like one with such a name. -/
theorem script_merges_quotedName :
    let oneBlock : Formula := .call .min [.index ⟨"S\", 0, 0, 0, 1), INDEX(\"T", 0, 0, 0⟩ (.int 1)]
    let twoBlocks : Formula :=
      .call .min [.index ⟨"S", 0, 0, 0⟩ (.int 1), .index ⟨"T", 0, 0, 0⟩ (.int 1)]
    oneBlock.script = twoBlocks.script ∧ oneBlock.unmarked ≠ twoBlocks.unmarked := by
  intro oneBlock twoBlocks
  refine ⟨by decide +kernel, ?_⟩
  simp [oneBlock, twoBlocks, unmarked, unmarkedAll]

end Formula

end SheetCipher
