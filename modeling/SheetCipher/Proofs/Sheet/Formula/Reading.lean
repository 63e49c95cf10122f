import SheetCipher.Proofs.Sheet.Formula.Grammar
import SheetCipher.Proofs.Sheet.Formula.Scan
import SheetCipher.Proofs.Sheet.Formula.Tokens

/-!
# Reading — formula text read back

A sheet reads the text of a formula as the formula itself, but for operations
whose grouping makes no difference and is not written: `a + (b + c)`,
`a + (b - c)` and `a & (b & c)` come back grouped to the left. `regrouped` is
the formula with these regrouped; it is the one formula that the text may be
read as (`shown_isReading_iff`).
-/

namespace SheetCipher

namespace Operator

/-- Whether `a op (b op' c)` may be regrouped as `(a op b) op' c`. -/
def regroups : (op op' : Operator) → Bool
  | add, add | add, sub | concat, concat => true
  | _, _ => false

theorem strength_eq_rank (op : Operator) : op.strength = op.rank := by
  cases op <;> rfl

theorem rank_lt_operandStrength (op : Operator) : op.rank < Formula.operandStrength := by
  cases op <;> decide

theorem rank_pos (op : Operator) : 1 ≤ op.rank := by
  cases op <;> decide

theorem rank_ne_one {op : Operator} (h : op.isAssociative = true) : op.rank ≠ 1 := by
  intro hone
  cases op <;> cases hone <;> cases h

/-- What is regrouped needs no parentheses. -/
theorem regroups_iff {op op' : Operator} :
    op.regroups op' = true ↔ op.isAssociative = true ∧ op'.rank = op.rank := by
  cases op <;> cases op' <;> decide

end Operator

namespace Formula

/-- An operation, regrouped to the left as far as it goes. -/
def joinedTo (lhs : Formula) (op : Operator) : Formula → Formula
  | binary op' a b =>
    if op.regroups op' then binary op' (joinedTo lhs op a) b else binary op lhs (binary op' a b)
  | e => binary op lhs e

mutual

/-- A formula with all its operations regrouped to the left. -/
def regrouped : Formula → Formula
  | text s => text s
  | int n => int n
  | cell ref anchor => cell ref anchor
  | call f args => call f (regroupedAll args)
  | all args => all (regroupedAll args)
  | binary op lhs rhs => joinedTo lhs.regrouped op rhs.regrouped
  | cond condition thenForm elseForm =>
    cond condition.regrouped thenForm.regrouped elseForm.regrouped
  | indirect col row => indirect col row.regrouped
  | index block position => index block position.regrouped

/-- Several formulas, all regrouped. -/
def regroupedAll : List Formula → List Formula
  | [] => []
  | e :: es => e.regrouped :: regroupedAll es

end

/-- A formula that a text may be read as. -/
def IsReading (text : String) (e : Formula) : Prop :=
  ∃ ts, Token.scan text.toList = some ts ∧ Derives 1 ts e

/-! ## Regrouping -/

/-- How tightly the outermost operator binds. -/
def rank : Formula → Nat
  | binary op _ _ => op.rank
  | _ => operandStrength

theorem joinedTo_of_rank_ne {op : Operator} {lhs e : Formula}
    (h : op.isAssociative = true → e.rank ≠ op.rank) : joinedTo lhs op e = binary op lhs e := by
  cases e with
  | binary op' a b =>
      rw [joinedTo, if_neg]
      rw [Operator.regroups_iff]
      exact fun hregroups => h hregroups.1 hregroups.2
  | _ => rfl

theorem rank_joinedTo (lhs : Formula) (op : Operator) (e : Formula) :
    (joinedTo lhs op e).rank = op.rank := by
  cases e with
  | binary op' a b =>
      rw [joinedTo]
      split
      · rename_i hregroups
        exact (Operator.regroups_iff.1 hregroups).2
      · rfl
  | _ => rfl

theorem rank_regrouped (e : Formula) : e.regrouped.rank = e.rank := by
  cases e with
  | binary op lhs rhs =>
      rw [regrouped]
      exact rank_joinedTo _ op _
  | _ => rfl

/-- **Regrouping is associative** where it applies. -/
theorem joinedTo_joinedTo {op op' : Operator} (h : op.regroups op' = true) (a b c : Formula) :
    joinedTo a op (joinedTo b op' c) = joinedTo (joinedTo a op b) op' c := by
  obtain ⟨hassociative, hrank⟩ := Operator.regroups_iff.1 h
  fun_induction joinedTo b op' c with
  | case1 inner x y hinner ih =>
      have houter : op.regroups inner = true :=
        Operator.regroups_iff.2 ⟨hassociative, (Operator.regroups_iff.1 hinner).2.trans hrank⟩
      rw [joinedTo, if_pos houter, ih, joinedTo, if_pos hinner]
  | case2 inner x y hinner =>
      rw [joinedTo, if_pos h, joinedTo, if_neg hinner]
  | case3 e hne =>
      rw [joinedTo, if_pos h]
      cases e with
      | binary inner x y => exact absurd rfl (hne inner x y)
      | _ => rfl

theorem regrouped_binary_binary {op op' : Operator} (h : op.regroups op' = true)
    (a b c : Formula) :
    (binary op a (binary op' b c)).regrouped = (binary op' (binary op a b) c).regrouped :=
  joinedTo_joinedTo h a.regrouped b.regrouped c.regrouped

theorem regrouped_joinedTo (lhs : Formula) (op : Operator) (e : Formula) :
    (joinedTo lhs op e).regrouped = joinedTo lhs.regrouped op e.regrouped := by
  fun_induction joinedTo lhs op e with
  | case1 inner x y h ih =>
      rw [regrouped, ih, ← joinedTo_joinedTo h]
      rfl
  | case2 inner x y h => rfl
  | case3 e hne => rfl

mutual

/-- **Nothing is left to regroup.** -/
theorem regrouped_regrouped : ∀ e : Formula, e.regrouped.regrouped = e.regrouped
  | text _ | int _ | cell _ _ => rfl
  | call f args => congrArg (call f) (regroupedAll_regroupedAll args)
  | all args => congrArg all (regroupedAll_regroupedAll args)
  | binary op lhs rhs => by
      rw [regrouped, regrouped_joinedTo, regrouped_regrouped lhs, regrouped_regrouped rhs]
  | cond condition thenForm elseForm => by
      simp only [regrouped, regrouped_regrouped condition, regrouped_regrouped thenForm,
        regrouped_regrouped elseForm]
  | indirect col row => congrArg (indirect col) (regrouped_regrouped row)
  | index block position => congrArg (index block) (regrouped_regrouped position)

theorem regroupedAll_regroupedAll : ∀ es : List Formula,
    regroupedAll (regroupedAll es) = regroupedAll es
  | [] => rfl
  | e :: es => by
      simp only [regroupedAll, regrouped_regrouped e, regroupedAll_regroupedAll es]

end

/-! ## The grammar derives what is written -/

theorem Derives.of_le {strength weaker : Nat} {ts : List Token} {e : Formula}
    (h : Derives strength ts e) (hle : weaker ≤ strength) : Derives weaker ts e := by
  obtain ⟨n, rfl⟩ := Nat.exists_eq_add_of_le hle
  induction n with
  | zero => exact h
  | succ n ih => exact ih (.looser h) (Nat.le_add_right _ _)

theorem isWrapped_iff {op : Operator} {onRight : Bool} {e : Formula} :
    e.isWrapped op onRight = true ↔ e.rank < op.rank ∨
      (e.rank = op.rank ∧ ((onRight = true ∧ op.isAssociative = false) ∨ op.rank = 1)) := by
  have hoperand := op.rank_lt_operandStrength
  cases e with
  | binary inner lhs rhs =>
      simp [isWrapped, rank, Operator.strength_eq_rank]
  | _ =>
      simp only [isWrapped, rank, Bool.false_eq_true, false_iff]
      omega

/-- What is written of a formula, alone and on the right of an operator, is
derived by the grammar. -/
structure IsDerived (e : Formula) : Prop where
  alone : Derives e.rank e.tokens e.regrouped
  right : ∀ (op : Operator) (lts : List Token) (lhs : Formula), Derives op.rank lts lhs →
    Derives op.rank (lts ++ .operator op :: operandTokens op true e) (joinedTo lhs op e.regrouped)

theorem rank_pos (e : Formula) : 1 ≤ e.rank := by
  cases e with
  | binary op lhs rhs => exact op.rank_pos
  | _ => exact Nat.le_of_lt (by decide : 1 < operandStrength)

/-- An operand that stands in parentheses or binds tighter is not regrouped. -/
theorem derives_right {op : Operator} {e : Formula} (halone : Derives e.rank e.tokens e.regrouped)
    (h : e.isWrapped op true = true ∨ op.rank < e.rank) {lts : List Token} {lhs : Formula}
    (hlhs : Derives op.rank lts lhs) : Derives op.rank
      (lts ++ .operator op :: operandTokens op true e) (joinedTo lhs op e.regrouped) := by
  have hrank : op.isAssociative = true → e.regrouped.rank ≠ op.rank := by
    intro hassociative
    have hone := Operator.rank_ne_one hassociative
    rw [rank_regrouped]
    rw [isWrapped_iff, hassociative] at h
    simp only [Bool.true_eq_false, and_false, false_or] at h
    omega
  rw [joinedTo_of_rank_ne hrank, operandTokens]
  refine .binary op hlhs ?_
  split
  · exact (Derives.parens (halone.of_le e.rank_pos)).of_le op.rank_lt_operandStrength
  · rename_i hunwrapped
    exact halone.of_le (h.resolve_left hunwrapped)

theorem derives_left {op : Operator} {e : Formula} (halone : Derives e.rank e.tokens e.regrouped) :
    Derives op.rank (operandTokens op false e) e.regrouped := by
  rw [operandTokens]
  split
  · exact (Derives.parens (halone.of_le e.rank_pos)).of_le (Nat.le_of_lt op.rank_lt_operandStrength)
  · rename_i hunwrapped
    rw [isWrapped_iff] at hunwrapped
    exact halone.of_le (by omega)

theorem IsDerived.of_alone {e : Formula} (h : e.rank = operandStrength)
    (halone : Derives operandStrength e.tokens e.regrouped) : e.IsDerived where
  alone := h ▸ halone
  right := fun op _ _ hlhs =>
    derives_right (h ▸ halone) (.inr (h ▸ op.rank_lt_operandStrength)) hlhs

/-- An operand of an operation that is regrouped stands in parentheses when it
does on its own. -/
theorem operandTokens_of_regroups {op op' : Operator} (h : op.regroups op' = true) (e : Formula) :
    operandTokens op' false e = operandTokens op true e := by
  obtain ⟨hassociative, hrank⟩ := Operator.regroups_iff.1 h
  have hone := Operator.rank_ne_one hassociative
  have hsame : e.isWrapped op' false = e.isWrapped op true := by
    rw [Bool.eq_iff_iff, isWrapped_iff, isWrapped_iff, hrank, hassociative]
    simp
  rw [operandTokens, operandTokens, hsame]

theorem IsDerived.binary {a b : Formula} (ha : a.IsDerived) (hb : b.IsDerived) (op : Operator) :
    (binary op a b).IsDerived := by
  have halone :
      Derives op.rank (Formula.binary op a b).tokens (Formula.binary op a b).regrouped := by
    rw [tokens_binary, regrouped]
    exact hb.right op _ _ (derives_left ha.alone)
  refine ⟨halone, fun outer lts lhs hlhs => ?_⟩
  by_cases h : (Formula.binary op a b).isWrapped outer true = true ∨ outer.rank < op.rank
  · exact derives_right (e := Formula.binary op a b) halone h hlhs
  · -- the operation stands without parentheses on the right of one as strong
    rw [not_or] at h
    have hregroups : outer.regroups op = true := by
      rw [isWrapped_iff] at h
      simp only [rank, not_or, not_and, Bool.not_eq_false] at h
      have hrank : op.rank = outer.rank := by omega
      exact Operator.regroups_iff.2 ⟨(h.1.2 hrank).1 trivial, hrank⟩
    have hrank := (Operator.regroups_iff.1 hregroups).2
    have hleft := ha.right outer lts lhs hlhs
    rw [← hrank] at hleft ⊢
    have hboth := hb.right op _ _ hleft
    rw [operandTokens, if_neg h.1, tokens_binary, operandTokens_of_regroups hregroups, regrouped,
      joinedTo_joinedTo hregroups]
    simpa using hboth

/-! ### Arguments -/

theorem argTokens_eq (es : List Formula) : argTokens es = Token.separated (es.map tokens) := by
  induction es with
  | nil => rfl
  | cons e es ih =>
      cases es with
      | nil => rfl
      | cons e' es =>
          rw [argTokens, ih]
          · rfl
          · exact fun h => by cases h

theorem regroupedAll_eq (es : List Formula) : regroupedAll es = es.map regrouped := by
  induction es with
  | nil => rfl
  | cons e es ih => rw [regroupedAll, ih, List.map_cons]

theorem derives_call {word : String} {args : List Formula} {e : Formula}
    (hargs : ∀ arg ∈ args, arg.IsDerived) (hcall : ofCall? word (args.map regrouped) = some e) :
    Derives operandStrength (.name word :: inParens (argTokens args)) e := by
  have hderives : ∀ arg ∈ args.map fun arg => (arg.tokens, arg.regrouped), Derives 1 arg.1 arg.2 :=
    List.forall_mem_map.2 fun arg harg => (hargs arg harg).alone.of_le arg.rank_pos
  rw [argTokens_eq, show args.map tokens =
    (args.map fun arg => (arg.tokens, arg.regrouped)).map Prod.fst by simp]
  exact .call hderives (by simpa [Function.comp_def] using hcall)

theorem ofCall?_name (f : Builtin) (args : List Formula) :
    ofCall? f.name args = some (call f args) := by
  cases f <;> rfl

theorem columnNamed?_columnText (col : Nat) : columnNamed? (CellRef.columnText col) = some col := by
  have hne : CellRef.columnText col ≠ "" := by
    simpa [CellRef.columnText] using CellRef.letters_ne_nil col
  rw [columnNamed?, if_pos ⟨hne, by simp [CellRef.columnText, CellRef.all_isLetter_letters]⟩,
    CellRef.columnText, String.toList_ofList, CellRef.lettersValue_letters]
  rfl

mutual

/-- **The grammar derives the regrouped formula.** -/
theorem isDerived : ∀ e : Formula, e.IsDerived
  | text s => .of_alone rfl (.text s)
  | int n => .of_alone rfl (.int n)
  | cell ref anchor => .of_alone rfl (.cell ref anchor)
  | call f args => .of_alone rfl <| by
      rw [regrouped, regroupedAll_eq]
      exact derives_call (isDerived_of_mem args) (ofCall?_name f _)
  | all args => .of_alone rfl <| by
      rw [regrouped, regroupedAll_eq]
      exact derives_call (isDerived_of_mem args) rfl
  | binary op lhs rhs => (isDerived lhs).binary (isDerived rhs) op
  | cond condition thenForm elseForm => .of_alone rfl <| by
      have hargs : ∀ arg ∈ [condition, thenForm, elseForm], arg.IsDerived := by
        simp [isDerived condition, isDerived thenForm, isDerived elseForm]
      have hcall : ofCall? "IF" ([condition, thenForm, elseForm].map regrouped) =
        some (cond condition thenForm elseForm).regrouped := rfl
      simpa [tokens, argTokens, inParens] using derives_call hargs hcall
  | indirect col row => .of_alone rfl <|
      .indirect (columnNamed?_columnText col) ((isDerived row).alone.of_le row.rank_pos)
  | index block position => .of_alone rfl <|
      .index block ((isDerived position).alone.of_le position.rank_pos)

theorem isDerived_of_mem : ∀ es : List Formula, ∀ e ∈ es, e.IsDerived
  | [] => by simp
  | e :: es => List.forall_mem_cons.2 ⟨isDerived e, isDerived_of_mem es⟩

end

/-! ## What is written is found -/

theorem next_inParens {ts : List Token} (h : ∃ operand, ts.foldlM Token.next true = some operand)
    (operand : Bool) : (inParens ts).foldlM Token.next operand = some false := by
  obtain ⟨_, h⟩ := h
  show (ts ++ [Token.closeParen]).foldlM Token.next true = _
  rw [List.foldlM_append, h]
  rfl

theorem next_operandTokens {e : Formula} (h : e.tokens.foldlM Token.next true = some false)
    (op : Operator) (onRight : Bool) :
    (operandTokens op onRight e).foldlM Token.next true = some false := by
  rw [operandTokens]
  split
  · exact next_inParens ⟨_, h⟩ true
  · exact h

theorem next_binary {ts ts' : List Token} (h : ts.foldlM Token.next true = some false)
    (h' : ts'.foldlM Token.next true = some false) {t : Token} (ht : t.next false = some true) :
    (ts ++ t :: ts').foldlM Token.next true = some false := by
  rw [List.foldlM_append, h]
  show (t.next false >>= fun operand => ts'.foldlM Token.next operand) = _
  rw [ht]
  exact h'

mutual

/-- In the tokens of a formula operands and operators take turns. -/
theorem next_tokens : ∀ e : Formula, e.tokens.foldlM Token.next true = some false
  | text _ | int _ | cell _ _ => rfl
  | call _ args => next_inParens (next_argTokens args) false
  | all args => next_inParens (next_argTokens args) false
  | binary op lhs rhs => by
      rw [tokens_binary]
      exact next_binary (next_operandTokens (next_tokens lhs) op false)
        (next_operandTokens (next_tokens rhs) op true) rfl
  | cond condition thenForm elseForm =>
      next_inParens ⟨false, next_binary
        (next_binary (next_tokens condition) (next_tokens thenForm) rfl) (next_tokens elseForm) rfl⟩
        false
  | indirect col row =>
      next_inParens ⟨false, next_inParens ⟨false, next_tokens row⟩ true⟩ false
  | index block position => next_inParens ⟨false, next_tokens position⟩ false

theorem next_argTokens : ∀ es : List Formula,
    ∃ operand, (argTokens es).foldlM Token.next true = some operand
  | [] => ⟨true, rfl⟩
  | [e] => ⟨false, next_tokens e⟩
  | e :: e' :: es => by
      obtain ⟨operand, h⟩ := next_argTokens (e' :: es)
      refine ⟨operand, ?_⟩
      show (e.tokens ++ .comma :: argTokens (e' :: es)).foldlM Token.next true = _
      rw [List.foldlM_append, next_tokens e]
      exact h

end

/-- A row whose number is a machine word. -/
theorem rowIsNumbered_of_lt {row : Nat} (h : row < 0xffffffffffffffff) :
    CellRef.rowIsNumbered row = true := by
  rw [CellRef.rowIsNumbered, decide_eq_true_eq, Word.count]
  omega

theorem isNumbered_of_lt {e : Formula} (hcells : ∀ ref ∈ e.cells, ref.row < 0xffffffffffffffff)
    (hblocks : ∀ block ∈ e.blocks,
      block.firstRow < 0xffffffffffffffff ∧ block.lastRow < 0xffffffffffffffff) :
    e.isNumbered = true := by
  rw [isNumbered, Bool.and_eq_true, List.all_eq_true, List.all_eq_true]
  refine ⟨fun ref href => rowIsNumbered_of_lt (hcells ref href), fun block hblock => ?_⟩
  rw [rowIsNumbered_of_lt (hblocks block hblock).1, rowIsNumbered_of_lt (hblocks block hblock).2]
  rfl

/-- **The text of a formula reads back.** A formula whose sheets have words of
letters for names and whose rows are numbered is shown as a text that may be
read as the formula, regrouped to the left, and as nothing else. -/
theorem shown_isReading_iff (e : Formula) (hsheets : ∀ block ∈ e.blocks, IsWord block.sheet)
    (hcells : ∀ ref ∈ e.cells, ref.row < 0xffffffffffffffff)
    (hblocks : ∀ block ∈ e.blocks,
      block.firstRow < 0xffffffffffffffff ∧ block.lastRow < 0xffffffffffffffff) :
    ∃ text, e.shown = .ok text ∧ ∀ t, IsReading text t ↔ t = e.regrouped := by
  have hscan : Token.scan e.sheetText.toList = some e.tokens := by
    rw [sheetText, String.toList_ofList]
    exact Token.scan_chars (isWritable_tokens e hsheets) ⟨false, next_tokens e⟩
  have hderives : Derives 1 e.tokens e.regrouped := (isDerived e).alone.of_le e.rank_pos
  refine ⟨e.sheetText, if_pos (isNumbered_of_lt hcells hblocks), fun t => ⟨?_, ?_⟩⟩
  · rintro ⟨ts, hts, ht⟩
    cases hscan.symm.trans hts
    exact ht.unique hderives
  · rintro rfl
    exact ⟨e.tokens, hscan, hderives⟩

/-- A sum whose right operand is a difference, with an entry of another sheet
and a text with quotes in it. -/
def nestedSum : Formula :=
  binary .add (cell ⟨27, 9⟩ .column)
    (binary .sub (int (-5)) (index ⟨"Data", 0, 0, 4⟩ (call .len [text "say \"hi\""])))

/-- It reads back as a difference whose left operand is a sum, and not as it
was. -/
theorem shown_isReading_nestedSum : ∃ shown, nestedSum.shown = .ok shown ∧
    IsReading shown (binary .sub (binary .add (cell ⟨27, 9⟩ .column) (int (-5)))
      (index ⟨"Data", 0, 0, 4⟩ (call .len [text "say \"hi\""]))) ∧
    ¬ IsReading shown nestedSum := by
  obtain ⟨shown, hshown, hreading⟩ :=
    shown_isReading_iff nestedSum (by decide) (by decide) (by decide)
  refine ⟨shown, hshown, (hreading _).2 rfl, fun h => ?_⟩
  cases (hreading _).1 h

end Formula

end SheetCipher
