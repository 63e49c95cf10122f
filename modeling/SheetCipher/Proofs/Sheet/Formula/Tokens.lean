import SheetCipher.Proofs.Sheet.Formula.Word

/-!
# Tokens — what the text of a formula is made of

Signs, numbers, addresses and the names of functions and columns are the same
in every formula; its literal texts and the blocks of other sheets are free.
What holds of the common tokens and of these holds of all (`forall_tokens`).
-/

namespace SheetCipher

/-- A token that any formula may be written with. -/
def Token.IsCommon : Token → Prop
  | text s => ∃ col, s = CellRef.columnText col
  | name word => IsWord word
  | block _ => False
  | _ => True

namespace Formula

mutual

/-- The literal texts, as often as they occur. -/
def texts : Formula → List String
  | text s => [s]
  | int _ | cell _ _ => []
  | call _ args => textsOfAll args
  | all args => textsOfAll args
  | binary _ lhs rhs => lhs.texts ++ rhs.texts
  | cond condition thenForm elseForm => condition.texts ++ thenForm.texts ++ elseForm.texts
  | indirect _ row => row.texts
  | index _ position => position.texts

/-- The literal texts of several formulas. -/
def textsOfAll : List Formula → List String
  | [] => []
  | e :: es => e.texts ++ textsOfAll es

end

/-- The tokens of an operand, between parentheses if it stands in them. -/
def operandTokens (op : Operator) (onRight : Bool) (e : Formula) : List Token :=
  if e.isWrapped op onRight then inParens e.tokens else e.tokens

theorem tokens_binary (op : Operator) (lhs rhs : Formula) : (binary op lhs rhs).tokens =
    operandTokens op false lhs ++ .operator op :: operandTokens op true rhs := by
  rw [tokens]
  rfl

theorem isWord_name (f : Builtin) : IsWord f.name := by
  cases f <;> decide

section

variable {P : Token → Prop} (hcommon : ∀ t : Token, t.IsCommon → P t) {ts ts' : List Token}

theorem forall_between (h : ∀ t ∈ ts, P t) {between : Token} (hbetween : P between)
    (h' : ∀ t ∈ ts', P t) : ∀ t ∈ ts ++ between :: ts', P t :=
  List.forall_mem_append.2 ⟨h, List.forall_mem_cons.2 ⟨hbetween, h'⟩⟩

include hcommon

theorem forall_inParens (h : ∀ t ∈ ts, P t) : ∀ t ∈ inParens ts, P t :=
  List.forall_mem_append.2 ⟨List.forall_mem_cons.2 ⟨hcommon .openParen trivial, h⟩,
    List.forall_mem_singleton.2 (hcommon .closeParen trivial)⟩

theorem forall_call {word : String} (hword : IsWord word) (h : ∀ t ∈ ts, P t) :
    ∀ t ∈ .name word :: inParens ts, P t :=
  List.forall_mem_cons.2 ⟨hcommon (.name word) hword, forall_inParens hcommon h⟩

theorem forall_operandTokens {e : Formula} (h : ∀ t ∈ e.tokens, P t) (op : Operator)
    (onRight : Bool) : ∀ t ∈ operandTokens op onRight e, P t := by
  rw [operandTokens]
  split
  · exact forall_inParens hcommon h
  · exact h

mutual

/-- **What holds of common tokens, of the texts and of the blocks of a formula**
holds of all that is written of it. -/
theorem forall_tokens : ∀ e : Formula, (∀ s ∈ e.texts, P (.text s)) →
    (∀ block ∈ e.blocks, P (.block block)) → ∀ t ∈ e.tokens, P t
  | text s, htexts, _ => List.forall_mem_singleton.2 (htexts s (List.mem_singleton_self s))
  | int n, _, _ => List.forall_mem_singleton.2 (hcommon (.int n) trivial)
  | cell ref anchor, _, _ => List.forall_mem_singleton.2 (hcommon (.cell ref anchor) trivial)
  | call f args, htexts, hblocks =>
      forall_call hcommon (isWord_name f) (forall_argTokens args htexts hblocks)
  | all args, htexts, hblocks =>
      forall_call hcommon (by decide) (forall_argTokens args htexts hblocks)
  | binary op lhs rhs, htexts, hblocks => by
      have htexts := List.forall_mem_append.1 htexts
      have hblocks := List.forall_mem_append.1 hblocks
      have hlhs := forall_tokens lhs htexts.1 hblocks.1
      have hrhs := forall_tokens rhs htexts.2 hblocks.2
      rw [tokens_binary]
      exact forall_between (forall_operandTokens hcommon hlhs op false)
        (hcommon (.operator op) trivial) (forall_operandTokens hcommon hrhs op true)
  | cond condition thenForm elseForm, htexts, hblocks => by
      have htexts := List.forall_mem_append.1 htexts
      have hblocks := List.forall_mem_append.1 hblocks
      have htexts' := List.forall_mem_append.1 htexts.1
      have hblocks' := List.forall_mem_append.1 hblocks.1
      have hcomma : P .comma := hcommon .comma trivial
      exact forall_call hcommon (by decide) (forall_between
        (forall_between (forall_tokens condition htexts'.1 hblocks'.1) hcomma
          (forall_tokens thenForm htexts'.2 hblocks'.2)) hcomma
        (forall_tokens elseForm htexts.2 hblocks.2))
  | indirect col row, htexts, hblocks => by
      have hrow := forall_inParens hcommon (forall_tokens row htexts hblocks)
      exact forall_call hcommon (by decide) (List.forall_mem_cons.2
        ⟨hcommon (.text _) ⟨col, rfl⟩, List.forall_mem_cons.2
          ⟨hcommon (.operator .concat) trivial, hrow⟩⟩)
  | index block position, htexts, hblocks => by
      have hblocks := List.forall_mem_cons.1 hblocks
      exact forall_call hcommon (by decide) (List.forall_mem_cons.2 ⟨hblocks.1,
        List.forall_mem_cons.2
          ⟨hcommon .comma trivial, forall_tokens position htexts hblocks.2⟩⟩)

theorem forall_argTokens : ∀ es : List Formula, (∀ s ∈ textsOfAll es, P (.text s)) →
    (∀ block ∈ blocksOfAll es, P (.block block)) → ∀ t ∈ argTokens es, P t
  | [], _, _ => by simp [argTokens]
  | [e], htexts, hblocks =>
      forall_tokens e (List.forall_mem_append.1 htexts).1 (List.forall_mem_append.1 hblocks).1
  | e :: e' :: es, htexts, hblocks => by
      have htexts := List.forall_mem_append.1 htexts
      have hblocks := List.forall_mem_append.1 hblocks
      exact forall_between (forall_tokens e htexts.1 hblocks.1) (hcommon .comma trivial)
        (forall_argTokens (e' :: es) htexts.2 hblocks.2)

end

end

/-- The tokens of a formula can be written if the names of its sheets are
words. -/
theorem isWritable_tokens (e : Formula) (h : ∀ block ∈ e.blocks, IsWord block.sheet) :
    ∀ t ∈ e.tokens, t.IsWritable := by
  refine forall_tokens ?_ e (fun _ _ => trivial) h
  intro t ht
  cases t with
  | name word => exact ht
  | block b => exact ht.elim
  | text | int | cell | operator | openParen | closeParen | comma => trivial

end Formula

end SheetCipher
