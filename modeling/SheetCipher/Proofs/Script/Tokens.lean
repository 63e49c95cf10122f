import SheetCipher.Eval.Formula
import SheetCipher.Proofs.Script.Lexer

/-!
# Tokens — the script of a formula as a row of tokens

The tokens of a formula, said without its script (`tokensBefore`), and the
induction over formulas which shows that the script is taken for just these
(`tokens_scriptChars`). The names of all sheets have to stand for themselves: a
name with a quote in it ends the text that it stands in.
-/

namespace SheetCipher

namespace Formula

/-- A row or column number as a token. -/
def numberToken (n : Nat) : Script.Token := .constant (.ofInt n)

mutual

/-- The tokens of a formula's script in front of others. A text that runs over a
line end hides all that follows. -/
def tokensBefore : Formula → List Script.Token → List Script.Token
  | text s, rest =>
    if '\n' ∈ s.toList then [.flaw .openText] else .constant (.text s) :: rest
  | int n, rest => .constant (.int n) :: rest
  | cell ref _, rest =>
    .name Callee.value.name :: .sign "(" :: numberToken ref.col :: .sign "," ::
      numberToken ref.row :: .sign ")" :: rest
  | call f args, rest => .name f.name :: groupBefore "," args rest
  | all args, rest => groupBefore "&&" args rest
  | binary op lhs rhs, rest =>
    .sign "(" :: lhs.tokensBefore (.sign op.scriptSign :: rhs.tokensBefore (.sign ")" :: rest))
  | cond condition thenForm elseForm, rest =>
    .sign "(" :: .keyword "if" :: condition.tokensBefore (.sign "\x7b" ::
      thenForm.tokensBefore (.sign "\x7d" :: .keyword "else" :: .sign "\x7b" ::
        elseForm.tokensBefore (.sign "\x7d" :: .sign ")" :: rest)))
  | indirect col row, rest =>
    .name Callee.indirect.name :: .sign "(" :: numberToken col :: .sign "," ::
      row.tokensBefore (.sign ")" :: rest)
  | index block position, rest =>
    .name Callee.index.name :: .sign "(" :: .constant (.text block.sheet) :: .sign "," ::
      numberToken block.col :: .sign "," :: numberToken block.firstRow :: .sign "," ::
        numberToken block.lastRow :: .sign "," :: position.tokensBefore (.sign ")" :: rest)

/-- The tokens of formulas in parentheses, with a sign between each two. -/
def groupBefore (separator : String) : List Formula → List Script.Token → List Script.Token
  | [], rest => .constant .blank :: rest
  | e :: es, rest => .sign "(" :: e.tokensBefore (othersBefore separator es (.sign ")" :: rest))

/-- The tokens of formulas with a sign in front of each. -/
def othersBefore (separator : String) : List Formula → List Script.Token → List Script.Token
  | [], rest => rest
  | e :: es, rest => .sign separator :: e.tokensBefore (othersBefore separator es rest)

end

end Formula

namespace Script

open Formula (scriptComma scriptTail blocksOfAll)
open SheetCipher.Token (ne_of_kind)

/-! ## Separators -/

/-- A separator between arguments, and the sign that it is taken for. -/
structure Separates (separator : List Char) (text : String) : Prop where
  lexes : ∀ rest, Lexes true false (separator ++ rest) rest (.sign text :: ·)
  ends : ∀ rest, EndsNumber (separator ++ rest)

theorem EndsNumber.cons {c : Char} (h : c ∈ [' ', ')', ',']) (rest : List Char) :
    EndsNumber (c :: rest) := by
  rintro _ ⟨⟩
  exact h

theorem EndsNumber.nil : EndsNumber [] := nofun

theorem EndsNumber.head?_ne {rest : List Char} (h : EndsNumber rest) : rest.head? ≠ some '"' :=
  fun hquote => absurd (h _ hquote) (by decide)

theorem separates_comma : Separates scriptComma "," where
  lexes := fun rest =>
    have hsign : Lexes true false (",".toList ++ ' ' :: rest) rest (.sign "," :: ·) :=
      .spacedSign (by decide) rest
    hsign
  ends := fun _ => .cons (by decide) _

theorem separates_and : Separates " && ".toList "&&" where
  lexes := fun rest => by
    have hsign : Lexes true false ("&&".toList ++ ' ' :: rest) rest (.sign "&&" :: ·) :=
      .spacedSign (by decide) rest
    exact (Lexes.space true ("&&".toList ++ ' ' :: rest)).trans hsign
  ends := fun rest => .cons (c := ' ') (by decide) _

theorem endsNumber_scriptTail {separator rest : List Char} {text : String}
    (hseparator : Separates separator text) (hrest : EndsNumber rest) (es : List Formula) :
    EndsNumber (scriptTail separator es ++ rest) := by
  cases es with
  | nil => exact hrest
  | cons e es =>
      rw [scriptTail, List.flatMap_cons, List.append_assoc, List.append_assoc]
      exact hseparator.ends _

/-! ## Formulas -/

theorem exists_head?_digits (n : Nat) (rest : List Char) :
    ∃ c, (Decimal.digits n ++ rest).head? = some c ∧ c ≠ ')' ∧ c ≠ '*' := by
  obtain ⟨c, hc, hdigit⟩ := SheetCipher.Token.head?_append_of_all (Decimal.digits_ne_nil n)
    (Decimal.all_isDigit_digits n) rest
  exact ⟨c, hc, ne_of_kind hdigit rfl, ne_of_kind hdigit rfl⟩

theorem exists_head?_formula (e : Formula) (rest : List Char) :
    ∃ c, (e.scriptChars ++ rest).head? = some c ∧ c ≠ ')' ∧ c ≠ '*' := by
  obtain ⟨c, hc, _, hne⟩ := e.exists_head?_scriptChars rest
  exact ⟨c, hc, hne⟩

/-- The name of a sheet that stands for itself is the text that it names. -/
theorem Lexes.sheetName {name : String} (h : Formula.isPlainName name = true) (a : Bool)
    {rest : List Char} (hrest : rest.head? ≠ some '"') :
    Lexes a true ('"' :: (name.toList ++ '"' :: rest)) rest (.constant (.text name) :: ·) := by
  have hplain := List.all_eq_true.1 h
  simp only [Bool.and_eq_true, decide_eq_true_eq] at hplain
  have hline : '\n' ∉ name.toList := fun hmem => (hplain _ hmem).2 rfl
  have hchar : ∀ c ∈ name.toList, Quoted.escapedChar c = [c] := fun c hc =>
    if_neg (not_or.2 ⟨(hplain c hc).1.2, (hplain c hc).1.1⟩)
  have hchars : name.toList.flatMap Quoted.escapedChar = name.toList := by
    rw [List.flatMap_def, List.map_congr_left hchar, ← List.flatMap_def, List.flatMap_singleton']
  have htext := Lexes.text a hline hrest
  rw [escaped_append, hchars] at htext
  exact htext

theorem scriptSign_mem (op : Operator) : op.scriptSign ∈ spacedSigns := by cases op <;> decide

theorem Lexes.choiceOpen (rest : List Char) :
    Lexes false false ("(if ".toList ++ rest) rest
      fun tokens => .sign "(" :: .keyword "if" :: tokens := by
  have hword : Lexes false false ('i' :: 'f' :: ' ' :: rest) (' ' :: rest) (.keyword "if" :: ·) :=
    @Lexes.word 'i' ['f'] _ _ (by decide) (by decide) (fun _ => rfl) rfl false (.cons rfl rest)
  change Lexes false false ('(' :: 'i' :: 'f' :: ' ' :: rest) rest _
  exact (Lexes.open false ⟨'i', rfl, by decide⟩).trans (hword.trans (.space false rest))

theorem Lexes.blockOpen (rest : List Char) :
    Lexes true false (" \x7b ".toList ++ rest) rest (.sign "\x7b" :: ·) := by
  have hsign : Lexes true false ("\x7b".toList ++ ' ' :: rest) rest (.sign "\x7b" :: ·) :=
    .spacedSign (by decide) rest
  exact (Lexes.space true ("\x7b".toList ++ ' ' :: rest)).trans hsign

theorem Lexes.blockElse (rest : List Char) :
    Lexes true false (" \x7d else \x7b ".toList ++ rest) rest
      fun tokens => .sign "\x7d" :: .keyword "else" :: .sign "\x7b" :: tokens := by
  have hword : Lexes true true ('e' :: 'l' :: 's' :: 'e' :: (" \x7b ".toList ++ rest))
      (" \x7b ".toList ++ rest) (.keyword "else" :: ·) :=
    @Lexes.word 'e' ['l', 's', 'e'] _ _ (by decide) (by decide) (fun _ => rfl) rfl true
      (.cons (c := ' ') rfl _)
  change Lexes true false
    (' ' :: '\x7d' :: ' ' :: 'e' :: 'l' :: 's' :: 'e' :: (" \x7b ".toList ++ rest)) rest _
  exact (Lexes.space true _).trans <| (Lexes.closeBrace true _).trans <|
    (Lexes.space true _).trans <| hword.trans (.blockOpen rest)

theorem Lexes.choiceClose (rest : List Char) :
    Lexes true true (" \x7d)".toList ++ rest) rest
      fun tokens => .sign "\x7d" :: .sign ")" :: tokens := by
  change Lexes true true (' ' :: '\x7d' :: ')' :: rest) rest _
  exact (Lexes.space true _).trans <| (Lexes.closeBrace true _).trans (.close true rest)

/-- Numbers, each with a separator behind it. -/
theorem Lexes.digitsComma (n : Nat) (rest : List Char) :
    Lexes false false (Decimal.digits n ++ (scriptComma ++ rest)) rest
      fun tokens => Formula.numberToken n :: .sign "," :: tokens :=
  (Lexes.digits false n (separates_comma.ends rest)).trans (separates_comma.lexes rest)

/-- The name of what is called and the parenthesis that opens, in front of
arguments. -/
theorem Lexes.nameOpen {f : Callee} {name cs : List Char} (hname : name = f.name.toList ++ ['('])
    (h : ∃ c, cs.head? = some c ∧ c ≠ ')' ∧ c ≠ '*') :
    Lexes false false (name ++ cs) cs fun tokens => .name f.name :: .sign "(" :: tokens := by
  rw [hname, List.append_assoc]
  exact (Lexes.name f false cs).trans (.open true h)

mutual

/-- A formula's script is taken for the tokens of the formula. -/
theorem lexes_scriptChars : ∀ (e : Formula) {rest : List Char},
    (∀ block ∈ e.blocks, Formula.isPlainName block.sheet = true) → EndsNumber rest →
      Lexes false true (e.scriptChars ++ rest) rest e.tokensBefore
  | .text s, rest, _, hrest => by
      by_cases hline : '\n' ∈ s.toList
      · have htokens : (Formula.text s).tokensBefore = fun _ => [.flaw .openText] :=
          funext fun _ => if_pos hline
        exact htokens ▸ Lexes.openText false true hline rest
      · have htokens : (Formula.text s).tokensBefore = (.constant (.text s) :: ·) :=
          funext fun _ => if_neg hline
        exact htokens ▸ Lexes.text false hline hrest.head?_ne
  | .int n, rest, _, hrest => Lexes.int n hrest
  | .cell ref anchor, rest, _, _ => by
      rw [Formula.cell_append]
      exact (Lexes.nameOpen (f := .value) rfl (exists_head?_digits ref.col _)).trans <|
        (Lexes.digitsComma ref.col _).trans <|
        (Lexes.digits false ref.row (.cons (by decide) rest)).trans (.close true rest)
  | .call f args, rest, hplain, _ => by
      rw [Formula.call_append]
      exact (Lexes.name (.builtin f) false _).trans
        (lexes_group separates_comma true args hplain rest)
  | .all args, rest, hplain, _ => by
      rw [Formula.all_append]
      exact lexes_group separates_and false args hplain rest
  | .binary op lhs rhs, rest, hplain, _ => by
      obtain ⟨hlhs, hrhs⟩ := List.forall_mem_append.1 hplain
      rw [Formula.binary_append]
      exact (Lexes.open false (exists_head?_formula lhs _)).trans <|
        (lexes_scriptChars lhs hlhs (.cons (by decide) _)).trans <|
        (Lexes.space true _).trans <| (Lexes.spacedSign (scriptSign_mem op) _).trans <|
        (lexes_scriptChars rhs hrhs (.cons (by decide) rest)).trans (.close true rest)
  | .cond condition thenForm elseForm, rest, hplain, _ => by
      obtain ⟨hplain, helse⟩ := List.forall_mem_append.1 hplain
      obtain ⟨hcondition, hthen⟩ := List.forall_mem_append.1 hplain
      rw [Formula.cond_append]
      exact (Lexes.choiceOpen _).trans <|
        (lexes_scriptChars condition hcondition (.cons (c := ' ') (by decide) _)).trans <|
        (Lexes.blockOpen _).trans <|
        (lexes_scriptChars thenForm hthen (.cons (c := ' ') (by decide) _)).trans <|
        (Lexes.blockElse _).trans <|
        (lexes_scriptChars elseForm helse (.cons (c := ' ') (by decide) _)).trans
          (Lexes.choiceClose rest)
  | .indirect col row, rest, hplain, _ => by
      rw [Formula.indirect_append]
      exact (Lexes.nameOpen (f := .indirect) rfl (exists_head?_digits col _)).trans <|
        (Lexes.digitsComma col _).trans <|
        (lexes_scriptChars row hplain (.cons (by decide) rest)).trans (.close true rest)
  | .index block position, rest, hplain, _ => by
      obtain ⟨hname, hposition⟩ := List.forall_mem_cons.1 hplain
      rw [Formula.index_append]
      exact (Lexes.nameOpen (f := .index) rfl ⟨'"', rfl, by decide⟩).trans <|
        (Lexes.sheetName hname false (separates_comma.ends _).head?_ne).trans <|
        (separates_comma.lexes _).trans <| (Lexes.digitsComma block.col _).trans <|
        (Lexes.digitsComma block.firstRow _).trans <| (Lexes.digitsComma block.lastRow _).trans <|
        (lexes_scriptChars position hposition (.cons (by decide) rest)).trans (.close true rest)

theorem lexes_group {separator : List Char} {text : String} (h : Separates separator text)
    (a : Bool) : ∀ (es : List Formula),
      (∀ block ∈ blocksOfAll es, Formula.isPlainName block.sheet = true) → ∀ rest,
        Lexes a true ('(' :: (Formula.scriptArgs separator es ++ ')' :: rest)) rest
          (Formula.groupBefore text es)
  | [], _, rest => Lexes.unit a rest
  | e :: es, hplain, rest => by
      obtain ⟨hfirst, hothers⟩ := List.forall_mem_append.1 hplain
      have hclose : EndsNumber (')' :: rest) := .cons (by decide) rest
      rw [Formula.scriptArgs_cons, List.append_assoc]
      exact (Lexes.open a (exists_head?_formula e _)).trans <|
        (lexes_scriptChars e hfirst (endsNumber_scriptTail h hclose es)).trans <|
        (lexes_others h es hothers hclose).trans (.close true rest)

theorem lexes_others {separator : List Char} {text : String} (h : Separates separator text) :
    ∀ (es : List Formula) {rest : List Char},
      (∀ block ∈ blocksOfAll es, Formula.isPlainName block.sheet = true) → EndsNumber rest →
        Lexes true true (scriptTail separator es ++ rest) rest (Formula.othersBefore text es)
  | [], rest, _, _ => fun steps column hsteps => ⟨steps, column, hsteps, rfl⟩
  | e :: es, rest, hplain, hrest => by
      obtain ⟨hfirst, hothers⟩ := List.forall_mem_append.1 hplain
      rw [scriptTail, List.flatMap_cons, List.append_assoc, List.append_assoc]
      exact (h.lexes _).trans <|
        (lexes_scriptChars e hfirst (endsNumber_scriptTail h hrest es)).trans
          (lexes_others h es hothers hrest)

end

/-- The tokens of a script are those of its formula, if the names of all sheets
stand for themselves. -/
theorem tokens_scriptChars {e : Formula} (h : e.isPlain = true) :
    tokens e.scriptChars = e.tokensBefore [] := by
  obtain ⟨steps, column, _, heq⟩ := lexes_scriptChars e (List.all_eq_true.1 h) EndsNumber.nil
    e.scriptChars.length 0 (Nat.le_of_eq (congrArg List.length (List.append_nil _)))
  rw [List.append_nil] at heq
  have hend : tokensFrom steps true [] ⟨[], column⟩ = [] := by cases steps <;> rfl
  rw [tokens, heq, hend]

end Script

end SheetCipher
