import SheetCipher.Sheet.Formula.Text

/-!
# Grammar — what tokens say

The grammar of a sheet: comparisons bind loosest, then `&`, then `+` and `-`,
and all of them group to the left. `Derives` is the grammar; it says which
formula tokens may be read as. That there is never more than one
(`Derives.unique`) follows from a reader that goes through the tokens once and
keeps what it has not finished on a stack: it finds whatever the grammar
derives (`Derives.parse?_eq`).
-/

namespace SheetCipher

namespace Token

/-- The tokens of arguments, a comma between each two. -/
def separated : List (List Token) → List Token
  | [] => []
  | [ts] => ts
  | ts :: next :: rest => ts ++ .comma :: separated (next :: rest)

end Token

namespace Operator

/-- How tightly an operator binds in a sheet. -/
def rank : Operator → Nat
  | eq | gt | ge | le => 1
  | concat => 2
  | add | sub => 3

end Operator

namespace Formula

/-- The function of a name. -/
def builtin? : (word : String) → Option Builtin
  | "MID" => some .mid
  | "CODE" => some .code
  | "CHAR" => some .char
  | "MOD" => some .mod
  | "LEN" => some .len
  | "MIN" => some .min
  | _ => none

/-- What a name and arguments in parentheses are. -/
def ofCall? (word : String) (args : List Formula) : Option Formula :=
  match word, args with
  | "AND", args => some (all args)
  | "IF", [condition, thenForm, elseForm] => some (cond condition thenForm elseForm)
  | word, args => (builtin? word).map fun f => call f args

/-- The column that a text names. -/
def columnNamed? (s : String) : Option Nat :=
  if s ≠ "" ∧ s.toList.all CellRef.isLetter then some (CellRef.lettersValue s.toList - 1) else none

/-- How tightly what is no operation binds: more than any operator. -/
def operandStrength : Nat := 4

/-- Tokens may be read as a formula whose operators outside of all parentheses
bind at least as tightly as `strength` says. -/
inductive Derives : (strength : Nat) → List Token → Formula → Prop where
  | text (s : String) : Derives operandStrength [.text s] (text s)
  | int (n : Int64) : Derives operandStrength [.int n] (int n)
  | cell (ref : CellRef) (anchor : Anchor) :
      Derives operandStrength [.cell ref anchor] (cell ref anchor)
  | parens {ts : List Token} {e : Formula} (he : Derives 1 ts e) :
      Derives operandStrength (inParens ts) e
  | call {word : String} {args : List (List Token × Formula)} {e : Formula}
      (hargs : ∀ arg ∈ args, Derives 1 arg.1 arg.2)
      (hcall : ofCall? word (args.map Prod.snd) = some e) :
      Derives operandStrength (.name word :: inParens (Token.separated (args.map Prod.fst))) e
  | indirect {s : String} {col : Nat} {ts : List Token} {row : Formula}
      (hcol : columnNamed? s = some col) (hrow : Derives 1 ts row) :
      Derives operandStrength
        (.name "INDIRECT" :: inParens (.text s :: .operator .concat :: inParens ts))
        (indirect col row)
  | index (block : ColumnBlock) {ts : List Token} {position : Formula}
      (hposition : Derives 1 ts position) :
      Derives operandStrength (.name "INDEX" :: inParens (.block block :: .comma :: ts))
        (index block position)
  | binary (op : Operator) {lts rts : List Token} {lhs rhs : Formula}
      (hlhs : Derives op.rank lts lhs) (hrhs : Derives (op.rank + 1) rts rhs) :
      Derives op.rank (lts ++ .operator op :: rts) (binary op lhs rhs)
  | looser {strength : Nat} {ts : List Token} {e : Formula} (he : Derives (strength + 1) ts e) :
      Derives strength ts e

end Formula

/-! ## Reading with a stack -/

/-- What has been started and is not finished. -/
inductive Frame where
  /-- An operation, with its right operand to come. -/
  | operation (lhs : Formula) (op : Operator)
  | parens
  /-- A call, with the arguments before the one that is being read. -/
  | call (word : String) (args : List Formula)
  /-- An indirect reference, with its row to come. -/
  | indirect (col : Nat)
  /-- An entry of a block, with its place to come. -/
  | index (block : ColumnBlock)

/-- Where the reading of tokens stands. -/
inductive Spot where
  /-- Before an operand. -/
  | operand
  /-- Behind an operand. -/
  | behind (e : Formula)
  /-- Behind the name of a function. -/
  | named (word : String)
  /-- Before the column of an indirect reference. -/
  | column
  /-- Behind the column of an indirect reference. -/
  | join (col : Nat)
  /-- Before the parentheses around the row of an indirect reference. -/
  | row (col : Nat)
  /-- Behind these parentheses. -/
  | landed (e : Formula)
  /-- Before a block. -/
  | range
  /-- Behind a block. -/
  | entry (block : ColumnBlock)

/-- How far tokens have been read. -/
structure Parse where
  /-- What is not finished, the innermost first. -/
  stack : List Frame := []
  spot : Spot := .operand

namespace Parse

/-- Finishes the operations that bind at least as tightly as `strength`, `e`
being the last operand. -/
def close (strength : Nat) (e : Formula) : List Frame → Formula × List Frame
  | .operation lhs op :: stack =>
    if strength ≤ op.rank then close strength (.binary op lhs e) stack
    else (e, .operation lhs op :: stack)
  | stack => (e, stack)

/-- Reads a comma behind an operand. -/
def separate : Formula × List Frame → Option Parse
  | (e, .call word args :: stack) => some ⟨.call word (args ++ [e]) :: stack, .operand⟩
  | _ => none

/-- Reads a closing parenthesis behind an operand. -/
def leave : Formula × List Frame → Option Parse
  | (e, .parens :: stack) => some ⟨stack, .behind e⟩
  | (e, .call word args :: stack) =>
    (Formula.ofCall? word (args ++ [e])).map fun e => ⟨stack, .behind e⟩
  | (e, .indirect col :: stack) => some ⟨stack, .landed (.indirect col e)⟩
  | (e, .index block :: stack) => some ⟨stack, .behind (.index block e)⟩
  | _ => none

/-- Reads an opening parenthesis behind a name. -/
def enter (word : String) (stack : List Frame) : Parse :=
  if word = "INDIRECT" then ⟨stack, .column⟩
  else if word = "INDEX" then ⟨stack, .range⟩
  else ⟨.call word [] :: stack, .operand⟩

/-- Reads a token. -/
def step (s : Parse) (t : Token) : Option Parse :=
  match s.spot, t with
  | .operand, .text text => some ⟨s.stack, .behind (.text text)⟩
  | .operand, .int n => some ⟨s.stack, .behind (.int n)⟩
  | .operand, .cell ref anchor => some ⟨s.stack, .behind (.cell ref anchor)⟩
  | .operand, .openParen => some ⟨.parens :: s.stack, .operand⟩
  | .operand, .name word => some ⟨s.stack, .named word⟩
  | .operand, .closeParen =>
    match s.stack with
    | .call word [] :: stack => (Formula.ofCall? word []).map fun e => ⟨stack, .behind e⟩
    | _ => none
  | .named word, .openParen => some (enter word s.stack)
  | .column, .text text => (Formula.columnNamed? text).map fun col => ⟨s.stack, .join col⟩
  | .join col, .operator .concat => some ⟨s.stack, .row col⟩
  | .row col, .openParen => some ⟨.indirect col :: s.stack, .operand⟩
  | .landed e, .closeParen => some ⟨s.stack, .behind e⟩
  | .range, .block block => some ⟨s.stack, .entry block⟩
  | .entry block, .comma => some ⟨.index block :: s.stack, .operand⟩
  | .behind e, .operator op =>
    let (lhs, stack) := close op.rank e s.stack
    some ⟨.operation lhs op :: stack, .operand⟩
  | .behind e, .comma => separate (close 1 e s.stack)
  | .behind e, .closeParen => leave (close 1 e s.stack)
  | _, _ => none

/-- The formula, if tokens end here. -/
def result (s : Parse) : Option Formula :=
  match s.spot with
  | .behind e =>
    match close 1 e s.stack with
    | (e, []) => some e
    | _ => none
  | _ => none

/-- No operation on top of a stack binds as tightly as `strength`. -/
def IsBelow (strength : Nat) : List Frame → Prop
  | .operation _ op :: _ => op.rank < strength
  | _ => True

/-- What has been read behind a stack comes to a formula when the operations
that bind at least as tightly as `strength` are finished. -/
def Comes (s : Parse) (strength : Nat) (stack : List Frame) (e : Formula) : Prop :=
  ∃ last, s.spot = .behind last ∧ close strength last s.stack = (e, stack)

variable {strength weaker : Nat} {stack : List Frame} {s : Parse} {e : Formula}

theorem IsBelow.mono (h : IsBelow weaker stack) (hle : weaker ≤ strength) :
    IsBelow strength stack := by
  cases stack with
  | nil => trivial
  | cons frame stack =>
      cases frame with
      | operation lhs op => exact Nat.lt_of_lt_of_le h hle
      | _ => trivial

theorem IsBelow.close (h : IsBelow strength stack) (e : Formula) :
    close strength e stack = (e, stack) := by
  cases stack with
  | nil => rfl
  | cons frame stack =>
      cases frame with
      | operation lhs op => exact if_neg (Nat.not_le.2 h)
      | _ => rfl

/-- What is finished may be finished in two goes. -/
theorem close_close (h : weaker ≤ strength) (e : Formula) (stack : List Frame) :
    close weaker (close strength e stack).1 (close strength e stack).2 = close weaker e stack := by
  induction stack generalizing e with
  | nil => rfl
  | cons frame stack ih =>
      cases frame with
      | operation lhs op =>
          rw [Parse.close]
          split
          · rename_i hle
            rw [ih, Parse.close, if_pos (Nat.le_trans h hle)]
          · rfl
      | _ => rfl

theorem Comes.behind (hbelow : IsBelow strength stack) (e : Formula) :
    Comes ⟨stack, .behind e⟩ strength stack e :=
  ⟨e, rfl, hbelow.close e⟩

theorem Comes.looser (h : s.Comes (strength + 1) stack e) (hbelow : IsBelow strength stack) :
    s.Comes strength stack e := by
  obtain ⟨last, hspot, hclose⟩ := h
  refine ⟨last, hspot, ?_⟩
  rw [← close_close (Nat.le_succ strength), hclose]
  exact hbelow.close e

/-! ### One token behind a formula -/

theorem Comes.step_operator {op : Operator} (h : s.Comes op.rank stack e) :
    s.step (.operator op) = some ⟨.operation e op :: stack, .operand⟩ := by
  obtain ⟨last, hspot, hclose⟩ := h
  obtain ⟨inner, spot⟩ := s
  cases hspot
  simp only [step, hclose]

theorem Comes.step_comma (h : s.Comes 1 stack e) : s.step .comma = separate (e, stack) := by
  obtain ⟨last, hspot, hclose⟩ := h
  obtain ⟨inner, spot⟩ := s
  cases hspot
  exact congrArg separate hclose

theorem Comes.step_closeParen (h : s.Comes 1 stack e) :
    s.step .closeParen = leave (e, stack) := by
  obtain ⟨last, hspot, hclose⟩ := h
  obtain ⟨inner, spot⟩ := s
  cases hspot
  exact congrArg leave hclose

/-- The right operand finishes an operation. -/
theorem Comes.operation {lhs : Formula} {op : Operator}
    (h : s.Comes (op.rank + 1) (.operation lhs op :: stack) e)
    (hbelow : IsBelow op.rank stack) : s.Comes op.rank stack (.binary op lhs e) := by
  obtain ⟨last, hspot, hclose⟩ := h
  refine ⟨last, hspot, ?_⟩
  rw [← close_close (Nat.le_succ op.rank), hclose, Parse.close, if_pos (Nat.le_refl _)]
  exact hbelow.close _

/-! ### Whole formulas -/

/-- Reading tokens behind a stack comes to a formula. -/
def Finds (strength : Nat) (ts : List Token) (e : Formula) : Prop :=
  ∀ stack, IsBelow strength stack →
    ∃ s, ts.foldlM step ⟨stack, .operand⟩ = some s ∧ s.Comes strength stack e

/-- Tokens between parentheses are read behind what opened them, and then the
parenthesis that closes them. -/
theorem Finds.foldlM_closeParen {ts : List Token} (h : Finds 1 ts e) (stack : List Frame)
    (hbelow : IsBelow 1 stack) :
    (ts ++ [Token.closeParen]).foldlM step ⟨stack, .operand⟩ = leave (e, stack) := by
  obtain ⟨s, hs, hcomes⟩ := h stack hbelow
  rw [List.foldlM_append, hs]
  show (s.step .closeParen >>= fun s => some s) = _
  rw [hcomes.step_closeParen]
  cases leave (e, stack) <;> rfl

/-- Arguments are read one behind the other, and then the parenthesis that
closes them. -/
theorem foldlM_separated {word : String} {e : Formula} {arg : List Token × Formula}
    {args : List (List Token × Formula)} (hargs : ∀ a ∈ arg :: args, Finds 1 a.1 a.2)
    (before : List Formula)
    (hcall : Formula.ofCall? word (before ++ (arg :: args).map Prod.snd) = some e) :
    (Token.separated ((arg :: args).map Prod.fst) ++ [Token.closeParen]).foldlM step
      ⟨.call word before :: stack, .operand⟩ = some ⟨stack, .behind e⟩ := by
  induction args generalizing arg before with
  | nil =>
      rw [List.map_singleton] at hcall
      rw [List.map_singleton, Token.separated, (hargs arg List.mem_cons_self).foldlM_closeParen
        (.call word before :: stack) trivial, leave, hcall]
      rfl
  | cons arg' args ih =>
      obtain ⟨s, hs, hcomes⟩ := hargs arg List.mem_cons_self (.call word before :: stack) trivial
      have hrest := ih (fun a ha => hargs a (List.mem_cons_of_mem _ ha)) (before ++ [arg.2])
        (by simpa using hcall)
      rw [List.map_cons, List.map_cons, Token.separated, List.append_assoc, List.foldlM_append, hs]
      show (s.step .comma >>= fun s => _) = _
      rw [hcomes.step_comma]
      exact hrest

end Parse

namespace Formula

open Parse

theorem ofCall?_special {word : String} (h : word = "INDIRECT" ∨ word = "INDEX")
    (args : List Formula) : ofCall? word args = none := by
  rcases h with rfl | rfl <;> rfl

/-- **The reader finds what the grammar derives.** -/
theorem Derives.finds {strength : Nat} {ts : List Token} {e : Formula}
    (h : Derives strength ts e) : Finds strength ts e := by
  induction h with
  | text s => exact fun stack hbelow => ⟨_, rfl, .behind hbelow _⟩
  | int n => exact fun stack hbelow => ⟨_, rfl, .behind hbelow _⟩
  | cell ref anchor => exact fun stack hbelow => ⟨_, rfl, .behind hbelow _⟩
  | parens _ ih =>
      exact fun stack hbelow => ⟨_, ih.foldlM_closeParen (.parens :: stack) trivial,
        .behind hbelow _⟩
  | @call word args e _ hcall ih =>
      intro stack hbelow
      have hindirect : word ≠ "INDIRECT" := fun heq => by
        rw [ofCall?_special (.inl heq)] at hcall
        cases hcall
      have hindex : word ≠ "INDEX" := fun heq => by
        rw [ofCall?_special (.inr heq)] at hcall
        cases hcall
      refine ⟨_, ?_, .behind hbelow e⟩
      show (Token.separated (args.map Prod.fst) ++ [Token.closeParen]).foldlM step
        (enter word stack) = _
      rw [enter, if_neg hindirect, if_neg hindex]
      cases args with
      | nil =>
          have hcall : ofCall? word [] = some e := hcall
          show ((ofCall? word []).map _ >>= fun s => some s) = _
          rw [hcall]
          rfl
      | cons arg args => exact foldlM_separated ih [] hcall
  | @indirect s col ts row hcol _ ih =>
      intro stack hbelow
      refine ⟨_, ?_, .behind hbelow _⟩
      show ((columnNamed? s).map _ >>= fun s => _) = _
      rw [hcol]
      show ((ts ++ [Token.closeParen]) ++ [Token.closeParen]).foldlM step
        ⟨.indirect col :: stack, .operand⟩ = _
      rw [List.foldlM_append, ih.foldlM_closeParen (.indirect col :: stack) trivial]
      rfl
  | index block _ ih =>
      exact fun stack hbelow => ⟨_, ih.foldlM_closeParen (.index block :: stack) trivial,
        .behind hbelow _⟩
  | binary op _ _ ihl ihr =>
      intro stack hbelow
      obtain ⟨s, hs, hcomes⟩ := ihl stack hbelow
      obtain ⟨s', hs', hcomes'⟩ := ihr (.operation _ op :: stack) (Nat.lt_succ_self op.rank)
      refine ⟨s', ?_, hcomes'.operation hbelow⟩
      rw [List.foldlM_append, hs]
      show (s.step (.operator op) >>= fun s => _) = _
      rw [hcomes.step_operator]
      exact hs'
  | looser _ ih =>
      intro stack hbelow
      obtain ⟨s, hs, hcomes⟩ := ih stack (hbelow.mono (Nat.le_succ _))
      exact ⟨s, hs, hcomes.looser hbelow⟩

/-- Reads tokens as a formula. -/
def parse? (ts : List Token) : Option Formula := ts.foldlM Parse.step {} >>= Parse.result

theorem Derives.parse?_eq {ts : List Token} {e : Formula} (h : Derives 1 ts e) :
    parse? ts = some e := by
  obtain ⟨s, hs, last, hspot, hclose⟩ := h.finds [] trivial
  have hs : ts.foldlM Parse.step {} = some s := hs
  rw [parse?, hs]
  show s.result = _
  rw [Parse.result, hspot]
  simp only [hclose]

/-- **Tokens say one thing at most.** -/
theorem Derives.unique {ts : List Token} {e e' : Formula} (h : Derives 1 ts e)
    (h' : Derives 1 ts e') : e = e' :=
  Option.some.inj (h.parse?_eq.symm.trans h'.parse?_eq)

end Formula

end SheetCipher
