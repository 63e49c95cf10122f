import SheetCipher.Proofs.Sheet.Formula.Word

/-!
# Scan — formula text as a row of tokens

How a sheet takes the text of a formula apart. Blanks separate; a text ends at
a quote that is not written twice; a minus sign belongs to an integer where an
operand has to stand and is an operator elsewhere; whatever else is made of
letters, digits and the signs of an address is one word. Tokens that are
written one behind the other are found again (`scan_chars`).
-/

namespace SheetCipher

namespace Token

/-- Whether a character may stand in a word. -/
def isWordChar (c : Char) : Bool :=
  CellRef.isLetter c || Decimal.isDigit c || c == '$' || c == '!' || c == ':'

/-- Whether an operand has to follow a token. -/
def opensOperand : Token → Bool
  | operator _ | openParen | comma => true
  | _ => false

/-- Whether an operand has to follow tokens, the last one first. -/
def atOperand : List Token → Bool
  | [] => true
  | t :: _ => t.opensOperand

/-- Whether a token may be written behind others: an operand and an operator
take turns. -/
def mayFollow (operand : Bool) : Token → Bool
  | operator _ | comma => !operand
  | openParen | closeParen => true
  | _ => operand

/-- Whether an operand has to follow when one more token is written, if it may
be. -/
def next (operand : Bool) (t : Token) : Option Bool :=
  if t.mayFollow operand then some t.opensOperand else none

end Token

/-- What is being read. -/
inductive Lexeme where
  /-- Nothing. -/
  | blank
  /-- A text behind its first quote. -/
  | text (seen : List Char)
  /-- A text up to a quote, which ends it or is the first of two. -/
  | quote (seen : List Char)
  | word (seen : List Char)
  | greater
  | less

/-- How far a text has been read. -/
structure Scan where
  /-- The tokens found, last one first. -/
  found : List Token := []
  pending : Lexeme := .blank

namespace Scan

/-- Adds a token. -/
def push (s : Scan) (t : Token) : Scan := ⟨t :: s.found, .blank⟩

/-- Goes on with something else. -/
def await (s : Scan) (pending : Lexeme) : Option Scan := some { s with pending }

/-- Ends what is being read. -/
def flush (s : Scan) : Option Scan :=
  match s.pending with
  | .blank => some s
  | .quote seen => some (s.push (.text (String.ofList seen)))
  | .word seen => (Token.ofWord? seen).map s.push
  | .greater => some (s.push (.operator .gt))
  | .text _ | .less => none

/-- Reads a character where nothing else is being read. -/
def start (s : Scan) (c : Char) : Option Scan :=
  match c with
  | ' ' => some s
  | '(' => some (s.push .openParen)
  | ')' => some (s.push .closeParen)
  | ',' => some (s.push .comma)
  | '+' => some (s.push (.operator .add))
  | '&' => some (s.push (.operator .concat))
  | '=' => some (s.push (.operator .eq))
  | '-' =>
    if Token.atOperand s.found then s.await (.word ['-']) else some (s.push (.operator .sub))
  | '>' => s.await .greater
  | '<' => s.await .less
  | '"' => s.await (.text [])
  | c => if Token.isWordChar c then s.await (.word [c]) else none

/-- Reads a character. -/
def step (s : Scan) (c : Char) : Option Scan :=
  match s.pending with
  | .text seen => s.await (if c = '"' then .quote seen else .text (seen ++ [c]))
  | .quote seen =>
    if c = '"' then s.await (.text (seen ++ ['"'])) else s.flush >>= fun s => s.start c
  | .word seen =>
    if Token.isWordChar c then s.await (.word (seen ++ [c])) else s.flush >>= fun s => s.start c
  | .greater =>
    if c = '=' then some (s.push (.operator .ge)) else s.flush >>= fun s => s.start c
  | .less => if c = '=' then some (s.push (.operator .le)) else none
  | .blank => s.start c

end Scan

/-- The tokens of a text. -/
def Token.scan (cs : List Char) : Option (List Token) := do
  let s ← cs.foldlM Scan.step {}
  let s ← s.flush
  return s.found.reverse

/-! ## Tokens are found again -/

namespace Scan

/-- What has been read of tokens, the last one first: they are found when what
is being read ends, and nothing is being read where an operand has to follow. -/
structure Shows (s : Scan) (tokens : List Token) : Prop where
  flush : s.flush = some ⟨tokens, .blank⟩
  ready : Token.atOperand tokens = true → s = ⟨tokens, .blank⟩

theorem Shows.blank (tokens : List Token) : Shows ⟨tokens, .blank⟩ tokens := ⟨rfl, fun _ => rfl⟩

/-- A character that stands in no word and is not half of anything ends what is
being read. -/
theorem step_of_flush {s s' : Scan} {c : Char} (h : s.flush = some s') (hquote : c ≠ '"')
    (hsign : c ≠ '=') (hword : Token.isWordChar c = false) : s.step c = s'.start c := by
  obtain ⟨found, pending⟩ := s
  cases pending with
  | blank =>
      cases h
      rfl
  | text seen | less => cases h
  | quote seen | word seen | greater => simp only [step, hquote, hsign, hword, h]; rfl

theorem start_of_isWordChar {c : Char} (s : Scan) (h : Token.isWordChar c = true) :
    s.start c = s.await (.word [c]) := by
  rw [start.eq_def]
  split <;> first
    | rw [if_pos h]
    | cases h

theorem foldlM_word (found : List Token) (seen : List Char) {cs : List Char}
    (h : cs.all Token.isWordChar = true) :
    cs.foldlM step ⟨found, .word seen⟩ = some ⟨found, .word (seen ++ cs)⟩ := by
  induction cs generalizing seen with
  | nil => simp
  | cons c cs ih =>
      rw [List.all_cons, Bool.and_eq_true] at h
      have hstep : step ⟨found, .word seen⟩ c = some ⟨found, .word (seen ++ [c])⟩ := if_pos h.1
      rw [List.foldlM_cons, hstep, Option.bind_eq_bind, Option.bind_some, ih _ h.2,
        List.append_assoc, List.singleton_append]

theorem foldlM_text (found : List Token) (seen cs : List Char) :
    (cs.flatMap Quoted.doubledChar).foldlM step ⟨found, .text seen⟩ =
      some ⟨found, .text (seen ++ cs)⟩ := by
  induction cs generalizing seen with
  | nil => simp
  | cons c cs ih =>
      have hstep : (Quoted.doubledChar c).foldlM step ⟨found, .text seen⟩ =
          some ⟨found, .text (seen ++ [c])⟩ := by
        by_cases hc : c = '"'
        · subst hc
          rfl
        · simp [Quoted.doubledChar, step, await, hc]
      rw [List.flatMap_cons, List.foldlM_append, hstep, Option.bind_eq_bind, Option.bind_some,
        ih, List.append_assoc, List.singleton_append]

/-- A word is found where an operand has to follow. -/
theorem foldlM_wordChars {tokens : List Token} {t : Token} {cs : List Char}
    (hposition : Token.atOperand tokens = true)
    (hstart : ∃ c rest, cs = c :: rest ∧ (Token.isWordChar c = true ∨ c = '-') ∧
      rest.all Token.isWordChar = true)
    (hword : Token.ofWord? cs = some t) (hclosed : t.opensOperand = false) :
    ∃ s, cs.foldlM step ⟨tokens, .blank⟩ = some s ∧ s.Shows (t :: tokens) := by
  obtain ⟨c, rest, rfl, hc, hrest⟩ := hstart
  have hfirst : step ⟨tokens, .blank⟩ c = some ⟨tokens, .word [c]⟩ := by
    rcases hc with hc | rfl
    · exact start_of_isWordChar _ hc
    · exact if_pos hposition
  refine ⟨⟨tokens, .word (c :: rest)⟩, ?_, ?_, fun hopen => ?_⟩
  · rw [List.foldlM_cons, hfirst, Option.bind_eq_bind, Option.bind_some, foldlM_word _ _ hrest]
    rfl
  · simp only [flush, hword]
    rfl
  · rw [Token.atOperand, hclosed] at hopen
    cases hopen

theorem isWordChar_of_isLetter (c : Char) (h : CellRef.isLetter c = true) :
    Token.isWordChar c = true := by
  simp [Token.isWordChar, h]

theorem isWordChar_of_isDigit (c : Char) (h : Decimal.isDigit c = true) :
    Token.isWordChar c = true := by
  simp [Token.isWordChar, h]

theorem all_isWordChar_digits (n : Nat) : (Decimal.digits n).all Token.isWordChar = true :=
  Token.all_of_all isWordChar_of_isDigit (Decimal.all_isDigit_digits n)

theorem all_isWordChar_letters {cs : List Char} (h : cs.all CellRef.isLetter = true) :
    cs.all Token.isWordChar = true :=
  Token.all_of_all isWordChar_of_isLetter h

theorem all_isWordChar_chars (ref : CellRef) (anchor : Anchor) :
    (ref.chars anchor).all Token.isWordChar = true :=
  Token.all_chars isWordChar_of_isLetter isWordChar_of_isDigit rfl ref anchor

/-- How a word starts that is all made of characters of words. -/
theorem exists_start {cs : List Char} (hne : cs ≠ []) (hall : cs.all Token.isWordChar = true) :
    ∃ c rest, cs = c :: rest ∧ (Token.isWordChar c = true ∨ c = '-') ∧
      rest.all Token.isWordChar = true := by
  obtain ⟨c, rest, rfl⟩ := List.exists_cons_of_ne_nil hne
  rw [List.all_cons, Bool.and_eq_true] at hall
  exact ⟨c, rest, rfl, .inl hall.1, hall.2⟩

theorem exists_start_int (n : Int) : ∃ c rest, Decimal.ofInt n = c :: rest ∧
    (Token.isWordChar c = true ∨ c = '-') ∧ rest.all Token.isWordChar = true := by
  rw [Decimal.ofInt]
  split
  · exact ⟨'-', _, rfl, .inr rfl, all_isWordChar_digits _⟩
  · exact exists_start (Decimal.digits_ne_nil _) (all_isWordChar_digits _)

/-- An operator stands between blanks. -/
theorem foldlM_operator {tokens : List Token} (hposition : Token.atOperand tokens = false)
    (op : Operator) : (op.sign.toList ++ [' ']).foldlM step ⟨tokens, .blank⟩ =
      some ⟨.operator op :: tokens, .blank⟩ := by
  have hminus : step ⟨tokens, .blank⟩ '-' = some (push ⟨tokens, .blank⟩ (.operator .sub)) :=
    if_neg (by rw [hposition]; exact Bool.false_ne_true)
  cases op with
  | sub =>
      show (step ⟨tokens, .blank⟩ '-' >>= fun s => [' '].foldlM step s) = _
      rw [hminus]
      rfl
  | add | concat | eq | gt | ge | le => rfl

/-- **A token that may follow is found** behind those that stand before it. -/
theorem Shows.token {s : Scan} {tokens : List Token} (hs : s.Shows tokens) {t : Token}
    (hwritable : t.IsWritable) (hfollow : t.mayFollow (Token.atOperand tokens) = true) :
    ∃ s', t.chars.foldlM step s = some s' ∧ s'.Shows (t :: tokens) := by
  cases t with
  | text text =>
      rw [hs.ready hfollow]
      refine ⟨⟨tokens, .quote text.toList⟩, ?_, ?_, nofun⟩
      · show (text.toList.flatMap Quoted.doubledChar ++ ['"']).foldlM step
          ⟨tokens, .text []⟩ = _
        rw [List.foldlM_append, foldlM_text]
        rfl
      · show some (push _ (.text (String.ofList text.toList))) = _
        rw [String.ofList_toList]
        rfl
  | int n =>
      rw [hs.ready hfollow]
      exact foldlM_wordChars hfollow (exists_start_int n.toInt) (Token.ofWord?_int n) rfl
  | cell ref anchor =>
      rw [hs.ready hfollow]
      refine foldlM_wordChars hfollow (exists_start ?_ (all_isWordChar_chars ref anchor))
        (Token.ofWord?_cell ref anchor) rfl
      cases anchor <;> simp [Token.chars, CellRef.chars, CellRef.letters_ne_nil]
  | name word =>
      rw [hs.ready hfollow]
      have hstart := exists_start (by simpa [Token.chars] using hwritable.1)
        (all_isWordChar_letters hwritable.2)
      exact foldlM_wordChars hfollow hstart (Token.ofWord?_name hwritable) rfl
  | block b =>
      rw [hs.ready hfollow]
      refine foldlM_wordChars hfollow (exists_start (by simp [Token.chars, ColumnBlock.chars]) ?_)
        (Token.ofWord?_block hwritable) rfl
      simp [Token.chars, ColumnBlock.chars, all_isWordChar_letters hwritable.2,
        all_isWordChar_chars]
      decide
  | operator op =>
      have hposition : Token.atOperand tokens = false := by simpa [Token.mayFollow] using hfollow
      refine ⟨_, ?_, .blank _⟩
      rw [Token.chars, List.cons_append, List.foldlM_cons,
        step_of_flush hs.flush (by decide) (by decide) rfl]
      exact foldlM_operator hposition op
  | openParen | closeParen | comma =>
      refine ⟨_, ?_, .blank _⟩
      rw [Token.chars, List.foldlM_cons, step_of_flush hs.flush (by decide) (by decide) rfl]
      rfl

/-- **Tokens that may follow one another are found** one behind the other. -/
theorem Shows.tokens {s : Scan} {before : List Token} (hs : s.Shows before) {ts : List Token}
    (hwritable : ∀ t ∈ ts, t.IsWritable)
    (hspaced : ∃ operand, ts.foldlM Token.next (Token.atOperand before) = some operand) :
    ∃ s', (ts.flatMap Token.chars).foldlM step s = some s' ∧ s'.Shows (ts.reverse ++ before) := by
  induction ts generalizing s before with
  | nil => exact ⟨s, rfl, hs⟩
  | cons t ts ih =>
      obtain ⟨operand, hspaced⟩ := hspaced
      rw [List.foldlM_cons, Token.next] at hspaced
      split at hspaced
      · rename_i hfollow
        obtain ⟨s₁, hs₁, hshows⟩ := hs.token (hwritable t List.mem_cons_self) hfollow
        obtain ⟨s₂, hs₂, hshows⟩ := ih hshows
          (fun t ht => hwritable t (List.mem_cons_of_mem _ ht)) ⟨operand, hspaced⟩
        refine ⟨s₂, ?_, ?_⟩
        · rw [List.flatMap_cons, List.foldlM_append, hs₁]
          exact hs₂
        · rw [List.reverse_cons, List.append_assoc]
          exact hshows
      · cases hspaced

end Scan

/-- **Tokens are read back from their characters** if operands and operators
take turns. -/
theorem Token.scan_chars {ts : List Token} (hwritable : ∀ t ∈ ts, t.IsWritable)
    (hspaced : ∃ operand, ts.foldlM Token.next true = some operand) :
    scan (ts.flatMap Token.chars) = some ts := by
  obtain ⟨s, hs, hshows⟩ := (Scan.Shows.blank []).tokens hwritable hspaced
  have hs : (ts.flatMap Token.chars).foldlM Scan.step {} = some s := hs
  rw [scan, hs]
  show (s.flush >>= fun s => some s.found.reverse) = _
  rw [hshows.flush, List.append_nil]
  exact congrArg some (List.reverse_reverse ts)

end SheetCipher
