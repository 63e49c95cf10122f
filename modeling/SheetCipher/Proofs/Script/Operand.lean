import SheetCipher.Proofs.Script.Reader

/-!
# Operand — operands that the reader takes as they are meant

An operand is a way to put tokens in front of others, with the term that the
tokens stand for or the fault that they are rejected with. The reader takes an
operand as it is meant (`Operand.IsRead`) if it finds the expression of the term
and leaves what stands behind the tokens, or fails as the operand does. Constants
are such operands, and so is what is made of such operands: operations,
conjunctions, calls and choices. Each reader spends the same levels in the same
order as the rules for formulas do, so that of several faults the same one is
found.
-/

namespace SheetCipher

namespace Script

/-- The tokens of an operand in front of others, and what they are read as. -/
structure Operand where
  tokensBefore : List Token → List Token
  read : (room : Nat) → Except SyntaxFault Term

namespace Operand

open Reader

def ofValue (v : Value) : Operand := ⟨fun rest => .constant v :: rest, fun _ => .ok (.literal v)⟩

/-- What an operand has to be for the reader to take its tokens, and nothing else,
for it. -/
structure IsRead (o : Operand) : Prop where
  starts : ∀ rest, ∃ token row, o.tokensBefore rest = token :: row ∧ token.startsOperand = true
  takes : ∀ {room : Nat} {t : Term}, o.read room = .ok t →
    ∀ rest, rest.length < (o.tokensBefore rest).length
  operand_eq : ∀ {steps : Nat} {at_ : Setting} {r : Reading} {rest : List Token},
    EndsOperand rest → stepsPerToken * (o.tokensBefore rest).length ≤ steps →
      operand steps at_ (r.facing (o.tokensBefore rest)) = (do
        let t ← o.read at_.room
        .ok (t.expression, r.facing rest))

theorem isRead_ofValue (v : Value) : (ofValue v).IsRead where
  starts rest := ⟨_, _, rfl, rfl⟩
  takes _ _ := Nat.lt_succ_self _
  operand_eq {steps at_ r rest} hrest hsteps := by
    obtain ⟨steps, rfl⟩ : ∃ n, steps = n + 3 :=
      Nat.exists_eq_add_of_le' (by
        simp only [ofValue, List.length_cons, stepsPerToken] at hsteps
        omega)
    rw [ofValue, operand_apply (fun _ _ => rfl), primary]
    exact links_apply hrest _

variable {o : Operand} {rest : List Token} {steps : Nat} {at_ : Setting} {r : Reading}

theorem IsRead.length_pos (h : o.IsRead) (rest : List Token) :
    0 < (o.tokensBefore rest).length := by
  obtain ⟨token, row, hrow, _⟩ := h.starts rest
  rw [hrow, List.length_cons]
  exact Nat.succ_pos _

theorem IsRead.expression_apply (h : o.IsRead) (hrest : EndsOperand rest)
    (hsteps : stepsPerToken * (o.tokensBefore rest).length ≤ steps) :
    Reader.expression (steps + 1) at_ (r.facing (o.tokensBefore rest)) = (do
      let room ← Formula.spend 1 at_.room
      let t ← o.read room
      chain steps { at_ with room := room } 0 t.expression (r.facing rest)) := by
  rw [Reader.expression, bind_apply, deeper_apply]
  cases Formula.spend 1 at_.room with
  | error fault => rfl
  | ok room =>
      rw [ok_bind, ok_bind, ok_bind, bind_apply, h.operand_eq hrest hsteps]
      cases o.read room <;> rfl

/-- An operand behind which an expression ends is the whole expression. -/
theorem IsRead.expression_eq (h : o.IsRead) (hrest : EndsExpression rest)
    (hsteps : stepsPerToken * (o.tokensBefore rest).length ≤ steps) :
    Reader.expression (steps + 1) at_ (r.facing (o.tokensBefore rest)) = (do
      let room ← Formula.spend 1 at_.room
      let t ← o.read room
      .ok (t.expression, r.facing rest)) := by
  obtain ⟨steps, rfl⟩ : ∃ n, steps = n + 1 := by
    have hlength := h.length_pos rest
    rw [stepsPerToken] at hsteps
    exact Nat.exists_eq_add_of_le' (by omega)
  rw [h.expression_apply hrest.endsOperand hsteps]
  simp only [chain_of_ends hrest]

theorem IsRead.opens (h : o.IsRead) (rest : List Token) :
    ∃ token row, o.tokensBefore rest = token :: row ∧ token.isSign ")" = false := by
  obtain ⟨token, row, hrow, hstart⟩ := h.starts rest
  exact ⟨token, row, hrow, not_isSign_of_startsOperand hstart (by decide)⟩

/-- What stands in parentheses is an operand. -/
theorem operand_group {row : List Token} (read : Nat → Except SyntaxFault Term)
    (hrest : EndsOperand rest)
    (hopen : ∃ token row', row = token :: row' ∧ token.isSign ")" = false)
    (h : ∀ room, Reader.expression (steps + 1) { at_ with room := room } (r.facing row) = (do
      let room ← Formula.spend 1 room
      let t ← read room
      .ok (t.expression, r.facing (.sign ")" :: rest)))) :
    operand (steps + 3) at_ (r.facing (.sign "(" :: row)) = (do
      let room ← Formula.spend Formula.nestingRoom at_.room
      let t ← read room
      .ok (t.expression, r.facing rest)) := by
  rw [operand_apply (by decide), primary]
  change ((at_.deeper 1 >>= fun at_ => skipIf (Token.isSign ")") >>= fun closed =>
    if closed then pure (.constant .blank) else Reader.expression (steps + 1) at_ >>= fun e =>
      expect (Token.isSign ")") .parenEnd >>= fun _ => pure e) (r.facing row) >>= _) =
    (Formula.spend (1 + 1) at_.room >>= _)
  rw [Formula.spend_add_bind, bind_apply, deeper_apply]
  cases Formula.spend 1 at_.room with
  | error fault => rfl
  | ok room =>
      obtain ⟨token, row', rfl, hopen⟩ := hopen
      change ((skipIf (Token.isSign ")") >>= fun closed => if closed then _ else
        Reader.expression (steps + 1) { at_ with room := room } >>= _) (r.facing _) >>= _) = _
      rw [bind_apply, skipIf_of_false hopen]
      change ((Reader.expression (steps + 1) { at_ with room := room } >>= fun e =>
        expect (Token.isSign ")") .parenEnd >>= fun _ => pure e) (r.facing (token :: row')) >>= _) =
        (Formula.spend 1 room >>= _)
      rw [bind_apply, h]
      cases Formula.spend 1 room with
      | error fault => rfl
      | ok room =>
          change ((read room >>= fun t => Except.ok _) >>= _) >>= _ = (read room >>= _)
          cases read room with
          | error fault => rfl
          | ok t => exact links_apply hrest _

/-- Whether no connective that binds tighter than `c` comes next. -/
def EndsFactor (c : Connective) (rest : List Token) : Prop :=
  ∀ (at_ : Setting) (r : Reading), ∃ found,
    connective at_ (r.facing rest) = .ok (found, r.facing rest) ∧
      ∀ next ∈ found, next.takes c.strength = false

theorem endsFactor_of_ends (c : Connective) (h : EndsExpression rest) : EndsFactor c rest :=
  fun _ _ => ⟨none, connective_of_ends h, nofun⟩

theorem connective_sign {text : String} {c : Connective} (h : Connective.ofSign? text = some c)
    (hbar : text ≠ "|") (row : List Token) :
    connective at_ (r.facing (.sign text :: row)) =
      .ok (some c, r.facing (.sign text :: row)) := by
  change Except.ok ((if at_.inCase && text == "|" then none else Connective.ofSign? text), _) = _
  rw [beq_false_of_ne hbar, Bool.and_false, if_neg Bool.false_ne_true, h]

theorem chain_sign {text : String} {c : Connective} (h : Connective.ofSign? text = some c)
    (hbar : text ≠ "|") (htakes : c.takes 0 = true) (ho : o.IsRead) (hends : EndsOperand rest)
    (hfactor : EndsFactor c rest) (hsteps : stepsPerToken * (o.tokensBefore rest).length ≤ steps)
    (e : Expression) :
    chain (steps + 1) at_ 0 e (r.facing (.sign text :: o.tokensBefore rest)) = (do
      let t ← o.read at_.room
      let room ← Formula.spend Formula.operatorRoom at_.room
      let joined ← c.join e t.expression
      chain steps { at_ with room := room } 0 joined (r.facing rest)) := by
  rw [chain, bind_apply, connective_sign h hbar]
  change ((if !c.takes 0 then _ else _) : Reader Expression) _ = _
  rw [htakes, Bool.not_true, if_neg Bool.false_ne_true]
  rw [bind_apply, skip_apply, ok_bind, bind_apply, ho.operand_eq hends hsteps]
  cases o.read at_.room with
  | error fault => rfl
  | ok t =>
      -- a connective that binds tighter would take the operand first
      obtain ⟨found, hfound, hnext⟩ := hfactor at_ r
      rw [ok_bind, ok_bind, ok_bind, bind_apply, hfound, ok_bind]
      have hjoin : (at_.deeper 1 >>= fun at_ => liftM (c.join e t.expression) >>= fun joined =>
          chain steps at_ 0 joined) (r.facing rest) = (do
            let room ← Formula.spend Formula.operatorRoom at_.room
            let joined ← c.join e t.expression
            chain steps { at_ with room := room } 0 joined (r.facing rest)) := by
        rw [bind_apply, deeper_apply]
        change ((Formula.spend 1 at_.room >>= _) >>= _) = (Formula.spend 1 at_.room >>= _)
        cases Formula.spend 1 at_.room with
        | error fault => rfl
        | ok room => cases c.join e t.expression <;> rfl
      cases found with
      | none => exact hjoin
      | some next =>
          change ((if next.takes c.strength then _ else _) : Reader Expression) _ = _
          rw [hnext next rfl, if_neg Bool.false_ne_true]
          exact hjoin

/-- Two operands in parentheses and an operator between them. -/
def binary (op : Operator) (lhs rhs : Operand) : Operand where
  tokensBefore rest := .sign "(" ::
    lhs.tokensBefore (.sign op.scriptSign :: rhs.tokensBefore (.sign ")" :: rest))
  read room := do
    let inner ← Formula.spend Formula.nestingRoom room
    let a ← lhs.read inner
    let b ← rhs.read inner
    let _ ← Formula.spend Formula.operatorRoom inner
    return .binary op.onValues a b

theorem isRead_binary (op : Operator) {lhs rhs : Operand} (hlhs : lhs.IsRead) (hrhs : rhs.IsRead) :
    (binary op lhs rhs).IsRead where
  starts rest := ⟨_, _, rfl, rfl⟩
  takes {room t} h rest := by
    obtain ⟨inner, _, h⟩ := exists_of_bind h
    obtain ⟨a, ha, h⟩ := exists_of_bind h
    obtain ⟨b, hb, _⟩ := exists_of_bind h
    have hleft := hlhs.takes ha (.sign op.scriptSign :: rhs.tokensBefore (.sign ")" :: rest))
    have hright := hrhs.takes hb (.sign ")" :: rest)
    simp only [binary, List.length_cons] at hleft hright ⊢
    omega
  operand_eq {steps at_ r rest} hrest hsteps := by
    have hclose : EndsExpression (.sign ")" :: rest) := .cons (by decide) rest
    have hsign : Connective.ofSign? op.scriptSign = some (.operator op.onValues) := by
      cases op <;> decide
    have hplain : op.scriptSign ≠ "|" ∧ op.scriptSign ∉ [".", "?.", "[", "?["] ∧
        (Connective.operator op.onValues).takes 0 = true := by
      cases op <;> decide
    have hends : EndsOperand (.sign op.scriptSign :: rhs.tokensBefore (.sign ")" :: rest)) := by
      rintro _ ⟨⟩
      exact hplain.2.1
    obtain ⟨steps, rfl⟩ : ∃ n, steps = n + 5 := by
      simp only [binary, List.length_cons, stepsPerToken] at hsteps
      exact Nat.exists_eq_add_of_le' (by omega)
    simp only [binary, List.length_cons, stepsPerToken] at hsteps
    refine (operand_group (fun inner => do
      let a ← lhs.read inner
      let b ← rhs.read inner
      let _ ← Formula.spend Formula.operatorRoom inner
      return .binary op.onValues a b) hrest (hlhs.opens _) fun room => ?_).trans
        (bind_assoc _ _ _).symm
    rw [hlhs.expression_apply hends (by rw [stepsPerToken]; omega)]
    refine bind_congr fun inner => ?_
    cases hread : lhs.read inner with
    | error fault => rfl
    | ok a =>
        have htakes :=
          hlhs.takes hread (.sign op.scriptSign :: rhs.tokensBefore (.sign ")" :: rest))
        rw [List.length_cons] at htakes
        rw [ok_bind, ok_bind, chain_sign hsign hplain.1 hplain.2.2 hrhs hclose.endsOperand
          (endsFactor_of_ends _ hclose) (by rw [stepsPerToken]; omega), bind_assoc]
        refine bind_congr fun b => ?_
        rw [bind_assoc]
        exact bind_congr fun _ => chain_of_ends hclose 0 _

/-! ### Several operands -/

/-- The tokens of operands with a sign in front of each. -/
def othersBefore (separator : String) : List Operand → List Token → List Token
  | [], rest => rest
  | o :: os, rest => .sign separator :: o.tokensBefore (othersBefore separator os rest)

/-- Reads operands that have to hold like the term in front of them. -/
def readConjuncts (room : Nat) (before : Term) : List Operand → Except SyntaxFault Term
  | [] => .ok before
  | o :: os => do
    let t ← o.read room
    let rest ← Formula.spend Formula.operatorRoom room
    readConjuncts rest (← before.both t) os

variable {os : List Operand}

theorem length_le_of_readConjuncts (hos : ∀ o ∈ os, o.IsRead) {room : Nat} {before t : Term}
    (h : readConjuncts room before os = .ok t) (rest : List Token) :
    rest.length ≤ (othersBefore "&&" os rest).length := by
  induction os generalizing room before with
  | nil => exact Nat.le_refl _
  | cons o os ih =>
      obtain ⟨ho, hos⟩ := List.forall_mem_cons.1 hos
      obtain ⟨next, hnext, h⟩ := exists_of_bind h
      obtain ⟨_, _, h⟩ := exists_of_bind h
      obtain ⟨joined, _, h⟩ := exists_of_bind h
      have hothers := ih hos h
      have htakes := ho.takes hnext (othersBefore "&&" os rest)
      rw [othersBefore, List.length_cons]
      omega

/-- Behind an operand of an `AND` nothing comes that would bind tighter. -/
theorem ends_othersBefore (os : List Operand) (rest : List Token) :
    EndsOperand (othersBefore "&&" os (.sign ")" :: rest)) ∧
      EndsFactor .and (othersBefore "&&" os (.sign ")" :: rest)) := by
  have hclose : EndsExpression (.sign ")" :: rest) := .cons (by decide) rest
  cases os with
  | nil => exact ⟨hclose.endsOperand, endsFactor_of_ends _ hclose⟩
  | cons o os =>
      refine ⟨?_, fun at_ r => ⟨some .and, connective_sign (by decide) (by decide) _, ?_⟩⟩
      · rintro _ ⟨⟩
        decide
      · rintro _ ⟨⟩
        decide

theorem chain_conjuncts (hos : ∀ o ∈ os, o.IsRead)
    (hsteps : stepsPerToken * (othersBefore "&&" os (.sign ")" :: rest)).length ≤ steps)
    (before : Term) :
    chain (steps + 1) at_ 0 before.expression
        (r.facing (othersBefore "&&" os (.sign ")" :: rest))) = (do
      let t ← readConjuncts at_.room before os
      .ok (t.expression, r.facing (.sign ")" :: rest))) := by
  induction os generalizing steps at_ before with
  | nil => exact chain_of_ends (.cons (by decide) rest) 0 _
  | cons o os ih =>
      obtain ⟨ho, hos⟩ := List.forall_mem_cons.1 hos
      obtain ⟨hends, hfactor⟩ := ends_othersBefore os rest
      simp only [othersBefore, List.length_cons, stepsPerToken] at hsteps
      rw [othersBefore, readConjuncts, chain_sign (by decide) (by decide) (by decide) ho hends
        hfactor (by rw [stepsPerToken]; omega)]
      cases hread : o.read at_.room with
      | error fault => rfl
      | ok t =>
          have htakes := ho.takes hread (othersBefore "&&" os (.sign ")" :: rest))
          obtain ⟨steps, rfl⟩ : ∃ n, steps = n + 1 := Nat.exists_eq_add_of_le' (by omega)
          rw [ok_bind, ok_bind, bind_assoc]
          refine bind_congr fun room => ?_
          rw [Term.join_expression, bind_assoc, bind_assoc]
          refine bind_congr fun joined => ?_
          exact ih hos (by rw [stepsPerToken]; omega) joined

/-- Operands in parentheses that all have to hold. -/
def conjunction (o : Operand) (os : List Operand) : Operand where
  tokensBefore rest := .sign "(" :: o.tokensBefore (othersBefore "&&" os (.sign ")" :: rest))
  read room := do
    let inner ← Formula.spend Formula.nestingRoom room
    let first ← o.read inner
    readConjuncts inner first os

theorem isRead_conjunction (ho : o.IsRead) (hos : ∀ o ∈ os, o.IsRead) :
    (conjunction o os).IsRead where
  starts rest := ⟨_, _, rfl, rfl⟩
  takes {room t} h rest := by
    obtain ⟨inner, _, h⟩ := exists_of_bind h
    obtain ⟨first, hfirst, h⟩ := exists_of_bind h
    have htakes := ho.takes hfirst (othersBefore "&&" os (.sign ")" :: rest))
    have hothers := length_le_of_readConjuncts hos h (.sign ")" :: rest)
    simp only [conjunction, List.length_cons] at hothers ⊢
    omega
  operand_eq {steps at_ r rest} hrest hsteps := by
    obtain ⟨hends, _⟩ := ends_othersBefore os rest
    obtain ⟨steps, rfl⟩ : ∃ n, steps = n + 4 := by
      simp only [conjunction, List.length_cons, stepsPerToken] at hsteps
      exact Nat.exists_eq_add_of_le' (by omega)
    simp only [conjunction, List.length_cons, stepsPerToken] at hsteps
    refine (operand_group (fun inner => do
      let first ← o.read inner
      readConjuncts inner first os) hrest (ho.opens _) fun room => ?_).trans
        (bind_assoc _ _ _).symm
    rw [ho.expression_apply hends (by rw [stepsPerToken]; omega)]
    refine bind_congr fun inner => ?_
    cases hread : o.read inner with
    | error fault => rfl
    | ok first =>
        have htakes := ho.takes hread (othersBefore "&&" os (.sign ")" :: rest))
        exact chain_conjuncts hos (by rw [stepsPerToken]; omega) first

/-! ### Calls -/

/-- Reads operands that are arguments of one call. -/
def readAll (room : Nat) : List Operand → Except SyntaxFault (List Term)
  | [] => .ok []
  | o :: os => do
    let inner ← Formula.spend 1 room
    let t ← o.read inner
    return t :: (← readAll room os)

theorem length_le_of_readAll (hos : ∀ o ∈ os, o.IsRead) {room : Nat} {ts : List Term}
    (h : readAll room os = .ok ts) (rest : List Token) :
    rest.length ≤ (othersBefore "," os rest).length := by
  induction os generalizing ts with
  | nil => exact Nat.le_refl _
  | cons o os ih =>
      obtain ⟨ho, hos⟩ := List.forall_mem_cons.1 hos
      obtain ⟨inner, _, h⟩ := exists_of_bind h
      obtain ⟨t, ht, h⟩ := exists_of_bind h
      obtain ⟨ts, hts, _⟩ := exists_of_bind h
      have hothers := ih hos hts
      have htakes := ho.takes ht (othersBefore "," os rest)
      rw [othersBefore, List.length_cons]
      omega

/-- One argument, read as far as the sign behind it. -/
theorem arguments_succ (ho : o.IsRead) {text : String} (htext : text = ")" ∨ text = ",")
    (name : String) (fuel : Nat)
    (hsteps : stepsPerToken * (o.tokensBefore (.sign text :: rest)).length ≤ steps) :
    arguments (Reader.expression (steps + 1) at_) name (fuel + 1)
        (r.facing (o.tokensBefore (.sign text :: rest))) = (do
      let room ← Formula.spend 1 at_.room
      let t ← o.read room
      if text = ")" then .ok ([t.expression], r.facing rest)
      else do
        let found ← arguments (Reader.expression (steps + 1) at_) name fuel (r.facing rest)
        .ok (t.expression :: found.1, found.2)) := by
  have hrest : EndsExpression (.sign text :: rest) :=
    .cons (by rcases htext with rfl | rfl <;> decide) rest
  obtain ⟨token, row, hrow, hstart⟩ := ho.starts (.sign text :: rest)
  have hexpression : Reader.expression (steps + 1) at_
      (r.facing (o.tokensBefore (.sign text :: rest))) = _ := ho.expression_eq hrest hsteps
  rw [hrow] at hexpression ⊢
  rw [arguments, bind_apply, skipIf_of_false (not_isSign_of_startsOperand hstart (by decide)),
    ok_bind]
  change (Reader.expression (steps + 1) at_ >>= _) (r.facing (token :: row)) = _
  rw [bind_apply, hexpression, bind_assoc]
  refine bind_congr fun room => ?_
  rw [bind_assoc]
  refine bind_congr fun t => ?_
  rcases htext with rfl | rfl <;> rfl

theorem arguments_apply (ho : o.IsRead) (hos : ∀ o ∈ os, o.IsRead) (name : String) {fuel : Nat}
    (hsteps :
      stepsPerToken * (o.tokensBefore (othersBefore "," os (.sign ")" :: rest))).length ≤ steps)
    (hfuel : (o.tokensBefore (othersBefore "," os (.sign ")" :: rest))).length ≤ fuel) :
    arguments (Reader.expression (steps + 1) at_) name fuel
        (r.facing (o.tokensBefore (othersBefore "," os (.sign ")" :: rest)))) = (do
      let ts ← readAll at_.room (o :: os)
      .ok (Term.expressions ts, r.facing rest)) := by
  -- each argument costs one unit of fuel and has at least one token
  induction os generalizing o fuel with
  | nil =>
      obtain ⟨fuel, rfl⟩ : ∃ n, fuel = n + 1 :=
        Nat.exists_eq_add_of_le' (Nat.lt_of_lt_of_le (ho.length_pos _) hfuel)
      rw [othersBefore, arguments_succ ho (.inl rfl) name fuel hsteps, readAll, bind_assoc]
      refine bind_congr fun room => ?_
      rw [bind_assoc]
      exact bind_congr fun t => rfl
  | cons o' os ih =>
      obtain ⟨fuel, rfl⟩ : ∃ n, fuel = n + 1 :=
        Nat.exists_eq_add_of_le' (Nat.lt_of_lt_of_le (ho.length_pos _) hfuel)
      obtain ⟨ho', hos⟩ := List.forall_mem_cons.1 hos
      rw [othersBefore] at hsteps hfuel ⊢
      rw [arguments_succ ho (.inr rfl) name fuel hsteps, readAll, bind_assoc]
      refine bind_congr fun room => ?_
      cases hread : o.read room with
      | error fault => rfl
      | ok t =>
          have htakes := ho.takes hread
            (.sign "," :: o'.tokensBefore (othersBefore "," os (.sign ")" :: rest)))
          rw [List.length_cons] at htakes
          rw [stepsPerToken] at hsteps
          rw [ok_bind, ok_bind, if_neg (by decide),
            ih ho' hos (by rw [stepsPerToken]; omega) (by omega)]
          cases readAll at_.room (o' :: os) <;> rfl

theorem primary_name (word : String) (row : List Token) :
    primary (steps + 1) at_ (r.facing (.name word :: row)) =
      Parts.named ⟨Reader.expression steps, block steps, Reader.statement steps⟩ at_ steps [] word
        (r.facing row) := by
  rw [primary]
  rfl

/-- A call with arguments. -/
def call (f : Callee) (o : Operand) (os : List Operand) : Operand where
  tokensBefore rest := .name f.name :: .sign "(" ::
    o.tokensBefore (othersBefore "," os (.sign ")" :: rest))
  read room := do
    let inner ← Formula.spend 1 room
    return .call f (← readAll inner (o :: os))

theorem callArguments?_apply (parts : Parts) (ho : o.IsRead)
    (hfront : ∀ rest fault, (o.tokensBefore rest).head? ≠ some (.flaw fault)) (fuel : Nat)
    (name : String) (at_ : Setting) (r : Reading) (rest : List Token) :
    parts.callArguments? fuel at_ name (r.facing (.sign "(" :: o.tokensBefore rest)) = (do
      let room ← Formula.spend 1 at_.room
      let found ← arguments (parts.expression { at_ with room := room }) name fuel
        (r.facing (o.tokensBefore rest))
      .ok (some (false, found.1), found.2)) := by
  obtain ⟨token, row, hrow, hstart⟩ := ho.starts rest
  have hplain := hfront rest
  rw [hrow] at hplain ⊢
  have harguments : (at_.deeper 1 >>= fun at_ => arguments (parts.expression at_) name fuel >>=
      fun args => pure (some (false, args))) (r.facing (token :: row)) = (do
        let room ← Formula.spend 1 at_.room
        let found ← arguments (parts.expression { at_ with room := room }) name fuel
          (r.facing (token :: row))
        .ok (some (false, found.1), found.2)) := by
    rw [bind_apply, deeper_apply]
    cases Formula.spend 1 at_.room <;> rfl
  rw [← harguments]
  cases token with
  | flaw fault => exact absurd rfl (hplain fault)
  | sign text =>
      obtain rfl : text = "(" := by simpa [Token.startsOperand] using hstart
      rfl
  | constant | name => rfl
  | piece | keyword | reserved => cases hstart

/-- A call whose first argument does not start with a flaw is read whatever the
levels; a flaw there counts before the levels do. -/
theorem isRead_call (f : Callee) (ho : o.IsRead) (hos : ∀ o ∈ os, o.IsRead)
    (hfront : ∀ rest fault, (o.tokensBefore rest).head? ≠ some (.flaw fault)) :
    (call f o os).IsRead where
  starts rest := ⟨_, _, rfl, rfl⟩
  takes {room t} h rest := by
    obtain ⟨inner, _, h⟩ := exists_of_bind h
    obtain ⟨ts, hts, _⟩ := exists_of_bind h
    have hothers := length_le_of_readAll (List.forall_mem_cons.2 ⟨ho, hos⟩) hts (.sign ")" :: rest)
    simp only [call, othersBefore, List.length_cons] at hothers ⊢
    omega
  operand_eq {steps at_ r rest} hrest hsteps := by
    obtain ⟨steps, rfl⟩ : ∃ n, steps = n + 4 := by
      simp only [call, List.length_cons, stepsPerToken] at hsteps
      exact Nat.exists_eq_add_of_le' (by omega)
    simp only [call, List.length_cons, stepsPerToken] at hsteps
    let parts : Parts :=
      ⟨Reader.expression (steps + 2), block (steps + 2), Reader.statement (steps + 2)⟩
    have hnamed : parts.named at_ (steps + 2) [] f.name (r.facing (.sign "(" ::
          o.tokensBefore (othersBefore "," os (.sign ")" :: rest)))) = (do
        let t ← (call f o os).read at_.room
        .ok (t.expression, r.facing rest)) := by
      rw [Parts.named, bind_apply, callArguments?_apply parts ho hfront, call, bind_assoc,
        bind_assoc]
      refine bind_congr fun room => ?_
      change ((arguments (Reader.expression (steps + 2)
        { at_ with room := room }) f.name (steps + 1) _ >>= _) >>= _) = _
      rw [arguments_apply ho hos f.name (by rw [stepsPerToken]; omega) (by omega)]
      cases readAll room (o :: os) <;> rfl
    have hfirst : (call f o os).tokensBefore rest = .name f.name :: .sign "(" ::
      o.tokensBefore (othersBefore "," os (.sign ")" :: rest)) := rfl
    rw [hfirst, operand_apply (fun _ _ => rfl), primary_name, hnamed, bind_assoc]
    exact bind_congr fun t => links_apply hrest _

/-- A call without arguments takes no level. -/
theorem isRead_bareCall (f : Callee) :
    (mk (fun rest => .name f.name :: .constant .blank :: rest)
      fun _ => .ok (.call f [])).IsRead where
  starts rest := ⟨_, _, rfl, rfl⟩
  takes _ rest := by
    rw [List.length_cons, List.length_cons]
    omega
  operand_eq {steps at_ r rest} hrest hsteps := by
    obtain ⟨steps, rfl⟩ : ∃ n, steps = n + 4 := by
      simp only [List.length_cons, stepsPerToken] at hsteps
      exact Nat.exists_eq_add_of_le' (by omega)
    rw [operand_apply (fun _ _ => rfl), primary]
    exact links_apply hrest _

/-! ### Statements -/

theorem statement_apply (ho : o.IsRead) (hrest : rest = [] ∨ ∃ row, rest = .sign "\x7d" :: row)
    (hsteps : stepsPerToken * (o.tokensBefore rest).length ≤ steps) :
    Reader.statement (steps + 2) at_ (r.facing (o.tokensBefore rest)) = (do
      let room ← Formula.spend 1 at_.room
      let t ← o.read room
      .ok (some (.evaluate t.expression), r.facing rest)) := by
  have hends : EndsExpression rest := by
    rcases hrest with rfl | ⟨row, rfl⟩
    · exact .nil
    · exact .cons (by decide) row
  obtain ⟨token, row, hrow, hstart⟩ := ho.starts rest
  have hexpression : Reader.expression (steps + 1) at_ (r.facing (o.tokensBefore rest)) = _ :=
    ho.expression_eq hends hsteps
  have hassignment : Reader.statement (steps + 2) at_ (r.facing (o.tokensBefore rest)) =
      (Parts.assignment ⟨Reader.expression (steps + 1), block (steps + 1),
        Reader.statement (steps + 1)⟩ at_ (r.facing (o.tokensBefore rest)) >>= fun found =>
          .ok (some found.1, found.2)) := by
    rw [hrow, Reader.statement]
    cases token with
    | sign text =>
        obtain rfl : text = "(" := by simpa [Token.startsOperand] using hstart
        rfl
    | constant | name | flaw => rfl
    | piece | keyword | reserved => cases hstart
  rw [hassignment, Parts.assignment, bind_apply]
  change ((Reader.expression (steps + 1) at_ (r.facing (o.tokensBefore rest)) >>= _) >>= _) = _
  rw [hexpression]
  simp only [bind_assoc]
  refine bind_congr fun room => bind_congr fun t => ?_
  rcases hrest with rfl | ⟨row, rfl⟩ <;> rfl

/-- Statements with an operand for the only one: a whole script, or a block up to
its end. -/
theorem statements_apply (ho : o.IsRead) {inBlock : Bool}
    (hrest : rest = [] ∧ inBlock = false ∨ (∃ row, rest = .sign "\x7d" :: row) ∧ inBlock = true)
    (hsteps : stepsPerToken * (o.tokensBefore rest).length ≤ steps) :
    Reader.statements (steps + 3) at_ inBlock (r.facing (o.tokensBefore rest)) = (do
      let room ← Formula.spend 2 at_.room
      let t ← o.read room
      .ok ([.evaluate t.expression], r.facing rest.tail)) := by
  obtain ⟨token, row, hrow, hstart⟩ := ho.starts rest
  have hopen : (inBlock && token.isSign "\x7d") = false := by
    rw [not_isSign_of_startsOperand hstart (by decide), Bool.and_false]
  have hstatement : ∀ room, Reader.statement (steps + 2) { at_ with room := room }
      (r.facing (o.tokensBefore rest)) = _ := fun room =>
    statement_apply ho (hrest.imp And.left And.left) hsteps
  rw [hrow] at hstatement ⊢
  rw [Reader.statements, bind_apply, peek_apply, ok_bind, Option.isNone_some,
    if_neg Bool.false_ne_true, bind_apply, skipIf_of_false hopen, ok_bind,
    if_neg Bool.false_ne_true, bind_apply, deeper_apply, bind_assoc]
  change _ = (Formula.spend (1 + 1) at_.room >>= _)
  rw [Formula.spend_add_bind]
  refine bind_congr fun room => ?_
  rw [ok_bind, bind_apply, hstatement, bind_assoc]
  refine bind_congr fun room => ?_
  rw [bind_assoc]
  refine bind_congr fun t => ?_
  rcases hrest with ⟨rfl, rfl⟩ | ⟨⟨row, rfl⟩, rfl⟩ <;> rfl

theorem inScope_apply {α : Type} (reader : Reader α) (r : Reading) :
    inScope reader r =
      (reader r >>= fun found => .ok (found.1, { found.2 with known := r.known })) := by
  rfl

/-- A block with an operand for its only statement. -/
theorem block_apply (ho : o.IsRead) (rest : List Token)
    (hsteps : stepsPerToken * (o.tokensBefore (.sign "\x7d" :: rest)).length ≤ steps) :
    block (steps + 4) at_ (r.facing (.sign "\x7b" :: o.tokensBefore (.sign "\x7d" :: rest))) = (do
      let room ← Formula.spend 3 at_.room
      let t ← o.read room
      .ok (.block [.evaluate t.expression], r.facing rest)) := by
  rw [block, bind_apply, expect_apply rfl, ok_bind, bind_apply, deeper_apply,
    bind_assoc]
  change _ = (Formula.spend (1 + 2) at_.room >>= _)
  rw [Formula.spend_add_bind]
  refine bind_congr fun room => ?_
  rw [ok_bind, inScope_apply, bind_apply, statements_apply ho (.inr ⟨⟨rest, rfl⟩, rfl⟩) hsteps]
  simp only [bind_assoc]
  rfl

/-! ### Choices -/

theorem condition_apply (ho : o.IsRead) (parts : Parts)
    (hparts : parts.expression = Reader.expression (steps + 1))
    (hsteps : stepsPerToken * (o.tokensBefore (.sign "\x7b" :: rest)).length ≤ steps) :
    parts.condition at_ (r.facing (o.tokensBefore (.sign "\x7b" :: rest))) = (do
      let room ← Formula.spend 1 at_.room
      let t ← o.read room
      let _ ← t.needTruth
      .ok (t.expression, r.facing (.sign "\x7b" :: rest))) := by
  have hexpression : Reader.expression (steps + 1) at_
      (r.facing (o.tokensBefore (.sign "\x7b" :: rest))) = _ :=
    ho.expression_eq (.cons (by decide) rest) hsteps
  obtain ⟨token, row, hrow, hstart⟩ := ho.starts (.sign "\x7b" :: rest)
  have hblock : rejectBlock (r.facing (token :: row)) = .ok ((), r.facing (token :: row)) := by
    rw [rejectBlock, bind_apply, nextIs_apply, not_isSign_of_startsOperand hstart (by decide)]
    rfl
  rw [hrow] at hexpression ⊢
  rw [Parts.condition, hparts, bind_apply, hblock, ok_bind, bind_apply, hexpression]
  simp only [bind_assoc]
  refine bind_congr fun room => bind_congr fun t => ?_
  rw [ok_bind, ← Term.needTruth_expression]
  cases t.expression.needTruth <;> rfl

/-- The tokens of a choice between its parentheses. -/
def choiceBefore (c a b : Operand) (rest : List Token) : List Token :=
  .keyword "if" :: c.tokensBefore (.sign "\x7b" :: a.tokensBefore (.sign "\x7d" ::
    .keyword "else" :: .sign "\x7b" :: b.tokensBefore (.sign "\x7d" :: rest)))

/-- Reads a choice between its parentheses. -/
def readChoice (c a b : Operand) (room : Nat) : Except SyntaxFault Term := do
  let room ← Formula.spend 2 room
  let condition ← do c.read (← Formula.spend 1 room)
  condition.needTruth
  let thenTerm ← do a.read (← Formula.spend 3 room)
  let elseTerm ← do b.read (← Formula.spend 3 room)
  return .cond condition thenTerm elseTerm

variable {c a b : Operand}

theorem choice_apply (hc : c.IsRead) (ha : a.IsRead) (hb : b.IsRead) (parts : Parts)
    (hexpression : parts.expression = Reader.expression (steps + 4))
    (hblock : parts.block = block (steps + 4)) (fuel : Nat)
    (hsteps : stepsPerToken * (choiceBefore c a b rest).length ≤ steps) :
    parts.choice (fuel + 1) at_ (r.facing (choiceBefore c a b rest)) = (do
      let room ← Formula.spend 1 at_.room
      let condition ← do c.read (← Formula.spend 1 room)
      condition.needTruth
      let thenTerm ← do a.read (← Formula.spend 3 room)
      let elseTerm ← do b.read (← Formula.spend 3 room)
      .ok (.choice condition.expression (.block [.evaluate thenTerm.expression])
        (.block [.evaluate elseTerm.expression]), r.facing rest)) := by
  simp only [choiceBefore, List.length_cons, stepsPerToken] at hsteps
  rw [choiceBefore, Parts.choice, bind_apply, skip_apply, ok_bind, bind_apply, deeper_apply,
    bind_assoc]
  refine bind_congr fun room => ?_
  rw [ok_bind, bind_apply, condition_apply hc parts hexpression (by rw [stepsPerToken]; omega)]
  simp only [bind_assoc, ok_bind]
  refine bind_congr fun inner => ?_
  cases hcondition : c.read inner with
  | error fault => rfl
  | ok condition =>
      have hbehind := hc.takes hcondition (.sign "\x7b" :: a.tokensBefore (.sign "\x7d" ::
        .keyword "else" :: .sign "\x7b" :: b.tokensBefore (.sign "\x7d" :: rest)))
      rw [List.length_cons] at hbehind
      rw [ok_bind, ok_bind]
      refine bind_congr fun _ => ?_
      rw [bind_apply, hblock, block_apply ha _ (by rw [stepsPerToken]; omega)]
      simp only [bind_assoc, ok_bind]
      refine bind_congr fun inner => ?_
      cases hthen : a.read inner with
      | error fault => rfl
      | ok thenTerm =>
          have hlater := ha.takes hthen (.sign "\x7d" :: .keyword "else" :: .sign "\x7b" ::
            b.tokensBefore (.sign "\x7d" :: rest))
          simp only [List.length_cons] at hlater
          rw [ok_bind, ok_bind, bind_apply, skipIf_of_true rfl, ok_bind, if_pos rfl, bind_apply,
            nextIs_apply, ok_bind]
          change (block (steps + 4) _ >>= _) _ = _
          rw [bind_apply, block_apply hb _ (by rw [stepsPerToken]; omega)]
          simp only [bind_assoc, ok_bind]
          rfl

theorem length_lt_of_readChoice (hc : c.IsRead) (ha : a.IsRead) (hb : b.IsRead) {room : Nat}
    {t : Term} (h : readChoice c a b room = .ok t) (rest : List Token) :
    rest.length < (choiceBefore c a b rest).length := by
  obtain ⟨_, _, h⟩ := exists_of_bind h
  obtain ⟨_, _, h⟩ := exists_of_bind h
  obtain ⟨condition, hcondition, h⟩ := exists_of_bind h
  obtain ⟨_, _, h⟩ := exists_of_bind h
  obtain ⟨_, _, h⟩ := exists_of_bind h
  obtain ⟨thenTerm, hthen, h⟩ := exists_of_bind h
  obtain ⟨_, _, h⟩ := exists_of_bind h
  obtain ⟨elseTerm, helse, _⟩ := exists_of_bind h
  have hlast := hb.takes helse (.sign "\x7d" :: rest)
  have hlater := ha.takes hthen (.sign "\x7d" :: .keyword "else" :: .sign "\x7b" ::
    b.tokensBefore (.sign "\x7d" :: rest))
  have hbehind := hc.takes hcondition (.sign "\x7b" :: a.tokensBefore (.sign "\x7d" ::
    .keyword "else" :: .sign "\x7b" :: b.tokensBefore (.sign "\x7d" :: rest)))
  simp only [choiceBefore, List.length_cons] at hlast hlater hbehind ⊢
  omega

theorem construct?_if (parts : Parts) (fuel : Nat) (at_ : Setting) :
    parts.construct? fuel at_ "if" = (do
      let at_ ← at_.deeper 1
      let s ← parts.choice fuel at_
      return some s) := by
  unfold Parts.construct?
  rfl

theorem primary_choice (hc : c.IsRead) (ha : a.IsRead) (hb : b.IsRead)
    (hsteps : stepsPerToken * (choiceBefore c a b rest).length ≤ steps) :
    primary (steps + 5) at_ (r.facing (choiceBefore c a b rest)) = (do
      let t ← readChoice c a b at_.room
      .ok (t.expression, r.facing rest)) := by
  rw [readChoice]
  change _ = ((Formula.spend (1 + 1) at_.room >>= _) >>= _)
  rw [Formula.spend_add_bind, choiceBefore, primary, bind_apply, peek_apply, ok_bind]
  change (Parts.construct? _ _ at_ "if" >>= _) _ = _
  rw [construct?_if, bind_apply, bind_apply, deeper_apply]
  simp only [bind_assoc, ok_bind]
  refine bind_congr fun room => ?_
  rw [← choiceBefore, bind_apply, choice_apply hc ha hb _ rfl rfl _ hsteps]
  simp only [bind_assoc, ok_bind]
  rfl

/-- A choice in its parentheses. -/
def choice (c a b : Operand) : Operand where
  tokensBefore rest := .sign "(" :: choiceBefore c a b (.sign ")" :: rest)
  read room := do readChoice c a b (← Formula.spend Formula.nestingRoom room)

theorem isRead_choice (hc : c.IsRead) (ha : a.IsRead) (hb : b.IsRead) : (choice c a b).IsRead where
  starts rest := ⟨_, _, rfl, rfl⟩
  takes {room t} h rest := by
    obtain ⟨inner, _, h⟩ := exists_of_bind h
    have hlength := length_lt_of_readChoice hc ha hb h (.sign ")" :: rest)
    simp only [choice, List.length_cons] at hlength ⊢
    omega
  operand_eq {steps at_ r rest} hrest hsteps := by
    have hclose : EndsExpression (.sign ")" :: rest) := .cons (by decide) rest
    simp only [choice, List.length_cons, stepsPerToken] at hsteps
    have hlength : 0 < (choiceBefore c a b (.sign ")" :: rest)).length := Nat.succ_pos _
    obtain ⟨steps, rfl⟩ : ∃ n, steps = n + 9 := Nat.exists_eq_add_of_le' (by omega)
    refine (operand_group (readChoice c a b) hrest ⟨_, _, rfl, rfl⟩ fun room => ?_).trans
      (bind_assoc _ _ _).symm
    rw [Reader.expression, bind_apply, deeper_apply, bind_assoc]
    refine bind_congr fun inner => ?_
    have hchoice : choiceBefore c a b (.sign ")" :: rest) = .keyword "if" :: _ := rfl
    rw [ok_bind, bind_apply, operand_apply (fun _ _ => rfl), ← hchoice,
      primary_choice hc ha hb (by rw [stepsPerToken]; omega)]
    simp only [bind_assoc, ok_bind]
    refine bind_congr fun t => ?_
    rw [links_apply hclose.endsOperand, ok_bind]
    exact chain_of_ends hclose 0 _

/-! ### Texts that run over a line end -/

theorem isRead_openText : (mk (fun _ => [.flaw .openText]) fun _ => .error .openText).IsRead where
  starts _ := ⟨_, _, rfl, rfl⟩
  takes := nofun
  operand_eq {steps at_ r rest} _ hsteps := by
    obtain ⟨steps, rfl⟩ : ∃ n, steps = n + 2 := Nat.exists_eq_add_of_le' (by
      simp only [List.length_cons, stepsPerToken] at hsteps
      omega)
    rw [operand_apply (fun _ _ => rfl), primary]
    rfl

/-- A call whose first argument is a text that runs over a line end. -/
theorem isRead_call_openText (f : Callee) :
    (mk (fun _ => [.name f.name, .sign "(", .flaw .openText])
      fun _ => .error .openText).IsRead where
  starts _ := ⟨_, _, rfl, rfl⟩
  takes := nofun
  operand_eq {steps at_ r rest} _ hsteps := by
    obtain ⟨steps, rfl⟩ : ∃ n, steps = n + 3 := Nat.exists_eq_add_of_le' (by
      simp only [List.length_cons, stepsPerToken] at hsteps
      omega)
    rw [operand_apply (fun _ _ => rfl), primary_name, Parts.named]
    rfl

end Operand

end Script

end SheetCipher
