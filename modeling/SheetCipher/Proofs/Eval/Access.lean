import SheetCipher.Eval.Formula
import SheetCipher.Proofs.Eval.Builtin
import SheetCipher.Proofs.Eval.Meaning

/-!
# Access — what an evaluation looks at

`accesses` lists the addresses of its own sheet that a term looks at while it
is worked out, with what comes after a fault and the branch that is not taken
left out. Nothing else counts: values that agree there give the same result
(`eval_congr`). A cell that is named is one of the formula's references, and a
row that is computed belongs to a column that the formula refers to indirectly
(`isAmong_of_mem_accesses`); so what a formula declares covers all that it reads, but
for the rows that its indirect references land on.
-/

namespace SheetCipher

/-- A look at a cell of the own sheet. -/
inductive Access where
  /-- By a reference that names the cell. -/
  | named (ref : CellRef)
  /-- By a reference that computes the row. -/
  | landed (ref : CellRef)
deriving DecidableEq, Repr

namespace Access

/-- The address that is looked at. -/
def target : Access → CellRef
  | named ref | landed ref => ref

/-- The address, if its row was computed. -/
def landing? : Access → Option CellRef
  | named _ => none
  | landed ref => some ref

/-- An access by one of the named cells, or in one of the columns. -/
def IsAmong (cells : List CellRef) (columns : List Nat) : Access → Prop
  | named ref => ref ∈ cells
  | landed ref => ref.col ∈ columns

end Access

namespace Values

/-- The address of a column and a row, if neither is negative. -/
def address? (col row : Int64) : Option CellRef :=
  if col < 0 ∨ row < 0 then none else some ⟨col.toInt.toNat, row.toInt.toNat⟩

theorem readAt_eq (values : Values) (col row : Int64) :
    values.readAt col row = ((address? col row).map values.read).getD (.text "") := by
  rw [readAt, address?]
  split <;> rfl

theorem address?_eq_some {col row : Int64} {ref : CellRef} (h : address? col row = some ref) :
    col.toInt = ref.col ∧ row.toInt = ref.row := by
  rw [address?] at h
  split at h
  · cases h
  · rename_i hpos
    cases h
    rw [Int64.lt_iff_toInt_lt, Int64.lt_iff_toInt_lt, Int64.toInt_zero] at hpos
    simp only
    omega

/-- Values that show the same at every address of a list of accesses. -/
def AgreeAt (accesses : List Access) (now later : Values) : Prop :=
  ∀ access ∈ accesses, later.read access.target = now.read access.target

variable {now later : Values} {first second : List Access}

theorem AgreeAt.left (h : AgreeAt (first ++ second) now later) : AgreeAt first now later :=
  fun access haccess => h access (List.mem_append_left _ haccess)

theorem AgreeAt.right (h : AgreeAt (first ++ second) now later) : AgreeAt second now later :=
  fun access haccess => h access (List.mem_append_right _ haccess)

theorem readAt_congr {col row : Int64} {look : CellRef → Access}
    (hlook : ∀ ref, (look ref).target = ref)
    (h : AgreeAt ((address? col row).toList.map look) now later) :
    later.readAt col row = now.readAt col row := by
  rw [readAt_eq, readAt_eq]
  cases haddress : address? col row with
  | none => rfl
  | some ref =>
      rw [haddress] at h
      have href := h (look ref) (List.mem_singleton_self _)
      rw [hlook] at href
      exact href

end Values

/-! ## What is looked at -/

/-- The accesses behind a computation: none if it fails. -/
def Access.behind {α : Type} (x : Except Fault α) (accesses : α → List Access) : List Access :=
  match x with
  | .ok a => accesses a
  | .error _ => []

namespace Callee

/-- What a call looks at. -/
def accesses (f : Callee) (args : List Value) : List Access :=
  match f, args with
  | value, [.int col, .int row] => (Values.address? col row).toList.map .named
  | indirect, [.int col, .int row] =>
    Access.behind (inWords (Word.sub row 1)) fun row =>
      (Values.address? col row).toList.map .landed
  | _, _ => []

end Callee

namespace Term

variable (sheets : Sheets) (values : Values)

mutual

/-- What working a term out looks at, in order. -/
def accesses : Term → List Access
  | literal _ => []
  | call f args =>
    accessesOfArgs args ++ Access.behind (evalArgs sheets values args) f.accesses
  | all terms => accessesOfConjuncts terms
  | binary _ lhs rhs =>
    lhs.accesses ++ Access.behind (lhs.eval sheets values) fun _ => rhs.accesses
  | cond condition thenTerm elseTerm =>
    condition.accesses ++ Access.behind (condition.eval sheets values >>= Value.asBool) fun holds =>
      if holds then thenTerm.accesses else elseTerm.accesses

/-- What working arguments out looks at. -/
def accessesOfArgs : List Term → List Access
  | [] => []
  | t :: ts => t.accesses ++ Access.behind (t.eval sheets values) fun _ => accessesOfArgs ts

/-- What is looked at to see whether all terms hold. -/
def accessesOfConjuncts : List Term → List Access
  | [] => []
  | t :: ts =>
    t.accesses ++ Access.behind (t.eval sheets values >>= Value.asBool) fun holds =>
      if holds then accessesOfConjuncts ts else []

end

end Term

/-! ## Nothing else counts -/

namespace Values

variable {now later : Values}

theorem AgreeAt.behind {α : Type} {x : Except Fault α} {accesses : α → List Access}
    (h : AgreeAt (Access.behind x accesses) now later) {a : α} (ha : x = .ok a) :
    AgreeAt (accesses a) now later := by
  rw [ha] at h
  exact h

end Values

theorem bind_congr_of_ok {ε α β : Type} {x : Except ε α} {f g : α → Except ε β}
    (h : ∀ a, x = .ok a → f a = g a) : (x >>= f) = (x >>= g) := by
  cases x with
  | error e => rfl
  | ok a => exact h a rfl

open Values

theorem Callee.apply_congr {f : Callee} {sheets : Sheets} {args : List Value} {now later : Values}
    (h : AgreeAt (f.accesses args) now later) :
    f.apply sheets later args = f.apply sheets now args := by
  rw [Callee.apply.eq_def, Callee.apply.eq_def]
  split
  · rfl
  · exact congrArg Except.ok (readAt_congr (fun _ => rfl) h)
  · refine bind_congr_of_ok fun row hrow => ?_
    exact congrArg Except.ok (readAt_congr (fun _ => rfl) (h.behind hrow))
  · rfl
  · rfl

namespace Term

variable {sheets : Sheets} {now later : Values}

mutual

/-- **A term comes to the same where it sees the same.** -/
theorem eval_congr : ∀ {t : Term}, AgreeAt (t.accesses sheets now) now later →
    t.eval sheets later = t.eval sheets now
  | literal _, _ => by rw [eval, eval]
  | call f args, h => by
      rw [accesses] at h
      rw [eval, eval, evalArgs_congr h.left]
      exact bind_congr_of_ok fun vs hvs => Callee.apply_congr (h.right.behind hvs)
  | all terms, h => by
      rw [accesses] at h
      rw [eval, eval, holdAll_congr h]
  | binary op lhs rhs, h => by
      rw [accesses] at h
      rw [eval, eval, eval_congr h.left]
      refine bind_congr_of_ok fun a ha => ?_
      rw [eval_congr (h.right.behind ha)]
  | cond condition thenTerm elseTerm, h => by
      rw [accesses] at h
      rw [eval, eval, eval_congr h.left]
      refine bind_congr_of_ok fun v hv => bind_congr_of_ok fun holds hholds => ?_
      have hbranch := h.right.behind (a := holds) (by rw [hv]; exact hholds)
      cases holds with
      | true => exact eval_congr hbranch
      | false => exact eval_congr hbranch

theorem evalArgs_congr : ∀ {ts : List Term}, AgreeAt (accessesOfArgs sheets now ts) now later →
    evalArgs sheets later ts = evalArgs sheets now ts
  | [], _ => by rw [evalArgs, evalArgs]
  | t :: ts, h => by
      rw [accessesOfArgs] at h
      rw [evalArgs, evalArgs, eval_congr h.left]
      refine bind_congr_of_ok fun v hv => ?_
      rw [evalArgs_congr (h.right.behind hv)]

theorem holdAll_congr : ∀ {ts : List Term},
    AgreeAt (accessesOfConjuncts sheets now ts) now later →
      holdAll sheets later ts = holdAll sheets now ts
  | [], _ => by rw [holdAll, holdAll]
  | t :: ts, h => by
      rw [accessesOfConjuncts] at h
      rw [holdAll, holdAll, eval_congr h.left]
      refine bind_congr_of_ok fun v hv => bind_congr_of_ok fun holds hholds => ?_
      have hrest := h.right.behind (a := holds) (by rw [hv]; exact hholds)
      cases holds with
      | true => exact holdAll_congr hrest
      | false => rfl

end

end Term

/-! ## What may be looked at -/

namespace Term

/-- A term that names only some cells and computes rows only in some
columns. -/
inductive Refers (cells : List CellRef) (columns : List Nat) : Term → Prop where
  | literal (v : Value) : Refers cells columns (literal v)
  | cell {ref : CellRef} (href : ref ∈ cells) : Refers cells columns (cell ref)
  | indirect {col : Nat} {row : Term} (hcol : col ∈ columns) (hrow : Refers cells columns row) :
      Refers cells columns (indirect col row)
  | index (block : ColumnBlock) {position : Term} (hposition : Refers cells columns position) :
      Refers cells columns (index block position)
  | builtin (f : Builtin) {args : List Term} (hargs : ∀ t ∈ args, Refers cells columns t) :
      Refers cells columns (call (.builtin f) args)
  | all {terms : List Term} (hterms : ∀ t ∈ terms, Refers cells columns t) :
      Refers cells columns (all terms)
  | binary (op : ValueOperator) {lhs rhs : Term} (hlhs : Refers cells columns lhs)
      (hrhs : Refers cells columns rhs) : Refers cells columns (binary op lhs rhs)
  | cond {condition thenTerm elseTerm : Term} (hcondition : Refers cells columns condition)
      (hthen : Refers cells columns thenTerm) (helse : Refers cells columns elseTerm) :
      Refers cells columns (cond condition thenTerm elseTerm)

variable {cells : List CellRef} {columns : List Nat}

theorem Refers.conjuncts {t : Term} (h : Refers cells columns t) :
    ∀ s ∈ t.conjuncts, Refers cells columns s := by
  cases h with
  | all hterms => exact hterms
  | _ =>
      intro s hs
      rw [List.mem_singleton.1 hs]
      constructor <;> assumption

theorem Refers.both {lhs rhs t : Term} (hlhs : Refers cells columns lhs)
    (hrhs : Refers cells columns rhs) (h : lhs.both rhs = .ok t) : Refers cells columns t := by
  obtain ⟨_, _, h⟩ := exists_of_bind h
  obtain ⟨_, _, h⟩ := exists_of_bind h
  cases h
  refine .all fun s hs => ?_
  rcases List.mem_append.1 hs with hs | hs
  · exact hlhs.conjuncts s hs
  · exact hrhs.conjuncts s hs

/-! ### Settling adds no reference -/

theorem Refers.conjunction {ts : List Term} (h : ∀ t ∈ ts, Refers cells columns t) :
    Refers cells columns (conjunction ts) := by
  have hleft : ∀ t ∈ ts.filter fun t => !t.isBool true, Refers cells columns t :=
    fun t ht => h t (List.mem_of_mem_filter ht)
  rw [Term.conjunction]
  split
  · exact .literal _
  · rename_i t heq
    exact hleft t (heq ▸ List.mem_singleton_self t)
  · split
    · exact .literal _
    · exact .all hleft

theorem Refers.operation {op : ValueOperator} {lhs rhs : Term} (hlhs : Refers cells columns lhs)
    (hrhs : Refers cells columns rhs) : Refers cells columns (operation op lhs rhs) := by
  rw [operation.eq_def]
  split
  · split
    · split
      · exact .literal _
      · exact .binary op hlhs hrhs
    · exact .binary op hlhs hrhs
  · exact .binary op hlhs hrhs

theorem Refers.choice {condition thenTerm elseTerm : Term}
    (hcondition : Refers cells columns condition) (hthen : Refers cells columns thenTerm)
    (helse : Refers cells columns elseTerm) :
    Refers cells columns (choice condition thenTerm elseTerm) := by
  rw [choice.eq_def]
  split
  · exact hthen
  · exact helse
  · exact .cond hcondition hthen helse

theorem Refers.simplify {t : Term} (h : Refers cells columns t) :
    Refers cells columns t.simplify := by
  induction h with
  | literal v => exact .literal v
  | cell href => exact .cell href
  | indirect hcol _ ih => exact .indirect hcol ih
  | index block _ ih => exact .index block ih
  | builtin f _ ih =>
      rw [Term.simplify, simplifyAll_eq]
      exact .builtin f (List.forall_mem_map.2 ih)
  | all _ ih =>
      rw [Term.simplify, simplifyAll_eq]
      exact .conjunction (List.forall_mem_map.2 ih)
  | binary op _ _ ihl ihr => exact .operation ihl ihr
  | cond _ _ _ ihc iht ihe => exact .choice ihc iht ihe

end Term

namespace Formula

variable {cells : List CellRef} {columns : List Nat}

mutual

/-- **Reading keeps the references.** -/
theorem refers_of_read : ∀ {e : Formula} {room : Nat} {t : Term}, e.read room = .ok t →
    e.cells ⊆ cells → e.columns ⊆ columns → t.Refers cells columns
  | text s, room, t, h, _, _ => by
      simp only [read, readText] at h
      split at h
      · cases h
      · cases h
        exact .literal _
  | int n, room, t, h, _, _ => by
      cases h
      exact .literal _
  | cell ref anchor, room, t, h, hcells, _ => by
      obtain ⟨_, _, h⟩ := exists_of_bind h
      cases h
      exact .cell (hcells (List.mem_singleton_self ref))
  | call f args, room, t, h, hcells, hcolumns => by
      obtain ⟨_, _, h⟩ := exists_of_bind h
      obtain ⟨ts, hts, h⟩ := exists_of_bind h
      cases h
      exact .builtin f (refers_of_readArgs hts hcells hcolumns)
  | all [], room, t, h, _, _ => by
      cases h
      exact .literal _
  | all (e :: es), room, t, h, hcells, hcolumns => by
      obtain ⟨inner, _, h⟩ := exists_of_bind h
      obtain ⟨first, hfirst, h⟩ := exists_of_bind h
      have hcells := List.append_subset.1 hcells
      have hcolumns := List.append_subset.1 hcolumns
      exact refers_of_readConjuncts h (refers_of_read hfirst hcells.1 hcolumns.1)
        hcells.2 hcolumns.2
  | binary op lhs rhs, room, t, h, hcells, hcolumns => by
      obtain ⟨inner, _, h⟩ := exists_of_bind h
      obtain ⟨a, ha, h⟩ := exists_of_bind h
      obtain ⟨b, hb, h⟩ := exists_of_bind h
      obtain ⟨_, _, h⟩ := exists_of_bind h
      cases h
      have hcells := List.append_subset.1 hcells
      have hcolumns := List.append_subset.1 hcolumns
      exact .binary _ (refers_of_read ha hcells.1 hcolumns.1)
        (refers_of_read hb hcells.2 hcolumns.2)
  | cond condition thenForm elseForm, room, t, h, hcells, hcolumns => by
      obtain ⟨inner, _, h⟩ := exists_of_bind h
      obtain ⟨c, hc, h⟩ := exists_of_bind h
      obtain ⟨_, _, h⟩ := exists_of_bind h
      obtain ⟨branch, _, h⟩ := exists_of_bind h
      obtain ⟨a, ha, h⟩ := exists_of_bind h
      obtain ⟨b, hb, h⟩ := exists_of_bind h
      cases h
      have hcells := List.append_subset.1 hcells
      have hcolumns := List.append_subset.1 hcolumns
      have hfirst := List.append_subset.1 hcells.1
      have hfirst' := List.append_subset.1 hcolumns.1
      exact .cond (refers_of_read hc hfirst.1 hfirst'.1) (refers_of_read ha hfirst.2 hfirst'.2)
        (refers_of_read hb hcells.2 hcolumns.2)
  | indirect col row, room, t, h, hcells, hcolumns => by
      obtain ⟨inner, _, h⟩ := exists_of_bind h
      obtain ⟨a, ha, h⟩ := exists_of_bind h
      cases h
      have hcolumns := List.append_subset.1 hcolumns
      exact .indirect (hcolumns.2 (List.mem_singleton_self col))
        (refers_of_read ha hcells hcolumns.1)
  | index block position, room, t, h, hcells, hcolumns => by
      obtain ⟨inner, _, h⟩ := exists_of_bind h
      obtain ⟨a, ha, h⟩ := exists_of_bind h
      cases h
      exact .index block (refers_of_read ha hcells hcolumns)

theorem refers_of_readArgs : ∀ {es : List Formula} {room : Nat} {ts : List Term},
    readArgs room es = .ok ts → cellsOfAll es ⊆ cells → columnsOfAll es ⊆ columns →
      ∀ t ∈ ts, t.Refers cells columns
  | [], room, ts, h, _, _ => by
      cases h
      simp
  | e :: es, room, ts, h, hcells, hcolumns => by
      obtain ⟨inner, _, h⟩ := exists_of_bind h
      obtain ⟨t, ht, h⟩ := exists_of_bind h
      obtain ⟨ts', hts, h⟩ := exists_of_bind h
      cases h
      have hcells := List.append_subset.1 hcells
      have hcolumns := List.append_subset.1 hcolumns
      exact List.forall_mem_cons.2 ⟨refers_of_read ht hcells.1 hcolumns.1,
        refers_of_readArgs hts hcells.2 hcolumns.2⟩

theorem refers_of_readConjuncts : ∀ {es : List Formula} {room : Nat} {before t : Term},
    readConjuncts room before es = .ok t → before.Refers cells columns →
      cellsOfAll es ⊆ cells → columnsOfAll es ⊆ columns → t.Refers cells columns
  | [], room, before, t, h, hbefore, _, _ => by
      cases h
      exact hbefore
  | e :: es, room, before, t, h, hbefore, hcells, hcolumns => by
      obtain ⟨next, hnext, h⟩ := exists_of_bind h
      obtain ⟨_, _, h⟩ := exists_of_bind h
      obtain ⟨joined, hjoined, h⟩ := exists_of_bind h
      have hcells := List.append_subset.1 hcells
      have hcolumns := List.append_subset.1 hcolumns
      have hnext := refers_of_read hnext hcells.1 hcolumns.1
      exact refers_of_readConjuncts h (hbefore.both hnext hjoined) hcells.2 hcolumns.2

end

end Formula

/-! ## What is looked at is declared -/

theorem Value.toInt_of_ofInt {n : Int} {w : Int64} (h : Value.ofInt n = .int w) : w.toInt = n := by
  rw [Value.ofInt] at h
  split at h
  · rename_i hfits
    have hrange := Word.fits_iff.1 hfits
    cases h
    exact Int64.toInt_ofInt_of_le hrange.1 hrange.2
  · cases h

theorem Access.mem_behind {α : Type} {x : Except Fault α} {accesses : α → List Access}
    {access : Access} : access ∈ behind x accesses ↔ ∃ a, x = .ok a ∧ access ∈ accesses a := by
  cases x with
  | error fault => simp [behind]
  | ok a => simp [behind]

namespace Callee

theorem mem_accesses_value {args : List Value} {access : Access}
    (h : access ∈ Callee.value.accesses args) :
    ∃ col row ref, args = [.int col, .int row] ∧ col.toInt = ref.col ∧ row.toInt = ref.row ∧
      access = .named ref := by
  rw [accesses.eq_def] at h
  split at h
  · rename_i col row _
    obtain ⟨ref, href, rfl⟩ := List.mem_map.1 h
    obtain ⟨hcol, hrow⟩ := Values.address?_eq_some (Option.mem_toList.1 href)
    exact ⟨col, row, ref, rfl, hcol, hrow, rfl⟩
  · contradiction
  · cases h

theorem mem_accesses_indirect {args : List Value} {access : Access}
    (h : access ∈ Callee.indirect.accesses args) :
    ∃ col row ref, args = [.int col, row] ∧ col.toInt = ref.col ∧ access = .landed ref := by
  rw [accesses.eq_def] at h
  split at h
  · contradiction
  · rename_i col row _
    obtain ⟨_, _, h⟩ := Access.mem_behind.1 h
    obtain ⟨ref, href, rfl⟩ := List.mem_map.1 h
    exact ⟨col, .int row, ref, rfl, (Values.address?_eq_some (Option.mem_toList.1 href)).1, rfl⟩
  · cases h

end Callee

namespace Term

variable {sheets : Sheets} {values : Values} {cells : List CellRef} {columns : List Nat}

theorem exists_of_mem_accessesOfArgs {ts : List Term} {access : Access}
    (h : access ∈ accessesOfArgs sheets values ts) :
    ∃ t ∈ ts, access ∈ t.accesses sheets values := by
  induction ts with
  | nil => cases h
  | cons t ts ih =>
      rcases List.mem_append.1 h with h | h
      · exact ⟨t, List.mem_cons_self, h⟩
      · obtain ⟨_, _, h⟩ := Access.mem_behind.1 h
        obtain ⟨s, hs, h⟩ := ih h
        exact ⟨s, List.mem_cons_of_mem _ hs, h⟩

theorem exists_of_mem_accessesOfConjuncts {ts : List Term} {access : Access}
    (h : access ∈ accessesOfConjuncts sheets values ts) :
    ∃ t ∈ ts, access ∈ t.accesses sheets values := by
  induction ts with
  | nil => cases h
  | cons t ts ih =>
      rcases List.mem_append.1 h with h | h
      · exact ⟨t, List.mem_cons_self, h⟩
      · obtain ⟨holds, _, h⟩ := Access.mem_behind.1 h
        cases holds with
        | false => cases h
        | true =>
            obtain ⟨s, hs, h⟩ := ih h
            exact ⟨s, List.mem_cons_of_mem _ hs, h⟩

theorem exists_of_mem_accesses_call {f : Callee} {args : List Term} {access : Access}
    (h : access ∈ (call f args).accesses sheets values) :
    (∃ t ∈ args, access ∈ t.accesses sheets values) ∨
      ∃ vs, evalArgs sheets values args = .ok vs ∧ access ∈ f.accesses vs := by
  rcases List.mem_append.1 h with h | h
  · exact .inl (exists_of_mem_accessesOfArgs h)
  · exact .inr (Access.mem_behind.1 h)

theorem exists_of_evalArgs_cons {t : Term} {ts : List Term} {vs : List Value}
    (h : evalArgs sheets values (t :: ts) = .ok vs) :
    ∃ v vs', t.eval sheets values = .ok v ∧ evalArgs sheets values ts = .ok vs' ∧
      vs = v :: vs' := by
  obtain ⟨v, hv, h⟩ := exists_of_bind h
  obtain ⟨vs', hvs, h⟩ := exists_of_bind h
  cases h
  exact ⟨v, vs', hv, hvs, rfl⟩

@[simp] theorem accesses_literal (v : Value) : (literal v).accesses sheets values = [] := by
  rw [accesses]

@[simp] theorem accesses_number (n : Nat) : (number n).accesses sheets values = [] :=
  accesses_literal _

theorem eq_of_eval_number {n : Nat} {w : Int64}
    (h : (number n).eval sheets values = .ok (.int w)) : w.toInt = n := by
  rw [number, eval] at h
  exact Value.toInt_of_ofInt (Except.ok.inj h)

theorem isAmong_cell {ref : CellRef} (href : ref ∈ cells) {access : Access}
    (haccess : access ∈ (cell ref).accesses sheets values) : access.IsAmong cells columns := by
  rcases exists_of_mem_accesses_call haccess with ⟨t, ht, h⟩ | ⟨vs, hvs, h⟩
  · rcases List.mem_pair.1 ht with rfl | rfl <;> simp at h
  · obtain ⟨col, row, target, rfl, hcol, hrow, rfl⟩ := Callee.mem_accesses_value h
    obtain ⟨v, _, hv, hvs, heq⟩ := exists_of_evalArgs_cons hvs
    obtain ⟨w, _, hw, _, rfl⟩ := exists_of_evalArgs_cons hvs
    cases heq
    rw [eq_of_eval_number hv] at hcol
    rw [eq_of_eval_number hw] at hrow
    obtain ⟨col, row⟩ := target
    cases Int.ofNat.inj hcol
    cases Int.ofNat.inj hrow
    exact href

theorem isAmong_indirect {col : Nat} (hcol : col ∈ columns) {row : Term} {access : Access}
    (hrow : access ∈ row.accesses sheets values → access.IsAmong cells columns)
    (haccess : access ∈ (indirect col row).accesses sheets values) :
    access.IsAmong cells columns := by
  rcases exists_of_mem_accesses_call haccess with ⟨t, ht, h⟩ | ⟨vs, hvs, h⟩
  · rcases List.mem_pair.1 ht with rfl | rfl
    · simp at h
    · exact hrow h
  · obtain ⟨w, _, target, rfl, hw, rfl⟩ := Callee.mem_accesses_indirect h
    obtain ⟨v, _, hv, _, heq⟩ := exists_of_evalArgs_cons hvs
    cases heq
    rw [eq_of_eval_number hv] at hw
    cases Int.ofNat.inj hw
    exact hcol

theorem isAmong_index {block : ColumnBlock} {position : Term} {access : Access}
    (hposition : access ∈ position.accesses sheets values → access.IsAmong cells columns)
    (haccess : access ∈ (index block position).accesses sheets values) :
    access.IsAmong cells columns := by
  rcases exists_of_mem_accesses_call haccess with ⟨t, ht, h⟩ | ⟨vs, _, h⟩
  · simp only [List.mem_cons, List.not_mem_nil, or_false] at ht
    rcases ht with rfl | rfl | rfl | rfl | rfl
    iterate 4 · simp at h
    · exact hposition h
  · cases h

/-- **A term looks only at what it refers to.** -/
theorem Refers.isAmong {t : Term} (ht : t.Refers cells columns) :
    ∀ access ∈ t.accesses sheets values, access.IsAmong cells columns := by
  induction ht with
  | literal v => simp
  | cell href => exact fun access => isAmong_cell href
  | indirect hcol _ ih => exact fun access => isAmong_indirect hcol (ih access)
  | index block _ ih => exact fun access => isAmong_index (ih access)
  | builtin f _ ih =>
      intro access haccess
      rcases exists_of_mem_accesses_call haccess with ⟨t, ht, haccess⟩ | ⟨_, _, haccess⟩
      · exact ih t ht access haccess
      · cases haccess
  | all _ ih =>
      intro access haccess
      obtain ⟨t, ht, haccess⟩ := exists_of_mem_accessesOfConjuncts haccess
      exact ih t ht access haccess
  | binary op _ _ ihl ihr =>
      intro access haccess
      rcases List.mem_append.1 haccess with haccess | haccess
      · exact ihl access haccess
      · obtain ⟨_, _, haccess⟩ := Access.mem_behind.1 haccess
        exact ihr access haccess
  | cond _ _ _ ihc iht ihe =>
      intro access haccess
      rcases List.mem_append.1 haccess with haccess | haccess
      · exact ihc access haccess
      · obtain ⟨holds, _, haccess⟩ := Access.mem_behind.1 haccess
        cases holds with
        | true => exact iht access haccess
        | false => exact ihe access haccess

end Term

namespace Formula

/-- What working a formula out looks at. -/
def accesses (e : Formula) (sheets : Sheets) (values : Values) : List Access :=
  match e.read fullRoom with
  | .error _ => []
  | .ok t => t.simplify.accesses sheets values

variable {e : Formula} {sheets : Sheets} {now later : Values}

theorem value_congr (hplain : e.isPlain = true)
    (h : Values.AgreeAt (e.accesses sheets now) now later) :
    e.value sheets later = e.value sheets now := by
  rw [accesses] at h
  rw [value, value, if_pos hplain, if_pos hplain, plainValue, plainValue]
  cases hread : e.read fullRoom with
  | error fault => rfl
  | ok t =>
      rw [hread] at h
      exact Term.eval_congr h

/-- **A formula looks only at what it refers to.** -/
theorem isAmong_of_mem_accesses {access : Access} (h : access ∈ e.accesses sheets now) :
    access.IsAmong e.cells e.columns := by
  rw [accesses] at h
  cases hread : e.read fullRoom with
  | error fault =>
      rw [hread] at h
      cases h
  | ok t =>
      rw [hread] at h
      exact (refers_of_read hread (List.Subset.refl _) (List.Subset.refl _)).simplify.isAmong _ h

end Formula

end SheetCipher
