import SheetCipher.Proofs.Eval.Solution

/-!
# Coverage — dependencies cover every read

What a formula is worked out from are the cells that its dependencies name:
the direct references, and for each column that it refers to indirectly all
rows of a range. A reference that computes its row may land elsewhere; while
none does, values that agree where the dependencies say give the same result or
the same fault, and the evaluation looks at the same cells in the same order
(`value_eq_of_agreeOn`). A name of a sheet that does not stand for itself can
read a cell that no dependency names (`value_misses_quotedName`).
-/

namespace SheetCipher

/-! ## The same looks -/

theorem Access.behind_congr {α : Type} {x : Except Fault α} {f g : α → List Access}
    (h : ∀ a, x = .ok a → f a = g a) : behind x f = behind x g := by
  cases x with
  | error fault => rfl
  | ok a => exact h a rfl

namespace Term

open Values

variable {sheets : Sheets} {now later : Values}

mutual

/-- **Where a term sees the same it looks at the same.** -/
theorem accesses_congr : ∀ {t : Term}, AgreeAt (t.accesses sheets now) now later →
    t.accesses sheets later = t.accesses sheets now
  | literal _, _ => by rw [accesses, accesses]
  | call f args, h => by
      rw [accesses] at h
      rw [accesses, accesses, accessesOfArgs_congr h.left, evalArgs_congr h.left]
  | all terms, h => by
      rw [accesses] at h
      rw [accesses, accesses, accessesOfConjuncts_congr h]
  | binary op lhs rhs, h => by
      rw [accesses] at h
      rw [accesses, accesses, accesses_congr h.left, eval_congr h.left]
      refine congrArg _ (Access.behind_congr fun _ ha => ?_)
      exact accesses_congr (h.right.behind ha)
  | cond condition thenTerm elseTerm, h => by
      rw [accesses] at h
      rw [accesses, accesses, accesses_congr h.left, eval_congr h.left]
      refine congrArg _ (Access.behind_congr fun holds hholds => ?_)
      have hbranch := h.right.behind hholds
      cases holds with
      | true => exact accesses_congr hbranch
      | false => exact accesses_congr hbranch

theorem accessesOfArgs_congr : ∀ {ts : List Term},
    AgreeAt (accessesOfArgs sheets now ts) now later →
      accessesOfArgs sheets later ts = accessesOfArgs sheets now ts
  | [], _ => by rw [accessesOfArgs, accessesOfArgs]
  | t :: ts, h => by
      rw [accessesOfArgs] at h
      rw [accessesOfArgs, accessesOfArgs, accesses_congr h.left, eval_congr h.left]
      refine congrArg _ (Access.behind_congr fun _ hv => ?_)
      exact accessesOfArgs_congr (h.right.behind hv)

theorem accessesOfConjuncts_congr : ∀ {ts : List Term},
    AgreeAt (accessesOfConjuncts sheets now ts) now later →
      accessesOfConjuncts sheets later ts = accessesOfConjuncts sheets now ts
  | [], _ => by rw [accessesOfConjuncts, accessesOfConjuncts]
  | t :: ts, h => by
      rw [accessesOfConjuncts] at h
      rw [accessesOfConjuncts, accessesOfConjuncts, accesses_congr h.left, eval_congr h.left]
      refine congrArg _ (Access.behind_congr fun holds hholds => ?_)
      have hrest := h.right.behind hholds
      cases holds with
      | true => exact accessesOfConjuncts_congr hrest
      | false => rfl

end

end Term

/-- Values that show the same at every cell that some dependencies name. -/
def Values.AgreeOn (dependencies : List Dependency) (now later : Values) : Prop :=
  ∀ dependency ∈ dependencies, ∀ ref ∈ dependency.refs, later.read ref = now.read ref

namespace Formula

/-- Every reference that computes its row lands on one of the rows. -/
def LandsOn (e : Formula) (rows : RowRange) (sheets : Sheets) (values : Values) : Prop :=
  ∀ ref ∈ (e.accesses sheets values).filterMap Access.landing?, rows.Holds ref.row

instance (e : Formula) (rows : RowRange) (sheets : Sheets) (values : Values) :
    Decidable (e.LandsOn rows sheets values) :=
  inferInstanceAs (Decidable (∀ ref ∈ _, _))

variable {e : Formula} {rows : RowRange} {sheets : Sheets} {now later : Values}

theorem accesses_congr (h : Values.AgreeAt (e.accesses sheets now) now later) :
    e.accesses sheets later = e.accesses sheets now := by
  rw [accesses] at h ⊢
  rw [accesses]
  cases hread : e.read fullRoom with
  | error fault => rfl
  | ok t =>
      rw [hread] at h
      exact Term.accesses_congr h

/-- **Every look is at a cell that a dependency names**, as long as the computed
rows are in range. -/
theorem reads_of_mem_accesses (hlands : e.LandsOn rows sheets now) {access : Access}
    (haccess : access ∈ e.accesses sheets now) :
    ∃ dependency ∈ e.dependencies rows, access.target ∈ dependency.refs := by
  have hamong := isAmong_of_mem_accesses haccess
  refine Cell.reads_formula.2 ?_
  cases access with
  | named ref => exact .inl hamong
  | landed ref => exact .inr ⟨hamong, hlands ref (List.mem_filterMap.2 ⟨_, haccess, rfl⟩)⟩

/-- **Dependencies cover every read.** Where the values of two evaluations agree
on the dependencies of a formula and all its computed rows are in range, the
result or the fault is the same, and so is everything that is looked at. -/
theorem value_eq_of_agreeOn (e : Formula) (rows : RowRange) (sheets : Sheets)
    (now later : Values) (hplain : e.isPlain = true) (hlands : e.LandsOn rows sheets now)
    (hagree : Values.AgreeOn (e.dependencies rows) now later) :
    e.value sheets later = e.value sheets now ∧
      e.accesses sheets later = e.accesses sheets now := by
  have hsame : Values.AgreeAt (e.accesses sheets now) now later := by
    intro access haccess
    obtain ⟨dependency, hdependency, htarget⟩ := reads_of_mem_accesses hlands haccess
    exact hagree dependency hdependency _ htarget
  exact ⟨value_congr hplain hsame, accesses_congr hsame⟩

/-- The cell of column `B` whose row stands in column `A`, in the row that `A1`
says; `C9` if `A1` says none. -/
def chainedLookUp : Formula :=
  .cond (.binary .gt (.cell ⟨0, 0⟩ .relative) (.int 0))
    (.indirect 1 (.indirect 0 (.cell ⟨0, 0⟩ .relative))) (.cell ⟨2, 8⟩ .relative)

/-- `A1` says row 2, `A2` row 3, and `B3` holds a text. -/
def chainedValues : Values :=
  ((Std.TreeMap.empty.insert (⟨0, 0⟩ : CellRef) (Value.int 2)).insert ⟨0, 1⟩ (.int 3)).insert
    ⟨1, 2⟩ (.text "x")

/-- An entry below the rows leaves the chain as it is. -/
theorem value_eq_of_agreeOn_chainedLookUp :
    let rows : RowRange := ⟨0, 3⟩
    let later : Values := chainedValues.insert ⟨1, 3⟩ (.int 7)
    chainedLookUp.isPlain = true ∧ chainedLookUp.LandsOn rows [] chainedValues ∧
      Values.AgreeOn (chainedLookUp.dependencies rows) chainedValues later ∧
      (chainedLookUp.value [] chainedValues).toOption.map Value.shown = some "x" ∧
      chainedLookUp.value [] later = chainedLookUp.value [] chainedValues := by
  intro rows later
  have hplain : chainedLookUp.isPlain = true := by decide
  have hlands : chainedLookUp.LandsOn rows [] chainedValues := by decide +kernel
  have hagree : Values.AgreeOn (chainedLookUp.dependencies rows) chainedValues later := by
    have hoff : ∀ dependency ∈ chainedLookUp.dependencies rows,
        ∀ ref ∈ dependency.refs, ref ≠ ⟨1, 3⟩ := by
      decide +kernel
    intro dependency hdependency ref href
    simp only [later, Values.read]
    rw [CellRef.getElem?_insert, if_neg (hoff dependency hdependency ref href).symm]
  exact ⟨hplain, hlands, hagree, by decide +kernel,
    (value_eq_of_agreeOn _ rows [] _ later hplain hlands hagree).1⟩

/-- **A name that does not stand for itself reads what no dependency names.** -/
theorem value_misses_quotedName :
    ¬ ∀ (e : Formula) (rows : RowRange) (sheets : Sheets) (now later : Values),
      e.LandsOn rows sheets now → Values.AgreeOn (e.dependencies rows) now later →
        e.value sheets later = e.value sheets now := by
  intro hall
  let now : Values := Std.TreeMap.empty.insert ⟨0, 1⟩ (.text "x")
  have hagree : Values.AgreeOn (Grid.quotedName.dependencies ⟨0, 0⟩) now ∅ := by
    have hnone : Grid.quotedName.dependencies ⟨0, 0⟩ = [] := by decide +kernel
    rw [hnone]
    exact List.forall_mem_nil _
  have hsame := hall Grid.quotedName ⟨0, 0⟩ [] now ∅ (by decide +kernel) hagree
  have hnow : (Grid.quotedName.value [] now).toOption.map Value.shown = some "x" := by
    decide +kernel
  have hlater : (Grid.quotedName.value [] ∅).toOption.map Value.shown = some "" := by
    decide +kernel
  rw [hsame] at hlater
  exact absurd (hnow.symm.trans hlater) (by decide)

end Formula

end SheetCipher
