import SheetCipher.Proofs.Eval.Grid

/-!
# Circle — what the report of a circle shows

A search that comes back to its way reports the whole way: from the first cell
in sheet order that leads into a circle up to the circle, and once round it
(`order_reports_circle`). No cell is shown twice but the one that closes the
circle. The report is the circle itself as long as nothing leads into it; a
cell that is searched first and stands on no circle is shown in front
(`order_reports_leadIn`).
-/

namespace SheetCipher

/-- A run that fails has a step that fails, behind steps that do not. -/
theorem exists_of_foldlM_error {ε α β : Type} {f : β → α → Except ε β} {l : List α} {b : β} {e : ε}
    (h : l.foldlM f b = .error e) :
    ∃ before a after b', l = before ++ a :: after ∧ before.foldlM f b = .ok b' ∧
      f b' a = .error e := by
  induction l generalizing b with
  | nil => cases h
  | cons a l ih =>
      rw [List.foldlM_cons] at h
      cases hstep : f b a with
      | error e' =>
          rw [hstep] at h
          cases h
          exact ⟨[], a, l, b, rfl, rfl, hstep⟩
      | ok b' =>
          rw [hstep] at h
          obtain ⟨before, c, after, b'', rfl, hbefore, herror⟩ := ih h
          refine ⟨a :: before, c, after, b'', rfl, ?_, herror⟩
          rw [List.foldlM_cons, hstep]
          exact hbefore

namespace DependencyGraph

/-! ## Vocabulary -/

/-- A walk from dependency to dependency that ends with the cell it starts with
and comes by no other cell twice. -/
structure IsCircle (graph : DependencyGraph) (path : List CellRef) : Prop where
  walk : path.IsChain graph.DependsOn
  closes : ∃ ref between, path = ref :: between ++ [ref]
  nodup : path.dropLast.Nodup

/-- A cell depends on one that depends on itself. -/
def LeadsIntoCircle (graph : DependencyGraph) (ref : CellRef) : Prop :=
  ∃ target, Relation.TransGen graph.DependsOn ref target ∧
    Relation.TransGen graph.DependsOn target target

/-- The first cell in sheet order that leads into a circle. -/
structure IsEntrance (graph : DependencyGraph) (ref : CellRef) : Prop where
  leads : graph.LeadsIntoCircle ref
  first : ∀ other ∈ graph, compare other ref = .lt → ¬ graph.LeadsIntoCircle other

/-- A cell stands on every circle that it leads into. -/
def IsOnItsCircles (graph : DependencyGraph) (ref : CellRef) : Prop :=
  ∀ circle, graph.IsCircle circle →
    (∃ target ∈ circle, Relation.TransGen graph.DependsOn ref target) → ref ∈ circle

/-- A way into a circle and once round it, from `first` on and without a cell
that is shown twice before the end. -/
structure IsWayRound (graph : DependencyGraph) (first : CellRef) (lead circle : List CellRef) :
    Prop where
  walk : (lead ++ circle).IsChain graph.DependsOn
  nodup : (lead ++ circle).dropLast.Nodup
  round : graph.IsCircle circle
  head : (lead ++ circle).head? = some first

variable {graph : DependencyGraph}

theorem IsCircle.head?_eq_getLast? {circle : List CellRef} (h : graph.IsCircle circle) :
    circle.head? = circle.getLast? := by
  obtain ⟨ref, between, rfl⟩ := h.closes
  rw [List.getLast?_concat]
  rfl

/-- The cell that closes a circle is its first. -/
theorem mem_of_mem_closed {ref start : CellRef} {between : List CellRef}
    (h : ref ∈ start :: between ++ [start]) : ref ∈ start :: between := by
  rcases List.mem_append.1 h with h | h
  · exact h
  · rw [List.mem_singleton.1 h]
    exact List.mem_cons_self

/-- On a circle every cell depends on one that is on it as well. -/
theorem IsCircle.exists_dependsOn {circle : List CellRef} (h : graph.IsCircle circle)
    {ref : CellRef} (href : ref ∈ circle) : ∃ next ∈ circle, graph.DependsOn ref next := by
  obtain ⟨start, between, rfl⟩ := h.closes
  obtain ⟨before, after, hsplit⟩ := List.append_of_mem (mem_of_mem_closed href)
  have hwalk := h.walk
  rw [hsplit, List.append_assoc, List.cons_append] at hwalk
  have hwalk := (List.isChain_append.1 hwalk).2.1
  rw [hsplit]
  cases after with
  | nil => exact ⟨start, by simp, (List.isChain_cons_cons.1 hwalk).1⟩
  | cons next after => exact ⟨next, by simp, (List.isChain_cons_cons.1 hwalk).1⟩

/-! ## Reports -/

/-- A report that goes on from a way: the cells of a trail that begins with the
way, and one of them once more. -/
def GoesOn (graph : DependencyGraph) (path report : List CellRef) : Prop :=
  ∃ trail last, graph.IsTrail trail ∧ path <:+ trail ∧ last ∈ trail ∧
    report = trail.reverse ++ [last]

theorem exists_of_follow_error {go : Walk → CellRef → Except (List CellRef) Walk} {w : Walk}
    {dependency : Dependency} {report : List CellRef}
    (h : follow go w dependency = .error report) : ∃ w' target, go w' target = .error report := by
  cases dependency with
  | cell target => exact ⟨w, target, h⟩
  | column col rows =>
      rw [follow] at h
      split at h
      · cases h
      · cases hrows : rows.rows.foldlM (fun w row => go w ⟨col, row⟩) w with
        | ok w' =>
            rw [hrows] at h
            cases h
        | error report' =>
            rw [hrows] at h
            cases h
            obtain ⟨_, row, _, w', _, _, herror⟩ := exists_of_foldlM_error hrows
            exact ⟨w', ⟨col, row⟩, herror⟩

/-- **What a visit reports** goes on from the way, and from the visited cell if
it is new on the way. -/
theorem goesOn_of_visit {steps : Nat} {path : List CellRef} (ht : graph.IsTrail path) {w : Walk}
    {ref : CellRef} {report : List CellRef} (h : visit graph steps path w ref = .error report) :
    graph.GoesOn path report ∧ (ref ∉ path → graph.GoesOn (ref :: path) report) := by
  induction steps generalizing path w ref with
  | zero => cases h
  | succ steps ih =>
      rw [visit] at h
      split at h
      · cases h
      · cases hget : graph[ref]? with
        | none =>
            rw [hget] at h
            cases h
        | some dependencies =>
            simp only [hget] at h
            by_cases hpath : ref ∈ path
            · rw [if_pos hpath] at h
              cases h
              exact ⟨⟨path, ref, ht, List.suffix_refl path, hpath, rfl⟩, absurd hpath⟩
            · rw [if_neg hpath] at h
              have ht' := ht.cons hpath (mem_of_getElem? hget)
              cases hrun : dependencies.foldlM (follow (visit graph steps (ref :: path))) w with
              | ok w' =>
                  rw [hrun] at h
                  cases h
              | error report' =>
                  rw [hrun] at h
                  cases h
                  -- the report comes from a cell below, with `ref` on the way
                  obtain ⟨_, _, _, _, _, _, herror⟩ := exists_of_foldlM_error hrun
                  obtain ⟨_, _, herror⟩ := exists_of_follow_error herror
                  have hbelow := (ih ht' herror).1
                  refine ⟨?_, fun _ => hbelow⟩
                  obtain ⟨trail, last, htrail, hsuffix, hlast, heq⟩ := hbelow
                  exact ⟨trail, last, htrail, (List.suffix_cons ref path).trans hsuffix, hlast, heq⟩

/-- **A report is a way into a circle and once round it.** -/
theorem GoesOn.isWayRound {ref : CellRef} {report : List CellRef}
    (h : graph.GoesOn [ref] report) (hwalk : report.IsChain graph.DependsOn) :
    ∃ lead circle, report = lead ++ circle ∧ graph.IsWayRound ref lead circle := by
  obtain ⟨trail, last, htrail, ⟨front, rfl⟩, hlast, rfl⟩ := h
  obtain ⟨lead, between, hsplit⟩ := List.append_of_mem (List.mem_reverse.2 hlast)
  have hnodup : (lead ++ last :: between).Nodup := hsplit ▸ List.nodup_reverse.2 htrail.nodup
  have hreport : (front ++ [ref]).reverse ++ [last] = lead ++ (last :: between ++ [last]) := by
    rw [hsplit, List.append_assoc]
  have hhead : (lead ++ (last :: between ++ [last])).head? = some ref := by
    rw [← hreport]
    simp
  have hdrop : (lead ++ (last :: between ++ [last])).dropLast = lead ++ last :: between := by
    rw [← List.append_assoc, List.dropLast_concat]
  rw [hreport] at hwalk ⊢
  refine ⟨lead, last :: between ++ [last], rfl, hwalk, hdrop ▸ hnodup,
    ⟨(List.isChain_append.1 hwalk).2.1, ⟨last, between, rfl⟩, ?_⟩, hhead⟩
  rw [List.dropLast_concat]
  exact (List.nodup_append.1 hnodup).2.1

/-- A way into a circle leads to a cell that depends on itself. -/
theorem IsWayRound.exists_transGen {first : CellRef} {lead circle : List CellRef}
    (h : graph.IsWayRound first lead circle) :
    ∃ target ∈ circle, Relation.TransGen graph.DependsOn first target ∧
      Relation.TransGen graph.DependsOn target target := by
  obtain ⟨ref, between, rfl⟩ := h.round.closes
  have hreach : ∀ path : List CellRef, path.IsChain graph.DependsOn →
      path.Pairwise (Relation.TransGen graph.DependsOn) := fun path hpath =>
    List.isChain_iff_pairwise.1 (hpath.imp fun _ _ => Relation.TransGen.single)
  have hround := List.pairwise_cons.1 (hreach _ h.round.walk)
  refine ⟨ref, by simp, ?_, hround.1 ref (by simp)⟩
  cases lead with
  | nil =>
      cases h.head
      exact hround.1 first (by simp)
  | cons a lead =>
      cases h.head
      exact (List.pairwise_cons.1 (hreach _ h.walk)).1 ref (by simp)

/-- Nothing leads into a circle that the first cell stands on. -/
theorem IsWayRound.lead_eq_nil {first : CellRef} {lead circle : List CellRef}
    (h : graph.IsWayRound first lead circle) (hon : graph.IsOnItsCircles first) : lead = [] := by
  obtain ⟨target, htarget, hreach, _⟩ := h.exists_transGen
  have hmem : first ∈ circle := hon circle h.round ⟨target, htarget, hreach⟩
  cases lead with
  | nil => rfl
  | cons a lead =>
      cases h.head
      -- the first cell would be shown once in front and once more on the circle
      obtain ⟨ref, between, rfl⟩ := h.round.closes
      have hnodup := h.nodup
      rw [← List.append_assoc, List.dropLast_concat, List.cons_append, List.nodup_cons] at hnodup
      exact absurd (List.mem_append_right lead (mem_of_mem_closed hmem)) hnodup.1

/-! ## The whole search -/

/-- Settled cells lead into no circle. -/
theorem IsSettled.not_leadsIntoCircle {order : List CellRef} (h : graph.IsSettled order)
    {ref : CellRef} (hmem : ref ∈ order) : ¬ graph.LeadsIntoCircle ref := by
  rintro ⟨target, hreach, hcircle⟩
  obtain ⟨done, rest, heq⟩ := List.append_of_mem hmem
  have hdone : target ∈ done := h.mem_of_transGen heq hreach
  exact h.not_transGen_self (heq ▸ List.mem_append_left _ hdone) hcircle

/-- **Where a failing search fails**: at a cell before which no other leads into
a circle. -/
theorem exists_of_order_error {path : List CellRef} (h : graph.order = .error path) :
    ∃ first, graph.GoesOn [first] path ∧
      ∀ other ∈ graph, compare other first = .lt → ¬ graph.LeadsIntoCircle other := by
  have hsearch : graph.search (graph.size + 1) = .error path := by
    rw [order_eq_search] at h
    cases hrun : graph.search (graph.size + 1) with
    | ok w =>
        rw [hrun] at h
        cases h
    | error report =>
        rw [hrun] at h
        cases h
        rfl
  obtain ⟨before, first, after, w, hkeys, hbefore, herror⟩ := exists_of_foldlM_error hsearch
  refine ⟨first, (goesOn_of_visit (IsTrail.nil graph) herror).2 (by simp), ?_⟩
  -- the cells before the first one that fails have all been placed
  have hplaces := foldlM_places (fun w ref => visit graph (graph.size + 1) [] w ref)
    (fun ref => [ref]) before (fun ref _ w hw => visit_places (IsTrail.nil graph)
      (by simp only [List.length_nil]; omega) (fun _ => List.isChain_singleton _) hw)
    (Sound.empty graph)
  rw [hbefore, List.flatMap_singleton'] at hplaces
  obtain ⟨hsound, _, hdone⟩ := hplaces
  intro other hother hlt
  have hmem : other ∈ before := by
    have hsorted : graph.keys.Pairwise fun a b => compare a b = .lt := Std.TreeMap.ordered_keys
    have hmem : other ∈ graph.keys := Std.TreeMap.mem_keys.2 hother
    rw [hkeys] at hsorted hmem
    rcases List.mem_append.1 hmem with hmem | hmem
    · exact hmem
    · rcases List.mem_cons.1 hmem with rfl | hmem
      · rw [Std.compare_self] at hlt
        cases hlt
      · have hafter := (List.pairwise_cons.1 (List.pairwise_append.1 hsorted).2.1).1 other hmem
        exact absurd hlt (Std.OrientedCmp.not_lt_of_lt hafter)
  exact hsound.isSettled.not_leadsIntoCircle (List.mem_reverse.2 (hdone other hmem hother))

theorem isCyclic_of_error {path : List CellRef} (h : graph.order = .error path) :
    graph.IsCyclic := by
  rcases order_cases graph with ⟨order, horder, _⟩ | ⟨_, _, hlasso⟩
  · cases h.symm.trans horder
  · exact hlasso.isCyclic

/-- **A search of a graph with circles reports the way from the first cell in
sheet order that leads into one, and once round it.** The report is the circle
itself if that cell stands on every circle that it leads into. An evaluation of
a grid with these dependencies fails with this report. -/
theorem order_reports_circle (graph : DependencyGraph) (hcyclic : graph.IsCyclic) :
    ∃ first lead circle, graph.order = .error (lead ++ circle) ∧ graph.IsEntrance first ∧
      graph.IsWayRound first lead circle ∧
      (graph.IsOnItsCircles first → graph.IsCircle (lead ++ circle)) ∧
      ∀ (grid : Grid) (sheets : Sheets) (values : Values), grid.dependencies = graph →
        grid.evaluate sheets values = ⟨values, some (.circular (lead ++ circle))⟩ := by
  rcases order_cases graph with ⟨_, _, hschedule⟩ | ⟨path, hpath, hlasso⟩
  · exact absurd hcyclic hschedule.not_isCyclic
  · obtain ⟨first, hgoes, hfirst⟩ := exists_of_order_error hpath
    obtain ⟨lead, circle, rfl, hround⟩ := hgoes.isWayRound hlasso.walk
    obtain ⟨target, _, hreach, hself⟩ := hround.exists_transGen
    have hentrance : graph.IsEntrance first := ⟨⟨target, hreach, hself⟩, hfirst⟩
    refine ⟨first, lead, circle, hpath, hentrance, hround, fun hon => ?_, ?_⟩
    · rw [hround.lead_eq_nil hon]
      exact hround.round
    · rintro grid sheets values rfl
      rw [Grid.evaluate, Grid.evaluateBy, hpath]

/-- The cells of a grid in which `A1` and `B1` depend on each other and `A2` on
`A1`. -/
def mutualCells : List (CellRef × Cell) :=
  [(⟨0, 0⟩, .formula (.cell ⟨1, 0⟩ .relative) ⟨0, 0⟩),
    (⟨1, 0⟩, .formula (.cell ⟨0, 0⟩ .relative) ⟨0, 0⟩),
    (⟨0, 1⟩, .formula (.cell ⟨0, 0⟩ .relative) ⟨0, 0⟩)]

/-- The circle of `A1` and `B1` is reported as it is. -/
theorem order_reports_circle_mutual :
    let graph := (Grid.ofCells mutualCells).dependencies
    graph.IsCyclic ∧ graph.IsOnItsCircles ⟨0, 0⟩ ∧
      graph.order = .error [⟨0, 0⟩, ⟨1, 0⟩, ⟨0, 0⟩] ∧ graph.IsEntrance ⟨0, 0⟩ ∧
      graph.IsCircle [⟨0, 0⟩, ⟨1, 0⟩, ⟨0, 0⟩] := by
  intro graph
  have horder : graph.order = .error [⟨0, 0⟩, ⟨1, 0⟩, ⟨0, 0⟩] := by decide +kernel
  have hcyclic : graph.IsCyclic := isCyclic_of_error horder
  have hedges : ∀ a b, graph.DependsOn a b → a = ⟨0, 0⟩ ∨ b = ⟨0, 0⟩ := by
    intro a b hdep
    obtain ⟨_, cell, hcell, hreads⟩ := Grid.dependsOn_iff.1 hdep
    have hmem : (a, cell) ∈ mutualCells := CellRef.mem_of_getElem?_ofList hcell
    simp only [mutualCells, List.mem_cons, List.not_mem_nil, or_false, Prod.mk.injEq] at hmem
    rcases hmem with ⟨ha, _⟩ | ⟨_, rfl⟩ | ⟨_, rfl⟩
    · exact .inl ha
    all_goals
      refine .inr ?_
      simpa [Formula.cells, Formula.columns] using Cell.reads_formula.1 hreads
  have hon : graph.IsOnItsCircles ⟨0, 0⟩ := by
    rintro circle hcircle ⟨target, htarget, _⟩
    obtain ⟨next, hnext, hdep⟩ := hcircle.exists_dependsOn htarget
    rcases hedges _ _ hdep with rfl | rfl
    · exact htarget
    · exact hnext
  obtain ⟨first, lead, circle, hreport, hentrance, hround, hcircle, _⟩ :=
    order_reports_circle graph hcyclic
  have hpath : lead ++ circle = [⟨0, 0⟩, ⟨1, 0⟩, ⟨0, 0⟩] :=
    Except.error.inj (hreport.symm.trans horder)
  have hfirst := hround.head
  rw [hpath] at hfirst hcircle
  cases hfirst
  exact ⟨hcyclic, hon, horder, hentrance, hcircle hon⟩

/-- The cells of a grid in which `A1` depends on `B1` and `B1` on itself. -/
def leadInCells : List (CellRef × Cell) :=
  [(⟨0, 0⟩, .formula (.cell ⟨1, 0⟩ .relative) ⟨0, 0⟩),
    (⟨1, 0⟩, .formula (.cell ⟨1, 0⟩ .relative) ⟨0, 0⟩)]

/-- **A cell that leads into a circle without standing on it is shown as well.** -/
theorem order_reports_leadIn :
    ¬ ∀ graph : DependencyGraph, graph.IsCyclic →
      ∃ path, graph.order = .error path ∧ graph.IsCircle path := by
  intro hall
  have horder : (Grid.ofCells leadInCells).dependencies.order =
      .error [⟨0, 0⟩, ⟨1, 0⟩, ⟨1, 0⟩] := by
    decide +kernel
  obtain ⟨path, hpath, hcircle⟩ := hall _ (isCyclic_of_error horder)
  cases horder.symm.trans hpath
  exact absurd hcircle.head?_eq_getLast? (by decide)

end DependencyGraph

end SheetCipher
