import Mathlib.Data.List.Chain
import Mathlib.Data.List.Nodup
import Mathlib.Data.List.Perm.Subperm
import Mathlib.Logic.Relation
import SheetCipher.Eval.Order

/-!
# Order — what the search for an order finds

The search places every cell of a graph behind all cells that it depends on,
or reports a walk that comes back to itself. `Walk.Sound` is the invariant that
carries this: it holds between any two steps of the search, whatever cells are
being searched at that moment, and `visit_places` says what one visit adds to
it. The bound on the depth never shows: `visit_steps` says that all larger
bounds give the same search.
-/

namespace SheetCipher

namespace DependencyGraph

/-! ## Vocabulary -/

/-- A cell of the graph depends on another cell of the graph, directly or as
one of a column. -/
def DependsOn (graph : DependencyGraph) (a b : CellRef) : Prop :=
  b ∈ graph ∧ ∃ dependencies, graph[a]? = some dependencies ∧
    ∃ dependency ∈ dependencies, b ∈ dependency.refs

/-- An order of all cells of the graph, each strictly behind those that it
depends on. -/
structure IsSchedule (graph : DependencyGraph) (order : List CellRef) : Prop where
  nodup : order.Nodup
  mem_iff : ∀ ref, ref ∈ order ↔ ref ∈ graph
  before : ∀ done ref rest, order = done ++ ref :: rest →
    ∀ other, graph.DependsOn ref other → other ∈ done

/-- Some cells of the graph, each strictly behind those that it depends on. -/
structure IsSettled (graph : DependencyGraph) (order : List CellRef) : Prop where
  nodup : order.Nodup
  before : ∀ done ref rest, order = done ++ ref :: rest →
    ∀ other, graph.DependsOn ref other → other ∈ done

theorem IsSchedule.isSettled {graph : DependencyGraph} {order : List CellRef}
    (h : graph.IsSchedule order) : graph.IsSettled order :=
  ⟨h.nodup, h.before⟩

/-- A walk from dependency to dependency whose last cell is one of those
before it. -/
structure IsLasso (graph : DependencyGraph) (path : List CellRef) : Prop where
  walk : path.IsChain graph.DependsOn
  closes : ∃ lead last, path = lead ++ [last] ∧ last ∈ lead

/-- Some cell depends on itself, directly or through others. -/
def IsCyclic (graph : DependencyGraph) : Prop :=
  ∃ ref, Relation.TransGen graph.DependsOn ref ref

theorem DependsOn.mem_left {graph : DependencyGraph} {a b : CellRef}
    (h : graph.DependsOn a b) : a ∈ graph := by
  obtain ⟨_, dependencies, hget, _⟩ := h
  exact Std.TreeMap.mem_iff_isSome_getElem?.2 (by rw [hget]; rfl)

/-! ## Bounds on the depth -/

/-- Cells of the graph, none of them twice: what is being searched at once. -/
structure IsTrail (graph : DependencyGraph) (path : List CellRef) : Prop where
  nodup : path.Nodup
  mem : ∀ ref ∈ path, ref ∈ graph

theorem IsTrail.nil (graph : DependencyGraph) : graph.IsTrail [] :=
  ⟨List.nodup_nil, by simp⟩

theorem IsTrail.cons {graph : DependencyGraph} {path : List CellRef} (h : graph.IsTrail path)
    {ref : CellRef} (hnot : ref ∉ path) (hmem : ref ∈ graph) : graph.IsTrail (ref :: path) :=
  ⟨List.nodup_cons.2 ⟨hnot, h.nodup⟩, by simpa [hmem] using h.mem⟩

/-- A trail is no longer than the graph. -/
theorem IsTrail.length_le {graph : DependencyGraph} {path : List CellRef}
    (h : graph.IsTrail path) : path.length ≤ graph.size := by
  have hsub : path ⊆ graph.keys := fun ref href => Std.TreeMap.mem_keys.2 (h.mem ref href)
  have hle := (h.nodup.subperm hsub).length_le
  rwa [Std.TreeMap.length_keys] at hle

theorem mem_of_getElem? {graph : DependencyGraph} {ref : CellRef}
    {dependencies : List Dependency} (h : graph[ref]? = some dependencies) : ref ∈ graph :=
  Std.TreeMap.mem_iff_isSome_getElem?.2 (by rw [h]; rfl)

/-- A bound that leaves room for the whole graph is as good as any other. -/
theorem visit_steps {graph : DependencyGraph} {steps steps' : Nat} {path : List CellRef}
    (ht : graph.IsTrail path) (h : graph.size < steps + path.length)
    (h' : graph.size < steps' + path.length) (w : Walk) (ref : CellRef) :
    visit graph steps path w ref = visit graph steps' path w ref := by
  induction steps generalizing steps' path w ref with
  | zero =>
      -- there is always room left: a trail is no longer than the graph
      have := ht.length_le
      omega
  | succ steps ih =>
      cases steps' with
      | zero =>
          have := ht.length_le
          omega
      | succ steps' =>
          rw [visit, visit]
          split
          · rfl
          · cases hget : graph[ref]? with
            | none => rfl
            | some dependencies =>
                by_cases hpath : ref ∈ path
                · simp only [if_pos hpath]
                · have hgo : visit graph steps (ref :: path) =
                      visit graph steps' (ref :: path) := by
                    funext w target
                    exact ih (ht.cons hpath (mem_of_getElem? hget))
                      (by simp only [List.length_cons]; omega)
                      (by simp only [List.length_cons]; omega) w target
                  simp only [if_neg hpath, hgo]

/-! ## The invariant -/

/-- What holds of a walk while `path` is being searched: the placed cells are
those of the order, each behind what it depends on, a closed column is placed
as a whole, and nothing that is still being searched is placed. -/
structure Sound (graph : DependencyGraph) (path : List CellRef) (w : Walk) : Prop where
  placed : ∀ ref, ref ∈ w.placed ↔ ref ∈ w.order
  nodup : w.order.Nodup
  mem : ∀ ref ∈ w.order, ref ∈ graph
  after : ∀ later ref earlier, w.order = later ++ ref :: earlier →
    ∀ other, graph.DependsOn ref other → other ∈ earlier
  columns : ∀ col rows, (col, rows) ∈ w.columns →
    ∀ ref ∈ (Dependency.column col rows).refs, ref ∈ graph → ref ∈ w.order
  searched : ∀ ref ∈ path, ref ∉ w.order

theorem Sound.empty (graph : DependencyGraph) : graph.Sound [] {} where
  placed := by simp
  nodup := List.nodup_nil
  mem := by simp
  after := by simp
  columns := by simp
  searched := by simp

/-- A cell that is not placed may be searched next. -/
theorem Sound.enter {graph : DependencyGraph} {path : List CellRef} {w : Walk}
    (h : graph.Sound path w) {ref : CellRef} (hnot : ref ∉ w.order) :
    graph.Sound (ref :: path) w :=
  { h with searched := by simpa [hnot] using h.searched }

/-- A cell is placed behind all that it depends on. -/
theorem Sound.place {graph : DependencyGraph} {path : List CellRef} {w : Walk} {ref : CellRef}
    (h : graph.Sound (ref :: path) w) (hmem : ref ∈ graph) (hpath : ref ∉ path)
    (hdone : ∀ other, graph.DependsOn ref other → other ∈ w.order) :
    graph.Sound path (w.place ref) where
  placed := fun other => by
    simp only [Walk.place, Std.TreeSet.mem_insert, List.mem_cons, h.placed other,
      Std.LawfulEqCmp.compare_eq_iff_eq, @eq_comm _ ref other]
  nodup := List.nodup_cons.2 ⟨h.searched ref (by simp), h.nodup⟩
  mem := by simpa [Walk.place, hmem] using h.mem
  after := by
    intro later other earlier heq
    -- `other` is the cell that has just been placed, or one before it
    rcases List.cons_eq_append_iff.1 heq with ⟨_, heq⟩ | ⟨later, _, heq⟩
    · cases heq
      exact hdone
    · exact h.after later other earlier heq
  columns := fun col rows hcol target htarget hgraph =>
    List.mem_cons_of_mem _ (h.columns col rows hcol target htarget hgraph)
  searched := by
    intro other hother hmem'
    rcases List.mem_cons.1 hmem' with rfl | hmem'
    · exact hpath hother
    · exact h.searched other (List.mem_cons_of_mem _ hother) hmem'

/-- A column is closed when all of it is placed. -/
theorem Sound.closeColumn {graph : DependencyGraph} {path : List CellRef} {w : Walk}
    (h : graph.Sound path w) {col : Nat} {rows : RowRange}
    (hdone : ∀ ref ∈ (Dependency.column col rows).refs, ref ∈ graph → ref ∈ w.order) :
    graph.Sound path (w.closeColumn col rows) :=
  { h with
    columns := by
      intro col' rows' hmem
      rcases List.mem_cons.1 hmem with heq | hmem
      · cases heq
        exact hdone
      · exact h.columns col' rows' hmem }

/-! ## What a search adds -/

/-- What a search of `targets` from `w` comes to: a sound walk that goes on
from `w` and has all targets placed, or a report. -/
def Places (graph : DependencyGraph) (path : List CellRef) (w : Walk) (targets : List CellRef) :
    Except (List CellRef) Walk → Prop
  | .ok w' => graph.Sound path w' ∧ w.order ⊆ w'.order ∧
      ∀ target ∈ targets, target ∈ graph → target ∈ w'.order
  | .error report => graph.IsLasso report

theorem Places.refl {graph : DependencyGraph} {path : List CellRef} {w : Walk}
    (h : graph.Sound path w) {targets : List CellRef}
    (hdone : ∀ target ∈ targets, target ∈ graph → target ∈ w.order) :
    graph.Places path w targets (.ok w) :=
  ⟨h, List.Subset.refl _, hdone⟩

/-- One search behind another. -/
theorem Places.bind {graph : DependencyGraph} {path : List CellRef} {w : Walk}
    {targets targets' : List CellRef} {first : Except (List CellRef) Walk}
    {next : Walk → Except (List CellRef) Walk} (h : graph.Places path w targets first)
    (hnext : ∀ w', graph.Sound path w' → graph.Places path w' targets' (next w')) :
    graph.Places path w (targets ++ targets') (first >>= next) := by
  cases first with
  | error report => exact h
  | ok w' =>
      obtain ⟨hsound, hsub, hdone⟩ := h
      have hlater := hnext w' hsound
      change graph.Places path w (targets ++ targets') (next w')
      cases hrun : next w' with
      | error report =>
          rw [hrun] at hlater
          exact hlater
      | ok w'' =>
          rw [hrun] at hlater
          obtain ⟨hsound', hsub', hdone'⟩ := hlater
          refine ⟨hsound', List.Subset.trans hsub hsub', ?_⟩
          intro target htarget hgraph
          rcases List.mem_append.1 htarget with htarget | htarget
          · exact hsub' (hdone target htarget hgraph)
          · exact hdone' target htarget hgraph

/-- Searches one behind another, for each member of a list. -/
theorem foldlM_places {graph : DependencyGraph} {path : List CellRef} {α : Type}
    (search : Walk → α → Except (List CellRef) Walk) (targets : α → List CellRef) (l : List α)
    (h : ∀ a ∈ l, ∀ w, graph.Sound path w → graph.Places path w (targets a) (search w a))
    {w : Walk} (hw : graph.Sound path w) :
    graph.Places path w (l.flatMap targets) (l.foldlM search w) := by
  induction l generalizing w with
  | nil => exact Places.refl hw (by simp)
  | cons a l ih =>
      rw [List.foldlM_cons, List.flatMap_cons]
      exact (h a (by simp) w hw).bind fun w' hw' =>
        ih (fun b hb => h b (List.mem_cons_of_mem _ hb)) hw'

/-- Following a dependency places all that it stands for. -/
theorem follow_places {graph : DependencyGraph} {path : List CellRef}
    {go : Walk → CellRef → Except (List CellRef) Walk} {dependency : Dependency}
    (hgo : ∀ target ∈ dependency.refs, ∀ w, graph.Sound path w →
      graph.Places path w [target] (go w target))
    {w : Walk} (hw : graph.Sound path w) :
    graph.Places path w dependency.refs (follow go w dependency) := by
  cases dependency with
  | cell target => exact hgo target (by simp [Dependency.refs]) w hw
  | column col rows =>
      rw [follow]
      split
      · -- a closed column has been placed before
        rename_i hcol
        exact Places.refl hw (hw.columns col rows hcol)
      · have hrows := foldlM_places (fun w row => go w ⟨col, row⟩) (fun row => [⟨col, row⟩])
          rows.rows (fun row hrow w hw => hgo ⟨col, row⟩ (List.mem_map_of_mem hrow) w hw) hw
        have hrefs : rows.rows.flatMap (fun row => [(⟨col, row⟩ : CellRef)]) =
            (Dependency.column col rows).refs := by
          rw [Dependency.refs, List.map_eq_flatMap]
        rw [hrefs] at hrows
        cases hrun : rows.rows.foldlM (fun w row => go w ⟨col, row⟩) w with
        | error report =>
            rw [hrun] at hrows
            exact hrows
        | ok w' =>
            rw [hrun] at hrows
            obtain ⟨hsound, hsub, hdone⟩ := hrows
            exact ⟨hsound.closeColumn hdone, hsub, hdone⟩

/-- Coming back to the way closes a circle. -/
theorem isLasso_of_mem {graph : DependencyGraph} {path : List CellRef} {ref : CellRef}
    (hwalk : (ref :: path).IsChain fun a b => graph.DependsOn b a) (hpath : ref ∈ path) :
    graph.IsLasso (path.reverse ++ [ref]) := by
  refine ⟨?_, path.reverse, ref, rfl, List.mem_reverse.2 hpath⟩
  -- the way is kept with its end in front, a report is not
  rw [← List.reverse_cons, List.isChain_reverse]
  exact hwalk

/-- When all that a cell depends on has been searched, the cell is placed. -/
theorem Places.place {graph : DependencyGraph} {path : List CellRef} {w : Walk} {ref : CellRef}
    {dependencies : List Dependency} {first : Except (List CellRef) Walk}
    (hget : graph[ref]? = some dependencies) (hpath : ref ∉ path)
    (h : graph.Places (ref :: path) w (dependencies.flatMap Dependency.refs) first) :
    graph.Places path w [ref] (do return (← first).place ref) := by
  cases first with
  | error report => exact h
  | ok w' =>
      obtain ⟨hsound, hsub, hdone⟩ := h
      refine ⟨hsound.place (mem_of_getElem? hget) hpath ?_, ?_, by simp [Walk.place]⟩
      · rintro other ⟨hgraph, dependencies', hget', dependency, hdep, htarget⟩
        rw [hget] at hget'
        cases hget'
        exact hdone other (List.mem_flatMap.2 ⟨dependency, hdep, htarget⟩) hgraph
      · exact List.Subset.trans hsub (List.subset_cons_self _ _)

/-- **One visit.** With room for the whole graph, a visit of a cell that the
last one on the way depends on places it, or comes back to the way. -/
theorem visit_places {graph : DependencyGraph} {steps : Nat} {path : List CellRef}
    (ht : graph.IsTrail path) (hroom : graph.size < steps + path.length) {ref : CellRef}
    (hwalk : ref ∈ graph → (ref :: path).IsChain fun a b => graph.DependsOn b a)
    {w : Walk} (hw : graph.Sound path w) :
    graph.Places path w [ref] (visit graph steps path w ref) := by
  induction steps generalizing path ref w with
  | zero =>
      have := ht.length_le
      omega
  | succ steps ih =>
      rw [visit]
      split
      · rename_i hplaced
        have hplaced : ref ∈ w.order := (hw.placed ref).1 hplaced
        exact Places.refl hw (by simpa using fun _ => hplaced)
      · rename_i hplaced
        have hfresh : ref ∉ w.order := fun h => hplaced ((hw.placed ref).2 h)
        cases hget : graph[ref]? with
        | none =>
            refine Places.refl hw ?_
            intro target htarget hgraph
            rw [List.mem_singleton.1 htarget, Std.TreeMap.mem_iff_isSome_getElem?, hget] at hgraph
            cases hgraph
        | some dependencies =>
            have hmem : ref ∈ graph := mem_of_getElem? hget
            by_cases hpath : ref ∈ path
            · simp only [if_pos hpath]
              exact isLasso_of_mem (hwalk hmem) hpath
            · simp only [if_neg hpath]
              refine Places.place hget hpath (foldlM_places _ Dependency.refs dependencies ?_
                (hw.enter hfresh))
              -- the cells below are visited with `ref` on the way
              intro dependency hdep w hw
              refine follow_places ?_ hw
              intro target htarget w hw
              refine ih (ht.cons hpath hmem) (by simp only [List.length_cons]; omega) ?_ hw
              intro hgraph
              have hstep : graph.DependsOn ref target :=
                ⟨hgraph, dependencies, hget, dependency, hdep, htarget⟩
              exact List.isChain_cons_cons.2 ⟨hstep, hwalk hmem⟩

/-! ## The whole search -/

/-- The search of all cells in sheet order, with a bound on its depth. -/
def search (graph : DependencyGraph) (steps : Nat) : Except (List CellRef) Walk :=
  graph.keys.foldlM (fun w ref => visit graph steps [] w ref) {}

theorem order_eq_search (graph : DependencyGraph) :
    graph.order = (do let w ← graph.search (graph.size + 1); return w.order.reverse) := rfl

theorem search_steps (graph : DependencyGraph) (extra : Nat) :
    graph.search (graph.size + 1 + extra) = graph.search (graph.size + 1) := by
  have hvisit : visit graph (graph.size + 1 + extra) [] = visit graph (graph.size + 1) [] := by
    funext w ref
    exact visit_steps (IsTrail.nil graph) (by simp only [List.length_nil]; omega)
      (by simp only [List.length_nil]; omega) w ref
  rw [search, search, hvisit]

theorem search_places (graph : DependencyGraph) :
    graph.Places [] {} graph.keys (graph.search (graph.size + 1)) := by
  have hall := foldlM_places (fun w ref => visit graph (graph.size + 1) [] w ref)
    (fun ref => [ref]) graph.keys (fun ref _ w hw => visit_places (IsTrail.nil graph)
      (by simp only [List.length_nil]; omega) (fun _ => List.isChain_singleton _) hw)
    (Sound.empty graph)
  rwa [List.flatMap_singleton'] at hall

/-- The placed cells, first one first, are settled, whatever is being searched. -/
theorem Sound.isSettled {graph : DependencyGraph} {path : List CellRef} {w : Walk}
    (h : graph.Sound path w) : graph.IsSettled w.order.reverse where
  nodup := List.nodup_reverse.2 h.nodup
  before := by
    intro done ref rest heq other hother
    have hsplit : w.order = rest.reverse ++ ref :: done.reverse := by
      rw [← List.reverse_reverse w.order, heq]
      simp
    exact List.mem_reverse.1 (h.after _ ref _ hsplit other hother)

/-- Once all cells are placed they are a schedule. -/
theorem Sound.isSchedule {graph : DependencyGraph} {w : Walk} (h : graph.Sound [] w)
    (hall : ∀ ref ∈ graph, ref ∈ w.order) : graph.IsSchedule w.order.reverse where
  nodup := h.isSettled.nodup
  mem_iff := fun ref => by
    rw [List.mem_reverse]
    exact ⟨h.mem ref, hall ref⟩
  before := h.isSettled.before

theorem order_cases (graph : DependencyGraph) :
    (∃ order, graph.order = .ok order ∧ graph.IsSchedule order) ∨
      ∃ path, graph.order = .error path ∧ graph.IsLasso path := by
  have hplaces := search_places graph
  rw [order_eq_search]
  cases hrun : graph.search (graph.size + 1) with
  | error path =>
      rw [hrun] at hplaces
      exact .inr ⟨path, rfl, hplaces⟩
  | ok w =>
      rw [hrun] at hplaces
      obtain ⟨hsound, _, hdone⟩ := hplaces
      exact .inl ⟨w.order.reverse, rfl, hsound.isSchedule fun ref href =>
        hdone ref (Std.TreeMap.mem_keys.2 href) href⟩

/-! ## Circles -/

/-- All that a settled cell depends on through others comes before it as well. -/
theorem IsSettled.mem_of_transGen {graph : DependencyGraph} {order : List CellRef}
    (h : graph.IsSettled order) {done rest : List CellRef} {ref other : CellRef}
    (heq : order = done ++ ref :: rest) (hother : Relation.TransGen graph.DependsOn ref other) :
    other ∈ done := by
  induction hother with
  | single hdep => exact h.before done ref rest heq _ hdep
  | tail _ hdep ih =>
      obtain ⟨done', rest', rfl⟩ := List.append_of_mem ih
      have hearlier := h.before done' _ (rest' ++ ref :: rest) (by simp [heq]) _ hdep
      exact List.mem_append_left _ hearlier

/-- No settled cell depends on itself. -/
theorem IsSettled.not_transGen_self {graph : DependencyGraph} {order : List CellRef}
    (h : graph.IsSettled order) {ref : CellRef} (hmem : ref ∈ order) :
    ¬ Relation.TransGen graph.DependsOn ref ref := by
  intro hcircle
  obtain ⟨done, rest, heq⟩ := List.append_of_mem hmem
  have hdone : ref ∈ done := h.mem_of_transGen heq hcircle
  have hnodup := h.nodup
  rw [heq, List.nodup_append] at hnodup
  exact hnodup.2.2 ref hdone ref (by simp) rfl

/-- A cell that depends on all others, directly or through others, comes last. -/
theorem IsSchedule.getLast?_eq {graph : DependencyGraph} {order : List CellRef}
    (h : graph.IsSchedule order) {ref : CellRef} (hmem : ref ∈ graph)
    (hall : ∀ other ∈ graph, other ≠ ref → Relation.TransGen graph.DependsOn ref other) :
    order.getLast? = some ref := by
  obtain ⟨done, rest, heq⟩ := List.append_of_mem ((h.mem_iff ref).2 hmem)
  -- what comes behind the cell would have to come before it as well
  have hrest : rest = [] := by
    refine List.eq_nil_iff_forall_not_mem.2 fun other hother => ?_
    have hnodup := h.nodup
    rw [heq, List.nodup_append, List.nodup_cons] at hnodup
    obtain ⟨_, ⟨hfresh, _⟩, hdisjoint⟩ := hnodup
    have hgraph : other ∈ graph := (h.mem_iff other).1 (by simp [heq, hother])
    have hne : other ≠ ref := fun heq => hfresh (heq ▸ hother)
    have hdone := h.isSettled.mem_of_transGen heq (hall other hgraph hne)
    exact hdisjoint other hdone other (List.mem_cons_of_mem _ hother) rfl
  rw [heq, hrest, List.getLast?_concat]

theorem IsSchedule.not_isCyclic {graph : DependencyGraph} {order : List CellRef}
    (h : graph.IsSchedule order) : ¬ graph.IsCyclic := by
  rintro ⟨ref, hcircle⟩
  have hgraph : ref ∈ graph := by
    obtain ⟨_, hdep, _⟩ := Relation.TransGen.head'_iff.1 hcircle
    exact hdep.mem_left
  exact h.isSettled.not_transGen_self ((h.mem_iff ref).2 hgraph) hcircle

/-- Between the two visits of its last cell a lasso is a circle. -/
theorem IsLasso.isCyclic {graph : DependencyGraph} {path : List CellRef}
    (h : graph.IsLasso path) : graph.IsCyclic := by
  obtain ⟨lead, last, rfl, hlast⟩ := h.closes
  obtain ⟨before, between, rfl⟩ := List.append_of_mem hlast
  have hwalk : (before ++ (last :: (between ++ [last]))).IsChain graph.DependsOn := by
    simpa using h.walk
  have hcircle : (last :: (between ++ [last])).IsChain (Relation.TransGen graph.DependsOn) :=
    (List.isChain_append.1 hwalk).2.1.imp fun _ _ => Relation.TransGen.single
  have hfirst := (List.pairwise_cons.1 (List.isChain_iff_pairwise.1 hcircle)).1
  exact ⟨last, hfirst last (by simp)⟩

/-- A measure that every dependency lowers rules circles out. -/
theorem not_isCyclic_of_measure {graph : DependencyGraph} (measure : CellRef → Nat)
    (h : ∀ a b, graph.DependsOn a b → measure b < measure a) : ¬ graph.IsCyclic := by
  rintro ⟨ref, hcircle⟩
  have hlower : ∀ a b, Relation.TransGen graph.DependsOn a b → measure b < measure a := by
    intro a b hab
    induction hab with
    | single hdep => exact h _ _ hdep
    | tail _ hdep ih => exact Nat.lt_trans (h _ _ hdep) ih
  exact Nat.lt_irrefl _ (hlower ref ref hcircle)

theorem exists_schedule {graph : DependencyGraph} (h : ¬ graph.IsCyclic) :
    ∃ order, graph.order = .ok order ∧ graph.IsSchedule order := by
  rcases order_cases graph with hok | ⟨path, _, hlasso⟩
  · exact hok
  · exact absurd hlasso.isCyclic h

/-- **The search sorts or reports a circle.** There is an order just when no
cell depends on itself; an order is a schedule of the whole graph, a report is
a walk that ends where it has been before, and no larger bound on the depth
changes anything. -/
theorem order_correct (graph : DependencyGraph) :
    ((∃ order, graph.order = .ok order) ↔ ¬ graph.IsCyclic) ∧
      (match graph.order with
        | .ok order => graph.IsSchedule order
        | .error path => graph.IsLasso path) ∧
      ∀ extra, graph.search (graph.size + 1 + extra) = graph.search (graph.size + 1) := by
  refine ⟨⟨?_, fun h => ?_⟩, ?_, search_steps graph⟩
  · rintro ⟨order, horder⟩
    rcases order_cases graph with ⟨_, _, hschedule⟩ | ⟨path, hpath, _⟩
    · exact hschedule.not_isCyclic
    · rw [horder] at hpath
      cases hpath
  · obtain ⟨order, horder, _⟩ := exists_schedule h
    exact ⟨order, horder⟩
  · rcases order_cases graph with ⟨order, horder, hschedule⟩ | ⟨path, hpath, hlasso⟩
    · rw [horder]
      exact hschedule
    · rw [hpath]
      exact hlasso

end DependencyGraph

end SheetCipher
