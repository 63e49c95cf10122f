import Mathlib.Data.List.Nodup
import SheetCipher.Sheet.Grid

/-!
# Grid — finding what was put

A map made of a list holds the last entry of each address. Where a list has at
most one value for each address, that is any entry of the list.
-/

namespace SheetCipher

namespace CellRef

theorem getElem?_insert {α : Type} (map : Std.TreeMap CellRef α) (ref : CellRef) (a : α)
    (other : CellRef) :
    (map.insert ref a)[other]? = if ref = other then some a else map[other]? := by
  rw [Std.TreeMap.getElem?_insert]
  simp only [Std.compare_eq_iff_eq]

/-- **The last entry of an address counts.** -/
theorem getElem?_ofList {α : Type} (entries : List (CellRef × α)) (ref : CellRef) :
    (Std.TreeMap.ofList entries)[ref]? = entries.reverse.lookup ref := by
  suffices h : ∀ entries : List (CellRef × α),
      (Std.TreeMap.ofList entries.reverse)[ref]? = entries.lookup ref by
    rw [← h, List.reverse_reverse]
  intro entries
  induction entries with
  | nil => rfl
  | cons entry entries ih =>
      rw [List.reverse_cons, Std.TreeMap.ofList_eq_insertMany_empty,
        Std.TreeMap.insertMany_append, Std.TreeMap.insertMany_list_singleton,
        ← Std.TreeMap.ofList_eq_insertMany_empty, getElem?_insert, ih, List.lookup_cons]
      by_cases heq : ref = entry.1
      · simp [heq]
      · rw [if_neg (Ne.symm heq), beq_false_of_ne heq]

theorem mem_of_getElem?_ofList {α : Type} {entries : List (CellRef × α)} {ref : CellRef} {a : α}
    (h : (Std.TreeMap.ofList entries)[ref]? = some a) : (ref, a) ∈ entries := by
  rw [getElem?_ofList, List.lookup_eq_some_iff] at h
  obtain ⟨before, after, heq, _⟩ := h
  rw [← List.mem_reverse, heq]
  simp

theorem getElem?_ofList_of_unique {α : Type} {entries : List (CellRef × α)} {ref : CellRef} {a : α}
    (hmem : (ref, a) ∈ entries) (hunique : ∀ b, (ref, b) ∈ entries → b = a) :
    (Std.TreeMap.ofList entries)[ref]? = some a := by
  cases hget : (Std.TreeMap.ofList entries)[ref]? with
  | some b => rw [hunique b (mem_of_getElem?_ofList hget)]
  | none =>
      rw [getElem?_ofList, List.lookup_eq_none_iff] at hget
      have hne := hget (ref, a) (List.mem_reverse.2 hmem)
      simp at hne

end CellRef

namespace Grid

variable {cells : List (CellRef × Cell)}

/-- Where no address comes twice, every cell of the list is put. -/
theorem getElem?_ofCells_iff (h : (cells.map Prod.fst).Nodup) {ref : CellRef} {cell : Cell} :
    (ofCells cells)[ref]? = some cell ↔ (ref, cell) ∈ cells := by
  refine ⟨CellRef.mem_of_getElem?_ofList, fun hmem => ?_⟩
  refine CellRef.getElem?_ofList_of_unique hmem fun cell' hmem' => ?_
  have heq := List.inj_on_of_nodup_map h hmem' hmem rfl
  exact (Prod.mk.inj heq).2

theorem size_ofCells (h : (cells.map Prod.fst).Nodup) : (ofCells cells).size = cells.length := by
  refine Std.TreeMap.size_ofList ((List.pairwise_map.1 h).imp fun hne heq => hne ?_)
  exact Std.compare_eq_iff_eq.1 heq

end Grid

end SheetCipher
