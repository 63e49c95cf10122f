import Mathlib.Data.List.Nodup
import Mathlib.Data.List.ReduceOption
import SheetCipher.Settings.Document

/-!
# Document — the entries of a settings file

A line says nothing, or a key and a number. The entries of all lines are a table
of settings if each of their keys is one of the two that there are, and neither
stands twice. Reading takes the entries one by one, and goes on as long as those
taken so far are a table (`foldlM_enter?_eq_some_iff`); so the texts that can be
read are those whose entries are one (`ofText?_eq_some_iff`).
-/

namespace SheetCipher.SettingsDocument

/-! ## Tables -/

/-- What a line says: nothing, or a key and a number. Other lines cannot be
read. -/
def reading? (line : List Char) : Option (Option (List Char × Nat)) :=
  if isLineEnd line then some none else ( entry? line).map some

/-- The entries of a text, if all its lines can be read. -/
def entries? (text : String) : Option (List (List Char × Nat)) :=
  ((lines (dropMark text.toList)).mapM reading?).map List.reduceOption

/-- Whether entries are a table of settings. -/
structure IsTable (entries : List (List Char × Nat)) : Prop where
  /-- There are two keys. -/
  keys : ∀ entry ∈ entries, entry.1 = "max_len".toList ∨ entry.1 = "id_length".toList
  /-- No key stands twice. -/
  distinct : (entries.map Prod.fst).Nodup

/-- The document with the settings of a table. -/
def ofEntries (entries : List (List Char × Nat)) : SettingsDocument :=
  { maxLen := entries.lookup "max_len".toList
    idLength := entries.lookup "id_length".toList }

theorem isTable_nil : IsTable [] := ⟨by simp, List.nodup_nil⟩

theorem IsTable.of_append {done rest : List (List Char × Nat)} (h : IsTable (done ++ rest)) :
    IsTable done where
  keys entry hmem := h.keys entry (List.mem_append_left _ hmem)
  distinct := by
    have hdistinct := h.distinct
    rw [List.map_append] at hdistinct
    exact hdistinct.of_append_left

theorem lookup_eq_none_iff_not_mem {entries : List (List Char × Nat)} {key : List Char} :
    entries.lookup key = none ↔ key ∉ entries.map Prod.fst := by
  rw [List.lookup_eq_none_iff, List.mem_map]
  constructor
  · rintro h ⟨entry, hmem, rfl⟩
    simpa using h entry hmem
  · intro h entry hmem
    exact bne_iff_ne.2 fun hkey => h ⟨entry, hmem, hkey.symm⟩

theorem isTable_concat_iff {done : List (List Char × Nat)} {entry : List Char × Nat} :
    IsTable (done ++ [entry]) ↔
      IsTable done ∧ (entry.1 = "max_len".toList ∨ entry.1 = "id_length".toList) ∧
        done.lookup entry.1 = none := by
  rw [lookup_eq_none_iff_not_mem]
  constructor
  · intro h
    have hdistinct := h.distinct
    rw [List.map_append, List.map_singleton, List.nodup_append] at hdistinct
    exact ⟨h.of_append, h.keys entry (by simp), fun hmem =>
      hdistinct.2.2 _ hmem _ (List.mem_singleton_self _) rfl⟩
  · rintro ⟨h, hkey, hfresh⟩
    refine ⟨fun other hmem => ?_, ?_⟩
    · obtain hold | hnew := List.mem_append.1 hmem
      · exact h.keys other hold
      · rw [List.mem_singleton.1 hnew]
        exact hkey
    · rw [List.map_append, List.map_singleton, List.nodup_append]
      refine ⟨h.distinct, List.nodup_singleton _, fun a ha b hb hab => ?_⟩
      rw [List.mem_singleton.1 hb] at hab
      exact hfresh (hab ▸ ha)

/-! ## Reading a table -/

/-- **An entry is taken** if the table stays one. -/
theorem enter?_eq_some_iff {done : List (List Char × Nat)} (h : IsTable done)
    {entry : List Char × Nat} {document : SettingsDocument} :
    (ofEntries done).enter? entry = some document ↔
      IsTable (done ++ [entry]) ∧ ofEntries (done ++ [entry]) = document := by
  have hne : "id_length".toList ≠ "max_len".toList := by decide
  obtain ⟨key, n⟩ := entry
  have hlookup : ∀ other : List Char,
      [(key, n)].lookup other = if other = key then some n else none := by
    intro other
    rw [List.lookup_cons, List.lookup_nil]
    by_cases hkey : other = key
    · rw [beq_iff_eq.2 hkey, if_pos hkey]
    · rw [beq_eq_false_iff_ne.2 hkey, if_neg hkey]
  rw [isTable_concat_iff, enter?, ofEntries, ofEntries, List.lookup_append, List.lookup_append,
    hlookup, hlookup]
  -- which texts the keys are is of no account, as long as they differ
  generalize "max_len".toList = maxLen, "id_length".toList = idLength at hne ⊢
  by_cases hmax : key = maxLen
  · subst hmax
    by_cases hfresh : done.lookup key = none
    · simp [h, hfresh, hne]
    · simp [hfresh, hne.symm]
  · by_cases hid : key = idLength
    · subst hid
      by_cases hfresh : done.lookup key = none
      · simp [h, hfresh, hne, hne.symm]
      · simp [hfresh, hne]
    · simp [hmax, hid]

/-- **Entries are taken** as long as they are a table, one after the other. -/
theorem foldlM_enter?_eq_some_iff {done entries : List (List Char × Nat)} (h : IsTable done)
    {document : SettingsDocument} :
    entries.foldlM enter? (ofEntries done) = some document ↔
      IsTable (done ++ entries) ∧ ofEntries (done ++ entries) = document := by
  induction entries generalizing done with
  | nil => simp [h]
  | cons entry entries ih =>
      rw [List.foldlM_cons, Option.bind_eq_bind, Option.bind_eq_some_iff, List.append_cons]
      constructor
      · rintro ⟨next, hnext, hrest⟩
        obtain ⟨htable, rfl⟩ := (enter?_eq_some_iff h).1 hnext
        exact (ih htable).1 hrest
      · intro hall
        have htable := hall.1.of_append
        exact ⟨_, (enter?_eq_some_iff h).2 ⟨htable, rfl⟩, (ih htable).2 hall⟩

/-- Lines are read one by one, and then their entries. -/
theorem foldlM_readLine? (document : SettingsDocument) (lines : List (List Char)) :
    lines.foldlM readLine? document =
      (lines.mapM reading?).bind fun said => said.reduceOption.foldlM enter? document := by
  induction lines generalizing document with
  | nil => rfl
  | cons line lines ih =>
      rw [List.foldlM_cons, List.mapM_cons, readLine?, reading?]
      split
      · simp [ih, Option.bind_assoc, List.reduceOption_cons_of_none]
      · cases hentry : entry? line with
        | none => rfl
        | some entry =>
            cases hsaid : lines.mapM reading? with
            | none => simp [ih, hsaid]
            | some said => simp [ih, hsaid, List.reduceOption_cons_of_some]

/-- **The texts that can be read** are those whose entries are a table. -/
theorem ofText?_eq_some_iff {text : String} {document : SettingsDocument} :
    ofText? text = some document ↔
      ∃ entries, entries? text = some entries ∧ IsTable entries ∧
        ofEntries entries = document := by
  have hstart : ({} : SettingsDocument) = ofEntries [] := rfl
  rw [ofText?, foldlM_readLine?, hstart, Option.bind_eq_some_iff, entries?]
  simp only [foldlM_enter?_eq_some_iff isTable_nil, List.nil_append, Option.map_eq_some_iff]
  constructor
  · rintro ⟨said, hsaid, htable, hdocument⟩
    exact ⟨_, ⟨said, hsaid, rfl⟩, htable, hdocument⟩
  · rintro ⟨_, ⟨said, hsaid, rfl⟩, htable, hdocument⟩
    exact ⟨said, hsaid, htable, hdocument⟩

end SheetCipher.SettingsDocument
