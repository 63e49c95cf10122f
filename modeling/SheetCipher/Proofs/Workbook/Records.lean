import Mathlib.Data.List.Forall2
import SheetCipher.Workbook.Csv

/-!
# Records — reading comma-separated values

A field is written as it is, or in quotes with each quote inside written twice;
outside of quotes neither commas nor quotes nor line ends are part of a field.
Fields with commas between them are a record, and records that a line feed ends
are a file. The reader goes through a file character by character, and what it
has read at any time is the beginning of a file (`Reading.Follows`), so it
accepts the files and no other text (`read?_eq_some_iff`).
-/

namespace SheetCipher.Csv

/-! ## Files of records -/

/-- Whether a character may stand outside of quotes. -/
def isPlain (c : Char) : Bool := c ≠ ',' && c ≠ '"' && c ≠ '\n' && c ≠ '\r'

/-- Characters that stand for a field. -/
inductive IsField : List Char → List Char → Prop where
  | plain {field : List Char} (h : ∀ c ∈ field, isPlain c = true) : IsField field field
  | quoted (field : List Char) : IsField (Quoted.doubled field) field

/-- Characters that stand for a record, without the line feed that ends it. -/
def IsRecord (written : List Char) (record : List (List Char)) : Prop :=
  ∃ fields, fields ≠ [] ∧ List.Forall₂ IsField fields record ∧
    written = List.intercalate [','] fields

/-- Characters that stand for records. -/
def IsFile (written : List Char) (records : List (List (List Char))) : Prop :=
  ∃ lines, List.Forall₂ IsRecord lines records ∧ written = lines.flatMap fun line => line ++ ['\n']

/-! ## The reader -/

/-- Where in a field a reader is. -/
inductive Place where
  /-- At its start. -/
  | fresh
  /-- Behind a character outside of quotes. -/
  | plain
  | quoted
  /-- Behind a quote that ends the field unless another follows. -/
  | closed
deriving DecidableEq, Repr

/-- What has been read: some records, some fields of the next one, and some
characters of the field behind them. -/
structure Reading where
  place : Place
  field : List Char
  record : List (List Char)
  records : List (List (List Char))
deriving DecidableEq, Repr

namespace Reading

/-- Nothing has been read. -/
def start : Reading := ⟨.fresh, [], [], []⟩

/-- One more character of the field. -/
def push (r : Reading) (place : Place) (c : Char) : Reading :=
  { r with place := place, field := r.field ++ [c] }

def endField (r : Reading) : Reading := ⟨.fresh, [], r.record ++ [r.field], r.records⟩

def endRecord (r : Reading) : Reading := ⟨.fresh, [], [], r.records ++ [r.record ++ [r.field]]⟩

/-- Reads a character that is not in quotes. -/
def stepOutside (r : Reading) (c : Char) : Option Reading :=
  if c = ',' then some r.endField
  else if c = '\n' then some r.endRecord
  else if c = '"' then
    match r.place with
    | .fresh => some { r with place := .quoted }
    | .closed => some (r.push .quoted c)
    | _ => none
  else if c = '\r' ∨ r.place = .closed then none
  else some (r.push .plain c)

/-- Reads a character. -/
def step (r : Reading) (c : Char) : Option Reading :=
  if r.place = .quoted then
    if c = '"' then some { r with place := .closed } else some (r.push .quoted c)
  else r.stepOutside c

end Reading

/-- The records of a file, if it is one. -/
def read? (cs : List Char) : Option (List (List (List Char))) := do
  let r ← cs.foldlM Reading.step .start
  if r.place = .fresh ∧ r.record = [] then some r.records else none

/-! ## Files are read -/

namespace Reading

variable {r : Reading}

theorem step_comma (h : r.place ≠ .quoted) : r.step ',' = some r.endField := by
  rw [step, if_neg h, stepOutside, if_pos rfl]

theorem step_lineFeed (h : r.place ≠ .quoted) : r.step '\n' = some r.endRecord := by
  rw [step, if_neg h, stepOutside, if_neg (by decide), if_pos rfl]

theorem step_isPlain (hplace : r.place = .fresh ∨ r.place = .plain) {c : Char}
    (hc : isPlain c = true) : r.step c = some (r.push .plain c) := by
  simp only [isPlain, Bool.and_eq_true, decide_eq_true_eq] at hc
  obtain ⟨⟨⟨hcomma, hquote⟩, hline⟩, hreturn⟩ := hc
  rcases hplace with hplace | hplace <;>
    simp [step, stepOutside, hplace, hcomma, hquote, hline, hreturn]

theorem foldlM_isPlain (hplace : r.place = .fresh ∨ r.place = .plain) {field : List Char}
    (h : ∀ c ∈ field, isPlain c = true) : ∃ place, place ≠ .quoted ∧
      field.foldlM step r = some { r with place := place, field := r.field ++ field } := by
  induction field generalizing r with
  | nil =>
      refine ⟨r.place, ?_, by simp⟩
      rcases hplace with hplace | hplace <;> simp [hplace]
  | cons c field ih =>
      obtain ⟨hc, hfield⟩ := List.forall_mem_cons.1 h
      obtain ⟨place, hquoted, hfold⟩ := ih (r := r.push .plain c) (.inr rfl) hfield
      refine ⟨place, hquoted, ?_⟩
      rw [List.foldlM_cons, step_isPlain hplace hc]
      simpa [push] using hfold

theorem foldlM_doubledChar (hplace : r.place = .quoted) (field : List Char) :
    (field.flatMap Quoted.doubledChar).foldlM step r =
      some { r with field := r.field ++ field } := by
  induction field generalizing r with
  | nil => simp
  | cons c field ih =>
      have hc : (Quoted.doubledChar c).foldlM step r = some (r.push .quoted c) := by
        by_cases hquote : c = '"'
        · simp [Quoted.doubledChar, hquote, step, hplace, stepOutside, push]
        · simp [Quoted.doubledChar, hquote, step, hplace]
      rw [List.flatMap_cons, List.foldlM_append, hc]
      show (field.flatMap Quoted.doubledChar).foldlM step (r.push .quoted c) = _
      rw [ih rfl]
      simp [push, hplace]

theorem foldlM_isField {written field : List Char} (h : IsField written field)
    (record : List (List Char)) (records : List (List (List Char))) :
    ∃ place, place ≠ .quoted ∧
      written.foldlM step ⟨.fresh, [], record, records⟩ = some ⟨place, field, record, records⟩ := by
  cases h with
  | plain h => exact foldlM_isPlain (.inl rfl) h
  | quoted =>
      refine ⟨.closed, by decide, ?_⟩
      have hopen : step ⟨.fresh, [], record, records⟩ '"' =
          some ⟨.quoted, [], record, records⟩ := rfl
      rw [Quoted.doubled, List.cons_append, List.foldlM_cons, hopen]
      show List.foldlM step (⟨.quoted, [], record, records⟩ : Reading) _ = _
      rw [List.foldlM_append, foldlM_doubledChar rfl]
      rfl

theorem foldlM_isRecord {line : List Char} {record : List (List Char)} (h : IsRecord line record)
    (records : List (List (List Char))) :
    (line ++ ['\n']).foldlM step ⟨.fresh, [], [], records⟩ =
      some ⟨.fresh, [], [], records ++ [record]⟩ := by
  obtain ⟨fields, hne, hfields, rfl⟩ := h
  suffices h : ∀ before, (List.intercalate [','] fields ++ ['\n']).foldlM step
      ⟨.fresh, [], before, records⟩ = some ⟨.fresh, [], [], records ++ [before ++ record]⟩ from
    h []
  induction hfields with
  | nil => exact absurd rfl hne
  | @cons written field fields record hfield hfields ih =>
      intro before
      obtain ⟨place, hplace, hfold⟩ := foldlM_isField hfield before records
      let behind : Reading := ⟨place, field, before, records⟩
      have hbehind : behind.place ≠ .quoted := hplace
      cases hfields with
      | nil =>
          rw [List.intercalate_singleton, List.foldlM_append, hfold]
          show List.foldlM step behind ['\n'] = _
          simp [step_lineFeed hbehind, endRecord, behind]
      | cons hnext hlater =>
          rw [List.intercalate_cons_cons, List.append_assoc, List.append_assoc,
            List.foldlM_append, hfold]
          show List.foldlM step behind (',' :: _) = _
          rw [List.foldlM_cons, step_comma hbehind]
          simpa [endField, behind] using ih (by simp) (before ++ [field])

theorem foldlM_isFile {written : List Char} {records : List (List (List Char))}
    (h : IsFile written records) :
    written.foldlM step .start = some ⟨.fresh, [], [], records⟩ := by
  obtain ⟨lines, hlines, rfl⟩ := h
  suffices h : ∀ before, (lines.flatMap fun line => line ++ ['\n']).foldlM step
      ⟨.fresh, [], [], before⟩ = some ⟨.fresh, [], [], before ++ records⟩ from h []
  induction hlines with
  | nil => simp
  | cons hline hlines ih =>
      intro before
      rw [List.flatMap_cons, List.foldlM_append, foldlM_isRecord hline, Option.bind_eq_bind,
        Option.bind_some, ih, List.append_assoc]
      rfl

end Reading

/-! ## What is read is a file -/

/-- Characters that a field, read up to a place, begins with. -/
def Place.Begins (written field : List Char) : Place → Prop
  | .fresh => written = [] ∧ field = []
  | .plain => written = field ∧ ∀ c ∈ field, isPlain c = true
  | .quoted => written = '"' :: field.flatMap Quoted.doubledChar
  | .closed => written = Quoted.doubled field

theorem Place.Begins.isField {written field : List Char} {place : Place}
    (h : place.Begins written field) (hplace : place ≠ .quoted) : IsField written field := by
  cases place with
  | fresh =>
      obtain ⟨rfl, rfl⟩ := h
      exact .plain (by simp)
  | plain =>
      obtain ⟨rfl, hall⟩ := h
      exact .plain hall
  | quoted => exact absurd rfl hplace
  | closed => exact h ▸ .quoted field

namespace Place.Begins

variable {written field : List Char}

theorem openQuote (h : Place.fresh.Begins written field) :
    Place.quoted.Begins (written ++ ['"']) field := by
  obtain ⟨rfl, rfl⟩ := h
  rfl

theorem closeQuote (h : Place.quoted.Begins written field) :
    Place.closed.Begins (written ++ ['"']) field := by
  rw [show written = _ from h]
  rfl

theorem doubleQuote (h : Place.closed.Begins written field) :
    Place.quoted.Begins (written ++ ['"']) (field ++ ['"']) := by
  rw [show written = _ from h]
  simp [Place.Begins, Quoted.doubled, Quoted.doubledChar]

theorem pushQuoted (h : Place.quoted.Begins written field) {c : Char} (hc : c ≠ '"') :
    Place.quoted.Begins (written ++ [c]) (field ++ [c]) := by
  rw [show written = _ from h]
  simp [Place.Begins, Quoted.doubledChar, hc]

theorem pushPlain {place : Place} (h : place.Begins written field)
    (hplace : place ≠ .quoted ∧ place ≠ .closed) {c : Char} (hc : isPlain c = true) :
    Place.plain.Begins (written ++ [c]) (field ++ [c]) := by
  cases place with
  | fresh =>
      obtain ⟨rfl, rfl⟩ := h
      exact ⟨rfl, List.forall_mem_singleton.2 hc⟩
  | plain =>
      obtain ⟨rfl, hall⟩ := h
      exact ⟨rfl, List.forall_mem_append.2 ⟨hall, List.forall_mem_singleton.2 hc⟩⟩
  | quoted => exact absurd rfl hplace.1
  | closed => exact absurd rfl hplace.2

end Place.Begins

namespace Reading

/-- Characters that have been read. -/
def Follows (r : Reading) (cs : List Char) : Prop :=
  ∃ lines fields written, List.Forall₂ IsRecord lines r.records ∧
    List.Forall₂ IsField fields r.record ∧ r.place.Begins written r.field ∧
    cs = (lines.flatMap fun line => line ++ ['\n']) ++
      (fields.flatMap fun field => field ++ [',']) ++ written

theorem intercalate_concat (fields : List (List Char)) (field : List Char) :
    List.intercalate [','] (fields ++ [field]) =
      (fields.flatMap fun field => field ++ [',']) ++ field := by
  induction fields with
  | nil => simp
  | cons first fields ih =>
      cases fields with
      | nil => simp
      | cons second fields =>
          rw [List.flatMap_cons, List.append_assoc, ← ih]
          simp

/-- A field that goes on. -/
theorem Follows.within {r : Reading} {cs field : List Char} {place : Place} {c : Char}
    (h : r.Follows cs)
    (hfield : ∀ written, r.place.Begins written r.field → place.Begins (written ++ [c]) field) :
    ({ r with place := place, field := field } : Reading).Follows (cs ++ [c]) := by
  obtain ⟨lines, fields, written, hlines, hfields, hbegins, rfl⟩ := h
  exact ⟨lines, fields, written ++ [c], hlines, hfields, hfield written hbegins, by simp⟩

theorem Follows.endField {r : Reading} {cs : List Char} (h : r.Follows cs)
    (hplace : r.place ≠ .quoted) : r.endField.Follows (cs ++ [',']) := by
  obtain ⟨lines, fields, written, hlines, hfields, hbegins, rfl⟩ := h
  exact ⟨lines, fields ++ [written], [], hlines,
    List.rel_append hfields (.cons (hbegins.isField hplace) .nil), ⟨rfl, rfl⟩, by simp⟩

theorem Follows.endRecord {r : Reading} {cs : List Char} (h : r.Follows cs)
    (hplace : r.place ≠ .quoted) : r.endRecord.Follows (cs ++ ['\n']) := by
  obtain ⟨lines, fields, written, hlines, hfields, hbegins, rfl⟩ := h
  have hline : IsRecord (List.intercalate [','] (fields ++ [written])) (r.record ++ [r.field]) :=
    ⟨fields ++ [written], by simp,
      List.rel_append hfields (.cons (hbegins.isField hplace) .nil), rfl⟩
  exact ⟨lines ++ [List.intercalate [','] (fields ++ [written])], [], [],
    List.rel_append hlines (.cons hline .nil), .nil, ⟨rfl, rfl⟩, by simp [intercalate_concat]⟩

theorem Follows.stepOutside {r next : Reading} {cs : List Char} {c : Char} (h : r.Follows cs)
    (hplace : r.place ≠ .quoted) (hstep : r.stepOutside c = some next) :
    next.Follows (cs ++ [c]) := by
  rw [Reading.stepOutside] at hstep
  by_cases hcomma : c = ','
  · rw [if_pos hcomma] at hstep
    cases hstep
    exact hcomma ▸ h.endField hplace
  rw [if_neg hcomma] at hstep
  by_cases hline : c = '\n'
  · rw [if_pos hline] at hstep
    cases hstep
    exact hline ▸ h.endRecord hplace
  rw [if_neg hline] at hstep
  by_cases hquote : c = '"'
  · rw [if_pos hquote] at hstep
    -- a quote starts a field, or it is the second one of two
    subst hquote
    cases hat : r.place with
    | fresh =>
        rw [hat] at hstep
        cases hstep
        exact h.within fun written hbegins => (hat ▸ hbegins).openQuote
    | closed =>
        rw [hat] at hstep
        cases hstep
        exact h.within fun written hbegins => (hat ▸ hbegins).doubleQuote
    | plain | quoted =>
        rw [hat] at hstep
        cases hstep
  rw [if_neg hquote] at hstep
  by_cases hend : c = '\r' ∨ r.place = .closed
  · rw [if_pos hend] at hstep
    cases hstep
  rw [if_neg hend] at hstep
  cases hstep
  obtain ⟨hreturn, hclosed⟩ := not_or.1 hend
  have hc : isPlain c = true := by simp [isPlain, hcomma, hline, hquote, hreturn]
  exact h.within fun written hbegins => hbegins.pushPlain ⟨hplace, hclosed⟩ hc

/-- **One character more.** -/
theorem Follows.step {r next : Reading} {cs : List Char} {c : Char} (h : r.Follows cs)
    (hstep : r.step c = some next) : next.Follows (cs ++ [c]) := by
  by_cases hplace : r.place = .quoted
  · rw [Reading.step, if_pos hplace] at hstep
    by_cases hquote : c = '"'
    · rw [if_pos hquote] at hstep
      cases hstep
      subst hquote
      exact h.within fun written hbegins => (hplace ▸ hbegins).closeQuote
    · rw [if_neg hquote] at hstep
      cases hstep
      exact h.within fun written hbegins => (hplace ▸ hbegins).pushQuoted hquote
  · rw [Reading.step, if_neg hplace] at hstep
    exact h.stepOutside hplace hstep

theorem Follows.foldlM {r last : Reading} {before cs : List Char} (h : r.Follows before)
    (hfold : cs.foldlM Reading.step r = some last) : last.Follows (before ++ cs) := by
  induction cs generalizing r before with
  | nil =>
      cases hfold
      simpa using h
  | cons c cs ih =>
      rw [List.foldlM_cons] at hfold
      obtain ⟨next, hstep, hrest⟩ := Option.bind_eq_some_iff.1 hfold
      simpa using ih (h.step hstep) hrest

end Reading

/-- **The reader reads files and nothing else**, so no text stands for two
lists of records. -/
theorem read?_eq_some_iff {cs : List Char} {records : List (List (List Char))} :
    read? cs = some records ↔ IsFile cs records := by
  constructor
  · intro h
    obtain ⟨r, hfold, hend⟩ := Option.bind_eq_some_iff.1 h
    obtain ⟨⟨hplace, hrecord⟩, heq⟩ := Option.ite_none_right_eq_some.1 hend
    cases heq
    have hstart : Reading.start.Follows [] := ⟨[], [], [], .nil, .nil, ⟨rfl, rfl⟩, rfl⟩
    obtain ⟨lines, fields, written, hlines, hfields, hbegins, hcs⟩ := hstart.foldlM hfold
    rw [hrecord, List.forall₂_nil_right_iff] at hfields
    rw [hplace] at hbegins
    exact ⟨lines, hlines, by simpa [hfields, hbegins.1] using hcs⟩
  · intro h
    rw [read?, Reading.foldlM_isFile h]
    rfl

end SheetCipher.Csv
