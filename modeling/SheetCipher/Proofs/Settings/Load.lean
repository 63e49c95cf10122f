import SheetCipher.Proofs.Settings.Document
import SheetCipher.Settings.Load

/-!
# Load — settings in their ranges

Whatever is at the path of a settings file, the settings that come out of it
are usable. The file is missing, or it is refused for one reason, or it holds a
table (`missing_or_isRefused_or_holds`); in each case the warnings say what was
not taken from it, and nothing else.
-/

namespace SheetCipher

/-- The number of bytes at a path. -/
def SettingsFile.size : SettingsFile → Nat
  | .missing => 0
  | .unreadable size _ => size
  | .present bytes => bytes.size

namespace Settings

theorem pick_inRange (key : String) (value? : Option Nat) {least most fallback : Nat}
    (h : least ≤ fallback ∧ fallback ≤ most) :
    least ≤ (pick key value? least most fallback).1 ∧
      (pick key value? least most fallback).1 ≤ most := by
  cases value? with
  | none => exact h
  | some value =>
      rw [pick]
      split
      · assumption
      · exact h

/-- **A file gives a capacity that grids may have**, and a length for ids. -/
theorem load_inRange (path : String) (isExplicit : Bool) (file : SettingsFile) :
    (1 ≤ (load path isExplicit file).1.maxLen ∧
        (load path isExplicit file).1.maxLen ≤ maxCapacity) ∧
      minIdLength ≤ (load path isExplicit file).1.idLength ∧
        (load path isExplicit file).1.idLength ≤ maxIdLength :=
  ⟨pick_inRange _ _ (by decide), pick_inRange _ _ (by decide)⟩

/-! ## What a table comes to -/

/-- How a setting is taken from a table: its key, its range, and what it is when
the table gives no value in the range. -/
structure Rule where
  key : String
  least : Nat
  most : Nat
  fallback : Nat

namespace Rule

def maxLen : Rule := ⟨"max_len", 1, 4096, 250⟩

def idLength : Rule := ⟨"id_length", 4, 64, 8⟩

/-- What a table gives. -/
def given (rule : Rule) (table : List (List Char × Nat)) : Option Nat :=
  table.lookup rule.key.toList

def admits (rule : Rule) (n : Nat) : Bool := rule.least ≤ n && n ≤ rule.most

def value (rule : Rule) (table : List (List Char × Nat)) : Nat :=
  ((rule.given table).filter rule.admits).getD rule.fallback

/-- The warning about a value that is not admitted. -/
def warning? (rule : Rule) (table : List (List Char × Nat)) : Option SettingsWarning :=
  ((rule.given table).filter fun n => !rule.admits n).map fun n =>
    .outOfRange rule.key n rule.least rule.most rule.fallback

theorem pick_eq (rule : Rule) (table : List (List Char × Nat)) :
    pick rule.key (rule.given table) rule.least rule.most rule.fallback =
      (rule.value table, (rule.warning? table).toList) := by
  rw [value, warning?]
  cases rule.given table with
  | none => rfl
  | some n =>
      rw [pick, Option.filter_some, Option.filter_some]
      split
      · rename_i h
        have hadmits : rule.admits n = true := by simpa [admits] using h
        rw [hadmits]
        rfl
      · rename_i h
        have hadmits : rule.admits n = false := by simpa [admits] using h
        rw [hadmits]
        rfl

end Rule

/-- **Each setting is taken on its own**, and the warnings come in the order of
the settings. -/
theorem ofDocument_ofEntries (table : List (List Char × Nat)) :
    ofDocument (.ofEntries table) =
      (⟨Rule.maxLen.value table, Rule.idLength.value table⟩,
        [Rule.maxLen, Rule.idLength].filterMap fun rule => rule.warning? table) := by
  have hmaxLen : pick "max_len" (table.lookup "max_len".toList) 1 maxCapacity
      Cipher.defaultCapacity = _ := Rule.maxLen.pick_eq table
  have hidLength : pick "id_length" (table.lookup "id_length".toList) minIdLength maxIdLength
      TemplateId.defaultLength = _ := Rule.idLength.pick_eq table
  rw [ofDocument, SettingsDocument.ofEntries, hmaxLen, hidLength]
  cases hmax : Rule.maxLen.warning? table <;> cases hid : Rule.idLength.warning? table <;>
    simp [hmax, hid]

/-! ## What a file holds -/

/-- Why nothing is taken from a file. -/
inductive IsRefused (path : String) : SettingsFile → SettingsWarning → Prop where
  | tooLarge {file : SettingsFile} (h : 1048576 < file.size) :
      IsRefused path file (.tooLarge path file.size)
  | unreadable {size : Nat} (h : size ≤ 1048576) (reason : String) :
      IsRefused path (.unreadable size reason) (.unreadable path reason)
  /-- The bytes are the UTF-8 of no text. -/
  | noText {bytes : ByteArray} (h : bytes.size ≤ 1048576)
      (htext : ∀ text : String, text.toUTF8 ≠ bytes) :
      IsRefused path (.present bytes)
        (.unreadable path "stream did not contain valid UTF-8")
  /-- The text is no table of settings. -/
  | noTable {text : String} (h : text.toUTF8.size ≤ 1048576)
      (htable : ∀ table, SettingsDocument.entries? text = some table →
        ¬ SettingsDocument.IsTable table) :
      IsRefused path (.present text.toUTF8) (.invalid path)

/-- The file is the text of a table. -/
inductive Holds : SettingsFile → List (List Char × Nat) → Prop where
  | intro {text : String} {table : List (List Char × Nat)} (h : text.toUTF8.size ≤ 1048576)
      (hentries : SettingsDocument.entries? text = some table)
      (htable : SettingsDocument.IsTable table) : Holds (.present text.toUTF8) table

theorem fromUTF8?_toUTF8 (text : String) : String.fromUTF8? text.toUTF8 = some text :=
  dif_pos text.isValidUTF8

theorem fromUTF8?_eq_none {bytes : ByteArray} (h : ∀ text : String, text.toUTF8 ≠ bytes) :
    String.fromUTF8? bytes = none :=
  dif_neg fun hvalid => h (.fromUTF8 bytes hvalid) rfl

theorem readBytes_of_some (path : String) {text : String} {document : SettingsDocument}
    (h : text.toUTF8.size ≤ 1048576) (htext : SettingsDocument.ofText? text = some document) :
    readBytes path text.toUTF8 = .ok document := by
  simp only [readBytes, maxFileBytes, if_neg (Nat.not_lt.2 h), fromUTF8?_toUTF8, htext]

theorem readBytes_of_none (path : String) {text : String} (h : text.toUTF8.size ≤ 1048576)
    (htext : SettingsDocument.ofText? text = none) :
    readBytes path text.toUTF8 = .error (.invalid path) := by
  simp only [readBytes, maxFileBytes, if_neg (Nat.not_lt.2 h), fromUTF8?_toUTF8, htext]

/-- **There is no fourth case.** -/
theorem missing_or_isRefused_or_holds (path : String) (file : SettingsFile) :
    file = .missing ∨ (∃ warning, IsRefused path file warning) ∨ ∃ table, Holds file table := by
  by_cases hsize : 1048576 < file.size
  · exact .inr (.inl ⟨_, .tooLarge hsize⟩)
  cases file with
  | missing => exact .inl rfl
  | unreadable size reason => exact .inr (.inl ⟨_, .unreadable (Nat.not_lt.1 hsize) reason⟩)
  | present bytes =>
      have hsize : bytes.size ≤ 1048576 := Nat.not_lt.1 hsize
      by_cases htext : ∃ text : String, text.toUTF8 = bytes
      · obtain ⟨text, rfl⟩ := htext
        by_cases htable : ∃ table, SettingsDocument.entries? text = some table ∧
            SettingsDocument.IsTable table
        · obtain ⟨table, hentries, htable⟩ := htable
          exact .inr (.inr ⟨table, .intro hsize hentries htable⟩)
        · exact .inr (.inl ⟨_, .noTable hsize fun table hentries h =>
            htable ⟨table, hentries, h⟩⟩)
      · exact .inr (.inl ⟨_, .noText hsize fun text h => htext ⟨text, h⟩⟩)

theorem readFile_of_isRefused {path : String} {file : SettingsFile} {warning : SettingsWarning}
    (h : IsRefused path file warning) (isExplicit : Bool) :
    readFile path isExplicit file = ({}, [warning]) := by
  cases h with
  | tooLarge h =>
      cases file with
      | missing => exact absurd h (by decide)
      | unreadable size reason =>
          have h : 1048576 < size := h
          rw [readFile, maxFileBytes, if_pos h]
          rfl
      | present bytes =>
          have h : 1048576 < bytes.size := h
          rw [readFile, readBytes, maxFileBytes, if_pos h]
          rfl
  | unreadable h reason => rw [readFile, maxFileBytes, if_neg (Nat.not_lt.2 h)]
  | noText h htext =>
      rw [readFile, readBytes, maxFileBytes, if_neg (Nat.not_lt.2 h), fromUTF8?_eq_none htext]
  | @noTable text h htable =>
      have hnone : SettingsDocument.ofText? text = none := by
        rw [Option.eq_none_iff_forall_ne_some]
        intro document hdocument
        obtain ⟨table, hentries, hisTable, _⟩ :=
          SettingsDocument.ofText?_eq_some_iff.1 hdocument
        exact htable table hentries hisTable
      rw [readFile, readBytes_of_none path h hnone]

theorem readFile_of_holds {file : SettingsFile} {table : List (List Char × Nat)}
    (h : Holds file table) (path : String) (isExplicit : Bool) :
    readFile path isExplicit file = (.ofEntries table, []) := by
  obtain ⟨h, hentries, htable⟩ := h
  have htext := SettingsDocument.ofText?_eq_some_iff.2 ⟨table, hentries, htable, rfl⟩
  rw [readFile, readBytes_of_some path h htext]

/-- **Settings come out of every file**, and the warnings say what did not come
from it: a missing file that was asked for, a file that is refused, each value of
a table that is not in the range of its setting. -/
theorem load_reports (path : String) (isExplicit : Bool) (file : SettingsFile) :
    let settings := (load path isExplicit file).1
    let warnings := (load path isExplicit file).2
    (1 ≤ settings.maxLen ∧ settings.maxLen ≤ 4096 ∧
        4 ≤ settings.idLength ∧ settings.idLength ≤ 64) ∧
      (file = .missing ∨ (∃ warning, IsRefused path file warning) ∨ ∃ table, Holds file table) ∧
      (file = .missing → settings = ⟨250, 8⟩ ∧
        warnings = if isExplicit then [.notFound path] else []) ∧
      (∀ warning, IsRefused path file warning → settings = ⟨250, 8⟩ ∧ warnings = [warning]) ∧
      ∀ table, Holds file table →
        settings = ⟨Rule.maxLen.value table, Rule.idLength.value table⟩ ∧
          warnings =
            [Rule.maxLen, Rule.idLength].filterMap fun rule => rule.warning? table := by
  intro settings warnings
  obtain ⟨hmaxLen, hidLength⟩ := load_inRange path isExplicit file
  have hload : ∀ read, readFile path isExplicit file = read →
      settings = (ofDocument read.1).1 ∧ warnings = read.2 ++ (ofDocument read.1).2 := by
    rintro _ rfl
    exact ⟨rfl, rfl⟩
  refine ⟨⟨hmaxLen.1, hmaxLen.2, hidLength.1, hidLength.2⟩,
    missing_or_isRefused_or_holds path file, ?_, ?_, ?_⟩
  · rintro rfl
    obtain ⟨hsettings, hwarnings⟩ := hload _ rfl
    exact ⟨hsettings, hwarnings.trans (List.append_nil _)⟩
  · intro warning hrefused
    exact hload _ (readFile_of_isRefused hrefused isExplicit)
  · intro table hholds
    obtain ⟨hsettings, hwarnings⟩ := hload _ (readFile_of_holds hholds path isExplicit)
    rw [ofDocument_ofEntries] at hsettings hwarnings
    exact ⟨hsettings, hwarnings⟩

end Settings

end SheetCipher
