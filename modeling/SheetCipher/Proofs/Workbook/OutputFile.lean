import Mathlib.Data.List.Forall2
import Mathlib.Data.List.Nodup
import SheetCipher.Proofs.Workbook.Path
import SheetCipher.Workbook.Assemble

/-!
# OutputFile — sheets that stay in their directory

Whatever text a file name begins with, what is left of it are letters, digits,
`-` and `_`; with the name of a sheet and the ending behind it, that is a name
and no way out of the directory. The sheets of a template have three names, so
they go into three files (`sheets_stay_inside`).
-/

namespace SheetCipher

namespace Csv

/-! ## File names -/

/-- Whether a character is one of `[A-Za-z0-9_-]`. -/
def IsPlainChar (c : Char) : Prop :=
  ('A' ≤ c ∧ c ≤ 'Z') ∨ ('a' ≤ c ∧ c ≤ 'z') ∨ ('0' ≤ c ∧ c ≤ '9') ∨ c = '-' ∨ c = '_'

theorem isNameChar_iff {c : Char} : isNameChar c = true ↔ IsPlainChar c := by
  have hupper : c.isUpper = true ↔ 'A' ≤ c ∧ c ≤ 'Z' := decide_eq_true_iff
  have hlower : c.isLower = true ↔ 'a' ≤ c ∧ c ≤ 'z' :=
    Bool.and_eq_true_iff.trans (and_congr decide_eq_true_iff decide_eq_true_iff)
  have hdigit : c.isDigit = true ↔ '0' ≤ c ∧ c ≤ '9' :=
    Bool.and_eq_true_iff.trans (and_congr decide_eq_true_iff decide_eq_true_iff)
  change (c.isUpper || c.isLower || c.isDigit || decide (c = '-') || decide (c = '_')) = true ↔ _
  simp only [Bool.or_eq_true, decide_eq_true_eq, hupper, hlower, hdigit, or_assoc, IsPlainChar]

theorem isPlainChar_of_mem_fileStem {stem : String} {c : Char} (h : c ∈ (fileStem stem).toList) :
    IsPlainChar c := by
  rw [fileStem, String.toList_ofList, List.mem_map] at h
  obtain ⟨d, _, rfl⟩ := h
  split
  · rename_i hd
    exact isNameChar_iff.1 hd
  · exact isNameChar_iff.1 rfl

/-- **What is plain stays.** -/
theorem fileStem_eq_self {stem : String} (h : ∀ c ∈ stem.toList, IsPlainChar c) :
    fileStem stem = stem := by
  have hstays : ∀ c ∈ stem.toList, (if isNameChar c then c else '_') = c := by
    intro c hc
    rw [if_pos (isNameChar_iff.2 (h c hc))]
  rw [fileStem, List.map_congr_left hstays, List.map_id', String.ofList_toList]

/-- The name of a file without its ending. -/
def baseName (stem sheetName : String) : String := fileStem stem ++ "-" ++ sheetName

theorem fileName_eq (stem sheetName : String) :
    fileName stem sheetName = baseName stem sheetName ++ ".csv" := rfl

theorem isPlainChar_of_mem_baseName {stem sheetName : String}
    (hsheet : ∀ c ∈ sheetName.toList, IsPlainChar c) {c : Char}
    (h : c ∈ (baseName stem sheetName).toList) : IsPlainChar c := by
  rw [baseName, String.toList_append, String.toList_append, List.mem_append, List.mem_append] at h
  rcases h with (hstem | hdash) | hname
  · exact isPlainChar_of_mem_fileStem hstem
  · rw [List.mem_singleton.1 hdash]
    exact isNameChar_iff.1 rfl
  · exact hsheet c hname

theorem isName_fileName (stem : String) {sheetName : String}
    (hsheet : ∀ c ∈ sheetName.toList, IsPlainChar c) :
    Path.IsName (fileName stem sheetName).toList := by
  rw [fileName_eq, String.toList_append]
  apply Path.isName_of_length
  · intro hslash
    rcases List.mem_append.1 hslash with hbase | hending
    · exact absurd (isPlainChar_of_mem_baseName hsheet hbase) (by unfold IsPlainChar; decide)
    · exact absurd hending (by decide)
  · rw [List.length_append]
    exact Nat.lt_of_lt_of_le (by decide) (Nat.le_add_left _ _)

theorem fileName_injective (stem : String) : Function.Injective (fileName stem) := by
  intro a b h
  have hlists := congrArg String.toList h
  simp only [fileName, String.toList_append, List.append_assoc] at hlists
  exact String.toList_inj.1 (List.append_cancel_right
    (List.append_cancel_left (List.append_cancel_left hlists)))

end Csv

namespace OutputFile

/-! ## Writing -/

theorem writeAll_eq_forM {m : Type → Type} [Monad m] [LawfulMonad m]
    (write : OutputFile → ExceptT FileError m Unit) (files : List OutputFile) :
    writeAll write files = do
      files.forM write
      return files.map path := by
  induction files with
  | nil => simp [writeAll]
  | cons file files ih =>
      rw [writeAll] at ih ⊢
      rw [List.mapM_cons, ih]
      simp

/-- A writing that notes the paths of the files that are written. The system may
refuse any file. -/
def noting (refusal? : OutputFile → Option FileError) (file : OutputFile) :
    ExceptT FileError (StateM (List String)) Unit :=
  match refusal? file with
  | some e => throw e
  | none => modify fun written => written ++ [file.path]

theorem forM_noting (refusal? : OutputFile → Option FileError) (files : List OutputFile)
    (done : List String) :
    (files.forM (noting refusal?)).run.run done =
      (match files.findSome? refusal? with
        | none => .ok ()
        | some e => .error e,
        done ++ (files.takeWhile fun file => (refusal? file).isNone).map path) := by
  induction files generalizing done with
  | nil =>
      rw [List.takeWhile_nil, List.map_nil, List.append_nil]
      rfl
  | cons file files ih =>
      rw [List.findSome?_cons, List.takeWhile_cons]
      change (noting refusal? file >>= fun _ => files.forM (noting refusal?)).run.run done = _
      cases hfile : refusal? file with
      | some e =>
          have hwrite : noting refusal? file = throw e := by rw [noting, hfile]
          rw [hwrite, Option.isNone_some, if_neg Bool.false_ne_true, List.map_nil, List.append_nil]
          rfl
      | none =>
          have hwrite : noting refusal? file = modify fun written => written ++ [file.path] := by
            rw [noting, hfile]
          have hrest := ih (done ++ [file.path])
          rw [List.append_assoc, List.singleton_append, ← List.map_cons] at hrest
          rw [hwrite, Option.isNone_none, if_pos rfl, ← hrest]
          rfl

/-- **What is written** are the files in front of the first that is refused. -/
theorem writeAll_noting (refusal? : OutputFile → Option FileError) (files : List OutputFile) :
    (writeAll (noting refusal?) files).run.run [] =
      (match files.findSome? refusal? with
        | none => .ok (files.map path)
        | some e => .error e,
        (files.takeWhile fun file => (refusal? file).isNone).map path) := by
  have hrun := forM_noting refusal? files []
  rw [writeAll_eq_forM, ExceptT.run_bind, StateT.run_bind, hrun]
  cases files.findSome? refusal? with
  | none => rfl
  | some e => rfl

/-! ## The sheets of a template -/

/-- Whether a path leads to a file of plain characters and the ending, right in a
directory. -/
def LiesIn (dir path : String) : Prop :=
  ∃ name : String, (∀ c ∈ name.toList, Csv.IsPlainChar c) ∧
    path = join dir (name ++ ".csv") ∧
    Path.steps path = Path.steps dir ++ [.name (name ++ ".csv").toList] ∧
    Path.parent? path = some (Path.steps dir)

theorem liesIn_join (dir stem : String) {sheetName : String}
    (h : ∀ c ∈ sheetName.toList, Csv.IsPlainChar c) :
    LiesIn dir (join dir (Csv.fileName stem sheetName)) :=
  ⟨Csv.baseName stem sheetName, fun _ hc => Csv.isPlainChar_of_mem_baseName h hc, rfl,
    Path.steps_join dir (Csv.isName_fileName stem h),
    Path.parent?_join dir (Csv.isName_fileName stem h)⟩

/-- Files of different sheets are reached by different steps. -/
theorem steps_join_injective (dir stem : String) {a b : String}
    (ha : ∀ c ∈ a.toList, Csv.IsPlainChar c) (hb : ∀ c ∈ b.toList, Csv.IsPlainChar c)
    (h : Path.steps (join dir (Csv.fileName stem a)) =
      Path.steps (join dir (Csv.fileName stem b))) : a = b := by
  rw [Path.steps_join dir (Csv.isName_fileName stem ha),
    Path.steps_join dir (Csv.isName_fileName stem hb)] at h
  have hstep := List.append_cancel_left h
  injection hstep with hname
  injection hname with hchars
  exact Csv.fileName_injective stem (String.toList_inj.1 hchars)

theorem map_path_ofSheets (dir stem : String) (book : Workbook) :
    (ofSheets dir stem book).map path =
      (book.sheets.map Sheet.name).map fun name => join dir (Csv.fileName stem name) := by
  rw [ofSheets, List.map_map, List.map_map]
  rfl

theorem names_assemble (template : CompiledTemplate) :
    (Workbook.assemble template).sheets.map Sheet.name =
      ["Algorithm", "KeyMap", "Instructions"] := rfl

theorem isPlainChar_of_mem_names {name : String}
    (h : name ∈ ["Algorithm", "KeyMap", "Instructions"]) :
    ∀ c ∈ name.toList, Csv.IsPlainChar c := by
  have hall : (["Algorithm", "KeyMap", "Instructions"].all fun name =>
      name.toList.all Csv.isNameChar) = true := by decide +kernel
  intro c hc
  exact Csv.isNameChar_iff.1 (List.all_eq_true.1 (List.all_eq_true.1 hall name h) c hc)

/-- **Sheets stay in their directory**, whatever the files are named after: each
is a file of its own, right in the directory. Writing goes through them in order,
up to the first that the system refuses. -/
theorem sheets_stay_inside (dir stem : String) (template : CompiledTemplate)
    (refusal? : OutputFile → Option FileError) :
    let book := Workbook.assemble template
    let files := ofSheets dir stem book
    let paths := files.map path
    (writeAll (noting refusal?) files).run.run [] =
        (match files.findSome? refusal? with
          | none => .ok paths
          | some e => .error e,
          (files.takeWhile fun file => (refusal? file).isNone).map path) ∧
      List.Forall₂ (fun sheet path =>
          path = join dir (Csv.fileStem stem ++ "-" ++ sheet.name ++ ".csv") ∧ LiesIn dir path)
        book.sheets paths ∧
      paths.Nodup ∧ (paths.map Path.steps).Nodup ∧
      Csv.fileStem (Csv.fileStem stem) = Csv.fileStem stem ∧
      ((∀ c ∈ stem.toList, Csv.IsPlainChar c) → Csv.fileStem stem = stem) := by
  intro book files paths
  have hpaths : paths = ["Algorithm", "KeyMap", "Instructions"].map fun name =>
      join dir (Csv.fileName stem name) :=
    (map_path_ofSheets dir stem book).trans (by rw [names_assemble])
  have hsteps : (paths.map Path.steps).Nodup := by
    rw [hpaths, List.map_map]
    refine List.Nodup.map_on (fun a ha b hb hab => ?_) (by decide)
    exact steps_join_injective dir stem (isPlainChar_of_mem_names ha)
      (isPlainChar_of_mem_names hb) hab
  refine ⟨writeAll_noting refusal? files, ?_, hsteps.of_map, hsteps,
    Csv.fileStem_eq_self fun _ => Csv.isPlainChar_of_mem_fileStem, Csv.fileStem_eq_self⟩
  have hall : ∀ sheet ∈ book.sheets, LiesIn dir (join dir (Csv.fileName stem sheet.name)) :=
    fun sheet hsheet => liesIn_join dir stem (isPlainChar_of_mem_names
      (names_assemble template ▸ List.mem_map_of_mem hsheet))
  change List.Forall₂ _ book.sheets ((ofSheets dir stem book).map path)
  rw [ofSheets, List.map_map, List.forall₂_map_right_iff, List.forall₂_same]
  exact fun sheet hsheet => ⟨rfl, hall sheet hsheet⟩

end OutputFile

end SheetCipher
