import Mathlib.Tactic.Choose
import SheetCipher.CommandLine.Program
import SheetCipher.Proofs.CommandLine.Answer
import SheetCipher.Proofs.CommandLine.Words
import SheetCipher.Proofs.Settings.Load
import SheetCipher.Workbook.Folder

/-!
# Program — what a user sees of the two ways

The capacity that a command works with is in its range, whatever the command
line and the settings file say. So `encrypt` and `decrypt` are seen to do the
same with `--via-grid` as without, and `verify` succeeds.
-/

namespace SheetCipher

namespace Invocation

/-! ## Command lines -/

/-- The name of the command that runs a text in a mode. -/
def modeName : Mode → String
  | .encrypt => "encrypt"
  | .decrypt => "decrypt"

theorem command?_eq_run_iff {name : String} {found : Found} {mode : Mode}
    {id password text : String} {viaGrid : Bool} :
    command? name found = some (.run mode id password text viaGrid) ↔
      name = modeName mode ∧ found.words = [text] ∧ found.value? .id = some id ∧
        found.value? .password = some password ∧ found.has .viaGrid = viaGrid := by
  constructor
  · intro h
    rw [command?.eq_def] at h
    split at h
    all_goals
      simp only [Option.bind_eq_bind, Option.bind_eq_some_iff, Option.pure_def, Option.some.injEq,
        Command.run.injEq, reduceCtorEq, and_false, exists_false] at h
    · rename_i hwords
      obtain ⟨_, hid, _, hpassword, rfl, rfl, rfl, rfl, rfl⟩ := h
      exact ⟨rfl, hwords, hid, hpassword, rfl⟩
    · rename_i hwords
      obtain ⟨_, hid, _, hpassword, rfl, rfl, rfl, rfl, rfl⟩ := h
      exact ⟨rfl, hwords, hid, hpassword, rfl⟩
  · rintro ⟨rfl, hwords, hid, hpassword, hflag⟩
    cases mode <;> simp [command?, modeName, hwords, hid, hpassword, hflag]

theorem ofWords_eq_ok_iff {words : List String} {invocation : Invocation} :
    ofWords words = .ok invocation ↔
      ∃ outer name rest own inner left command,
        outerLevel.Scans {} words outer (name :: rest) ∧ ownOptions name = some own ∧
          (innerLevel name own).Scans {} rest inner left ∧ command? name inner = some command ∧
          invocation = ofFound outer inner command := by
  constructor
  · intro h
    rw [ofWords] at h
    cases hscan : outerLevel.scan {} words with
    | error stop =>
        rw [hscan] at h
        cases h
    | ok found =>
        obtain ⟨outer, rest⟩ := found
        rw [hscan] at h
        simp only [bind, Except.bind] at h
        split at h
        · cases h
        · split at h <;> cases h
        · rename_i name rest hhelp
          split at h
          · cases h
          · rename_i own hown
            cases hinner : (innerLevel name own).scan {} rest with
            | error stop =>
                rw [hinner] at h
                cases h
            | ok found =>
                obtain ⟨inner, left⟩ := found
                rw [hinner] at h
                simp only at h
                split at h
                · rename_i command hcommand
                  cases h
                  exact ⟨outer, name, rest, own, inner, left, command, Level.scan_eq_ok_iff.1 hscan,
                    hown, Level.scan_eq_ok_iff.1 hinner, hcommand, rfl⟩
                · cases h
  · rintro ⟨outer, name, rest, own, inner, left, command, houter, hown, hinner, hcommand, rfl⟩
    have hhelp : name ≠ "help" := by
      rintro rfl
      cases hown
    rw [ofWords, houter.scan]
    simp only [bind, Except.bind, hown, hinner.scan, hcommand]
    rfl

theorem maxLen?_inRange {words : List String} {invocation : Invocation} {n : Nat}
    (h : ofWords words = .ok invocation) (hn : invocation.maxLen? = some n) :
    1 ≤ n ∧ n ≤ maxCapacity := by
  obtain ⟨outer, _, _, _, inner, _, command, _, _, _, _, rfl⟩ := ofWords_eq_ok_iff.1 h
  obtain ⟨s, _, hs⟩ := Option.bind_eq_some_iff.1 hn
  simp only [capacity?] at hs
  split at hs
  all_goals
    split at hs
    · rename_i hrange
      cases hs
      exact hrange.2.2
    · cases hs

/-- The capacity that a command works with, when a settings file is at a path. -/
def capacity (invocation : Invocation) (path : String) (file : SettingsFile) : Nat :=
  (invocation.settings (Settings.load path invocation.config?.isSome file).1).maxLen

/-- **The capacity of a command** is one that grids may have. -/
theorem capacity_inRange {words : List String} {invocation : Invocation}
    (h : ofWords words = .ok invocation) (path : String) (file : SettingsFile) :
    1 ≤ invocation.capacity path file ∧ invocation.capacity path file ≤ maxCapacity := by
  rw [capacity, settings]
  cases hgiven : invocation.maxLen? with
  | none => exact (Settings.load_inRange path invocation.config?.isSome file).1
  | some n => exact maxLen?_inRange h hgiven

/-- **The flag behind the name of the command** changes nothing else. -/
theorem ofWords_viaGrid {words : List String} {invocation : Invocation} {mode : Mode}
    {id password text : String} (h : ofWords words = .ok invocation)
    (hcommand : invocation.command = .run mode id password text false) :
    ∃ before after, words = before ++ modeName mode :: after ∧
      ofWords (before ++ modeName mode :: "--via-grid" :: after) =
        .ok { invocation with command := .run mode id password text true } := by
  obtain ⟨outer, name, rest, own, inner, left, command, houter, hown, hinner, hasked, rfl⟩ :=
    ofWords_eq_ok_iff.1 h
  cases hcommand
  obtain ⟨rfl, hwords, hid, hpassword, hflag⟩ := command?_eq_run_iff.1 hasked
  obtain ⟨before, rfl, hbefore⟩ := houter.split
  have hgives : (innerLevel (modeName mode) own).Gives {} (Found.withFlag {} .viaGrid)
      ["--via-grid"] := by
    have hoption : (innerLevel (modeName mode) own).option? (Word.ofChars "--via-grid".toList) =
        some (.viaGrid, none) := by
      cases mode <;> cases hown <;> decide
    exact .flag hoption rfl rfl
  have hlater := Level.Scans.option hgives (hinner.withFlag hflag).2
  have hasked : command? (modeName mode) (inner.withFlag .viaGrid) =
      some (.run mode id password text true) := by
    refine command?_eq_run_iff.2 ⟨rfl, hwords, ?_, ?_, ?_⟩
    · rwa [Found.value?_withFlag, if_neg (by decide)]
    · rwa [Found.value?_withFlag, if_neg (by decide)]
    · rw [Found.has, Found.value?_withFlag, if_pos rfl]
      rfl
  refine ⟨before, rest, rfl, ofWords_eq_ok_iff.2
    ⟨outer, _, _, own, _, left, _, hbefore _, hown, hlater, hasked, ?_⟩⟩
  simp [ofFound, Found.value?_withFlag]

/-! ## Runs -/

variable {m : Type → Type} [Monad m]

/-- The answer of a command when a settings file is at a path. -/
def answer (invocation : Invocation) (path : String) (file : SettingsFile) (draws : Draws) :
    Answer :=
  .ofCommand (invocation.settings (Settings.load path invocation.config?.isSome file).1) draws
    invocation.command

/-- The warnings that are shown then. -/
def warnings (invocation : Invocation) (path : String) (file : SettingsFile) :
    List SettingsWarning :=
  if invocation.showsWarnings then (Settings.load path invocation.config?.isSome file).2 else []

theorem run_eq (around : Surroundings m) (invocation : Invocation) :
    invocation.run around = (do
      let (path, file) ← around.settingsFile invocation.config?
      let draws ← around.draws
      let report ← (invocation.answer path file draws).perform around.write
      return .ofReport (invocation.warnings path file) report) := rfl

/-- **A run by the grid** is the run that goes directly. -/
theorem run_viaGrid (around : Surroundings m) {words : List String} {invocation : Invocation}
    {mode : Mode} {id password text : String} (h : ofWords words = .ok invocation)
    (hcommand : invocation.command = .run mode id password text false) :
    ({ invocation with command := .run mode id password text true } : Invocation).run around =
      invocation.run around := by
  have hanswer :
      ({ invocation with command := .run mode id password text true } : Invocation).answer =
        invocation.answer := by
    funext path file draws
    show Answer.ofCommand (invocation.settings _) draws (.run mode id password text true) = _
    rw [answer, hcommand, Answer.ofCommand, Answer.ofCommand, Answer.attempt, Answer.attempt,
      Answer.runText_viaGrid (capacity_inRange h path file)]
  rw [run_eq, run_eq, hanswer]
  rfl

/-- Where there is nothing to write, nothing can go wrong. -/
theorem perform_of_nil [LawfulMonad m] (write : OutputFile → ExceptT FileError m Unit)
    (printed : String) :
    ({ printed } : Answer).perform write = pure ⟨printed, none⟩ := by
  simp [Answer.perform, OutputFile.writeAll]

/-- **A comparison succeeds.** -/
theorem run_verify [LawfulMonad m] (around : Surroundings m) {words : List String}
    {invocation : Invocation} {id password text : String} {spec : Spec}
    (h : ofWords words = .ok invocation)
    (hcommand : invocation.command = .verify id password text)
    (hderive : Spec.derive id = .ok spec) :
    ∃ encrypted : String → SettingsFile → String,
      (∀ path file, (Cipher.ofPassword spec password (invocation.capacity path file)).encrypt text =
        .ok (encrypted path file)) ∧
      invocation.run around = (do
        let (path, file) ← around.settingsFile invocation.config?
        let _ ← around.draws
        return {
          code := 0
          printed := Answer.verdict id (invocation.capacity path file) (encrypted path file)
          warnings := invocation.warnings path file }) := by
  choose encrypted hencrypt hverify using fun path file =>
    Answer.verify_eq_ok (capacity_inRange h path file) hderive password text
  have hanswer : ∀ path file draws, invocation.answer path file draws =
      { printed := Answer.verdict id (invocation.capacity path file) (encrypted path file) } := by
    intro path file draws
    rw [answer, hcommand, Answer.ofCommand, Answer.attempt, hverify]
    rfl
  refine ⟨encrypted, hencrypt, ?_⟩
  rw [run_eq]
  simp only [hanswer, perform_of_nil, pure_bind]
  rfl

theorem runWords_of_ok (around : Surroundings m) {words : List String} {invocation : Invocation}
    (h : ofWords words = .ok invocation) : runWords around words = invocation.run around := by
  rw [runWords, h]

/-- **No command shows a difference between the two ways.** Whatever is asked
for, the capacity is in its range. A text that is run directly has the same
outcome with the flag, wherever the flag stands, and behind the name of the
command is always a place for it. A comparison for an id that stands for a spec
ends with code 0, and all that it prints is ok. -/
theorem runWords_agree [LawfulMonad m] (around : Surroundings m) {words : List String}
    {invocation : Invocation} (h : ofWords words = .ok invocation) :
    (∀ path file,
      1 ≤ invocation.capacity path file ∧ invocation.capacity path file ≤ maxCapacity) ∧
    (∀ mode id password text, invocation.command = .run mode id password text false →
      (∀ others,
        ofWords others =
            .ok { invocation with command := .run mode id password text true } →
          runWords around others = runWords around words) ∧
      ∃ before after, words = before ++ modeName mode :: after ∧
        ofWords (before ++ modeName mode :: "--via-grid" :: after) =
          .ok { invocation with command := .run mode id password text true }) ∧
    ∀ id password text spec, invocation.command = .verify id password text →
      Spec.derive id = .ok spec →
      ∃ encrypted : String → SettingsFile → String,
        (∀ path file,
          (Cipher.ofPassword spec password (invocation.capacity path file)).encrypt text =
            .ok (encrypted path file)) ∧
        runWords around words = (do
          let (path, file) ← around.settingsFile invocation.config?
          let _ ← around.draws
          return {
            code := 0
            printed := Answer.verdict id (invocation.capacity path file) (encrypted path file)
            warnings := invocation.warnings path file }) := by
  refine ⟨capacity_inRange h, fun mode id password text hcommand => ⟨?_, ?_⟩, ?_⟩
  · intro others hothers
    rw [runWords_of_ok around hothers, runWords_of_ok around h, run_viaGrid around h hcommand]
  · exact ofWords_viaGrid h hcommand
  · intro id password text spec hcommand hderive
    rw [runWords_of_ok around h]
    exact run_verify around h hcommand hderive

/-- A folder to write to, a settings file at a path, and zeros to make up ids. -/
def settledSurroundings (path text : String) : Surroundings (StateM Folder) where
  settingsFile asked? :=
    return (asked?.getD "", if asked? = some path then .present text.toUTF8 else .missing)
  draws := return Draws.cycle #[]
  write := Folder.write

/-- A settings file that leaves room for four characters, and a value out of its
range, which is reported each time. -/
theorem runWords_agree_settled :
    let around := settledSurroundings "my.toml" "max_len = 4\nid_length = 2\n"
    let encrypt := ["encrypt", "--config", "my.toml", "--id", "t0", "--password=key", "Attack"]
    let verify := ["--config=my.toml", "verify", "--id", "t0", "--password", "key", "Attack"]
    let warnings := [SettingsWarning.outOfRange "id_length" 2 4 64 8]
    (runWords around (encrypt ++ ["--via-grid"])).run {} = (runWords around encrypt).run {} ∧
      ((runWords around encrypt).run {}).1 = { code := 0, printed := "Simi\n", warnings } ∧
      ((runWords around verify).run {}).1 =
        { code := 0
          printed := "template t0 (4 rows)\nciphertext: Simi\ndirect round-trip: ok\n" ++
            "grid encrypt matches direct: ok\ngrid decrypt matches direct: ok\n"
          warnings } := by
  intro around encrypt verify warnings
  have hencrypt : ofWords encrypt =
      .ok ⟨some "my.toml", none, "warn", .run .encrypt "t0" "key" "Attack" false⟩ := by
    decide +kernel
  let invocation : Invocation := ⟨some "my.toml", none, "warn", .verify "t0" "key" "Attack"⟩
  have hverify : ofWords verify = .ok invocation := by decide +kernel
  refine ⟨?_, by decide +kernel, ?_⟩
  · rw [((runWords_agree around hencrypt).2.1 .encrypt _ _ _ rfl).1 _ (by decide +kernel)]
  -- only the direct cipher is evaluated here; that the grids agree is the theorem
  have hcipher : ((Spec.derive "t0").toOption.map fun spec =>
      ((Cipher.ofPassword spec "key" 4).encrypt "Attack").toOption) = some (some "Simi") := by
    decide +kernel
  cases hderive : Spec.derive "t0" with
  | error e =>
      rw [hderive] at hcipher
      cases hcipher
  | ok spec =>
      rw [hderive] at hcipher
      obtain ⟨encrypted, hencrypted, hrun⟩ :=
        (runWords_agree around hverify).2.2 _ _ _ spec rfl hderive
      let file := SettingsFile.present "max_len = 4\nid_length = 2\n".toUTF8
      have hcapacity : invocation.capacity "my.toml" file = 4 := by decide +kernel
      have hsimi : some (encrypted "my.toml" file) = some "Simi" := by
        have hfile := hencrypted "my.toml" file
        rw [hcapacity] at hfile
        have hdirect := Option.some.inj hcipher
        dsimp only at hdirect
        rwa [hfile] at hdirect
      rw [hrun]
      show Outcome.mk _ (Answer.verdict _ _ (encrypted "my.toml" file)) _ _ = _
      rw [Option.some.inj hsimi]
      decide +kernel

end Invocation

end SheetCipher
