import SheetCipher.CommandLine.Answer
import SheetCipher.Proofs.Cipher.Trace
import SheetCipher.Proofs.Layout.Run
import SheetCipher.Proofs.Template.Derive

/-!
# Answer — both ways to run a text

An id that stands for a spec stands for a valid one, and with a capacity in its
range the grids of a valid spec work out to what the cipher gives. So a text
comes to the same answer by the grid as directly, and a comparison of the two
has nothing to report.
-/

namespace SheetCipher

namespace Spec

variable {spec : Spec} {capacity : Nat} {rows : List KeyRow}

theorem isValid_of_derive {id : String} (h : derive id = .ok spec) : spec.IsValid := by
  by_cases hid : id = ""
  · rw [derive, deriveWithin, if_pos hid] at h
    cases h
  · rcases deriveWithin_cases hid maxAttempts with hnone | ⟨found, hfound, _, hvalid⟩
    · cases h.symm.trans hnone
    · cases h.symm.trans hfound
      exact hvalid

/-- A grid gives what the cipher gives. -/
theorem run_grid_of_run (hspec : spec.IsValid) (hcapacity : 1 ≤ capacity ∧ capacity ≤ maxCapacity)
    (hrows : spec.mapping.keyRows = .ok rows) (mode : Mode) (inputs : Inputs) {result : String}
    (h : (Cipher.ofPassword spec inputs.password capacity).run mode (inputs.text mode) =
      .ok result) :
    ((spec.template capacity rows).grid mode).run (spec.template capacity rows).sheets inputs =
      .ok result := by
  have hresult := Except.ok.inj ((run_eq_outcome hspec mode _ _).symm.trans h)
  rw [run_grid_eq_ok hspec hcapacity hrows, hresult]

end Spec

namespace Answer

variable {settings : Settings} (hcapacity : 1 ≤ settings.maxLen ∧ settings.maxLen ≤ maxCapacity)
include hcapacity

/-- **By the grid or directly, a text comes to the same answer**, a failure if
the id stands for no spec. -/
theorem runText_viaGrid (mode : Mode) (id password text : String) :
    runText settings mode id password text true = runText settings mode id password text false := by
  cases hderive : Spec.derive id with
  | error e => simp [runText, derive, hderive, bind, Except.bind]
  | ok spec =>
      have hspec := Spec.isValid_of_derive hderive
      obtain ⟨rows, hrows, hcompile⟩ := Spec.compile_eq_ok hspec hcapacity
      obtain ⟨result, hdirect⟩ :
          ∃ result, (Cipher.ofPassword spec password settings.maxLen).run mode text = .ok result :=
        ⟨_, Spec.run_eq_outcome hspec mode password text⟩
      have hgrid : (spec.template settings.maxLen rows).runMode mode password text = .ok result :=
        Spec.run_grid_of_run hspec hcapacity hrows mode _ (by
          rwa [Inputs.password_ofMode, Inputs.text_ofMode])
      simp [runText, derive, hderive, compile, hcompile, evaluated, hgrid, direct, hdirect, bind,
        Except.bind]

/-- What is printed when nothing differs. -/
def verdict (id : String) (capacity : Nat) (encrypted : String) : String :=
  "template " ++ id ++ " (" ++ toString capacity ++ " rows)\n" ++
    "ciphertext: " ++ encrypted ++ "\n" ++
    "direct round-trip: ok\ngrid encrypt matches direct: ok\ngrid decrypt matches direct: ok\n"

/-- **A comparison finds no difference.** -/
theorem verify_eq_ok {id : String} {spec : Spec} (hderive : Spec.derive id = .ok spec)
    (password text : String) :
    ∃ encrypted, (Cipher.ofPassword spec password settings.maxLen).encrypt text = .ok encrypted ∧
      verify settings id password text =
        .ok { printed := verdict id settings.maxLen encrypted } := by
  have hspec := Spec.isValid_of_derive hderive
  obtain ⟨rows, hrows, hcompile⟩ := Spec.compile_eq_ok hspec hcapacity
  have hreversible : (Cipher.ofPassword spec password settings.maxLen).spec.IsReversible :=
    hspec.isReversible
  obtain ⟨_, encrypted, _, hencrypt, _, hdecrypt⟩ := Cipher.run_opposite hreversible .encrypt text
  have hleft := Spec.run_grid_of_run hspec hcapacity hrows .encrypt ⟨password, text, encrypted⟩
    hencrypt
  have hright := Spec.run_grid_of_run hspec hcapacity hrows .decrypt ⟨password, text, encrypted⟩
    hdecrypt
  have hgrid : (spec.template settings.maxLen rows).run ⟨password, text, encrypted⟩ =
      .ok ⟨encrypted, String.ofList (text.toList.take settings.maxLen)⟩ := by
    simp only [CompiledTemplate.grid] at hleft hright
    rw [CompiledTemplate.run, hleft, hright]
    rfl
  refine ⟨encrypted, hencrypt, ?_⟩
  have hencrypt : (Cipher.ofPassword spec password settings.maxLen).encrypt text =
    .ok encrypted := hencrypt
  have hdecrypt : (Cipher.ofPassword spec password settings.maxLen).decrypt encrypted =
    .ok (String.ofList (text.toList.take settings.maxLen)) := hdecrypt
  have hlines : String.join ([("direct round-trip", true), ("grid encrypt matches direct", true),
      ("grid decrypt matches direct", true)].map checkLine) =
      "direct round-trip: ok\ngrid encrypt matches direct: ok\ngrid decrypt matches direct: ok\n" :=
    by decide
  simp only [verify, derive, hderive, compile, hcompile, direct, hencrypt, hdecrypt, evaluated,
    hgrid, bind, Except.bind, pure, Except.pure, beq_self_eq_true, hlines]
  rfl

end Answer

end SheetCipher
