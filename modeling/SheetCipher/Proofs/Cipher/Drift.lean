import Mathlib.Data.Nat.Prime.Defs
import SheetCipher.Proofs.Cipher.Trace
import SheetCipher.Proofs.Template.Spec

/-!
# Drift — a text that comes back under another password

A text that goes out with one key and comes back with another meets the key at
the same places both ways. At each of them its letters are left off by the gap
between the two keys, so what comes back is the text with every letter turned
by the sum of its gaps (`foldl_undoing_drift`). Two passwords that differ in
one character have only one gap, at one index of the key and where it comes
round again, and no letter meets it more than three times: the sum is the gap a
few times over, and it is no full turn unless the gap is half of one.
-/

namespace SheetCipher

/-! ## Where a character meets the key -/

namespace Operation

/-- The places, counted from 0, at which the character that starts at a place
of a text meets the key. -/
def meetings (length : Nat) : List Operation → Nat → List Nat
  | [], _ => []
  | .substitute :: ops, i | .xor :: ops, i => i :: meetings length ops i
  | .reverse :: ops, i => meetings length ops (length - 1 - i)
  | .map :: ops, i => meetings length ops i

theorem meetings_of_isKeyed {op : Operation} (h : op.isKeyed = true) (length : Nat)
    (ops : List Operation) (i : Nat) :
    meetings length (op :: ops) i = i :: meetings length ops i := by
  cases op with
  | substitute | xor => rfl
  | reverse | map => cases h

theorem length_meetings (length : Nat) (ops : List Operation) (i : Nat) :
    (meetings length ops i).length = ops.countP isKeyed := by
  induction ops generalizing i with
  | nil => rfl
  | cons op ops ih => cases op <;> simp [meetings, ih, List.countP_cons, isKeyed]

/-- **Every place is met** by some character, if there is a keyed operation. -/
theorem exists_mem_meetings {ops : List Operation} (hkeyed : ops.any isKeyed = true)
    {length place : Nat} (hplace : place < length) :
    ∃ i, i < length ∧ place ∈ meetings length ops i := by
  induction ops with
  | nil => cases hkeyed
  | cons op ops ih =>
      cases op with
      | substitute | xor => exact ⟨place, hplace, List.mem_cons_self⟩
      | reverse =>
          -- the character on the other side is turned round to the one that meets it
          obtain ⟨i, hi, hmem⟩ := ih hkeyed
          refine ⟨length - 1 - i, by omega, ?_⟩
          rwa [meetings, show length - 1 - (length - 1 - i) = i by omega]
      | map => exact ih hkeyed

end Operation

/-! ## Two keys -/

namespace PasswordKey

/-- How much further one key moves the letter at a place, counted from 0, than
another. -/
def gap (key other : PasswordKey) (place : Nat) : Int :=
  (key.letterAt (place + 1)).toNat - (other.letterAt (place + 1)).toNat

/-- The gaps at several places taken together. -/
def drift (key other : PasswordKey) : List Nat → Int
  | [] => 0
  | place :: places => key.gap other place + key.drift other places

theorem drift_eq_mul {key other : PasswordKey} {p : Nat → Bool} {n : Int}
    (h : ∀ place, key.gap other place = if p place then n else 0) (places : List Nat) :
    key.drift other places = places.countP p * n := by
  induction places with
  | nil => simp [drift]
  | cons place places ih =>
      rw [drift, ih, h]
      by_cases hp : p place
      · rw [if_pos hp, List.countP_cons_of_pos hp, Int.natCast_add, Int.add_mul]
        omega
      · rw [if_neg hp, List.countP_cons_of_neg hp, Int.zero_add]

/-- Two passwords that differ at one index have one gap, which comes round
again with the key. -/
theorem gap_ofPassword {password wrong : String} {a : Nat} {c d : Char}
    (hlength : password.toList.length = wrong.toList.length)
    (hpassword : password.toList[a]? = some c) (hwrong : wrong.toList[a]? = some d)
    (hothers : ∀ i, i ≠ a → password.toList[i]? = wrong.toList[i]?) (place : Nat) :
    (ofPassword password).gap (ofPassword wrong) place =
      if place % (password.toList.length + 1) = a then (c.toNat - d.toNat : Int) else 0 := by
  have hletter : ∀ s : String, s.toList.length = password.toList.length →
      (s.toList ++ [filler])[place % (password.toList.length + 1)]? =
        some ((ofPassword s).letterAt (place + 1)) := by
    intro s hs
    have hget := getElem?_letters s place
    rwa [ofPassword, List.length_append, List.length_singleton, hs] at hget
  have hright := hletter password rfl
  have hother := hletter wrong hlength.symm
  obtain ⟨hlt, _⟩ := List.getElem?_eq_some_iff.1 hpassword
  rw [gap]
  split
  · rename_i hmeet
    rw [hmeet, List.getElem?_append_left hlt, hpassword] at hright
    rw [hmeet, List.getElem?_append_left (hlength ▸ hlt), hwrong] at hother
    rw [← Option.some.inj hright, ← Option.some.inj hother]
  · rename_i hne
    -- at another index both have the same letter, or the filler
    rw [List.getElem?_append, hothers _ hne, hlength, ← List.getElem?_append, ← hlength,
      hother] at hright
    rw [Option.some.inj hright, Int.sub_self]

end PasswordKey

/-! ## There with one key and back with another -/

namespace Spec

variable {spec : Spec}

/-- **What comes back is off by the drift** of each character, as long as no
operation looks letters up. -/
theorem foldl_undoing_drift (spec : Spec) (key other : PasswordKey) {ops : List Operation}
    (hops : .map ∉ ops) (text : List Char) :
    (undoing (ops.map fun op => (op, .forward))).foldl (spec.step other)
        ((ops.map fun op => (op, .forward)).foldl (spec.step key) text) =
      text.mapIdx fun i c =>
        turn c (key.drift other (Operation.meetings text.length ops i)) := by
  induction ops generalizing text with
  | nil =>
      refine (List.mapIdx_eq_iff.2 fun i => ?_).symm
      simp [PasswordKey.drift, Operation.meetings, turn_zero, undoing]
  | cons op ops ih =>
      have hlater : .map ∉ ops := fun h => hops (List.mem_cons_of_mem _ h)
      have hkeyed : op.isKeyed = true →
          spec.step other ((spec.step key text (op, .forward)).mapIdx fun i c =>
              turn c (key.drift other (Operation.meetings text.length ops i)))
            (op, .inverse) =
          text.mapIdx fun i c =>
            turn c (key.drift other (Operation.meetings text.length (op :: ops) i)) := by
        intro hop
        simp only [step, Operation.effect_of_isKeyed hop, List.mapIdx_mapIdx, Function.comp_def,
          turn_turn, Operation.meetings_of_isKeyed hop, PasswordKey.drift, Direction.sign,
          PasswordKey.gap, amount]
        refine congrArg (fun f => text.mapIdx f) (funext fun i => funext fun c => ?_)
        congr 1
        omega
      rw [List.map_cons, undoing_cons, List.foldl_append, List.foldl_cons (l := ops.map _),
        ih hlater, length_step]
      cases op with
      | substitute => exact hkeyed rfl
      | xor => exact hkeyed rfl
      | reverse =>
          show (text.reverse.mapIdx _).reverse = _
          rw [List.mapIdx_reverse, List.reverse_reverse]
          rfl
      | map => exact absurd List.mem_cons_self hops

/-- A look-up at the end uses no key and is undone under any other. -/
theorem foldl_stages_drift (h : spec.IsReversible) {ops : List Operation}
    (hspec : spec.operations = ops ++ [.map]) (hops : .map ∉ ops) (key other : PasswordKey)
    (text : List Char) :
    (spec.stages .decrypt).foldl (spec.step other)
        ((spec.stages .encrypt).foldl (spec.step key) text) =
      text.mapIdx fun i c =>
        turn c (key.drift other (Operation.meetings text.length ops i)) := by
  have hstages : spec.stages .encrypt =
      (ops.map fun op => (op, .forward)) ++ [(.map, .forward)] := by
    rw [stages, hspec, List.map_append]
    rfl
  have hback : spec.stages .decrypt =
      (.map, .inverse) :: undoing (ops.map fun op => (op, .forward)) := by
    rw [show Mode.decrypt = Mode.encrypt.opposite from rfl, stages_opposite, hstages, undoing,
      List.reverse_append]
    rfl
  have hmap : ∀ now : List Char,
      spec.step other (spec.step key now (.map, .forward)) (.map, .inverse) = now :=
    fun now => Operation.effect_opposite h .map .forward key now
  rw [hback, hstages, List.foldl_append, List.foldl_cons, List.foldl_cons, List.foldl_nil, hmap,
    foldl_undoing_drift spec key other hops]

theorem IsValid.exists_mixing (h : spec.IsValid) : ∃ ops, spec.operations = ops ++ [.map] ∧
    spec.operations.take Operation.mixingSteps = ops ∧ ops.any Operation.isKeyed = true ∧
    ops.countP Operation.isKeyed ≤ 3 := by
  obtain ⟨first, second, third, hops, _⟩ := h.exists_operations
  have hmixes := h.mixing
  rw [hops] at hmixes
  rw [Operation.mixes, Bool.and_eq_true] at hmixes
  exact ⟨[first, second, third], hops, by rw [hops]; rfl, hmixes.1, List.countP_le_length⟩

end Spec

/-! ## Letters that come back -/

theorem dvd_of_turn_eq {c : Char} (hc : LetterCase.ofChar? c ≠ none) {amount : Int}
    (h : turn c amount = c) : (alphabetSize : Int) ∣ amount := by
  obtain ⟨k, hk⟩ := Option.ne_none_iff_exists'.1 hc
  obtain ⟨i, hi, rfl⟩ := LetterCase.exists_index hk
  rw [turn_letter k hi] at h
  have hindex := k.letter_injective (toNat_emod_lt _) hi h
  simp only [alphabetSize] at hi hindex ⊢
  omega

/-- A few times a number is no full turn unless the number is half of one. -/
theorem not_dvd_mul {m : Nat} (hpos : 0 < m) (hlt : m < 13) {n : Int} (hn : ¬ (13 : Int) ∣ n) :
    ¬ (alphabetSize : Int) ∣ m * n := by
  intro h
  have hhalf : (13 : Int) ∣ m * n := Int.dvd_trans ⟨2, rfl⟩ h
  rw [← Int.natAbs_dvd_natAbs, Int.natAbs_mul] at hhalf
  rcases (Nat.Prime.dvd_mul (by decide)).1 hhalf with hm | hn'
  · exact absurd (Nat.le_of_dvd hpos hm) (by omega)
  · exact hn (Int.natAbs_dvd_natAbs.1 hn')

namespace Cipher

theorem decrypt_encrypt_eq_drift {spec : Spec} (h : spec.IsReversible) {ops : List Operation}
    (hspec : spec.operations = ops ++ [.map]) (hops : .map ∉ ops) (password wrong : String)
    (capacity : Nat) (text : String) :
    ∃ encrypted, (ofPassword spec password capacity).encrypt text = .ok encrypted ∧
      (ofPassword spec wrong capacity).decrypt encrypted =
        .ok (String.ofList ((text.toList.take capacity).mapIdx fun i c =>
          turn c ((PasswordKey.ofPassword password).drift (PasswordKey.ofPassword wrong)
            (Operation.meetings (text.toList.take capacity).length ops i)))) := by
  refine ⟨_, run_eq_ok h .encrypt text, ?_⟩
  rw [← Spec.foldl_stages_drift h hspec hops, decrypt, run_eq_ok h, String.toList_ofList,
    List.take_of_length_le (by rw [Spec.length_foldl_step]; exact List.length_take_le _ _)]
  rfl

/-- **A password with one wrong letter never gives a text of letters back.** Its
spec is valid and looks letters up at its end only; one of the letters that
meet the wrong one comes back as another. -/
theorem wrong_letter_shows {spec : Spec} (hspec : spec.validate = .ok ())
    (hmixing : .map ∉ spec.operations.take Operation.mixingSteps) (capacity : Nat)
    {password wrong : String} {a : Nat} {c d : Char}
    (hlength : password.toList.length = wrong.toList.length)
    (hpassword : password.toList[a]? = some c) (hwrong : wrong.toList[a]? = some d)
    (hothers : ∀ i, i ≠ a → password.toList[i]? = wrong.toList[i]?)
    (hgap : ¬ (13 : Int) ∣ c.toNat - d.toNat) {text : String}
    (hletters : ∀ x ∈ text.toList, LetterCase.ofChar? x ≠ none)
    (ha : a < min text.toList.length capacity) :
    ∃ encrypted decrypted, (ofPassword spec password capacity).encrypt text = .ok encrypted ∧
      (ofPassword spec wrong capacity).decrypt encrypted = .ok decrypted ∧
      decrypted ≠ String.ofList (text.toList.take capacity) := by
  have hspec := Spec.validate_eq_ok_iff.1 hspec
  have hreversible : spec.IsReversible := ⟨hspec.mapping, hspec.shift, hspec.salt⟩
  obtain ⟨ops, hops, htake, hkeyed, hcount⟩ := hspec.exists_mixing
  rw [htake] at hmixing
  obtain ⟨encrypted, hencrypt, hdecrypt⟩ := decrypt_encrypt_eq_drift hreversible hops hmixing
    password wrong capacity text
  refine ⟨encrypted, _, hencrypt, hdecrypt, ?_⟩
  intro heq
  have hcut : (text.toList.take capacity).length = min text.toList.length capacity := by
    rw [List.length_take, Nat.min_comm]
  have hlt : a < password.toList.length := (List.getElem?_eq_some_iff.1 hpassword).1
  -- the letter that meets the gap at the wrong index
  obtain ⟨i, hi, hmeet⟩ := Operation.exists_mem_meetings hkeyed (hcut ▸ ha)
  have hsame := congrArg (·[i]?) (String.ofList_injective heq)
  simp only [List.getElem?_mapIdx, List.getElem?_eq_getElem hi, Option.map_some,
    Option.some.injEq] at hsame
  have hletter := hletters _ (List.mem_of_mem_take (List.getElem_mem hi))
  have hturn := dvd_of_turn_eq hletter hsame
  have hdrift := PasswordKey.drift_eq_mul (p := fun place =>
      place % (password.toList.length + 1) = a)
    (fun place => by
      simpa using PasswordKey.gap_ofPassword hlength hpassword hwrong hothers place)
  rw [hdrift] at hturn
  refine not_dvd_mul ?_ ?_ hgap hturn
  · rw [List.countP_pos_iff]
    exact ⟨a, hmeet, decide_eq_true (Nat.mod_eq_of_lt (by omega))⟩
  · refine Nat.lt_of_le_of_lt List.countP_le_length ?_
    rw [Operation.length_meetings]
    omega

theorem getElem?_key_kez : ∀ i, i ≠ 2 → "key".toList[i]? = "kez".toList[i]? := by
  intro i hi
  rcases i with _ | _ | _ | i
  · simp
  · simp
  · exact absurd rfl hi
  · simp

theorem ofChar?_attack : ∀ x ∈ "Attack".toList, LetterCase.ofChar? x ≠ none := by
  have hall : ("Attack".toList.all fun x => (LetterCase.ofChar? x).isSome) = true := by decide
  intro x hx
  exact Option.isSome_iff_ne_none.1 (List.all_eq_true.1 hall x hx)

/-- The third of three letters is wrong, and a letter meets it twice. -/
theorem wrong_letter_shows_affine : Spec.affine.validate = .ok () ∧
    .map ∉ Spec.affine.operations.take Operation.mixingSteps ∧
    ¬ (13 : Int) ∣ 'y'.toNat - 'z'.toNat ∧ 2 < min "Attack".toList.length 9 ∧
    ∃ encrypted decrypted, (ofPassword .affine "key" 9).encrypt "Attack" = .ok encrypted ∧
      (ofPassword .affine "kez" 9).decrypt encrypted = .ok decrypted ∧
      decrypted ≠ String.ofList ("Attack".toList.take 9) := by
  have hmixing : .map ∉ Spec.affine.operations.take Operation.mixingSteps := by decide
  have hgap : ¬ (13 : Int) ∣ 'y'.toNat - 'z'.toNat := by decide
  have ha : 2 < min "Attack".toList.length 9 := by decide
  exact ⟨Spec.validate_affine, hmixing, hgap, ha, wrong_letter_shows Spec.validate_affine hmixing 9
    (by decide) (by decide) (by decide) getElem?_key_kez hgap ofChar?_attack ha⟩

end Cipher

/-- A spec that looks letters up between its keyed operations, in tables that
run backward, so that what is added before and after cancels out. -/
def Spec.mirrored : Spec where
  templateId := "mirrored"
  operations := [.substitute, .map, .xor, .map]
  substitutionShift := 7
  xorSalt := 19
  mapping := ⟨LetterCase.upper.alphabet.reverse, LetterCase.lower.alphabet.reverse⟩

namespace Cipher

/-- Its checks accept the spec, and a wrong letter does not show. -/
theorem wrong_letter_hides_mirrored : Spec.mirrored.validate = .ok () ∧
    "key".toList.length = "kez".toList.length ∧
    ("key".toList[2]? = some 'y' ∧ "kez".toList[2]? = some 'z' ∧
      ∀ i, i ≠ 2 → "key".toList[i]? = "kez".toList[i]?) ∧
    ¬ (13 : Int) ∣ 'y'.toNat - 'z'.toNat ∧
    (∀ x ∈ "Attack".toList, LetterCase.ofChar? x ≠ none) ∧ 2 < min "Attack".toList.length 9 ∧
    ∃ encrypted, (ofPassword .mirrored "key" 9).encrypt "Attack" = .ok encrypted ∧
      (ofPassword .mirrored "kez" 9).decrypt encrypted =
        .ok (String.ofList ("Attack".toList.take 9)) := by
  refine ⟨by decide +kernel, by decide, ⟨by decide, by decide, getElem?_key_kez⟩, by decide,
    ofChar?_attack, by decide, "Ohhoqy", by decide +kernel, by decide +kernel⟩

end Cipher

end SheetCipher
