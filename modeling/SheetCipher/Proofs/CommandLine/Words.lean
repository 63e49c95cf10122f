import SheetCipher.CommandLine.Words

/-!
# Words — how a command line is read

A level of the command line is read item by item: an option, with its value in
the same word or in the next one, or another word (`scans_iff`). What is read
before the word that ends a level does not depend on what follows it, and a
flag in front of a level changes nothing but that it is there
(`Scans.withFlag`).
-/

namespace SheetCipher

namespace Level

variable {level : Level} {found next last : Found} {words rest left : List String}

/-- The words of one option, and what is found with it. -/
inductive Gives (level : Level) (found next : Found) : List String → Prop where
  /-- The value stands in the word. -/
  | within {word : String} {name : OptionName} {value : String}
      (hoption : level.option? (Word.ofChars word.toList) = some (name, some value))
      (hvalue : name.takesValue = true)
      (hgive : found.give level.accepts name value = .ok next) : Gives level found next [word]
  /-- The value is the next word. -/
  | behind {word value : String} {name : OptionName}
      (hoption : level.option? (Word.ofChars word.toList) = some (name, none))
      (hvalue : name.takesValue = true) (hplain : Word.ofChars value.toList = .plain)
      (hgive : found.give level.accepts name value = .ok next) :
      Gives level found next [word, value]
  /-- There is no value. -/
  | flag {word : String} {name : OptionName}
      (hoption : level.option? (Word.ofChars word.toList) = some (name, none))
      (hvalue : name.takesValue = false)
      (hgive : found.giveFlag level.accepts name = .ok next) : Gives level found next [word]

/-- How a level is read from words on, up to what is found and what is left. -/
inductive Scans (level : Level) : Found → List String → Found → List String → Prop where
  | nil (found : Found) : Scans level found [] found []
  | ends {found : Found} {word : String} {rest : List String}
      (hword : Word.ofChars word.toList = .plain) (hends : level.endsAtWord = true) :
      Scans level found (word :: rest) found (word :: rest)
  | stopper {found last : Found} {word : String} {rest : List String}
      (hword : Word.ofChars word.toList = .stopper)
      (hwords : rest.foldlM (Found.addWord level.wordLimit) found = .ok last) :
      Scans level found (word :: rest) last []
  | word {found next last : Found} {word : String} {rest left : List String}
      (hword : Word.ofChars word.toList = .plain) (hends : level.endsAtWord = false)
      (hadd : found.addWord level.wordLimit word = .ok next)
      (hlater : Scans level next rest last left) : Scans level found (word :: rest) last left
  | option {found next last : Found} {used rest left : List String}
      (hgives : level.Gives found next used) (hlater : Scans level next rest last left) :
      Scans level found (used ++ rest) last left

/-- Only a word with an option in it is looked up. -/
theorem long_or_short_of_option? {word : Word} {name : OptionName} {value? : Option String}
    (h : level.option? word = some (name, value?)) :
    (∃ name value?, word = .long name value?) ∨ ∃ letter rest, word = .short letter rest := by
  cases word with
  | long name value? => exact .inl ⟨name, value?, rfl⟩
  | short letter rest => exact .inr ⟨letter, rest, rfl⟩
  | stopper | plain => cases h

theorem Gives.scan {used : List String} (h : level.Gives found next used) (rest : List String) :
    level.scan found (used ++ rest) = level.scan next rest := by
  cases h with
  | @within word name value hoption hvalue hgive =>
      rw [List.singleton_append, Level.scan]
      rcases long_or_short_of_option? hoption with ⟨_, _, hword⟩ | ⟨_, _, hword⟩
      all_goals
        rw [hword] at hoption
        simp [hword, hoption, hvalue, hgive]
  | @behind word value name hoption hvalue hplain hgive =>
      rw [List.cons_append, Level.scan]
      rcases long_or_short_of_option? hoption with ⟨_, _, hword⟩ | ⟨_, _, hword⟩
      all_goals
        rw [hword] at hoption
        simp [hword, hoption, hvalue, hplain, hgive]
  | @flag word name hoption hvalue hgive =>
      rw [List.singleton_append, Level.scan]
      rcases long_or_short_of_option? hoption with ⟨_, _, hword⟩ | ⟨_, _, hword⟩
      all_goals
        rw [hword] at hoption
        simp [hword, hoption, hvalue, hgive]

theorem Scans.scan {words : List String} (h : level.Scans found words last left) :
    level.scan found words = .ok (last, left) := by
  induction h with
  | nil => rw [Level.scan]
  | ends hword hends =>
      rw [Level.scan]
      simp [hword, hends]
  | stopper hword hwords =>
      rw [Level.scan]
      simp only [hword, hwords]
      rfl
  | word hword hends hadd hlater ih =>
      rw [Level.scan]
      simpa [hword, hends, hadd] using ih
  | option hgives hlater ih => rw [hgives.scan, ih]

theorem scans_of_scan {words : List String} (h : level.scan found words = .ok (last, left)) :
    level.Scans found words last left := by
  fun_induction Level.scan level found words with
  | case1 found =>
      cases h
      exact .nil _
  | case2 found word rest hword hends =>
      cases h
      exact .ends hword hends
  | case3 found word rest hword hends next hadd ih =>
      exact .word hword (Bool.eq_false_iff.2 hends) hadd (ih h)
  | case5 found word rest hword =>
      cases hwords : rest.foldlM (Found.addWord level.wordLimit) found with
      | ok last =>
          rw [hwords] at h
          cases h
          exact .stopper hword hwords
      | error stop =>
          rw [hwords] at h
          cases h
  | case7 found word rest name value hvalue next hgive _ _ hoption ih =>
      exact .option (.within hoption hvalue hgive) (ih h)
  | case11 found word name hvalue value rest next hgive hplain _ _ hoption ih =>
      exact .option (.behind hoption hvalue hplain hgive) (ih h)
  | case13 found word rest name hvalue next hgive _ _ hoption ih =>
      exact .option (.flag hoption (Bool.eq_false_iff.2 hvalue) hgive) (ih h)
  | case4 | case6 | case8 | case9 | case10 | case12 | case14 => cases h

/-- **A level is read in one way.** -/
theorem scan_eq_ok_iff {words : List String} :
    level.scan found words = .ok (last, left) ↔ level.Scans found words last left :=
  ⟨scans_of_scan, Scans.scan⟩

/-- **What is read before the word that ends a level** is read whatever comes
behind that word. -/
theorem Scans.split {words : List String} {name : String}
    (h : level.Scans found words last (name :: left)) :
    ∃ before, words = before ++ name :: left ∧
      ∀ later, level.Scans found (before ++ name :: later) last (name :: later) := by
  generalize hall : name :: left = all at h
  induction h with
  | nil | stopper => cases hall
  | ends hword hends =>
      cases hall
      exact ⟨[], rfl, fun later => .ends hword hends⟩
  | word hword hends hadd _ ih =>
      obtain ⟨before, hbefore, hlater⟩ := ih hall
      exact ⟨_ :: before, by rw [hbefore]; rfl, fun later => .word hword hends hadd (hlater later)⟩
  | @option _ _ _ used _ _ hgives _ ih =>
      obtain ⟨before, hbefore, hlater⟩ := ih hall
      refine ⟨used ++ before, by rw [hbefore, List.append_assoc], fun later => ?_⟩
      rw [List.append_assoc]
      exact .option hgives (hlater later)

end Level

/-! ## One flag more -/

namespace Found

variable {found next : Found} {flag : OptionName}

/-- What is found with a flag in front. -/
def withFlag (found : Found) (flag : OptionName) : Found :=
  { found with options := (flag, "") :: found.options }

theorem value?_withFlag (found : Found) (flag name : OptionName) :
    (found.withFlag flag).value? name = if name = flag then some "" else found.value? name := by
  rw [value?, withFlag, List.lookup_cons]
  by_cases h : name = flag
  · simp [h]
  · simp [beq_false_of_ne h, h, value?]

theorem has_withFlag_of_ne {name : OptionName} (h : name ≠ flag) :
    (found.withFlag flag).has name = found.has name := by
  rw [has, value?_withFlag, if_neg h, has]

theorem give_eq_ok_iff {accepts : OptionName → String → Bool} {name : OptionName}
    {value : String} : found.give accepts name value = .ok next ↔
      found.has name = false ∧ accepts name value = true ∧
        next = { found with options := found.options ++ [(name, value)] } := by
  rw [give]
  split
  · rename_i h
    simp only [reduceCtorEq, false_iff]
    rintro ⟨hhas, haccepts, _⟩
    simp [hhas, haccepts] at h
  · rename_i h
    simp only [Bool.or_eq_true, Bool.not_eq_true', not_or, Bool.not_eq_true, Bool.not_eq_false] at h
    simp [h.1, h.2, eq_comm]

theorem has_append {name : OptionName} {value : String} {other : OptionName} :
    ({ found with options := found.options ++ [(name, value)] } : Found).has other = false ↔
      found.has other = false ∧ other ≠ name := by
  by_cases h : other = name
  · simp [has, value?, List.lookup_append, h]
  · simp [has, value?, List.lookup_append, List.lookup_cons, beq_false_of_ne h, h]

/-- An option that is not the flag is noted behind it. -/
theorem give_withFlag {accepts : OptionName → String → Bool} {name : OptionName} {value : String}
    (h : found.give accepts name value = .ok next) (hnext : next.has flag = false) :
    found.has flag = false ∧
      (found.withFlag flag).give accepts name value = .ok (next.withFlag flag) := by
  obtain ⟨hhas, haccepts, rfl⟩ := give_eq_ok_iff.1 h
  obtain ⟨hflag, hne⟩ := has_append.1 hnext
  refine ⟨hflag, give_eq_ok_iff.2 ⟨?_, haccepts, rfl⟩⟩
  rwa [has_withFlag_of_ne (Ne.symm hne)]

theorem giveFlag_withFlag {accepts : OptionName → String → Bool} {name : OptionName}
    (h : found.giveFlag accepts name = .ok next) (hnext : next.has flag = false) :
    found.has flag = false ∧
      (found.withFlag flag).giveFlag accepts name = .ok (next.withFlag flag) := by
  cases name with
  | help | version => cases h
  | config | maxLen | logLevel | id | password | output | format | viaGrid =>
      exact give_withFlag h hnext

theorem addWord_withFlag {limit : Nat} {word : String} (h : found.addWord limit word = .ok next) :
    next.options = found.options ∧
      (found.withFlag flag).addWord limit word = .ok (next.withFlag flag) := by
  rw [addWord] at h
  split at h
  · rename_i hlt
    cases h
    exact ⟨rfl, if_pos hlt⟩
  · cases h

theorem foldlM_addWord_withFlag {limit : Nat} {words : List String}
    (h : words.foldlM (addWord limit) found = .ok next) :
    next.options = found.options ∧
      words.foldlM (addWord limit) (found.withFlag flag) = .ok (next.withFlag flag) := by
  induction words generalizing found with
  | nil =>
      cases h
      exact ⟨rfl, rfl⟩
  | cons word words ih =>
      rw [List.foldlM_cons] at h ⊢
      cases hadd : found.addWord limit word with
      | error stop =>
          rw [hadd] at h
          cases h
      | ok middle =>
          rw [hadd] at h
          obtain ⟨hoptions, hflag⟩ := addWord_withFlag hadd
          obtain ⟨hoptions', hflag'⟩ := ih h
          rw [hflag]
          exact ⟨hoptions'.trans hoptions, hflag'⟩

theorem has_congr {name : OptionName} (h : next.options = found.options) :
    next.has name = found.has name := by
  rw [has, has, value?, value?, h]

end Found

namespace Level

variable {level : Level} {found next last : Found} {words used left : List String}
  {flag : OptionName}

theorem Gives.withFlag (h : level.Gives found next used) (hnext : next.has flag = false) :
    found.has flag = false ∧ level.Gives (found.withFlag flag) (next.withFlag flag) used := by
  cases h with
  | within hoption hvalue hgive =>
      obtain ⟨hflag, hgive⟩ := Found.give_withFlag hgive hnext
      exact ⟨hflag, .within hoption hvalue hgive⟩
  | behind hoption hvalue hplain hgive =>
      obtain ⟨hflag, hgive⟩ := Found.give_withFlag hgive hnext
      exact ⟨hflag, .behind hoption hvalue hplain hgive⟩
  | flag hoption hvalue hgive =>
      obtain ⟨hflag, hgive⟩ := Found.giveFlag_withFlag hgive hnext
      exact ⟨hflag, .flag hoption hvalue hgive⟩

/-- **A flag in front** that the words do not give is found besides what they
give. -/
theorem Scans.withFlag (h : level.Scans found words last left) (hlast : last.has flag = false) :
    found.has flag = false ∧
      level.Scans (found.withFlag flag) words (last.withFlag flag) left := by
  induction h with
  | nil found => exact ⟨hlast, .nil _⟩
  | ends hword hends => exact ⟨hlast, .ends hword hends⟩
  | stopper hword hwords =>
      obtain ⟨hoptions, hwords⟩ := Found.foldlM_addWord_withFlag hwords
      exact ⟨(Found.has_congr hoptions).symm.trans hlast, .stopper hword hwords⟩
  | word hword hends hadd _ ih =>
      obtain ⟨hnext, hlater⟩ := ih hlast
      obtain ⟨hoptions, hadd⟩ := Found.addWord_withFlag hadd
      exact ⟨(Found.has_congr hoptions).symm.trans hnext, .word hword hends hadd hlater⟩
  | option hgives _ ih =>
      obtain ⟨hnext, hlater⟩ := ih hlast
      obtain ⟨hflag, hgives⟩ := hgives.withFlag hnext
      exact ⟨hflag, .option hgives hlater⟩

end Level

end SheetCipher
