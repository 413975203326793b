import PostfixArithmetic.Command.Run
import PostfixArithmetic.Proofs.Number.Digits

/-!
# Command lines of settings and an expression

Some words of the command line only set a flag, and some can only be part of the
expression. A command line that has the words of an expression next to each other,
with settings before and after them, asks for that expression under those settings.
-/

namespace PostfixArithmetic

/-- Words that set a flag and do nothing else. -/
def IsSetting (word : String) : Prop :=
  word ∈ ["--strict", "--trace", "-v", "--verbose"]

/-- Words that belong to the expression wherever they stand: those without a dash in
front, a lone dash, a dash and ASCII digits, and whatever starts with a dash and a
space. -/
def IsExpressionWord (word : String) : Prop :=
  word.toList.head? ≠ some '-' ∨ word.toList = ['-'] ∨
    (∃ digits, digits ≠ [] ∧ (∀ c ∈ digits, isAsciiDigit c = true) ∧
      word.toList = '-' :: digits) ∨
    ∃ rest, word.toList = '-' :: ' ' :: rest

/-- What some settings amount to. -/
def Options.ofSettings (settings : List String) : Options :=
  ⟨"--strict" ∈ settings, "--trace" ∈ settings, "-v" ∈ settings ∨ "--verbose" ∈ settings⟩

/-- A setting is one of four words. -/
theorem isSetting_iff {word : String} :
    IsSetting word ↔
      word = "--strict" ∨ word = "--trace" ∨ word = "-v" ∨ word = "--verbose" := by
  simp [IsSetting]

/-- The words for strictness and tracing are settings. -/
theorem isSetting_of_quiet {settings : List String}
    (h : ∀ s ∈ settings, s = "--strict" ∨ s = "--trace") : ∀ s ∈ settings, IsSetting s :=
  fun s hs => isSetting_iff.mpr ((h s hs).imp_right Or.inl)

/-- They do not ask for the journal. -/
theorem Options.verbose_ofSettings_of_quiet {settings : List String}
    (h : ∀ s ∈ settings, s = "--strict" ∨ s = "--trace") :
    (ofSettings settings).verbose = false := by
  refine decide_eq_false fun hv => ?_
  rcases hv with hv | hv
  · exact absurd (h _ hv) (by decide)
  · exact absurd (h _ hv) (by decide)

namespace Word

/-- The flag that a setting sets. -/
def settingFlag (word : String) : Flag :=
  if word = "--strict" then .strict else if word = "--trace" then .trace else .verbose

/-- What a setting is taken for. -/
def ofSetting (word : String) : Word :=
  if word = "-v" then short .verbose none else long (settingFlag word) none

/-- A setting is taken for an option without a value. -/
theorem classify_setting {word : String} (h : IsSetting word) :
    classify word = .ok (ofSetting word) := by
  rcases isSetting_iff.mp h with rfl | rfl | rfl | rfl <;> rfl

/-- A setting is not the double dash. -/
theorem ne_doubleDash_of_setting {word : String} (h : IsSetting word) : word ≠ "--" := by
  rcases isSetting_iff.mp h with rfl | rfl | rfl | rfl <;> decide

/-- A setting sets its flag. -/
theorem effect_setting {word : String} (h : IsSetting word) :
    effect word (ofSetting word) = .ok ⟨[settingFlag word], []⟩ := by
  rcases isSetting_iff.mp h with rfl | rfl | rfl | rfl <;> rfl

/-- No setting is part of an expression. -/
theorem ofSetting_ne_positional (word : String) : ofSetting word ≠ .positional := by
  unfold ofSetting
  split <;> exact Word.noConfusion

/-- No setting asks for help. -/
theorem settingFlag_ne_help (word : String) : settingFlag word ≠ .help := by
  unfold settingFlag
  split
  · exact Flag.noConfusion
  · split <;> exact Flag.noConfusion

/-- A dash and ASCII digits look like a negative number. -/
theorem looksNegative_digits {digits : List Char} (hne : digits ≠ [])
    (hd : ∀ c ∈ digits, isAsciiDigit c = true) : looksNegative ('-' :: digits) = true := by
  have hlast : ('-' :: digits).getLast? ≠ some '\n' := by
    rw [List.getLast?_cons_of_ne_nil hne]
    intro hc
    have hn := hd _ (List.mem_of_getLast? hc)
    exact Bool.false_ne_true hn
  have hdrop : digits.dropWhile isDecimalDigit = [] :=
    List.dropWhile_eq_nil_iff.mpr fun c hc => isDecimalDigit_of_isAsciiDigit (hd c hc)
  simp only [looksNegative, if_neg hlast, hdrop]
  exact decide_eq_true hne

/-- A word without a dash in front, and a lone dash, belong to the expression. -/
theorem classify_of_not_dashed {word : String}
    (h : word.toList.head? ≠ some '-' ∨ word.toList = ['-']) :
    classify word = .ok .positional := by
  rcases h with h | h
  · rw [classify]
    split
    · rename_i hw
      rw [hw] at h
      exact absurd rfl h
    · rename_i hw
      rw [hw] at h
      exact absurd rfl h
    · rfl
  · simp only [classify, h]

/-- Behind a single dash a letter without an option leaves it to the rest of the word
whether it belongs to the expression. -/
theorem classify_of_no_option {word : String} {letter : Char} {letters : List Char}
    (h : word.toList = '-' :: letter :: letters) (hl : letter ≠ '-')
    (hs : Flag.short? letter = none) : classify word = .ok (ofUnnamed word.toList) := by
  rw [classify]
  split
  · rename_i hw
    rw [h] at hw
    cases hw
    exact absurd rfl hl
  · rename_i hw
    rw [h] at hw
    cases hw
    rw [hs]
  · rename_i hw
    exact absurd h (hw _ _)

/-- A letter of a short option is none of the ASCII digits. -/
theorem short?_of_isAsciiDigit {c : Char} (h : isAsciiDigit c = true) :
    Flag.short? c = none := by
  rw [Flag.short?, List.lookup_eq_none_iff]
  intro entry he
  rw [bne_iff_ne]
  rintro rfl
  rcases List.mem_cons.mp he with rfl | hv
  · exact Bool.false_ne_true h
  · rw [List.mem_singleton.mp hv] at h
    exact Bool.false_ne_true h

/-- A word of the expression is taken for one. -/
theorem classify_expressionWord {word : String} (h : IsExpressionWord word) :
    classify word = .ok .positional := by
  rcases h with h | h | ⟨digits, hne, hd, hw⟩ | ⟨rest, hw⟩
  · exact classify_of_not_dashed (Or.inl h)
  · exact classify_of_not_dashed (Or.inr h)
  · obtain ⟨c, digits, rfl⟩ := List.exists_cons_of_ne_nil hne
    have hc := hd c List.mem_cons_self
    have hdash : c ≠ '-' := by rintro rfl; exact Bool.false_ne_true hc
    rw [classify_of_no_option hw hdash (short?_of_isAsciiDigit hc), hw, ofUnnamed,
      looksNegative_digits hne hd]
    rfl
  · have hspace : ' ' ∈ '-' :: ' ' :: rest := by simp
    rw [classify_of_no_option hw (by decide) rfl, hw, ofUnnamed]
    simp [hspace]

/-- A word of the expression is not the double dash. -/
theorem ne_doubleDash_of_expressionWord {word : String} (h : IsExpressionWord word) :
    word ≠ "--" := by
  rintro rfl
  rcases h with h | h | ⟨digits, hne, hd, hw⟩ | ⟨rest, hw⟩
  · exact h rfl
  · exact absurd h (by decide)
  · have hc : digits = ['-'] := (List.cons.inj hw).2.symm
    rw [hc] at hd
    exact Bool.false_ne_true (hd '-' List.mem_cons_self)
  · exact absurd hw (by simp)

/-- Settings together set the flags of each. -/
theorem collect_settings {settings : List String} (h : ∀ s ∈ settings, IsSetting s) :
    collect (settings.map fun s => (s, ofSetting s)) = .ok ⟨settings.map settingFlag, []⟩ := by
  induction settings with
  | nil => rfl
  | cons s settings ih =>
    obtain ⟨hs, hrest⟩ := List.forall_mem_cons.mp h
    have hhelp : Flag.help ∉ [settingFlag s] := by
      rw [List.mem_singleton]
      exact (settingFlag_ne_help s).symm
    rw [List.map_cons, collect, effect_setting hs]
    change (if Flag.help ∈ [settingFlag s] then _ else _) = _
    rw [if_neg hhelp, ih hrest]
    rfl

end Word

namespace Request

open Word

/-- Words that are classified one by one, none of them a double dash, are classified
together. -/
theorem classifyAll_append {words others : List String} {taken : String → Word}
    (h : ∀ w ∈ words, w ≠ "--" ∧ classify w = .ok (taken w))
    {entries : List (String × Word)} (ho : classifyAll others = .ok entries) :
    classifyAll (words ++ others) = .ok (words.map (fun w => (w, taken w)) ++ entries) := by
  induction words with
  | nil => exact ho
  | cons w words ih =>
    obtain ⟨⟨hw, hc⟩, hrest⟩ := List.forall_mem_cons.mp h
    rw [List.cons_append, classifyAll, if_neg hw, hc, ih hrest]
    rfl

/-- Settings are classified as such. -/
theorem settings_classified {settings : List String} (h : ∀ s ∈ settings, IsSetting s) :
    ∀ s ∈ settings, s ≠ "--" ∧ classify s = .ok (ofSetting s) := fun s hs =>
  ⟨ne_doubleDash_of_setting (h s hs), classify_setting (h s hs)⟩

/-- The words of an expression are classified as such. -/
theorem expressionWords_classified {words : List String} (h : ∀ w ∈ words, IsExpressionWord w) :
    ∀ w ∈ words, w ≠ "--" ∧ classify w = .ok .positional := fun w hw =>
  ⟨ne_doubleDash_of_expressionWord (h w hw), classify_expressionWord (h w hw)⟩

/-- No entry of a setting belongs to the expression. -/
theorem not_isPositional_settings (settings : List String) :
    ∀ e ∈ settings.map fun s => (s, ofSetting s), isPositional e = false := by
  intro e he
  obtain ⟨s, -, rfl⟩ := List.mem_map.mp he
  exact decide_eq_false (ofSetting_ne_positional s)

/-- Every entry of a word of the expression does. -/
theorem isPositional_expressionWords (words : List String) :
    ∀ e ∈ words.map fun w => (w, Word.positional), isPositional e = true := by
  intro e he
  obtain ⟨w, -, rfl⟩ := List.mem_map.mp he
  rfl

/-- Between settings the expression is found, and the settings are left over. -/
theorem split_entries {before words after : List (String × Word)}
    (hb : ∀ e ∈ before, isPositional e = false) (hw : ∀ e ∈ words, isPositional e = true)
    (ha : ∀ e ∈ after, isPositional e = false) :
    (((before ++ (words ++ after)).dropWhile (!isPositional ·)).takeWhile isPositional = words) ∧
      (before ++ (words ++ after)).takeWhile (!isPositional ·) ++
        ((before ++ (words ++ after)).dropWhile (!isPositional ·)).dropWhile isPositional =
          before ++ after := by
  have hbn : ∀ e ∈ before, (!isPositional e) = true := fun e he => by rw [hb e he]; rfl
  cases words with
  | nil =>
    have hall : ∀ e ∈ before ++ ([] ++ after), (!isPositional e) = true := by
      intro e he
      rcases List.mem_append.mp he with he | he
      · exact hbn e he
      · rw [ha e he]
        rfl
    have hnone : ∀ e ∈ ([] : List (String × Word)).head?, (!isPositional e) = false :=
      fun e he => by cases he
    obtain ⟨ht, hd⟩ := span_append hall hnone
    rw [List.append_nil] at ht hd
    rw [ht, hd]
    exact ⟨rfl, List.append_nil _⟩
  | cons w words =>
    have hfirst : ∀ e ∈ (w :: words ++ after).head?, (!isPositional e) = false := by
      rintro e ⟨⟩
      rw [hw w List.mem_cons_self]
      rfl
    have hlast : ∀ e ∈ after.head?, isPositional e = false := fun e he =>
      ha e (List.mem_of_mem_head? he)
    obtain ⟨ht, hd⟩ := span_append hbn hfirst
    obtain ⟨hti, hdi⟩ := span_append hw hlast
    rw [ht, hd, hti, hdi]
    exact ⟨rfl, rfl⟩

/-- A flag is set if one of the settings is a word for it. -/
theorem mem_map_settingFlag {settings words : List String} {flag : Flag}
    (h : ∀ s ∈ settings, settingFlag s = flag ↔ s ∈ words) :
    flag ∈ settings.map settingFlag ↔ ∃ s ∈ words, s ∈ settings := by
  rw [List.mem_map]
  constructor
  · rintro ⟨s, hs, hf⟩
    exact ⟨s, (h s hs).mp hf, hs⟩
  · rintro ⟨s, hw, hs⟩
    exact ⟨s, hs, (h s hs).mpr hw⟩

/-- The options are read off the flags of the settings. -/
theorem options_of_settings {settings : List String} (h : ∀ s ∈ settings, IsSetting s) :
    (⟨.strict ∈ settings.map settingFlag, .trace ∈ settings.map settingFlag,
      .verbose ∈ settings.map settingFlag⟩ : Options) = Options.ofSettings settings := by
  have hstrict : ∀ s ∈ settings, settingFlag s = .strict ↔ s ∈ ["--strict"] := by
    intro s hs
    rcases isSetting_iff.mp (h s hs) with rfl | rfl | rfl | rfl <;> decide
  have htrace : ∀ s ∈ settings, settingFlag s = .trace ↔ s ∈ ["--trace"] := by
    intro s hs
    rcases isSetting_iff.mp (h s hs) with rfl | rfl | rfl | rfl <;> decide
  have hverbose : ∀ s ∈ settings, settingFlag s = .verbose ↔ s ∈ ["-v", "--verbose"] := by
    intro s hs
    rcases isSetting_iff.mp (h s hs) with rfl | rfl | rfl | rfl <;> decide
  simp only [Options.ofSettings, mem_map_settingFlag hstrict, mem_map_settingFlag htrace,
    mem_map_settingFlag hverbose, List.mem_cons, List.not_mem_nil, or_false, exists_eq_left,
    exists_eq_or_imp]

/-- Settings around the words of an expression ask for that expression under those
settings. -/
theorem parse_settings {before words after : List String}
    (hb : ∀ s ∈ before, IsSetting s) (hw : ∀ w ∈ words, IsExpressionWord w)
    (ha : ∀ s ∈ after, IsSetting s) :
    parse (before ++ words ++ after) =
      .ok (.evaluate (Options.ofSettings (before ++ after)) words) := by
  have hsettings : ∀ s ∈ before ++ after, IsSetting s := fun s hs =>
    (List.mem_append.mp hs).elim (hb s) (ha s)
  have hafter : classifyAll after = .ok (after.map fun s => (s, ofSetting s)) := by
    have hc := classifyAll_append (settings_classified ha) (show classifyAll [] = .ok [] from rfl)
    rwa [List.append_nil, List.append_nil] at hc
  have hentries := classifyAll_append (settings_classified hb)
    (classifyAll_append (expressionWords_classified hw) hafter)
  obtain ⟨hexpression, hrest⟩ := split_entries (not_isPositional_settings before)
    (isPositional_expressionWords words) (not_isPositional_settings after)
  have hhelp : Flag.help ∉ (before ++ after).map settingFlag := fun hm => by
    obtain ⟨s, -, hs⟩ := List.mem_map.mp hm
    exact settingFlag_ne_help s hs
  have herase : words.erase "--" = words :=
    List.erase_of_not_mem fun hm => ne_doubleDash_of_expressionWord (hw _ hm) rfl
  rw [parse, List.append_assoc, hentries]
  change (collect _ >>= _) = _
  rw [hrest, ← List.map_append, collect_settings hsettings]
  change (if Flag.help ∈ _ then _ else _) = _
  rw [if_neg hhelp]
  change Except.ok _ = _
  have hwords : (words.map fun w => (w, Word.positional)).map Prod.fst = words := by
    rw [List.map_map]
    exact List.map_id words
  rw [options_of_settings hsettings, hexpression, hwords, herase]

end Request

end PostfixArithmetic
