import FieldRules.Arguments
import FieldRules.Proofs.Outcomes

/-!
# Words in front of a rule

Words that only choose how a rule is written leave a reading to which one more choice can be added:
two dashes and a rule text, or an option that names a file.  Neither changes anything else in the
settings.  The proof follows the reading word by word: options are not ended before two dashes come,
and checking a value does not touch the rule.
-/

namespace FieldRules

theorem Draft.rule_assign {draft next : Draft} {key : Key} {value : String}
    (accepted : draft.assign key value = .ok next) : next.rule = draft.rule := by
  unfold assign at accepted
  split at accepted
  · cases accepted
  · split at accepted
    all_goals
      split at accepted <;> cases accepted
      rfl

namespace Reading

variable {reading next : Reading}

/-- Checking a value changes neither the rule nor whether options have been ended, and leaves
nothing to check. -/
theorem settle_keeps (accepted : reading.settle = .ok next) :
    next.draft.rule = reading.draft.rule ∧ next.onlyTexts = reading.onlyTexts ∧
      next.pending = .nothing := by
  unfold settle at accepted
  split at accepted
  · rename_i nothing
    cases accepted
    exact ⟨rfl, rfl, nothing⟩
  · cases accepted
  · obtain ⟨draft, assigned, rfl⟩ := outcome_map_eq_ok.mp accepted
    exact ⟨Draft.rule_assign assigned, rfl, rfl⟩

theorem onlyTexts_takeRule {text : String} (accepted : reading.takeRule text = .ok next) :
    next.onlyTexts = reading.onlyTexts := by
  unfold takeRule at accepted
  split at accepted
  · cases accepted
  · obtain ⟨settled, settledEq, rfl⟩ := outcome_map_eq_ok.mp accepted
    exact (settle_keeps settledEq).2.1

theorem onlyTexts_takeSwitch {switch : Switch} (accepted : reading.takeSwitch switch = .ok next) :
    next.onlyTexts = reading.onlyTexts := by
  obtain ⟨settled, settledEq, accepted⟩ := outcome_bind_eq_ok.mp accepted
  have kept := (settle_keeps settledEq).2.1
  cases switch with
  | valued key =>
      cases accepted
      exact kept
  | pretty =>
      obtain ⟨draft, _, rfl⟩ := outcome_map_eq_ok.mp accepted
      exact kept
  | help => cases accepted
  | version => cases accepted

theorem onlyTexts_takeValue {key : Key} {value : List Char}
    (accepted : reading.takeValue key value = .ok next) : next.onlyTexts = reading.onlyTexts := by
  obtain ⟨settled, settledEq, accepted⟩ := outcome_bind_eq_ok.mp accepted
  obtain ⟨draft, _, rfl⟩ := outcome_map_eq_ok.mp accepted
  exact (settle_keeps settledEq).2.1

theorem onlyTexts_takeLong {name : List Char} {value : Option (List Char)}
    (accepted : reading.takeLong name value = .ok next) : next.onlyTexts = reading.onlyTexts := by
  unfold takeLong at accepted
  split at accepted
  · cases accepted
  · exact onlyTexts_takeValue accepted
  · cases accepted
  · exact onlyTexts_takeSwitch accepted

theorem onlyTexts_takeLetters {letters : List Char}
    (accepted : reading.takeLetters letters = .ok next) : next.onlyTexts = reading.onlyTexts := by
  induction letters generalizing reading with
  | nil =>
      cases accepted
      rfl
  | cons letter letters induction =>
      unfold takeLetters at accepted
      split at accepted
      · cases accepted
      · exact onlyTexts_takeValue accepted
      · exact onlyTexts_takeValue accepted
      · obtain ⟨between, taken, accepted⟩ := outcome_bind_eq_ok.mp accepted
        rw [induction accepted, onlyTexts_takeSwitch taken]

theorem eq_of_endOfOptions {text : List Char} (ends : ArgumentForm.ofText text = .endOfOptions) :
    text = ['-', '-'] := by
  unfold ArgumentForm.ofText at ends
  split at ends
  · rfl
  · cases ends
  · cases ends
  · cases ends

theorem onlyTexts_take {argument : String} (accepted : reading.take argument = .ok next)
    (notEnd : argument ≠ "--") : next.onlyTexts = reading.onlyTexts := by
  unfold take at accepted
  split at accepted
  · exact onlyTexts_takeRule accepted
  · split at accepted
    · rename_i ends
      have dashes : argument.toList = "--".toList := eq_of_endOfOptions ends
      exact absurd (String.toList_inj.mp dashes) notEnd
    · exact onlyTexts_takeLong accepted
    · exact onlyTexts_takeLetters accepted
    · cases accepted
      rfl
    · exact onlyTexts_takeRule accepted

theorem onlyTexts_foldlM {words : List String} (accepted : words.foldlM take reading = .ok next)
    (openEnded : "--" ∉ words) : next.onlyTexts = reading.onlyTexts := by
  induction words generalizing reading with
  | nil =>
      cases accepted
      rfl
  | cons word words induction =>
      rw [List.mem_cons, not_or] at openEnded
      rw [List.foldlM_cons] at accepted
      obtain ⟨between, taken, accepted⟩ := outcome_bind_eq_ok.mp accepted
      rw [induction accepted openEnded.2, onlyTexts_take taken (Ne.symm openEnded.1)]

theorem settle_endOptions {settled : Reading} (settledEq : reading.settle = .ok settled) :
    { reading with onlyTexts := true }.settle = .ok { settled with onlyTexts := true } := by
  obtain ⟨draft, pending, onlyTexts⟩ := reading
  cases pending with
  | nothing =>
      cases settledEq
      rfl
  | awaiting key => cases settledEq
  | given key value =>
      obtain ⟨next, assigned, rfl⟩ := outcome_map_eq_ok.mp settledEq
      simp only [settle, assigned, Except.map]

theorem take_dashes_rule {settled : Reading} (openEnded : reading.onlyTexts = false)
    (noRule : reading.draft.rule = none) (settledEq : reading.settle = .ok settled) (rule : String) :
    ["--", rule].foldlM take reading =
      .ok { settled with draft := { settled.draft with rule := some rule }, onlyTexts := true } := by
  have form : ArgumentForm.ofText "--".toList = .endOfOptions := by decide
  have ends : reading.take "--" = .ok { reading with onlyTexts := true } := by
    rw [take, if_neg (by simp [openEnded]), form]
  have taken : { reading with onlyTexts := true }.take rule =
      .ok { settled with draft := { settled.draft with rule := some rule }, onlyTexts := true } := by
    rw [take, if_pos rfl, takeRule, if_neg (by simp [noRule]), settle_endOptions settledEq]
    rfl
  simp only [List.foldlM_cons, List.foldlM_nil, ends, bind, Except.bind, taken, pure, Except.pure]

theorem take_valued {settled : Reading} (openEnded : reading.onlyTexts = false)
    (settledEq : reading.settle = .ok settled) {name : List Char} {key : Key} {word value : String}
    (known : Switch.ofName? name = some (.valued key)) (noMark : '=' ∉ name)
    (written : word.toList = '-' :: '-' :: (name ++ '=' :: value.toList)) :
    reading.take word =
      (settled.draft.assign key value).map fun draft => { settled with draft := draft } := by
  have form : ArgumentForm.ofText word.toList = .long name (some value.toList) := by
    have allowed : ∀ character ∈ name, (character != '=') = true := by
      intro character member
      have different : character ≠ '=' := ne_of_mem_of_not_mem member noMark
      simpa using different
    obtain ⟨first, others, filled⟩ : ∃ first others,
        name ++ '=' :: value.toList = first :: others :=
      List.exists_cons_of_ne_nil (List.append_ne_nil_of_right_ne_nil name (List.cons_ne_nil _ _))
    have taken : (first :: others).takeWhile (· != '=') = name := by
      rw [← filled, List.takeWhile_append_of_pos allowed]
      simp
    have dropped : (first :: others).dropWhile (· != '=') = '=' :: value.toList := by
      rw [← filled, List.dropWhile_append_of_pos allowed]
      simp
    rw [written, filled]
    simp only [ArgumentForm.ofText, taken, dropped]
  rw [take, if_neg (by simp [openEnded]), form]
  simp only [takeLong, known, takeValue, settledEq, Except.bind, String.ofList_toList]

end Reading

namespace Settings

theorem ofDraft_eq_ok {draft : Draft} {levelVariable : Option String} {settings : Settings}
    (accepted : ofDraft draft levelVariable = .ok settings) :
    chooseLevel draft.logLevel levelVariable = .ok settings.logLevel ∧
      settings =
        ⟨draft.rule, draft.file, draft.format.getD .tree, draft.pretty, settings.logLevel⟩ := by
  obtain ⟨level, chosen, accepted⟩ := outcome_bind_eq_ok.mp accepted
  split at accepted
  · cases accepted
  · cases accepted
    exact ⟨chosen, rfl⟩

/-- The words are accepted as options that neither give a rule nor name a file. -/
structure ChoosesOutput (words : List String) (levelVariable : Option String)
    (settings : Settings) : Prop where
  accepted : ofArguments words levelVariable = .ok settings
  noRule : settings.rule = none
  noFile : settings.file = none
  openEnded : "--" ∉ words

namespace ChoosesOutput

variable {words : List String} {levelVariable : Option String} {settings : Settings}

/-- The reading that the words leave, before and after its last value is checked. -/
theorem exists_reading (chooses : ChoosesOutput words levelVariable settings) :
    ∃ reading settled : Reading, words.foldlM Reading.take Reading.start = .ok reading ∧
      reading.settle = .ok settled ∧ settled.draft.rule = none ∧ settled.draft.file = none ∧
      chooseLevel settled.draft.logLevel levelVariable = .ok settings.logLevel ∧
      settings = ⟨none, none, settled.draft.format.getD .tree, settled.draft.pretty,
        settings.logLevel⟩ := by
  obtain ⟨reading, taken, accepted⟩ := outcome_bind_eq_ok.mp chooses.accepted
  obtain ⟨settled, settledEq, accepted⟩ := outcome_bind_eq_ok.mp accepted
  obtain ⟨level, settingsEq⟩ := ofDraft_eq_ok accepted
  have noRule : settled.draft.rule = none :=
    (congrArg Settings.rule settingsEq).symm.trans chooses.noRule
  have noFile : settled.draft.file = none :=
    (congrArg Settings.file settingsEq).symm.trans chooses.noFile
  rw [noRule, noFile] at settingsEq
  exact ⟨reading, settled, taken, settledEq, noRule, noFile, level, settingsEq⟩

theorem ofArguments_append {more : List String} {reading next : Reading}
    (taken : words.foldlM Reading.take Reading.start = .ok reading)
    (takenMore : more.foldlM Reading.take reading = .ok next) (checked : next.pending = .nothing) :
    ofArguments (words ++ more) levelVariable = ofDraft next.draft levelVariable := by
  have settled : next.settle = .ok next := by
    rw [Reading.settle, checked]
  rw [ofArguments, List.foldlM_append, taken]
  simp only [bind, Except.bind, takenMore, settled]

theorem ofArguments_rule (chooses : ChoosesOutput words levelVariable settings) (rule : String) :
    ofArguments (words ++ ["--", rule]) levelVariable =
      .ok { settings with rule := some rule } := by
  obtain ⟨reading, settled, taken, settledEq, noRule, noFile, level, settingsEq⟩ :=
    chooses.exists_reading
  obtain ⟨ruleKept, _, checked⟩ := Reading.settle_keeps settledEq
  have openEnded := Reading.onlyTexts_foldlM taken chooses.openEnded
  have takenRule := Reading.take_dashes_rule openEnded (ruleKept ▸ noRule) settledEq rule
  rw [ofArguments_append taken takenRule checked, ofDraft, level, settingsEq]
  simp [Except.bind, noFile]

theorem ofArguments_file (chooses : ChoosesOutput words levelVariable settings) {path : String}
    (named : path ≠ "") :
    ofArguments (words ++ ["--file=" ++ path]) levelVariable =
      .ok { settings with file := some path } := by
  obtain ⟨reading, settled, taken, settledEq, noRule, noFile, level, settingsEq⟩ :=
    chooses.exists_reading
  have checked := (Reading.settle_keeps settledEq).2.2
  have openEnded := Reading.onlyTexts_foldlM taken chooses.openEnded
  have assigned : settled.draft.assign .file path = .ok { settled.draft with file := some path } := by
    rw [Draft.assign, if_neg (by simp [Draft.has, noFile])]
    exact if_neg (mt String.isEmpty_iff.mp named)
  have takenFile : ["--file=" ++ path].foldlM Reading.take reading =
      .ok { settled with draft := { settled.draft with file := some path } } := by
    have known : Switch.ofName? ['f', 'i', 'l', 'e'] = some (.valued .file) := by decide
    have written : ("--file=" ++ path).toList =
        '-' :: '-' :: (['f', 'i', 'l', 'e'] ++ '=' :: path.toList) := String.toList_append
    rw [List.foldlM_cons, Reading.take_valued openEnded settledEq known (by decide) written,
      assigned]
    rfl
  rw [ofArguments_append taken takenFile checked, ofDraft, level, settingsEq]
  simp [Except.bind, noRule]

end ChoosesOutput
end Settings
end FieldRules
