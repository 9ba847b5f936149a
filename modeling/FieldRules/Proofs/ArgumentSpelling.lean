import FieldRules.Proofs.ArgumentReading
import FieldRules.Proofs.DraftChoices

/-!
# Order and spelling of arguments

A choice of settings can be written down in many ways: the settings in any order, an option with its
value in one word or in two, by its name or by its letter, and the flag in front of another letter.
The reader keeps a draft and perhaps a value that is not checked yet.  What matters is the draft
after that check: each spelling of a setting adds the setting to it.  So the settings depend on the
choice alone.
-/

namespace FieldRules

/-- The name of an option with a value, behind two dashes. -/
def Key.name : Key → String
  | .file => "file"
  | .format => "format"
  | .logLevel => "log-level"

/-- The letter of an option with a value, if it has one. -/
def Key.letter? : Key → Option Char
  | .file => some 'f'
  | .format => some 'o'
  | .logLevel => none

/-- A word that cannot be taken for an option. -/
def IsBare (word : String) : Prop :=
  word = "-" ∨ word.toList.head? ≠ some '-'

/-- An option by its letter, with the value as the next word or behind the letter: the letters of
its own word and the words that follow. -/
inductive ShortForm (letter : Char) (value : String) : List Char → List String → Prop
  | apart (bare : IsBare value) : ShortForm letter value [letter] [value]
  | joined (noMark : value.toList.head? ≠ some '=') :
      ShortForm letter value (letter :: value.toList) []
  | marked : ShortForm letter value (letter :: '=' :: value.toList) []

/-- Words that give a setting, or two of them if the flag leads the letters. -/
inductive Spelling : List String → List Choice → Prop
  | rule {text : String} (bare : IsBare text) : Spelling [text] [.rule text]
  | apart {key : Key} {value : String} {choice : Choice} (named : choice.NamedBy key value)
      (bare : IsBare value) : Spelling ["--" ++ key.name, value] [choice]
  | marked {key : Key} {value : String} {choice : Choice} (named : choice.NamedBy key value) :
      Spelling ["--" ++ key.name ++ "=" ++ value] [choice]
  | short {key : Key} {value : String} {choice : Choice} {letter : Char} {letters : List Char}
      {words : List String} (named : choice.NamedBy key value) (isLetter : key.letter? = some letter)
      (form : ShortForm letter value letters words) :
      Spelling (String.ofList ('-' :: letters) :: words) [choice]
  | pretty : Spelling ["--pretty"] [.pretty]
  | shortPretty : Spelling ["-p"] [.pretty]
  | cluster {key : Key} {value : String} {choice : Choice} {letter : Char} {letters : List Char}
      {words : List String} (named : choice.NamedBy key value) (isLetter : key.letter? = some letter)
      (form : ShortForm letter value letters words) :
      Spelling (String.ofList ('-' :: 'p' :: letters) :: words) [.pretty, choice]

/-- Arguments that give some settings, in the order in which they give them.  Two dashes may stand
before a rule text that comes last, whatever that looks like. -/
inductive Spelled : List String → List Choice → Prop
  | nil : Spelled [] []
  | append {words more : List String} {choices others : List Choice} (first : Spelling words choices)
      (later : Spelled more others) : Spelled (words ++ more) (choices ++ others)
  | dashes (text : String) : Spelled ["--", text] [.rule text]

theorem IsBare.form {word : String} (bare : IsBare word) :
    ArgumentForm.ofText word.toList = .text := by
  rcases bare with rfl | notDash
  · decide
  · cases characters : word.toList with
    | nil => rfl
    | cons character rest =>
        rw [characters, List.head?_cons] at notDash
        have different : character ≠ '-' := fun same => notDash (congrArg some same)
        simp [ArgumentForm.ofText, different]

theorem Key.ofName?_name (key : Key) : Switch.ofName? key.name.toList = some (.valued key) := by
  cases key <;> decide

theorem Key.form_name (key : Key) :
    ArgumentForm.ofText ("--" ++ key.name).toList = .long key.name.toList none := by
  cases key <;> decide

theorem Key.ofLetter?_letter {key : Key} {letter : Char} (isLetter : key.letter? = some letter) :
    Switch.ofLetter? letter = some (.valued key) ∧ letter ≠ '-' := by
  cases key with
  | file =>
      cases isLetter
      decide
  | format =>
      cases isLetter
      decide
  | logLevel => cases isLetter

namespace Reading

/-- The reading goes on with options, and its draft is this one once its last value is checked. -/
def Holds (reading : Reading) (draft : Draft) : Prop :=
  reading.settle = .ok ⟨draft, .nothing, false⟩

/-- After the words the reading holds the draft. -/
def Leads (reading : Reading) (words : List String) (draft : Draft) : Prop :=
  ∃ next, words.foldlM take reading = .ok next ∧ next.Holds draft

variable {reading between : Reading} {draft : Draft} {choice : Choice} {key : Key} {value : String}

theorem Holds.openEnded (holds : reading.Holds draft) : reading.onlyTexts = false :=
  (settle_keeps holds).2.1.symm

theorem holds_draft (draft : Draft) : Holds ⟨draft, .nothing, false⟩ draft := rfl

theorem Holds.leads_nil (holds : reading.Holds draft) : reading.Leads [] draft :=
  ⟨reading, rfl, holds⟩

theorem Leads.cons {word : String} {words : List String} (taken : reading.take word = .ok between)
    (leads : between.Leads words draft) : reading.Leads (word :: words) draft := by
  obtain ⟨next, takenLater, holds⟩ := leads
  refine ⟨next, ?_, holds⟩
  rw [List.foldlM_cons, taken]
  exact takenLater

theorem Holds.take_bare (holds : reading.Holds draft) {text : String} (bare : IsBare text) :
    reading.take text = reading.takeRule text := by
  rw [take, if_neg (by simp [holds.openEnded]), bare.form]
  cases pending : reading.pending with
  | nothing => rfl
  | given key value => rfl
  | awaiting key =>
      rw [Holds, settle, pending] at holds
      cases holds

theorem Holds.noRule (holds : reading.Holds draft) {text : String}
    (lacks : draft.lacks (.rule text) = true) : reading.draft.rule = none := by
  rw [← (settle_keeps holds).1]
  exact Option.isNone_iff_eq_none.mp lacks

theorem Holds.takeRule (holds : reading.Holds draft) {text : String}
    (lacks : draft.lacks (.rule text) = true) :
    reading.takeRule text = .ok ⟨draft.put (.rule text), .nothing, false⟩ := by
  rw [Reading.takeRule, holds.noRule lacks, holds]
  rfl

theorem Holds.takeValued (holds : reading.Holds draft) :
    reading.takeSwitch (.valued key) = .ok ⟨draft, .awaiting key, false⟩ := by
  rw [takeSwitch, holds]
  rfl

theorem Holds.takePretty (holds : reading.Holds draft) (lacks : draft.lacks .pretty = true) :
    reading.takeSwitch .pretty = .ok ⟨draft.put .pretty, .nothing, false⟩ := by
  have unset : draft.pretty = false := by simpa [Draft.lacks] using lacks
  rw [takeSwitch, holds]
  simp [Except.bind, Except.map, Draft.setPretty, unset, Draft.put]

theorem takeLetters_pretty (reading : Reading) (letters : List Char) :
    reading.takeLetters ('p' :: letters) =
      (reading.takeSwitch .pretty).bind fun next => next.takeLetters letters := by
  have known : Switch.ofLetter? 'p' = some .pretty := by decide
  rw [takeLetters.eq_def]
  simp only [known]

theorem Holds.take_letters (holds : reading.Holds draft) {letter : Char} (notDash : letter ≠ '-')
    (letters : List Char) :
    reading.take (String.ofList ('-' :: letter :: letters)) =
      reading.takeLetters (letter :: letters) := by
  have form : ArgumentForm.ofText ('-' :: letter :: letters) = .letters (letter :: letters) := by
    simp [ArgumentForm.ofText, notDash]
  rw [take, if_neg (by simp [holds.openEnded]), String.toList_ofList, form]

section Named

variable (named : choice.NamedBy key value) (lacks : draft.lacks choice = true)

include named lacks

theorem Holds.takeValue (holds : reading.Holds draft) :
    reading.takeValue key value.toList = .ok ⟨draft.put choice, .nothing, false⟩ := by
  rw [Reading.takeValue, holds, String.ofList_toList]
  simp only [Except.bind, Draft.assign_named named lacks, Except.map]

theorem leads_awaiting (bare : IsBare value) :
    Leads ⟨draft, .awaiting key, false⟩ [value] (draft.put choice) := by
  refine ⟨⟨draft, .given key value, false⟩, ?_, ?_⟩
  · rw [List.foldlM_cons, take, if_neg Bool.false_ne_true, bare.form]
    rfl
  · simp [Holds, settle, Draft.assign_named named lacks, Except.map]

theorem Holds.leads_apart (holds : reading.Holds draft) (bare : IsBare value) :
    reading.Leads ["--" ++ key.name, value] (draft.put choice) := by
  have taken : reading.take ("--" ++ key.name) = .ok ⟨draft, .awaiting key, false⟩ := by
    rw [take, if_neg (by simp [holds.openEnded]), key.form_name]
    simp [takeLong, key.ofName?_name, holds.takeValued]
  exact .cons taken (leads_awaiting named lacks bare)

theorem Holds.leads_marked (holds : reading.Holds draft) :
    reading.Leads ["--" ++ key.name ++ "=" ++ value] (draft.put choice) := by
  have noMark : '=' ∉ key.name.toList := by
    cases key <;> decide
  have written : ("--" ++ key.name ++ "=" ++ value).toList =
      '-' :: '-' :: (key.name.toList ++ '=' :: value.toList) := by
    simp
  have taken := take_valued holds.openEnded holds key.ofName?_name noMark written
  rw [Draft.assign_named named lacks] at taken
  exact .cons taken (holds_draft _).leads_nil

/-- The letters of an option give its setting together with the words behind them. -/
theorem Holds.leads_letters (holds : reading.Holds draft) {letter : Char}
    (isLetter : key.letter? = some letter) {letters : List Char} {words : List String}
    (form : ShortForm letter value letters words) :
    ∃ next, reading.takeLetters letters = .ok next ∧ next.Leads words (draft.put choice) := by
  have known := (Key.ofLetter?_letter isLetter).1
  cases form with
  | apart bare =>
      refine ⟨_, ?_, leads_awaiting named lacks bare⟩
      simp [takeLetters, known, holds.takeValued, Except.bind]
  | joined noMark =>
      refine ⟨_, ?_, (holds_draft _).leads_nil⟩
      cases characters : value.toList with
      | nil => exact absurd (String.toList_eq_nil_iff.mp characters) named.nonempty
      | cons character rest =>
          rw [characters, List.head?_cons] at noMark
          have notMark : character ≠ '=' := fun same => noMark (congrArg some same)
          rw [takeLetters.eq_def]
          simp only [known]
          rw [← characters]
          exact holds.takeValue named lacks
  | marked =>
      refine ⟨_, ?_, (holds_draft _).leads_nil⟩
      simp [takeLetters, known, holds.takeValue named lacks]

end Named

end Reading

theorem ShortForm.exists_cons {letter : Char} {value : String} {letters : List Char}
    {words : List String} (form : ShortForm letter value letters words) :
    ∃ rest, letters = letter :: rest := by
  cases form with
  | apart bare => exact ⟨_, rfl⟩
  | joined noMark => exact ⟨_, rfl⟩
  | marked => exact ⟨_, rfl⟩

section Reads

variable {reading : Reading} {draft final : Draft} {words : List String} {choices : List Choice}

/-- Each spelling adds the settings that it gives to the draft. -/
theorem Spelling.leads (spelling : Spelling words choices) (holds : reading.Holds draft)
    (added : choices.foldlM Draft.add? draft = some final) : reading.Leads words final := by
  cases spelling with
  | rule bare =>
      obtain ⟨lacks, rfl⟩ := Draft.foldlM_add?_singleton.mp added
      have taken := (holds.take_bare bare).trans (holds.takeRule lacks)
      exact .cons taken (Reading.holds_draft _).leads_nil
  | apart named bare =>
      obtain ⟨lacks, rfl⟩ := Draft.foldlM_add?_singleton.mp added
      exact holds.leads_apart named lacks bare
  | marked named =>
      obtain ⟨lacks, rfl⟩ := Draft.foldlM_add?_singleton.mp added
      exact holds.leads_marked named lacks
  | short named isLetter form =>
      obtain ⟨lacks, rfl⟩ := Draft.foldlM_add?_singleton.mp added
      obtain ⟨next, taken, leads⟩ := holds.leads_letters named lacks isLetter form
      obtain ⟨rest, rfl⟩ := form.exists_cons
      exact .cons ((holds.take_letters (Key.ofLetter?_letter isLetter).2 rest).trans taken) leads
  | pretty =>
      obtain ⟨lacks, rfl⟩ := Draft.foldlM_add?_singleton.mp added
      have form : ArgumentForm.ofText "--pretty".toList = .long "pretty".toList none := by decide
      have known : Switch.ofName? "pretty".toList = some .pretty := by decide
      have taken : reading.take "--pretty" = .ok ⟨draft.put .pretty, .nothing, false⟩ := by
        rw [Reading.take, if_neg (by simp [holds.openEnded]), form]
        simp only [Reading.takeLong, known]
        exact holds.takePretty lacks
      exact .cons taken (Reading.holds_draft _).leads_nil
  | shortPretty =>
      obtain ⟨lacks, rfl⟩ := Draft.foldlM_add?_singleton.mp added
      have taken := holds.take_letters (by decide : 'p' ≠ '-') []
      rw [Reading.takeLetters_pretty, holds.takePretty lacks] at taken
      exact .cons taken (Reading.holds_draft _).leads_nil
  | @cluster _ _ _ _ letters _ named isLetter form =>
      rw [List.foldlM_cons] at added
      obtain ⟨between, addedPretty, addedNamed⟩ := Option.bind_eq_some_iff.mp added
      obtain ⟨lacksPretty, rfl⟩ := Draft.add?_eq_some.mp addedPretty
      obtain ⟨lacks, rfl⟩ := Draft.foldlM_add?_singleton.mp addedNamed
      obtain ⟨next, takenLetters, leads⟩ :=
        (Reading.holds_draft _).leads_letters named lacks isLetter form
      have taken := holds.take_letters (by decide : 'p' ≠ '-') letters
      rw [Reading.takeLetters_pretty, holds.takePretty lacksPretty] at taken
      exact .cons (taken.trans takenLetters) leads

/-- Arguments add the settings that they give one after the other. -/
theorem Spelled.reads (spelled : Spelled words choices) (holds : reading.Holds draft)
    (added : choices.foldlM Draft.add? draft = some final) :
    ∃ next settled, words.foldlM Reading.take reading = .ok next ∧ next.settle = .ok settled ∧
      settled.draft = final := by
  induction spelled generalizing reading draft with
  | nil =>
      obtain rfl := Option.some.inj added
      exact ⟨reading, _, rfl, holds, rfl⟩
  | append first later induction =>
      rw [List.foldlM_append] at added
      obtain ⟨between, addedFirst, addedLater⟩ := Option.bind_eq_some_iff.mp added
      obtain ⟨middle, taken, holdsMiddle⟩ := first.leads holds addedFirst
      obtain ⟨next, settled, takenLater, settledEq, draftEq⟩ := induction holdsMiddle addedLater
      refine ⟨next, settled, ?_, settledEq, draftEq⟩
      rw [List.foldlM_append, taken]
      exact takenLater
  | dashes text =>
      obtain ⟨lacks, rfl⟩ := Draft.foldlM_add?_singleton.mp added
      have taken := Reading.take_dashes_rule holds.openEnded (holds.noRule lacks) holds text
      exact ⟨_, _, taken, rfl, rfl⟩

theorem Spelled.ofArguments (spelled : Spelled words choices)
    (added : choices.foldlM Draft.add? Draft.empty = some final) (levelVariable : Option String) :
    Settings.ofArguments words levelVariable = Settings.ofDraft final levelVariable := by
  obtain ⟨next, settled, taken, settledEq, rfl⟩ := spelled.reads (Reading.holds_draft _) added
  rw [Settings.ofArguments, Reading.start, taken]
  simp only [Except.bind, settledEq]

end Reads

namespace Settings

/-- A choice of an output, written as options. -/
def optionWords (format? : Option Format) (pretty : Bool) (level? : Option LogLevel) :
    List String :=
  (format?.map fun format => "--format=" ++ format.name).toList ++
    ((if pretty then ["--pretty"] else []) ++
      (level?.map fun level => "--log-level=" ++ level.name).toList)

theorem spelled_optionWords (format? : Option Format) (pretty : Bool) (level? : Option LogLevel) :
    Spelled (optionWords format? pretty level?)
      (Draft.choices ⟨none, none, format?, pretty, level?⟩) := by
  have named : ∀ level : LogLevel, Choice.NamedBy .logLevel level.name (.logLevel level) := by
    intro level
    exact .logLevel (by cases level <;> decide)
  have levelSpelled : Spelled (level?.map fun level => "--log-level=" ++ level.name).toList
      (level?.toList.map .logLevel) := by
    cases level? with
    | none => exact .nil
    | some level => exact .append (.marked (named level)) .nil
  have prettySpelled : Spelled ((if pretty then ["--pretty"] else []) ++
      (level?.map fun level => "--log-level=" ++ level.name).toList)
      ((if pretty then [.pretty] else []) ++ level?.toList.map .logLevel) := by
    cases pretty with
    | false => exact levelSpelled
    | true => exact .append .pretty levelSpelled
  have choicesEq : Draft.choices ⟨none, none, format?, pretty, level?⟩ =
      format?.toList.map .format ++
        ((if pretty then [.pretty] else []) ++ level?.toList.map .logLevel) := by
    simp [Draft.choices]
  rw [choicesEq]
  cases format? with
  | none => exact prettySpelled
  | some format => exact .append (.marked (.format format)) prettySpelled

/-- Every choice of a format, a layout and a log level is written by some words. -/
theorem choosesOutput_optionWords (format? : Option Format) (pretty : Bool)
    {level? : Option LogLevel} {levelVariable : Option String} {level : LogLevel}
    (chosen : chooseLevel level? levelVariable = .ok level) :
    ChoosesOutput (optionWords format? pretty level?) levelVariable
      ⟨none, none, format?.getD .tree, pretty, level⟩ where
  accepted := by
    rw [(spelled_optionWords format? pretty level?).ofArguments (Draft.foldlM_add?_choices _), ofDraft,
      chosen]
    rfl
  noRule := rfl
  noFile := rfl
  openEnded := by
    intro member
    simp only [optionWords, List.mem_append, Option.mem_toList,
      Option.map_eq_some_iff] at member
    rcases member with ⟨format, _, same⟩ | inPretty | ⟨level, _, same⟩
    · exact absurd same (by cases format <;> decide)
    · cases pretty <;> simp at inPretty
    · exact absurd same (by cases level <;> decide)

end Settings

/-- A level among the settings decides, and otherwise the variable does if it has a value. -/
theorem Settings.chooseLevel_eq_ok {given : Option LogLevel} {levelVariable : Option String}
    (valid : given = none → ∀ text, levelVariable = some text → LogLevel.ofText? text ≠ none) :
    chooseLevel given levelVariable =
      .ok ((given.or (levelVariable.bind LogLevel.ofText?)).getD .warn) := by
  cases given with
  | some level => rfl
  | none =>
      cases levelVariable with
      | none => rfl
      | some text =>
          obtain ⟨level, named⟩ := Option.ne_none_iff_exists'.mp (valid rfl text rfl)
          simp [chooseLevel, named]

/-- Arguments that give each of the chosen settings once are accepted and give the chosen settings,
in whatever order and spelling they stand.  The format is the tree if none is chosen.  The variable
only matters, and only has to name a level, if no level is chosen; if it is not set either, warnings
are logged. -/
theorem arguments_in_any_order {chosen : Draft} {words : List String} {choices : List Choice}
    {levelVariable : Option String} (oneSource : chosen.rule = none ∨ chosen.file = none)
    (spelled : Spelled words choices) (once : choices.Perm chosen.choices)
    (valid : chosen.logLevel = none →
      ∀ text, levelVariable = some text → LogLevel.ofText? text ≠ none) :
    Settings.ofArguments words levelVariable =
      .ok ⟨chosen.rule, chosen.file, chosen.format.getD .tree, chosen.pretty,
        (chosen.logLevel.or (levelVariable.bind LogLevel.ofText?)).getD .warn⟩ := by
  have added : choices.foldlM Draft.add? Draft.empty = some chosen := by
    rw [Draft.foldlM_add?_perm once, Draft.foldlM_add?_choices]
  have single : (chosen.rule.isSome && chosen.file.isSome) = false := by
    rcases oneSource with none | none
    · simp [none]
    · simp [none]
  rw [spelled.ofArguments added]
  simp [Except.bind, Settings.ofDraft, Settings.chooseLevel_eq_ok valid, single]

/-- The flag leads the letters of another option, the level is written as a number, and the rule
looks like an option.  A variable that names no level does no harm beside a level.  In the other
arguments the options come in another order, and the variable decides. -/
theorem arguments_in_any_order_clustered :
    Settings.ofArguments ["--log-level", "+04", "-po", "json", "--", "-x"] (some "loud") =
        .ok ⟨some "-x", none, .json, true, .debug⟩ ∧
      Settings.ofArguments ["-f=r.txt", "--format=clauses", "-p"] (some "Info") =
        .ok ⟨none, some "r.txt", .clauses, true, .info⟩ := by
  constructor
  · have level : Choice.NamedBy .logLevel "+04" (.logLevel .debug) := .logLevel (by decide)
    have spelled : Spelled ["--log-level", "+04", "-po", "json", "--", "-x"]
        [.logLevel .debug, .pretty, .format .json, .rule "-x"] :=
      .append (.apart level (.inr (by decide)))
        (.append (.cluster (.format .json) rfl (.apart (.inr (by decide)))) (.dashes "-x"))
    have once : [Choice.logLevel .debug, .pretty, .format .json, .rule "-x"].Perm
        (Draft.choices ⟨some "-x", none, some .json, true, some .debug⟩) := by decide
    exact arguments_in_any_order (.inr rfl) spelled once (by intro noLevel; cases noLevel)
  · have path : Choice.NamedBy .file "r.txt" (.file "r.txt") := .file (by decide)
    have spelled : Spelled ["-f=r.txt", "--format=clauses", "-p"]
        [.file "r.txt", .format .clauses, .pretty] :=
      .append (.short path rfl .marked)
        (.append (.marked (.format .clauses)) (.append .shortPretty .nil))
    have once : [Choice.file "r.txt", .format .clauses, .pretty].Perm
        (Draft.choices ⟨none, some "r.txt", some .clauses, true, none⟩) := by decide
    refine arguments_in_any_order (.inl rfl) spelled once ?_
    intro _ text same
    cases same
    decide

end FieldRules
