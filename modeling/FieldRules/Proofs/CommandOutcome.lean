import FieldRules.Proofs.ArgumentSpelling
import FieldRules.Proofs.OutputLines

/-!
# The outcome of a run

A run of the command is given words that choose an output and a rule text, which comes as an
argument, from a file or on the standard input.  What a caller sees depends on the rule and on the
chosen output only, apart from the name of the source in the second line of a diagnostic.  The
formats that parse the rule all succeed or all fail with the compilation, and the token format does
so with the scan.
-/

namespace FieldRules

/-- What a caller of the command sees: its status and what it writes to either stream. -/
structure Outcome where
  status : Nat
  output : String
  report : String
  deriving DecidableEq, Repr

/-- What a response writes to the standard error. -/
def Response.report : Response → String
  | .success _ => ""
  | .failure report => report
  | .usage _ => usageText

def Response.outcome (response : Response) : Outcome :=
  ⟨response.status, response.output, response.report⟩

theorem decodeText_toUTF8 (text : String) : decodeText text.toUTF8 = .ok text := by
  have decoded : String.fromUTF8? text.toUTF8 = some text := by
    unfold String.fromUTF8?
    rw [String.toUTF8_eq_toByteArray, dif_pos text.isValidUTF8]
    rfl
  rw [decodeText, decoded]

/-- The environment gives the rule beside the words, from a source with the given name. -/
inductive Supplied (words : List String) (levelVariable : Option String) (rule : String) :
    Environment → String → Prop
  | argument (files : FileTree) (standardInput : ByteArray) :
      Supplied words levelVariable rule
        ⟨words ++ ["--", rule], levelVariable, files, standardInput⟩ "<arg>"
  | file {files : FileTree} {path : String} (named : path ≠ "")
      (found : files.read path = .ok rule.toUTF8) (standardInput : ByteArray) :
      Supplied words levelVariable rule
        ⟨words ++ ["--file=" ++ path], levelVariable, files, standardInput⟩ path
  | standardInput (files : FileTree) :
      Supplied words levelVariable rule ⟨words, levelVariable, files, rule.toUTF8⟩ "<stdin>"

/-- A run of the command on a rule. -/
structure Run (rule : String) where
  words : List String
  levelVariable : Option String
  settings : Settings
  environment : Environment
  name : String
  chooses : Settings.ChoosesOutput words levelVariable settings
  supplied : Supplied words levelVariable rule environment name

/-- The outcome of a run on a rule that comes from a source with the given name. -/
def Settings.outcome (settings : Settings) (name rule : String) : Outcome :=
  match settings.render rule with
  | .ok output => ⟨0, output, ""⟩
  | .error error => ⟨1, "", Diagnostic.render name rule error⟩

theorem Settings.outcome_respond (settings : Settings) (rule : String) :
    (settings.respond (.ok rule)).outcome = settings.outcome settings.source.name rule := by
  rw [respond, outcome]
  cases settings.render rule <;> rfl

namespace Run

variable {rule : String}

def outcome (run : Run rule) : Outcome := (runCommand run.environment).outcome

theorem outcome_eq (run : Run rule) : run.outcome = run.settings.outcome run.name rule := by
  obtain ⟨words, levelVariable, settings, environment, name, chooses, supplied⟩ := run
  rw [outcome, runCommand]
  cases supplied with
  | argument files standardInput =>
      rw [chooses.ofArguments_rule]
      exact Settings.outcome_respond _ rule
  | file named found standardInput =>
      have source : { settings with file := some name }.source = .file name := by
        rw [Settings.source, chooses.noRule]
      have outcome := Settings.outcome_respond { settings with file := some name } rule
      rw [source] at outcome
      simp only [chooses.ofArguments_file named, source, Environment.read, found, Except.bind,
        decodeText_toUTF8]
      exact outcome
  | standardInput files =>
      have source : settings.source = .standardInput := by
        rw [Settings.source, chooses.noRule, chooses.noFile]
      have outcome := Settings.outcome_respond settings rule
      rw [source] at outcome
      simp only [chooses.accepted, source, Environment.read, decodeText_toUTF8]
      exact outcome

end Run

/-- Two reports are the same but for the name of the source in their second lines. -/
inductive SameButName (name other : String) : String → String → Prop
  | nothing : SameButName name other "" ""
  | diagnostic (heading place : String) (rest : List String) :
      SameButName name other (Text.unlines (heading :: ("  --> " ++ name ++ place) :: rest))
        (Text.unlines (heading :: ("  --> " ++ other ++ place) :: rest))

/-- The second line of a diagnostic names the source, and no other line depends on it. -/
theorem Diagnostic.exists_lines (source : String) (error : RuleError) :
    ∃ heading place rest, ∀ name,
      lines name source error = heading :: ("  --> " ++ name ++ place) :: rest := by
  let heading := "error[" ++ error.code ++ "]: " ++ error.message
  let help := (error.help?.map ("help: " ++ ·)).toList
  cases known : error.position? with
  | none =>
      refine ⟨heading, "", help, ?_⟩
      intro name
      rw [lines, known, String.append_empty]
      rfl
  | some position =>
      refine ⟨heading, ":" ++ position.line.repr ++ ":" ++ (position.column + 1).repr,
        ["   |", numberedLine source position, caretLine position.column] ++ help, ?_⟩
      intro name
      have located : locationLine name position =
          "  --> " ++ name ++
            (":" ++ position.line.repr ++ ":" ++ (position.column + 1).repr) := by
        simp only [locationLine, String.append_assoc]
      simp only [lines, known, located]
      rfl

theorem Diagnostic.sameButName (name other source : String) (error : RuleError) :
    SameButName name other (render name source error) (render other source error) := by
  obtain ⟨heading, place, rest, linesEq⟩ := exists_lines source error
  rw [render, render, linesEq, linesEq]
  exact .diagnostic heading place rest

namespace Settings

theorem outcome_of_ok {settings : Settings} {rule output : String}
    (rendered : settings.render rule = .ok output) (name : String) :
    settings.outcome name rule = ⟨0, output, ""⟩ := by
  rw [outcome, rendered]

theorem outcome_of_error {settings : Settings} {rule : String} {error : RuleError}
    (refused : settings.render rule = .error error) (name : String) :
    settings.outcome name rule = ⟨1, "", Diagnostic.render name rule error⟩ := by
  rw [outcome, refused]

theorem render_of_tokens {settings : Settings} (format : settings.format = .tokens)
    (rule : String) : settings.render rule =
      (tokenize rule).map fun tokens => settings.jsonText (Token.listToJson tokens) := by
  rw [render]
  cases tokenize rule with
  | error error => rfl
  | ok tokens => simp [format, bind, Except.bind, pure, Except.pure, Except.map]

end Settings

/-- Every choice of a format, a layout and a log level is accepted, if the variable does not name a
level that does not exist.  For a given rule, two runs that choose the same format and layout agree
in their status, their output and, but for the name of the source, their report.  The formats that
parse the rule show the tree of the rule or report the error of its compilation.  The token format
shows the tokens of the rule, and if it cannot be scanned, every format reports that error. -/
theorem command_depends_on_rule (rule : String) :
    (∀ format? pretty level? levelVariable level,
      Settings.chooseLevel level? levelVariable = .ok level →
      Settings.ChoosesOutput (Settings.optionWords format? pretty level?) levelVariable
        ⟨none, none, format?.getD .tree, pretty, level⟩) ∧
    (∀ run other : Run rule, run.words = other.words → run.levelVariable = other.levelVariable →
      run.settings = other.settings) ∧
    (∀ run other : Run rule, run.settings.format = other.settings.format →
      run.settings.pretty = other.settings.pretty →
      run.outcome.status = other.outcome.status ∧ run.outcome.output = other.outcome.output ∧
        SameButName run.name other.name run.outcome.report other.outcome.report) ∧
    (∀ root, compile rule = .ok root → ∀ run : Run rule, run.settings.format ≠ .tokens →
      run.outcome = ⟨0, run.settings.shown root, ""⟩) ∧
    (∀ error, compile rule = .error error → ∀ run : Run rule, run.settings.format ≠ .tokens →
      run.outcome = ⟨1, "", Diagnostic.render run.name rule error⟩) ∧
    (∀ tokens, tokenize rule = .ok tokens → ∀ run : Run rule, run.settings.format = .tokens →
      run.outcome = ⟨0, run.settings.jsonText (Token.listToJson tokens), ""⟩) ∧
    (∀ error, tokenize rule = .error error → compile rule = .error error ∧
      ∀ run : Run rule, run.outcome = ⟨1, "", Diagnostic.render run.name rule error⟩) := by
  refine ⟨?words, ?settings, ?sources, ?compiled, ?refused, ?scanned, ?stuck⟩
  case words =>
    intro format? pretty level? levelVariable level chosen
    exact Settings.choosesOutput_optionWords format? pretty chosen
  case settings =>
    intro run other words levelVariable
    have accepted := run.chooses.accepted
    rw [words, levelVariable, other.chooses.accepted] at accepted
    exact (Except.ok.inj accepted).symm
  case sources =>
    intro run other format pretty
    have rendered : run.settings.render rule = other.settings.render rule := by
      unfold Settings.render Settings.jsonText
      rw [format, pretty]
    rw [run.outcome_eq, other.outcome_eq]
    cases result : other.settings.render rule with
    | ok output =>
        rw [Settings.outcome_of_ok result, Settings.outcome_of_ok (rendered.trans result)]
        exact ⟨rfl, rfl, .nothing⟩
    | error error =>
        rw [Settings.outcome_of_error result, Settings.outcome_of_error (rendered.trans result)]
        exact ⟨rfl, rfl, Diagnostic.sameButName _ _ _ _⟩
  case compiled =>
    intro root compiled run parses
    rw [run.outcome_eq]
    apply Settings.outcome_of_ok
    rw [Settings.render_eq_map parses, compiled]
    rfl
  case refused =>
    intro error refused run parses
    rw [run.outcome_eq]
    apply Settings.outcome_of_error
    rw [Settings.render_eq_map parses, refused]
    rfl
  case scanned =>
    intro tokens readable run format
    rw [run.outcome_eq]
    apply Settings.outcome_of_ok
    rw [Settings.render_of_tokens format, readable]
    rfl
  case stuck =>
    intro error failed
    refine ⟨?_, ?_⟩
    · rw [compile, failed]
      rfl
    · intro run
      rw [run.outcome_eq]
      apply Settings.outcome_of_error
      rw [Settings.render, failed]
      rfl

/-- The clauses of a rule in a file, and a text in the same place of which no token can be read. -/
theorem command_depends_on_rule_in_file :
    (runCommand ⟨["--format=clauses", "--file=r.txt"], some "debug",
      FileTree.ofFiles [("r.txt", "FIELD(\"a\")IN(1)".toUTF8)], ByteArray.empty⟩).outcome =
        ⟨0, "a IN (1)\n", ""⟩ ∧
    (runCommand ⟨["--format=clauses", "--file=r.txt"], some "debug",
      FileTree.ofFiles [("r.txt", "?".toUTF8)], ByteArray.empty⟩).outcome =
        ⟨1, "", Diagnostic.render "r.txt" "?" (.unreadable "?" Position.start)⟩ := by
  have chosen : Settings.chooseLevel none (some "debug") = .ok .debug := by decide
  have chooses : Settings.ChoosesOutput ["--format=clauses"] (some "debug")
      ⟨none, none, .clauses, false, .debug⟩ :=
    Settings.choosesOutput_optionWords (some .clauses) false chosen
  have found : ∀ rule : String,
      (FileTree.ofFiles [("r.txt", rule.toUTF8)]).read "r.txt" = .ok rule.toUTF8 := fun _ => rfl
  let run (rule : String) : Run rule :=
    ⟨_, _, _, _, _, chooses, .file (by decide) (found rule) ByteArray.empty⟩
  have readable : tokenize "FIELD(\"a\")IN(1)" =
      .ok [⟨.field, "FIELD(\"a\")", ⟨0, 1, 0⟩⟩, ⟨.condition, "IN", ⟨10, 1, 10⟩⟩,
        ⟨.value, "(1)", ⟨12, 1, 12⟩⟩] := by
    decide +kernel
  have compiled : compile "FIELD(\"a\")IN(1)" = .ok (Node.ofClauses [⟨"a", "IN", "(1)"⟩]) := by
    rw [compile, readable]
    apply parseRules_eq_ok.mpr
    exact ⟨by decide, .field (.clause .nil), congrArg Node.ofClauses (by decide +kernel)⟩
  have stuck : tokenize "?" = .error (.unreadable "?" Position.start) := by decide +kernel
  constructor
  · obtain ⟨_, _, _, shows, _⟩ := command_depends_on_rule "FIELD(\"a\")IN(1)"
    exact shows _ compiled (run _) (by intro same; cases same)
  · obtain ⟨_, _, _, _, _, _, reports⟩ := command_depends_on_rule "?"
    exact (reports _ stuck).2 (run _)

end FieldRules
