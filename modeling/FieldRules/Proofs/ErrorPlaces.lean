import FieldRules.Compile
import FieldRules.Proofs.FirstError
import FieldRules.Proofs.ScanFailure

/-!
# Where errors lie

An error of the parser lies at a token, and an error of the scan lies where the scan stops.  In both
cases visible text of the rule begins there, so an error with a known position points at a
character.
-/

namespace FieldRules

open Text

namespace RuleError

/-- The text that an error names, with the position that the error gives for it.  Only a rule with
too few tokens has no such text. -/
inductive Names : RuleError → String → Position → Prop
  | unreadable {remainder : String} {position : Position} :
      Names (.unreadable remainder position) remainder position
  | expectedValue {condition : String} {position : Position} :
      Names (.expectedValue condition position) condition position
  | unexpectedToken {token : Token} : Names (.unexpectedToken token) token.value token.position

theorem Names.position?_eq {error : RuleError} {text : String} {position : Position}
    (names : error.Names text position) :
    error.position? = (some position).filter Position.isKnown := by
  cases names <;> rfl

theorem exists_names (error : RuleError) :
    (∃ found, error = .insufficientTokens found) ∨ ∃ text position, error.Names text position := by
  cases error with
  | unreadable remainder position => exact Or.inr ⟨_, _, .unreadable⟩
  | insufficientTokens found => exact Or.inl ⟨found, rfl⟩
  | expectedValue condition position => exact Or.inr ⟨_, _, .expectedValue⟩
  | unexpectedToken token => exact Or.inr ⟨_, _, .unexpectedToken⟩

/-- A known position is that of the text that the error names. -/
theorem exists_names_of_position? {error : RuleError} {position : Position}
    (known : error.position? = some position) : ∃ text, error.Names text position := by
  rcases error.exists_names with ⟨found, rfl⟩ | ⟨text, place, names⟩
  · cases known
  · rw [names.position?_eq] at known
    obtain rfl := Option.some.inj (Option.eq_some_of_filter_eq_some known)
    exact ⟨text, names⟩

inductive LiesAmong (tokens : List Token) : RuleError → Prop
  | expectedValue {token : Token} (member : token ∈ tokens) :
      LiesAmong tokens (.expectedValue token.value token.position)
  | unexpectedToken {token : Token} (member : token ∈ tokens) :
      LiesAmong tokens (.unexpectedToken token)

theorem LiesAmong.exists_token {tokens : List Token} {error : RuleError} {text : String}
    {position : Position} (lies : LiesAmong tokens error) (names : error.Names text position) :
    ∃ token ∈ tokens, token.value = text ∧ token.position = position := by
  cases lies with
  | @expectedValue token member =>
      cases names
      exact ⟨token, member, rfl, rfl⟩
  | @unexpectedToken token member =>
      cases names
      exact ⟨token, member, rfl, rfl⟩

end RuleError

theorem FirstError.liesAmong {tokens : List Token} {error : RuleError}
    (first : FirstError tokens error) : error.LiesAmong tokens := by
  cases first with
  | offender earlier viable lost => exact .unexpectedToken (by simp)
  | openEnd earlier word isCondition => exact .expectedValue (by simp)

theorem liesAmong_of_parseRules {tokens : List Token} {error : RuleError} {text : String}
    {position : Position} (failed : parseRules tokens = .error error)
    (names : error.Names text position) : error.LiesAmong tokens := by
  by_cases short : tokens.length < minimumTokens
  · rw [parseRules_of_short short] at failed
    obtain rfl := Except.error.inj failed
    cases names
  · have enough : minimumTokens ≤ tokens.length := by omega
    exact ((parseRules_eq_error enough).mp failed).liesAmong

theorem exists_place_of_tokenize {source : String} {error : RuleError}
    (failed : tokenize source = .error error) :
    ∃ before text after, source.toList = before ++ (text ++ after) ∧ StartsVisible text ∧
      error = .unreadable (String.ofList text) (Position.start.advance before) := by
  obtain ⟨before, rest, sourceEq, obstructed, _⟩ := exists_obstructed failed
  have errorEq := obstructed.tokenize_eq
  rw [← sourceEq, String.ofList_toList, failed] at errorEq
  obtain ⟨⟨ending, restEq, _⟩, _⟩ := trimmedFrom_trimEnd rest
  have visible : StartsVisible (trimEnd rest ++ ending) := restEq ▸ obstructed.visible
  refine ⟨before, trimEnd rest, ending, ?_, ?_, Except.error.inj errorEq⟩
  · rw [← restEq, sourceEq]
  · exact visible.of_append (trimEnd_ne_nil obstructed.visible)

theorem exists_place_of_token {source : String} {tokens : List Token} {token : Token}
    (readable : tokenize source = .ok tokens) (member : token ∈ tokens) :
    ∃ before after, source.toList = before ++ (token.value.toList ++ after) ∧
      token.position = Position.start.advance before ∧ StartsVisible token.value.toList := by
  obtain ⟨segments, ending, sourceEq, laid, _, rfl⟩ := Segment.exists_laid_of_outcome readable
  rw [sourceEq]
  exact laid.exists_place member

/-- The text that an error names stands at the position of the error, and it begins with a visible
character. -/
theorem exists_place_of_names {source text : String} {error : RuleError} {position : Position}
    (failed : compile source = .error error) (names : error.Names text position) :
    ∃ before after, source.toList = before ++ (text.toList ++ after) ∧
      position = Position.start.advance before ∧ StartsVisible text.toList := by
  cases readable : tokenize source with
  | error scanError =>
      rw [compile, readable] at failed
      obtain rfl : scanError = error := Except.error.inj failed
      obtain ⟨before, remainder, after, sourceEq, visible, rfl⟩ :=
        exists_place_of_tokenize readable
      cases names
      rw [String.toList_ofList]
      exact ⟨before, after, sourceEq, rfl, visible⟩
  | ok tokens =>
      rw [compile, readable] at failed
      obtain ⟨token, member, rfl, rfl⟩ := (liesAmong_of_parseRules failed names).exists_token names
      exact exists_place_of_token readable member

/-- An error with a known position lies where visible text of the rule begins. -/
theorem exists_place_of_compile {source : String} {error : RuleError} {position : Position}
    (failed : compile source = .error error) (known : error.position? = some position) :
    ∃ before rest, source.toList = before ++ rest ∧ position = Position.start.advance before ∧
      StartsVisible rest := by
  obtain ⟨text, names⟩ := RuleError.exists_names_of_position? known
  obtain ⟨before, after, sourceEq, place, visible⟩ := exists_place_of_names failed names
  exact ⟨before, text.toList ++ after, sourceEq, place, visible.append after⟩

end FieldRules
