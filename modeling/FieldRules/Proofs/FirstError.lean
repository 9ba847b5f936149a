import FieldRules.Proofs.ClauseGrammar
import Mathlib.Logic.ExistsUnique

/-!
# The first error of a token list

A sequence of kinds is viable if some word of the grammar begins with it.  Parsing goes on as long
as what it has read is viable, so the token that it refuses is the one with which viability is lost.
If it is never lost, a list that is no rule can only lack the value of its last condition.  Lists of
fewer than three tokens are refused before any token is looked at.  A verdict is one of these cases,
and exactly one of them fits a list.
-/

namespace FieldRules

/-- Some word of the grammar begins with these kinds. -/
def Viable (kinds : List TokenKind) : Prop :=
  ∃ more, ClauseWord (kinds ++ more)

namespace ClauseWord

theorem viable {kinds : List TokenKind} (word : ClauseWord kinds) : Viable kinds :=
  ⟨[], by rwa [List.append_nil]⟩

theorem viable_append_iff {front kinds : List TokenKind} (word : ClauseWord front) :
    Viable (front ++ kinds) ↔ Viable kinds := by
  simp only [Viable, List.append_assoc, word.append_iff]

theorem viable_condition {kinds : List TokenKind} (word : ClauseWord kinds) :
    Viable (kinds ++ [.condition]) :=
  word.viable_append_iff.mpr ⟨[.value], .clause .nil⟩

theorem not_append_condition {kinds : List TokenKind} (word : ClauseWord kinds) :
    ¬ ClauseWord (kinds ++ [.condition]) := by
  intro longer
  cases word.append_iff.mp longer

end ClauseWord

theorem Viable.of_append {earlier later : List TokenKind} (viable : Viable (earlier ++ later)) :
    Viable earlier := by
  obtain ⟨more, word⟩ := viable
  rw [List.append_assoc] at word
  exact ⟨later ++ more, word⟩

theorem Viable.take {kinds : List TokenKind} (viable : Viable kinds) (place : Nat) :
    Viable (kinds.take place) := by
  rw [← List.take_append_drop place kinds] at viable
  exact viable.of_append

/-- What is wrong with a list that is no word of the grammar: a token with which viability is lost,
or a condition at the end. -/
inductive FirstError : List Token → RuleError → Prop
  | offender (earlier : List Token) {later : List Token} {token : Token}
      (viable : Viable (earlier.map Token.kind))
      (lost : ¬ Viable (earlier.map Token.kind ++ [token.kind])) :
      FirstError (earlier ++ token :: later) (.unexpectedToken token)
  | openEnd (earlier : List Token) {condition : Token}
      (word : ClauseWord (earlier.map Token.kind)) (isCondition : condition.kind = .condition) :
      FirstError (earlier ++ [condition]) (.expectedValue condition.value condition.position)

/-- Fields and clauses in front of a list do not change its first error. -/
theorem FirstError.behind {front tokens : List Token} {error : RuleError}
    (first : FirstError tokens error) (word : ClauseWord (front.map Token.kind)) :
    FirstError (front ++ tokens) error := by
  cases first with
  | @offender earlier later token viable lost =>
      rw [← List.append_assoc]
      apply FirstError.offender
      · rw [List.map_append]
        exact word.viable_append_iff.mpr viable
      · rw [List.map_append, List.append_assoc, word.viable_append_iff]
        exact lost
  | @openEnd earlier condition wordEarlier isCondition =>
      rw [← List.append_assoc]
      apply FirstError.openEnd _ _ isCondition
      rw [List.map_append]
      exact word.append_iff.mpr wordEarlier

theorem not_viable_of_lost {earlier : List Token} {token : Token}
    (lost : ¬ Viable (earlier.map Token.kind ++ [token.kind])) (later : List Token) :
    ¬ Viable ((earlier ++ token :: later).map Token.kind) := by
  intro viable
  have whole : Viable (earlier.map Token.kind ++ [token.kind] ++ later.map Token.kind) := by
    rw [List.append_assoc]
    rwa [List.map_append, List.map_cons] at viable
  exact lost whole.of_append

theorem viable_of_condition {earlier : List Token} {condition : Token}
    (word : ClauseWord (earlier.map Token.kind)) (isCondition : condition.kind = .condition) :
    Viable ((earlier ++ [condition]).map Token.kind) := by
  rw [List.map_append, List.map_singleton, isCondition]
  exact word.viable_condition

theorem FirstError.not_clauseWord {tokens : List Token} {error : RuleError}
    (first : FirstError tokens error) : ¬ ClauseWord (tokens.map Token.kind) := by
  intro word
  cases first with
  | @offender earlier later token viable lost => exact not_viable_of_lost lost later word.viable
  | @openEnd earlier condition wordEarlier isCondition =>
      rw [List.map_append, List.map_singleton, isCondition] at word
      exact wordEarlier.not_append_condition word

theorem FirstError.unique {tokens : List Token} {error other : RuleError}
    (first : FirstError tokens error) (second : FirstError tokens other) : error = other := by
  cases first with
  | @offender earlier later token viable lost =>
      generalize same : earlier ++ token :: later = tokens at second
      cases second with
      | @offender earlier' later' token' viable' lost' =>
          rcases List.append_eq_append_iff.mp same with
            ⟨inner, rfl, split⟩ | ⟨inner, rfl, split⟩
          · cases inner with
            | nil => rw [(List.cons.inj split).1]
            | cons next inner =>
                obtain ⟨rfl, _⟩ := List.cons.inj split
                exact absurd viable' (not_viable_of_lost lost inner)
          · cases inner with
            | nil => rw [(List.cons.inj split).1]
            | cons next inner =>
                obtain ⟨rfl, _⟩ := List.cons.inj split
                exact absurd viable (not_viable_of_lost lost' inner)
      | openEnd earlier' word isCondition =>
          exact absurd (same ▸ viable_of_condition word isCondition)
            (not_viable_of_lost lost later)
  | @openEnd earlier condition word isCondition =>
      generalize same : earlier ++ [condition] = tokens at second
      cases second with
      | offender earlier' viable lost =>
          exact absurd (same ▸ viable_of_condition word isCondition) (not_viable_of_lost lost _)
      | openEnd earlier' word' isCondition' =>
          obtain rfl := List.singleton_inj.mp (List.append_inj_right' same rfl)
          rfl

theorem not_viable_of_notValue {other : TokenKind} (notValue : other ≠ .value) :
    ¬ Viable [.condition, other] := by
  rintro ⟨more, word⟩
  have behind := word.value_behind 0 rfl
  exact notValue (by simpa using behind)

theorem not_viable_of_misplaced {kind : TokenKind} (notField : kind ≠ .field)
    (notCondition : kind ≠ .condition) : ¬ Viable [kind] := by
  rintro ⟨more, word⟩
  rcases word.begins with isField | isCondition
  · exact notField isField
  · exact notCondition isCondition

namespace Cursor

theorem Stepped.firstError {field : String} {cursor after : Cursor} {error : RuleError}
    {events : List Event} (stepped : Stepped field cursor ⟨.error error, after, events⟩) :
    FirstError cursor.remaining error := by
  cases stepped with
  | @noValue _ condition isCondition => exact .openEnd [] .nil isCondition
  | @notValue _ rest condition other isCondition notValue =>
      apply FirstError.offender [condition]
      · rw [List.map_singleton, isCondition]
        exact ClauseWord.nil.viable_condition
      · rw [List.map_singleton, isCondition]
        exact not_viable_of_notValue notValue
  | misplaced notField notCondition =>
      exact FirstError.offender [] ClauseWord.nil.viable
        (not_viable_of_misplaced notField notCondition)

/-- A run that fails reports the first error of the tokens that were left. -/
theorem firstError_of_clauses {cursor : Cursor} {field : String} {error : RuleError}
    (failed : (cursor.clauses field).outcome = .error error) :
    FirstError cursor.remaining error := by
  have ran := ran_clauses cursor field
  generalize cursor.clauses field = parsed at ran failed
  induction ran with
  | atEnd => cases failed
  | @field _ _ rest token _ isField ran induction =>
      have word : ClauseWord ([token].map Token.kind) := by
        rw [List.map_singleton, isField]
        exact .field .nil
      exact (induction failed).behind word
  | @clause _ _ rest condition value _ isCondition isValue ran induction =>
      have word : ClauseWord ([condition, value].map Token.kind) := by
        rw [List.map_cons, List.map_singleton, isCondition, isValue]
        exact .clause .nil
      exact (induction (outcome_map_eq_error.mp failed)).behind word
  | failed stepped =>
      obtain rfl := Except.error.inj failed
      exact stepped.firstError

theorem outcome_clauses_eq_error {cursor : Cursor} {field : String} {error : RuleError} :
    (cursor.clauses field).outcome = .error error ↔ FirstError cursor.remaining error := by
  refine ⟨firstError_of_clauses, ?_⟩
  intro first
  cases result : (cursor.clauses field).outcome with
  | ok clauses => exact absurd (outcome_clauses_eq_ok.mp result).1 first.not_clauseWord
  | error other => rw [(firstError_of_clauses result).unique first]

end Cursor

theorem parseRules_eq_error {tokens : List Token} {error : RuleError}
    (enough : minimumTokens ≤ tokens.length) :
    parseRules tokens = .error error ↔ FirstError tokens error := by
  rw [parseRules_of_enough enough, outcome_map_eq_error, Cursor.outcome_clauses_eq_error]
  rfl

/-- What parsing can say about a list of tokens. -/
inductive Verdict where
  | tooShort
  /-- The token at the place may not stand there. -/
  | offender (place : Nat)
  /-- The list ends with a condition. -/
  | openEnd
  | rule
  deriving DecidableEq, Repr

namespace Verdict

/-- The lists that a verdict is about. -/
def Fits (tokens : List Token) : Verdict → Prop
  | .tooShort => tokens.length < 3
  | .offender place =>
      3 ≤ tokens.length ∧ Viable ((tokens.take place).map Token.kind) ∧
        ¬ Viable ((tokens.take (place + 1)).map Token.kind)
  | .openEnd =>
      3 ≤ tokens.length ∧
        ∃ kinds, ClauseWord kinds ∧ tokens.map Token.kind = kinds ++ [.condition]
  | .rule => 3 ≤ tokens.length ∧ ClauseWord (tokens.map Token.kind)

/-- The result that goes with a verdict on the tokens. -/
def Gives (tokens : List Token) (result : Except RuleError Node) : Verdict → Prop
  | .tooShort => result = .error (.insufficientTokens tokens.length)
  | .offender place =>
      ∃ token, tokens[place]? = some token ∧ result = .error (.unexpectedToken token)
  | .openEnd =>
      ∃ condition, tokens.getLast? = some condition ∧
        result = .error (.expectedValue condition.value condition.position)
  | .rule => ∃ root, result = .ok root

variable {tokens : List Token}

/-- A list in which viability is lost is neither a rule nor a rule with an open end. -/
theorem not_viable_of_offender {place : Nat} (fits : (offender place).Fits tokens) :
    ¬ Viable (tokens.map Token.kind) := by
  intro viable
  have beginning := viable.take (place + 1)
  rw [← List.map_take] at beginning
  exact fits.2.2 beginning

theorem offender_le {place place' : Nat} (fits : (offender place).Fits tokens)
    (fits' : (offender place').Fits tokens) : place ≤ place' := by
  apply Nat.le_of_not_lt
  intro before
  have beginning := fits.2.1.take (place' + 1)
  rw [← List.map_take, List.take_take, Nat.min_eq_left before] at beginning
  exact fits'.2.2 beginning

theorem viable_of_openEnd (fits : openEnd.Fits tokens) : Viable (tokens.map Token.kind) := by
  obtain ⟨_, kinds, word, kindsEq⟩ := fits
  rw [kindsEq]
  exact word.viable_condition

theorem not_rule_of_openEnd (fits : openEnd.Fits tokens) : ¬ rule.Fits tokens := by
  obtain ⟨_, kinds, word, kindsEq⟩ := fits
  rintro ⟨_, whole⟩
  rw [kindsEq] at whole
  exact word.not_append_condition whole

theorem Fits.unique {verdict other : Verdict} (fits : verdict.Fits tokens)
    (fits' : other.Fits tokens) : verdict = other := by
  cases verdict with
  | tooShort =>
      cases other with
      | tooShort => rfl
      | offender place => exact absurd fits'.1 (Nat.not_le.mpr fits)
      | openEnd => exact absurd fits'.1 (Nat.not_le.mpr fits)
      | rule => exact absurd fits'.1 (Nat.not_le.mpr fits)
  | offender place =>
      cases other with
      | tooShort => exact absurd fits.1 (Nat.not_le.mpr fits')
      | offender place' =>
          rw [Nat.le_antisymm (offender_le fits fits') (offender_le fits' fits)]
      | openEnd => exact absurd (viable_of_openEnd fits') (not_viable_of_offender fits)
      | rule => exact absurd fits'.2.viable (not_viable_of_offender fits)
  | openEnd =>
      cases other with
      | tooShort => exact absurd fits.1 (Nat.not_le.mpr fits')
      | offender place => exact absurd (viable_of_openEnd fits) (not_viable_of_offender fits')
      | openEnd => rfl
      | rule => exact absurd fits' (not_rule_of_openEnd fits)
  | rule =>
      cases other with
      | tooShort => exact absurd fits.1 (Nat.not_le.mpr fits')
      | offender place => exact absurd fits.2.viable (not_viable_of_offender fits')
      | openEnd => exact absurd fits (not_rule_of_openEnd fits')
      | rule => rfl

/-- Every list has a verdict, and parsing gives the result that goes with it. -/
theorem exists_fits (tokens : List Token) :
    ∃ verdict : Verdict, verdict.Fits tokens ∧ verdict.Gives tokens (parseRules tokens) := by
  by_cases short : tokens.length < 3
  · exact ⟨.tooShort, short, parseRules_of_short short⟩
  · have enough : 3 ≤ tokens.length := Nat.not_lt.mp short
    cases parsed : parseRules tokens with
    | ok root => exact ⟨.rule, ⟨enough, (parseRules_eq_ok.mp parsed).2.1⟩, root, rfl⟩
    | error error =>
        have first : FirstError tokens error := (parseRules_eq_error enough).mp parsed
        cases first with
        | @offender earlier later token viable lost =>
            have before : (earlier ++ token :: later).take earlier.length = earlier :=
              List.take_left
            have upTo : (earlier ++ token :: later).take (earlier.length + 1) =
                earlier ++ [token] := by
              rw [List.take_length_add_append, List.take_succ_cons, List.take_zero]
            refine ⟨.offender earlier.length, ⟨enough, ?_, ?_⟩, token, ?_, rfl⟩
            · rw [before]
              exact viable
            · rw [upTo, List.map_append]
              exact lost
            · simp
        | @openEnd earlier condition word isCondition =>
            refine ⟨.openEnd, ⟨enough, _, word, ?_⟩, condition, List.getLast?_concat, rfl⟩
            rw [List.map_append, List.map_singleton, isCondition]

end Verdict

/-- Exactly one verdict fits a list of tokens, and parsing gives its result.  A list of fewer than
three tokens is too short; otherwise the error is at the first token behind which no word of the
grammar goes on, or at the condition at the end of a list that needs only a value to become a rule.
-/
theorem parseRules_reports_first_error (tokens : List Token) :
    (∃! verdict : Verdict, verdict.Fits tokens) ∧
      ∀ verdict : Verdict, verdict.Fits tokens → verdict.Gives tokens (parseRules tokens) := by
  obtain ⟨verdict, fits, gives⟩ := Verdict.exists_fits tokens
  constructor
  · exact ⟨verdict, fits, fun other fits' => fits'.unique fits⟩
  · intro other fits'
    obtain rfl := fits'.unique fits
    exact gives

/-- A connective in the place of a value is reported, although the list ends with a condition. -/
theorem parseRules_reports_connective :
    parseRules [⟨.field, "a", .unknown⟩, ⟨.condition, "TYPE", .unknown⟩,
        ⟨.logical, "AND", ⟨7, 1, 7⟩⟩, ⟨.condition, "IN", .unknown⟩] =
      .error (.unexpectedToken ⟨.logical, "AND", ⟨7, 1, 7⟩⟩) := by
  have viable : Viable [.field, .condition] := ⟨[.value], .field (.clause .nil)⟩
  have lost : ¬ Viable [.field, .condition, .logical] := by
    rintro ⟨more, word⟩
    have behind := word.value_behind 1 rfl
    cases behind
  obtain ⟨token, found, failed⟩ := (parseRules_reports_first_error [⟨.field, "a", .unknown⟩,
    ⟨.condition, "TYPE", .unknown⟩, ⟨.logical, "AND", ⟨7, 1, 7⟩⟩,
    ⟨.condition, "IN", .unknown⟩]).2 (.offender 2) ⟨by decide, viable, lost⟩
  cases found
  exact failed

end FieldRules
