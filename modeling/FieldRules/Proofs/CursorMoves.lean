import FieldRules.Proofs.ClauseGrammar

/-!
# How the cursor moves

The tokens never change: an operation can only move the cursor over them, and it moves it forwards.
This file says how far a step and a parse move it.  A step that fails has always passed one token.
If that was a condition, the token that is refused or missing is the next one; if it was the refused
token itself, the cursor stands behind it.
-/

namespace FieldRules
namespace Cursor

theorem index_le_length (cursor : Cursor) : cursor.index ≤ cursor.tokens.length := by
  rw [index, tokens, List.length_append, List.length_reverse]
  exact Nat.le_add_right _ _

theorem isAtEnd_iff {cursor : Cursor} :
    cursor.isAtEnd = true ↔ cursor.index = cursor.tokens.length := by
  rw [isAtEnd, List.isEmpty_iff_length_eq_zero, index, tokens, List.length_append,
    List.length_reverse]
  omega

theorem remaining_eq_drop (cursor : Cursor) :
    cursor.remaining = cursor.tokens.drop cursor.index := by
  rw [tokens, index, ← List.length_reverse, List.drop_left]

theorem getElem?_remaining (cursor : Cursor) (place : Nat) :
    cursor.remaining[place]? = cursor.tokens[cursor.index + place]? := by
  rw [remaining_eq_drop, List.getElem?_drop]

theorem peek_eq_getElem? (cursor : Cursor) : cursor.peek = cursor.tokens[cursor.index]? := by
  rw [peek, List.head?_eq_getElem?, getElem?_remaining, Nat.add_zero]

theorem index_le_advance (cursor : Cursor) : cursor.index ≤ cursor.advance.2.index := by
  rcases cursor with ⟨passed, remaining⟩
  cases remaining with
  | nil => exact Nat.le_refl _
  | cons token rest => exact Nat.le_succ _

theorem index_lt_advance {cursor : Cursor} (notAtEnd : ¬ cursor.isAtEnd = true) :
    cursor.index < cursor.advance.2.index := by
  rcases cursor with ⟨passed, remaining⟩
  cases remaining with
  | nil => exact absurd rfl notAtEnd
  | cons token rest => exact Nat.lt_succ_self _

theorem step_of_atEnd {cursor : Cursor} (field : String) (atEnd : cursor.isAtEnd = true) :
    cursor.step field = ⟨.ok (field, none), cursor, []⟩ := by
  rcases cursor with ⟨passed, remaining⟩
  obtain rfl := List.isEmpty_iff.mp atEnd
  rfl

theorem tokens_pass (passed rest : List Token) (token : Token) :
    tokens ⟨token :: passed, rest⟩ = tokens ⟨passed, token :: rest⟩ := by
  simp [tokens]

theorem Stepped.tokens_eq {field : String} {cursor : Cursor}
    {parsed : Parsed (String × Option Clause)} (stepped : Stepped field cursor parsed) :
    parsed.cursor.tokens = cursor.tokens := by
  cases stepped with
  | atEnd => rfl
  | field isField => exact tokens_pass _ _ _
  | clause isCondition isValue => exact (tokens_pass _ _ _).trans (tokens_pass _ _ _)
  | noValue isCondition => exact tokens_pass _ _ _
  | notValue isCondition notValue => exact tokens_pass _ _ _
  | misplaced notField notCondition => exact tokens_pass _ _ _

@[simp]
theorem tokens_step (cursor : Cursor) (field : String) :
    (cursor.step field).cursor.tokens = cursor.tokens :=
  (stepped_step cursor field).tokens_eq

/-- A step passes two tokens if it reads a clause, and otherwise one, unless none is left. -/
theorem Stepped.index_eq {field : String} {cursor : Cursor}
    {parsed : Parsed (String × Option Clause)} (stepped : Stepped field cursor parsed) :
    (∃ next clause, parsed.outcome = .ok (next, some clause)) ∧
        parsed.cursor.index = cursor.index + 2 ∨
      (¬ ∃ next clause, parsed.outcome = .ok (next, some clause)) ∧
        parsed.cursor.index = cursor.index + if cursor.isAtEnd then 0 else 1 := by
  cases stepped with
  | atEnd => exact Or.inr ⟨by simp, rfl⟩
  | field isField => exact Or.inr ⟨by simp, rfl⟩
  | clause isCondition isValue => exact Or.inl ⟨⟨_, _, rfl⟩, rfl⟩
  | noValue isCondition => exact Or.inr ⟨by simp, rfl⟩
  | notValue isCondition notValue => exact Or.inr ⟨by simp, rfl⟩
  | misplaced notField notCondition => exact Or.inr ⟨by simp, rfl⟩

theorem index_step_eq_add_two_iff (cursor : Cursor) (field : String) :
    (cursor.step field).cursor.index = cursor.index + 2 ↔
      ∃ next clause, (cursor.step field).outcome = .ok (next, some clause) := by
  rcases (stepped_step cursor field).index_eq with ⟨read, moved⟩ | ⟨notRead, moved⟩
  · exact ⟨fun _ => read, fun _ => moved⟩
  · refine ⟨fun two => ?_, fun read => absurd read notRead⟩
    rw [moved] at two
    split at two <;> omega

theorem index_le_step (cursor : Cursor) (field : String) :
    cursor.index ≤ (cursor.step field).cursor.index := by
  rcases (stepped_step cursor field).index_eq with ⟨_, moved⟩ | ⟨_, moved⟩ <;> omega

theorem index_lt_step {cursor : Cursor} (field : String) (notAtEnd : ¬ cursor.isAtEnd = true) :
    cursor.index < (cursor.step field).cursor.index := by
  rcases (stepped_step cursor field).index_eq with ⟨_, moved⟩ | ⟨_, moved⟩
  · omega
  · rw [if_neg notAtEnd] at moved
    omega

/-- A step that fails has passed one token.  It refuses the token behind a condition and leaves the
cursor before it, but a token that cannot begin a clause is refused after it has been passed, so
that the cursor stands behind it.  If the value of a condition is missing, the cursor stands at the
end. -/
theorem refused_token_stays_or_is_passed (cursor : Cursor) (field : String) :
    (∀ token, (cursor.step field).outcome = .error (.unexpectedToken token) →
      (cursor.step field).cursor.tokens = cursor.tokens ∧
      (cursor.step field).cursor.index = cursor.index + 1 ∧
      ((cursor.peek.map Token.kind = some .condition ∧ token.kind ≠ .value ∧
          (cursor.step field).cursor.peek = some token) ∨
        (cursor.peek = some token ∧ token.kind ≠ .field ∧ token.kind ≠ .condition ∧
          (cursor.step field).cursor.peek = cursor.tokens[cursor.index + 1]?))) ∧
    ∀ condition position,
      (cursor.step field).outcome = .error (.expectedValue condition position) →
      (cursor.step field).cursor.isAtEnd = true := by
  have sameTokens := tokens_step cursor field
  have stepped := stepped_step cursor field
  generalize cursor.step field = parsed at sameTokens stepped
  constructor
  · intro token refused
    refine ⟨sameTokens, ?_⟩
    cases stepped with
    | notValue isCondition notValue =>
        cases refused
        exact ⟨rfl, Or.inl ⟨congrArg some isCondition, notValue, rfl⟩⟩
    | @misplaced passed rest _ notField notCondition =>
        cases refused
        refine ⟨rfl, Or.inr ⟨rfl, notField, notCondition, ?_⟩⟩
        rw [peek_eq_getElem?, sameTokens]
        rfl
    | atEnd => cases refused
    | field isField => cases refused
    | clause isCondition isValue => cases refused
    | noValue isCondition => cases refused
  · intro condition position missing
    cases stepped with
    | noValue isCondition => rfl
    | atEnd => cases missing
    | field isField => cases missing
    | clause isCondition isValue => cases missing
    | notValue isCondition notValue => cases missing
    | misplaced notField notCondition => cases missing

/-- A comma behind a condition is still to come, but a comma in the place of a clause is behind the
cursor, which stands before the value.  The last condition has no value, and the cursor is at the
end. -/
theorem refused_token_stays_or_is_passed_comma :
    (step ⟨[], [⟨.condition, "IN", .unknown⟩, ⟨.separator, ",", .unknown⟩]⟩ "a").cursor.peek =
      some ⟨.separator, ",", .unknown⟩ ∧
    (step ⟨[], [⟨.separator, ",", .unknown⟩, ⟨.value, "1", .unknown⟩]⟩ "a").cursor.peek =
      some ⟨.value, "1", .unknown⟩ ∧
    (step ⟨[⟨.value, "1", .unknown⟩], [⟨.condition, "IN", .unknown⟩]⟩ "a").cursor.isAtEnd = true := by
  refine ⟨?behind, ?misplaced, ?missing⟩
  case behind =>
    obtain ⟨_, _, ⟨_, _, peekEq⟩ | ⟨different, _⟩⟩ := (refused_token_stays_or_is_passed
      ⟨[], [⟨.condition, "IN", .unknown⟩, ⟨.separator, ",", .unknown⟩]⟩ "a").1 _ rfl
    · exact peekEq
    · exact absurd different (by decide)
  case misplaced =>
    obtain ⟨_, _, ⟨isCondition, _⟩ | ⟨_, _, _, peekEq⟩⟩ := (refused_token_stays_or_is_passed
      ⟨[], [⟨.separator, ",", .unknown⟩, ⟨.value, "1", .unknown⟩]⟩ "a").1 _ rfl
    · exact absurd isCondition (by decide)
    · exact peekEq
  case missing =>
    exact (refused_token_stays_or_is_passed _ "a").2 "IN" .unknown rfl

theorem Ran.tokens_eq {field : String} {cursor : Cursor} {parsed : Parsed (List Clause)}
    (ran : Ran field cursor parsed) : parsed.cursor.tokens = cursor.tokens := by
  induction ran with
  | atEnd => rfl
  | field isField ran induction => exact induction.trans (tokens_pass _ _ _)
  | clause isCondition isValue ran induction =>
      exact induction.trans ((tokens_pass _ _ _).trans (tokens_pass _ _ _))
  | failed stepped => exact stepped.tokens_eq

theorem Ran.index_le {field : String} {cursor : Cursor} {parsed : Parsed (List Clause)}
    (ran : Ran field cursor parsed) : cursor.index ≤ parsed.cursor.index := by
  induction ran with
  | atEnd => exact Nat.le_refl _
  | field isField ran induction => exact Nat.le_of_succ_le induction
  | clause isCondition isValue ran induction =>
      exact Nat.le_of_succ_le (Nat.le_of_succ_le induction)
  | failed stepped =>
      rcases stepped.index_eq with ⟨_, moved⟩ | ⟨_, moved⟩
      · exact moved ▸ Nat.le_add_right _ _
      · exact moved ▸ Nat.le_add_right _ _

theorem Ran.atEnd_of_ok {field : String} {cursor : Cursor} {parsed : Parsed (List Clause)}
    (ran : Ran field cursor parsed) {clauses : List Clause} (succeeded : parsed.outcome = .ok clauses) :
    parsed.cursor.isAtEnd = true := by
  induction ran generalizing clauses with
  | atEnd => rfl
  | field isField ran induction => exact induction succeeded
  | clause isCondition isValue ran induction =>
      obtain ⟨later, laterEq, _⟩ := outcome_map_eq_ok.mp succeeded
      exact induction laterEq
  | failed stepped => cases succeeded

@[simp]
theorem tokens_parse (cursor : Cursor) : cursor.parse.cursor.tokens = cursor.tokens := by
  by_cases short : cursor.tokens.length < minimumTokens
  · rw [parse_of_short short]
  · rw [cursor_parse_of_enough (Nat.not_lt.mp short)]
    exact (ran_clauses cursor "").tokens_eq

theorem index_le_parse (cursor : Cursor) : cursor.index ≤ cursor.parse.cursor.index := by
  by_cases short : cursor.tokens.length < minimumTokens
  · have unmoved : cursor.parse.cursor = cursor := by rw [parse_of_short short]
    exact Nat.le_of_eq (congrArg index unmoved.symm)
  · rw [cursor_parse_of_enough (Nat.not_lt.mp short)]
    exact (ran_clauses cursor "").index_le

theorem parse_eq_ok {cursor : Cursor} {root : Node} (parsed : cursor.parse.outcome = .ok root) :
    ClauseWord (cursor.remaining.map Token.kind) ∧
      root = Node.ofClauses (RulePart.clausesOf "" (cursor.remaining.map Token.part)) ∧
      cursor.parse.cursor.isAtEnd = true := by
  by_cases short : cursor.tokens.length < minimumTokens
  · rw [parse_of_short short] at parsed
    cases parsed
  · have enough : minimumTokens ≤ cursor.tokens.length := Nat.not_lt.mp short
    rw [outcome_parse_of_enough enough] at parsed
    obtain ⟨clauses, clausesEq, rfl⟩ := outcome_map_eq_ok.mp parsed
    obtain ⟨word, rfl⟩ := outcome_clauses_eq_ok.mp clausesEq
    rw [cursor_parse_of_enough enough]
    exact ⟨word, rfl, (ran_clauses cursor "").atEnd_of_ok clausesEq⟩

end Cursor
end FieldRules
