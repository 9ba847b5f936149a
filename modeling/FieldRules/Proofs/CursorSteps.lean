import FieldRules.Cursor
import FieldRules.Proofs.Outcomes

/-!
# The steps of a cursor

A step of the parser has six outcomes, which depend on the kinds of the next two tokens.  `Stepped`
lists them once, with the cursor and the events that belong to each.  `Ran` does the same for a run
of steps, so that statements about the parser are proved by induction on its run.
-/

namespace FieldRules

namespace Cursor

inductive Stepped (field : String) : Cursor → Parsed (String × Option Clause) → Prop
  | atEnd {passed : List Token} :
      Stepped field ⟨passed, []⟩ ⟨.ok (field, none), ⟨passed, []⟩, []⟩
  | field {passed rest : List Token} {token : Token} (isField : token.kind = .field) :
      Stepped field ⟨passed, token :: rest⟩
        ⟨.ok (token.fieldName, none), ⟨token :: passed, rest⟩, [.currentField token.fieldName]⟩
  | clause {passed rest : List Token} {condition value : Token}
      (isCondition : condition.kind = .condition) (isValue : value.kind = .value) :
      Stepped field ⟨passed, condition :: value :: rest⟩
        ⟨.ok (field, some ⟨field, condition.value, value.value⟩),
          ⟨value :: condition :: passed, rest⟩,
          [.expression ⟨field, condition.value, value.value⟩]⟩
  | noValue {passed : List Token} {condition : Token}
      (isCondition : condition.kind = .condition) :
      Stepped field ⟨passed, [condition]⟩
        ⟨.error (.expectedValue condition.value condition.position),
          ⟨condition :: passed, []⟩, []⟩
  | notValue {passed rest : List Token} {condition other : Token}
      (isCondition : condition.kind = .condition) (notValue : other.kind ≠ .value) :
      Stepped field ⟨passed, condition :: other :: rest⟩
        ⟨.error (.unexpectedToken other), ⟨condition :: passed, other :: rest⟩, []⟩
  | misplaced {passed rest : List Token} {token : Token} (notField : token.kind ≠ .field)
      (notCondition : token.kind ≠ .condition) :
      Stepped field ⟨passed, token :: rest⟩
        ⟨.error (.unexpectedToken token), ⟨token :: passed, rest⟩, []⟩

theorem stepped_step (cursor : Cursor) (field : String) :
    Stepped field cursor (cursor.step field) := by
  rcases cursor with ⟨passed, remaining⟩
  cases remaining with
  | nil => exact .atEnd
  | cons token rest =>
      unfold step
      dsimp only
      split
      · rename_i isField
        exact .field isField
      · rename_i isCondition
        cases rest with
        | nil => exact .noValue isCondition
        | cons next later =>
            dsimp only
            split
            · rename_i isValue
              exact .clause isCondition isValue
            · rename_i notValue
              exact .notValue isCondition notValue
      · rename_i notField notCondition
        exact .misplaced notField notCondition

theorem clauses_atEnd (passed : List Token) (field : String) :
    clauses ⟨passed, []⟩ field = ⟨.ok [], ⟨passed, []⟩, []⟩ := by
  unfold clauses
  simp [isAtEnd]

theorem clauses_of_ok {passed rest : List Token} {token : Token} {field next : String}
    {clause? : Option Clause} {after : Cursor} {events : List Event}
    (stepEq : step ⟨passed, token :: rest⟩ field = ⟨.ok (next, clause?), after, events⟩) :
    clauses ⟨passed, token :: rest⟩ field =
      ⟨(after.clauses next).outcome.map (clause?.toList ++ ·), (after.clauses next).cursor,
        events ++ (after.clauses next).events⟩ := by
  rw [clauses.eq_1]
  simp [isAtEnd, stepEq]

theorem clauses_of_error {passed rest : List Token} {token : Token} {field : String}
    {error : RuleError} {after : Cursor} {events : List Event}
    (stepEq : step ⟨passed, token :: rest⟩ field = ⟨.error error, after, events⟩) :
    clauses ⟨passed, token :: rest⟩ field = ⟨.error error, after, events⟩ := by
  rw [clauses.eq_1]
  simp [isAtEnd, stepEq]

/-- What a run of steps gives: it reads fields and clauses up to the end or to the first step that
fails. -/
inductive Ran : String → Cursor → Parsed (List Clause) → Prop
  | atEnd {field : String} {passed : List Token} :
      Ran field ⟨passed, []⟩ ⟨.ok [], ⟨passed, []⟩, []⟩
  | field {field : String} {passed rest : List Token} {token : Token}
      {later : Parsed (List Clause)} (isField : token.kind = .field)
      (ran : Ran token.fieldName ⟨token :: passed, rest⟩ later) :
      Ran field ⟨passed, token :: rest⟩
        ⟨later.outcome, later.cursor, .currentField token.fieldName :: later.events⟩
  | clause {field : String} {passed rest : List Token} {condition value : Token}
      {later : Parsed (List Clause)} (isCondition : condition.kind = .condition)
      (isValue : value.kind = .value)
      (ran : Ran field ⟨value :: condition :: passed, rest⟩ later) :
      Ran field ⟨passed, condition :: value :: rest⟩
        ⟨later.outcome.map (⟨field, condition.value, value.value⟩ :: ·), later.cursor,
          .expression ⟨field, condition.value, value.value⟩ :: later.events⟩
  | failed {field : String} {cursor after : Cursor} {error : RuleError}
      (stepped : Stepped field cursor ⟨.error error, after, []⟩) :
      Ran field cursor ⟨.error error, after, []⟩

theorem ran_clauses (cursor : Cursor) (field : String) :
    Ran field cursor (cursor.clauses field) := by
  rcases cursor with ⟨passed, remaining⟩
  induction length : remaining.length using Nat.strongRecOn
    generalizing passed remaining field with
  | ind bound induction =>
      generalize stepEq : step ⟨passed, remaining⟩ field = parsed
      have stepped := stepped_step ⟨passed, remaining⟩ field
      rw [stepEq] at stepped
      cases stepped with
      | atEnd =>
          rw [clauses_atEnd]
          exact .atEnd
      | @field _ rest token isField =>
          have shorter : rest.length < bound := by
            rw [← length, List.length_cons]
            omega
          have same : ∀ outcome : Except RuleError (List Clause),
              outcome.map ((none : Option Clause).toList ++ ·) = outcome := by
            intro outcome
            cases outcome <;> rfl
          rw [clauses_of_ok stepEq, same]
          exact .field isField (induction _ shorter _ _ _ rfl)
      | @clause _ rest condition value isCondition isValue =>
          have shorter : rest.length < bound := by
            rw [← length, List.length_cons, List.length_cons]
            omega
          rw [clauses_of_ok stepEq]
          exact .clause isCondition isValue (induction _ shorter _ _ _ rfl)
      | noValue isCondition =>
          rw [clauses_of_error stepEq]
          exact .failed (.noValue isCondition)
      | notValue isCondition notValue =>
          rw [clauses_of_error stepEq]
          exact .failed (.notValue isCondition notValue)
      | misplaced notField notCondition =>
          rw [clauses_of_error stepEq]
          exact .failed (.misplaced notField notCondition)

theorem parse_of_short {cursor : Cursor} (short : cursor.tokens.length < minimumTokens) :
    cursor.parse = ⟨.error (.insufficientTokens cursor.tokens.length), cursor, []⟩ := by
  rw [parse, if_pos short]

section Enough

variable {cursor : Cursor} (enough : minimumTokens ≤ cursor.tokens.length)

include enough

/-- A parse of enough tokens is a run of steps without a field in force, which records how many
clauses it has read if it succeeds. -/
theorem parse_of_enough :
    cursor.parse =
      ⟨(cursor.clauses "").outcome.map Node.ofClauses, (cursor.clauses "").cursor,
        (cursor.clauses "").events ++
          ((cursor.clauses "").outcome.toOption.map fun clauses => .parsed clauses.length).toList⟩ := by
  rw [parse, if_neg (Nat.not_lt.mpr enough)]
  cases outcomeEq : (cursor.clauses "").outcome with
  | error error => simp [outcomeEq, Except.map, Except.toOption]
  | ok clauses => simp [outcomeEq, Except.map, Except.toOption]

theorem outcome_parse_of_enough :
    cursor.parse.outcome = (cursor.clauses "").outcome.map Node.ofClauses := by
  rw [parse_of_enough enough]

theorem cursor_parse_of_enough : cursor.parse.cursor = (cursor.clauses "").cursor := by
  rw [parse_of_enough enough]

end Enough

end Cursor

theorem parseRules_of_short {tokens : List Token} (short : tokens.length < minimumTokens) :
    parseRules tokens = .error (.insufficientTokens tokens.length) := by
  have shortCursor : (Cursor.ofTokens tokens).tokens.length < minimumTokens := short
  rw [parseRules, Cursor.parse_of_short shortCursor, Cursor.tokens_ofTokens]

theorem parseRules_of_enough {tokens : List Token} (enough : minimumTokens ≤ tokens.length) :
    parseRules tokens =
      ((Cursor.ofTokens tokens).clauses "").outcome.map Node.ofClauses :=
  Cursor.outcome_parse_of_enough enough

end FieldRules
