import FieldRules.Proofs.CursorSteps

/-!
# The grammar of clauses

A rule is a sequence of field references and clauses, and a clause is a condition with its value.
`ClauseWord` describes the sequences of kinds that make a rule, and `clausesOf` reads the clauses
off the places of the conditions, each with the last field before it.  The parser accepts these
sequences and finds these clauses.
-/

namespace FieldRules

/-- The sequences of kinds that make a rule. -/
inductive ClauseWord : List TokenKind → Prop
  | nil : ClauseWord []
  | field {rest : List TokenKind} (later : ClauseWord rest) : ClauseWord (.field :: rest)
  | clause {rest : List TokenKind} (later : ClauseWord rest) :
      ClauseWord (.condition :: .value :: rest)

namespace ClauseWord

theorem begins {kind : TokenKind} {rest : List TokenKind} (word : ClauseWord (kind :: rest)) :
    kind = .field ∨ kind = .condition := by
  cases word with
  | field later => exact Or.inl rfl
  | clause later => exact Or.inr rfl

/-- In a word of the grammar a value stands behind every condition. -/
theorem value_behind {kinds : List TokenKind} (word : ClauseWord kinds) (place : Nat)
    (isCondition : kinds[place]? = some .condition) : kinds[place + 1]? = some .value := by
  induction word generalizing place with
  | nil => simp at isCondition
  | field later induction =>
      cases place with
      | zero => simp at isCondition
      | succ place => exact induction place isCondition
  | clause later induction =>
      match place with
      | 0 => rfl
      | 1 => simp at isCondition
      | place + 2 => exact induction place isCondition

/-- What stands behind a word makes a longer word exactly if it is a word of its own. -/
theorem append_iff {front kinds : List TokenKind} (word : ClauseWord front) :
    ClauseWord (front ++ kinds) ↔ ClauseWord kinds := by
  induction word with
  | nil => exact Iff.rfl
  | field later induction =>
      constructor
      · intro longer
        cases longer with
        | field behind => exact induction.mp behind
      · intro behind
        exact .field (induction.mpr behind)
  | clause later induction =>
      constructor
      · intro longer
        cases longer with
        | clause behind => exact induction.mp behind
      · intro behind
        exact .clause (induction.mpr behind)

end ClauseWord

/-- What a piece of a rule says: its kind with the name inside a field reference, and with the text
of any other piece. -/
structure RulePart where
  kind : TokenKind
  content : String
  deriving DecidableEq, Repr

def Token.part (token : Token) : RulePart :=
  ⟨token.kind, if token.kind = .field then token.fieldName else token.value⟩

/-- The parts that tokens stand for depend on their kinds and texts only. -/
theorem Token.map_part (tokens : List Token) :
    tokens.map Token.part =
      (tokens.map fun token => (token.kind, token.value)).map fun shown =>
        Token.part ⟨shown.1, shown.2, Position.unknown⟩ := by
  rw [List.map_map]
  rfl

namespace RulePart

/-- The field in force behind some parts, given the one in force before them. -/
def fieldBehind (field : String) (parts : List RulePart) : String :=
  ((parts.filter fun part => part.kind = .field).getLast?.map content).getD field

def clauseAt? (field : String) (parts : List RulePart) (index : Nat) : Option Clause :=
  match parts[index]?, parts[index + 1]? with
  | some condition, some value =>
      if condition.kind = .condition then
        some ⟨fieldBehind field (parts.take index), condition.content, value.content⟩
      else none
  | _, _ => none

/-- The clauses of all conditions, in their order. -/
def clausesOf (field : String) (parts : List RulePart) : List Clause :=
  (List.range parts.length).filterMap (clauseAt? field parts)

theorem fieldBehind_cons (field : String) (part : RulePart) (parts : List RulePart) :
    fieldBehind field (part :: parts) =
      fieldBehind (if part.kind = .field then part.content else field) parts := by
  by_cases isField : part.kind = .field
  · cases last : (parts.filter fun part => part.kind = .field).getLast? with
    | none => simp [fieldBehind, isField, List.getLast?_cons, last]
    | some found => simp [fieldBehind, isField, List.getLast?_cons, last]
  · simp [fieldBehind, isField]

/-- The clauses behind the first part are those of the rest, with the field of the first part. -/
theorem clausesOf_cons (field : String) (part : RulePart) (parts : List RulePart) :
    clausesOf field (part :: parts) =
      (clauseAt? field (part :: parts) 0).toList ++
        clausesOf (if part.kind = .field then part.content else field) parts := by
  have shifted : clauseAt? field (part :: parts) ∘ Nat.succ =
      clauseAt? (if part.kind = .field then part.content else field) parts := by
    funext index
    simp only [Function.comp, clauseAt?, Nat.succ_eq_add_one, List.getElem?_cons_succ,
      List.take_succ_cons, fieldBehind_cons]
  rw [clausesOf, List.length_cons, List.range_succ_eq_map, List.filterMap_cons,
    List.filterMap_map, shifted, clausesOf]
  cases clauseAt? field (part :: parts) 0 with
  | none => rfl
  | some clause => rfl

theorem clausesOf_field (field : String) (part : RulePart) (parts : List RulePart)
    (isField : part.kind = .field) :
    clausesOf field (part :: parts) = clausesOf part.content parts := by
  rw [clausesOf_cons, if_pos isField]
  cases parts with
  | nil => rfl
  | cons next parts => simp [clauseAt?, isField]

theorem clausesOf_clause (field : String) (condition value : RulePart) (parts : List RulePart)
    (isCondition : condition.kind = .condition) (isValue : value.kind = .value) :
    clausesOf field (condition :: value :: parts) =
      ⟨field, condition.content, value.content⟩ :: clausesOf field parts := by
  rw [clausesOf_cons, clausesOf_cons]
  cases parts with
  | nil => simp [clauseAt?, isCondition, isValue, fieldBehind]
  | cons next parts => simp [clauseAt?, isCondition, isValue, fieldBehind]

end RulePart

namespace Cursor

open RulePart

theorem Stepped.not_clauseWord {field : String} {cursor after : Cursor} {error : RuleError}
    {events : List Event} (stepped : Stepped field cursor ⟨.error error, after, events⟩) :
    ¬ ClauseWord (cursor.remaining.map Token.kind) := by
  intro word
  cases stepped with
  | noValue isCondition =>
      have behind := word.value_behind 0 (by simp [isCondition])
      simp at behind
  | notValue isCondition notValue =>
      have behind := word.value_behind 0 (by simp [isCondition])
      exact notValue (by simpa using behind)
  | misplaced notField notCondition =>
      rcases word.begins with isField | isCondition
      · exact notField isField
      · exact notCondition isCondition

/-- The parser accepts the words of the grammar and finds their clauses. -/
theorem outcome_clauses_eq_ok {cursor : Cursor} {field : String} {result : List Clause} :
    (cursor.clauses field).outcome = .ok result ↔
      ClauseWord (cursor.remaining.map Token.kind) ∧
        result = clausesOf field (cursor.remaining.map Token.part) := by
  have ran := ran_clauses cursor field
  generalize cursor.clauses field = parsed at ran
  induction ran generalizing result with
  | atEnd =>
      constructor
      · intro succeeded
        exact ⟨.nil, (Except.ok.inj succeeded).symm⟩
      · rintro ⟨_, rfl⟩
        rfl
  | @field field _ rest token later isField ran induction =>
      have nameEq : token.part.content = token.fieldName := by
        simp [Token.part, isField]
      have clausesEq := clausesOf_field field token.part (rest.map Token.part) isField
      rw [List.map_cons, List.map_cons, isField, clausesEq, nameEq]
      constructor
      · intro succeeded
        obtain ⟨word, rfl⟩ := induction.mp succeeded
        exact ⟨.field word, rfl⟩
      · rintro ⟨word, rfl⟩
        cases word with
        | field word => exact induction.mpr ⟨word, rfl⟩
  | @clause field _ rest condition value later isCondition isValue ran induction =>
      have conditionEq : condition.part.content = condition.value := by
        simp [Token.part, isCondition]
      have valueEq : value.part.content = value.value := by
        simp [Token.part, isValue]
      have clausesEq := clausesOf_clause field condition.part value.part (rest.map Token.part)
        isCondition isValue
      rw [List.map_cons, List.map_cons, List.map_cons, List.map_cons, isCondition, isValue,
        clausesEq, conditionEq, valueEq]
      constructor
      · intro succeeded
        obtain ⟨laterClauses, laterEq, rfl⟩ := outcome_map_eq_ok.mp succeeded
        obtain ⟨word, rfl⟩ := induction.mp laterEq
        exact ⟨.clause word, rfl⟩
      · rintro ⟨word, rfl⟩
        cases word with
        | clause word =>
            exact outcome_map_eq_ok.mpr ⟨_, induction.mpr ⟨word, rfl⟩, rfl⟩
  | failed stepped =>
      constructor
      · intro succeeded
        cases succeeded
      · rintro ⟨word, _⟩
        exact absurd word stepped.not_clauseWord

end Cursor

theorem parseRules_eq_ok {tokens : List Token} {root : Node} :
    parseRules tokens = .ok root ↔
      minimumTokens ≤ tokens.length ∧ ClauseWord (tokens.map Token.kind) ∧
        root = Node.ofClauses (RulePart.clausesOf "" (tokens.map Token.part)) := by
  by_cases short : tokens.length < minimumTokens
  · rw [parseRules_of_short short]
    constructor
    · intro succeeded
      cases succeeded
    · rintro ⟨enough, _⟩
      omega
  · have enough : minimumTokens ≤ tokens.length := by omega
    rw [parseRules_of_enough enough, outcome_map_eq_ok]
    constructor
    · rintro ⟨clauses, clausesEq, rfl⟩
      obtain ⟨word, rfl⟩ := Cursor.outcome_clauses_eq_ok.mp clausesEq
      exact ⟨enough, word, rfl⟩
    · rintro ⟨_, word, rfl⟩
      exact ⟨_, Cursor.outcome_clauses_eq_ok.mpr ⟨word, rfl⟩, rfl⟩

end FieldRules
