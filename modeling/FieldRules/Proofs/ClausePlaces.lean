import FieldRules.Proofs.ClauseGrammar
import Mathlib.Data.List.Forall2

/-!
# The places of clauses

Parsing takes any list of tokens, whether they were scanned or put together by hand.  It accepts the
lists whose kinds are a word of the grammar, if they are long enough.  The tree of such a list has
one clause for each place of a condition: the text of the condition, the text of the token behind
it, and the name in the last field token before it.  Where the tokens stood in a text does not
matter.
-/

namespace FieldRules

namespace Token

/-- The field in force at a place: the one that the last field token before it names, and the empty
name if there is none. -/
def fieldBefore (tokens : List Token) (place : Nat) : String :=
  (((tokens.take place).filter fun token => token.kind = .field).getLast?.map fieldName).getD ""

/-- The places of the conditions, in their order. -/
def conditionPlaces (tokens : List Token) : List Nat :=
  (List.range tokens.length).filter fun place => tokens[place]?.map kind = some .condition

/-- The clause of the condition at a place. -/
inductive ClauseAt (tokens : List Token) : Nat → Clause → Prop
  | intro {place : Nat} {condition value : Token} (found : tokens[place]? = some condition)
      (isCondition : condition.kind = .condition) (behind : tokens[place + 1]? = some value)
      (isValue : value.kind = .value) :
      ClauseAt tokens place ⟨fieldBefore tokens place, condition.value, value.value⟩

end Token

namespace RulePart

theorem fieldBehind_map_part (tokens : List Token) (place : Nat) :
    fieldBehind "" ((tokens.map Token.part).take place) = Token.fieldBefore tokens place := by
  have fields : ((tokens.map Token.part).take place).filter (fun part => part.kind = .field) =
      ((tokens.take place).filter fun token => token.kind = .field).map Token.part := by
    rw [← List.map_take, List.filter_map]
    rfl
  rw [fieldBehind, fields, List.getLast?_map, Token.fieldBefore]
  cases last : ((tokens.take place).filter fun token => token.kind = .field).getLast? with
  | none => rfl
  | some token =>
      have isField : token.kind = .field := by
        simpa using (List.mem_filter.mp (List.mem_of_getLast? last)).2
      simp [Token.part, isField]

/-- In a list that is a word of the grammar, a clause is found at every condition. -/
theorem exists_clauseAt {tokens : List Token} {place : Nat}
    (word : ClauseWord (tokens.map Token.kind))
    (isCondition : tokens[place]?.map Token.kind = some .condition) :
    ∃ clause, clauseAt? "" (tokens.map Token.part) place = some clause ∧
      Token.ClauseAt tokens place clause := by
  obtain ⟨condition, found, conditionKind⟩ := Option.map_eq_some_iff.mp isCondition
  have valueBehind : tokens[place + 1]?.map Token.kind = some .value := by
    rw [← List.getElem?_map] at isCondition ⊢
    exact word.value_behind place isCondition
  obtain ⟨value, behind, valueKind⟩ := Option.map_eq_some_iff.mp valueBehind
  refine ⟨_, ?_, .intro found conditionKind behind valueKind⟩
  simp [clauseAt?, found, behind, fieldBehind_map_part, Token.part, conditionKind, valueKind]

theorem clauseAt?_eq_none {tokens : List Token} {place : Nat}
    (notCondition : tokens[place]?.map Token.kind ≠ some .condition) (field : String) :
    clauseAt? field (tokens.map Token.part) place = none := by
  rw [clauseAt?, List.getElem?_map, List.getElem?_map]
  cases found : tokens[place]? with
  | none => rfl
  | some token =>
      have kindNe : token.kind ≠ .condition := by
        simpa [found] using notCondition
      cases tokens[place + 1]? with
      | none => rfl
      | some next => exact if_neg kindNe

theorem forall₂_clausesOf {tokens : List Token} (word : ClauseWord (tokens.map Token.kind)) :
    List.Forall₂ (Token.ClauseAt tokens) (Token.conditionPlaces tokens)
      (clausesOf "" (tokens.map Token.part)) := by
  have isSome_iff : ∀ place, (clauseAt? "" (tokens.map Token.part) place).isSome =
      decide (tokens[place]?.map Token.kind = some .condition) := by
    intro place
    by_cases isCondition : tokens[place]?.map Token.kind = some .condition
    · obtain ⟨clause, found, _⟩ := exists_clauseAt word isCondition
      simp [found, isCondition]
    · simp [clauseAt?_eq_none isCondition, isCondition]
  have found : (Token.conditionPlaces tokens).map (clauseAt? "" (tokens.map Token.part)) =
      (clausesOf "" (tokens.map Token.part)).map some := by
    rw [clausesOf, List.map_filterMap_some_eq_filter_map_isSome, List.filter_map,
      Token.conditionPlaces, List.length_map]
    congr 2
    funext place
    exact (isSome_iff place).symm
  rw [← List.forall₂_eq_eq_eq, List.forall₂_map_left_iff, List.forall₂_map_right_iff] at found
  refine found.imp ?_
  intro place clause clauseEq
  have isCondition : tokens[place]?.map Token.kind = some .condition := by
    have isSome := isSome_iff place
    simpa [clauseEq] using isSome
  obtain ⟨same, sameEq, clauseAt⟩ := exists_clauseAt word isCondition
  rw [clauseEq] at sameEq
  exact Option.some.inj sameEq ▸ clauseAt

end RulePart

/-- Parsing accepts the lists of at least three tokens whose kinds are a word of the grammar.  The
children of the root are the expressions of its clauses, and these are the clauses at the places of
the conditions, in the same order.  Tokens with other positions give the same tree. -/
theorem parseRules_accepts_exactly (tokens : List Token) :
    ((∃ root, parseRules tokens = .ok root) ↔
      3 ≤ tokens.length ∧ ClauseWord (tokens.map Token.kind)) ∧
    ∀ root, parseRules tokens = .ok root →
      root = ⟨.root, "", root.clauses.map Node.ofClause⟩ ∧
      List.Forall₂ (Token.ClauseAt tokens) (Token.conditionPlaces tokens) root.clauses ∧
      ∀ others : List Token,
        (others.map fun token => (token.kind, token.value)) =
          (tokens.map fun token => (token.kind, token.value)) →
        parseRules others = .ok root := by
  constructor
  · constructor
    · rintro ⟨root, parsed⟩
      obtain ⟨enough, word, _⟩ := parseRules_eq_ok.mp parsed
      exact ⟨enough, word⟩
    · rintro ⟨enough, word⟩
      exact ⟨_, parseRules_eq_ok.mpr ⟨enough, word, rfl⟩⟩
  · intro root parsed
    obtain ⟨enough, word, rfl⟩ := parseRules_eq_ok.mp parsed
    rw [Node.clauses_ofClauses]
    refine ⟨rfl, RulePart.forall₂_clausesOf word, ?_⟩
    intro others same
    have parts : others.map Token.part = tokens.map Token.part := by
      rw [Token.map_part, same, ← Token.map_part]
    have kinds : others.map Token.kind = tokens.map Token.kind := by
      have partKinds := congrArg (List.map RulePart.kind) parts
      rw [List.map_map, List.map_map] at partKinds
      exact partKinds
    have lengths : others.length = tokens.length := by
      have kindLengths := congrArg List.length kinds
      rw [List.length_map, List.length_map] at kindLengths
      exact kindLengths
    apply parseRules_eq_ok.mpr
    rw [parts, kinds, lengths]
    exact ⟨enough, word, rfl⟩

/-- A field stays in force for a second condition, and moving the tokens changes nothing. -/
theorem parseRules_accepts_carried_field :
    parseRules [⟨.field, "FIELD(\"a\")", ⟨0, 1, 0⟩⟩, ⟨.condition, "TYPE", ⟨11, 1, 11⟩⟩,
        ⟨.value, "'int'", ⟨16, 1, 16⟩⟩, ⟨.condition, "IN", ⟨22, 2, 0⟩⟩, ⟨.value, "(1)", ⟨25, 2, 3⟩⟩] =
      .ok (Node.ofClauses [⟨"a", "TYPE", "'int'"⟩, ⟨"a", "IN", "(1)"⟩]) ∧
    parseRules [⟨.field, "FIELD(\"a\")", .unknown⟩, ⟨.condition, "TYPE", .unknown⟩,
        ⟨.value, "'int'", .unknown⟩, ⟨.condition, "IN", .unknown⟩, ⟨.value, "(1)", .unknown⟩] =
      .ok (Node.ofClauses [⟨"a", "TYPE", "'int'"⟩, ⟨"a", "IN", "(1)"⟩]) := by
  refine ⟨?parsed, ((parseRules_accepts_exactly _).2 _ ?parsed).2.2 _ rfl⟩
  exact parseRules_eq_ok.mpr ⟨by decide, .field (.clause (.clause .nil)), rfl⟩

end FieldRules
