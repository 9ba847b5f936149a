import FieldRules.Proofs.ClausePlaces
import FieldRules.Proofs.FirstError

/-!
# Rules one behind the other

A list of tokens that is a rule ends between two clauses, so parsing what stands behind it begins
like parsing a rule of its own.  Only the field in force is carried over: the conditions before the
first field of the second rule are about the last field of the first.  An error of the second rule
does not depend on that field, so it is the error of the whole.
-/

namespace FieldRules

/-- The number of conditions before the first field. -/
def leadingConditions (kinds : List TokenKind) : Nat :=
  (kinds.takeWhile (· ≠ .field)).count .condition

theorem leadingConditions_of_field {kinds : List TokenKind} (begins : kinds.head? = some .field) :
    leadingConditions kinds = 0 := by
  obtain ⟨rest, rfl⟩ := List.head?_eq_some_iff.mp begins
  simp [leadingConditions]

def Clause.withField (field : String) (clause : Clause) : Clause :=
  { clause with field := field }

theorem Token.kinds_map_part (tokens : List Token) :
    (tokens.map Token.part).map RulePart.kind = tokens.map Token.kind := by
  rw [List.map_map]
  rfl

namespace RulePart

theorem clausesOf_append {front : List RulePart} (word : ClauseWord (front.map RulePart.kind))
    (field : String) (parts : List RulePart) :
    clausesOf field (front ++ parts) =
      clausesOf field front ++ clausesOf (fieldBehind field front) parts := by
  generalize kindsEq : front.map RulePart.kind = kinds at word
  induction word generalizing front field with
  | nil =>
      obtain rfl := List.map_eq_nil_iff.mp kindsEq
      rfl
  | field later induction =>
      obtain ⟨part, rest, rfl, isField, restEq⟩ := List.map_eq_cons_iff.mp kindsEq
      rw [List.cons_append, clausesOf_field _ _ _ isField, clausesOf_field _ _ _ isField,
        fieldBehind_cons, if_pos isField, induction _ restEq]
  | clause later induction =>
      obtain ⟨condition, others, rfl, isCondition, othersEq⟩ := List.map_eq_cons_iff.mp kindsEq
      obtain ⟨value, rest, rfl, isValue, restEq⟩ := List.map_eq_cons_iff.mp othersEq
      have sameField : fieldBehind field (condition :: value :: rest) = fieldBehind field rest := by
        simp [fieldBehind_cons, isCondition, isValue]
      rw [List.cons_append, List.cons_append, clausesOf_clause _ _ _ _ isCondition isValue,
        clausesOf_clause _ _ _ _ isCondition isValue, sameField, induction _ restEq]
      rfl

/-- The field in force before a rule is that of the clauses before its first field, and of no
others. -/
theorem clausesOf_eq_withField {parts : List RulePart}
    (word : ClauseWord (parts.map RulePart.kind)) (field other : String) :
    clausesOf field parts =
      ((clausesOf other parts).take (leadingConditions (parts.map RulePart.kind))).map
          (Clause.withField field) ++
        (clausesOf other parts).drop (leadingConditions (parts.map RulePart.kind)) := by
  generalize kindsEq : parts.map RulePart.kind = kinds at word
  induction word generalizing parts with
  | nil =>
      obtain rfl := List.map_eq_nil_iff.mp kindsEq
      rfl
  | field later induction =>
      obtain ⟨part, rest, rfl, isField, _⟩ := List.map_eq_cons_iff.mp kindsEq
      simp [leadingConditions, clausesOf_field _ _ _ isField]
  | @clause kinds later induction =>
      obtain ⟨condition, others, rfl, isCondition, othersEq⟩ := List.map_eq_cons_iff.mp kindsEq
      obtain ⟨value, rest, rfl, isValue, restEq⟩ := List.map_eq_cons_iff.mp othersEq
      have oneMore : leadingConditions (.condition :: .value :: kinds) =
          leadingConditions kinds + 1 := by
        simp [leadingConditions]
      rw [oneMore, clausesOf_clause _ _ _ _ isCondition isValue,
        clausesOf_clause _ _ _ _ isCondition isValue, List.take_succ_cons, List.drop_succ_cons,
        List.map_cons, List.cons_append, ← induction restEq]
      rfl

theorem field_eq_of_leading {parts : List RulePart} (word : ClauseWord (parts.map RulePart.kind))
    {field : String} {clause : Clause}
    (leading : clause ∈
      (clausesOf field parts).take (leadingConditions (parts.map RulePart.kind))) :
    clause.field = field := by
  have split := clausesOf_eq_withField word field field
  have unchanged := List.append_cancel_right (split.symm.trans (List.take_append_drop _ _).symm)
  rw [← unchanged] at leading
  obtain ⟨before, _, rfl⟩ := List.mem_map.mp leading
  rfl

/-- The clauses of two rules one behind the other. -/
theorem clausesOf_joined {first second : List Token} (wordFirst : ClauseWord (first.map Token.kind))
    (wordSecond : ClauseWord (second.map Token.kind)) :
    clausesOf "" ((first ++ second).map Token.part) =
      clausesOf "" (first.map Token.part) ++
        (((clausesOf "" (second.map Token.part)).take
            (leadingConditions (second.map Token.kind))).map
          (Clause.withField (Token.fieldBefore first first.length)) ++
        (clausesOf "" (second.map Token.part)).drop
          (leadingConditions (second.map Token.kind))) := by
  rw [← Token.kinds_map_part] at wordFirst wordSecond
  have carried : fieldBehind "" (first.map Token.part) = Token.fieldBefore first first.length := by
    rw [← fieldBehind_map_part, ← List.length_map Token.part, List.take_length]
  rw [List.map_append, clausesOf_append wordFirst, carried, clausesOf_eq_withField wordSecond _ "",
    Token.kinds_map_part]

end RulePart

/-- Parsing is compatible with putting rules one behind the other.  An error of the second rule is
the error of both, and otherwise the expressions of the second, one for each of its conditions,
follow those of the first.  The expressions of the conditions before its first field had no field of
their own: they are about the last field of the first rule, if it has one. -/
theorem parseRules_append {first second : List Token} {root : Node}
    (parsed : parseRules first = .ok root) (enough : 3 ≤ second.length) :
    (∀ error, parseRules second = .error error → parseRules (first ++ second) = .error error) ∧
    ∀ other, parseRules second = .ok other →
      other.children = other.clauses.map Node.ofClause ∧
      List.Forall₂ (Token.ClauseAt second) (Token.conditionPlaces second) other.clauses ∧
      (∀ clause ∈ other.clauses.take (leadingConditions (second.map Token.kind)),
        clause.field = "") ∧
      parseRules (first ++ second) = .ok ⟨.root, "", root.children ++
        ((other.clauses.take (leadingConditions (second.map Token.kind))).map fun clause =>
          Node.ofClause { clause with field := Token.fieldBefore first first.length }) ++
        other.children.drop (leadingConditions (second.map Token.kind))⟩ ∧
      ((second.map Token.kind).head? = some .field →
        parseRules (first ++ second) = .ok ⟨.root, "", root.children ++ other.children⟩) := by
  obtain ⟨_, wordFirst, rfl⟩ := parseRules_eq_ok.mp parsed
  have enoughBoth : minimumTokens ≤ (first ++ second).length := by
    rw [List.length_append]
    exact Nat.le_add_left_of_le enough
  constructor
  · intro error failed
    apply (parseRules_eq_error enoughBoth).mpr
    exact ((parseRules_eq_error enough).mp failed).behind wordFirst
  · intro other parsedOther
    obtain ⟨_, wordSecond, rfl⟩ := parseRules_eq_ok.mp parsedOther
    have wordBoth : ClauseWord ((first ++ second).map Token.kind) := by
      rw [List.map_append]
      exact wordFirst.append_iff.mpr wordSecond
    have joined := parseRules_eq_ok.mpr ⟨enoughBoth, wordBoth, rfl⟩
    rw [RulePart.clausesOf_joined wordFirst wordSecond] at joined
    rw [Node.clauses_ofClauses]
    refine ⟨rfl, RulePart.forall₂_clausesOf wordSecond, ?leading, ?children, ?begins⟩
    case leading =>
      intro clause leading
      rw [← Token.kinds_map_part] at wordSecond leading
      exact RulePart.field_eq_of_leading wordSecond leading
    case children =>
      rw [joined]
      simp only [Node.ofClauses, List.map_append, List.map_map, List.map_drop, List.append_assoc]
      rfl
    case begins =>
      intro begins
      rw [joined, leadingConditions_of_field begins]
      simp [Node.ofClauses]

/-- The first condition of the second rule takes over the field of the first, and the second one
does not.  A connective in the second rule is reported as if the rule stood alone. -/
theorem parseRules_append_carried :
    parseRules ([⟨.field, "a", .unknown⟩, ⟨.condition, "IN", .unknown⟩, ⟨.value, "(1)", .unknown⟩] ++
        [⟨.condition, "TYPE", .unknown⟩, ⟨.value, "'int'", .unknown⟩, ⟨.field, "b", .unknown⟩,
          ⟨.condition, "RANGE", .unknown⟩, ⟨.value, "18", .unknown⟩]) =
      .ok (Node.ofClauses [⟨"a", "IN", "(1)"⟩, ⟨"a", "TYPE", "'int'"⟩, ⟨"b", "RANGE", "18"⟩]) ∧
    parseRules ([⟨.field, "a", .unknown⟩, ⟨.condition, "IN", .unknown⟩, ⟨.value, "(1)", .unknown⟩] ++
        [⟨.condition, "TYPE", .unknown⟩, ⟨.logical, "OR", .unknown⟩, ⟨.value, "2", .unknown⟩]) =
      .error (.unexpectedToken ⟨.logical, "OR", .unknown⟩) := by
  have parsed : parseRules [⟨.field, "a", .unknown⟩, ⟨.condition, "IN", .unknown⟩,
      ⟨.value, "(1)", .unknown⟩] = .ok (Node.ofClauses [⟨"a", "IN", "(1)"⟩]) :=
    parseRules_eq_ok.mpr ⟨by decide, .field (.clause .nil), rfl⟩
  have parsedOther : parseRules [⟨.condition, "TYPE", .unknown⟩, ⟨.value, "'int'", .unknown⟩,
      ⟨.field, "b", .unknown⟩, ⟨.condition, "RANGE", .unknown⟩, ⟨.value, "18", .unknown⟩] =
        .ok (Node.ofClauses [⟨"", "TYPE", "'int'"⟩, ⟨"b", "RANGE", "18"⟩]) :=
    parseRules_eq_ok.mpr ⟨by decide, .clause (.field (.clause .nil)), rfl⟩
  have first : FirstError [⟨.condition, "TYPE", .unknown⟩, ⟨.logical, "OR", .unknown⟩,
      ⟨.value, "2", .unknown⟩] (.unexpectedToken ⟨.logical, "OR", .unknown⟩) := by
    apply FirstError.offender [⟨.condition, "TYPE", .unknown⟩]
    · exact ClauseWord.nil.viable_condition
    · rintro ⟨more, word⟩
      cases word.value_behind 0 rfl
  constructor
  · exact ((parseRules_append parsed (by decide)).2 _ parsedOther).2.2.2.1
  · exact (parseRules_append parsed (by decide)).1 _ ((parseRules_eq_error (by decide)).mpr first)

end FieldRules
