import FieldRules.Proofs.CallSessions
import FieldRules.Proofs.FirstError

/-!
# Parsing from a moved cursor

A parse begins where earlier calls have left the cursor, also if they have failed in the middle of a
clause.  It reads the tokens behind the cursor as a rule of its own: no field is in force at its
beginning, whatever the steps before it had in force.  Only the count of tokens looks at the whole
list, so a short rest of a long list is read, and a short list is refused from every place in it.
-/

namespace FieldRules

/-- The cursor is reached from the beginning of the tokens by some calls. -/
inductive Cursor.Reached (tokens : List Token) : Cursor → Prop
  | start : Reached tokens (ofTokens tokens)
  | call {cursor : Cursor} (reached : Reached tokens cursor) (call : Call) :
      Reached tokens (cursor.exchange call).after

theorem Cursor.Reached.tokens_eq {tokens : List Token} {cursor : Cursor}
    (reached : Reached tokens cursor) : cursor.tokens = tokens := by
  induction reached with
  | start => exact tokens_ofTokens tokens
  | @call cursor reached call induction => exact (tokens_exchange cursor call).trans induction

/-- What the grammar says about tokens in front of which no field is in force. -/
inductive Prescribed (tokens : List Token) : Except RuleError Node → Prop
  | rule {clauses : List Clause} (word : ClauseWord (tokens.map Token.kind))
      (found : List.Forall₂ (Token.ClauseAt tokens) (Token.conditionPlaces tokens) clauses) :
      Prescribed tokens (.ok ⟨.root, "", clauses.map Node.ofClause⟩)
  | refused {error : RuleError} (first : FirstError tokens error) :
      Prescribed tokens (.error error)

theorem Token.ClauseAt.unique {tokens : List Token} {place : Nat} {clause other : Clause}
    (clauseAt : ClauseAt tokens place clause) (otherAt : ClauseAt tokens place other) :
    clause = other := by
  obtain ⟨found, _, behind, _⟩ := clauseAt
  obtain ⟨found', _, behind', _⟩ := otherAt
  obtain rfl := Option.some.inj (found.symm.trans found')
  obtain rfl := Option.some.inj (behind.symm.trans behind')
  rfl

namespace Prescribed

variable {tokens : List Token}

theorem nothing : Prescribed [] (.ok ⟨.root, "", []⟩) :=
  @rule [] [] .nil .nil

theorem ne_insufficientTokens {result : Except RuleError Node} (prescribed : Prescribed tokens result)
    (found : Nat) : result ≠ .error (.insufficientTokens found) := by
  rintro rfl
  cases prescribed with
  | refused first => cases first

/-- The result of a run without a field in force is the one that the grammar prescribes. -/
theorem iff_clauses {cursor : Cursor} {result : Except RuleError Node} :
    Prescribed cursor.remaining result ↔
      (cursor.clauses "").outcome.map Node.ofClauses = result := by
  constructor
  · intro prescribed
    cases prescribed with
    | rule word found =>
        apply outcome_map_eq_ok.mpr
        refine ⟨_, Cursor.outcome_clauses_eq_ok.mpr ⟨word, rfl⟩, ?_⟩
        have functional : Relator.RightUnique (Token.ClauseAt cursor.remaining) :=
          fun _ _ _ => Token.ClauseAt.unique
        rw [List.right_unique_forall₂' functional (RulePart.forall₂_clausesOf word) found,
          Node.ofClauses]
    | refused first =>
        exact outcome_map_eq_error.mpr (Cursor.outcome_clauses_eq_error.mpr first)
  · rintro rfl
    cases outcomeEq : (cursor.clauses "").outcome with
    | ok clauses =>
        obtain ⟨word, rfl⟩ := Cursor.outcome_clauses_eq_ok.mp outcomeEq
        exact .rule word (RulePart.forall₂_clausesOf word)
    | error error => exact .refused (Cursor.outcome_clauses_eq_error.mp outcomeEq)

theorem iff_parseRules (enough : minimumTokens ≤ tokens.length) {result : Except RuleError Node} :
    Prescribed tokens result ↔ parseRules tokens = result := by
  rw [parseRules_of_enough enough]
  exact @iff_clauses (Cursor.ofTokens tokens) result

end Prescribed

/-- From every cursor that calls can reach, parsing gives what the grammar prescribes for the tokens
behind the cursor, if there are enough tokens in all.  So it does what parsing the rest alone does,
unless the rest is too short for that; then it still reads the rest and gives an empty tree at the
end. A successful parse leaves the cursor at the end.  If there are too few tokens in all, parsing
is refused from every cursor and does not move it. -/
theorem parse_resumes {tokens : List Token} {cursor : Cursor}
    (reached : Cursor.Reached tokens cursor) :
    (3 ≤ tokens.length →
      (∀ result, cursor.parse.outcome = result ↔
        Prescribed (tokens.drop cursor.index) result) ∧
      (3 ≤ (tokens.drop cursor.index).length →
        cursor.parse.outcome = parseRules (tokens.drop cursor.index)) ∧
      (∀ found, cursor.parse.outcome ≠ .error (.insufficientTokens found)) ∧
      (cursor.index = tokens.length → cursor.parse.outcome = .ok ⟨.root, "", []⟩) ∧
      ∀ root, cursor.parse.outcome = .ok root → cursor.parse.cursor.isAtEnd = true) ∧
    (tokens.length < 3 →
      cursor.parse.outcome = .error (.insufficientTokens tokens.length) ∧
        cursor.parse.cursor = cursor) := by
  obtain rfl := reached.tokens_eq
  rw [← Cursor.remaining_eq_drop]
  constructor
  · intro enough
    have prescribed : ∀ result, cursor.parse.outcome = result ↔
        Prescribed cursor.remaining result := by
      intro result
      rw [Cursor.outcome_parse_of_enough enough, Prescribed.iff_clauses]
    refine ⟨prescribed, ?rest, ?counted, ?atEnd, ?succeeded⟩
    case rest =>
      intro enoughLeft
      exact (prescribed _).mpr ((Prescribed.iff_parseRules enoughLeft).mpr rfl)
    case counted =>
      exact ((prescribed _).mp rfl).ne_insufficientTokens
    case atEnd =>
      intro atEnd
      have nothingLeft : cursor.remaining = [] := by
        rw [cursor.remaining_eq_drop, atEnd, List.drop_length]
      apply (prescribed _).mpr
      rw [nothingLeft]
      exact Prescribed.nothing
    case succeeded =>
      intro root parsed
      exact (Cursor.parse_eq_ok parsed).2.2
  · intro short
    rw [Cursor.parse_of_short short]
    exact ⟨rfl, rfl⟩

/-- A step sets a field, the next one fails behind its condition, and the comma is passed over.  The
two tokens that are left would be too few for a rule of their own, but they are read, without the
field.  The other list is too short as a whole, and parsing it is refused behind its first token as
well. -/
theorem parse_resumes_behind_failure :
    (∃ cursor, Cursor.Reached [⟨.field, "a", .unknown⟩, ⟨.condition, "IN", .unknown⟩,
        ⟨.separator, ",", .unknown⟩, ⟨.condition, "TYPE", .unknown⟩, ⟨.value, "1", .unknown⟩] cursor ∧
      cursor.index = 3 ∧
      cursor.parse.outcome = .ok (Node.ofClauses [⟨"", "TYPE", "1"⟩]) ∧
      cursor.parse.cursor.isAtEnd = true) ∧
    ∃ cursor, Cursor.Reached [⟨.field, "a", .unknown⟩, ⟨.value, "1", .unknown⟩] cursor ∧
      cursor.index = 1 ∧ cursor.parse.outcome = .error (.insufficientTokens 2) := by
  constructor
  · have reached : Cursor.Reached [⟨.field, "a", .unknown⟩, ⟨.condition, "IN", .unknown⟩,
        ⟨.separator, ",", .unknown⟩, ⟨.condition, "TYPE", .unknown⟩, ⟨.value, "1", .unknown⟩] _ :=
      ((Cursor.Reached.start.call (.step "b")).call (.step "a")).call .advance
    have clauseAt : Token.ClauseAt [⟨.condition, "TYPE", .unknown⟩, ⟨.value, "1", .unknown⟩] 0
        ⟨"", "TYPE", "1"⟩ :=
      @Token.ClauseAt.intro _ 0 ⟨.condition, "TYPE", .unknown⟩ ⟨.value, "1", .unknown⟩
        rfl rfl rfl rfl
    obtain ⟨prescribed, _, _, _, atEnd⟩ := (parse_resumes reached).1 (by decide)
    have parsed := (prescribed (.ok (Node.ofClauses [⟨"", "TYPE", "1"⟩]))).mpr
      (.rule (.clause .nil) (.cons clauseAt .nil))
    exact ⟨_, reached, rfl, parsed, atEnd _ parsed⟩
  · have reached : Cursor.Reached [⟨.field, "a", .unknown⟩, ⟨.value, "1", .unknown⟩] _ :=
      Cursor.Reached.start.call (.step "")
    exact ⟨_, reached, rfl, ((parse_resumes reached).2 (by decide)).1⟩

end FieldRules
