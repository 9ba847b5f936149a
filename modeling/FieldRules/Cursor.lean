import FieldRules.Event
import FieldRules.RuleError

/-!
# Parsing tokens with a cursor

A cursor stands between the tokens of a rule.  A step of the parser reads a field token, which sets
the field of the clauses after it, or a condition with its value, which makes a clause.  A step that
fails tells why and still says where the cursor stands: behind a token that cannot begin a clause,
and before a token that is not the value of the condition in front of it.
-/

namespace FieldRules

structure Cursor where
  /-- The tokens before the cursor, the nearest first. -/
  passed : List Token
  remaining : List Token
  deriving DecidableEq, Repr

/-- What an operation of the parser gives: its outcome, the cursor afterwards and the events on the
way. -/
structure Parsed (α : Type) where
  outcome : Except RuleError α
  cursor : Cursor
  events : List Event

namespace Cursor

def ofTokens (tokens : List Token) : Cursor := ⟨[], tokens⟩

def tokens (cursor : Cursor) : List Token := cursor.passed.reverse ++ cursor.remaining

def index (cursor : Cursor) : Nat := cursor.passed.length

def isAtEnd (cursor : Cursor) : Bool := cursor.remaining.isEmpty

def peek (cursor : Cursor) : Option Token := cursor.remaining.head?

def advance (cursor : Cursor) : Option Token × Cursor :=
  match cursor.remaining with
  | [] => (none, cursor)
  | token :: rest => (some token, ⟨token :: cursor.passed, rest⟩)

/-- Reads what follows the cursor, given the field in force: a field token or a clause.  The result
is the field in force afterwards and the clause, if one was read. -/
def step (cursor : Cursor) (field : String) : Parsed (String × Option Clause) :=
  match cursor.remaining with
  | [] => ⟨.ok (field, none), cursor, []⟩
  | token :: rest =>
      let after : Cursor := ⟨token :: cursor.passed, rest⟩
      match token.kind with
      | .field => ⟨.ok (token.fieldName, none), after, [.currentField token.fieldName]⟩
      | .condition =>
          match rest with
          | [] => ⟨.error (.expectedValue token.value token.position), after, []⟩
          | next :: later =>
              if next.kind = .value then
                let clause : Clause := ⟨field, token.value, next.value⟩
                ⟨.ok (field, some clause), ⟨next :: token :: cursor.passed, later⟩,
                  [.expression clause]⟩
              else ⟨.error (.unexpectedToken next), after, []⟩
      | _ => ⟨.error (.unexpectedToken token), after, []⟩

@[simp]
theorem tokens_ofTokens (tokens : List Token) : (ofTokens tokens).tokens = tokens := rfl

@[simp]
theorem tokens_advance (cursor : Cursor) : cursor.advance.2.tokens = cursor.tokens := by
  rcases cursor with ⟨passed, remaining⟩
  cases remaining with
  | nil => rfl
  | cons token rest => simp [advance, tokens]

/-- A step takes a token unless none is left. -/
theorem step_remaining_length_lt (cursor : Cursor) (field : String)
    (notAtEnd : ¬ cursor.isAtEnd = true) :
    (cursor.step field).cursor.remaining.length < cursor.remaining.length := by
  rcases cursor with ⟨passed, remaining⟩
  cases remaining with
  | nil => simp [isAtEnd] at notAtEnd
  | cons token rest =>
      unfold step
      dsimp only
      split
      · simp
      · cases rest with
        | nil => simp
        | cons next later =>
            dsimp only
            split
            · simp only [List.length_cons]
              omega
            · simp
      · simp

/-- Reads clauses up to the end of the rule or the first error. -/
def clauses (cursor : Cursor) (field : String) : Parsed (List Clause) :=
  if atEnd : cursor.isAtEnd then ⟨.ok [], cursor, []⟩
  else
    let first := cursor.step field
    have := cursor.step_remaining_length_lt field atEnd
    match first.outcome with
    | .error error => ⟨.error error, first.cursor, first.events⟩
    | .ok (next, clause?) =>
        let later := first.cursor.clauses next
        ⟨later.outcome.map (clause?.toList ++ ·), later.cursor, first.events ++ later.events⟩
termination_by cursor.remaining.length

/-- Parses everything after the cursor as a rule of its own.  A rule with too few tokens is refused,
and tokens before the cursor count for that. -/
def parse (cursor : Cursor) : Parsed Node :=
  if cursor.tokens.length < minimumTokens then
    ⟨.error (.insufficientTokens cursor.tokens.length), cursor, []⟩
  else
    let result := cursor.clauses ""
    match result.outcome with
    | .error error => ⟨.error error, result.cursor, result.events⟩
    | .ok clauses =>
        ⟨.ok (Node.ofClauses clauses), result.cursor, result.events ++ [.parsed clauses.length]⟩

end Cursor

def parseRules (tokens : List Token) : Except RuleError Node :=
  (Cursor.ofTokens tokens).parse.outcome

end FieldRules
