import FieldRules.Proofs.ClausePlaces
import FieldRules.Proofs.CursorMoves

/-!
# Sessions with a parser

The operations of a parser can be called one after the other in any order, and a call that fails
does not end the session: the next one goes on from where the cursor was left.  A session is the
record of its calls with their answers and the cursors before and after each.  However it is mixed,
the cursor only moves forwards, and every expression that a session returns is built from a
condition and the value behind it, two tokens that the call itself has passed.  So no token serves
for two expressions.
-/

namespace FieldRules

/-- A call of an operation of the parser. -/
inductive Call where
  | peek
  | isAtEnd
  | advance
  /-- A step with the given field in force. -/
  | step (field : String)
  | parse
  deriving DecidableEq, Repr

inductive Reply where
  | token (token? : Option Token)
  | atEnd (answer : Bool)
  | step (outcome : Except RuleError (String × Option Clause))
  | tree (outcome : Except RuleError Node)

/-- The expressions in a reply. -/
def Reply.expressions : Reply → List Node
  | .step (.ok (_, some clause)) => [Node.ofClause clause]
  | .tree (.ok root) => root.children
  | _ => []

theorem Reply.exists_expression_iff {outcome : Except RuleError (String × Option Clause)} :
    (∃ expression, (Reply.step outcome).expressions = [expression]) ↔
      ∃ next clause, outcome = .ok (next, some clause) := by
  rcases outcome with error | ⟨next, _ | clause⟩
  · simp [expressions]
  · simp [expressions]
  · simp [expressions]

/-- A call, its reply and the cursors before and after it. -/
structure Exchange where
  call : Call
  before : Cursor
  reply : Reply
  after : Cursor

namespace Cursor

def exchange (cursor : Cursor) : Call → Exchange
  | .peek => ⟨.peek, cursor, .token cursor.peek, cursor⟩
  | .isAtEnd => ⟨.isAtEnd, cursor, .atEnd cursor.isAtEnd, cursor⟩
  | .advance => ⟨.advance, cursor, .token cursor.advance.1, cursor.advance.2⟩
  | .step field =>
      ⟨.step field, cursor, .step (cursor.step field).outcome, (cursor.step field).cursor⟩
  | .parse => ⟨.parse, cursor, .tree cursor.parse.outcome, cursor.parse.cursor⟩

/-- The exchanges of calls that are made one after the other, whatever the earlier ones replied. -/
def session (cursor : Cursor) : List Call → List Exchange
  | [] => []
  | call :: calls => cursor.exchange call :: (cursor.exchange call).after.session calls

end Cursor

namespace Token

theorem kind_of_mem_conditionPlaces {tokens : List Token} {place : Nat}
    (member : place ∈ conditionPlaces tokens) : (tokens.map kind)[place]? = some .condition := by
  simpa using (List.mem_filter.mp member).2

theorem lt_length_of_mem_conditionPlaces {tokens : List Token} {place : Nat}
    (word : ClauseWord (tokens.map kind)) (member : place ∈ conditionPlaces tokens) :
    place + 1 < tokens.length := by
  have behind := word.value_behind place (kind_of_mem_conditionPlaces member)
  obtain ⟨inside, _⟩ := List.getElem?_eq_some_iff.mp behind
  rwa [List.length_map] at inside

/-- The conditions of a word of the grammar stand at least two places apart. -/
theorem pairwise_conditionPlaces {tokens : List Token} (word : ClauseWord (tokens.map kind)) :
    (conditionPlaces tokens).Pairwise fun place later => place + 2 ≤ later := by
  have ordered : (conditionPlaces tokens).Pairwise (· < ·) :=
    List.pairwise_lt_range.filter _
  refine ordered.imp_of_mem ?_
  intro place later member memberLater before
  have behind := word.value_behind place (kind_of_mem_conditionPlaces member)
  have different : later ≠ place + 1 := by
    rintro rfl
    rw [kind_of_mem_conditionPlaces memberLater] at behind
    cases behind
  omega

end Token

/-- The node is an expression made from the condition at a place and the value behind it. -/
inductive BuiltAt (tokens : List Token) : Nat → Node → Prop
  | intro {place : Nat} {field : String} {condition value : Token}
      (found : tokens[place]? = some condition) (isCondition : condition.kind = .condition)
      (behind : tokens[place + 1]? = some value) (isValue : value.kind = .value) :
      BuiltAt tokens place (Node.ofClause ⟨field, condition.value, value.value⟩)

namespace Exchange

/-- The places of the conditions from which the expressions of the reply are made: the place of the
cursor for a step, and those of all conditions behind the cursor for a parse. -/
def places (exchange : Exchange) : List Nat :=
  match exchange.reply with
  | .step (.ok (_, some _)) => [exchange.before.index]
  | .tree (.ok _) =>
      (Token.conditionPlaces exchange.before.remaining).map (exchange.before.index + ·)
  | _ => []

/-- The expressions of the reply are made from conditions and values that the call has passed, and
each from its own two tokens. -/
structure Builds (tokens : List Token) (exchange : Exchange) : Prop where
  built : List.Forall₂ (BuiltAt tokens) exchange.places exchange.reply.expressions
  between : ∀ place ∈ exchange.places,
    exchange.before.index ≤ place ∧ place + 2 ≤ exchange.after.index
  apart : exchange.places.Pairwise fun place later => place + 2 ≤ later

theorem builds_nothing {tokens : List Token} {exchange : Exchange} (noPlaces : exchange.places = [])
    (noExpressions : exchange.reply.expressions = []) : Builds tokens exchange where
  built := by
    rw [noPlaces, noExpressions]
    exact .nil
  between := by
    rw [noPlaces]
    exact fun _ member => absurd member List.not_mem_nil
  apart := by
    rw [noPlaces]
    exact .nil

/-- What every exchange keeps to.  Looking does not move the cursor, advancing and stepping do
unless it is at the end, and a step moves it by two exactly if it returns an expression. -/
structure Disciplined (tokens : List Token) (exchange : Exchange) : Prop where
  tokensBefore : exchange.before.tokens = tokens
  tokensAfter : exchange.after.tokens = tokens
  forwards : exchange.before.index ≤ exchange.after.index
  within : exchange.after.index ≤ tokens.length
  looks : exchange.call = .peek ∨ exchange.call = .isAtEnd → exchange.after = exchange.before
  advances : exchange.call = .advance ∨ (∃ field, exchange.call = .step field) →
    exchange.before.index < tokens.length → exchange.before.index < exchange.after.index
  stepsTwo : ∀ field, exchange.call = .step field →
    (exchange.after.index = exchange.before.index + 2 ↔ ∃ expression,
      exchange.reply.expressions = [expression])
  stepsNowhere : ∀ field, exchange.call = .step field → exchange.before.index = tokens.length →
    exchange.reply = .step (.ok (field, none)) ∧ exchange.after = exchange.before
  builds : Builds tokens exchange

end Exchange

namespace Cursor

open Exchange

@[simp]
theorem before_exchange (cursor : Cursor) (call : Call) : (cursor.exchange call).before = cursor := by
  cases call <;> rfl

@[simp]
theorem call_exchange (cursor : Cursor) (call : Call) : (cursor.exchange call).call = call := by
  cases call <;> rfl

@[simp]
theorem tokens_exchange (cursor : Cursor) (call : Call) :
    (cursor.exchange call).after.tokens = cursor.tokens := by
  cases call with
  | peek => rfl
  | isAtEnd => rfl
  | advance => exact tokens_advance cursor
  | step field => exact tokens_step cursor field
  | parse => exact tokens_parse cursor

theorem index_le_exchange (cursor : Cursor) (call : Call) :
    cursor.index ≤ (cursor.exchange call).after.index := by
  cases call with
  | peek => exact Nat.le_refl _
  | isAtEnd => exact Nat.le_refl _
  | advance => exact index_le_advance cursor
  | step field => exact index_le_step cursor field
  | parse => exact index_le_parse cursor

theorem builds_step (cursor : Cursor) (field : String) :
    Builds cursor.tokens (cursor.exchange (.step field)) := by
  change Builds _ ⟨.step field, cursor, .step (cursor.step field).outcome,
    (cursor.step field).cursor⟩
  have stepped := stepped_step cursor field
  generalize cursor.step field = parsed at stepped
  cases stepped with
  | @clause passed rest condition value isCondition isValue =>
      have found := getElem?_remaining ⟨passed, condition :: value :: rest⟩ 0
      have behind := getElem?_remaining ⟨passed, condition :: value :: rest⟩ 1
      refine ⟨.cons (.intro found.symm isCondition behind.symm isValue) .nil, ?_,
        List.pairwise_singleton _ _⟩
      intro place member
      obtain rfl := List.mem_singleton.mp member
      exact ⟨Nat.le_refl _, Nat.le_refl _⟩
  | atEnd => exact builds_nothing rfl rfl
  | field isField => exact builds_nothing rfl rfl
  | noValue isCondition => exact builds_nothing rfl rfl
  | notValue isCondition notValue => exact builds_nothing rfl rfl
  | misplaced notField notCondition => exact builds_nothing rfl rfl

/-- A clause of the tokens behind the cursor is built from these tokens. -/
theorem builtAt_of_clauseAt {cursor : Cursor} {place : Nat} {clause : Clause}
    (clauseAt : Token.ClauseAt cursor.remaining place clause) :
    BuiltAt cursor.tokens (cursor.index + place) (Node.ofClause clause) := by
  cases clauseAt with
  | intro found isCondition behind isValue =>
      rw [getElem?_remaining] at found behind
      exact .intro found isCondition behind isValue

theorem builds_parse (cursor : Cursor) : Builds cursor.tokens (cursor.exchange .parse) := by
  change Builds _ ⟨.parse, cursor, .tree cursor.parse.outcome, cursor.parse.cursor⟩
  cases outcomeEq : cursor.parse.outcome with
  | error error => exact builds_nothing rfl rfl
  | ok root =>
      obtain ⟨word, rfl, atEnd⟩ := parse_eq_ok outcomeEq
      have clausesAt := RulePart.forall₂_clausesOf word
      refine ⟨?built, ?between, ?apart⟩
      case built =>
        apply List.forall₂_map_left_iff.mpr
        apply List.forall₂_map_right_iff.mpr
        exact clausesAt.imp fun _ _ => builtAt_of_clauseAt
      case between =>
        intro place member
        obtain ⟨behind, memberBehind, rfl⟩ := List.mem_map.mp member
        have inside := Token.lt_length_of_mem_conditionPlaces word memberBehind
        have lengths : cursor.tokens.length = cursor.index + cursor.remaining.length := by
          rw [tokens, index, List.length_append, List.length_reverse]
        rw [isAtEnd_iff, tokens_parse] at atEnd
        refine ⟨Nat.le_add_right _ _, ?_⟩
        change cursor.index + behind + 2 ≤ cursor.parse.cursor.index
        omega
      case apart =>
        apply List.pairwise_map.mpr
        refine (Token.pairwise_conditionPlaces word).imp ?_
        intro place later apart
        omega

theorem builds_exchange (cursor : Cursor) (call : Call) :
    Builds cursor.tokens (cursor.exchange call) := by
  cases call with
  | peek => exact builds_nothing rfl rfl
  | isAtEnd => exact builds_nothing rfl rfl
  | advance => exact builds_nothing rfl rfl
  | step field => exact builds_step cursor field
  | parse => exact builds_parse cursor

theorem disciplined_exchange (cursor : Cursor) (call : Call) :
    Disciplined cursor.tokens (cursor.exchange call) where
  tokensBefore := by rw [before_exchange]
  tokensAfter := tokens_exchange cursor call
  forwards := by
    rw [before_exchange]
    exact index_le_exchange cursor call
  within := by
    rw [← tokens_exchange cursor call]
    exact index_le_length _
  looks := by
    rw [call_exchange]
    rintro (rfl | rfl)
    · rfl
    · rfl
  advances := by
    rw [call_exchange, before_exchange]
    rintro (rfl | ⟨field, rfl⟩) notAtEnd
    · exact index_lt_advance (by rw [isAtEnd_iff]; omega)
    · exact index_lt_step field (by rw [isAtEnd_iff]; omega)
  stepsTwo := by
    rw [call_exchange]
    rintro field rfl
    exact (index_step_eq_add_two_iff cursor field).trans Reply.exists_expression_iff.symm
  stepsNowhere := by
    rw [call_exchange, before_exchange]
    rintro field rfl atEnd
    have stepEq := step_of_atEnd field (isAtEnd_iff.mpr atEnd)
    rw [exchange, stepEq]
    exact ⟨rfl, rfl⟩
  builds := builds_exchange cursor call

/-- Every exchange of a session is disciplined and stands behind the first cursor. -/
theorem disciplined_session (cursor : Cursor) (calls : List Call) :
    ∀ exchange ∈ cursor.session calls,
      Disciplined cursor.tokens exchange ∧ cursor.index ≤ exchange.before.index := by
  induction calls generalizing cursor with
  | nil => exact fun _ member => absurd member List.not_mem_nil
  | cons call calls induction =>
      intro exchange member
      rcases List.mem_cons.mp member with rfl | later
      · exact ⟨disciplined_exchange cursor call,
          Nat.le_of_eq (congrArg index (before_exchange cursor call).symm)⟩
      · obtain ⟨disciplined, behind⟩ := induction _ exchange later
        rw [tokens_exchange] at disciplined
        exact ⟨disciplined, Nat.le_trans (index_le_exchange cursor call) behind⟩

theorem ordered_session (cursor : Cursor) (calls : List Call) :
    (cursor.session calls).Pairwise fun earlier later =>
      earlier.after.index ≤ later.before.index := by
  induction calls generalizing cursor with
  | nil => exact .nil
  | cons call calls induction =>
      refine .cons ?_ (induction _)
      intro later member
      exact (disciplined_session _ calls later member).2

end Cursor

/-- The cursor of a parser is disciplined in every session, whatever is called in whatever order and
whether it fails or not.  It never moves back, and the expressions that the session returns are
built from pairs of tokens that are in order and apart, so that no token is in two of them. -/
theorem session_is_disciplined (tokens : List Token) (calls : List Call) :
    (∀ exchange ∈ (Cursor.ofTokens tokens).session calls, exchange.Disciplined tokens) ∧
    ((Cursor.ofTokens tokens).session calls).Pairwise (fun earlier later =>
      earlier.after.index ≤ later.before.index) ∧
    (((Cursor.ofTokens tokens).session calls).flatMap Exchange.places).Pairwise
      fun place later => place + 2 ≤ later := by
  have disciplined : ∀ exchange ∈ (Cursor.ofTokens tokens).session calls,
      exchange.Disciplined tokens :=
    fun exchange member => (Cursor.disciplined_session _ calls exchange member).1
  have ordered := Cursor.ordered_session (Cursor.ofTokens tokens) calls
  refine ⟨disciplined, ordered, ?_⟩
  apply List.pairwise_flatMap.mpr
  refine ⟨fun exchange member => (disciplined exchange member).builds.apart, ?_⟩
  refine ordered.imp_of_mem ?_
  intro earlier later member memberLater before place memberPlace other memberOther
  have inside := (disciplined earlier member).builds.between place memberPlace
  have inside' := (disciplined later memberLater).builds.between other memberOther
  omega

/-- The first step fails behind its condition and the comma is passed over.  The next step and the
parse still build their expressions, each from two tokens of its own. -/
theorem session_is_disciplined_after_failure :
    ∃ session : List Exchange,
      session = (Cursor.ofTokens [⟨.condition, "IN", .unknown⟩, ⟨.separator, ",", .unknown⟩,
        ⟨.condition, "RANGE", .unknown⟩, ⟨.value, "18", .unknown⟩, ⟨.condition, "TYPE", .unknown⟩,
        ⟨.value, "1", .unknown⟩]).session [.step "a", .advance, .step "b", .parse] ∧
      session.flatMap Exchange.places = [2, 4] ∧
      ((session.flatMap Exchange.places).Pairwise fun place later => place + 2 ≤ later) ∧
      ∃ exchange ∈ session, exchange.call = .step "a" ∧ exchange.after.index = 1 ∧
        exchange.Disciplined exchange.before.tokens := by
  obtain ⟨disciplined, _, apart⟩ := session_is_disciplined
    [⟨.condition, "IN", .unknown⟩, ⟨.separator, ",", .unknown⟩, ⟨.condition, "RANGE", .unknown⟩,
      ⟨.value, "18", .unknown⟩, ⟨.condition, "TYPE", .unknown⟩, ⟨.value, "1", .unknown⟩]
    [.step "a", .advance, .step "b", .parse]
  have first := disciplined _ List.mem_cons_self
  exact ⟨_, rfl, by decide +kernel, apart, _, List.mem_cons_self, rfl, rfl, first⟩

end FieldRules
