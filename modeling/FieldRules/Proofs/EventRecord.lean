import FieldRules.Compile
import FieldRules.Proofs.ClausePlaces
import FieldRules.Proofs.FirstError
import FieldRules.Proofs.ScanFailure

/-!
# The events of a compilation

A compilation records what it does.  The scan records its tokens and how it ends.  The parser
records the fields and clauses that it reads, each at the place of its first token, up to the token
that may not stand where it stands.  So the record can be told from the tokens alone, and the record
of a rule that compiles has the clauses of its tree.
-/

namespace FieldRules

def Token.event (token : Token) : Event := .token token.kind token.value token.position.offset

namespace Scan

theorem eventsAfter_of_ok {scan : Scan} {tokens : List Token} (succeeded : scan.outcome = .ok tokens)
    (count : Nat) :
    scan.eventsAfter count =
      tokens.map Token.event ++ [.tokenized (count + tokens.length)] := by
  induction scan generalizing tokens count with
  | finished =>
      cases succeeded
      rfl
  | stuck position rest => cases succeeded
  | read token next induction =>
      obtain ⟨later, laterEq, rfl⟩ := outcome_map_eq_ok.mp succeeded
      rw [eventsAfter, induction laterEq, List.map_cons, List.length_cons, Nat.add_right_comm]
      rfl

theorem eventsAfter_of_error {scan : Scan} {error : RuleError} (failed : scan.outcome = .error error)
    (count : Nat) :
    ∃ remainder position, error = .unreadable remainder position ∧
      scan.eventsAfter count =
        scan.tokens.map Token.event ++ [.unreadable position.offset] := by
  induction scan generalizing count with
  | finished => cases failed
  | stuck position rest =>
      cases failed
      exact ⟨_, _, rfl, rfl⟩
  | read token next induction =>
      obtain ⟨remainder, position, errorEq, eventsEq⟩ :=
        induction (outcome_map_eq_error.mp failed) (count + 1)
      refine ⟨remainder, position, errorEq, ?_⟩
      rw [eventsAfter, eventsEq]
      rfl

end Scan

/-- The clause that an event is about. -/
def Event.clause? : Event → Option Clause
  | .expression clause => some clause
  | _ => none

namespace Token

/-- What the parser records where it finds a token with another one behind it, given the field in
force: the name of a field, or the clause of a condition with its value. -/
def eventOf? (field : String) (token : Token) (next? : Option Token) : Option Event :=
  match token.kind, next? with
  | .field, _ => some (.currentField token.fieldName)
  | .condition, some next =>
      if next.kind = .value then some (.expression ⟨field, token.value, next.value⟩) else none
  | _, _ => none

/-- What the parser records at a place of a list of tokens. -/
def eventAt? (tokens : List Token) (place : Nat) : Option Event :=
  tokens[place]?.bind fun token => eventOf? (fieldBefore tokens place) token tokens[place + 1]?

/-- The same behind tokens that have left a field in force. -/
def eventFrom? (field : String) (tokens : List Token) (place : Nat) : Option Event :=
  tokens[place]?.bind fun token =>
    eventOf? (RulePart.fieldBehind field ((tokens.map part).take place)) token tokens[place + 1]?

theorem eventFrom?_empty (tokens : List Token) : eventFrom? "" tokens = eventAt? tokens := by
  funext place
  rw [eventFrom?, RulePart.fieldBehind_map_part, eventAt?]

def eventsFrom (field : String) (tokens : List Token) (reach : Nat) : List Event :=
  (List.range reach).filterMap (eventFrom? field tokens)

theorem eventsFrom_cons (field : String) (token : Token) (tokens : List Token) (reach : Nat) :
    eventsFrom field (token :: tokens) (reach + 1) =
      (eventOf? field token tokens.head?).toList ++
        eventsFrom (if token.kind = .field then token.fieldName else field) tokens reach := by
  have shifted : eventFrom? field (token :: tokens) ∘ Nat.succ =
      eventFrom? (if token.kind = .field then token.fieldName else field) tokens := by
    funext place
    by_cases isField : token.kind = .field
    · simp [eventFrom?, RulePart.fieldBehind_cons, part, isField]
    · simp [eventFrom?, RulePart.fieldBehind_cons, part, isField]
  have first : eventFrom? field (token :: tokens) 0 = eventOf? field token tokens.head? := by
    simp [eventFrom?, RulePart.fieldBehind, List.head?_eq_getElem?]
  rw [eventsFrom, List.range_succ_eq_map, List.filterMap_cons, List.filterMap_map, shifted, first,
    eventsFrom]
  cases eventOf? field token tokens.head? <;> rfl

end Token

/-- The place up to which kinds can be read as a rule: the first with which viability is lost, and
the end if it is never lost. -/
structure Reaches (kinds : List TokenKind) (place : Nat) : Prop where
  within : place ≤ kinds.length
  viable : Viable (kinds.take place)
  lost : place < kinds.length → ¬ Viable (kinds.take (place + 1))

namespace Reaches

theorem of_viable {kinds : List TokenKind} (viable : Viable kinds) :
    Reaches kinds kinds.length where
  within := Nat.le_refl _
  viable := by rwa [List.take_length]
  lost inside := absurd inside (Nat.lt_irrefl _)

theorem of_lost {earlier later : List TokenKind} {kind : TokenKind} (viable : Viable earlier)
    (lost : ¬ Viable (earlier ++ [kind])) :
    Reaches (earlier ++ kind :: later) earlier.length where
  within := by
    rw [List.length_append]
    exact Nat.le_add_right _ _
  viable := by rwa [List.take_left]
  lost _ := by rwa [List.take_length_add_append]

/-- Fields and clauses in front move the place. -/
theorem behind {front kinds : List TokenKind} {place : Nat} (reaches : Reaches kinds place)
    (word : ClauseWord front) : Reaches (front ++ kinds) (front.length + place) where
  within := by
    rw [List.length_append]
    exact Nat.add_le_add_left reaches.within _
  viable := by
    rw [List.take_length_add_append, word.viable_append_iff]
    exact reaches.viable
  lost inside := by
    rw [Nat.add_assoc, List.take_length_add_append, word.viable_append_iff]
    apply reaches.lost
    rw [List.length_append] at inside
    omega

theorem le {kinds : List TokenKind} {place other : Nat} (reaches : Reaches kinds place)
    (reaches' : Reaches kinds other) : place ≤ other := by
  apply Nat.le_of_not_lt
  intro before
  have beginning := reaches.viable.take (other + 1)
  rw [List.take_take, Nat.min_eq_left before] at beginning
  exact reaches'.lost (Nat.lt_of_lt_of_le before reaches.within) beginning

theorem unique {kinds : List TokenKind} {place other : Nat} (reaches : Reaches kinds place)
    (reaches' : Reaches kinds other) : place = other :=
  Nat.le_antisymm (reaches.le reaches') (reaches'.le reaches)

end Reaches

namespace Cursor

open Token

/-- A run records the fields and the clauses up to the place where it can be read no further. -/
theorem Ran.exists_reach {field : String} {cursor : Cursor} {parsed : Parsed (List Clause)}
    (ran : Ran field cursor parsed) :
    ∃ place, Reaches (cursor.remaining.map Token.kind) place ∧
      parsed.events = eventsFrom field cursor.remaining place := by
  induction ran with
  | atEnd => exact ⟨0, .of_viable ClauseWord.nil.viable, rfl⟩
  | @field field passed rest token later isField ran induction =>
      obtain ⟨place, reaches, events⟩ := induction
      have word : ClauseWord [token.kind] := by
        rw [isField]
        exact .field .nil
      refine ⟨1 + place, reaches.behind word, ?_⟩
      rw [Nat.add_comm, eventsFrom_cons, if_pos isField, ← events]
      simp [eventOf?, isField]
  | @clause field passed rest condition value later isCondition isValue ran induction =>
      obtain ⟨place, reaches, events⟩ := induction
      have word : ClauseWord [condition.kind, value.kind] := by
        rw [isCondition, isValue]
        exact .clause .nil
      refine ⟨2 + place, reaches.behind word, ?_⟩
      rw [Nat.add_comm, eventsFrom_cons, eventsFrom_cons, if_neg (by simp [isCondition]),
        if_neg (by simp [isValue]), ← events]
      simp [eventOf?, isCondition, isValue]
  | failed stepped =>
      cases stepped with
      | @noValue _ condition isCondition =>
          have viable : Viable [condition.kind] := by
            rw [isCondition]
            exact ClauseWord.nil.viable_condition
          refine ⟨1, .of_viable viable, ?_⟩
          rw [eventsFrom_cons]
          simp [eventOf?, isCondition, eventsFrom]
      | @notValue _ rest condition other isCondition notValue =>
          have viable : Viable [condition.kind] := by
            rw [isCondition]
            exact ClauseWord.nil.viable_condition
          have lost : ¬ Viable [condition.kind, other.kind] := by
            rw [isCondition]
            exact not_viable_of_notValue notValue
          refine ⟨1, .of_lost viable lost, ?_⟩
          rw [eventsFrom_cons]
          simp [eventOf?, isCondition, notValue, eventsFrom]
      | misplaced notField notCondition =>
          exact ⟨0, .of_lost ClauseWord.nil.viable
            (not_viable_of_misplaced notField notCondition), rfl⟩

theorem Ran.clauses_of_events {field : String} {cursor : Cursor} {parsed : Parsed (List Clause)}
    (ran : Ran field cursor parsed) {clauses : List Clause} (succeeded : parsed.outcome = .ok clauses) :
    parsed.events.filterMap Event.clause? = clauses := by
  induction ran generalizing clauses with
  | atEnd =>
      cases succeeded
      rfl
  | field isField ran induction => exact induction succeeded
  | clause isCondition isValue ran induction =>
      obtain ⟨later, laterEq, rfl⟩ := outcome_map_eq_ok.mp succeeded
      rw [← induction laterEq]
      rfl
  | failed stepped => cases succeeded

end Cursor

namespace Verdict

/-- The number of tokens that the parser can read: those before the one that may not stand where it
stands, and none of a list that is too short. -/
def reach (tokens : List Token) : Verdict → Nat
  | .tooShort => 0
  | .offender place => place
  | .openEnd => tokens.length
  | .rule => tokens.length

theorem Fits.reaches {tokens : List Token} (enough : 3 ≤ tokens.length) {verdict : Verdict}
    (fits : verdict.Fits tokens) : Reaches (tokens.map Token.kind) (verdict.reach tokens) := by
  have whole : Viable (tokens.map Token.kind) →
      Reaches (tokens.map Token.kind) tokens.length := by
    intro viable
    have reaches := Reaches.of_viable viable
    rwa [List.length_map] at reaches
  cases verdict with
  | tooShort => exact absurd enough (Nat.not_le.mpr fits)
  | offender place =>
      obtain ⟨_, viable, lost⟩ := fits
      have inside : place ≤ tokens.length := by
        apply Nat.le_of_not_lt
        intro beyond
        rw [List.take_of_length_le (Nat.le_of_lt beyond)] at viable
        rw [List.take_of_length_le (Nat.le_succ_of_le (Nat.le_of_lt beyond))] at lost
        exact lost viable
      rw [List.map_take] at viable lost
      exact ⟨by rwa [List.length_map], viable, fun _ => lost⟩
  | openEnd => exact whole (viable_of_openEnd fits)
  | rule => exact whole fits.2.viable

end Verdict

/-- The last event of a parser, if it succeeds. -/
def Event.ofResult : Except RuleError Node → List Event
  | .ok root => [.parsed root.children.length]
  | .error _ => []

theorem Cursor.events_parse_of_enough (cursor : Cursor)
    (enough : minimumTokens ≤ cursor.tokens.length) :
    cursor.parse.events = (cursor.clauses "").events ++ Event.ofResult cursor.parse.outcome := by
  rw [parse_of_enough enough]
  cases (cursor.clauses "").outcome with
  | error error => rfl
  | ok clauses => simp [Except.map, Except.toOption, Event.ofResult, Node.ofClauses]

theorem parse_events {tokens : List Token} {verdict : Verdict} (fits : verdict.Fits tokens) :
    (Cursor.ofTokens tokens).parse.events =
      (List.range (verdict.reach tokens)).filterMap (Token.eventAt? tokens) ++
        Event.ofResult (parseRules tokens) := by
  by_cases short : tokens.length < minimumTokens
  · have verdictEq : verdict = .tooShort := fits.unique short
    have shortCursor : (Cursor.ofTokens tokens).tokens.length < minimumTokens := short
    rw [verdictEq, parseRules_of_short short, Cursor.parse_of_short shortCursor]
    rfl
  · have enough : minimumTokens ≤ tokens.length := Nat.not_lt.mp short
    obtain ⟨place, reaches, events⟩ :=
      (Cursor.ran_clauses (Cursor.ofTokens tokens) "").exists_reach
    rw [(Verdict.Fits.reaches enough fits).unique reaches, ← Token.eventFrom?_empty,
      Cursor.events_parse_of_enough (Cursor.ofTokens tokens) enough, events]
    rfl

theorem clauses_of_parse_events {tokens : List Token} {root : Node}
    (parsed : parseRules tokens = .ok root) :
    (Cursor.ofTokens tokens).parse.events.filterMap Event.clause? = root.clauses := by
  have enough : minimumTokens ≤ tokens.length := (parseRules_eq_ok.mp parsed).1
  have ended : Event.ofResult (Cursor.ofTokens tokens).parse.outcome =
      [.parsed root.children.length] := congrArg Event.ofResult parsed
  rw [parseRules_of_enough enough] at parsed
  obtain ⟨clauses, outcomeEq, rfl⟩ := outcome_map_eq_ok.mp parsed
  have recorded := (Cursor.ran_clauses (Cursor.ofTokens tokens) "").clauses_of_events outcomeEq
  rw [Cursor.events_parse_of_enough (Cursor.ofTokens tokens) enough, List.filterMap_append, recorded,
    ended, Node.clauses_ofClauses]
  exact List.append_nil _

theorem compileEvents_of_error {source : String} {error : RuleError}
    (failed : tokenize source = .error error) :
    ∃ remainder position, error = .unreadable remainder position ∧
      compileEvents source =
        (Scan.ofText source).tokens.map Token.event ++ [.unreadable position.offset] := by
  obtain ⟨remainder, position, errorEq, events⟩ := Scan.eventsAfter_of_error failed 0
  refine ⟨remainder, position, errorEq, ?_⟩
  rw [tokenize] at failed
  simp only [compileEvents, Scan.events, failed, events, List.append_nil]

theorem compileEvents_of_ok {source : String} {tokens : List Token}
    (readable : tokenize source = .ok tokens) :
    compileEvents source =
      tokens.map Token.event ++ [.tokenized tokens.length] ++
        (Cursor.ofTokens tokens).parse.events := by
  have events := Scan.eventsAfter_of_ok readable 0
  rw [tokenize] at readable
  simp only [compileEvents, Scan.events, readable, events, Nat.zero_add]

theorem Token.eventAt?_ne_parsed (tokens : List Token) (place count : Nat) :
    eventAt? tokens place ≠ some (.parsed count) := by
  intro recorded
  obtain ⟨token, _, recorded⟩ := Option.bind_eq_some_iff.mp recorded
  unfold eventOf? at recorded
  split at recorded
  · cases recorded
  · split at recorded <;> cases recorded
  · cases recorded

theorem compile_of_tokenize {source : String} {tokens : List Token}
    (readable : tokenize source = .ok tokens) : compile source = parseRules tokens := by
  rw [compile, readable]
  rfl

theorem exists_tokens_of_compile {source : String} {root : Node}
    (compiled : compile source = .ok root) :
    ∃ tokens, tokenize source = .ok tokens ∧ parseRules tokens = .ok root := by
  cases readable : tokenize source with
  | error error =>
      rw [compile, readable] at compiled
      cases compiled
  | ok tokens => exact ⟨tokens, rfl, compile_of_tokenize readable ▸ compiled⟩

/-- The events of a compilation.  If the scan fails, they are its tokens, which are those of the
text before the place of the error, and this place.  If it succeeds, they are its tokens and their
number, then a field for each field token and a clause for each condition with its value, in the
order of their places up to the token that may not stand where it stands, and at last the number of
clauses exactly if the rule compiles.  In that case the clauses on the way are those of the tree. -/
theorem compileEvents_records (source : String) :
    (∀ error, tokenize source = .error error →
      ∃ before rest tokens remainder position,
        source.toList = before ++ rest ∧ Obstructed before rest ∧
        tokenize (String.ofList before) = .ok tokens ∧
        error = .unreadable remainder position ∧ position.offset = Text.byteLength before ∧
        compileEvents source = tokens.map Token.event ++ [.unreadable position.offset]) ∧
    (∀ tokens, tokenize source = .ok tokens →
      ∃ verdict : Verdict, verdict.Fits tokens ∧ verdict.Gives tokens (compile source) ∧
        compileEvents source =
          tokens.map Token.event ++ [.tokenized tokens.length] ++
            ((List.range (verdict.reach tokens)).filterMap (Token.eventAt? tokens) ++
              Event.ofResult (compile source))) ∧
    ((∃ count, .parsed count ∈ compileEvents source) ↔ ∃ root, compile source = .ok root) ∧
    ∀ root, compile source = .ok root →
      (compileEvents source).filterMap Event.clause? = root.clauses ∧
      root.clauses.length = root.children.length ∧
      (compileEvents source).getLast? = some (.parsed root.children.length) := by
  have afterScan : ∀ tokens, tokenize source = .ok tokens →
      ∃ verdict : Verdict, verdict.Fits tokens ∧ verdict.Gives tokens (compile source) ∧
        compileEvents source =
          tokens.map Token.event ++ [.tokenized tokens.length] ++
            ((List.range (verdict.reach tokens)).filterMap (Token.eventAt? tokens) ++
              Event.ofResult (compile source)) := by
    intro tokens readable
    obtain ⟨verdict, fits, gives⟩ := Verdict.exists_fits tokens
    rw [compile_of_tokenize readable, compileEvents_of_ok readable, parse_events fits]
    exact ⟨verdict, fits, gives, rfl⟩
  refine ⟨?stuck, afterScan, ?parsed, ?compiled⟩
  case stuck =>
    intro error failed
    obtain ⟨before, rest, sourceEq, obstructed, readable⟩ := exists_obstructed failed
    obtain ⟨remainder, position, errorEq, events⟩ := compileEvents_of_error failed
    refine ⟨before, rest, _, remainder, position, sourceEq, obstructed, readable, errorEq, ?_,
      events⟩
    have placed := obstructed.tokenize_eq
    rw [← sourceEq, String.ofList_toList, failed, errorEq] at placed
    rw [(RuleError.unreadable.inj (Except.error.inj placed)).2, Position.offset_advance_start]
  case parsed =>
    constructor
    · rintro ⟨count, recorded⟩
      cases readable : tokenize source with
      | error error =>
          obtain ⟨_, position, _, events⟩ := compileEvents_of_error readable
          rw [events] at recorded
          simp [Token.event] at recorded
      | ok tokens =>
          obtain ⟨verdict, _, _, events⟩ := afterScan tokens readable
          rw [events] at recorded
          cases result : compile source with
          | ok root => exact ⟨root, rfl⟩
          | error error =>
              simp [result, Token.event, Event.ofResult, Token.eventAt?_ne_parsed] at recorded
    · rintro ⟨root, compiled⟩
      obtain ⟨tokens, readable, _⟩ := exists_tokens_of_compile compiled
      obtain ⟨verdict, _, _, events⟩ := afterScan tokens readable
      refine ⟨root.children.length, ?_⟩
      rw [events, compiled]
      simp [Event.ofResult]
  case compiled =>
    intro root compiled
    obtain ⟨tokens, readable, parsed⟩ := exists_tokens_of_compile compiled
    obtain ⟨verdict, _, _, events⟩ := afterScan tokens readable
    refine ⟨?_, ?_, ?_⟩
    · have scanned : (tokens.map Token.event).filterMap Event.clause? = [] := by
        rw [List.filterMap_map]
        exact List.filterMap_eq_nil_iff.mpr fun _ _ => rfl
      rw [compileEvents_of_ok readable, List.filterMap_append, List.filterMap_append, scanned,
        clauses_of_parse_events parsed]
      rfl
    · obtain ⟨_, _, rootEq⟩ := parseRules_eq_ok.mp parsed
      rw [rootEq, Node.clauses_ofClauses, Node.ofClauses, List.length_map]
    · rw [events, compiled, ← List.append_assoc]
      exact List.getLast?_concat

/-- A value behind a field may not stand there, so the record ends with the field, and a text in
which no pattern accepts the question mark has no record behind it.  A rule records its clause. -/
theorem compileEvents_records_up_to_value :
    compileEvents "FIELD(\"a\") 1 IN (1)" =
        [.token .field "FIELD(\"a\")" 0, .token .value "1" 11, .token .condition "IN" 13,
          .token .value "(1)" 16, .tokenized 4, .currentField "a"] ∧
      (∃ tokens : List Token,
        compileEvents "IN ?" = tokens.map Token.event ++ [.unreadable 3]) ∧
      (compileEvents "FIELD(\"a\") IN (1)").filterMap Event.clause? = [⟨"a", "IN", "(1)"⟩] := by
  refine ⟨?offender, ?stuck, ?compiled⟩
  case offender =>
    have readable : tokenize "FIELD(\"a\") 1 IN (1)" =
        .ok [⟨.field, "FIELD(\"a\")", ⟨0, 1, 0⟩⟩, ⟨.value, "1", ⟨11, 1, 11⟩⟩,
          ⟨.condition, "IN", ⟨13, 1, 13⟩⟩, ⟨.value, "(1)", ⟨16, 1, 16⟩⟩] := by
      decide +kernel
    have lost : ¬ Viable [.field, .value] := by
      rintro ⟨more, word⟩
      cases word with
      | field later => cases later
    have offends : (Verdict.offender 1).Fits
        [⟨.field, "FIELD(\"a\")", ⟨0, 1, 0⟩⟩, ⟨.value, "1", ⟨11, 1, 11⟩⟩,
          ⟨.condition, "IN", ⟨13, 1, 13⟩⟩, ⟨.value, "(1)", ⟨16, 1, 16⟩⟩] :=
      ⟨by decide, ClauseWord.viable (.field .nil), lost⟩
    obtain ⟨verdict, fits, gives, events⟩ := (compileEvents_records _).2.1 _ readable
    obtain rfl := fits.unique offends
    obtain ⟨token, _, refused⟩ := gives
    rw [events, refused, Event.ofResult]
    decide +kernel
  case stuck =>
    have failed : tokenize "IN ?" = .error (.unreadable "?" ⟨3, 1, 3⟩) := by decide +kernel
    obtain ⟨_, _, tokens, _, _, _, _, _, same, _, events⟩ := (compileEvents_records _).1 _ failed
    cases same
    exact ⟨tokens, events⟩
  case compiled =>
    have readable : tokenize "FIELD(\"a\") IN (1)" =
        .ok [⟨.field, "FIELD(\"a\")", ⟨0, 1, 0⟩⟩, ⟨.condition, "IN", ⟨11, 1, 11⟩⟩,
          ⟨.value, "(1)", ⟨14, 1, 14⟩⟩] := by
      decide +kernel
    have compiled : compile "FIELD(\"a\") IN (1)" =
        .ok (Node.ofClauses [⟨"a", "IN", "(1)"⟩]) := by
      rw [compile_of_tokenize readable]
      exact parseRules_eq_ok.mpr
        ⟨by decide, .field (.clause .nil), congrArg Node.ofClauses (by decide +kernel)⟩
    exact ((compileEvents_records _).2.2.2 _ compiled).1

end FieldRules
