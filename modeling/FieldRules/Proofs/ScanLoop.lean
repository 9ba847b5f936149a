import FieldRules.Proofs.ByteSlices
import FieldRules.Proofs.ScanSegments

/-!
# The scan as a loop over byte offsets

A text can be scanned without carrying along what is left of it: a cursor keeps the whole text and a
position, and every iteration slices the text at the offset of that position.  A slice fails where
the offset is no boundary of characters, and nothing in the loop bounds the number of its
iterations.  This file proves that every iteration begins at a boundary and moves the cursor on, so
no slice fails, and that the loop ends with the outcome of the scan after no more iterations than
the text has characters that are not blank.
-/

namespace FieldRules

open Text

/-- The number of characters of a text that are not blank. -/
def Text.visibleCount (text : List Char) : Nat :=
  text.countP fun character => !isBlank character

namespace Text

@[simp]
theorem visibleCount_append (first second : List Char) :
    visibleCount (first ++ second) = visibleCount first + visibleCount second :=
  List.countP_append

theorem visibleCount_pos {text : List Char} (visible : StartsVisible text) :
    0 < visibleCount text := by
  obtain ⟨character, rest, rfl, notBlank⟩ := visible
  exact List.countP_pos_iff.mpr ⟨character, List.mem_cons_self, by simp [notBlank]⟩

end Text

/-- A place in a text that is kept as a position only, with the tokens that were read before it. -/
structure TextCursor where
  source : List Char
  position : Position
  tokens : List Token
  deriving DecidableEq

namespace TextCursor

def start (source : String) : TextCursor := ⟨source.toList, Position.start, []⟩

def advance (cursor : TextCursor) (text : List Char) : TextCursor :=
  { cursor with position := cursor.position.advance text }

/-- Moves the cursor over the blanks behind it.  The text that is left comes with the cursor unless
it is empty.  There is no result if a slice fails. -/
def skipBlanks? (cursor : TextCursor) : Option (TextCursor × Option (List Char)) := do
  let remaining ← sliceFrom? cursor.source cursor.position.offset
  let trimmed := remaining.dropWhile isBlank
  let gap ← sliceTo? remaining (byteLength remaining - byteLength trimmed)
  return (cursor.advance gap, if trimmed.isEmpty then none else some trimmed)

/-- Reads the token at the beginning of the text that is left. -/
def readToken (cursor : TextCursor) (rest : List Char) : Except RuleError TextCursor :=
  match Lexeme.first? Pattern.table rest with
  | none => .error (.unreadable (String.ofList (trimEnd rest)) cursor.position)
  | some lexeme =>
      let token : Token := ⟨lexeme.kind, String.ofList lexeme.text, cursor.position⟩
      .ok { cursor.advance lexeme.text with tokens := cursor.tokens ++ [token] }

/-- What an iteration of the loop comes to. -/
inductive Turn where
  /-- A slice failed. -/
  | crashed
  | exhausted (tokens : List Token)
  | refused (error : RuleError)
  | read (next : TextCursor)
  deriving DecidableEq

def turn (cursor : TextCursor) : Turn :=
  match cursor.skipBlanks? with
  | none => .crashed
  | some (skipped, none) => .exhausted skipped.tokens
  | some (skipped, some rest) =>
      match skipped.readToken rest with
      | .error error => .refused error
      | .ok next => .read next

/-- The outcome of the loop if it tries to read a token in at most `limit` iterations.  There is
none if a slice fails or the limit is too small. -/
def loop : (limit : Nat) → TextCursor → Option (Except RuleError (List Token))
  | 0, cursor =>
      match cursor.turn with
      | .exhausted tokens => some (.ok tokens)
      | _ => none
  | limit + 1, cursor =>
      match cursor.turn with
      | .crashed => none
      | .exhausted tokens => some (.ok tokens)
      | .refused error => some (.error error)
      | .read next => loop limit next

theorem loop_of_exhausted {cursor : TextCursor} {tokens : List Token}
    (exhausted : cursor.turn = .exhausted tokens) (limit : Nat) :
    loop limit cursor = some (.ok tokens) := by
  cases limit <;> simp [loop, exhausted]

/-- The cursor stands between two parts of its text. -/
structure Stands (cursor : TextCursor) (before rest : List Char) : Prop where
  source_eq : cursor.source = before ++ rest
  position_eq : cursor.position = Position.start.advance before

/-- What the first iteration of the loop comes to when a text is left: it is blank, no pattern
accepts what stands behind its gap, or a token is read there. -/
inductive Turns (cursor : TextCursor) : List Char → Turn → Prop
  | exhausted {gap : List Char} (blank : AllBlank gap) :
      Turns cursor gap (.exhausted cursor.tokens)
  | refused {gap rest : List Char} (blank : AllBlank gap) (visible : StartsVisible rest)
      (refused : Lexeme.first? Pattern.table rest = none) :
      Turns cursor (gap ++ rest)
        (.refused (.unreadable (String.ofList (trimEnd rest)) (cursor.position.advance gap)))
  | read {gap lexeme rest : List Char} {kind : TokenKind} (blank : AllBlank gap)
      (visible : StartsVisible lexeme)
      (found : Lexeme.first? Pattern.table (lexeme ++ rest) = some ⟨kind, lexeme, rest⟩) :
      Turns cursor (gap ++ (lexeme ++ rest))
        (.read ⟨cursor.source, cursor.position.advance (gap ++ lexeme),
          cursor.tokens ++ [⟨kind, String.ofList lexeme, cursor.position.advance gap⟩]⟩)

/-- What the beginning of an iteration guarantees. -/
structure Safe (cursor : TextCursor) : Prop where
  offset_le : cursor.position.offset ≤ byteLength cursor.source
  boundary : IsBoundary cursor.source cursor.position.offset
  /-- Only blanks are skipped, and what is left is the text from the new offset on. -/
  skips : ∃ gap rest, AllBlank gap ∧ (rest = [] ∨ StartsVisible rest) ∧
    sliceFrom? cursor.source cursor.position.offset = some (gap ++ rest) ∧
    sliceFrom? cursor.source (cursor.advance gap).position.offset = some rest ∧
    cursor.skipBlanks? = some (cursor.advance gap, if rest.isEmpty then none else some rest)
  /-- A token that is read takes a byte at least and ends inside the text. -/
  progress : ∀ skipped rest next, cursor.skipBlanks? = some (skipped, some rest) →
    skipped.readToken rest = .ok next →
      skipped.position.offset < next.position.offset ∧
        next.position.offset ≤ byteLength cursor.source

/-- The cursor stands at the beginning of an iteration before which `count` tokens were read. -/
inductive Reached (source : String) : (count : Nat) → TextCursor → Prop
  | start : Reached source 0 (start source)
  | read {count : Nat} {cursor next : TextCursor} (reached : Reached source count cursor)
      (read : cursor.turn = .read next) : Reached source (count + 1) next

theorem readToken_eq_ok {cursor next : TextCursor} {rest : List Char}
    (read : cursor.readToken rest = .ok next) :
    ∃ lexeme later tokens, rest = lexeme ++ later ∧ lexeme ≠ [] ∧
      next = ⟨cursor.source, cursor.position.advance lexeme, tokens⟩ := by
  cases found : Lexeme.first? Pattern.table rest with
  | none => simp [readToken, found] at read
  | some lexeme =>
      obtain ⟨split, nonempty⟩ := Lexeme.first?_splits found
      simp only [readToken, found, Except.ok.injEq] at read
      exact ⟨lexeme.text, lexeme.rest, _, split.symm, nonempty, read.symm⟩

section Stands

variable {cursor : TextCursor} {before rest : List Char}

theorem stands_start (source : String) : (start source).Stands [] source.toList where
  source_eq := rfl
  position_eq := (Position.advance_nil _).symm

theorem Stands.offset_eq (stands : cursor.Stands before rest) :
    cursor.position.offset = byteLength before := by
  rw [stands.position_eq, Position.offset_advance_start]

theorem Stands.isBoundary (stands : cursor.Stands before rest) :
    IsBoundary cursor.source cursor.position.offset := by
  rw [stands.offset_eq, stands.source_eq]
  exact isBoundary_byteLength before rest

theorem Stands.sliceFrom?_eq (stands : cursor.Stands before rest) :
    sliceFrom? cursor.source cursor.position.offset = some rest := by
  rw [stands.offset_eq, stands.source_eq, sliceFrom?_byteLength]

theorem Stands.moved {text : List Char} (stands : cursor.Stands before (text ++ rest))
    (tokens : List Token) :
    Stands ⟨cursor.source, cursor.position.advance text, tokens⟩ (before ++ text) rest where
  source_eq := by rw [List.append_assoc]; exact stands.source_eq
  position_eq := by rw [Position.advance_append, ← stands.position_eq]

theorem Stands.skipBlanks?_eq {gap : List Char} (stands : cursor.Stands before (gap ++ rest))
    (blank : AllBlank gap) (behind : rest = [] ∨ StartsVisible rest) :
    cursor.skipBlanks? = some (cursor.advance gap, if rest.isEmpty then none else some rest) := by
  have gapLength : byteLength (gap ++ rest) - byteLength rest = byteLength gap := by
    rw [byteLength_append, Nat.add_sub_cancel]
  simp only [skipBlanks?, stands.sliceFrom?_eq, Option.bind_eq_bind, Option.bind_some,
    blank.dropWhile_gap behind, gapLength, sliceTo?_byteLength, Option.pure_def]

theorem Stands.turns (stands : cursor.Stands before rest) : Turns cursor rest cursor.turn := by
  cases rest using Scan.scan_cases Pattern.table with
  | blank _ blank =>
      rw [← List.append_nil rest] at stands
      rw [turn, stands.skipBlanks?_eq blank (Or.inl rfl)]
      exact .exhausted blank
  | refused gap rest blank visible refused =>
      rw [turn, stands.skipBlanks?_eq blank (Or.inr visible)]
      simp only [List.isEmpty_iff, visible.ne_nil, if_false, readToken, refused]
      exact .refused blank visible refused
  | read gap kind lexeme later blank visible found =>
      have read := @Turns.read cursor gap lexeme later kind blank
        (Lexeme.first?_sound found).startsVisible found
      rw [Position.advance_append] at read
      rw [turn, stands.skipBlanks?_eq blank (Or.inr visible)]
      simp only [List.isEmpty_iff, visible.ne_nil, if_false, readToken, found]
      exact read

theorem Stands.of_read {next : TextCursor} (stands : cursor.Stands before rest)
    (read : cursor.turn = .read next) :
    ∃ passed later, rest = passed ++ later ∧ next.Stands (before ++ passed) later ∧
      0 < visibleCount passed := by
  have turns := stands.turns
  rw [read] at turns
  cases turns with
  | @read gap lexeme later kind blank visible found =>
      rw [← List.append_assoc] at stands
      refine ⟨gap ++ lexeme, later, (List.append_assoc gap lexeme later).symm, stands.moved _, ?_⟩
      rw [visibleCount_append]
      exact Nat.add_pos_right _ (visibleCount_pos visible)

/-- The loop ends with the outcome of the scan that begins at the cursor. -/
theorem Stands.loop_eq {limit : Nat} (stands : cursor.Stands before rest)
    (enough : visibleCount rest ≤ limit) :
    loop limit cursor =
      some ((Scan.run Pattern.table cursor.position rest).outcome.map (cursor.tokens ++ ·)) := by
  induction limit using Nat.strongRecOn generalizing cursor before rest with
  | ind limit induction =>
      have turns := stands.turns
      generalize turnEq : cursor.turn = turn at turns
      cases turns with
      | exhausted blank =>
          rw [loop_of_exhausted turnEq, Scan.run_of_allBlank blank]
          simp [Scan.outcome, Except.map]
      | refused blank visible refused =>
          have positive := visibleCount_pos visible
          rw [visibleCount_append] at enough
          obtain ⟨limit, rfl⟩ := Nat.exists_eq_add_one.mpr (by omega : 0 < limit)
          rw [Scan.run_stuck blank visible refused]
          simp [loop, turnEq, Scan.outcome, Except.map]
      | @read gap lexeme later kind blank visible found =>
          have positive := visibleCount_pos visible
          rw [visibleCount_append, visibleCount_append] at enough
          obtain ⟨limit, rfl⟩ := Nat.exists_eq_add_one.mpr (by omega : 0 < limit)
          rw [← List.append_assoc] at stands
          simp only [loop, turnEq]
          rw [induction limit (Nat.lt_succ_self limit) (stands.moved _) (by omega),
            Scan.run_read blank (visible.append later) found, Scan.outcome]
          cases (Scan.run Pattern.table (cursor.position.advance (gap ++ lexeme)) later).outcome <;>
            simp [Except.map]

theorem Stands.offset_le (stands : cursor.Stands before rest) :
    cursor.position.offset ≤ byteLength cursor.source :=
  stands.isBoundary.le

theorem Stands.safe (stands : cursor.Stands before rest) : cursor.Safe := by
  obtain ⟨gap, rest, rfl, blank, behind⟩ := exists_gap rest
  have skips := stands.skipBlanks?_eq blank behind
  have standsBehind : (cursor.advance gap).Stands (before ++ gap) rest := stands.moved cursor.tokens
  refine ⟨stands.offset_le, stands.isBoundary,
    ⟨gap, rest, blank, behind, stands.sliceFrom?_eq, standsBehind.sliceFrom?_eq, skips⟩, ?_⟩
  intro skipped left next skipsTo read
  rw [skips] at skipsTo
  obtain ⟨rfl, leftEq⟩ := Prod.mk.inj (Option.some.inj skipsTo)
  obtain rfl : rest = left := by
    split at leftEq
    · cases leftEq
    · exact Option.some.inj leftEq
  obtain ⟨lexeme, later, tokens, rfl, nonempty, rfl⟩ := readToken_eq_ok read
  refine ⟨?_, (standsBehind.moved tokens).offset_le⟩
  rw [Position.offset_advance]
  exact Nat.lt_add_of_pos_right (byteLength_pos nonempty)

end Stands

theorem Reached.exists_stands {source : String} {count : Nat} {cursor : TextCursor}
    (reached : Reached source count cursor) :
    ∃ before rest, source.toList = before ++ rest ∧ cursor.Stands before rest ∧
      count ≤ visibleCount before := by
  induction reached with
  | start => exact ⟨[], source.toList, rfl, stands_start source, Nat.zero_le _⟩
  | read reached read induction =>
      obtain ⟨before, rest, split, stands, counted⟩ := induction
      obtain ⟨passed, later, rfl, standsNext, positive⟩ := stands.of_read read
      refine ⟨before ++ passed, later, ?_, standsNext, ?_⟩
      · rw [split, List.append_assoc]
      · rw [visibleCount_append]
        omega

end TextCursor

/-- Every iteration of the loop begins at a boundary of characters inside the text.  There no slice
fails, the blanks behind the cursor are skipped, what is left is the text from the new offset on,
and a token that is read moves the cursor on without leaving the text.  So the loop ends, with the
outcome of the scan, after no more tries to read a token than the text has characters that are not
blank. -/
theorem loop_stays_at_boundaries (source : String) :
    (∀ count cursor, TextCursor.Reached source count cursor →
      cursor.source = source.toList ∧ cursor.Safe ∧ count ≤ visibleCount source.toList) ∧
    ∀ limit, visibleCount source.toList ≤ limit →
      TextCursor.loop limit (TextCursor.start source) = some (tokenize source) := by
  constructor
  · intro count cursor reached
    obtain ⟨before, rest, split, stands, counted⟩ := reached.exists_stands
    refine ⟨by rw [stands.source_eq, split], stands.safe, ?_⟩
    rw [split, visibleCount_append]
    exact Nat.le_add_right_of_le counted
  · intro limit enough
    rw [(TextCursor.stands_start source).loop_eq enough]
    change some ((tokenize source).map ([] ++ ·)) = some (tokenize source)
    cases tokenize source <;> rfl

/-- Behind a wide blank and a keyword the loop meets a character that no pattern accepts. -/
theorem loop_stays_at_boundaries_unreadable :
    TextCursor.Reached "\u3000IN é" 1
        ⟨"\u3000IN é".toList, ⟨5, 1, 3⟩, [⟨.condition, "IN", ⟨3, 1, 1⟩⟩]⟩ ∧
      IsBoundary "\u3000IN é".toList 5 ∧ visibleCount "\u3000IN é".toList = 3 ∧
      TextCursor.loop 3 (TextCursor.start "\u3000IN é") =
        some (.error (.unreadable "é" ⟨6, 1, 4⟩)) := by
  have reached : TextCursor.Reached "\u3000IN é" 1
      ⟨"\u3000IN é".toList, ⟨5, 1, 3⟩, [⟨.condition, "IN", ⟨3, 1, 1⟩⟩]⟩ :=
    .read .start (by decide +kernel)
  have visible : visibleCount "\u3000IN é".toList = 3 := by decide
  have unreadable : tokenize "\u3000IN é" = .error (.unreadable "é" ⟨6, 1, 4⟩) := by
    decide +kernel
  obtain ⟨safe, ends⟩ := loop_stays_at_boundaries "\u3000IN é"
  refine ⟨reached, (safe 1 _ reached).2.1.boundary, visible, ?_⟩
  rw [ends 3 (Nat.le_of_eq visible), unreadable]

end FieldRules
