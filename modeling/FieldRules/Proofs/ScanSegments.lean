import FieldRules.Scan
import FieldRules.Proofs.BlankRuns
import FieldRules.Proofs.LongestLexeme
import FieldRules.Proofs.PositionWalk

/-!
# The segments of a scanned text

A scan cuts its text into segments, each a gap of blanks and the lexeme behind it, and a tail in
which it finds no further lexeme.  `Laid` says that segments are those that the scan reads in front
of a given tail.  The scan is then determined by the segments and the tail, and every text can be
cut so. The last part changes the tail: it may be cut off, and text may be added behind it.
-/

namespace FieldRules

open Text

namespace Scan

variable {patterns : List Pattern} {position : Position}

theorem run_of_allBlank {gap : List Char} (blank : AllBlank gap) :
    run patterns position gap = .finished := by
  have nothing : gap.dropWhile isBlank = [] := List.dropWhile_eq_nil_iff.mpr blank
  unfold run
  simp [nothing]

theorem run_stuck {gap rest : List Char} (blank : AllBlank gap) (visible : StartsVisible rest)
    (refused : Lexeme.first? patterns rest = none) :
    run patterns position (gap ++ rest) = .stuck (position.advance gap) rest := by
  unfold run
  simp only [blank.takeWhile_append visible, blank.dropWhile_append visible, List.isEmpty_iff,
    visible.ne_nil, if_false]
  split
  · rfl
  · rename_i lexeme found
    rw [blank.dropWhile_append visible, refused] at found
    cases found

theorem run_read {gap text rest : List Char} {kind : TokenKind} (blank : AllBlank gap)
    (visible : StartsVisible (text ++ rest))
    (found : Lexeme.first? patterns (text ++ rest) = some ⟨kind, text, rest⟩) :
    run patterns position (gap ++ (text ++ rest)) =
      .read ⟨kind, String.ofList text, position.advance gap⟩
        (run patterns (position.advance (gap ++ text)) rest) := by
  rw [Position.advance_append, run.eq_1 patterns position]
  simp only [blank.takeWhile_append visible, blank.dropWhile_append visible, List.isEmpty_iff,
    visible.ne_nil, if_false]
  split
  · rename_i refused
    rw [blank.dropWhile_append visible, found] at refused
    cases refused
  · rename_i lexeme found'
    rw [blank.dropWhile_append visible, found] at found'
    cases found'
    rfl

/-- What a scan meets first: a text is blank, or no pattern accepts what stands behind its gap, or a
lexeme stands there. -/
theorem scan_cases (patterns : List Pattern) {motive : List Char → Prop}
    (blank : ∀ gap, AllBlank gap → motive gap)
    (refused : ∀ gap rest, AllBlank gap → StartsVisible rest →
      Lexeme.first? patterns rest = none → motive (gap ++ rest))
    (read : ∀ gap kind text rest, AllBlank gap → StartsVisible (text ++ rest) →
      Lexeme.first? patterns (text ++ rest) = some ⟨kind, text, rest⟩ →
      motive (gap ++ (text ++ rest)))
    (input : List Char) : motive input := by
  rcases allBlank_or_exists_gap input with allBlank | ⟨gap, rest, rfl, allBlank, visible⟩
  · exact blank input allBlank
  · cases found : Lexeme.first? patterns rest with
    | none => exact refused gap rest allBlank visible found
    | some lexeme =>
        obtain ⟨kind, text, later⟩ := lexeme
        obtain rfl : text ++ later = rest := (Lexeme.first?_splits found).1
        exact read gap kind text later allBlank visible found

/-- Induction along a scan, which goes on behind every lexeme. -/
theorem scan_induction (patterns : List Pattern) {motive : List Char → Prop}
    (blank : ∀ gap, AllBlank gap → motive gap)
    (refused : ∀ gap rest, AllBlank gap → StartsVisible rest →
      Lexeme.first? patterns rest = none → motive (gap ++ rest))
    (read : ∀ gap kind text rest, AllBlank gap → StartsVisible (text ++ rest) →
      Lexeme.first? patterns (text ++ rest) = some ⟨kind, text, rest⟩ → motive rest →
      motive (gap ++ (text ++ rest)))
    (input : List Char) : motive input := by
  induction length : input.length using Nat.strongRecOn generalizing input with
  | ind bound induction =>
      cases input using scan_cases patterns with
      | blank _ allBlank => exact blank _ allBlank
      | refused gap rest allBlank visible none => exact refused gap rest allBlank visible none
      | read gap kind text later allBlank visible found =>
          have shorter : later.length < (text ++ later).length := Lexeme.first?_rest_length_lt found
          have laterShorter : later.length < bound := by
            rw [← length, List.length_append]
            omega
          exact read gap kind text later allBlank visible found (induction _ laterShorter _ rfl)

/-- A gap in front of a text moves its scan and changes nothing else. -/
theorem run_gap {gap : List Char} (blank : AllBlank gap) (text : List Char) :
    run patterns position (gap ++ text) = run patterns (position.advance gap) text := by
  cases text using scan_cases patterns with
  | blank between blankBetween =>
      rw [run_of_allBlank (blank.append blankBetween), run_of_allBlank blankBetween]
  | refused between rest blankBetween visible refused =>
      rw [← List.append_assoc, run_stuck (blank.append blankBetween) visible refused,
        run_stuck blankBetween visible refused, Position.advance_append]
  | read between kind text rest blankBetween visible found =>
      rw [← List.append_assoc, run_read (blank.append blankBetween) visible found,
        run_read blankBetween visible found]
      simp only [Position.advance_append]

/-- The scan that reads the given tokens and then goes on as `next`. -/
def readAll (tokens : List Token) (next : Scan) : Scan :=
  tokens.foldr .read next

@[simp]
theorem tokens_readAll (tokens : List Token) (next : Scan) :
    (readAll tokens next).tokens = tokens ++ next.tokens := by
  induction tokens with
  | nil => rfl
  | cons token tokens induction =>
      exact congrArg (token :: ·) induction

theorem outcome_readAll (tokens : List Token) (next : Scan) :
    (readAll tokens next).outcome = next.outcome.map (tokens ++ ·) := by
  induction tokens with
  | nil => cases result : next.outcome <;> simp [readAll, result, Except.map]
  | cons token tokens induction =>
      have unfolded : (readAll (token :: tokens) next).outcome =
          (readAll tokens next).outcome.map (token :: ·) := rfl
      rw [unfolded, induction]
      cases next.outcome <;> rfl

end Scan

/-- A gap of blanks and the token behind it. -/
structure Segment where
  gap : List Char
  token : Token
  blank : AllBlank gap
  filled : token.value ≠ ""

namespace Segment

def lexeme (segment : Segment) : List Char := segment.token.value.toList

def text (segment : Segment) : List Char := segment.gap ++ segment.lexeme

def textOf (segments : List Segment) : List Char := segments.flatMap text

@[simp]
theorem textOf_nil : textOf [] = [] := rfl

@[simp]
theorem textOf_cons (segment : Segment) (later : List Segment) :
    textOf (segment :: later) = segment.gap ++ (segment.lexeme ++ textOf later) := by
  simp [textOf, text]

@[simp]
theorem textOf_append (earlier later : List Segment) :
    textOf (earlier ++ later) = textOf earlier ++ textOf later := by
  simp [textOf]

end Segment

/-- A lexeme and the gap that is written in front of it. -/
structure Piece where
  gap : List Char
  kind : TokenKind
  text : List Char
  blank : AllBlank gap
  lexeme : Lexical.IsLexeme kind text

namespace Piece

/-- The segment of a piece that is written at a position. -/
def segment (piece : Piece) (position : Position) : Segment where
  gap := piece.gap
  token := ⟨piece.kind, String.ofList piece.text, position.advance piece.gap⟩
  blank := piece.blank
  filled := by
    have nonempty := piece.lexeme.startsVisible.ne_nil
    simpa using nonempty

@[simp]
theorem lexeme_segment (piece : Piece) (position : Position) :
    (piece.segment position).lexeme = piece.text :=
  String.toList_ofList

end Piece

namespace Segment

/-- A scan that begins at the position reads exactly the segments in front of the tail. -/
inductive Laid (tail : List Char) : Position → List Segment → Prop
  | nil {position : Position} : Laid tail position []
  | cons {position : Position} {segment : Segment} {later : List Segment}
      (place : segment.token.position = position.advance segment.gap)
      (found : Lexeme.first? Pattern.table (segment.lexeme ++ (textOf later ++ tail)) =
        some ⟨segment.token.kind, segment.lexeme, textOf later ++ tail⟩)
      (rest : Laid tail (position.advance segment.text) later) :
      Laid tail position (segment :: later)

/-- What a scan leaves when it can read no further: blanks, or a gap and text that no pattern
accepts. -/
inductive Unread : List Char → Prop
  | blank {tail : List Char} (blank : AllBlank tail) : Unread tail
  | refused {gap rest : List Char} (blank : AllBlank gap) (visible : StartsVisible rest)
      (refused : Lexeme.first? Pattern.table rest = none) : Unread (gap ++ rest)

/-- Where a segment stands among others, and what its scan finds there. -/
theorem Laid.of_append {tail : List Char} {position : Position} {earlier later : List Segment}
    {segment : Segment} (laid : Laid tail position (earlier ++ segment :: later)) :
    segment.token.position = position.advance (textOf earlier ++ segment.gap) ∧
      Lexeme.first? Pattern.table (segment.lexeme ++ (textOf later ++ tail)) =
        some ⟨segment.token.kind, segment.lexeme, textOf later ++ tail⟩ := by
  induction earlier generalizing position with
  | nil =>
      cases laid with
      | cons place found rest => exact ⟨place, found⟩
  | cons first earlier induction =>
      cases laid with
      | cons place found rest =>
          obtain ⟨placeLater, foundLater⟩ := induction rest
          refine ⟨?_, foundLater⟩
          rw [placeLater, ← Position.advance_append, textOf_cons, text]
          simp only [List.append_assoc]

/-- A token that is read stands behind the text that its position was walked over. -/
theorem Laid.exists_place {tail : List Char} {position : Position} {segments : List Segment}
    (laid : Laid tail position segments) {found : Token} (member : found ∈ segments.map token) :
    ∃ before after, textOf segments ++ tail = before ++ (found.value.toList ++ after) ∧
      found.position = position.advance before ∧ StartsVisible found.value.toList := by
  obtain ⟨segment, memberSegment, rfl⟩ := List.mem_map.mp member
  obtain ⟨earlier, later, rfl⟩ := List.append_of_mem memberSegment
  obtain ⟨place, foundLexeme⟩ := laid.of_append
  refine ⟨textOf earlier ++ segment.gap, textOf later ++ tail, ?_, place,
    (Lexeme.first?_sound foundLexeme).startsVisible⟩
  rw [textOf_append, textOf_cons, lexeme]
  simp only [List.append_assoc]

/-- A scan reads the segments that are laid before it and goes on with the tail. -/
theorem Laid.run {tail : List Char} {position : Position} {segments : List Segment}
    (laid : Laid tail position segments) :
    Scan.run Pattern.table position (textOf segments ++ tail) =
      Scan.readAll (segments.map token)
        (Scan.run Pattern.table (position.advance (textOf segments)) tail) := by
  induction laid with
  | nil => simp [Scan.readAll]
  | @cons position segment later place found rest induction =>
      have visible := (Lexeme.first?_sound found).startsVisible.append (textOf later ++ tail)
      have same : segment.token =
          ⟨segment.token.kind, String.ofList segment.lexeme, position.advance segment.gap⟩ := by
        rw [lexeme, String.ofList_toList, ← place]
      rw [textOf_cons, List.append_assoc, List.append_assoc,
        Scan.run_read segment.blank visible found, ← same, ← text, induction,
        ← Position.advance_append, text, List.append_assoc]
      rfl

/-- Every text consists of laid segments and an unread tail. -/
theorem exists_laid (position : Position) (source : List Char) :
    ∃ segments tail, source = textOf segments ++ tail ∧ Laid tail position segments ∧
      Unread tail := by
  induction source using Scan.scan_induction Pattern.table generalizing position with
  | blank gap blank => exact ⟨[], gap, rfl, .nil, .blank blank⟩
  | refused gap rest blank visible refused =>
      exact ⟨[], gap ++ rest, rfl, .nil, .refused blank visible refused⟩
  | read gap kind text rest blank visible found induction =>
      obtain ⟨segments, tail, rfl, laid, unread⟩ := induction (position.advance (gap ++ text))
      let piece : Piece := ⟨gap, kind, text, blank, Lexeme.first?_sound found⟩
      refine ⟨piece.segment position :: segments, tail, ?_, ?_, unread⟩
      · rw [textOf_cons, piece.lexeme_segment, List.append_assoc, List.append_assoc]
        rfl
      · apply Laid.cons rfl
        · rw [piece.lexeme_segment]
          exact found
        · rw [Segment.text, piece.lexeme_segment]
          exact laid

theorem Laid.outcome_of_allBlank {tail : List Char} {position : Position}
    {segments : List Segment} (laid : Laid tail position segments) (blank : AllBlank tail) :
    (Scan.run Pattern.table position (textOf segments ++ tail)).outcome =
      .ok (segments.map token) := by
  rw [laid.run, Scan.run_of_allBlank blank, Scan.outcome_readAll]
  simp [Scan.outcome, Except.map]

theorem Laid.outcome_of_refused {gap rest : List Char} {position : Position}
    {segments : List Segment} (laid : Laid (gap ++ rest) position segments) (blank : AllBlank gap)
    (visible : StartsVisible rest) (refused : Lexeme.first? Pattern.table rest = none) :
    (Scan.run Pattern.table position (textOf segments ++ (gap ++ rest))).outcome =
      .error (.unreadable (String.ofList (trimEnd rest))
        (position.advance (textOf segments ++ gap))) := by
  rw [laid.run, Scan.run_stuck blank visible refused, Scan.outcome_readAll,
    Position.advance_append]
  rfl

theorem exists_laid_of_outcome {position : Position} {source : List Char} {tokens : List Token}
    (readable : (Scan.run Pattern.table position source).outcome = .ok tokens) :
    ∃ segments ending, source = textOf segments ++ ending ∧ Laid ending position segments ∧
      AllBlank ending ∧ segments.map token = tokens := by
  obtain ⟨segments, tail, rfl, laid, unread⟩ := exists_laid position source
  cases unread with
  | blank blank =>
      rw [laid.outcome_of_allBlank blank] at readable
      exact ⟨segments, tail, rfl, laid, blank, Except.ok.inj readable⟩
  | refused blank visible refused =>
      rw [laid.outcome_of_refused blank visible refused] at readable
      cases readable

/-- The segments stay the same when the text behind them is cut off anywhere. -/
theorem Laid.cut {tail more : List Char} {position : Position} {segments : List Segment}
    (laid : Laid (tail ++ more) position segments) : Laid tail position segments := by
  induction laid with
  | nil => exact .nil
  | @cons position segment later place found rest induction =>
      rw [← List.append_assoc (textOf later)] at found
      exact .cons place (Lexeme.first?_cut found) induction

/-- The segments stay the same when text is added behind blanks, unless it makes the last number
longer. -/
theorem Laid.extend {tail more : List Char} {position : Position} {segments : List Segment}
    (laid : Laid tail position segments) (blank : AllBlank tail)
    (stops : ¬ Lexical.StartsUnsigned more) : Laid (tail ++ more) position segments := by
  induction laid with
  | nil => exact .nil
  | @cons position segment later place found rest induction =>
      have notPoint : textOf later ++ tail ≠ ['.'] := by
        intro isPoint
        have readable := rest.outcome_of_allBlank blank
        rw [isPoint, ← List.nil_append ['.'],
          Scan.run_stuck allBlank_nil ⟨'.', [], rfl, by decide⟩ rfl] at readable
        cases readable
      have foundLonger := Lexeme.first?_extend found notPoint fun _ => stops
      rw [List.append_assoc] at foundLonger
      exact .cons place foundLonger induction

end Segment

/-- Text behind a text that is read to its end is scanned as if it stood alone, unless it makes the
last number longer. -/
theorem Scan.run_append {position : Position} {source more : List Char} {tokens : List Token}
    (readable : (run Pattern.table position source).outcome = .ok tokens)
    (stops : ¬ Lexical.StartsUnsigned more) :
    run Pattern.table position (source ++ more) =
      readAll tokens (run Pattern.table (position.advance source) more) := by
  obtain ⟨segments, ending, rfl, laid, blank, rfl⟩ := Segment.exists_laid_of_outcome readable
  have extended := laid.extend blank stops
  rw [List.append_assoc, extended.run, run_gap blank, Position.advance_append]

end FieldRules
