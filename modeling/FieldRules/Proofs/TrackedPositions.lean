import FieldRules.Proofs.ErrorPlaces
import FieldRules.Proofs.SourceLines

/-!
# Tracked positions

A scan does not count from the beginning of the text for each token.  It carries one position along
and advances it over gaps and lexemes in turn, and the parser copies positions from tokens into its
errors.  This file proves that the result is the same: the position of a token or of an error is the
one that `Position.locate` computes for its offset, and its line and column are those that a reader
counts in the text.
-/

namespace FieldRules

open Text

namespace Position

/-- The position of a character of the text as a reader counts it: the bytes before the character,
one more than the newlines before it, and the characters since the last of these. -/
inductive Counted : List Char → Position → Prop
  | intro {earlier head after : List Char} (inside : after ≠ []) (ends : EndsLine earlier)
      (noNewline : '\n' ∉ head) :
      Counted (earlier ++ head ++ after)
        ⟨byteLength (earlier ++ head), 1 + (earlier ++ head).count '\n', head.length⟩

/-- The position is found again from its offset alone, by locating and by counting. -/
structure Marks (position : Position) (source : List Char) : Prop where
  located : position = locate source position.offset
  counted : Counted source position

theorem counted_advance_start (before : List Char) {after : List Char} (inside : after ≠ []) :
    Counted (before ++ after) (start.advance before) := by
  obtain ⟨earlier, head, rfl, ends, noNewline, position⟩ := exists_advance_start before
  rw [position]
  exact .intro inside ends noNewline

theorem marks_advance_start (before : List Char) {after : List Char} (inside : after ≠ []) :
    (start.advance before).Marks (before ++ after) where
  located := by rw [offset_advance_start, locate_append]
  counted := counted_advance_start before inside

theorem line_advance_start_pos (text : List Char) : 0 < (start.advance text).line :=
  Nat.lt_add_right _ Nat.one_pos

end Position

theorem marks_of_tokenize {source : String} {tokens : List Token}
    (readable : tokenize source = .ok tokens) {token : Token} (member : token ∈ tokens) :
    token.position.Marks source.toList := by
  obtain ⟨before, after, sourceEq, place, visible⟩ := exists_place_of_token readable member
  rw [sourceEq, place]
  exact Position.marks_advance_start before (visible.append after).ne_nil

/-- The positions of tokens and of errors agree with those that are computed from the beginning of
the text.  An error of a compilation has a known position of this kind unless the rule is too short.
-/
theorem compile_tracks_positions (source : String) :
    (∀ tokens, tokenize source = .ok tokens →
      ∀ token ∈ tokens, token.position.Marks source.toList) ∧
    (∀ error, tokenize source = .error error →
      ∃ remainder position, error = .unreadable remainder position ∧
        position.Marks source.toList) ∧
    ∀ error, compile source = .error error →
      (∃ found, error = .insufficientTokens found) ∨
        ∃ position, error.position? = some position ∧ 0 < position.line ∧
          position.Marks source.toList := by
  refine ⟨?tokens, ?scan, ?compilation⟩
  case tokens =>
    intro tokens readable token member
    exact marks_of_tokenize readable member
  case scan =>
    intro error failed
    obtain ⟨before, text, after, sourceEq, visible, rfl⟩ := exists_place_of_tokenize failed
    refine ⟨_, _, rfl, ?_⟩
    rw [sourceEq]
    exact Position.marks_advance_start before (visible.append after).ne_nil
  case compilation =>
    intro error failed
    rcases error.exists_names with short | ⟨text, position, names⟩
    · exact Or.inl short
    · right
      obtain ⟨before, after, sourceEq, rfl, visible⟩ := exists_place_of_names failed names
      have positive := Position.line_advance_start_pos before
      have known : (Position.start.advance before).isKnown = true := decide_eq_true positive
      refine ⟨_, ?_, positive, ?_⟩
      · rw [names.position?_eq, Option.filter_some, if_pos known]
      · rw [sourceEq]
        exact Position.marks_advance_start before (visible.append after).ne_nil

/-- The newline inside the value counts for the connective behind it, and so does the one in front.
-/
theorem compile_tracks_positions_over_lines :
    (⟨15, 2, 3⟩ : Position).Marks "FIELD(\"é\")\nIN 'a\nb' AND".toList ∧
      (⟨21, 3, 3⟩ : Position).Marks "FIELD(\"é\")\nIN 'a\nb' AND".toList ∧
      (⟨3, 2, 0⟩ : Position).Marks "IN\n? ".toList := by
  have readable : tokenize "FIELD(\"é\")\nIN 'a\nb' AND" =
      .ok [⟨.field, "FIELD(\"é\")", ⟨0, 1, 0⟩⟩, ⟨.condition, "IN", ⟨12, 2, 0⟩⟩,
        ⟨.value, "'a\nb'", ⟨15, 2, 3⟩⟩, ⟨.logical, "AND", ⟨21, 3, 3⟩⟩] := by
    decide +kernel
  have failed : compile "FIELD(\"é\")\nIN 'a\nb' AND" =
      .error (.unexpectedToken ⟨.logical, "AND", ⟨21, 3, 3⟩⟩) := by
    rw [compile, readable]
    simp [bind, Except.bind, parseRules, Cursor.parse, Cursor.ofTokens, Cursor.tokens,
      minimumTokens, Cursor.clauses, Cursor.isAtEnd, Cursor.step, Except.map]
  have stuck : tokenize "IN\n? " = .error (.unreadable "?" ⟨3, 2, 0⟩) := by
    decide +kernel
  refine ⟨?token, ?connective, ?scan⟩
  case token =>
    exact (compile_tracks_positions _).1 _ readable ⟨.value, "'a\nb'", ⟨15, 2, 3⟩⟩ (by decide)
  case connective =>
    rcases (compile_tracks_positions _).2.2 _ failed with ⟨_, short⟩ | ⟨_, known, _, marks⟩
    · cases short
    · cases known
      exact marks
  case scan =>
    obtain ⟨_, _, same, marks⟩ := (compile_tracks_positions _).2.1 _ stuck
    cases same
    exact marks

end FieldRules
