import FieldRules.Proofs.ScanSegments

/-!
# Where a scan fails

A scan fails at a place up to which the text can be read and behind which no pattern accepts it.
Cutting the text off at that place does not change what was read before it, and a text has at most
one such place.  So the error of a scan is determined by the text alone: its position is the place,
and its remainder is the text behind the place without the blanks at its end.
-/

namespace FieldRules

open Text

/-- The first text can be read, and no pattern accepts the second, which begins with a visible
character. -/
structure Obstructed (before rest : List Char) : Prop where
  readable : ∃ tokens, tokenize (String.ofList before) = .ok tokens
  visible : StartsVisible rest
  refused : Lexeme.first? Pattern.table rest = none

theorem Obstructed.tokenize_eq {before rest : List Char} (obstructed : Obstructed before rest) :
    tokenize (String.ofList (before ++ rest)) =
      .error (.unreadable (String.ofList (trimEnd rest)) (Position.start.advance before)) := by
  obtain ⟨tokens, readable⟩ := obstructed.readable
  rw [tokenize, Scan.ofText, String.toList_ofList] at readable ⊢
  have stops : ¬ Lexical.StartsUnsigned rest := by
    intro starts
    exact Lexeme.first?_ne_none_of_startsUnsigned starts obstructed.refused
  have stuck : Scan.run Pattern.table (Position.start.advance before) ([] ++ rest) =
      .stuck ((Position.start.advance before).advance []) rest :=
    Scan.run_stuck allBlank_nil obstructed.visible obstructed.refused
  rw [List.nil_append, Position.advance_nil] at stuck
  rw [Scan.run_append readable stops, stuck, Scan.outcome_readAll]
  rfl

theorem Obstructed.unique {before rest before' rest' : List Char}
    (same : before ++ rest = before' ++ rest') (obstructed : Obstructed before rest)
    (obstructed' : Obstructed before' rest') : before = before' ∧ rest = rest' := by
  have errors := obstructed.tokenize_eq
  rw [same, obstructed'.tokenize_eq] at errors
  have positions := (RuleError.unreadable.inj (Except.error.inj errors)).2
  have offsets := congrArg Position.offset positions
  simp only [Position.offset_advance, Nat.add_right_inj] at offsets
  obtain rfl := eq_of_byteLength_eq same offsets.symm
  exact ⟨rfl, List.append_cancel_left same⟩

/-- A failing scan is obstructed behind the tokens that it has read. -/
theorem exists_obstructed {source : String} {error : RuleError}
    (failed : tokenize source = .error error) :
    ∃ before rest, source.toList = before ++ rest ∧ Obstructed before rest ∧
      tokenize (String.ofList before) = .ok (Scan.ofText source).tokens := by
  obtain ⟨segments, tail, sourceEq, laid, unread⟩ :=
    Segment.exists_laid Position.start source.toList
  rw [tokenize, Scan.ofText, sourceEq] at failed
  cases unread with
  | blank blank =>
      rw [laid.outcome_of_allBlank blank] at failed
      cases failed
  | @refused gap rest blank visible refused =>
      have readable : tokenize (String.ofList (Segment.textOf segments ++ gap)) =
          .ok (segments.map Segment.token) := by
        rw [tokenize, Scan.ofText, String.toList_ofList]
        exact laid.cut.outcome_of_allBlank blank
      have emitted : (Scan.ofText source).tokens = segments.map Segment.token := by
        rw [Scan.ofText, sourceEq, laid.run, Scan.tokens_readAll,
          Scan.run_stuck blank visible refused]
        exact List.append_nil _
      refine ⟨Segment.textOf segments ++ gap, rest, ?_, ⟨⟨_, readable⟩, visible, refused⟩, ?_⟩
      · rw [sourceEq, List.append_assoc]
      · rw [emitted]
        exact readable

/-- A scan fails exactly if the text is obstructed somewhere, and then with the error of that place:
the tokens before it are those of the text before it, the position is found by its offset, and the
remainder is the rest of the text without the blanks at its end. -/
theorem tokenize_fails_exactly (source : String) :
    (∀ error, tokenize source = .error error →
      ∃ before rest remainder position,
        source.toList = before ++ rest ∧ Obstructed before rest ∧
        tokenize (String.ofList before) = .ok (Scan.ofText source).tokens ∧
        error = .unreadable (String.ofList remainder) position ∧
        TrimmedFrom remainder rest ∧ remainder ≠ [] ∧
        position.offset = byteLength before ∧ position.offset < byteLength source.toList ∧
        position = Position.locate source.toList position.offset) ∧
    (∀ before rest, source.toList = before ++ rest → Obstructed before rest →
      ∃ remainder, TrimmedFrom remainder rest ∧
        tokenize source = .error (.unreadable (String.ofList remainder)
          (Position.locate source.toList (byteLength before)))) ∧
    ∀ before rest before' rest', source.toList = before ++ rest →
      source.toList = before' ++ rest' → Obstructed before rest →
      Obstructed before' rest' → before = before' ∧ rest = rest' := by
  refine ⟨?_, ?_, ?_⟩
  · intro error failed
    obtain ⟨before, rest, sourceEq, obstructed, readable⟩ := exists_obstructed failed
    have sourceText : source = String.ofList (before ++ rest) := by
      rw [← sourceEq, String.ofList_toList]
    rw [sourceText, obstructed.tokenize_eq] at failed
    have positive := byteLength_pos obstructed.visible.ne_nil
    have offsetEq : (Position.start.advance before).offset = byteLength before := by
      rw [Position.offset_advance_start]
    refine ⟨before, rest, trimEnd rest, Position.start.advance before, sourceEq, obstructed,
      readable, (Except.error.inj failed).symm, trimmedFrom_trimEnd rest,
      trimEnd_ne_nil obstructed.visible, offsetEq, ?_, ?_⟩
    · rw [offsetEq, sourceEq, byteLength_append]
      omega
    · rw [offsetEq, sourceEq, Position.locate_append]
  · intro before rest sourceEq obstructed
    refine ⟨trimEnd rest, trimmedFrom_trimEnd rest, ?_⟩
    rw [sourceEq, Position.locate_append, ← obstructed.tokenize_eq, ← sourceEq,
      String.ofList_toList]
  · intro before rest before' rest' sourceEq sourceEq' obstructed obstructed'
    exact obstructed.unique (sourceEq ▸ sourceEq') obstructed'

/-- A number that ends with a point is obstructed at the point. -/
theorem tokenize_fails_at_point :
    (∃ remainder, TrimmedFrom remainder ['.', ' '] ∧
      tokenize "IN 1. " = .error (.unreadable (String.ofList remainder) ⟨4, 1, 4⟩)) := by
  have readable : tokenize (String.ofList ['I', 'N', ' ', '1']) =
      .ok [⟨.condition, "IN", ⟨0, 1, 0⟩⟩, ⟨.value, "1", ⟨3, 1, 3⟩⟩] := by
    decide +kernel
  exact (tokenize_fails_exactly "IN 1. ").2.1 ['I', 'N', ' ', '1'] ['.', ' '] rfl
    ⟨⟨_, readable⟩, ⟨'.', [' '], rfl, by decide⟩, rfl⟩

end FieldRules
