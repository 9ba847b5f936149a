import FieldRules.Position
import FieldRules.Proofs.BlankRuns

/-!
# Walking over a text

`Position.advance` computes the position behind a piece of text at once, from its last newline.
This file proves that it agrees with a walk over the characters, so that advancing over two pieces
one after the other is advancing over both.  It also identifies the position that `Position.locate`
finds at the end of a beginning of the source.
-/

namespace FieldRules

namespace Text

@[simp]
theorem takeBytes_byteLength (before after : List Char) :
    takeBytes (byteLength before) (before ++ after) = before := by
  induction before with
  | nil =>
      cases after with
      | nil => rfl
      | cons character after =>
          have positive := Char.utf8Size_pos character
          have tooLong : ¬ character.utf8Size ≤ 0 := by omega
          simp [takeBytes, tooLong]
  | cons character before induction =>
      simp [takeBytes, induction]

theorem byteLength_pos {text : List Char} (nonempty : text ≠ []) : 0 < byteLength text := by
  cases text with
  | nil => exact absurd rfl nonempty
  | cons character rest =>
      have positive := Char.utf8Size_pos character
      rw [byteLength_cons]
      omega

theorem length_le_byteLength (text : List Char) : text.length ≤ byteLength text := by
  induction text with
  | nil => simp
  | cons character text induction =>
      have positive := Char.utf8Size_pos character
      rw [List.length_cons, byteLength_cons]
      omega

/-- Two beginnings of one text are equally long if they take equally many bytes. -/
theorem eq_of_byteLength_eq {first second afterFirst afterSecond : List Char}
    (sameText : first ++ afterFirst = second ++ afterSecond)
    (sameLength : byteLength first = byteLength second) : first = second := by
  have cutFirst := takeBytes_byteLength first afterFirst
  rw [sameText, sameLength, takeBytes_byteLength] at cutFirst
  exact cutFirst.symm

end Text

namespace Position

/-- The position behind a single character. -/
def step (position : Position) (character : Char) : Position where
  offset := position.offset + character.utf8Size
  line := if character = '\n' then position.line + 1 else position.line
  column := if character = '\n' then 0 else position.column + 1

@[simp]
theorem lastLineLength_of_not_mem {text : List Char} (noNewline : '\n' ∉ text) :
    lastLineLength text = text.length := by
  have allKept := Text.all_bne_of_not_mem (mt List.mem_reverse.mp noNewline)
  rw [lastLineLength, List.takeWhile_eq_self_iff.mpr allKept, List.length_reverse]

theorem lastLineLength_cons_of_mem {text : List Char} (hasNewline : '\n' ∈ text)
    (character : Char) : lastLineLength (character :: text) = lastLineLength text := by
  have stops : (text.reverse.takeWhile (· != '\n')).length ≠ text.reverse.length := by
    intro same
    have whole := (List.takeWhile_prefix (· != '\n')).eq_of_length same
    have kept := List.takeWhile_eq_self_iff.mp whole '\n' (List.mem_reverse.mpr hasNewline)
    simp at kept
  rw [lastLineLength, List.reverse_cons, List.takeWhile_append, if_neg stops, lastLineLength]

theorem lastLineLength_append {line : List Char} (noNewline : '\n' ∉ line) (before : List Char) :
    lastLineLength (before ++ '\n' :: line) = line.length := by
  have kept := Text.all_bne_of_not_mem (mt List.mem_reverse.mp noNewline)
  rw [lastLineLength, List.reverse_append, List.reverse_cons, List.append_assoc,
    List.takeWhile_append_of_pos kept]
  simp

theorem advance_cons (position : Position) (character : Char) (text : List Char) :
    position.advance (character :: text) = (position.step character).advance text := by
  by_cases newline : character = '\n' <;> by_cases later : '\n' ∈ text
  · subst newline
    simp [advance, step, later, lastLineLength_cons_of_mem]
    omega
  · subst newline
    have last : lastLineLength ('\n' :: text) = text.length := lastLineLength_append later []
    simp [advance, step, later, last]
    omega
  · simp [advance, step, newline, later, lastLineLength_cons_of_mem]
    omega
  · have different : ¬ '\n' = character := fun equal => newline equal.symm
    simp [advance, step, newline, later, different]
    omega

theorem advance_append (position : Position) (first second : List Char) :
    position.advance (first ++ second) = (position.advance first).advance second := by
  induction first generalizing position with
  | nil => simp
  | cons character first induction =>
      rw [List.cons_append, advance_cons, advance_cons, induction]

@[simp]
theorem offset_advance (position : Position) (text : List Char) :
    (position.advance text).offset = position.offset + Text.byteLength text := rfl

@[simp]
theorem line_advance (position : Position) (text : List Char) :
    (position.advance text).line = position.line + text.count '\n' := rfl

@[simp]
theorem offset_advance_start (text : List Char) :
    (start.advance text).offset = Text.byteLength text :=
  Nat.zero_add _

@[simp]
theorem locate_append (before after : List Char) :
    locate (before ++ after) (Text.byteLength before) = start.advance before := by
  rw [locate, Text.takeBytes_byteLength]

end Position
end FieldRules
