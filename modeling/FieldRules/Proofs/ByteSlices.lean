import FieldRules.Proofs.LocatedOffsets

/-!
# Slices at byte offsets

A text that is cut at a byte offset has two parts if the offset is a boundary of characters, and
none otherwise.  Moving a position over a text takes such a slice: the columns are counted in what
follows the last newline, which is found by its byte offset.  This file proves that the slice exists
for every text and that the position found with it is the one of a walk over the characters.
-/

namespace FieldRules

namespace Text

/-- The part of a text before a byte offset. -/
def sliceTo? (text : List Char) (offset : Nat) : Option (List Char) :=
  if IsBoundary text offset then some (takeBytes offset text) else none

/-- The part of a text from a byte offset on. -/
def sliceFrom? (text : List Char) (offset : Nat) : Option (List Char) :=
  if IsBoundary text offset then some (text.drop (takeBytes offset text).length) else none

/-- The byte offset of the last place at which a character occurs in a text. -/
def lastOffset? (mark : Char) : List Char → Option Nat
  | [] => none
  | character :: rest =>
      match lastOffset? mark rest with
      | some offset => some (character.utf8Size + offset)
      | none => if character = mark then some 0 else none

@[simp]
theorem sliceTo?_byteLength (before after : List Char) :
    sliceTo? (before ++ after) (byteLength before) = some before := by
  rw [sliceTo?, if_pos (isBoundary_byteLength before after), takeBytes_byteLength]

@[simp]
theorem sliceFrom?_byteLength (before after : List Char) :
    sliceFrom? (before ++ after) (byteLength before) = some after := by
  rw [sliceFrom?, if_pos (isBoundary_byteLength before after), takeBytes_byteLength,
    List.drop_left]

theorem lastOffset?_of_not_mem {mark : Char} {text : List Char} (absent : mark ∉ text) :
    lastOffset? mark text = none := by
  induction text with
  | nil => rfl
  | cons character text induction =>
      rw [List.mem_cons, not_or] at absent
      rw [lastOffset?, induction absent.2]
      exact if_neg (Ne.symm absent.1)

theorem lastOffset?_append {mark : Char} {after : List Char} (absent : mark ∉ after)
    (before : List Char) : lastOffset? mark (before ++ mark :: after) = some (byteLength before) := by
  induction before with
  | nil =>
      rw [List.nil_append, lastOffset?, lastOffset?_of_not_mem absent]
      exact if_pos rfl
  | cons character before induction =>
      rw [List.cons_append, lastOffset?, induction, byteLength_cons]

theorem not_mem_or_exists_lastNewline (text : List Char) :
    '\n' ∉ text ∨ ∃ before line, text = before ++ '\n' :: line ∧ '\n' ∉ line := by
  obtain ⟨earlier, line, rfl, ends, noNewline⟩ := exists_lastLine text
  rcases ends.eq_nil_or_newline with rfl | ⟨before, rfl⟩
  · exact Or.inl noNewline
  · exact Or.inr ⟨before, line, List.append_assoc before ['\n'] line, noNewline⟩

end Text

namespace Position

open Text

/-- The position behind a text, with the column counted in a slice of the text behind its last
newline. -/
def advanceBySlice? (position : Position) (text : List Char) : Option Position :=
  let offset := position.offset + byteLength text
  match lastOffset? '\n' text with
  | some newline =>
      (sliceFrom? text (newline + 1)).map fun line =>
        ⟨offset, position.line + text.count '\n', line.length⟩
  | none => some ⟨offset, position.line, position.column + text.length⟩

/-- The slice behind the last newline exists and is the last line. -/
theorem advanceBySlice?_eq (position : Position) (text : List Char) :
    position.advanceBySlice? text = some (position.advance text) := by
  rcases not_mem_or_exists_lastNewline text with noNewline | ⟨before, line, rfl, noNewline⟩
  · rw [advanceBySlice?, lastOffset?_of_not_mem noNewline]
    simp [advance, noNewline, List.count_eq_zero_of_not_mem]
  · have sliced : sliceFrom? (before ++ '\n' :: line) (byteLength before + 1) = some line := by
      have cut := sliceFrom?_byteLength (before ++ ['\n']) line
      rw [byteLength_append, List.append_assoc] at cut
      exact cut
    rw [advanceBySlice?, lastOffset?_append noNewline]
    simp [sliced, advance, lastLineLength_append noNewline]

theorem advance_eq_foldl (position : Position) (text : List Char) :
    position.advance text = text.foldl step position := by
  induction text generalizing position with
  | nil => exact advance_nil position
  | cons character text induction =>
      rw [advance_cons, List.foldl_cons, induction]

/-- Advancing over a text walks over its characters one by one: a newline begins a line, any other
character takes a column, and each adds its bytes to the offset.  The slice behind the last newline
gives the same position.  So a text may be advanced over in two parts, and an empty one moves
nothing. -/
theorem advance_is_stepwise (position : Position) (first second : List Char) :
    position.advance first = first.foldl step position ∧
    position.advanceBySlice? first = some (first.foldl step position) ∧
    position.advance (first ++ second) = (position.advance first).advance second ∧
    position.advance [] = position := by
  have walked := position.advance_eq_foldl first
  refine ⟨walked, ?_, position.advance_append first second, position.advance_nil⟩
  rw [position.advanceBySlice?_eq, walked]

end Position
end FieldRules
