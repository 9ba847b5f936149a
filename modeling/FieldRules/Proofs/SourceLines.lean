import FieldRules.Proofs.PositionWalk
import FieldRules.Text.Lines

/-!
# The line of a character

The lines of a text are counted by its newlines.  A visible character stands on the line whose
number is one more than the count of the newlines before it, behind the characters since the last of
them. So its position tells where to find it among the lines.
-/

namespace FieldRules
namespace Text

/-- Induction on a text by its line ends: a character is a newline, begins a line end of two
characters, or belongs to its line. -/
theorem lines_induction {motive : List Char → Prop} (nil : motive [])
    (newline : ∀ rest, motive rest → motive ('\n' :: rest))
    (returnNewline : ∀ rest, motive rest → motive ('\r' :: '\n' :: rest))
    (kept : ∀ character rest, character ≠ '\n' →
      (character = '\r' → rest.head? ≠ some '\n') → motive rest → motive (character :: rest))
    (text : List Char) : motive text := by
  have keptMatch : ∀ character rest, (character = '\n' → False) →
      (∀ later, character = '\r' → rest = '\n' :: later → False) → motive rest →
        motive (character :: rest) := by
    intro character rest notNewline notReturn
    apply kept character rest notNewline
    intro isReturn head
    obtain ⟨later, restEq⟩ := List.head?_eq_some_iff.mp head
    exact notReturn later isReturn restEq
  apply lines.induct motive nil newline returnNewline
  · intro character rest notNewline notReturn _
    exact keptMatch character rest notNewline notReturn
  · intro character rest notNewline notReturn _ _ _
    exact keptMatch character rest notNewline notReturn

theorem lines_cons_of_kept {character : Char} {text : List Char} (notNewline : character ≠ '\n')
    (notEnd : character = '\r' → text.head? ≠ some '\n') :
    lines (character :: text) =
      (character :: (lines text).headD []) :: (lines text).tail := by
  have notReturn : ∀ rest, character = '\r' → text = '\n' :: rest → False := by
    rintro rest isReturn rfl
    exact notEnd isReturn rfl
  rw [lines.eq_4 _ _ notNewline notReturn]
  cases lines text with
  | nil => rfl
  | cons line later => rfl

theorem headD_lines_isPrefix (text : List Char) : (lines text).headD [] <+: text := by
  induction text using lines_induction with
  | nil => exact List.prefix_refl []
  | newline rest induction => exact List.nil_prefix
  | returnNewline rest induction => exact List.nil_prefix
  | kept character rest notNewline notEnd induction =>
      rw [lines_cons_of_kept notNewline notEnd]
      exact List.cons_prefix_cons.mpr ⟨rfl, induction⟩

theorem newline_not_mem_lines {text line : List Char} (member : line ∈ lines text) :
    '\n' ∉ line := by
  induction text using lines_induction generalizing line with
  | nil => cases member
  | newline rest induction =>
      rcases List.mem_cons.mp member with rfl | memberLater
      · exact List.not_mem_nil
      · exact induction memberLater
  | returnNewline rest induction =>
      rcases List.mem_cons.mp member with rfl | memberLater
      · exact List.not_mem_nil
      · exact induction memberLater
  | kept character rest notNewline notEnd induction =>
      rw [lines_cons_of_kept notNewline notEnd] at member
      rcases List.mem_cons.mp member with rfl | memberLater
      · intro newline
        rcases List.mem_cons.mp newline with isNewline | inLine
        · exact notNewline isNewline.symm
        · cases linesEq : lines rest with
          | nil =>
              rw [linesEq] at inLine
              cases inLine
          | cons first later =>
              rw [linesEq] at inLine induction
              exact induction List.mem_cons_self inLine
      · exact induction (List.mem_of_mem_tail memberLater)

/-- The text consists of whole lines, of which the last is ended as well. -/
def EndsLine (text : List Char) : Prop :=
  ∀ character, text.getLast? = some character → character = '\n'

theorem EndsLine.of_cons {character : Char} {text : List Char}
    (ends : EndsLine (character :: text)) : EndsLine text := by
  intro last isLast
  apply ends
  rw [List.getLast?_cons, isLast, Option.getD_some]

theorem EndsLine.newline_mem {text : List Char} (ends : EndsLine text) (nonempty : text ≠ []) :
    '\n' ∈ text := by
  have isLast := List.getLast?_eq_some_getLast nonempty
  rw [← ends _ isLast]
  exact List.getLast_mem nonempty

theorem EndsLine.length_lines {text : List Char} (ends : EndsLine text) :
    (lines text).length = text.count '\n' := by
  induction text using lines_induction with
  | nil => rfl
  | newline rest induction => simp [lines, induction ends.of_cons]
  | returnNewline rest induction => simp [lines, induction ends.of_cons.of_cons]
  | kept character rest notNewline notEnd induction =>
      have nonempty : rest ≠ [] := by
        rintro rfl
        exact notNewline (ends character rfl)
      have positive := List.count_pos_iff.mpr (ends.of_cons.newline_mem nonempty)
      rw [lines_cons_of_kept notNewline notEnd, List.length_cons, List.length_tail,
        induction ends.of_cons, List.count_cons_of_ne notNewline]
      omega

theorem EndsLine.lines_append {text : List Char} (ends : EndsLine text) (more : List Char) :
    lines (text ++ more) = lines text ++ lines more := by
  induction text using lines_induction with
  | nil => rfl
  | newline rest induction => simp [lines, induction ends.of_cons]
  | returnNewline rest induction => simp [lines, induction ends.of_cons.of_cons]
  | kept character rest notNewline notEnd induction =>
      have nonempty : rest ≠ [] := by
        rintro rfl
        exact notNewline (ends character rfl)
      have notEndMore : character = '\r' → (rest ++ more).head? ≠ some '\n' := by
        obtain ⟨first, others, rfl⟩ := List.exists_cons_of_ne_nil nonempty
        exact notEnd
      have counted := ends.of_cons.length_lines
      have positive := List.count_pos_iff.mpr (ends.of_cons.newline_mem nonempty)
      rw [List.cons_append, lines_cons_of_kept notNewline notEndMore,
        lines_cons_of_kept notNewline notEnd, induction ends.of_cons]
      cases linesEq : lines rest with
      | nil =>
          rw [linesEq, List.length_nil] at counted
          omega
      | cons line later => rfl

theorem EndsLine.eq_nil_or_newline {text : List Char} (ends : EndsLine text) :
    text = [] ∨ ∃ before, text = before ++ ['\n'] := by
  rcases List.eq_nil_or_concat text with rfl | ⟨before, last, rfl⟩
  · exact Or.inl rfl
  · rw [List.concat_eq_append] at ends ⊢
    obtain rfl : last = '\n' := ends last List.getLast?_concat
    exact Or.inr ⟨before, rfl⟩

theorem EndsLine.lastLineLength_append {earlier head : List Char} (ends : EndsLine earlier)
    (noNewline : '\n' ∉ head) : Position.lastLineLength (earlier ++ head) = head.length := by
  rcases ends.eq_nil_or_newline with rfl | ⟨before, rfl⟩
  · exact Position.lastLineLength_of_not_mem noNewline
  · rw [List.append_assoc]
    exact Position.lastLineLength_append noNewline before

/-- Every text is cut into whole lines and the beginning of the last one. -/
theorem exists_lastLine (text : List Char) :
    ∃ earlier head, text = earlier ++ head ∧ EndsLine earlier ∧ '\n' ∉ head := by
  obtain ⟨split, kept, stops⟩ := trailing_run (· != '\n') text
  refine ⟨_, _, split, ?_, ?_⟩
  · intro character last
    simpa using stops character last
  · intro newline
    have notNewline := kept '\n' newline
    simp at notNewline

theorem column_advance_start (text : List Char) :
    (Position.start.advance text).column = Position.lastLineLength text := by
  by_cases newline : '\n' ∈ text
  · simp [Position.advance, newline]
  · simp [Position.advance, newline, Position.start]

/-- The position behind a text counts its bytes, its newlines and the characters of its last line.
-/
theorem exists_advance_start (text : List Char) :
    ∃ earlier head, text = earlier ++ head ∧ EndsLine earlier ∧ '\n' ∉ head ∧
      Position.start.advance text =
        ⟨byteLength (earlier ++ head), 1 + (earlier ++ head).count '\n', head.length⟩ := by
  obtain ⟨earlier, head, rfl, ends, noNewline⟩ := exists_lastLine text
  have columnEq : (Position.start.advance (earlier ++ head)).column = head.length := by
    rw [column_advance_start, ends.lastLineLength_append noNewline]
  refine ⟨earlier, head, rfl, ends, noNewline, ?_⟩
  rw [← columnEq, ← Position.offset_advance_start]
  rfl

/-- The first line behind a beginning without a newline goes on with the next visible character. -/
theorem lines_append_visible {head : List Char} {character : Char} (noNewline : '\n' ∉ head)
    (visible : isBlank character = false) (after : List Char) :
    ∃ tail later, lines (head ++ character :: after) = (head ++ character :: tail) :: later ∧
      tail <+: after := by
  have notNewline : character ≠ '\n' := by
    rintro rfl
    exact absurd visible (by decide)
  induction head with
  | nil =>
      have notEnd : character = '\r' → after.head? ≠ some '\n' := by
        rintro rfl
        exact absurd visible (by decide)
      exact ⟨_, _, lines_cons_of_kept notNewline notEnd, headD_lines_isPrefix after⟩
  | cons first head induction =>
      rw [List.mem_cons, not_or] at noNewline
      obtain ⟨tail, later, linesEq, isPrefix⟩ := induction noNewline.2
      have notEnd : first = '\r' → (head ++ character :: after).head? ≠ some '\n' := by
        intro _ isNewline
        cases head with
        | nil => exact notNewline (Option.some.inj isNewline)
        | cons second head =>
            obtain rfl := Option.some.inj isNewline
            exact noNewline.2 List.mem_cons_self
      refine ⟨tail, later, ?_, isPrefix⟩
      rw [List.cons_append, lines_cons_of_kept (Ne.symm noNewline.1) notEnd, linesEq]
      rfl

/-- A visible character stands on the line and in the column of its position. -/
theorem exists_line (before after : List Char) {character : Char}
    (visible : isBlank character = false) :
    ∃ earlier head tail, before = earlier ++ head ∧ EndsLine earlier ∧ tail <+: after ∧
      '\n' ∉ head ++ character :: tail ∧
      head.length = (Position.start.advance before).column ∧
      (lines (before ++ character :: after))[(Position.start.advance before).line - 1]? =
        some (head ++ character :: tail) := by
  obtain ⟨earlier, head, rfl, ends, noNewline⟩ := exists_lastLine before
  obtain ⟨tail, later, linesEq, isPrefix⟩ := lines_append_visible noNewline visible after
  have lineIndex : (Position.start.advance (earlier ++ head)).line - 1 =
      (lines earlier).length := by
    rw [Position.line_advance, List.count_append, List.count_eq_zero_of_not_mem noNewline,
      ends.length_lines]
    exact Nat.add_sub_cancel_left 1 _
  have found : (lines (earlier ++ head ++ character :: after))[(lines earlier).length]? =
      some (head ++ character :: tail) := by
    rw [List.append_assoc, ends.lines_append, linesEq, List.getElem?_append_right (Nat.le_refl _),
      Nat.sub_self]
    rfl
  refine ⟨earlier, head, tail, rfl, ends, isPrefix, ?_, ?_, ?_⟩
  · exact newline_not_mem_lines (List.mem_of_getElem? found)
  · rw [column_advance_start, ends.lastLineLength_append noNewline]
  · rw [lineIndex]
    exact found

end Text
end FieldRules
