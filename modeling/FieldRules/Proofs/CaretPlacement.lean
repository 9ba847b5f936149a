import FieldRules.Diagnostic
import FieldRules.Proofs.ErrorPlaces
import FieldRules.Proofs.SourceLines

/-!
# Where the caret of a diagnostic stands

A diagnostic prints the line of an error behind a gutter with the line number, and below it a caret
behind a gutter of its own.  The second gutter has five characters.  The first has six, and more if
the line number has more than three digits.  So the caret never stands under the character at which
the error lies, but to the left of it by the difference of the gutters.
-/

namespace FieldRules

open Text

namespace Diagnostic

def gutter (line : Nat) : List Char :=
  (alignRight 3 line.repr ++ " | ").toList

def margin (column : Nat) : List Char :=
  [' ', ' ', ' ', '|', ' '] ++ List.replicate column ' '

theorem length_gutter (line : Nat) : (gutter line).length = max 3 line.repr.length + 3 := by
  have separator : " | ".toList.length = 3 := rfl
  rw [gutter, String.toList_append, List.length_append, separator, alignRight,
    String.toList_ofList, List.length_append, List.length_replicate, String.length_toList]
  omega

theorem length_margin (column : Nat) : (margin column).length = 5 + column := by
  rw [margin, List.length_append, List.length_replicate]
  rfl

theorem newline_not_mem_gutter (line : Nat) : '\n' ∉ gutter line := by
  have digits : '\n' ∉ Nat.toDigits 10 line := by
    intro member
    have isDigit := Nat.isDigit_of_mem_toDigits (by decide) (by decide) member
    exact absurd isDigit (by decide)
  simp [gutter, alignRight, digits]

theorem caret_not_mem_margin (column : Nat) : '^' ∉ margin column := by
  simp [margin]

theorem newline_not_mem_margin (column : Nat) : '\n' ∉ margin column := by
  simp [margin]

theorem toList_numberedLine (source : String) (position : Position) :
    (numberedLine source position).toList =
      gutter position.line ++ (Text.lines source.toList)[position.line - 1]?.getD [] := by
  simp [numberedLine, sourceLine, gutter]

theorem newline_not_mem_numberedLine (source : String) (position : Position) :
    '\n' ∉ (numberedLine source position).toList := by
  rw [toList_numberedLine, List.mem_append, not_or]
  refine ⟨newline_not_mem_gutter position.line, ?_⟩
  cases found : (Text.lines source.toList)[position.line - 1]? with
  | none => exact List.not_mem_nil
  | some line => exact newline_not_mem_lines (List.mem_of_getElem? found)

theorem toList_caretLine (column : Nat) : (caretLine column).toList = margin column ++ ['^'] := by
  simp [caretLine, margin]

/-- The rows above the source line. -/
def heading (file : String) (error : RuleError) (position : Position) : List Char :=
  (unlines ["error[" ++ error.code ++ "]: " ++ error.message, locationLine file position,
    "   |"]).toList

theorem toList_render (file source : String) {error : RuleError} {position : Position}
    (known : error.position? = some position) :
    (render file source error).toList =
      heading file error position ++ (numberedLine source position).toList ++
        '\n' :: ((caretLine position.column).toList ++
          '\n' :: (unlines (error.help?.map ("help: " ++ ·)).toList).toList) := by
  simp [render, lines, known, unlines, heading]

end Diagnostic

/-- The rows of a diagnostic below its heading, and the character of the source at which the error
lies.  The first row has the line of that character, and the second row ends with the caret. -/
structure CaretView (file source : String) (error : RuleError) (position : Position) where
  /-- The source before the line of the character. -/
  earlier : List Char
  head : List Char
  character : Char
  tail : List Char
  /-- The source behind the character. -/
  later : List Char
  margin : List Char
  below : List Char
  rendered : (Diagnostic.render file source error).toList =
    Diagnostic.heading file error position ++
      (Diagnostic.gutter position.line ++ (head ++ character :: tail)) ++
        '\n' :: (margin ++ '^' :: '\n' :: below)
  oneRow : '\n' ∉ Diagnostic.gutter position.line ++ (head ++ character :: tail)
  oneCaret : '^' ∉ margin ∧ '\n' ∉ margin
  sourceEq : source.toList = earlier ++ head ++ character :: later
  earlierEnds : EndsLine earlier
  offsetEq : byteLength (earlier ++ head) = position.offset
  isPrefix : tail <+: later

namespace CaretView

variable {file source : String} {error : RuleError} {position : Position}

/-- The index of the character in the row of the source line. -/
def characterIndex (view : CaretView file source error position) : Nat :=
  (Diagnostic.gutter position.line ++ view.head).length

/-- The index of the caret in the row below. -/
def caretIndex (view : CaretView file source error position) : Nat :=
  view.margin.length

theorem nonempty_of_compile (file : String) (failed : compile source = .error error)
    (known : error.position? = some position) :
    Nonempty (CaretView file source error position) := by
  obtain ⟨before, rest, sourceEq, placeEq, character, later, rfl, visible⟩ :=
    exists_place_of_compile failed known
  obtain ⟨earlier, head, tail, rfl, earlierEnds, isPrefix, _, _, found⟩ :=
    exists_line before later visible
  rw [← placeEq, ← sourceEq] at found
  have rendered := Diagnostic.toList_render file source known
  rw [Diagnostic.toList_numberedLine, found, Option.getD_some, Diagnostic.toList_caretLine,
    List.append_assoc (Diagnostic.margin position.column)] at rendered
  have offsetEq : byteLength (earlier ++ head) = position.offset := by
    rw [placeEq, Position.offset_advance_start]
  have oneRow := Diagnostic.newline_not_mem_numberedLine source position
  rw [Diagnostic.toList_numberedLine, found, Option.getD_some] at oneRow
  have oneCaret : '^' ∉ Diagnostic.margin position.column ∧
      '\n' ∉ Diagnostic.margin position.column :=
    ⟨Diagnostic.caret_not_mem_margin _, Diagnostic.newline_not_mem_margin _⟩
  exact ⟨⟨earlier, head, character, tail, later, _, _, rendered, oneRow, oneCaret, sourceEq,
    earlierEnds, offsetEq, isPrefix⟩⟩

/-- The characters before the shown one on its line are as many as its column says. -/
theorem length_head (view : CaretView file source error position)
    (failed : compile source = .error error) (known : error.position? = some position) :
    view.head.length = position.column := by
  obtain ⟨before, rest, sourceEq, placeEq, _⟩ := exists_place_of_compile failed known
  have offsetEq : byteLength (view.earlier ++ view.head) = byteLength before := by
    rw [view.offsetEq, placeEq, Position.offset_advance_start]
  have beforeEq := eq_of_byteLength_eq (view.sourceEq.symm.trans sourceEq) offsetEq
  have noNewline : '\n' ∉ view.head := by
    intro member
    exact view.oneRow (by simp [member])
  have columnEq : position.column = Position.lastLineLength before := by
    rw [placeEq, column_advance_start]
  rw [columnEq, ← beforeEq, view.earlierEnds.lastLineLength_append noNewline]

theorem margin_eq (view : CaretView file source error position)
    (known : error.position? = some position) :
    view.margin = Diagnostic.margin position.column := by
  have rendered := Diagnostic.toList_render file source known
  rw [view.rendered, List.append_assoc (Diagnostic.heading file error position),
    List.append_assoc (Diagnostic.heading file error position)] at rendered
  obtain ⟨_, caretRows⟩ := cut_unique view.oneRow
    (Diagnostic.newline_not_mem_numberedLine source position) (List.append_cancel_left rendered)
  rw [Diagnostic.toList_caretLine, List.append_assoc] at caretRows
  exact (cut_unique view.oneCaret.1 (Diagnostic.caret_not_mem_margin _) caretRows).1

end CaretView

/-- The caret of a diagnostic stands to the left of the character at which the error lies, by one
place up to line 999 and by one more for each further digit of the line number. -/
theorem caret_left_of_character (file : String) {source : String} {error : RuleError}
    {position : Position} (failed : compile source = .error error)
    (known : error.position? = some position) :
    Nonempty (CaretView file source error position) ∧
      ∀ view : CaretView file source error position,
        view.caretIndex + max 3 position.line.repr.length = view.characterIndex + 2 ∧
          view.caretIndex ≠ view.characterIndex := by
  refine ⟨CaretView.nonempty_of_compile file failed known, ?_⟩
  intro view
  have caretIndexEq : view.caretIndex = 5 + position.column := by
    rw [CaretView.caretIndex, view.margin_eq known, Diagnostic.length_margin]
  have characterIndexEq : view.characterIndex =
      max 3 position.line.repr.length + 3 + position.column := by
    rw [CaretView.characterIndex, List.length_append, Diagnostic.length_gutter,
      view.length_head failed known]
  constructor
  · omega
  · omega

/-- On the first line the caret stands one place to the left of the connective that is refused. -/
theorem caret_left_of_connective :
    ∃ error, compile "FIELD(\"name\") REQUIRED AND FIELD(\"age\") RANGE 18" = .error error ∧
      error.position? = some ⟨23, 1, 23⟩ ∧
      Nonempty (CaretView "rules.txt" "FIELD(\"name\") REQUIRED AND FIELD(\"age\") RANGE 18" error
        ⟨23, 1, 23⟩) ∧
      ∀ view : CaretView "rules.txt" "FIELD(\"name\") REQUIRED AND FIELD(\"age\") RANGE 18" error
        ⟨23, 1, 23⟩, view.caretIndex + 1 = view.characterIndex := by
  have readable : tokenize "FIELD(\"name\") REQUIRED AND FIELD(\"age\") RANGE 18" =
      .ok [⟨.field, "FIELD(\"name\")", ⟨0, 1, 0⟩⟩, ⟨.condition, "REQUIRED", ⟨14, 1, 14⟩⟩,
        ⟨.logical, "AND", ⟨23, 1, 23⟩⟩, ⟨.field, "FIELD(\"age\")", ⟨27, 1, 27⟩⟩,
        ⟨.condition, "RANGE", ⟨40, 1, 40⟩⟩, ⟨.value, "18", ⟨46, 1, 46⟩⟩] := by
    decide +kernel
  have failed : compile "FIELD(\"name\") REQUIRED AND FIELD(\"age\") RANGE 18" =
      .error (.unexpectedToken ⟨.logical, "AND", ⟨23, 1, 23⟩⟩) := by
    rw [compile, readable]
    simp [bind, Except.bind, parseRules, Cursor.parse, Cursor.ofTokens, Cursor.tokens,
      minimumTokens, Cursor.clauses, Cursor.isAtEnd, Cursor.step, Except.map]
  obtain ⟨shown, placed⟩ := caret_left_of_character "rules.txt" failed rfl
  refine ⟨_, failed, rfl, shown, ?_⟩
  intro view
  have gutters : view.caretIndex + 3 = view.characterIndex + 2 := (placed view).1
  omega

end FieldRules
