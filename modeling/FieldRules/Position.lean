import FieldRules.Text.Utf8

/-!
# Positions in a text

A position counts the bytes before a place in a text, the line on which the place lies and the
characters before it on that line.  Lines count from one; line zero marks a position that is not
known.  `advance` moves a position over a piece of text, and `locate` finds the position of a byte
offset.
-/

namespace FieldRules

structure Position where
  /-- The number of bytes before the place. -/
  offset : Nat
  /-- The line of the place, counted from one. -/
  line : Nat
  /-- The number of characters before the place on its line. -/
  column : Nat
  deriving DecidableEq, Repr, Inhabited

namespace Position

def unknown : Position := ⟨0, 0, 0⟩

def start : Position := ⟨0, 1, 0⟩

def isKnown (position : Position) : Bool := decide (0 < position.line)

/-- The number of characters after the last newline of a text. -/
def lastLineLength (text : List Char) : Nat :=
  (text.reverse.takeWhile (· != '\n')).length

/-- The position after a piece of text that begins at `position`. -/
def advance (position : Position) (text : List Char) : Position where
  offset := position.offset + Text.byteLength text
  line := position.line + text.count '\n'
  column :=
    if '\n' ∈ text then lastLineLength text
    else position.column + text.length

/-- The position of a byte offset.  An offset beyond the end counts as the end, and one inside a
character as the beginning of that character. -/
def locate (source : List Char) (offset : Nat) : Position :=
  start.advance (Text.takeBytes offset source)

@[simp]
theorem advance_nil (position : Position) : position.advance [] = position := by
  simp [advance]

end Position
end FieldRules
