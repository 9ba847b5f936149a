/-!
# Text as lines

A newline ends a line, and a carriage return right before it belongs to that line end.  Text after
the last newline is a line of its own unless it is empty.
-/

namespace FieldRules
namespace Text

/-- The lines of a text, without their line ends. -/
def lines : List Char → List (List Char)
  | [] => []
  | '\n' :: rest => [] :: lines rest
  | '\r' :: '\n' :: rest => [] :: lines rest
  | character :: rest =>
      match lines rest with
      | [] => [[character]]
      | line :: later => (character :: line) :: later

/-- The text that has the given lines, each ended by a newline. -/
def unlines (lines : List String) : String :=
  String.ofList (lines.flatMap fun line => line.toList ++ ['\n'])

/-- The text padded on the left with blanks to the given width. -/
def alignRight (width : Nat) (text : String) : String :=
  String.ofList (List.replicate (width - text.length) ' ' ++ text.toList)

end Text
end FieldRules
