import FieldRules.Decimal.Shortest
import FieldRules.Json.Basic

/-!
# Writing JSON

A value is written in one of two layouts: compact, without any blanks, or pretty, with one item or
member on each line.  Only quotation marks, backslashes and control characters are escaped in
strings; all other characters stand for themselves.
-/

namespace FieldRules
namespace Json

structure Layout where
  /-- What stands before an item at the given depth, and before the bracket that closes one. -/
  lineBreak : (depth : Nat) → List Char
  /-- What stands between the name and the value of a member. -/
  colon : List Char

/-- No blanks at all. -/
def Layout.compact : Layout := ⟨fun _ => [], [':']⟩

/-- Items on lines of their own, indented by two blanks for each level. -/
def Layout.pretty : Layout :=
  ⟨fun depth => '\n' :: List.replicate (2 * depth) ' ', [':', ' ']⟩

/-- The character that stands behind a backslash for a character with a short escape. -/
def shortEscape? (character : Char) : Option Char :=
  [('"', '"'), ('\\', '\\'), ('\x08', 'b'), ('\t', 't'), ('\n', 'n'), ('\x0c', 'f'),
    ('\r', 'r')].lookup character

def escape (character : Char) : List Char :=
  match shortEscape? character with
  | some short => ['\\', short]
  | none =>
      if character.toNat < 0x20 then
        ['\\', 'u', '0', '0', Nat.digitChar (character.toNat / 16),
          Nat.digitChar (character.toNat % 16)]
      else [character]

def quote (text : String) : List Char :=
  '"' :: (text.toList.flatMap escape ++ ['"'])

mutual

def write (layout : Layout) (depth : Nat) : Json → List Char
  | .null => ['n', 'u', 'l', 'l']
  | .bool true => ['t', 'r', 'u', 'e']
  | .bool false => ['f', 'a', 'l', 's', 'e']
  | .integer (.ofNat size) => Nat.toDigits 10 size
  | .integer (.negSucc less) => '-' :: Nat.toDigits 10 (less + 1)
  | .float number => number.text
  | .string text => quote text
  | .array [] => ['[', ']']
  | .array (first :: rest) =>
      '[' :: layout.lineBreak (depth + 1) ++ write layout (depth + 1) first ++
        writeItems layout (depth + 1) rest ++ layout.lineBreak depth ++ [']']
  | .object [] => ['{', '}']
  | .object ((name, value) :: rest) =>
      '{' :: layout.lineBreak (depth + 1) ++ quote name ++ layout.colon ++
        write layout (depth + 1) value ++
        writeMembers layout (depth + 1) rest ++ layout.lineBreak depth ++ ['}']

/-- The items after the first one. -/
def writeItems (layout : Layout) (depth : Nat) : List Json → List Char
  | [] => []
  | item :: rest =>
      ',' :: layout.lineBreak depth ++ write layout depth item ++ writeItems layout depth rest

/-- The members after the first one. -/
def writeMembers (layout : Layout) (depth : Nat) : List (String × Json) → List Char
  | [] => []
  | (name, value) :: rest =>
      ',' :: layout.lineBreak depth ++ quote name ++ layout.colon ++ write layout depth value ++
        writeMembers layout depth rest

end

def compact (value : Json) : String := String.ofList (value.write .compact 0)

def pretty (value : Json) : String := String.ofList (value.write .pretty 0)

end Json
end FieldRules
