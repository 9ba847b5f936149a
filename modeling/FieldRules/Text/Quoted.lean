import FieldRules.Text.Hidden

/-!
# Text inside messages

A message that shows a text puts it into quotation marks.  Quotation marks, backslashes and the
common control characters are written with a backslash, and characters that are not shown as
themselves by their code point.
-/

namespace FieldRules
namespace Text

/-- The character that stands behind a backslash for a character with a short escape. -/
def shortEscape? (character : Char) : Option Char :=
  [('"', '"'), ('\\', '\\'), ('\n', 'n'), ('\r', 'r'), ('\t', 't'), ('\x00', '0')].lookup character

def showCharacter (character : Char) : List Char :=
  match shortEscape? character with
  | some short => ['\\', short]
  | none =>
      if isHidden character then
        ['\\', 'u', '{'] ++ Nat.toDigits 16 character.toNat ++ ['}']
      else [character]

def quoted (text : String) : String :=
  String.ofList ('"' :: (text.toList.flatMap showCharacter ++ ['"']))

end Text
end FieldRules
