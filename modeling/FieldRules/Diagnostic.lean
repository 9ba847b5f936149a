import FieldRules.RuleError
import FieldRules.Text.Lines

/-!
# Diagnostics

A diagnostic tells the author of a rule what is wrong and where.  An error with a known place shows
the source line with a caret below it; every other error only names the source.
-/

namespace FieldRules
namespace Diagnostic

/-- The source line with the given number, which is empty if the source has no such line. -/
def sourceLine (source : String) (number : Nat) : String :=
  String.ofList ((Text.lines source.toList)[number - 1]?.getD [])

/-- The line that names the place of an error, with columns counted from one. -/
def locationLine (file : String) (position : Position) : String :=
  "  --> " ++ file ++ ":" ++ position.line.repr ++ ":" ++ (position.column + 1).repr

/-- The source line behind its number, which takes at least three columns. -/
def numberedLine (source : String) (position : Position) : String :=
  Text.alignRight 3 position.line.repr ++ " | " ++ sourceLine source position.line

/-- The line with the caret below a column of the source. -/
def caretLine (column : Nat) : String :=
  "   | " ++ String.ofList (List.replicate column ' ' ++ ['^'])

def lines (file source : String) (error : RuleError) : List String :=
  ["error[" ++ error.code ++ "]: " ++ error.message] ++
    (match error.position? with
    | some position =>
        [locationLine file position, "   |", numberedLine source position,
          caretLine position.column]
    | none => ["  --> " ++ file]) ++
    (error.help?.map ("help: " ++ ·)).toList

def render (file source : String) (error : RuleError) : String :=
  Text.unlines (lines file source error)

end Diagnostic
end FieldRules
