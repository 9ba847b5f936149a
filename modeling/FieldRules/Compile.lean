import FieldRules.Cursor
import FieldRules.Scan

/-!
# Compiling a rule

Compiling scans a rule text and parses its tokens.  The events of a compilation are those of the
scan followed, if the scan succeeds, by those of the parser.
-/

namespace FieldRules

/-- The tree of a rule text. -/
def compile (source : String) : Except RuleError Node := do
  let tokens ← tokenize source
  parseRules tokens

def compileEvents (source : String) : List Event :=
  let scan := Scan.ofText source
  scan.events ++
    match scan.outcome with
    | .error _ => []
    | .ok tokens => (Cursor.ofTokens tokens).parse.events

end FieldRules
