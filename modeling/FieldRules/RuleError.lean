import FieldRules.Token

/-!
# What can be wrong with a rule

A rule text fails for one of four causes.  Each has a code for tools, a message and, where one is
useful, a hint for the author of the rule.
-/

namespace FieldRules

/-- The fewest tokens that make a rule. -/
def minimumTokens : Nat := 3

inductive RuleError where
  /-- No pattern accepts the text from `position` on. -/
  | unreadable (remainder : String) (position : Position)
  /-- The rule is too short for a single clause. -/
  | insufficientTokens (found : Nat)
  /-- The rule ends with a condition. -/
  | expectedValue (condition : String) (position : Position)
  /-- The token may not stand where it stands. -/
  | unexpectedToken (token : Token)
  deriving DecidableEq, Repr

namespace RuleError

def code : RuleError → String
  | .unreadable .. => "E_LEX"
  | .insufficientTokens .. => "E_INSUFFICIENT_TOKENS"
  | .expectedValue .. => "E_EXPECTED_VALUE"
  | .unexpectedToken .. => "E_UNEXPECTED_TOKEN"

def message : RuleError → String
  | .unreadable remainder _ => "unexpected token at: " ++ remainder
  | .insufficientTokens found =>
      "insufficient tokens: a rule needs at least " ++ minimumTokens.repr ++ ", found " ++ found.repr
  | .expectedValue condition _ => "expected value after condition " ++ condition
  | .unexpectedToken token => "unexpected token: " ++ token.value

/-- Where the error lies, if that is a known place. -/
def position? : RuleError → Option Position
  | .unreadable _ position => some position |>.filter Position.isKnown
  | .insufficientTokens _ => none
  | .expectedValue _ position => some position |>.filter Position.isKnown
  | .unexpectedToken token => some token.position |>.filter Position.isKnown

def help? : RuleError → Option String
  | .unreadable .. =>
      some "expected FIELD(\"name\"), a condition keyword, a quoted string, a number or a (list)"
  | .insufficientTokens .. => some "a rule is written as FIELD(\"name\") CONDITION value"
  | .expectedValue .. => some "add a value after the condition, e.g. RANGE 18"
  | .unexpectedToken token =>
      if token.kind = .logical ∨ token.kind = .separator then
        some "combining clauses with AND, OR, NOT or commas is not supported yet"
      else none

end RuleError
end FieldRules
