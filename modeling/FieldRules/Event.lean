import FieldRules.Node
import FieldRules.Token

/-!
# Events

Scanning and parsing report what they do as events.  An event has a level, a message and named
details, so that it can be filtered and written without looking at its cause.
-/

namespace FieldRules

/-- How much a message matters, from the gravest to the most detailed. -/
inductive LogLevel where
  | error
  | warn
  | info
  | debug
  | trace
  deriving DecidableEq, Repr, Inhabited

namespace LogLevel

def all : List LogLevel := [.error, .warn, .info, .debug, .trace]

def name : LogLevel → String
  | .error => "ERROR"
  | .warn => "WARN"
  | .info => "INFO"
  | .debug => "DEBUG"
  | .trace => "TRACE"

/-- The place of a level in the order, counted from one. -/
def rank : LogLevel → Nat
  | .error => 1
  | .warn => 2
  | .info => 3
  | .debug => 4
  | .trace => 5

end LogLevel

inductive Event where
  | token (kind : TokenKind) (lexeme : String) (offset : Nat)
  | tokenized (tokens : Nat)
  /-- No pattern accepts the text at the offset. -/
  | unreadable (offset : Nat)
  /-- The clauses that follow are about this field. -/
  | currentField (field : String)
  | expression (clause : Clause)
  | parsed (expressions : Nat)
  deriving DecidableEq, Repr

namespace Event

/-- The content of one detail of an event. -/
inductive Detail where
  | text (content : String)
  | count (amount : Nat)
  deriving DecidableEq, Repr

def level : Event → LogLevel
  | .token .. => .trace
  | .tokenized .. => .debug
  | .unreadable .. => .debug
  | .currentField .. => .trace
  | .expression .. => .debug
  | .parsed .. => .debug

def message : Event → String
  | .token .. => "token"
  | .tokenized .. => "tokenized rule"
  | .unreadable .. => "no lexer pattern matched"
  | .currentField .. => "current field"
  | .expression .. => "expression"
  | .parsed .. => "parsed rule"

def details : Event → List (String × Detail)
  | .token kind lexeme offset =>
      [("token_type", .text kind.name), ("lexeme", .text lexeme), ("offset", .count offset)]
  | .tokenized tokens => [("tokens", .count tokens)]
  | .unreadable offset => [("offset", .count offset)]
  | .currentField field => [("field", .text field)]
  | .expression clause =>
      [("field", .text clause.field), ("condition", .text clause.condition),
        ("value", .text clause.value)]
  | .parsed expressions => [("expressions", .count expressions)]

end Event
end FieldRules
