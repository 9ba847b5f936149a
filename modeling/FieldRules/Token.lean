import FieldRules.Position

/-!
# Tokens

A token is a piece of a rule text with its kind and the place where it begins.  Scanning produces
five of the eight kinds; the other three are reserved, and no rule may hold them.
-/

namespace FieldRules

inductive TokenKind where
  | field
  | condition
  | operator
  | value
  | logical
  | separator
  | transform
  | invalid
  deriving DecidableEq, Repr, Inhabited

namespace TokenKind

/-- Every kind, in the order in which messages list them. -/
def all : List TokenKind :=
  [.field, .condition, .operator, .value, .logical, .separator, .transform, .invalid]

/-- The name that stands for a kind in every output. -/
def name : TokenKind → String
  | .field => "FIELD"
  | .condition => "CONDITION"
  | .operator => "OPERATOR"
  | .value => "VALUE"
  | .logical => "LOGICAL"
  | .separator => "SEPARATOR"
  | .transform => "TRANSFORM"
  | .invalid => "INVALID"

theorem mem_all (kind : TokenKind) : kind ∈ all := by
  cases kind <;> decide

end TokenKind

structure Token where
  kind : TokenKind
  value : String
  position : Position := Position.unknown
  deriving DecidableEq, Repr, Inhabited

namespace Token

def fieldOpening : List Char := ['F', 'I', 'E', 'L', 'D', '(', '"']

def fieldClosing : List Char := ['"', ')']

/-- The name inside a text of the form `FIELD("name")`. -/
def fieldName? (text : List Char) : Option (List Char) :=
  (fieldOpening.isPrefixOf? text).bind fieldClosing.isSuffixOf?

/-- The field that a token names: the name inside a field reference, and the whole value of a token
that is not written as one. -/
def fieldName (token : Token) : String :=
  match fieldName? token.value.toList with
  | some name => String.ofList name
  | none => token.value

end Token
end FieldRules
