import FieldRules.Json.Basic
import FieldRules.Node
import FieldRules.Token

/-!
# Positions, tokens and trees as JSON

Every type is written as an object whose members have a fixed order.
-/

namespace FieldRules

def Position.toJson (position : Position) : Json :=
  .object [("offset", .nat position.offset), ("line", .nat position.line),
    ("column", .nat position.column)]

def Token.toJson (token : Token) : Json :=
  .object [("type", .string token.kind.name), ("value", .string token.value),
    ("span", token.position.toJson)]

def Token.listToJson (tokens : List Token) : Json := .array (tokens.map Token.toJson)

mutual

def Node.toJson : Node → Json
  | ⟨kind, value, children⟩ =>
      .object [("type", .string kind.name), ("value", .string value),
        ("children", .array (Node.listToJson children))]

def Node.listToJson : List Node → List Json
  | [] => []
  | node :: rest => node.toJson :: Node.listToJson rest

end

end FieldRules
