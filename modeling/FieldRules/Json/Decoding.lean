import FieldRules.Decimal.Shortest
import FieldRules.Json.Basic
import FieldRules.Node
import FieldRules.Text.Quoted
import FieldRules.Token

/-!
# Positions, tokens and trees from JSON

A record is read from an object, or from an array of its members in their declared order.  The
members of an object are read in the order of their names and unknown ones are ignored; the first
bad value is reported, and only then a member that is missing.  A kind is read from its name, or
from an object with that name as its only member and `null` as its value.
-/

namespace FieldRules

inductive Found where
  | null
  | bool (value : Bool)
  | integer (value : Int)
  | float (value : Binary64)
  | string (value : String)
  | array
  | object
  deriving DecidableEq, Repr

namespace Found

def ofJson : Json → Found
  | .null => .null
  | .bool value => .bool value
  | .integer value => .integer value
  | .float value => .float value
  | .string value => .string value
  | .array _ => .array
  | .object _ => .object

def description : Found → String
  | .null => "null"
  | .bool true => "boolean `true`"
  | .bool false => "boolean `false`"
  | .integer value => "integer `" ++ value.repr ++ "`"
  | .float value => "floating point `" ++ String.ofList value.text ++ "`"
  | .string value => "string " ++ Text.quoted value
  | .array => "sequence"
  | .object => "map"

end Found

inductive Expected where
  | position
  | token
  | node
  | string
  | list
  | count
  | kind
  | null
  deriving DecidableEq, Repr

def Expected.description : Expected → String
  | .position => "struct Span"
  | .token => "struct Token"
  | .node => "struct Node"
  | .string => "a string"
  | .list => "a sequence"
  | .count => "usize"
  | .kind => "string or map"
  | .null => "unit"

inductive DecodeError where
  | wrongType (found : Found) (expected : Expected)
  | negativeCount (value : Int)
  /-- The array of a record ends before a member that is needed. -/
  | tooShort (length : Nat) (expected : Expected)
  /-- The array of a record goes on behind its last member. -/
  | tooLong (length : Nat)
  | missingMember (name : String)
  | unknownKind (name : String) (known : List String)
  /-- The object of a kind has no member or several. -/
  | notSingle
  deriving DecidableEq, Repr

namespace DecodeError

def message : DecodeError → String
  | .wrongType found expected =>
      "invalid type: " ++ found.description ++ ", expected " ++ expected.description
  | .negativeCount value =>
      "invalid value: integer `" ++ value.repr ++ "`, expected " ++ Expected.count.description
  | .tooShort length expected =>
      "invalid length " ++ length.repr ++ ", expected " ++ expected.description ++
        " with 3 elements"
  | .tooLong length => "invalid length " ++ length.repr ++ ", expected fewer elements in array"
  | .missingMember name => "missing field `" ++ name ++ "`"
  | .unknownKind name known =>
      "unknown variant `" ++ name ++ "`, expected one of " ++
        ", ".intercalate (known.map fun entry => "`" ++ entry ++ "`")
  | .notSingle => "invalid value: map, expected map with a single key"

end DecodeError

namespace Decode

def refuse {α : Type} (value : Json) (expected : Expected) : Except DecodeError α :=
  .error (.wrongType (.ofJson value) expected)

def string : Json → Except DecodeError String
  | .string value => .ok value
  | other => refuse other .string

def count : Json → Except DecodeError Nat
  | .integer (.ofNat value) => .ok value
  | .integer (.negSucc less) => .error (.negativeCount (.negSucc less))
  | other => refuse other .count

def list {α : Type} (item : Json → Except DecodeError α) : Json → Except DecodeError (List α)
  | .array items => items.mapM item
  | other => refuse other .list

def kindOfName {α : Type} (all : List α) (name : α → String) (text : String) :
    Except DecodeError α :=
  match all.find? fun kind => name kind = text with
  | some kind => .ok kind
  | none => .error (.unknownKind text (all.map name))

def kind {α : Type} (all : List α) (name : α → String) : Json → Except DecodeError α
  | .string text => kindOfName all name text
  | .object [(text, value)] => do
      let found ← kindOfName all name text
      match value with
      | .null => return found
      | other => refuse other .null
  | .object _ => .error .notSingle
  | other => refuse other .kind

def tokenKind : Json → Except DecodeError TokenKind := kind TokenKind.all TokenKind.name

def nodeKind : Json → Except DecodeError NodeKind := kind NodeKind.all NodeKind.name

def member {α : Type} (members : List (String × Json)) (name : String)
    (read : Json → Except DecodeError α) : Except DecodeError (Option α) :=
  match members.lookup name with
  | some value => (read value).map some
  | none => .ok none

def required {α : Type} (name : String) : Option α → Except DecodeError α
  | some value => .ok value
  | none => .error (.missingMember name)

/-- Accepts the members of a record unless its array goes on behind them. -/
def closed {α : Type} (record : α) (rest : List Json) : Except DecodeError α :=
  if rest.isEmpty then .ok record else .error (.tooLong (3 + rest.length))

def position : Json → Except DecodeError Position
  | .object members => do
      let column ← member members "column" count
      let line ← member members "line" count
      let offset ← member members "offset" count
      let offset ← required "offset" offset
      let line ← required "line" line
      let column ← required "column" column
      return ⟨offset, line, column⟩
  | .array [] => .error (.tooShort 0 .position)
  | .array [offset] => do
      let _ ← count offset
      .error (.tooShort 1 .position)
  | .array [offset, line] => do
      let _ ← count offset
      let _ ← count line
      .error (.tooShort 2 .position)
  | .array (offset :: line :: column :: rest) => do
      let offset ← count offset
      let line ← count line
      let column ← count column
      closed ⟨offset, line, column⟩ rest
  | other => refuse other .position

def token : Json → Except DecodeError Token
  | .object members => do
      let place ← member members "span" position
      let kind ← member members "type" tokenKind
      let value ← member members "value" string
      let kind ← required "type" kind
      let value ← required "value" value
      return ⟨kind, value, place.getD Position.unknown⟩
  | .array [] => .error (.tooShort 0 .token)
  | .array [kind] => do
      let _ ← tokenKind kind
      .error (.tooShort 1 .token)
  | .array [kind, value] => do
      let kind ← tokenKind kind
      let value ← string value
      return ⟨kind, value, Position.unknown⟩
  | .array (kind :: value :: place :: rest) => do
      let kind ← tokenKind kind
      let value ← string value
      let place ← position place
      closed ⟨kind, value, place⟩ rest
  | other => refuse other .token

def tokens : Json → Except DecodeError (List Token) := list token

mutual

def node : Json → Except DecodeError Node
  | .object members => do
      let children ← childrenMember members
      let kind ← member members "type" nodeKind
      let value ← member members "value" string
      let kind ← required "type" kind
      return ⟨kind, value.getD "", children⟩
  | .array [] => .error (.tooShort 0 .node)
  | .array [kind] => do
      let kind ← nodeKind kind
      return ⟨kind, "", []⟩
  | .array [kind, value] => do
      let kind ← nodeKind kind
      let value ← string value
      return ⟨kind, value, []⟩
  | .array (kind :: value :: children :: rest) => do
      let kind ← nodeKind kind
      let value ← string value
      let children ← childList children
      closed ⟨kind, value, children⟩ rest
  | other => refuse other .node

/-- Reads the children of a tree from the members of its object; there are none if the object does
not have them. -/
def childrenMember : List (String × Json) → Except DecodeError (List Node)
  | [] => .ok []
  | (name, value) :: rest => if name = "children" then childList value else childrenMember rest

def childList : Json → Except DecodeError (List Node)
  | .array items => nodes items
  | other => refuse other .list

def nodes : List Json → Except DecodeError (List Node)
  | [] => .ok []
  | item :: rest => do
      let first ← node item
      let later ← nodes rest
      return first :: later

end

end Decode
end FieldRules
