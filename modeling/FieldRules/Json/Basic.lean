import FieldRules.Decimal.Binary64

/-!
# JSON values

The values of the JSON data format.  Whole numbers and floating-point numbers are told apart, and
the members of an object keep the order in which they were given.
-/

namespace FieldRules

inductive Json where
  | null
  | bool (value : Bool)
  | integer (value : Int)
  | float (value : Binary64)
  | string (value : String)
  | array (items : List Json)
  | object (members : List (String × Json))
  deriving Repr, Inhabited

namespace Json

def nat (amount : Nat) : Json := .integer amount

/-- The value if there is one, and `null` otherwise. -/
def ofOption : Option Json → Json
  | some value => value
  | none => .null

def member? (name : String) : Json → Option Json
  | .object members => members.lookup name
  | _ => none

/-- The members with one more; a later value replaces an earlier one of the same name. -/
def insertMember (name : String) (value : Json) : List (String × Json) → List (String × Json)
  | [] => [(name, value)]
  | (key, old) :: rest =>
      if key = name then (key, value) :: rest else (key, old) :: insertMember name value rest

end Json
end FieldRules
