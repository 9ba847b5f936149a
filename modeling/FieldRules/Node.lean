import FieldRules.Text.Lines

/-!
# Clauses and rule trees

A clause says that a field meets a condition with a value.  A compiled rule is a tree: its root has
one expression for each clause, and an expression has the field, the condition and the value as its
three leaves.  Trees of any other shape can be built and shown as well; only well-shaped expressions
are read back as clauses.
-/

namespace FieldRules

structure Clause where
  field : String
  condition : String
  value : String
  deriving DecidableEq, Repr, Inhabited

def Clause.text (clause : Clause) : String :=
  clause.field ++ " " ++ clause.condition ++ " " ++ clause.value

inductive NodeKind where
  | root
  | expression
  | field
  | condition
  | value
  deriving DecidableEq, Repr, Inhabited

namespace NodeKind

/-- Every kind, in the order in which messages list them. -/
def all : List NodeKind := [.root, .expression, .field, .condition, .value]

/-- The name that stands for a kind in every output. -/
def name : NodeKind → String
  | .root => "ROOT"
  | .expression => "EXPRESSION"
  | .field => "FIELD"
  | .condition => "CONDITION"
  | .value => "VALUE"

theorem mem_all (kind : NodeKind) : kind ∈ all := by
  cases kind <;> decide

end NodeKind

structure Node where
  kind : NodeKind
  value : String
  children : List Node
  deriving Repr, Inhabited

namespace Node

def leaf (kind : NodeKind) (value : String) : Node := ⟨kind, value, []⟩

def ofClause (clause : Clause) : Node :=
  ⟨.expression, "",
    [leaf .field clause.field, leaf .condition clause.condition, leaf .value clause.value]⟩

def ofClauses (clauses : List Clause) : Node :=
  ⟨.root, "", clauses.map ofClause⟩

/-- The clause of a well-shaped expression. -/
def clause? : Node → Option Clause
  | ⟨.expression, _,
      [⟨.field, field, _⟩, ⟨.condition, condition, _⟩, ⟨.value, value, _⟩]⟩ =>
      some ⟨field, condition, value⟩
  | _ => none

def clauses (node : Node) : List Clause :=
  node.children.filterMap clause?

/-- The line of a node at the given depth: two blanks for each level, the name of its kind and its
value unless that is empty. -/
def line (depth : Nat) (kind : NodeKind) (value : String) : String :=
  String.ofList (List.replicate (2 * depth) ' ') ++ kind.name ++
    if value.isEmpty then "" else " " ++ value

mutual

def lines (depth : Nat) : Node → List String
  | ⟨kind, value, children⟩ => line depth kind value :: linesOfAll (depth + 1) children

def linesOfAll (depth : Nat) : List Node → List String
  | [] => []
  | node :: rest => lines depth node ++ linesOfAll depth rest

end

def render (node : Node) : String := Text.unlines (node.lines 0)

@[simp]
theorem clause?_ofClause (clause : Clause) : (ofClause clause).clause? = some clause := rfl

@[simp]
theorem clauses_ofClauses (clauses : List Clause) : (ofClauses clauses).clauses = clauses := by
  induction clauses with
  | nil => rfl
  | cons clause rest induction =>
      have later : (rest.map ofClause).filterMap clause? = rest := induction
      change ((clause :: rest).map ofClause).filterMap clause? = clause :: rest
      simp [later]

end Node
end FieldRules
