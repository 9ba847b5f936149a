import FieldRules.Command
import FieldRules.Proofs.WrittenRules

/-!
# The lines of an output

A tree is shown with one line for each of its nodes and a rule with one line for each of its
clauses, but the values are written as they stand.  A field name or a value may hold newlines, and
each of them makes the output one line longer.  So the number of lines says how many clauses there
are only if no field and no value has a newline; otherwise one clause can look like two.
-/

namespace FieldRules

namespace Text

def newlines (text : String) : Nat := text.toList.count '\n'

@[simp]
theorem newlines_append (first second : String) :
    newlines (first ++ second) = newlines first + newlines second := by
  simp [newlines]

theorem newlines_unlines (lines : List String) :
    newlines (unlines lines) = lines.length + (lines.flatMap String.toList).count '\n' := by
  induction lines with
  | nil => rfl
  | cons line lines induction =>
      simp only [newlines, unlines, String.toList_ofList] at induction
      simp only [newlines, unlines, String.toList_ofList, List.flatMap_cons, List.count_append,
        induction, List.length_cons, List.count_cons_self, List.count_nil]
      omega

theorem count_flatMap_congr {α : Type} {items : List α} {first second : α → List Char}
    {character : Char}
    (same : ∀ item ∈ items, (first item).count character = (second item).count character) :
    (items.flatMap first).count character = (items.flatMap second).count character := by
  induction items with
  | nil => rfl
  | cons item items induction =>
      have later := induction fun item member => same item (List.mem_cons_of_mem _ member)
      rw [List.flatMap_cons, List.flatMap_cons, List.count_append, List.count_append, later,
        same item List.mem_cons_self]

theorem newlines_eq_zero_iff {text : String} : newlines text = 0 ↔ '\n' ∉ text.toList :=
  List.count_eq_zero

end Text

/-- The newlines in the fields and the values of clauses. -/
def Clause.breaks (clauses : List Clause) : Nat :=
  (clauses.flatMap fun clause => clause.field.toList ++ clause.value.toList).count '\n'

namespace Node

mutual

/-- The nodes of a tree with their depths, each before its children. -/
def preorder (depth : Nat) : Node → List (Nat × Node)
  | ⟨kind, value, children⟩ =>
      (depth, ⟨kind, value, children⟩) :: preorderOfAll (depth + 1) children

def preorderOfAll (depth : Nat) : List Node → List (Nat × Node)
  | [] => []
  | node :: rest => preorder depth node ++ preorderOfAll depth rest

end

def ownLine (entry : Nat × Node) : String := line entry.1 entry.2.kind entry.2.value

mutual

theorem lines_eq_map (depth : Nat) :
    ∀ node : Node, lines depth node = (preorder depth node).map ownLine
  | ⟨kind, value, children⟩ => by
      rw [lines, preorder, List.map_cons, linesOfAll_eq_map]
      rfl

theorem linesOfAll_eq_map (depth : Nat) :
    ∀ nodes : List Node, linesOfAll depth nodes = (preorderOfAll depth nodes).map ownLine
  | [] => by rw [linesOfAll, preorderOfAll, List.map_nil]
  | node :: rest => by
      rw [linesOfAll, preorderOfAll, List.map_append, lines_eq_map depth node,
        linesOfAll_eq_map depth rest]

end

theorem render_eq_unlines (node : Node) :
    node.render = Text.unlines ((node.preorder 0).map ownLine) := by
  rw [render, lines_eq_map]

theorem newlines_line (depth : Nat) (kind : NodeKind) (value : String) :
    Text.newlines (line depth kind value) = Text.newlines value := by
  have indent : Text.newlines (String.ofList (List.replicate (2 * depth) ' ')) = 0 := by
    simp [Text.newlines_eq_zero_iff]
  have name : Text.newlines kind.name = 0 := by
    cases kind <;> decide
  rw [line, Text.newlines_append, Text.newlines_append, indent, name]
  by_cases empty : value.isEmpty
  · rw [if_pos empty, String.isEmpty_iff.mp empty]
    rfl
  · rw [if_neg empty, Text.newlines_append]
    have blank : Text.newlines " " = 0 := by decide
    omega

/-- A tree is shown with as many lines as it has nodes and its values have newlines. -/
theorem newlines_render (node : Node) :
    Text.newlines node.render =
      (node.preorder 0).length +
        ((node.preorder 0).flatMap fun entry => entry.2.value.toList).count '\n' := by
  rw [render_eq_unlines, Text.newlines_unlines, List.length_map, List.flatMap_map]
  congr 1
  apply Text.count_flatMap_congr
  intro entry _
  exact newlines_line entry.1 entry.2.kind entry.2.value

theorem preorder_ofClauses (clauses : List Clause) :
    preorder 0 (ofClauses clauses) = (0, ofClauses clauses) :: clauses.flatMap fun clause =>
      [(1, ofClause clause), (2, leaf .field clause.field), (2, leaf .condition clause.condition),
        (2, leaf .value clause.value)] := by
  have expressions : preorderOfAll 1 (clauses.map ofClause) = clauses.flatMap fun clause =>
      [(1, ofClause clause), (2, leaf .field clause.field), (2, leaf .condition clause.condition),
        (2, leaf .value clause.value)] := by
    induction clauses with
    | nil => rw [List.map_nil, preorderOfAll, List.flatMap_nil]
    | cons clause clauses induction =>
        rw [List.map_cons, preorderOfAll, induction, List.flatMap_cons]
        simp only [ofClause, leaf, preorder, preorderOfAll, List.append_nil, List.cons_append,
          List.nil_append]
  rw [← expressions, ofClauses, preorder]

theorem length_preorder_ofClauses (clauses : List Clause) :
    (preorder 0 (ofClauses clauses)).length = 1 + 4 * clauses.length := by
  rw [preorder_ofClauses, List.length_cons]
  induction clauses with
  | nil => rfl
  | cons clause clauses induction =>
      simp only [List.flatMap_cons, List.length_append, List.length_cons, List.length_nil] at *
      omega

end Node

section PlainConditions

variable {clauses : List Clause}
  (plain : ∀ clause ∈ clauses, Text.newlines clause.condition = 0)

include plain

theorem newlines_render_ofClauses :
    Text.newlines (Node.ofClauses clauses).render =
      1 + 4 * clauses.length + Clause.breaks clauses := by
  rw [Node.newlines_render, Node.length_preorder_ofClauses, Node.preorder_ofClauses]
  congr 1
  rw [List.flatMap_cons, List.flatMap_assoc, Clause.breaks]
  apply Text.count_flatMap_congr
  intro clause member
  have condition : clause.condition.toList.count '\n' = 0 := plain clause member
  simp [Node.ofClause, Node.leaf, condition]

theorem newlines_clauseLines :
    Text.newlines (Text.unlines (clauses.map Clause.text)) =
      clauses.length + Clause.breaks clauses := by
  rw [Text.newlines_unlines, List.length_map, List.flatMap_map, Clause.breaks]
  congr 1
  apply Text.count_flatMap_congr
  intro clause member
  have condition : clause.condition.toList.count '\n' = 0 := plain clause member
  simp [Clause.text, condition]

end PlainConditions

theorem Clause.breaks_eq_zero_iff {clauses : List Clause} :
    Clause.breaks clauses = 0 ↔
      ∀ clause ∈ clauses, '\n' ∉ clause.field.toList ∧ '\n' ∉ clause.value.toList := by
  simp only [Clause.breaks, List.count_eq_zero, List.mem_flatMap, List.mem_append, not_exists,
    not_and, not_or]

/-- A clause consists of the contents of parts of its rule, and its field may also be the one in
force before them. -/
theorem RulePart.exists_parts {field : String} {parts : List RulePart} {clause : Clause}
    (member : clause ∈ clausesOf field parts) :
    (clause.field = field ∨ ∃ part ∈ parts, part.content = clause.field) ∧
      (∃ part ∈ parts, part.kind = .condition ∧ part.content = clause.condition) ∧
      ∃ part ∈ parts, part.content = clause.value := by
  obtain ⟨index, _, found⟩ := List.mem_filterMap.mp member
  unfold clauseAt? at found
  split at found
  · rename_i condition value conditionFound valueFound
    split at found
    · rename_i isCondition
      cases found
      refine ⟨?_, ⟨condition, List.mem_of_getElem? conditionFound, isCondition, rfl⟩,
        value, List.mem_of_getElem? valueFound, rfl⟩
      rw [fieldBehind]
      cases last : ((parts.take index).filter fun part => part.kind = .field).getLast? with
      | none => exact Or.inl rfl
      | some part =>
          have inFront := (List.mem_filter.mp (List.mem_of_getLast? last)).1
          exact Or.inr ⟨part, List.mem_of_mem_take inFront, rfl⟩
    · cases found
  · cases found

theorem Spells.content_subset {part : RulePart} {text : List Char} (spells : Spells part text) :
    part.content.toList ⊆ text := by
  cases spells with
  | field isName =>
      intro character member
      simp [Lexical.fieldReference, member]
  | condition listed => exact List.Subset.refl _
  | value isValue => exact List.Subset.refl _

namespace WrittenRule

theorem content_subset {rule : WrittenRule} {part : RulePart}
    (member : part ∈ rule.parts.map WrittenPart.part) : part.content.toList ⊆ rule.text := by
  obtain ⟨written, inRule, rfl⟩ := List.mem_map.mp member
  intro character inContent
  have inText := written.spells.content_subset inContent
  apply List.mem_append_left
  exact List.mem_flatMap.mpr ⟨written, inRule, List.mem_append_right _ inText⟩

/-- The condition of a clause is a keyword, and every newline in its field or its value stands in
the text of the rule. -/
theorem newline_of_clause {rule : WrittenRule} {clause : Clause} (member : clause ∈ rule.clauses) :
    Text.newlines clause.condition = 0 ∧
      ('\n' ∈ clause.field.toList ∨ '\n' ∈ clause.value.toList → '\n' ∈ rule.text) := by
  obtain ⟨fieldEq, ⟨part, inRule, isCondition, conditionEq⟩, value, valueIn, valueEq⟩ :=
    RulePart.exists_parts member
  constructor
  · obtain ⟨written, _, rfl⟩ := List.mem_map.mp inRule
    rw [← conditionEq]
    have keywords : ∀ keyword ∈ ["TYPE", "RANGE", "MATCHES", "IN", "REQUIRED"],
        Text.newlines keyword = 0 := by decide
    obtain ⟨gap, part, text, blank, spells⟩ := written
    cases spells with
    | field isName => cases isCondition
    | condition listed => exact keywords _ listed
    | value isValue => cases isCondition
  · rintro (inField | inValue)
    · rcases fieldEq with none | ⟨part, partIn, contentEq⟩
      · rw [none] at inField
        cases inField
      · rw [← contentEq] at inField
        exact content_subset partIn inField
    · rw [← valueEq] at inValue
      exact content_subset valueIn inValue

end WrittenRule

theorem Node.line_of_filled (depth : Nat) (kind : NodeKind) {value : String} (filled : value ≠ "") :
    line depth kind value =
      String.ofList (List.replicate (2 * depth) ' ') ++ kind.name ++ (" " ++ value) := by
  rw [line, if_neg (mt String.isEmpty_iff.mp filled)]

/-- A clause whose field holds the lines of another clause. -/
def Clause.disguised (first second : Clause) : Clause where
  field := first.field ++ "\n    CONDITION " ++ first.condition ++ "\n    VALUE " ++ first.value ++
    "\n  EXPRESSION\n    FIELD " ++ second.field
  condition := second.condition
  value := second.value

/-- One clause can be shown as if it were any two. -/
theorem render_disguised {first second : Clause} (field : first.field ≠ "")
    (condition : first.condition ≠ "") (value : first.value ≠ "") (field' : second.field ≠ "") :
    (Node.ofClauses [first.disguised second]).render =
      (Node.ofClauses [first, second]).render := by
  have filled : (first.disguised second).field ≠ "" := by
    simp [Clause.disguised]
  simp only [Node.render_eq_unlines, Node.preorder_ofClauses, List.flatMap_cons, List.flatMap_nil,
    List.append_nil, List.cons_append, List.nil_append, List.map_cons, List.map_nil, Node.ownLine,
    Node.leaf, Node.line_of_filled _ _ filled, Node.line_of_filled _ _ field,
    Node.line_of_filled _ _ condition, Node.line_of_filled _ _ value,
    Node.line_of_filled _ _ field']
  apply String.toList_inj.mp
  simp [Text.unlines, Clause.disguised, NodeKind.name, Node.line, Node.ofClause, Node.ofClauses]

namespace Settings

/-- What a format that parses the rule writes for its tree. -/
def shown (settings : Settings) (root : Node) : String :=
  match settings.format with
  | .tree => root.render
  | .clauses => Text.unlines (root.clauses.map Clause.text)
  | .json => settings.jsonText root.toJson
  | .tokens => ""

theorem render_eq_map {settings : Settings} (parses : settings.format ≠ .tokens)
    (source : String) : settings.render source = (compile source).map settings.shown := by
  unfold render compile shown
  cases readable : tokenize source with
  | error error => rfl
  | ok tokens =>
      simp only [bind, Except.bind, pure, Except.pure]
      cases format : settings.format with
      | tokens => exact absurd format parses
      | json => cases parseRules tokens <;> rfl
      | tree => cases parseRules tokens <;> rfl
      | clauses => cases parseRules tokens <;> rfl

end Settings

/-- The tree format shows each node of a rule on a line of its own, each before its children, and
there are four of them for each clause besides the root.  The clause format shows each clause on a
line of its own.  Either output has as many newlines more than that as there are in the fields and
values of the clauses, and there are none in those if the rule is written on one line. -/
theorem compile_shows_lines {source : String} {root : Node} (compiled : compile source = .ok root) :
    (∀ settings : Settings, settings.format = .tree →
      settings.render source = .ok (Text.unlines ((root.preorder 0).map Node.ownLine))) ∧
    (∀ settings : Settings, settings.format = .clauses →
      settings.render source = .ok (Text.unlines (root.clauses.map Clause.text))) ∧
    (root.preorder 0).length = 1 + 4 * root.children.length ∧
    root.clauses.length = root.children.length ∧
    Text.newlines (Text.unlines ((root.preorder 0).map Node.ownLine)) =
      1 + 4 * root.children.length + Clause.breaks root.clauses ∧
    Text.newlines (Text.unlines (root.clauses.map Clause.text)) =
      root.children.length + Clause.breaks root.clauses ∧
    (Clause.breaks root.clauses = 0 ↔
      ∀ clause ∈ root.clauses, '\n' ∉ clause.field.toList ∧ '\n' ∉ clause.value.toList) ∧
    ('\n' ∉ source.toList → Clause.breaks root.clauses = 0) := by
  obtain ⟨rule, written⟩ := WrittenRule.exists_of_compile compiled
  have rootEq : root = Node.ofClauses rule.clauses := by
    have same := rule.compile_eq
    rw [written, String.ofList_toList, compiled] at same
    exact Except.ok.inj same
  have clauses : root.clauses = rule.clauses := by
    rw [rootEq, Node.clauses_ofClauses]
  have children : root.children.length = rule.clauses.length := by
    rw [rootEq, Node.ofClauses, List.length_map]
  have plain : ∀ clause ∈ rule.clauses, Text.newlines clause.condition = 0 :=
    fun clause member => (WrittenRule.newline_of_clause member).1
  rw [clauses, children]
  refine ⟨?tree, ?clauses, ?nodes, rfl, ?treeLines, newlines_clauseLines plain,
    Clause.breaks_eq_zero_iff, ?oneLine⟩
  case tree =>
    intro settings format
    rw [Settings.render_eq_map (by simp [format]), compiled, ← Node.render_eq_unlines]
    simp [Except.map, Settings.shown, format]
  case clauses =>
    intro settings format
    rw [Settings.render_eq_map (by simp [format]), compiled, ← clauses]
    simp [Except.map, Settings.shown, format]
  case nodes =>
    rw [rootEq, Node.length_preorder_ofClauses]
  case treeLines =>
    rw [← Node.render_eq_unlines, rootEq, newlines_render_ofClauses plain]
  case oneLine =>
    intro oneLine
    apply Clause.breaks_eq_zero_iff.mpr
    intro clause member
    have inText := (WrittenRule.newline_of_clause member).2
    rw [written] at inText
    exact ⟨fun inField => oneLine (inText (Or.inl inField)),
      fun inValue => oneLine (inText (Or.inr inValue))⟩

/-- A rule of one clause that is shown with the nine lines of a rule of two. -/
theorem compile_shows_lines_of_another :
    ∃ root,
      compile "FIELD(\"a\n    CONDITION TYPE\n    VALUE 1\n  EXPRESSION\n    FIELD b\") TYPE 2" =
        .ok root ∧
      root.children.length = 1 ∧
      Text.newlines (Text.unlines ((root.preorder 0).map Node.ownLine)) = 9 ∧
      root.render = (Node.ofClauses [⟨"a", "TYPE", "1"⟩, ⟨"b", "TYPE", "2"⟩]).render := by
  have readable : tokenize
      "FIELD(\"a\n    CONDITION TYPE\n    VALUE 1\n  EXPRESSION\n    FIELD b\") TYPE 2" =
      .ok [⟨.field, "FIELD(\"a\n    CONDITION TYPE\n    VALUE 1\n  EXPRESSION\n    FIELD b\")",
          ⟨0, 1, 0⟩⟩, ⟨.condition, "TYPE", ⟨67, 5, 14⟩⟩, ⟨.value, "2", ⟨72, 5, 19⟩⟩] := by
    decide +kernel
  have compiled : compile
      "FIELD(\"a\n    CONDITION TYPE\n    VALUE 1\n  EXPRESSION\n    FIELD b\") TYPE 2" =
      .ok (Node.ofClauses [Clause.disguised ⟨"a", "TYPE", "1"⟩ ⟨"b", "TYPE", "2"⟩]) := by
    rw [compile, readable]
    apply parseRules_eq_ok.mpr
    exact ⟨by decide, .field (.clause .nil), congrArg Node.ofClauses (by decide +kernel)⟩
  have lines := (compile_shows_lines compiled).2.2.2.2.1
  exact ⟨_, compiled, rfl, lines,
    render_disguised (by decide) (by decide) (by decide) (by decide)⟩

end FieldRules
