import FieldRules.Proofs.OutputLines

/-!
# Trees and their indentation

A tree is shown as a list of lines in which only the indentation tells where the children of a node
end.  A line can be taken apart again: the blanks in front give the depth, the name of the kind has
no blank in it, and a value is there exactly if a blank follows the name.  So the lines of a tree
can be told from what stands behind them as long as that begins at a smaller depth.  If the values
have no newlines, the lines can be told apart in the text, and the text determines the tree.
-/

namespace FieldRules

theorem Text.unlines_inj {lines others : List String} (whole : ∀ line ∈ lines, newlines line = 0)
    (whole' : ∀ line ∈ others, newlines line = 0) (same : unlines lines = unlines others) :
    lines = others := by
  have text : lines.flatMap (fun line => line.toList ++ ['\n']) =
      others.flatMap fun line => line.toList ++ ['\n'] := String.ofList_injective same
  clear same
  induction lines generalizing others with
  | nil =>
      cases others with
      | nil => rfl
      | cons other others => simp at text
  | cons line lines induction =>
      cases others with
      | nil => simp at text
      | cons other others =>
          rw [List.flatMap_cons, List.flatMap_cons, List.append_assoc, List.append_assoc] at text
          obtain ⟨first, later⟩ := cut_unique
            (newlines_eq_zero_iff.mp (whole line List.mem_cons_self))
            (newlines_eq_zero_iff.mp (whole' other List.mem_cons_self)) text
          have rest := induction (fun next member => whole next (List.mem_cons_of_mem _ member))
            (fun next member => whole' next (List.mem_cons_of_mem _ member)) later
          rw [String.toList_inj.mp first, rest]

namespace NodeKind

theorem startsVisible_name (kind : NodeKind) (more : List Char) :
    Text.StartsVisible (kind.name.toList ++ more) := by
  cases kind
  all_goals exact ⟨_, _, rfl, by decide⟩

theorem blank_not_mem_name (kind : NodeKind) : ' ' ∉ kind.name.toList := by
  cases kind <;> decide

theorem name_injective {kind other : NodeKind} (same : kind.name = other.name) : kind = other := by
  revert same
  cases kind <;> cases other <;> decide

end NodeKind

namespace Node

/-- What stands behind the name of a kind on a line. -/
def shownValue (value : String) : List Char :=
  if value.isEmpty then [] else ' ' :: value.toList

theorem toList_line (depth : Nat) (kind : NodeKind) (value : String) :
    (line depth kind value).toList =
      List.replicate (2 * depth) ' ' ++ (kind.name.toList ++ shownValue value) := by
  rw [line, shownValue]
  split
  · simp
  · simp

theorem shownValue_injective {value other : String} (same : shownValue value = shownValue other) :
    value = other := by
  unfold shownValue at same
  split at same
  · rename_i empty
    split at same
    · rename_i empty'
      rw [String.isEmpty_iff.mp empty, String.isEmpty_iff.mp empty']
    · cases same
  · split at same
    · cases same
    · exact String.toList_inj.mp (List.cons.inj same).2

/-- The name of a kind ends at the first blank or with the line. -/
theorem takeWhile_name (kind : NodeKind) (value : String) :
    (kind.name.toList ++ shownValue value).takeWhile (· != ' ') = kind.name.toList := by
  rw [List.takeWhile_append_of_pos (Text.all_bne_of_not_mem kind.blank_not_mem_name), shownValue]
  split
  · simp
  · simp

theorem line_inj {depth depth' : Nat} {kind kind' : NodeKind} {value value' : String} :
    line depth kind value = line depth' kind' value' ↔
      depth = depth' ∧ kind = kind' ∧ value = value' := by
  constructor
  · intro same
    have text := congrArg String.toList same
    rw [toList_line, toList_line] at text
    have blank : ∀ length, Text.AllBlank (List.replicate length ' ') := by
      intro length character member
      rw [List.eq_of_mem_replicate member]
      decide
    have indents := congrArg (List.takeWhile Text.isBlank) text
    rw [(blank _).takeWhile_append (kind.startsVisible_name _),
      (blank _).takeWhile_append (kind'.startsVisible_name _)] at indents
    have depths : depth = depth' := by
      have lengths := congrArg List.length indents
      rw [List.length_replicate, List.length_replicate] at lengths
      omega
    rw [indents, List.append_cancel_left_eq] at text
    have names := congrArg (List.takeWhile (· != ' ')) text
    rw [takeWhile_name, takeWhile_name] at names
    rw [names, List.append_cancel_left_eq] at text
    exact ⟨depths, NodeKind.name_injective (String.toList_inj.mp names),
      shownValue_injective text⟩
  · rintro ⟨rfl, rfl, rfl⟩
    rfl

/-- The first of the lines belongs to a node of a smaller depth, if there is one. -/
def Outside (depth : Nat) (lines : List String) : Prop :=
  ∀ first, lines.head? = some first →
    ∃ smaller kind value, smaller < depth ∧ first = line smaller kind value

theorem outside_nil (depth : Nat) : Outside depth [] := by
  intro first isFirst
  cases isFirst

/-- The lines of a node are outside of its children. -/
theorem Outside.linesOfAll {depth : Nat} {rest : List String} (outside : Outside depth rest)
    (nodes : List Node) : Outside (depth + 1) (linesOfAll depth nodes ++ rest) := by
  intro first isFirst
  cases nodes with
  | nil =>
      rw [Node.linesOfAll, List.nil_append] at isFirst
      obtain ⟨smaller, kind, value, bound, shown⟩ := outside first isFirst
      exact ⟨smaller, kind, value, Nat.lt_succ_of_lt bound, shown⟩
  | cons node nodes =>
      obtain ⟨kind, value, children⟩ := node
      rw [Node.linesOfAll, lines, List.cons_append] at isFirst
      exact ⟨depth, kind, value, Nat.lt_succ_self depth, (Option.some.inj isFirst).symm⟩

theorem Outside.not_node {depth : Nat} {kind : NodeKind} {value : String} {rest : List String}
    (outside : Outside depth (line depth kind value :: rest)) : False := by
  obtain ⟨smaller, kind', value', bound, shown⟩ := outside _ rfl
  obtain ⟨rfl, _⟩ := line_inj.mp shown
  exact Nat.lt_irrefl _ bound

mutual

/-- The lines of a tree tell the tree, and where they end. -/
theorem lines_append_inj (depth : Nat) : ∀ (node other : Node) ⦃rest rest' : List String⦄,
    Outside (depth + 1) rest → Outside (depth + 1) rest' →
    lines depth node ++ rest = lines depth other ++ rest' → node = other ∧ rest = rest'
  | ⟨kind, value, children⟩, ⟨kind', value', children'⟩ => by
      intro rest rest' outside outside' same
      rw [lines, lines, List.cons_append, List.cons_append] at same
      obtain ⟨first, later⟩ := List.cons.inj same
      obtain ⟨_, rfl, rfl⟩ := line_inj.mp first
      obtain ⟨rfl, rfl⟩ := linesOfAll_append_inj (depth + 1) children children' outside outside' later
      exact ⟨rfl, rfl⟩

theorem linesOfAll_append_inj (depth : Nat) : ∀ (nodes others : List Node)
    ⦃rest rest' : List String⦄,
    Outside depth rest → Outside depth rest' →
    linesOfAll depth nodes ++ rest = linesOfAll depth others ++ rest' → nodes = others ∧ rest = rest'
  | [], [] => by
      intro rest rest' _ _ same
      rw [linesOfAll, List.nil_append] at same
      exact ⟨rfl, same⟩
  | [], ⟨kind, value, children⟩ :: others => by
      intro rest rest' outside _ same
      rw [linesOfAll, linesOfAll, lines, List.nil_append] at same
      rw [same] at outside
      exact outside.not_node.elim
  | ⟨kind, value, children⟩ :: nodes, [] => by
      intro rest rest' _ outside' same
      rw [linesOfAll, linesOfAll, lines, List.nil_append] at same
      rw [← same] at outside'
      exact outside'.not_node.elim
  | node :: nodes, other :: others => by
      intro rest rest' outside outside' same
      rw [linesOfAll, linesOfAll, List.append_assoc, List.append_assoc] at same
      obtain ⟨rfl, later⟩ := lines_append_inj depth node other (outside.linesOfAll nodes)
        (outside'.linesOfAll others) same
      obtain ⟨rfl, rfl⟩ := linesOfAll_append_inj depth nodes others outside outside' later
      exact ⟨rfl, rfl⟩

end

/-- No value in the tree has a newline. -/
def Unbroken (node : Node) : Prop :=
  ∀ entry ∈ node.preorder 0, '\n' ∉ entry.2.value.toList

theorem Unbroken.newlines_lines {node : Node} (unbroken : node.Unbroken) :
    ∀ shown ∈ node.lines 0, Text.newlines shown = 0 := by
  intro shown member
  rw [lines_eq_map] at member
  obtain ⟨entry, inTree, rfl⟩ := List.mem_map.mp member
  rw [ownLine, newlines_line]
  exact Text.newlines_eq_zero_iff.mpr (unbroken entry inTree)

end Node

/-- Trees of any shape whose values have no newlines are shown alike only if they are the same, even
if a value is empty, begins with blanks or looks like the name of a kind. -/
theorem render_determines_tree {node other : Node} (unbroken : node.Unbroken)
    (unbroken' : other.Unbroken) : node.render = other.render ↔ node = other := by
  constructor
  · intro same
    have lines := Text.unlines_inj unbroken.newlines_lines unbroken'.newlines_lines same
    rw [← List.append_nil (node.lines 0), ← List.append_nil (other.lines 0)] at lines
    exact (Node.lines_append_inj 0 node other (Node.outside_nil 1) (Node.outside_nil 1) lines).1
  · rintro rfl
    rfl

/-- The same three lines but for their indentation, with a value that looks like a line of its own.
-/
theorem render_determines_tree_nested :
    (Node.mk .root "" [⟨.field, "  FIELD", [⟨.field, "", []⟩]⟩]).render =
        "ROOT\n  FIELD   FIELD\n    FIELD\n" ∧
      (Node.mk .root "" [⟨.field, "  FIELD", []⟩, ⟨.field, "", []⟩]).render =
        "ROOT\n  FIELD   FIELD\n  FIELD\n" ∧
      (Node.mk .root "" [⟨.field, "  FIELD", [⟨.field, "", []⟩]⟩]).render ≠
        (Node.mk .root "" [⟨.field, "  FIELD", []⟩, ⟨.field, "", []⟩]).render := by
  have unbroken : (Node.mk .root "" [⟨.field, "  FIELD", [⟨.field, "", []⟩]⟩]).Unbroken := by
    simp [Node.Unbroken, Node.preorder, Node.preorderOfAll]
  have unbroken' : (Node.mk .root "" [⟨.field, "  FIELD", []⟩, ⟨.field, "", []⟩]).Unbroken := by
    simp [Node.Unbroken, Node.preorder, Node.preorderOfAll]
  refine ⟨by decide, by decide, ?_⟩
  intro same
  have trees := (render_determines_tree unbroken unbroken').mp same
  cases trees

end FieldRules
