import FieldRules.Compile
import FieldRules.Proofs.ClauseGrammar
import FieldRules.Proofs.PrintedLexemes

/-!
# The rule language

A rule is written from field references, conditions and values, with a gap in front of each and one
at the end, every one of which may be empty.  `WrittenRule` describes the rules without reference to
scanning or parsing.  Compiling accepts exactly the texts of these rules, and however a text is
written as a rule, its tree has the clauses of that rule.
-/

namespace FieldRules

open Text

/-- How a part of a rule is written. -/
inductive Spells : RulePart → List Char → Prop
  | field {name : String} (isName : Lexical.IsFieldName name.toList) :
      Spells ⟨.field, name⟩ (Lexical.fieldReference name.toList)
  | condition {keyword : String}
      (listed : keyword ∈ ["TYPE", "RANGE", "MATCHES", "IN", "REQUIRED"]) :
      Spells ⟨.condition, keyword⟩ keyword.toList
  | value {text : String} (isValue : Lexical.IsValue text.toList) :
      Spells ⟨.value, text⟩ text.toList

/-- A part of a rule as it is written, with the gap in front of it. -/
structure WrittenPart where
  gap : List Char
  part : RulePart
  text : List Char
  blank : AllBlank gap
  spells : Spells part text

structure WrittenRule where
  parts : List WrittenPart
  ending : List Char
  blank : AllBlank ending
  word : ClauseWord (parts.map fun written => written.part.kind)
  enough : 3 ≤ parts.length

def WrittenRule.text (rule : WrittenRule) : List Char :=
  (rule.parts.flatMap fun written => written.gap ++ written.text) ++ rule.ending

/-- The clauses of a rule: one for each condition, with the value behind it and the last field name
before it, which is empty if there is none. -/
def WrittenRule.clauses (rule : WrittenRule) : List Clause :=
  RulePart.clausesOf "" (rule.parts.map WrittenPart.part)

theorem fieldName?_fieldReference (name : List Char) :
    Token.fieldName? (Lexical.fieldReference name) = some name := by
  have start : Token.fieldOpening.isPrefixOf? (Lexical.fieldReference name) =
      some (name ++ Token.fieldClosing) := by
    apply List.isPrefixOf?_eq_some_iff_append_eq.mpr
    simp [Lexical.fieldReference, Token.fieldOpening, Token.fieldClosing]
  rw [Token.fieldName?, start, Option.bind_some]
  exact List.isSuffixOf?_eq_some_iff_append_eq.mpr rfl

namespace Spells

variable {part : RulePart} {text : List Char}

theorem isLexeme (spells : Spells part text) : Lexical.IsLexeme part.kind text := by
  cases spells with
  | field isName => exact .field isName
  | condition listed => exact .condition listed
  | value isValue => exact .value isValue

/-- A token with the text of a part says what the part says. -/
theorem part_eq (spells : Spells part text) (position : Position) :
    Token.part ⟨part.kind, String.ofList text, position⟩ = part := by
  cases spells with
  | @field name isName =>
      simp [Token.part, Token.fieldName, fieldName?_fieldReference]
  | condition listed => simp [Token.part]
  | value isValue => simp [Token.part]

theorem exists_of_isLexeme {kind : TokenKind} (lexeme : Lexical.IsLexeme kind text)
    (admitted : kind = .field ∨ kind = .condition ∨ kind = .value) :
    ∃ part : RulePart, part.kind = kind ∧ Spells part text := by
  cases lexeme with
  | @field name isName =>
      refine ⟨⟨.field, String.ofList name⟩, rfl, ?_⟩
      have spells : Spells ⟨.field, String.ofList name⟩
          (Lexical.fieldReference (String.ofList name).toList) := by
        apply Spells.field
        rw [String.toList_ofList]
        exact isName
      rw [String.toList_ofList] at spells
      exact spells
  | @condition keyword listed => exact ⟨⟨.condition, keyword⟩, rfl, .condition listed⟩
  | value isValue =>
      refine ⟨⟨.value, String.ofList text⟩, rfl, ?_⟩
      have spells : Spells ⟨.value, String.ofList text⟩ (String.ofList text).toList := by
        apply Spells.value
        rw [String.toList_ofList]
        exact isValue
      rw [String.toList_ofList] at spells
      exact spells
  | logical listed => simp at admitted
  | separator => simp at admitted

end Spells

theorem ClauseWord.admitted {kinds : List TokenKind} (word : ClauseWord kinds) :
    ∀ kind ∈ kinds, kind = .field ∨ kind = .condition ∨ kind = .value := by
  induction word with
  | nil => simp
  | field later induction =>
      intro kind member
      rcases List.mem_cons.mp member with rfl | memberLater
      · exact Or.inl rfl
      · exact induction kind memberLater
  | clause later induction =>
      intro kind member
      rcases List.mem_cons.mp member with rfl | memberValue
      · exact Or.inr (Or.inl rfl)
      · rcases List.mem_cons.mp memberValue with rfl | memberLater
        · exact Or.inr (Or.inr rfl)
        · exact induction kind memberLater

namespace WrittenPart

def piece (written : WrittenPart) : Piece :=
  ⟨written.gap, written.part.kind, written.text, written.blank, written.spells.isLexeme⟩

theorem print_pieces (parts : List WrittenPart) :
    Piece.print (parts.map piece) =
      parts.flatMap fun written => written.gap ++ written.text := by
  rw [Piece.print, List.flatMap_map]
  rfl

theorem not_isNumber {written : WrittenPart} (notValue : written.part.kind ≠ .value) :
    ¬ Lexical.IsNumber written.text := by
  intro isNumber
  exact notValue (Lexeme.kind_unique written.spells.isLexeme (.value (.number isNumber)))

/-- A rule does not begin with a number, even without a gap in front of it. -/
theorem not_startsUnsigned {parts : List WrittenPart} {ending : List Char}
    (blank : AllBlank ending) (word : ClauseWord (parts.map fun written => written.part.kind)) :
    ¬ Lexical.StartsUnsigned (Piece.print (parts.map piece) ++ ending) := by
  cases parts with
  | nil => exact Lexical.not_startsUnsigned_of_allBlank blank
  | cons written parts =>
      rw [List.map_cons]
      apply Piece.not_startsUnsigned
      intro _ starts
      have isValue : written.part.kind = .value :=
        written.spells.isLexeme.kind_of_startsNumeric starts
      rw [List.map_cons, isValue] at word
      rcases word.begins with isField | isCondition
      · cases isField
      · cases isCondition

/-- In a rule no number stands right before more of a number. -/
theorem apart {parts : List WrittenPart} {ending : List Char} (blank : AllBlank ending)
    (word : ClauseWord (parts.map fun written => written.part.kind)) :
    Piece.Apart ending (parts.map piece) := by
  generalize kindsEq : (parts.map fun written => written.part.kind) = kinds at word
  induction word generalizing parts with
  | nil =>
      obtain rfl := List.map_eq_nil_iff.mp kindsEq
      exact .nil
  | field later induction =>
      obtain ⟨field, parts, rfl, isField, rfl⟩ := List.map_eq_cons_iff.mp kindsEq
      have notValue : field.part.kind ≠ .value := by
        rw [isField]
        decide
      exact .cons (fun continues => not_isNumber notValue continues.1) (induction rfl)
  | clause later induction =>
      obtain ⟨condition, behind, rfl, isCondition, behindEq⟩ := List.map_eq_cons_iff.mp kindsEq
      obtain ⟨value, parts, rfl, isValue, rfl⟩ := List.map_eq_cons_iff.mp behindEq
      have notValue : condition.part.kind ≠ .value := by
        rw [isCondition]
        decide
      have stops := not_startsUnsigned blank later
      exact .cons (fun continues => not_isNumber notValue continues.1)
        (.cons (fun continues => stops continues.2) (induction rfl))

theorem exists_of_laid {tail : List Char} {position : Position} {segments : List Segment}
    (laid : Segment.Laid tail position segments)
    (admitted : ∀ kind ∈ segments.map fun segment => segment.token.kind,
      kind = .field ∨ kind = .condition ∨ kind = .value) :
    ∃ parts : List WrittenPart,
      (parts.flatMap fun written => written.gap ++ written.text) = Segment.textOf segments ∧
      (parts.map fun written => written.part.kind) =
        segments.map fun segment => segment.token.kind := by
  induction laid with
  | nil => exact ⟨[], rfl, rfl⟩
  | @cons position segment later place found rest induction =>
      rw [List.map_cons, List.forall_mem_cons] at admitted
      obtain ⟨parts, textEq, kindsEq⟩ := induction admitted.2
      obtain ⟨part, kindEq, spells⟩ :=
        Spells.exists_of_isLexeme (Lexeme.first?_sound found) admitted.1
      refine ⟨⟨segment.gap, part, segment.lexeme, segment.blank, spells⟩ :: parts, ?_, ?_⟩
      · rw [List.flatMap_cons, textEq, Segment.textOf_cons, List.append_assoc]
      · rw [List.map_cons, kindsEq, kindEq, List.map_cons]

end WrittenPart

namespace WrittenRule

theorem exists_tokens (rule : WrittenRule) :
    ∃ tokens, tokenize (String.ofList rule.text) = .ok tokens ∧
      tokens.map Token.part = rule.parts.map WrittenPart.part := by
  obtain ⟨tokens, readable, tokensEq⟩ :=
    (WrittenPart.apart rule.blank rule.word).exists_tokens rule.blank
  rw [WrittenPart.print_pieces] at readable
  refine ⟨tokens, readable, ?_⟩
  calc tokens.map Token.part
      = ((rule.parts.map WrittenPart.piece).map fun piece =>
          (piece.kind, String.ofList piece.text)).map fun shown =>
            Token.part ⟨shown.1, shown.2, Position.unknown⟩ := by
        rw [Token.map_part, tokensEq]
    _ = rule.parts.map WrittenPart.part := by
        rw [List.map_map, List.map_map]
        apply List.map_congr_left
        intro written _
        exact written.spells.part_eq Position.unknown

theorem compile_eq (rule : WrittenRule) :
    compile (String.ofList rule.text) = .ok (Node.ofClauses rule.clauses) := by
  obtain ⟨tokens, readable, partsEq⟩ := rule.exists_tokens
  have kindsEq : tokens.map Token.kind = rule.parts.map fun written => written.part.kind := by
    have kinds := congrArg (List.map RulePart.kind) partsEq
    rw [List.map_map, List.map_map] at kinds
    exact kinds
  have lengthEq : tokens.length = rule.parts.length := by
    have lengths := congrArg List.length partsEq
    simpa using lengths
  rw [compile, readable]
  apply parseRules_eq_ok.mpr
  refine ⟨?_, ?_, ?_⟩
  · rw [lengthEq]
    exact rule.enough
  · rw [kindsEq]
    exact rule.word
  · rw [partsEq, clauses]

theorem exists_of_compile {source : String} {root : Node} (compiled : compile source = .ok root) :
    ∃ rule : WrittenRule, rule.text = source.toList := by
  cases readable : tokenize source with
  | error error =>
      rw [compile, readable] at compiled
      cases compiled
  | ok tokens =>
      rw [compile, readable] at compiled
      obtain ⟨enough, word, _⟩ := parseRules_eq_ok.mp compiled
      obtain ⟨segments, ending, sourceEq, laid, blank, rfl⟩ :=
        Segment.exists_laid_of_outcome readable
      rw [List.map_map] at word
      obtain ⟨parts, textEq, kindsEq⟩ := WrittenPart.exists_of_laid laid word.admitted
      refine ⟨⟨parts, ending, blank, kindsEq ▸ word, ?_⟩, ?_⟩
      · have lengths := congrArg List.length kindsEq
        rw [List.length_map, List.length_map] at lengths
        rw [List.length_map] at enough
        exact lengths ▸ enough
      · rw [text, sourceEq, textEq]

end WrittenRule

/-- Compiling accepts exactly the texts that are written as rules.  However a text is written as a
rule, its tree has one expression for each clause of that rule, in their order, and the clauses can
be read from the tree again. -/
theorem compile_accepts_exactly (source : String) :
    ((∃ root, compile source = .ok root) ↔
      ∃ rule : WrittenRule, rule.text = source.toList) ∧
    ∀ rule : WrittenRule, rule.text = source.toList →
      compile source = .ok ⟨.root, "", rule.clauses.map Node.ofClause⟩ ∧
      ∀ root, compile source = .ok root → root.clauses = rule.clauses := by
  have compiles : ∀ rule : WrittenRule, rule.text = source.toList →
      compile source = .ok (Node.ofClauses rule.clauses) := by
    intro rule written
    have compiled := rule.compile_eq
    rw [written, String.ofList_toList] at compiled
    exact compiled
  refine ⟨⟨?_, ?_⟩, ?_⟩
  · rintro ⟨root, compiled⟩
    exact WrittenRule.exists_of_compile compiled
  · rintro ⟨rule, written⟩
    exact ⟨_, compiles rule written⟩
  · intro rule written
    refine ⟨compiles rule written, ?_⟩
    intro root compiled
    obtain rfl := Except.ok.inj ((compiles rule written).symm.trans compiled)
    exact Node.clauses_ofClauses rule.clauses

/-- A rule that is written without gaps. -/
theorem compile_accepts_without_gaps :
    compile "FIELD(\"a\")IN(1)" = .ok ⟨.root, "", [Node.ofClause ⟨"a", "IN", "(1)"⟩]⟩ ∧
      ∀ root, compile "FIELD(\"a\")IN(1)" = .ok root → root.clauses = [⟨"a", "IN", "(1)"⟩] := by
  have enclosed : Lexical.IsEnclosed '(' ')' ('(' :: (['1'] ++ [')'])) := .intro (by decide)
  exact (compile_accepts_exactly "FIELD(\"a\")IN(1)").2
    ⟨[⟨[], ⟨.field, "a"⟩, _, allBlank_nil, .field ⟨by decide, by decide⟩⟩,
      ⟨[], ⟨.condition, "IN"⟩, _, allBlank_nil, .condition (by decide)⟩,
      ⟨[], ⟨.value, "(1)"⟩, _, allBlank_nil, .value (.list enclosed)⟩],
      [], allBlank_nil, .field (.clause .nil), Nat.le_refl 3⟩ rfl

end FieldRules
