import FieldRules.Proofs.BlankRuns
import FieldRules.Token

/-!
# The lexical forms of the rule language

A lexeme has one of five forms: a field reference, a condition keyword, a value, a connective or a
comma.  This file describes the forms as sets of texts, without saying how a lexeme is found in a
longer text.  Only a number can be the beginning of another lexeme, and `Continues` says when the
text behind a number would make it longer.
-/

namespace FieldRules
namespace Lexical

open Text

def IsDigits (text : List Char) : Prop :=
  text ≠ [] ∧ ∀ character ∈ text, character.isDigit = true

/-- A number without a sign: digits, digits with a fraction, or a fraction alone. -/
inductive IsUnsigned : List Char → Prop
  | whole {digits : List Char} (isDigits : IsDigits digits) : IsUnsigned digits
  | decimal {digits fraction : List Char} (isDigits : IsDigits digits)
      (isFraction : IsDigits fraction) : IsUnsigned (digits ++ '.' :: fraction)
  | fraction {fraction : List Char} (isFraction : IsDigits fraction) :
      IsUnsigned ('.' :: fraction)

inductive IsNumber : List Char → Prop
  | unsigned {text : List Char} (isUnsigned : IsUnsigned text) : IsNumber text
  | negative {text : List Char} (isUnsigned : IsUnsigned text) : IsNumber ('-' :: text)

/-- Text between two marks, of which the closing one does not occur inside. -/
inductive IsEnclosed (opening closing : Char) : List Char → Prop
  | intro {content : List Char} (notInside : closing ∉ content) :
      IsEnclosed opening closing (opening :: (content ++ [closing]))

inductive IsValue : List Char → Prop
  | doubleQuoted {text : List Char} (enclosed : IsEnclosed '"' '"' text) : IsValue text
  | singleQuoted {text : List Char} (enclosed : IsEnclosed '\x27' '\x27' text) : IsValue text
  | list {text : List Char} (enclosed : IsEnclosed '(' ')' text) : IsValue text
  | number {text : List Char} (isNumber : IsNumber text) : IsValue text

/-- The name of a field: it is not empty and holds no quotation mark. -/
def IsFieldName (name : List Char) : Prop :=
  name ≠ [] ∧ '"' ∉ name

def fieldReference (name : List Char) : List Char :=
  ['F', 'I', 'E', 'L', 'D', '(', '"'] ++ name ++ ['"', ')']

/-- The lexemes of each kind of token. -/
inductive IsLexeme : TokenKind → List Char → Prop
  | field {name : List Char} (isName : IsFieldName name) : IsLexeme .field (fieldReference name)
  | condition {keyword : String}
      (listed : keyword ∈ ["TYPE", "RANGE", "MATCHES", "IN", "REQUIRED"]) :
      IsLexeme .condition keyword.toList
  | value {text : List Char} (isValue : IsValue text) : IsLexeme .value text
  | logical {keyword : String} (listed : keyword ∈ ["AND", "OR", "NOT"]) :
      IsLexeme .logical keyword.toList
  | separator : IsLexeme .separator [',']

def StartsUnsigned (text : List Char) : Prop :=
  ∃ number later, IsUnsigned number ∧ text = number ++ later

/-- The lexeme is a number, and the text behind it begins with more of a number. -/
def Continues (lexeme rest : List Char) : Prop :=
  IsNumber lexeme ∧ StartsUnsigned rest

theorem IsDigits.exists_cons {text : List Char} (isDigits : IsDigits text) :
    ∃ digit rest, text = digit :: rest ∧ digit.isDigit = true := by
  obtain ⟨nonempty, allDigits⟩ := isDigits
  obtain ⟨digit, rest, rfl⟩ := List.exists_cons_of_ne_nil nonempty
  exact ⟨digit, rest, rfl, allDigits digit List.mem_cons_self⟩

theorem IsUnsigned.exists_cons {text : List Char} (isUnsigned : IsUnsigned text) :
    ∃ character rest, text = character :: rest ∧
      (character.isDigit = true ∨ character = '.') := by
  cases isUnsigned with
  | whole isDigits =>
      obtain ⟨digit, rest, rfl, isDigit⟩ := isDigits.exists_cons
      exact ⟨digit, rest, rfl, Or.inl isDigit⟩
  | decimal isDigits isFraction =>
      obtain ⟨digit, rest, rfl, isDigit⟩ := isDigits.exists_cons
      exact ⟨digit, _, rfl, Or.inl isDigit⟩
  | fraction isFraction => exact ⟨'.', _, rfl, Or.inr rfl⟩

/-- The characters of a number, its sign apart. -/
def IsNumeric (character : Char) : Prop :=
  character.isDigit = true ∨ character = '.'

instance (character : Char) : Decidable (IsNumeric character) :=
  inferInstanceAs (Decidable (_ ∨ _))

def StartsNumeric (text : List Char) : Prop :=
  ∃ character rest, text = character :: rest ∧ IsNumeric character

theorem StartsUnsigned.startsNumeric {text : List Char} (starts : StartsUnsigned text) :
    StartsNumeric text := by
  obtain ⟨number, later, isUnsigned, rfl⟩ := starts
  obtain ⟨character, rest, rfl, isNumeric⟩ := isUnsigned.exists_cons
  exact ⟨character, rest ++ later, rfl, isNumeric⟩

theorem IsNumber.exists_cons {text : List Char} (isNumber : IsNumber text) :
    ∃ character rest, text = character :: rest ∧
      (character.isDigit = true ∨ character = '.' ∨ character = '-') := by
  cases isNumber with
  | unsigned isUnsigned =>
      obtain ⟨character, rest, rfl, isDigit | isPoint⟩ := isUnsigned.exists_cons
      · exact ⟨character, rest, rfl, Or.inl isDigit⟩
      · exact ⟨character, rest, rfl, Or.inr (Or.inl isPoint)⟩
  | negative isUnsigned => exact ⟨'-', _, rfl, Or.inr (Or.inr rfl)⟩

def OpensValue (character : Char) : Prop :=
  character ∈ ['"', '\x27', '(', '-', '.'] ∨ character.isDigit = true

instance (character : Char) : Decidable (OpensValue character) :=
  inferInstanceAs (Decidable (_ ∨ _))

theorem IsValue.exists_cons {text : List Char} (isValue : IsValue text) :
    ∃ character rest, text = character :: rest ∧ OpensValue character := by
  cases isValue with
  | doubleQuoted enclosed => cases enclosed; exact ⟨'"', _, rfl, Or.inl (by decide)⟩
  | singleQuoted enclosed => cases enclosed; exact ⟨'\x27', _, rfl, Or.inl (by decide)⟩
  | list enclosed => cases enclosed; exact ⟨'(', _, rfl, Or.inl (by decide)⟩
  | number isNumber =>
      obtain ⟨character, rest, rfl, isDigit | rfl | rfl⟩ := isNumber.exists_cons
      · exact ⟨character, rest, rfl, Or.inr isDigit⟩
      · exact ⟨'.', rest, rfl, Or.inl (by decide)⟩
      · exact ⟨'-', rest, rfl, Or.inl (by decide)⟩

/-- The characters with which a lexeme of a kind can begin. -/
def Opens : TokenKind → Char → Prop
  | .field, character => character = 'F'
  | .condition, character => character ∈ ['T', 'R', 'M', 'I']
  | .value, character => OpensValue character
  | .logical, character => character ∈ ['A', 'O', 'N']
  | .separator, character => character = ','
  | _, _ => False

theorem IsLexeme.exists_cons {kind : TokenKind} {text : List Char} (lexeme : IsLexeme kind text) :
    ∃ character rest, text = character :: rest ∧ Opens kind character := by
  cases lexeme with
  | field isName => exact ⟨'F', _, rfl, rfl⟩
  | condition listed =>
      simp only [List.mem_cons, List.not_mem_nil, or_false] at listed
      rcases listed with rfl | rfl | rfl | rfl | rfl
      · exact ⟨'T', ['Y', 'P', 'E'], rfl, by simp [Opens]⟩
      · exact ⟨'R', ['A', 'N', 'G', 'E'], rfl, by simp [Opens]⟩
      · exact ⟨'M', ['A', 'T', 'C', 'H', 'E', 'S'], rfl, by simp [Opens]⟩
      · exact ⟨'I', ['N'], rfl, by simp [Opens]⟩
      · exact ⟨'R', ['E', 'Q', 'U', 'I', 'R', 'E', 'D'], rfl, by simp [Opens]⟩
  | value isValue => exact isValue.exists_cons
  | logical listed =>
      simp only [List.mem_cons, List.not_mem_nil, or_false] at listed
      rcases listed with rfl | rfl | rfl
      · exact ⟨'A', ['N', 'D'], rfl, by simp [Opens]⟩
      · exact ⟨'O', ['R'], rfl, by simp [Opens]⟩
      · exact ⟨'N', ['O', 'T'], rfl, by simp [Opens]⟩
  | separator => exact ⟨',', [], rfl, rfl⟩

theorem isBlank_of_isDigit {character : Char} (isDigit : character.isDigit = true) :
    isBlank character = false := by
  have bounds : 48 ≤ character.toNat ∧ character.toNat ≤ 57 := Char.isDigit_iff_toNat.mp isDigit
  simp [isBlank, blankRanges]
  omega

/-- A lexeme that is not a value begins with a letter or a comma. -/
theorem Opens.listed {kind : TokenKind} {character : Char} (opens : Opens kind character)
    (notValue : kind ≠ .value) : character ∈ ['F', 'T', 'R', 'M', 'I', 'A', 'O', 'N', ','] := by
  cases kind with
  | field =>
      obtain rfl : character = 'F' := opens
      decide
  | condition =>
      simp only [Opens, List.mem_cons, List.not_mem_nil, or_false] at opens
      rcases opens with rfl | rfl | rfl | rfl <;> decide
  | value => exact absurd rfl notValue
  | logical =>
      simp only [Opens, List.mem_cons, List.not_mem_nil, or_false] at opens
      rcases opens with rfl | rfl | rfl <;> decide
  | separator =>
      obtain rfl : character = ',' := opens
      decide
  | operator => exact opens.elim
  | transform => exact opens.elim
  | invalid => exact opens.elim

theorem Opens.visible {kind : TokenKind} {character : Char} (opens : Opens kind character) :
    isBlank character = false := by
  by_cases isValue : kind = .value
  · subst isValue
    rcases opens with listed | isDigit
    · simp only [List.mem_cons, List.not_mem_nil, or_false] at listed
      rcases listed with rfl | rfl | rfl | rfl | rfl <;> decide
    · exact isBlank_of_isDigit isDigit
  · have listed := opens.listed isValue
    simp only [List.mem_cons, List.not_mem_nil, or_false] at listed
    rcases listed with rfl | rfl | rfl | rfl | rfl | rfl | rfl | rfl | rfl <;> decide

theorem Opens.not_isNumeric {kind : TokenKind} {character : Char} (opens : Opens kind character)
    (notValue : kind ≠ .value) : ¬ IsNumeric character := by
  have listed := opens.listed notValue
  simp only [List.mem_cons, List.not_mem_nil, or_false] at listed
  rcases listed with rfl | rfl | rfl | rfl | rfl | rfl | rfl | rfl | rfl <;> decide

theorem IsLexeme.kind_of_startsNumeric {kind : TokenKind} {text : List Char}
    (lexeme : IsLexeme kind text) (starts : StartsNumeric text) : kind = .value := by
  obtain ⟨character, rest, rfl, opens⟩ := lexeme.exists_cons
  obtain ⟨first, others, split, isNumeric⟩ := starts
  obtain ⟨rfl, _⟩ := List.cons.inj split
  apply Classical.byContradiction
  intro notValue
  exact opens.not_isNumeric notValue isNumeric

theorem IsLexeme.startsVisible {kind : TokenKind} {text : List Char}
    (lexeme : IsLexeme kind text) : StartsVisible text := by
  obtain ⟨character, rest, textEq, opens⟩ := lexeme.exists_cons
  exact ⟨character, rest, textEq, opens.visible⟩

theorem StartsUnsigned.startsVisible {text : List Char} (starts : StartsUnsigned text) :
    StartsVisible text := by
  obtain ⟨number, later, isUnsigned, rfl⟩ := starts
  have lexeme : IsLexeme .value number := .value (.number (.unsigned isUnsigned))
  exact lexeme.startsVisible.append later

theorem not_startsUnsigned_of_allBlank {text : List Char} (blank : AllBlank text) :
    ¬ StartsUnsigned text := by
  intro starts
  exact starts.startsVisible.not_allBlank blank

theorem not_startsUnsigned_of_gap {gap : List Char} (blank : AllBlank gap) (nonempty : gap ≠ [])
    (rest : List Char) : ¬ StartsUnsigned (gap ++ rest) := by
  intro starts
  obtain ⟨character, gap, rfl⟩ := List.exists_cons_of_ne_nil nonempty
  have isBlank := blank character List.mem_cons_self
  exact not_startsVisible_cons isBlank starts.startsVisible

theorem IsDigits.singleton {digit : Char} (isDigit : digit.isDigit = true) : IsDigits [digit] :=
  ⟨List.cons_ne_nil digit [], by simpa using isDigit⟩

theorem IsDigits.append {first second : List Char} (isFirst : IsDigits first)
    (isSecond : IsDigits second) : IsDigits (first ++ second) := by
  refine ⟨List.append_ne_nil_of_left_ne_nil isFirst.1 second, ?_⟩
  intro character member
  rcases List.mem_append.mp member with inFirst | inSecond
  · exact isFirst.2 character inFirst
  · exact isSecond.2 character inSecond

theorem IsDigits.not_point_mem {text : List Char} (isDigits : IsDigits text) : '.' ∉ text := by
  intro member
  exact absurd (isDigits.2 '.' member) (by decide)

/-- The text is the least by which a number can grow: a digit, or a point and a digit. -/
def IsGrowth (text : List Char) : Prop :=
  ∃ digit : Char, digit.isDigit = true ∧ (text = [digit] ∨ text = ['.', digit])

theorem IsGrowth.isUnsigned {text : List Char} (growth : IsGrowth text) : IsUnsigned text := by
  obtain ⟨digit, isDigit, rfl | rfl⟩ := growth
  · exact .whole (.singleton isDigit)
  · exact .fraction (.singleton isDigit)

/-- A longer number that begins with a row of digits grows by a digit or by a point and a digit. -/
theorem IsUnsigned.growth_of_digits {digits more : List Char} (isDigits : IsDigits digits)
    (nonempty : more ≠ []) (longer : IsUnsigned (digits ++ more)) :
    ∃ short later, more = short ++ later ∧ IsGrowth short ∧ IsUnsigned (digits ++ short) := by
  obtain ⟨first, others, rfl⟩ := List.exists_cons_of_ne_nil nonempty
  generalize whole : digits ++ first :: others = text at longer
  cases longer with
  | whole allDigits =>
      have isDigit : first.isDigit = true := allDigits.2 first (by simp [← whole])
      exact ⟨[first], others, rfl, ⟨first, isDigit, Or.inl rfl⟩,
        .whole (isDigits.append (.singleton isDigit))⟩
  | @decimal wholeDigits fraction isWhole isFraction =>
      rcases List.append_eq_append_iff.mp whole with ⟨between, rfl, split⟩ | ⟨between, split, rest⟩
      · cases between with
        | nil =>
            obtain ⟨rfl, rfl⟩ := List.cons.inj split
            obtain ⟨digit, later, rfl, isDigit⟩ := isFraction.exists_cons
            exact ⟨['.', digit], later, rfl, ⟨digit, isDigit, Or.inr rfl⟩,
              .decimal isDigits (.singleton isDigit)⟩
        | cons next between =>
            obtain ⟨rfl, rfl⟩ := List.cons.inj split
            have isDigit : first.isDigit = true := isWhole.2 first (by simp)
            exact ⟨[first], _, rfl, ⟨first, isDigit, Or.inl rfl⟩,
              .whole (isDigits.append (.singleton isDigit))⟩
      · cases between with
        | nil =>
            obtain ⟨rfl, rfl⟩ := List.cons.inj rest
            obtain ⟨digit, later, rfl, isDigit⟩ := isFraction.exists_cons
            exact ⟨['.', digit], later, rfl, ⟨digit, isDigit, Or.inr rfl⟩,
              .decimal isDigits (.singleton isDigit)⟩
        | cons next between =>
            have isPoint := (List.cons.inj rest).1
            exact absurd (by simp [split, ← isPoint]) isDigits.not_point_mem
  | fraction isFraction =>
      obtain ⟨digit, later, rfl, isDigit⟩ := isDigits.exists_cons
      obtain ⟨rfl, _⟩ := List.cons.inj whole
      exact absurd isDigit (by decide)

/-- Behind its point a number can only grow by digits. -/
theorem IsUnsigned.growth_of_point {whole fraction more : List Char}
    (isWhole : whole = [] ∨ IsDigits whole) (isFraction : IsDigits fraction)
    (nonempty : more ≠ []) (longer : IsUnsigned (whole ++ '.' :: (fraction ++ more))) :
    ∃ digit later, more = digit :: later ∧ digit.isDigit = true ∧
      IsUnsigned (whole ++ '.' :: (fraction ++ [digit])) := by
  have noPoint : '.' ∉ whole := by
    rcases isWhole with rfl | isDigits
    · exact List.not_mem_nil
    · exact isDigits.not_point_mem
  have digitsBehind : IsDigits (fraction ++ more) := by
    generalize same : whole ++ '.' :: (fraction ++ more) = text at longer
    cases longer with
    | whole allDigits => exact absurd (by simp [← same]) allDigits.not_point_mem
    | decimal isWhole' isFraction' =>
        have cut := cut_unique noPoint isWhole'.not_point_mem same
        exact cut.2 ▸ isFraction'
    | @fraction fraction' isFraction' =>
        have cut := cut_unique noPoint (List.not_mem_nil : '.' ∉ []) same
        exact cut.2 ▸ isFraction'
  obtain ⟨digit, later, rfl⟩ := List.exists_cons_of_ne_nil nonempty
  have isDigit : digit.isDigit = true := digitsBehind.2 digit (by simp)
  refine ⟨digit, later, rfl, isDigit, ?_⟩
  have grown := isFraction.append (.singleton isDigit)
  rcases isWhole with rfl | isDigits
  · exact .fraction grown
  · exact .decimal isDigits grown

theorem IsUnsigned.growth {text more : List Char} (isUnsigned : IsUnsigned text)
    (nonempty : more ≠ []) (longer : IsUnsigned (text ++ more)) :
    ∃ short later, more = short ++ later ∧ IsGrowth short ∧ IsUnsigned (text ++ short) := by
  cases isUnsigned with
  | whole isDigits => exact growth_of_digits isDigits nonempty longer
  | @decimal whole fraction isDigits isFraction =>
      rw [List.append_assoc, List.cons_append] at longer
      obtain ⟨digit, later, rfl, isDigit, grown⟩ :=
        growth_of_point (Or.inr isDigits) isFraction nonempty longer
      refine ⟨[digit], later, rfl, ⟨digit, isDigit, Or.inl rfl⟩, ?_⟩
      simpa using grown
  | @fraction fraction isFraction =>
      obtain ⟨digit, later, rfl, isDigit, grown⟩ :=
        growth_of_point (Or.inl rfl) isFraction nonempty longer
      exact ⟨[digit], later, rfl, ⟨digit, isDigit, Or.inl rfl⟩, grown⟩

theorem IsUnsigned.minus_not_head {text : List Char} : ¬ IsUnsigned ('-' :: text) := by
  intro isUnsigned
  obtain ⟨character, rest, same, isDigit | rfl⟩ := isUnsigned.exists_cons
  · obtain ⟨rfl, _⟩ := List.cons.inj same
    exact absurd isDigit (by decide)
  · exact absurd (List.cons.inj same).1 (by decide)

/-- A number that is the beginning of a longer one can grow by the least step towards it. -/
theorem IsNumber.growth {text more : List Char} (isNumber : IsNumber text) (nonempty : more ≠ [])
    (longer : IsNumber (text ++ more)) :
    ∃ short later, more = short ++ later ∧ IsGrowth short ∧ IsNumber (text ++ short) := by
  cases isNumber with
  | unsigned isUnsigned =>
      have longerUnsigned : IsUnsigned (text ++ more) := by
        generalize same : text ++ more = whole at longer
        cases longer with
        | unsigned isWhole => exact isWhole
        | negative isWhole =>
            obtain ⟨character, rest, rfl, _⟩ := isUnsigned.exists_cons
            obtain ⟨rfl, _⟩ := List.cons.inj same
            exact absurd isUnsigned IsUnsigned.minus_not_head
      obtain ⟨short, later, split, growth, grown⟩ := isUnsigned.growth nonempty longerUnsigned
      exact ⟨short, later, split, growth, .unsigned grown⟩
  | @negative text isUnsigned =>
      have longerUnsigned : IsUnsigned (text ++ more) := by
        generalize same : '-' :: text ++ more = whole at longer
        cases longer with
        | unsigned isWhole => exact absurd (same ▸ isWhole) IsUnsigned.minus_not_head
        | @negative digits isWhole =>
            have tails : text ++ more = digits := (List.cons.inj same).2
            rw [tails]
            exact isWhole
      obtain ⟨short, later, split, growth, grown⟩ := isUnsigned.growth nonempty longerUnsigned
      exact ⟨short, later, split, growth, .negative grown⟩

theorem IsValue.isNumber {character : Char} {rest : List Char} (isValue : IsValue (character :: rest))
    (opening : character.isDigit = true ∨ character = '.' ∨ character = '-') :
    IsNumber (character :: rest) := by
  generalize same : character :: rest = whole at isValue
  cases isValue with
  | number isNumber => exact isNumber
  | doubleQuoted enclosed =>
      cases enclosed
      obtain ⟨rfl, _⟩ := List.cons.inj same
      exact absurd opening (by decide)
  | singleQuoted enclosed =>
      cases enclosed
      obtain ⟨rfl, _⟩ := List.cons.inj same
      exact absurd opening (by decide)
  | list enclosed =>
      cases enclosed
      obtain ⟨rfl, _⟩ := List.cons.inj same
      exact absurd opening (by decide)

theorem IsValue.isNumber_of_append {text more : List Char} (isNumber : IsNumber text)
    (isValue : IsValue (text ++ more)) : IsNumber (text ++ more) := by
  obtain ⟨character, rest, rfl, opening⟩ := isNumber.exists_cons
  exact isValue.isNumber opening

end Lexical
end FieldRules
