import FieldRules.Lexeme.Recogniser
import FieldRules.Token

/-!
# The pattern table

A pattern pairs a kind of token with a recogniser of its lexemes.  The table lists the five patterns
of the rule language, and the first one that accepts the beginning of a text decides what stands
there.  No pattern accepts the empty text, so every match makes the rest shorter.

Keywords match as they stand, whatever follows them: `RANGE18` begins with the keyword `RANGE`.
-/

namespace FieldRules

structure Pattern where
  kind : TokenKind
  recognise : Recogniser
  /-- Reading a lexeme only cuts the text in two. -/
  splits : recognise.Splits
  advances : recognise.Advances

/-- What a pattern finds at the beginning of a text. -/
structure Lexeme where
  kind : TokenKind
  text : List Char
  rest : List Char
  deriving DecidableEq, Repr

namespace Pattern

open Recogniser

def conditionKeywords : List String := ["TYPE", "RANGE", "MATCHES", "IN", "REQUIRED"]

def logicalKeywords : List String := ["AND", "OR", "NOT"]

def enclosed (opening closing : Char) : Recogniser :=
  (word [opening]).andThen ((run (· != closing)).andThen (word [closing]))

def digits : Recogniser :=
  (run Char.isDigit).nonempty

def fraction : Recogniser :=
  (word ['.']).andThen digits

/-- Reads a number: an optional sign, then digits with an optional fraction or a fraction alone. -/
def number : Recogniser :=
  (word ['-']).optional.andThen ((digits.andThen fraction.optional).orElse fraction)

/-- Reads a field reference, whose name is not empty and holds no quotation mark. -/
def fieldReference : Recogniser :=
  (word Token.fieldOpening).andThen
    ((run (· != '"')).nonempty.andThen (word Token.fieldClosing))

/-- Reads a value: a quoted text, a number or a list in parentheses. -/
def literal : Recogniser :=
  (enclosed '"' '"').orElse
    ((enclosed '\x27' '\x27').orElse (number.orElse (enclosed '(' ')')))

theorem splits_enclosed (opening closing : Char) : Splits (enclosed opening closing) :=
  splits_andThen (splits_word _) (splits_andThen (splits_run _) (splits_word _))

theorem advances_enclosed (opening closing : Char) : Advances (enclosed opening closing) :=
  advances_andThen (advances_word (by simp))

theorem splits_digits : Splits digits :=
  splits_nonempty (splits_run _)

theorem advances_digits : Advances digits :=
  advances_nonempty _

theorem splits_fraction : Splits fraction :=
  splits_andThen (splits_word _) splits_digits

theorem advances_fraction : Advances fraction :=
  advances_andThen (advances_word (by simp))

theorem splits_number : Splits number :=
  splits_andThen (splits_optional (splits_word _))
    (splits_orElse (splits_andThen splits_digits (splits_optional splits_fraction)) splits_fraction)

theorem advances_number : Advances number :=
  advances_andThen_right
    (advances_orElse (advances_andThen advances_digits) advances_fraction)

def field : Pattern where
  kind := .field
  recognise := fieldReference
  splits :=
    splits_andThen (splits_word _) (splits_andThen (splits_nonempty (splits_run _)) (splits_word _))
  advances := advances_andThen (advances_word (by simp [Token.fieldOpening]))

def keywords (kind : TokenKind) (words : List String) (nonempty : ∀ entry ∈ words, entry ≠ "") :
    Pattern where
  kind := kind
  recognise := oneOf (words.map String.toList)
  splits := splits_oneOf _
  advances := advances_oneOf (by
    intro expected member
    obtain ⟨entry, listed, rfl⟩ := List.mem_map.mp member
    simpa using nonempty entry listed)

def condition : Pattern := keywords .condition conditionKeywords (by decide)

def value : Pattern where
  kind := .value
  recognise := literal
  splits :=
    splits_orElse (splits_enclosed _ _)
      (splits_orElse (splits_enclosed _ _) (splits_orElse splits_number (splits_enclosed _ _)))
  advances :=
    advances_orElse (advances_enclosed _ _)
      (advances_orElse (advances_enclosed _ _)
        (advances_orElse advances_number (advances_enclosed _ _)))

def logical : Pattern := keywords .logical logicalKeywords (by decide)

def separator : Pattern where
  kind := .separator
  recognise := word [',']
  splits := splits_word _
  advances := advances_word (by simp)

/-- The patterns of the rule language, in the order in which they are tried. -/
def table : List Pattern := [field, condition, value, logical, separator]

def lexeme? (pattern : Pattern) (input : List Char) : Option Lexeme :=
  (pattern.recognise input).map fun (text, rest) => ⟨pattern.kind, text, rest⟩

end Pattern

namespace Lexeme

/-- The lexeme at the beginning of a text, by the first pattern that accepts one. -/
def first? (patterns : List Pattern) (input : List Char) : Option Lexeme :=
  patterns.findSome? fun pattern => pattern.lexeme? input

theorem first?_splits {patterns : List Pattern} {input : List Char} {lexeme : Lexeme}
    (found : first? patterns input = some lexeme) :
    lexeme.text ++ lexeme.rest = input ∧ lexeme.text ≠ [] := by
  obtain ⟨pattern, _, accepted⟩ := List.exists_of_findSome?_eq_some found
  simp only [Pattern.lexeme?, Option.map_eq_some_iff, Prod.exists] at accepted
  obtain ⟨text, rest, recognised, rfl⟩ := accepted
  exact ⟨pattern.splits recognised, pattern.advances recognised⟩

theorem first?_rest_length_lt {patterns : List Pattern} {input : List Char} {lexeme : Lexeme}
    (found : first? patterns input = some lexeme) : lexeme.rest.length < input.length := by
  obtain ⟨joined, nonempty⟩ := first?_splits found
  have positive := List.length_pos_iff.mpr nonempty
  rw [← joined, List.length_append]
  omega

end Lexeme
end FieldRules
