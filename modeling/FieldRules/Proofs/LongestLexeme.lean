import FieldRules.Lexeme.Pattern
import FieldRules.Proofs.LexicalForms
import FieldRules.Proofs.RecogniserLaws

/-!
# The pattern table finds the longest lexeme

The patterns are tried one after the other, and a recogniser never looks back.  Both could make the
table miss a lexeme.  This file proves that they do not: what the table finds has a lexical form,
and it begins with every lexeme that the text begins with.  All forms but the number are found
exactly, whatever follows them, and a number is found exactly unless more of a number follows it.
-/

namespace FieldRules

namespace Pattern

open Recogniser Lexical

theorem digits_append {text : List Char} (isDigits : IsDigits text) (rest : List Char) :
    digits (text ++ rest) =
      some (text ++ rest.takeWhile Char.isDigit, rest.dropWhile Char.isDigit) := by
  have filled : text ++ rest.takeWhile Char.isDigit ≠ [] := by
    simp [isDigits.1]
  apply nonempty_of_some _ filled
  simp [run, List.takeWhile_append_of_pos isDigits.2, List.dropWhile_append_of_pos isDigits.2]

theorem digits_sound {input lexeme rest : List Char}
    (accepted : digits input = some (lexeme, rest)) : IsDigits lexeme :=
  ⟨advances_digits accepted, run_sound (nonempty_sound accepted)⟩

theorem digits_of_not_isDigit {character : Char} (notDigit : character.isDigit = false)
    (rest : List Char) : digits (character :: rest) = none := by
  simp [digits, Recogniser.nonempty, run, notDigit]

theorem fraction_append {text : List Char} (isDigits : IsDigits text) (rest : List Char) :
    fraction ('.' :: (text ++ rest)) =
      some ('.' :: (text ++ rest.takeWhile Char.isDigit), rest.dropWhile Char.isDigit) :=
  andThen_of_some (word_append ['.'] (text ++ rest)) (digits_append isDigits rest)

theorem fraction_sound {input lexeme rest : List Char}
    (accepted : fraction input = some (lexeme, rest)) :
    ∃ text, lexeme = '.' :: text ∧ IsDigits text := by
  obtain ⟨point, middle, text, found, finished, rfl⟩ := andThen_eq_some accepted
  rw [word_sound found]
  exact ⟨text, rfl, digits_sound finished⟩

def unsigned : Recogniser :=
  (digits.andThen fraction.optional).orElse fraction

theorem number_eq : number = (word ['-']).optional.andThen unsigned := rfl

theorem unsigned_sound {input lexeme rest : List Char}
    (accepted : unsigned input = some (lexeme, rest)) : IsUnsigned lexeme := by
  rcases orElse_sound accepted with found | found
  · obtain ⟨whole, middle, ending, foundWhole, finished, rfl⟩ := andThen_eq_some found
    have isDigits := digits_sound foundWhole
    rcases optional_sound finished with foundFraction | rfl
    · obtain ⟨text, rfl, isFraction⟩ := fraction_sound foundFraction
      exact .decimal isDigits isFraction
    · rw [List.append_nil]
      exact .whole isDigits
  · obtain ⟨text, rfl, isFraction⟩ := fraction_sound found
    exact .fraction isFraction

theorem takeWhile_isDigit_of_not_startsUnsigned {rest : List Char}
    (stops : ¬ StartsUnsigned rest) : rest.takeWhile Char.isDigit = [] := by
  apply Classical.byContradiction
  intro nonempty
  have isDigits : IsDigits (rest.takeWhile Char.isDigit) :=
    ⟨nonempty, List.all_eq_true.mp List.all_takeWhile⟩
  exact stops ⟨_, rest.dropWhile Char.isDigit, .whole isDigits,
    List.takeWhile_append_dropWhile.symm⟩

theorem fraction_of_not_startsUnsigned {rest : List Char} (stops : ¬ StartsUnsigned rest) :
    fraction rest = none := by
  cases attempt : fraction rest with
  | none => rfl
  | some found =>
      obtain ⟨text, isPoint, isFraction⟩ := fraction_sound attempt
      have split := splits_fraction attempt
      rw [isPoint] at split
      exact absurd ⟨_, found.2, .fraction isFraction, split.symm⟩ stops

/-- A number without a sign is found at least as far as it goes, and no further unless more of a
number follows it. -/
theorem unsigned_append {text : List Char} (isUnsigned : IsUnsigned text) (rest : List Char) :
    ∃ longer later, unsigned (text ++ rest) = some (text ++ longer, later) ∧
      (¬ StartsUnsigned rest → longer = []) := by
  cases isUnsigned with
  | whole isDigits =>
      obtain ⟨ending, later, foundEnding⟩ :=
        exists_optional fraction (rest.dropWhile Char.isDigit)
      have found := andThen_of_some (digits_append isDigits rest) foundEnding
      refine ⟨rest.takeWhile Char.isDigit ++ ending, later, ?_, ?_⟩
      · rw [unsigned, orElse_of_some found, List.append_assoc]
      · intro stops
        have noDigits := takeWhile_isDigit_of_not_startsUnsigned stops
        have unchanged := List.takeWhile_append_dropWhile (p := Char.isDigit) (l := rest)
        rw [noDigits, List.nil_append] at unchanged
        have noFraction := optional_of_none (fraction_of_not_startsUnsigned stops)
        rw [unchanged, noFraction] at foundEnding
        cases foundEnding
        rw [noDigits, List.append_nil]
  | @decimal whole fractional isDigits isFraction =>
      have foundWhole := digits_append isDigits ('.' :: (fractional ++ rest))
      have foundFraction := optional_of_some (fraction_append isFraction rest)
      have found : digits.andThen fraction.optional (whole ++ '.' :: (fractional ++ rest)) =
          some (whole ++ '.' :: (fractional ++ rest.takeWhile Char.isDigit),
            rest.dropWhile Char.isDigit) := by
        simpa using andThen_of_some foundWhole foundFraction
      refine ⟨rest.takeWhile Char.isDigit, rest.dropWhile Char.isDigit, ?_,
        takeWhile_isDigit_of_not_startsUnsigned⟩
      simpa [unsigned] using orElse_of_some found
  | @fraction fractional isFraction =>
      have noDigits : digits ('.' :: (fractional ++ rest)) = none :=
        digits_of_not_isDigit (by decide) _
      refine ⟨rest.takeWhile Char.isDigit, rest.dropWhile Char.isDigit, ?_,
        takeWhile_isDigit_of_not_startsUnsigned⟩
      rw [unsigned, List.cons_append, orElse_of_none (andThen_of_none noDigits)]
      exact fraction_append isFraction rest

theorem number_sound {input lexeme rest : List Char}
    (accepted : number input = some (lexeme, rest)) : IsNumber lexeme := by
  rw [number_eq] at accepted
  obtain ⟨sign, middle, text, foundSign, finished, rfl⟩ := andThen_eq_some accepted
  have isUnsigned := unsigned_sound finished
  rcases optional_sound foundSign with minus | rfl
  · rw [word_sound minus]
    exact .negative isUnsigned
  · exact .unsigned isUnsigned

theorem number_append {text : List Char} (isNumber : IsNumber text) (rest : List Char) :
    ∃ longer later, number (text ++ rest) = some (text ++ longer, later) ∧
      (¬ StartsUnsigned rest → longer = []) := by
  cases isNumber with
  | unsigned isUnsigned =>
      obtain ⟨character, others, begins, opening⟩ := isUnsigned.exists_cons
      have notMinus : '-' ≠ character := by
        rintro rfl
        rcases opening with isDigit | isPoint
        · exact absurd isDigit (by decide)
        · exact absurd isPoint (by decide)
      have noSign : (word ['-']).optional (text ++ rest) = some ([], text ++ rest) := by
        rw [begins]
        exact optional_of_none (word_cons_of_ne notMinus [] (others ++ rest))
      obtain ⟨longer, later, found, exactly⟩ := unsigned_append isUnsigned rest
      have foundBoth := andThen_of_some noSign found
      exact ⟨longer, later, foundBoth, exactly⟩
  | @negative text isUnsigned =>
      have sign := optional_of_some (word_append ['-'] (text ++ rest))
      obtain ⟨longer, later, found, exactly⟩ := unsigned_append isUnsigned rest
      have foundBoth := andThen_of_some sign found
      exact ⟨longer, later, foundBoth, exactly⟩

theorem enclosed_sound {opening closing : Char} {input lexeme rest : List Char}
    (accepted : enclosed opening closing input = some (lexeme, rest)) :
    IsEnclosed opening closing lexeme := by
  obtain ⟨start, middle, _, foundStart, finished, rfl⟩ := andThen_eq_some accepted
  obtain ⟨content, after, finish, foundContent, foundFinish, rfl⟩ := andThen_eq_some finished
  rw [word_sound foundStart, word_sound foundFinish]
  exact .intro (not_mem_of_run foundContent)

theorem enclosed_append {opening closing : Char} {text : List Char}
    (isEnclosed : IsEnclosed opening closing text) (rest : List Char) :
    enclosed opening closing (text ++ rest) = some (text, rest) := by
  obtain ⟨notInside⟩ := isEnclosed
  rename_i content
  have foundContent := andThen_of_some (run_append_closing notInside rest)
    (word_append [closing] rest)
  have found := andThen_of_some (word_append [opening] (content ++ closing :: rest)) foundContent
  simpa [enclosed] using found

theorem fieldReference_sound {input lexeme rest : List Char}
    (accepted : fieldReference input = some (lexeme, rest)) :
    ∃ name, lexeme = Lexical.fieldReference name ∧ IsFieldName name := by
  obtain ⟨start, middle, _, foundStart, finished, rfl⟩ := andThen_eq_some accepted
  obtain ⟨name, after, finish, foundName, foundFinish, rfl⟩ := andThen_eq_some finished
  rw [word_sound foundStart, word_sound foundFinish]
  refine ⟨name, by simp [Lexical.fieldReference, Token.fieldOpening, Token.fieldClosing], ?_⟩
  exact ⟨advances_nonempty _ foundName, not_mem_of_run (nonempty_sound foundName)⟩

theorem fieldReference_append {name : List Char} (isName : IsFieldName name) (rest : List Char) :
    fieldReference (Lexical.fieldReference name ++ rest) =
      some (Lexical.fieldReference name, rest) := by
  have foundName := nonempty_of_some (run_append_closing isName.2 (')' :: rest)) isName.1
  have foundEnd := andThen_of_some foundName (word_append Token.fieldClosing rest)
  have found := andThen_of_some
    (word_append Token.fieldOpening (name ++ '"' :: ')' :: rest)) foundEnd
  simpa [fieldReference, Lexical.fieldReference, Token.fieldOpening, Token.fieldClosing] using found

theorem enclosed_of_ne {opening character : Char} (different : opening ≠ character)
    (closing : Char) (rest : List Char) : enclosed opening closing (character :: rest) = none :=
  andThen_of_none (word_cons_of_ne different [] rest)

/-- A value is found at least as far as it goes, and exactly unless it is a number that goes on. -/
theorem literal_append {text : List Char} (isValue : IsValue text) (rest : List Char) :
    ∃ longer later, literal (text ++ rest) = some (text ++ longer, later) ∧
      (¬ Continues text rest → longer = []) := by
  cases isValue with
  | doubleQuoted enclosedText =>
      refine ⟨[], rest, ?_, fun _ => rfl⟩
      rw [List.append_nil]
      exact orElse_of_some (enclosed_append enclosedText rest)
  | singleQuoted enclosedText =>
      refine ⟨[], rest, ?_, fun _ => rfl⟩
      have notDouble : enclosed '"' '"' (text ++ rest) = none := by
        cases enclosedText
        exact enclosed_of_ne (by decide) _ _
      rw [List.append_nil, literal, orElse_of_none notDouble]
      exact orElse_of_some (enclosed_append enclosedText rest)
  | list enclosedText =>
      refine ⟨[], rest, ?_, fun _ => rfl⟩
      have found := enclosed_append enclosedText rest
      obtain ⟨notInside⟩ := enclosedText
      rename_i content
      have notNumber : number ('(' :: (content ++ [')'] ++ rest)) = none := rfl
      rw [List.append_nil, literal, List.cons_append, orElse_of_none (enclosed_of_ne (by decide) _ _),
        orElse_of_none (enclosed_of_ne (by decide) _ _), orElse_of_none notNumber]
      exact found
  | number isNumber =>
      obtain ⟨longer, later, found, exactly⟩ := number_append isNumber rest
      refine ⟨longer, later, ?_, fun stops => exactly fun starts => stops ⟨isNumber, starts⟩⟩
      obtain ⟨character, others, rfl, opening⟩ := isNumber.exists_cons
      have notDouble : '"' ≠ character := by
        rintro rfl
        revert opening
        decide
      have notSingle : '\x27' ≠ character := by
        rintro rfl
        revert opening
        decide
      rw [List.cons_append] at found ⊢
      rw [literal, orElse_of_none (enclosed_of_ne notDouble _ _),
        orElse_of_none (enclosed_of_ne notSingle _ _), orElse_of_some found]

theorem literal_sound {input lexeme rest : List Char}
    (accepted : literal input = some (lexeme, rest)) : IsValue lexeme := by
  rcases orElse_sound accepted with found | found
  · exact .doubleQuoted (enclosed_sound found)
  rcases orElse_sound found with found | found
  · exact .singleQuoted (enclosed_sound found)
  rcases orElse_sound found with found | found
  · exact .number (number_sound found)
  · exact .list (enclosed_sound found)

theorem keywords_sound {words : List String} {input lexeme rest : List Char}
    (accepted : oneOf (words.map String.toList) input = some (lexeme, rest)) :
    ∃ keyword ∈ words, lexeme = keyword.toList := by
  obtain ⟨expected, member, found⟩ := List.exists_of_findSome?_eq_some accepted
  obtain ⟨keyword, listed, rfl⟩ := List.mem_map.mp member
  exact ⟨keyword, listed, word_sound found⟩

theorem table_sound {pattern : Pattern} (listed : pattern ∈ table) {input lexeme rest : List Char}
    (accepted : pattern.recognise input = some (lexeme, rest)) : IsLexeme pattern.kind lexeme := by
  simp only [table, List.mem_cons, List.not_mem_nil, or_false] at listed
  rcases listed with rfl | rfl | rfl | rfl | rfl
  · obtain ⟨name, rfl, isName⟩ := fieldReference_sound accepted
    exact .field isName
  · obtain ⟨keyword, known, rfl⟩ := keywords_sound accepted
    exact .condition known
  · exact .value (literal_sound accepted)
  · obtain ⟨keyword, known, rfl⟩ := keywords_sound accepted
    exact .logical known
  · rw [word_sound accepted]
    exact .separator

theorem fieldReference_of_opensValue {character : Char} (opens : OpensValue character)
    (rest : List Char) : fieldReference (character :: rest) = none := by
  have different : 'F' ≠ character := by
    rintro rfl
    exact absurd opens (by decide)
  exact andThen_of_none (word_cons_of_ne different _ rest)

theorem conditionKeyword_of_opensValue {character : Char} (opens : OpensValue character)
    (rest : List Char) :
    oneOf (conditionKeywords.map String.toList) (character :: rest) = none := by
  have different : ∀ first ∈ ['T', 'R', 'M', 'I'], first ≠ character := by
    rintro first listed rfl
    simp only [List.mem_cons, List.not_mem_nil, or_false] at listed
    rcases listed with rfl | rfl | rfl | rfl <;> exact absurd opens (by decide)
  simp [oneOf, conditionKeywords, word_cons_of_ne, different]

end Pattern

namespace Lexeme

open Pattern Lexical

/-- What the table finds has the form of its kind. -/
theorem first?_sound {input : List Char} {lexeme : Lexeme}
    (found : first? table input = some lexeme) : IsLexeme lexeme.kind lexeme.text := by
  obtain ⟨pattern, listed, accepted⟩ := List.exists_of_findSome?_eq_some found
  simp only [Pattern.lexeme?, Option.map_eq_some_iff, Prod.exists] at accepted
  obtain ⟨text, rest, recognised, rfl⟩ := accepted
  exact table_sound listed recognised

/-- On a text that begins with a lexeme, the table finds a lexeme of the same kind that is at least
as long, and exactly that lexeme unless more of a number follows it. -/
theorem first?_append {kind : TokenKind} {text : List Char} (lexeme : IsLexeme kind text)
    (rest : List Char) :
    ∃ longer later, first? table (text ++ rest) = some ⟨kind, text ++ longer, later⟩ ∧
      (¬ Continues text rest → longer = []) := by
  cases lexeme with
  | @field name isName =>
      refine ⟨[], rest, ?_, fun _ => rfl⟩
      have found := fieldReference_append isName rest
      simp [first?, table, lexeme?, Pattern.field, found]
  | condition listed =>
      refine ⟨[], rest, ?_, fun _ => rfl⟩
      rw [List.append_nil]
      simp only [List.mem_cons, List.not_mem_nil, or_false] at listed
      rcases listed with rfl | rfl | rfl | rfl | rfl <;> rfl
  | value isValue =>
      obtain ⟨longer, later, found, exactly⟩ := literal_append isValue rest
      refine ⟨longer, later, ?_, exactly⟩
      obtain ⟨character, others, rfl, opens⟩ := isValue.exists_cons
      have notField := fieldReference_of_opensValue opens (others ++ rest)
      have notCondition := conditionKeyword_of_opensValue opens (others ++ rest)
      rw [List.cons_append] at found ⊢
      simp [first?, table, lexeme?, Pattern.field, Pattern.condition, keywords, Pattern.value,
        notField, notCondition, found]
  | logical listed =>
      refine ⟨[], rest, ?_, fun _ => rfl⟩
      rw [List.append_nil]
      simp only [List.mem_cons, List.not_mem_nil, or_false] at listed
      rcases listed with rfl | rfl | rfl <;> rfl
  | separator => exact ⟨[], rest, rfl, fun _ => rfl⟩

theorem first?_exact {kind : TokenKind} {text : List Char} (lexeme : IsLexeme kind text)
    {rest : List Char} (stops : ¬ Continues text rest) :
    first? table (text ++ rest) = some ⟨kind, text, rest⟩ := by
  obtain ⟨longer, later, found, exactly⟩ := first?_append lexeme rest
  rw [exactly stops, List.append_nil] at found
  have split : text ++ later = text ++ rest := (first?_splits found).1
  rw [found, List.append_cancel_left split]

theorem eq_nil_of_first? {kind kind' : TokenKind} {text longer rest later : List Char}
    (found : first? table (text ++ rest) = some ⟨kind, text, rest⟩)
    (split : rest = longer ++ later) (lexeme : IsLexeme kind' (text ++ longer)) : longer = [] := by
  obtain ⟨longest, after, foundLonger, _⟩ := first?_append lexeme later
  rw [List.append_assoc, ← split, found] at foundLonger
  have same : text = text ++ longer ++ longest := congrArg Lexeme.text (Option.some.inj foundLonger)
  have lengths := congrArg List.length same
  simp only [List.length_append] at lengths
  exact List.eq_nil_of_length_eq_zero (by omega)

/-- Text may be cut off anywhere behind a lexeme. -/
theorem first?_cut {kind : TokenKind} {text rest more : List Char}
    (found : first? table (text ++ (rest ++ more)) = some ⟨kind, text, rest ++ more⟩) :
    first? table (text ++ rest) = some ⟨kind, text, rest⟩ := by
  obtain ⟨longer, later, foundCut, _⟩ := first?_append (first?_sound found) rest
  have split : text ++ longer ++ later = text ++ rest := (first?_splits foundCut).1
  rw [List.append_assoc] at split
  have splitRest := List.append_cancel_left split
  have nothing : longer = [] := by
    apply eq_nil_of_first? found _ (first?_sound foundCut)
    · exact later ++ more
    · rw [← splitRest, List.append_assoc]
  subst nothing
  rw [foundCut, ← splitRest, List.append_nil, List.nil_append]

theorem first?_ne_none_of_startsUnsigned {text : List Char} (starts : StartsUnsigned text) :
    first? table text ≠ none := by
  obtain ⟨number, later, isUnsigned, rfl⟩ := starts
  obtain ⟨longer, after, found, _⟩ := first?_append (.value (.number (.unsigned isUnsigned))) later
  rw [found]
  exact Option.some_ne_none _

theorem kind_unique {kind kind' : TokenKind} {text : List Char} (lexeme : IsLexeme kind text)
    (lexeme' : IsLexeme kind' text) : kind = kind' := by
  obtain ⟨_, _, found, _⟩ := first?_append lexeme []
  obtain ⟨_, _, found', _⟩ := first?_append lexeme' []
  rw [found] at found'
  exact congrArg Lexeme.kind (Option.some.inj found')

/-- What grows by a longer number would have grown in the shorter text already. -/
theorem growth_of_first? {kind : TokenKind} {text rest more short later : List Char}
    (found : first? table (text ++ rest) = some ⟨kind, text, rest⟩)
    (growth : IsGrowth short) (grown : IsNumber (text ++ short))
    (split : rest ++ more = short ++ later) : rest = ['.'] ∨ rest = [] := by
  have absent : ∀ others, rest ≠ short ++ others := by
    intro others splitRest
    have nothing := eq_nil_of_first? found splitRest (.value (.number grown))
    subst nothing
    obtain ⟨character, tail, same, _⟩ := growth.isUnsigned.exists_cons
    exact List.cons_ne_nil _ _ same.symm
  cases rest with
  | nil => exact Or.inr rfl
  | cons first others =>
      left
      obtain ⟨digit, isDigit, rfl | rfl⟩ := growth
      · obtain ⟨rfl, _⟩ := List.cons.inj split
        exact absurd rfl (absent others)
      · obtain ⟨rfl, splitOthers⟩ := List.cons.inj split
        cases others with
        | nil => rfl
        | cons second others =>
            obtain ⟨rfl, _⟩ := List.cons.inj splitOthers
            exact absurd rfl (absent others)

/-- Text may be added behind a lexeme unless it makes a number longer.  A point alone behind the
lexeme is excluded, since a digit could be added to it. -/
theorem first?_extend {kind : TokenKind} {text rest more : List Char}
    (found : first? table (text ++ rest) = some ⟨kind, text, rest⟩)
    (notPoint : rest ≠ ['.']) (stops : rest = [] → ¬ StartsUnsigned more) :
    first? table (text ++ (rest ++ more)) = some ⟨kind, text, rest ++ more⟩ := by
  have lexeme := first?_sound found
  obtain ⟨longer, later, foundLonger, exactly⟩ := first?_append lexeme (rest ++ more)
  have split : text ++ longer ++ later = text ++ (rest ++ more) := (first?_splits foundLonger).1
  rw [List.append_assoc] at split
  have splitRest := List.append_cancel_left split
  have nothing : longer = [] := by
    apply Classical.byContradiction
    intro nonempty
    have isNumber : IsNumber text := (Classical.not_not.mp (mt exactly nonempty)).1
    obtain rfl : kind = .value := kind_unique lexeme (.value (.number isNumber))
    cases first?_sound foundLonger with
    | value isValue =>
        obtain ⟨short, behind, rfl, growth, grown⟩ :=
          isNumber.growth nonempty (isValue.isNumber_of_append isNumber)
        rw [List.append_assoc] at splitRest
        rcases growth_of_first? found growth grown splitRest.symm with isPoint | rfl
        · exact notPoint isPoint
        · exact stops rfl ⟨short, behind ++ later, growth.isUnsigned, splitRest.symm⟩
  subst nothing
  rw [foundLonger, ← splitRest, List.append_nil, List.nil_append]

end Lexeme
end FieldRules
