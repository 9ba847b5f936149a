import FieldRules.Proofs.ScanSegments

/-!
# Texts that can be split into lexemes

A scan takes the longest lexeme that it finds and never comes back to that choice.  A text may be
cut into blanks and lexemes in other ways, since a number can be cut in two.  This file proves that
the choice does no harm: what is left behind the longest lexeme can still be split if the whole text
could. So a scan succeeds exactly on the texts that can be split in some way.
-/

namespace FieldRules

open Text Lexical

namespace Lexical

theorem IsDigits.of_cons {digit : Char} {text : List Char} (isDigits : IsDigits (digit :: text))
    (nonempty : text ≠ []) : IsDigits text :=
  ⟨nonempty, fun character member => isDigits.2 character (List.mem_cons_of_mem _ member)⟩

theorem IsUnsigned.of_cons {character : Char} {text : List Char}
    (isUnsigned : IsUnsigned (character :: text)) (nonempty : text ≠ []) : IsUnsigned text := by
  generalize whole : character :: text = number at isUnsigned
  cases isUnsigned with
  | whole isDigits =>
      subst whole
      exact .whole (isDigits.of_cons nonempty)
  | @decimal digits fraction isDigits isFraction =>
      obtain ⟨digit, others, rfl, isDigit⟩ := isDigits.exists_cons
      obtain ⟨_, rfl⟩ := List.cons.inj whole
      cases others with
      | nil => exact .fraction isFraction
      | cons next others => exact .decimal (isDigits.of_cons (List.cons_ne_nil _ _)) isFraction
  | fraction isFraction =>
      obtain ⟨_, rfl⟩ := List.cons.inj whole
      exact .whole isFraction

theorem IsUnsigned.of_append {beginning ending : List Char}
    (isUnsigned : IsUnsigned (beginning ++ ending)) (nonempty : ending ≠ []) :
    IsUnsigned ending := by
  induction beginning with
  | nil => exact isUnsigned
  | cons character beginning induction =>
      exact induction (isUnsigned.of_cons (List.append_ne_nil_of_right_ne_nil _ nonempty))

theorem IsUnsigned.isNumeric {text : List Char} (isUnsigned : IsUnsigned text) :
    ∀ character ∈ text, IsNumeric character := by
  intro character member
  obtain ⟨before, after, rfl⟩ := List.append_of_mem member
  obtain ⟨first, others, same, isNumeric⟩ :=
    (isUnsigned.of_append (List.cons_ne_nil _ _)).exists_cons
  obtain ⟨rfl, _⟩ := List.cons.inj same
  exact isNumeric

/-- Behind its first character a number has digits and points only. -/
theorem IsNumber.isNumeric_of_append {text more : List Char} (nonempty : text ≠ [])
    (isNumber : IsNumber (text ++ more)) : ∀ character ∈ more, IsNumeric character := by
  obtain ⟨first, others, rfl⟩ := List.exists_cons_of_ne_nil nonempty
  intro character member
  generalize whole : first :: others ++ more = number at isNumber
  cases isNumber with
  | unsigned isUnsigned =>
      subst whole
      exact isUnsigned.isNumeric character (List.mem_append_right _ member)
  | negative isUnsigned =>
      obtain ⟨_, rfl⟩ := List.cons.inj whole
      exact isUnsigned.isNumeric character (List.mem_append_right _ member)

theorem IsNumeric.visible {character : Char} (isNumeric : IsNumeric character) :
    isBlank character = false := by
  rcases isNumeric with isDigit | rfl
  · exact isBlank_of_isDigit isDigit
  · decide

/-- A lexeme that begins with a digit or a point is an unsigned number. -/
theorem IsLexeme.isUnsigned {kind : TokenKind} {character : Char} {text : List Char}
    (lexeme : IsLexeme kind (character :: text)) (isNumeric : IsNumeric character) :
    IsUnsigned (character :: text) := by
  obtain rfl := lexeme.kind_of_startsNumeric ⟨character, text, rfl, isNumeric⟩
  cases lexeme with
  | value isValue =>
      have isNumber := isValue.isNumber (isNumeric.imp_right Or.inl)
      generalize same : character :: text = number at isNumber ⊢
      cases isNumber with
      | unsigned isUnsigned => exact isUnsigned
      | negative isUnsigned =>
          obtain ⟨rfl, _⟩ := List.cons.inj same
          exact absurd isNumeric (by decide)

end Lexical

/-- A single blank or a lexeme. -/
inductive IsCell : List Char → Prop
  | blank {character : Char} (isBlank : isBlank character = true) : IsCell [character]
  | lexeme {kind : TokenKind} {text : List Char} (lexeme : Lexical.IsLexeme kind text) :
      IsCell text

theorem IsCell.isUnsigned {character : Char} {text : List Char}
    (isCell : IsCell (character :: text)) (isNumeric : IsNumeric character) :
    IsUnsigned (character :: text) := by
  cases isCell with
  | blank isBlank =>
      rw [isNumeric.visible] at isBlank
      cases isBlank
  | lexeme lexeme => exact lexeme.isUnsigned isNumeric

/-- What is left of a cell when digits and points are cut off in front is a cell. -/
theorem IsCell.of_numeric {front behind : List Char} (isCell : IsCell (front ++ behind))
    (nonempty : behind ≠ []) (isNumeric : ∀ character ∈ front, IsNumeric character) :
    IsCell behind := by
  cases front with
  | nil => exact isCell
  | cons character front =>
      have isUnsigned : IsUnsigned (character :: front ++ behind) :=
        isCell.isUnsigned (isNumeric character List.mem_cons_self)
      exact .lexeme (.value (.number (.unsigned (isUnsigned.of_append nonempty))))

/-- The text consists of blanks and lexemes. -/
def Splittable (text : List Char) : Prop :=
  ∃ cells : List (List Char), (∀ cell ∈ cells, IsCell cell) ∧ text = cells.flatten

namespace Splittable

theorem nil : Splittable [] := ⟨[], by simp, rfl⟩

theorem of_isCell {text : List Char} (isCell : IsCell text) : Splittable text :=
  ⟨[text], by simpa using isCell, by simp⟩

theorem append {first second : List Char} (splitFirst : Splittable first)
    (splitSecond : Splittable second) : Splittable (first ++ second) := by
  obtain ⟨cells, areCells, rfl⟩ := splitFirst
  obtain ⟨others, areCells', rfl⟩ := splitSecond
  refine ⟨cells ++ others, ?_, List.flatten_append.symm⟩
  intro cell member
  rcases List.mem_append.mp member with inFirst | inSecond
  · exact areCells cell inFirst
  · exact areCells' cell inSecond

theorem of_allBlank {gap : List Char} (blank : AllBlank gap) : Splittable gap := by
  induction gap with
  | nil => exact nil
  | cons character gap induction =>
      obtain ⟨isBlank, blankRest⟩ := List.forall_mem_cons.mp blank
      exact (of_isCell (.blank isBlank)).append (induction blankRest)

theorem of_blank_cons {character : Char} {text : List Char} (isBlank : isBlank character = true)
    (splittable : Splittable (character :: text)) : Splittable text := by
  obtain ⟨cells, areCells, split⟩ := splittable
  cases cells with
  | nil => cases split
  | cons cell cells =>
      rw [List.forall_mem_cons] at areCells
      rw [List.flatten_cons] at split
      cases areCells.1 with
      | blank _ =>
          obtain ⟨_, rfl⟩ := List.cons.inj split
          exact ⟨cells, areCells.2, rfl⟩
      | lexeme lexeme =>
          have visible := lexeme.startsVisible.append cells.flatten
          rw [← split] at visible
          exact absurd visible (not_startsVisible_cons isBlank)

theorem of_gap {gap text : List Char} (blank : AllBlank gap)
    (splittable : Splittable (gap ++ text)) : Splittable text := by
  induction gap with
  | nil => exact splittable
  | cons character gap induction =>
      obtain ⟨isBlank, blankRest⟩ := List.forall_mem_cons.mp blank
      exact induction blankRest (splittable.of_blank_cons isBlank)

/-- Digits and points may be cut off in front.  The cells that begin among them are numbers without
a sign, so if one of these is cut in two, its end is such a number again. -/
theorem of_numeric {front text : List Char} (isNumeric : ∀ character ∈ front, IsNumeric character)
    (splittable : Splittable (front ++ text)) : Splittable text := by
  obtain ⟨cells, areCells, split⟩ := splittable
  induction cells generalizing front with
  | nil =>
      obtain ⟨_, rfl⟩ := List.append_eq_nil_iff.mp split
      exact nil
  | cons cell cells induction =>
      obtain ⟨isCell, areLater⟩ := List.forall_mem_cons.mp areCells
      rw [List.flatten_cons] at split
      rcases List.append_eq_append_iff.mp split with ⟨behind, rfl, rfl⟩ | ⟨more, rfl, splitLater⟩
      · have later : Splittable cells.flatten := ⟨cells, areLater, rfl⟩
        by_cases empty : behind = []
        · rw [empty, List.nil_append]
          exact later
        · exact (of_isCell (isCell.of_numeric empty isNumeric)).append later
      · have numericMore : ∀ character ∈ more, IsNumeric character := fun character member =>
          isNumeric character (List.mem_append_right cell member)
        exact induction numericMore areLater splitLater.symm

/-- What stands behind the lexeme that the table finds can be split if the whole text can. -/
theorem of_first? {kind : TokenKind} {lexeme rest : List Char}
    (splittable : Splittable (lexeme ++ rest))
    (found : Lexeme.first? Pattern.table (lexeme ++ rest) = some ⟨kind, lexeme, rest⟩) :
    Splittable rest := by
  have isLexeme := Lexeme.first?_sound found
  obtain ⟨cells, areCells, split⟩ := splittable
  cases cells with
  | nil =>
      obtain ⟨_, rfl⟩ := List.append_eq_nil_iff.mp split
      exact nil
  | cons cell cells =>
      obtain ⟨isCell, areLater⟩ := List.forall_mem_cons.mp areCells
      have later : Splittable cells.flatten := ⟨cells, areLater, rfl⟩
      rw [List.flatten_cons] at split
      cases isCell with
      | blank isBlank =>
          have visible := isLexeme.startsVisible.append rest
          rw [split] at visible
          exact absurd visible (not_startsVisible_cons isBlank)
      | lexeme shortLexeme =>
          obtain ⟨longer, behind, foundShort, exactly⟩ :=
            Lexeme.first?_append shortLexeme cells.flatten
          rw [← split, found] at foundShort
          obtain ⟨rfl, lexemeEq, rfl⟩ := Lexeme.mk.inj (Option.some.inj foundShort)
          rw [lexemeEq] at split isLexeme
          rw [List.append_assoc] at split
          rw [← List.append_cancel_left split] at later
          apply later.of_numeric
          by_cases continues : Continues cell cells.flatten
          · obtain rfl := Lexeme.kind_unique shortLexeme (.value (.number continues.1))
            cases isLexeme with
            | value isValue =>
                have isNumber := isValue.isNumber_of_append continues.1
                exact isNumber.isNumeric_of_append shortLexeme.startsVisible.ne_nil
          · rw [exactly continues]
            exact List.forall_mem_nil _

/-- Segments that are laid before a tail may be cut off in front of it. -/
theorem of_laid {tail : List Char} {position : Position} {segments : List Segment}
    (laid : Segment.Laid tail position segments)
    (splittable : Splittable (Segment.textOf segments ++ tail)) : Splittable tail := by
  induction laid with
  | nil => exact splittable
  | cons place found rest induction =>
      rw [Segment.textOf_cons, List.append_assoc, List.append_assoc] at splittable
      exact induction ((splittable.of_gap (Segment.blank _)).of_first? found)

theorem textOf_laid {tail : List Char} {position : Position} {segments : List Segment}
    (laid : Segment.Laid tail position segments) : Splittable (Segment.textOf segments) := by
  induction laid with
  | nil => exact nil
  | @cons position segment later place found rest induction =>
      have lexeme : IsCell segment.lexeme := .lexeme (Lexeme.first?_sound found)
      rw [Segment.textOf_cons]
      exact (of_allBlank segment.blank).append ((of_isCell lexeme).append induction)

theorem not_refused {rest : List Char} (splittable : Splittable rest)
    (visible : StartsVisible rest) : Lexeme.first? Pattern.table rest ≠ none := by
  intro refused
  obtain ⟨cells, areCells, rfl⟩ := splittable
  cases cells with
  | nil => exact visible.ne_nil rfl
  | cons cell cells =>
      rw [List.flatten_cons] at refused visible
      cases areCells cell List.mem_cons_self with
      | blank isBlank => exact not_startsVisible_cons isBlank visible
      | lexeme lexeme =>
          obtain ⟨_, _, found, _⟩ := Lexeme.first?_append lexeme cells.flatten
          rw [refused] at found
          cases found

end Splittable

/-- A text is scanned to its end exactly if it can be split into blanks and lexemes in some way,
also when the scan splits it in another way. -/
theorem tokenize_succeeds_iff_splittable (source : String) :
    (∃ tokens, tokenize source = .ok tokens) ↔ Splittable source.toList := by
  constructor
  · rintro ⟨tokens, readable⟩
    obtain ⟨segments, ending, split, laid, blank, _⟩ := Segment.exists_laid_of_outcome readable
    rw [split]
    exact (Splittable.textOf_laid laid).append (.of_allBlank blank)
  · intro splittable
    obtain ⟨segments, tail, split, laid, unread⟩ := Segment.exists_laid .start source.toList
    rw [split] at splittable
    have splittableTail := splittable.of_laid laid
    cases unread with
    | blank blank =>
        refine ⟨segments.map Segment.token, ?_⟩
        rw [tokenize, Scan.ofText, split]
        exact laid.outcome_of_allBlank blank
    | refused blank visible refused =>
        exact absurd refused ((splittableTail.of_gap blank).not_refused visible)

/-- The text is also `1`, `.5` and `.5`. -/
example : tokenize "1.5.5" = .ok [⟨.value, "1.5", ⟨0, 1, 0⟩⟩, ⟨.value, ".5", ⟨3, 1, 3⟩⟩] := by
  decide +kernel

end FieldRules
