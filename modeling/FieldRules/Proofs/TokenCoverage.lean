import FieldRules.Proofs.ScanSegments
import Mathlib.Logic.ExistsUnique

/-!
# Scanning loses nothing

The segments of a readable text, with the blanks behind them, make up the text.  From the places of
the segments it follows that the tokens stand one behind the other, and that every character that is
not blank belongs to exactly one of them.
-/

namespace FieldRules

open Text

namespace Token

/-- The number of bytes before the end of a token. -/
def endOffset (token : Token) : Nat :=
  token.position.offset + byteLength token.value.toList

/-- The character that follows the given beginning of the source belongs to the token. -/
def Holds (token : Token) (before : List Char) (character : Char) : Prop :=
  token.position.offset ≤ byteLength before ∧
    byteLength before + character.utf8Size ≤ token.endOffset

end Token

namespace Segment

variable {tail : List Char} {position : Position}

theorem Laid.offset_le {segments : List Segment} (laid : Laid tail position segments)
    {later : Token} (member : later ∈ segments.map token) :
    position.offset ≤ later.position.offset := by
  induction laid with
  | nil => cases member
  | @cons position segment segments place found rest induction =>
      rcases List.mem_cons.mp member with rfl | memberLater
      · rw [place, Position.offset_advance]
        omega
      · have bound := induction memberLater
        rw [Position.offset_advance] at bound
        omega

theorem Laid.ordered {segments : List Segment} (laid : Laid tail position segments) :
    (segments.map token).Pairwise fun earlier later =>
      earlier.endOffset ≤ later.position.offset := by
  induction laid with
  | nil => exact List.Pairwise.nil
  | @cons position segment segments place found rest induction =>
      rw [List.map_cons, List.pairwise_cons]
      refine ⟨?_, induction⟩
      intro later member
      have ends : segment.token.endOffset = (position.advance segment.text).offset := by
        rw [Token.endOffset, place, text, lexeme]
        simp only [Position.offset_advance, byteLength_append]
        omega
      rw [ends]
      exact rest.offset_le member

theorem exists_lexeme_of_visible {segments : List Segment} (blank : AllBlank tail)
    {before after : List Char} {character : Char}
    (split : textOf segments ++ tail = before ++ character :: after)
    (visible : isBlank character = false) :
    ∃ earlier segment later first last, segments = earlier ++ segment :: later ∧
      segment.lexeme = first ++ character :: last ∧
      before = textOf earlier ++ segment.gap ++ first := by
  induction segments generalizing before with
  | nil =>
      rw [textOf_nil, List.nil_append] at split
      rw [blank character (by simp [split])] at visible
      cases visible
  | cons segment segments induction =>
      rw [textOf_cons, List.append_assoc, List.append_assoc] at split
      obtain ⟨inner, rfl, splitInner⟩ := segment.blank.exists_behind visible split
      rcases append_cases splitInner with ⟨last, lexemeEq, _⟩ | ⟨behind, rfl, splitBehind⟩
      · exact ⟨[], segment, segments, inner, last, rfl, lexemeEq, by simp⟩
      · obtain ⟨earlier, found, later, first, last, rfl, lexemeEq, rfl⟩ := induction splitBehind
        refine ⟨segment :: earlier, found, later, first, last, rfl, lexemeEq, ?_⟩
        simp only [textOf_cons, List.append_assoc]

theorem Laid.exists_holds {segments : List Segment} (laid : Laid tail Position.start segments)
    (blank : AllBlank tail) {before after : List Char} {character : Char}
    (split : textOf segments ++ tail = before ++ character :: after)
    (visible : isBlank character = false) :
    ∃ found ∈ segments.map token, found.Holds before character := by
  obtain ⟨earlier, segment, later, first, last, rfl, lexemeEq, rfl⟩ :=
    exists_lexeme_of_visible blank split visible
  obtain ⟨place, _⟩ := laid.of_append
  refine ⟨segment.token, by simp, ?_⟩
  rw [Token.Holds, Token.endOffset, place, ← lexeme, lexemeEq]
  simp only [Position.offset_advance, Position.start, byteLength_append, byteLength_cons]
  omega

end Segment

theorem Token.holds_unique {tokens : List Token}
    (ordered : tokens.Pairwise fun earlier later => earlier.endOffset ≤ later.position.offset)
    {before : List Char} {character : Char} {index index' : Fin tokens.length}
    (holds : tokens[index].Holds before character)
    (holds' : tokens[index'].Holds before character) : index = index' := by
  have positive := Char.utf8Size_pos character
  have notBefore : ∀ first second : Fin tokens.length, tokens[first].Holds before character →
      tokens[second].Holds before character → ¬ first < second := by
    intro first second holdsFirst holdsSecond less
    have apart := List.pairwise_iff_getElem.mp ordered first second first.isLt second.isLt less
    have ends : byteLength before + character.utf8Size ≤ tokens[first].endOffset := holdsFirst.2
    have starts : tokens[second].position.offset ≤ byteLength before := holdsSecond.1
    simp only [Fin.getElem_fin] at ends starts
    omega
  have notLess := notBefore index index' holds holds'
  have notGreater := notBefore index' index holds' holds
  apply Fin.ext
  omega

/-- The tokens of a readable text and the blanks between them make up the text.  Each token stands
at its offset and is what the pattern table finds there, the tokens stand one behind the other, and
every character that is not blank belongs to exactly one of them. -/
theorem tokenize_covers {source : String} {tokens : List Token}
    (readable : tokenize source = .ok tokens) :
    (∃ (segments : List Segment) (ending : List Char),
      segments.map Segment.token = tokens ∧ AllBlank ending ∧
      source.toList = Segment.textOf segments ++ ending ∧
      ∀ earlier segment later, segments = earlier ++ segment :: later →
        segment.token.value ≠ "" ∧
        segment.token.position.offset = byteLength (Segment.textOf earlier ++ segment.gap) ∧
        Lexeme.first? Pattern.table (segment.lexeme ++ (Segment.textOf later ++ ending)) =
          some ⟨segment.token.kind, segment.lexeme, Segment.textOf later ++ ending⟩) ∧
    (tokens.Pairwise fun earlier later => earlier.endOffset ≤ later.position.offset) ∧
    ∀ before character after, source.toList = before ++ character :: after →
      isBlank character = false →
        ∃! index : Fin tokens.length, tokens[index].Holds before character := by
  obtain ⟨segments, ending, sourceEq, laid, blank, rfl⟩ :=
    Segment.exists_laid_of_outcome readable
  refine ⟨⟨segments, ending, rfl, blank, sourceEq, ?_⟩, laid.ordered, ?_⟩
  · rintro earlier segment later rfl
    obtain ⟨place, found⟩ := laid.of_append
    refine ⟨segment.filled, ?_, found⟩
    rw [place, Position.offset_advance_start]
  · intro before character after split visible
    rw [sourceEq] at split
    obtain ⟨token, member, holds⟩ := laid.exists_holds blank split visible
    obtain ⟨index, bound, rfl⟩ := List.getElem_of_mem member
    refine ⟨⟨index, bound⟩, holds, ?_⟩
    intro other holdsOther
    exact Token.holds_unique laid.ordered holdsOther holds

/-- A text with a wide blank in front and no gap between its tokens: the parenthesis belongs to one
of the two. -/
theorem tokenize_covers_wide_blank :
    tokenize "\u3000IN(1)" = .ok [⟨.condition, "IN", ⟨3, 1, 1⟩⟩, ⟨.value, "(1)", ⟨5, 1, 3⟩⟩] ∧
      ∃! index : Fin 2, ([⟨.condition, "IN", ⟨3, 1, 1⟩⟩, ⟨.value, "(1)", ⟨5, 1, 3⟩⟩] :
        List Token)[index].Holds ['\u3000', 'I', 'N'] '(' := by
  have readable : tokenize "\u3000IN(1)" =
      .ok [⟨.condition, "IN", ⟨3, 1, 1⟩⟩, ⟨.value, "(1)", ⟨5, 1, 3⟩⟩] := by
    decide +kernel
  exact ⟨readable, (tokenize_covers readable).2.2 _ _ ['1', ')'] rfl (by decide)⟩

end FieldRules
