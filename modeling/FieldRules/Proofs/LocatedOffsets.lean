import FieldRules.Proofs.SourceLines
import Mathlib.Order.Bounds.Defs

/-!
# The positions of byte offsets

A byte offset into a text need not lie between two characters.  Locating it takes the last boundary
of characters that is not behind it, which a search finds by going down from the offset byte by
byte: it stops at zero at the latest.  The position of a boundary says how many bytes, newlines and
characters of the line stand before it.  A later boundary has a later line or a later column on the
same line, so these two tell the boundary.
-/

namespace FieldRules

namespace Text

/-- The offset lies between two characters or at an end of the text. -/
def IsBoundary (text : List Char) (offset : Nat) : Prop :=
  ∃ before after, text = before ++ after ∧ byteLength before = offset

theorem isBoundary_byteLength (before after : List Char) :
    IsBoundary (before ++ after) (byteLength before) :=
  ⟨before, after, rfl, rfl⟩

theorem IsBoundary.le {text : List Char} {offset : Nat} (boundary : IsBoundary text offset) :
    offset ≤ byteLength text := by
  obtain ⟨before, after, rfl, rfl⟩ := boundary
  rw [byteLength_append]
  exact Nat.le_add_right _ _

theorem takeBytes_isPrefix (room : Nat) (text : List Char) : takeBytes room text <+: text := by
  induction text generalizing room with
  | nil => exact List.prefix_refl []
  | cons character text induction =>
      rw [takeBytes]
      split
      · exact List.cons_prefix_cons.mpr ⟨rfl, induction _⟩
      · exact List.nil_prefix

theorem byteLength_takeBytes_le (room : Nat) (text : List Char) :
    byteLength (takeBytes room text) ≤ room := by
  induction text generalizing room with
  | nil => exact Nat.zero_le room
  | cons character text induction =>
      rw [takeBytes]
      split
      · have bound := induction (room - character.utf8Size)
        rw [byteLength_cons]
        omega
      · exact Nat.zero_le room

/-- No beginning of a text that fits into the room is longer than the one that is taken. -/
theorem byteLength_le_takeBytes {room : Nat} {before after : List Char}
    (fits : byteLength before ≤ room) :
    byteLength before ≤ byteLength (takeBytes room (before ++ after)) := by
  induction before generalizing room with
  | nil => exact Nat.zero_le _
  | cons character before induction =>
      rw [byteLength_cons] at fits
      have fitsLater : byteLength before ≤ room - character.utf8Size := by omega
      have bound := induction fitsLater
      rw [List.cons_append, takeBytes, if_pos (by omega), byteLength_cons, byteLength_cons]
      omega

/-- The bytes that are taken end at the last boundary that is not behind the room. -/
theorem isGreatest_takeBytes (text : List Char) (room : Nat) :
    IsGreatest { boundary | IsBoundary text boundary ∧ boundary ≤ room }
      (byteLength (takeBytes room text)) := by
  constructor
  · obtain ⟨after, split⟩ := takeBytes_isPrefix room text
    exact ⟨⟨_, after, split.symm, rfl⟩, byteLength_takeBytes_le room text⟩
  · rintro boundary ⟨⟨before, after, rfl, rfl⟩, fits⟩
    exact byteLength_le_takeBytes fits

theorem isBoundary_iff {text : List Char} {offset : Nat} :
    IsBoundary text offset ↔ byteLength (takeBytes offset text) = offset := by
  obtain ⟨⟨boundary, le⟩, greatest⟩ := isGreatest_takeBytes text offset
  constructor
  · intro isBoundary
    exact Nat.le_antisymm le (greatest ⟨isBoundary, Nat.le_refl offset⟩)
  · intro same
    rwa [same] at boundary

instance (text : List Char) (offset : Nat) : Decidable (IsBoundary text offset) :=
  decidable_of_iff (byteLength (takeBytes offset text) = offset) isBoundary_iff.symm

/-- Goes down from an offset byte by byte to the next boundary, and has no result if it would go
below zero. -/
def searchBoundary (text : List Char) : (offset : Nat) → Option Nat
  | 0 => if IsBoundary text 0 then some 0 else none
  | offset + 1 => if IsBoundary text (offset + 1) then some (offset + 1) else searchBoundary text offset

/-- The search ends at the last boundary that is not behind its offset. -/
theorem searchBoundary_eq_some {text : List Char} {offset boundary : Nat}
    (greatest : IsGreatest { boundary | IsBoundary text boundary ∧ boundary ≤ offset } boundary) :
    searchBoundary text offset = some boundary := by
  obtain ⟨⟨isBoundary, le⟩, bounds⟩ := greatest
  induction offset with
  | zero =>
      obtain rfl := Nat.le_zero.mp le
      rw [searchBoundary, if_pos isBoundary]
  | succ offset induction =>
      by_cases here : IsBoundary text (offset + 1)
      · rw [searchBoundary, if_pos here, Nat.le_antisymm le (bounds ⟨here, Nat.le_refl _⟩)]
      · rw [searchBoundary, if_neg here]
        have different : boundary ≠ offset + 1 := by
          rintro rfl
          exact here isBoundary
        apply induction
        · rintro other ⟨otherBoundary, otherLe⟩
          exact bounds ⟨otherBoundary, Nat.le_succ_of_le otherLe⟩
        · omega

end Text

namespace Position

open Text

/-- A position on an earlier line, or before the other one on the same line. -/
def Before (position other : Position) : Prop :=
  position.line < other.line ∨ position.line = other.line ∧ position.column < other.column

theorem not_before_of_same {position other : Position} (line : position.line = other.line)
    (column : position.column = other.column) : ¬ position.Before other := by
  rintro (before | ⟨_, before⟩)
  · exact Nat.ne_of_lt before line
  · exact Nat.ne_of_lt before column

theorem before_advance (position : Position) {text : List Char} (nonempty : text ≠ []) :
    position.Before (position.advance text) := by
  by_cases newline : '\n' ∈ text
  · left
    rw [line_advance]
    exact Nat.lt_add_of_pos_right (List.count_pos_iff.mpr newline)
  · right
    have columnEq : (position.advance text).column = position.column + text.length := by
      simp [advance, newline]
    rw [line_advance, List.count_eq_zero_of_not_mem newline, columnEq]
    exact ⟨rfl, Nat.lt_add_of_pos_right (List.length_pos_iff.mpr nonempty)⟩

theorem offset_locate (source : List Char) (offset : Nat) :
    (locate source offset).offset = byteLength (takeBytes offset source) :=
  offset_advance_start _

theorem isBoundary_locate (source : List Char) (offset : Nat) :
    IsBoundary source (locate source offset).offset := by
  rw [offset_locate]
  exact (isGreatest_takeBytes source offset).1.1

theorem isGreatest_locate (source : List Char) (offset : Nat) :
    IsGreatest { boundary | IsBoundary source boundary ∧ boundary ≤ min offset (byteLength source) }
      (locate source offset).offset := by
  have clamped : { boundary | IsBoundary source boundary ∧ boundary ≤ min offset (byteLength source) } =
      { boundary | IsBoundary source boundary ∧ boundary ≤ offset } := by
    ext boundary
    constructor
    · rintro ⟨isBoundary, bound⟩
      exact ⟨isBoundary, Nat.le_trans bound (Nat.min_le_left _ _)⟩
    · rintro ⟨isBoundary, bound⟩
      exact ⟨isBoundary, Nat.le_min.mpr ⟨bound, isBoundary.le⟩⟩
  rw [clamped, offset_locate]
  exact isGreatest_takeBytes source offset

theorem locate_offset_locate (source : List Char) (offset : Nat) :
    locate source (locate source offset).offset = locate source offset := by
  obtain ⟨after, split⟩ := takeBytes_isPrefix offset source
  have found := locate_append (takeBytes offset source) after
  rw [split] at found
  rw [offset_locate, found, locate]

theorem before_locate {source : List Char} {first second : Nat} (boundary : IsBoundary source first)
    (boundary' : IsBoundary source second) (earlier : first < second) :
    (locate source first).Before (locate source second) := by
  obtain ⟨before, after, rfl, rfl⟩ := boundary
  obtain ⟨before', after', split, rfl⟩ := boundary'
  rw [locate_append, split, locate_append]
  rcases List.append_eq_append_iff.mp split with ⟨inner, rfl, _⟩ | ⟨inner, rfl, _⟩
  · rw [byteLength_append] at earlier
    have nonempty : inner ≠ [] := by
      rintro rfl
      exact Nat.lt_irrefl _ earlier
    rw [advance_append]
    exact before_advance _ nonempty
  · rw [byteLength_append] at earlier
    omega

/-- Line and column tell the position of an offset. -/
theorem locate_eq_of_same {source : List Char} {first second : Nat}
    (line : (locate source first).line = (locate source second).line)
    (column : (locate source first).column = (locate source second).column) :
    locate source first = locate source second := by
  have offsets : (locate source first).offset = (locate source second).offset := by
    rcases Nat.lt_trichotomy (locate source first).offset (locate source second).offset with
      earlier | same | later
    · have before := before_locate (isBoundary_locate source first)
        (isBoundary_locate source second) earlier
      rw [locate_offset_locate, locate_offset_locate] at before
      exact absurd before (not_before_of_same line column)
    · exact same
    · have before := before_locate (isBoundary_locate source second)
        (isBoundary_locate source first) later
      rw [locate_offset_locate, locate_offset_locate] at before
      exact absurd before (not_before_of_same line.symm column.symm)
  rw [← locate_offset_locate, offsets, locate_offset_locate]

end Position

/-- Every offset is located at the last boundary that is neither behind it nor behind the end of the
text, which is what a search downwards finds.  The position counts the bytes before that boundary,
the newlines before it and the characters since the last of these, and locating its offset gives the
same position.  Later boundaries have later positions, so line and column tell the boundary. -/
theorem locate_maps_boundaries (source : List Char) :
    (∀ offset,
      Text.searchBoundary source (min offset (Text.byteLength source)) =
        some (Position.locate source offset).offset ∧
      IsGreatest
        { boundary | Text.IsBoundary source boundary ∧ boundary ≤ min offset (Text.byteLength source) }
        (Position.locate source offset).offset ∧
      (∃ earlier head after, source = earlier ++ head ++ after ∧ Text.EndsLine earlier ∧
        '\n' ∉ head ∧
        Position.locate source offset =
          ⟨Text.byteLength (earlier ++ head), 1 + (earlier ++ head).count '\n', head.length⟩) ∧
      Position.locate source (Position.locate source offset).offset =
        Position.locate source offset) ∧
    (∀ first second, Text.IsBoundary source first → Text.IsBoundary source second → first < second →
      (Position.locate source first).Before (Position.locate source second)) ∧
    ∀ first second,
      (Position.locate source first).line = (Position.locate source second).line →
      (Position.locate source first).column = (Position.locate source second).column →
      Position.locate source first = Position.locate source second := by
  refine ⟨?located, fun _ _ => Position.before_locate, fun _ _ => Position.locate_eq_of_same⟩
  intro offset
  have greatest := Position.isGreatest_locate source offset
  refine ⟨Text.searchBoundary_eq_some greatest, greatest, ?counted,
    Position.locate_offset_locate source offset⟩
  obtain ⟨after, split⟩ := Text.takeBytes_isPrefix offset source
  obtain ⟨earlier, head, beforeEq, ends, noNewline, position⟩ :=
    Text.exists_advance_start (Text.takeBytes offset source)
  exact ⟨earlier, head, after, by rw [← beforeEq, split], ends, noNewline, position⟩

/-- The last character takes the bytes three and four, so an offset between these goes back to the
beginning of its line, and an offset far behind the end comes to stand behind it. -/
theorem locate_maps_boundaries_between_bytes :
    Position.locate "é\nü".toList 4 = ⟨3, 2, 0⟩ ∧
      Text.searchBoundary "é\nü".toList (min 4 (Text.byteLength "é\nü".toList)) = some 3 ∧
      Position.locate "é\nü".toList 99 = ⟨5, 2, 1⟩ ∧
      Text.IsBoundary "é\nü".toList 2 ∧ Text.IsBoundary "é\nü".toList 3 ∧
      (Position.locate "é\nü".toList 2).Before (Position.locate "é\nü".toList 3) ∧
      Position.locate "é\nü".toList 3 = Position.locate "é\nü".toList 4 := by
  have boundary : Text.IsBoundary "é\nü".toList 2 := by decide
  have boundary' : Text.IsBoundary "é\nü".toList 3 := by decide
  obtain ⟨located, ordered, identified⟩ := locate_maps_boundaries "é\nü".toList
  exact ⟨by decide, (located 4).1, by decide, boundary, boundary',
    ordered 2 3 boundary boundary' (by decide), identified 3 4 (by decide) (by decide)⟩

end FieldRules
