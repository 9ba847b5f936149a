import FieldRules.Text.Blank
import Mathlib.Data.List.TakeWhile

/-!
# Runs of blank characters

A scan cuts a text into gaps of blank characters and what stands between them.  This file gives the
two predicates for that cut, finds the gap at the start of a text, and says what is left of a text
without the blanks at its end.
-/

namespace FieldRules
namespace Text

/-- The text holds no character but blank ones. -/
def AllBlank (text : List Char) : Prop :=
  ∀ character ∈ text, isBlank character = true

instance (text : List Char) : Decidable (AllBlank text) :=
  decidable_of_iff (text.all isBlank = true) List.all_eq_true

/-- The text begins with a character that is not blank. -/
def StartsVisible (text : List Char) : Prop :=
  ∃ character rest, text = character :: rest ∧ isBlank character = false

/-- The first text is the second without the blank characters at its end. -/
def TrimmedFrom (trimmed text : List Char) : Prop :=
  (∃ ending, text = trimmed ++ ending ∧ AllBlank ending) ∧
    ∀ character, trimmed.getLast? = some character → isBlank character = false

@[simp]
theorem allBlank_nil : AllBlank [] := by
  simp [AllBlank]

theorem AllBlank.append {first second : List Char} (blankFirst : AllBlank first)
    (blankSecond : AllBlank second) : AllBlank (first ++ second) := by
  intro character member
  rcases List.mem_append.mp member with inFirst | inSecond
  · exact blankFirst character inFirst
  · exact blankSecond character inSecond

theorem StartsVisible.append {first : List Char} (visible : StartsVisible first)
    (second : List Char) : StartsVisible (first ++ second) := by
  obtain ⟨character, rest, rfl, notBlank⟩ := visible
  exact ⟨character, rest ++ second, rfl, notBlank⟩

theorem StartsVisible.of_append {first second : List Char}
    (visible : StartsVisible (first ++ second)) (nonempty : first ≠ []) : StartsVisible first := by
  obtain ⟨character, others, rfl⟩ := List.exists_cons_of_ne_nil nonempty
  obtain ⟨head, rest, same, notBlank⟩ := visible
  refine ⟨character, others, rfl, ?_⟩
  rw [(List.cons.inj same).1]
  exact notBlank

theorem StartsVisible.ne_nil {text : List Char} (visible : StartsVisible text) : text ≠ [] := by
  obtain ⟨character, rest, rfl, _⟩ := visible
  exact List.cons_ne_nil character rest

theorem not_startsVisible_cons {character : Char} {text : List Char}
    (blank : isBlank character = true) : ¬ StartsVisible (character :: text) := by
  rintro ⟨first, rest, same, notBlank⟩
  obtain ⟨rfl, _⟩ := List.cons.inj same
  rw [blank] at notBlank
  cases notBlank

theorem StartsVisible.not_allBlank {text : List Char} (visible : StartsVisible text) :
    ¬ AllBlank text := by
  intro blank
  obtain ⟨character, rest, rfl⟩ := List.exists_cons_of_ne_nil visible.ne_nil
  exact not_startsVisible_cons (blank character List.mem_cons_self) visible

theorem AllBlank.takeWhile_append {gap : List Char} (blank : AllBlank gap) {rest : List Char}
    (visible : StartsVisible rest) : (gap ++ rest).takeWhile isBlank = gap := by
  obtain ⟨character, rest, rfl, notBlank⟩ := visible
  rw [List.takeWhile_append_of_pos blank]
  simp [notBlank]

theorem AllBlank.dropWhile_append {gap : List Char} (blank : AllBlank gap) {rest : List Char}
    (visible : StartsVisible rest) : (gap ++ rest).dropWhile isBlank = rest := by
  obtain ⟨character, rest, rfl, notBlank⟩ := visible
  rw [List.dropWhile_append_of_pos blank]
  simp [notBlank]

theorem allBlank_or_exists_gap (text : List Char) :
    AllBlank text ∨ ∃ gap rest, text = gap ++ rest ∧ AllBlank gap ∧ StartsVisible rest := by
  induction text with
  | nil => exact Or.inl allBlank_nil
  | cons character text induction =>
      cases visible : isBlank character with
      | false =>
          exact Or.inr ⟨[], character :: text, rfl, allBlank_nil, character, text, rfl, visible⟩
      | true =>
          rcases induction with blank | ⟨gap, rest, rfl, blank, visibleRest⟩
          · left
            simpa [AllBlank, visible] using blank
          · refine Or.inr ⟨character :: gap, rest, rfl, ?_, visibleRest⟩
            simpa [AllBlank, visible] using blank

theorem exists_gap (text : List Char) :
    ∃ gap rest, text = gap ++ rest ∧ AllBlank gap ∧ (rest = [] ∨ StartsVisible rest) := by
  rcases allBlank_or_exists_gap text with blank | ⟨gap, rest, rfl, blank, visible⟩
  · exact ⟨text, [], (List.append_nil text).symm, blank, Or.inl rfl⟩
  · exact ⟨gap, rest, rfl, blank, Or.inr visible⟩

theorem AllBlank.dropWhile_gap {gap rest : List Char} (blank : AllBlank gap)
    (behind : rest = [] ∨ StartsVisible rest) : (gap ++ rest).dropWhile isBlank = rest := by
  rcases behind with rfl | visible
  · rw [List.append_nil]
    exact List.dropWhile_eq_nil_iff.mpr blank
  · exact blank.dropWhile_append visible

theorem all_bne_of_not_mem {mark : Char} {text : List Char} (absent : mark ∉ text) :
    ∀ character ∈ text, (character != mark) = true := by
  intro character member
  have different : character ≠ mark := by
    rintro rfl
    exact absent member
  simpa using different

/-- The cut of a text at the first occurrence of a mark is unique. -/
theorem cut_unique {mark : Char} {first second afterFirst afterSecond : List Char}
    (notFirst : mark ∉ first) (notSecond : mark ∉ second)
    (same : first ++ mark :: afterFirst = second ++ mark :: afterSecond) :
    first = second ∧ afterFirst = afterSecond := by
  induction first generalizing second with
  | nil =>
      cases second with
      | nil => exact ⟨rfl, (List.cons.inj same).2⟩
      | cons character second =>
          obtain ⟨rfl, _⟩ := List.cons.inj same
          exact absurd List.mem_cons_self notSecond
  | cons character first induction =>
      cases second with
      | nil =>
          obtain ⟨rfl, _⟩ := List.cons.inj same
          exact absurd List.mem_cons_self notFirst
      | cons other second =>
          obtain ⟨rfl, sameRest⟩ := List.cons.inj same
          obtain ⟨rfl, equal⟩ := induction (fun member => notFirst (List.mem_cons_of_mem _ member))
            (fun member => notSecond (List.mem_cons_of_mem _ member)) sameRest
          exact ⟨rfl, equal⟩

theorem append_cases {first second before after : List Char} {character : Char}
    (split : first ++ second = before ++ character :: after) :
    (∃ last, first = before ++ character :: last ∧ after = last ++ second) ∨
      ∃ inner, before = first ++ inner ∧ second = inner ++ character :: after := by
  rcases List.append_eq_append_iff.mp split with
    ⟨inner, beforeEq, secondEq⟩ | ⟨others, firstEq, restEq⟩
  · exact Or.inr ⟨inner, beforeEq, secondEq⟩
  · cases others with
    | nil => exact Or.inr ⟨[], by simp [firstEq], by simpa using restEq.symm⟩
    | cons other last =>
        obtain ⟨rfl, afterEq⟩ := List.cons.inj restEq
        exact Or.inl ⟨last, firstEq, afterEq⟩

theorem AllBlank.exists_behind {gap rest before after : List Char} {character : Char}
    (blank : AllBlank gap) (visible : isBlank character = false)
    (split : gap ++ rest = before ++ character :: after) :
    ∃ inner, before = gap ++ inner ∧ rest = inner ++ character :: after := by
  rcases append_cases split with ⟨last, rfl, _⟩ | behind
  · rw [blank character (by simp)] at visible
    cases visible
  · exact behind

/-- The run of allowed characters at the end of a text, and what stands before it. -/
theorem trailing_run (allowed : Char → Bool) (text : List Char) :
    text = (text.reverse.dropWhile allowed).reverse ++ (text.reverse.takeWhile allowed).reverse ∧
      (∀ character ∈ (text.reverse.takeWhile allowed).reverse, allowed character = true) ∧
      ∀ character, (text.reverse.dropWhile allowed).reverse.getLast? = some character →
        allowed character = false := by
  refine ⟨?_, ?_, ?_⟩
  · rw [← List.reverse_append, List.takeWhile_append_dropWhile, List.reverse_reverse]
  · intro character member
    have kept := List.all_takeWhile (p := allowed) (l := text.reverse)
    exact List.all_eq_true.mp kept character (List.mem_reverse.mp member)
  · intro character last
    rw [List.getLast?_reverse] at last
    have stops := List.head?_dropWhile_not allowed text.reverse
    rw [last] at stops
    simpa using stops

theorem trimmedFrom_trimEnd (text : List Char) : TrimmedFrom (trimEnd text) text := by
  obtain ⟨split, blank, stops⟩ := trailing_run isBlank text
  exact ⟨⟨_, split, blank⟩, stops⟩

theorem trimEnd_ne_nil {text : List Char} (visible : StartsVisible text) : trimEnd text ≠ [] := by
  intro empty
  obtain ⟨⟨ending, split, blank⟩, _⟩ := trimmedFrom_trimEnd text
  rw [empty, List.nil_append] at split
  exact visible.not_allBlank (split ▸ blank)

end Text
end FieldRules
