/-!
# Recognisers

A recogniser reads a lexeme at the beginning of a text and returns the lexeme together with the
text that follows it.  The combinators of this file never look back: each takes what the first
suitable part gives it.  `Splits` says that a recogniser cuts its input in two without changing it,
and every combinator keeps that property.
-/

namespace FieldRules

/-- Reads a lexeme at the beginning of a text; the result is the lexeme and what follows it. -/
abbrev Recogniser := List Char → Option (List Char × List Char)

namespace Recogniser

def word (expected : List Char) : Recogniser := fun input =>
  if expected <+: input then some (expected, input.drop expected.length) else none

/-- Accepts the longest run of allowed characters, which may be empty. -/
def run (allowed : Char → Bool) : Recogniser := fun input =>
  some (input.takeWhile allowed, input.dropWhile allowed)

def nonempty (recogniser : Recogniser) : Recogniser := fun input =>
  (recogniser input).filter fun (lexeme, _) => !lexeme.isEmpty

def andThen (first second : Recogniser) : Recogniser := fun input =>
  match first input with
  | none => none
  | some (beginning, middle) =>
      (second middle).map fun (ending, rest) => (beginning ++ ending, rest)

/-- Accepts what `first` accepts, and what `second` accepts where `first` fails. -/
def orElse (first second : Recogniser) : Recogniser := fun input =>
  (first input).or (second input)

/-- Accepts what `recogniser` accepts, and the empty text where it fails. -/
def optional (recogniser : Recogniser) : Recogniser :=
  recogniser.orElse (word [])

def oneOf (words : List (List Char)) : Recogniser := fun input =>
  words.findSome? fun expected => word expected input

/-- The recogniser only cuts its input in two. -/
def Splits (recogniser : Recogniser) : Prop :=
  ∀ ⦃input lexeme rest : List Char⦄,
    recogniser input = some (lexeme, rest) → lexeme ++ rest = input

/-- The recogniser accepts no empty lexeme. -/
def Advances (recogniser : Recogniser) : Prop :=
  ∀ ⦃input lexeme rest : List Char⦄,
    recogniser input = some (lexeme, rest) → lexeme ≠ []

theorem word_eq_some_iff {expected input lexeme rest : List Char} :
    word expected input = some (lexeme, rest) ↔ lexeme = expected ∧ expected ++ rest = input := by
  constructor
  · intro accepted
    obtain ⟨begins, cut⟩ := Option.ite_none_right_eq_some.mp accepted
    obtain ⟨rfl, rfl⟩ := Prod.mk.inj (Option.some.inj cut)
    exact ⟨rfl, List.prefix_iff_eq_append.mp begins⟩
  · rintro ⟨rfl, rfl⟩
    simp [word]

theorem splits_word (expected : List Char) : Splits (word expected) := by
  intro input lexeme rest accepted
  obtain ⟨rfl, joined⟩ := word_eq_some_iff.mp accepted
  exact joined

theorem advances_word {expected : List Char} (nonempty : expected ≠ []) :
    Advances (word expected) := by
  intro input lexeme rest accepted
  obtain ⟨rfl, _⟩ := word_eq_some_iff.mp accepted
  exact nonempty

theorem splits_run (allowed : Char → Bool) : Splits (run allowed) := by
  intro input lexeme rest accepted
  simp only [run, Option.some.injEq, Prod.mk.injEq] at accepted
  obtain ⟨rfl, rfl⟩ := accepted
  exact List.takeWhile_append_dropWhile

theorem splits_nonempty {recogniser : Recogniser} (splits : Splits recogniser) :
    Splits recogniser.nonempty := by
  intro input lexeme rest accepted
  exact splits (Option.filter_eq_some_iff.mp accepted).1

theorem advances_nonempty (recogniser : Recogniser) : Advances recogniser.nonempty := by
  intro input lexeme rest accepted
  simpa using (Option.filter_eq_some_iff.mp accepted).2

theorem andThen_eq_some {first second : Recogniser} {input lexeme rest : List Char}
    (accepted : first.andThen second input = some (lexeme, rest)) :
    ∃ beginning middle ending,
      first input = some (beginning, middle) ∧ second middle = some (ending, rest) ∧
        lexeme = beginning ++ ending := by
  unfold andThen at accepted
  split at accepted
  · cases accepted
  · rename_i beginning middle found
    simp only [Option.map_eq_some_iff, Prod.mk.injEq, Prod.exists] at accepted
    obtain ⟨ending, after, finished, rfl, rfl⟩ := accepted
    exact ⟨beginning, middle, ending, found, finished, rfl⟩

theorem splits_andThen {first second : Recogniser}
    (splitsFirst : Splits first) (splitsSecond : Splits second) :
    Splits (first.andThen second) := by
  intro input lexeme rest accepted
  obtain ⟨beginning, middle, ending, found, finished, rfl⟩ := andThen_eq_some accepted
  rw [List.append_assoc, splitsSecond finished, splitsFirst found]

theorem advances_andThen {first second : Recogniser} (advances : Advances first) :
    Advances (first.andThen second) := by
  intro input lexeme rest accepted
  obtain ⟨beginning, middle, ending, found, _, rfl⟩ := andThen_eq_some accepted
  simp [advances found]

theorem advances_andThen_right {first second : Recogniser} (advances : Advances second) :
    Advances (first.andThen second) := by
  intro input lexeme rest accepted
  obtain ⟨beginning, middle, ending, _, finished, rfl⟩ := andThen_eq_some accepted
  simp [advances finished]

theorem splits_orElse {first second : Recogniser}
    (splitsFirst : Splits first) (splitsSecond : Splits second) :
    Splits (first.orElse second) := by
  intro input lexeme rest accepted
  rcases Option.or_eq_some_iff.mp accepted with found | ⟨_, found⟩
  · exact splitsFirst found
  · exact splitsSecond found

theorem advances_orElse {first second : Recogniser}
    (advancesFirst : Advances first) (advancesSecond : Advances second) :
    Advances (first.orElse second) := by
  intro input lexeme rest accepted
  rcases Option.or_eq_some_iff.mp accepted with found | ⟨_, found⟩
  · exact advancesFirst found
  · exact advancesSecond found

theorem splits_optional {recogniser : Recogniser} (splits : Splits recogniser) :
    Splits recogniser.optional :=
  splits_orElse splits (splits_word [])

theorem splits_oneOf (words : List (List Char)) : Splits (oneOf words) := by
  intro input lexeme rest accepted
  obtain ⟨expected, _, found⟩ := List.exists_of_findSome?_eq_some accepted
  exact splits_word expected found

theorem advances_oneOf {words : List (List Char)} (nonempty : ∀ expected ∈ words, expected ≠ []) :
    Advances (oneOf words) := by
  intro input lexeme rest accepted
  obtain ⟨expected, member, found⟩ := List.exists_of_findSome?_eq_some accepted
  exact advances_word (nonempty expected member) found

end Recogniser
end FieldRules
