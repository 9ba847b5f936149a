import FieldRules.Lexeme.Recogniser
import FieldRules.Proofs.BlankRuns

/-!
# What the combinators accept

A few laws of each combinator: what it returns on a text that begins with a suitable lexeme, and
what is known of a lexeme that it returned.
-/

namespace FieldRules
namespace Recogniser

theorem word_append (expected rest : List Char) :
    word expected (expected ++ rest) = some (expected, rest) :=
  word_eq_some_iff.mpr ⟨rfl, rfl⟩

theorem word_cons_of_ne {first character : Char} (different : first ≠ character)
    (others rest : List Char) : word (first :: others) (character :: rest) = none := by
  simp [word, different]

theorem word_sound {expected input lexeme rest : List Char}
    (accepted : word expected input = some (lexeme, rest)) : lexeme = expected :=
  (word_eq_some_iff.mp accepted).1

theorem run_sound {allowed : Char → Bool} {input lexeme rest : List Char}
    (accepted : run allowed input = some (lexeme, rest)) :
    ∀ character ∈ lexeme, allowed character = true := by
  simp only [run, Option.some.injEq, Prod.mk.injEq] at accepted
  obtain ⟨rfl, _⟩ := accepted
  exact List.all_eq_true.mp List.all_takeWhile

/-- A run up to the next closing mark takes exactly what stands before that mark. -/
theorem run_append_closing {closing : Char} {content : List Char} (notInside : closing ∉ content)
    (rest : List Char) :
    run (· != closing) (content ++ closing :: rest) = some (content, closing :: rest) := by
  have allowed := Text.all_bne_of_not_mem notInside
  simp [run, List.takeWhile_append_of_pos allowed, List.dropWhile_append_of_pos allowed]

theorem not_mem_of_run {closing : Char} {input content rest : List Char}
    (accepted : run (· != closing) input = some (content, rest)) : closing ∉ content := by
  intro member
  have kept := run_sound accepted closing member
  simp at kept

theorem nonempty_of_some {recogniser : Recogniser} {input lexeme rest : List Char}
    (found : recogniser input = some (lexeme, rest)) (filled : lexeme ≠ []) :
    recogniser.nonempty input = some (lexeme, rest) := by
  simp [nonempty, found, filled]

theorem nonempty_sound {recogniser : Recogniser} {input lexeme rest : List Char}
    (accepted : recogniser.nonempty input = some (lexeme, rest)) :
    recogniser input = some (lexeme, rest) :=
  (Option.filter_eq_some_iff.mp accepted).1

section Combination

variable {first second : Recogniser} {input beginning middle lexeme rest : List Char}

theorem andThen_of_some (found : first input = some (beginning, middle))
    (finished : second middle = some (lexeme, rest)) :
    first.andThen second input = some (beginning ++ lexeme, rest) := by
  simp [andThen, found, finished]

theorem andThen_of_none (refused : first input = none) : first.andThen second input = none := by
  simp [andThen, refused]

theorem orElse_of_some (found : first input = some (lexeme, rest)) :
    first.orElse second input = some (lexeme, rest) := by
  simp [orElse, found]

theorem orElse_of_none (refused : first input = none) :
    first.orElse second input = second input := by
  simp [orElse, refused]

theorem orElse_sound (accepted : first.orElse second input = some (lexeme, rest)) :
    first input = some (lexeme, rest) ∨ second input = some (lexeme, rest) := by
  rcases Option.or_eq_some_iff.mp accepted with found | ⟨_, found⟩
  · exact Or.inl found
  · exact Or.inr found

theorem optional_of_some (found : first input = some (lexeme, rest)) :
    first.optional input = some (lexeme, rest) :=
  orElse_of_some found

theorem optional_of_none (refused : first input = none) :
    first.optional input = some ([], input) := by
  rw [optional, orElse_of_none refused]
  exact word_append [] input

theorem optional_sound (accepted : first.optional input = some (lexeme, rest)) :
    first input = some (lexeme, rest) ∨ lexeme = [] := by
  rcases orElse_sound accepted with found | found
  · exact Or.inl found
  · exact Or.inr (word_sound found)

theorem exists_optional (recogniser : Recogniser) (input : List Char) :
    ∃ lexeme rest, recogniser.optional input = some (lexeme, rest) := by
  cases attempt : recogniser input with
  | none => exact ⟨[], input, optional_of_none attempt⟩
  | some found => exact ⟨found.1, found.2, optional_of_some attempt⟩

end Combination

end Recogniser
end FieldRules
