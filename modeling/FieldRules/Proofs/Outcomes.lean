/-!
# Outcomes of chained operations

Reading, scanning and parsing go on with the value of a part that has succeeded and hand its failure
on.  So what the whole gives tells what its part gave: a value comes from a value of the part, and a
failure of a changed outcome is the failure of the part.
-/

namespace FieldRules

variable {Failure Value Result : Type} {outcome : Except Failure Value}

theorem outcome_map_eq_ok {change : Value → Result} {result : Result} :
    outcome.map change = .ok result ↔ ∃ value, outcome = .ok value ∧ change value = result := by
  cases outcome with
  | error failure => simp [Except.map]
  | ok value => simp [Except.map]

theorem outcome_map_eq_error {change : Value → Result} {failure : Failure} :
    outcome.map change = .error failure ↔ outcome = .error failure := by
  cases outcome with
  | error failure => simp [Except.map]
  | ok value => simp [Except.map]

theorem outcome_bind_eq_ok {next : Value → Except Failure Result} {result : Result} :
    outcome.bind next = .ok result ↔ ∃ value, outcome = .ok value ∧ next value = .ok result := by
  cases outcome with
  | error failure => simp [Except.bind]
  | ok value => simp [Except.bind]

end FieldRules
