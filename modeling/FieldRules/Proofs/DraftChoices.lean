import FieldRules.Arguments
import Mathlib.Data.List.Perm.Basic

/-!
# Settings added to a draft

A draft holds at most one setting of each kind.  Adding a setting to a draft that has one of the
kind fails, as giving an option twice does.  Additions can change places, so the draft that is
reached depends only on which settings are added.
-/

namespace FieldRules

/-- A setting that arguments can give. -/
inductive Choice where
  | rule (text : String)
  | file (path : String)
  | format (format : Format)
  | pretty
  | logLevel (level : LogLevel)
  deriving DecidableEq, Repr

/-- The settings are of one kind, so that only one of them can be given. -/
def Choice.alike : Choice → Choice → Bool
  | .rule _, .rule _ => true
  | .file _, .file _ => true
  | .format _, .format _ => true
  | .pretty, .pretty => true
  | .logLevel _, .logLevel _ => true
  | _, _ => false

theorem Choice.alike_comm (first second : Choice) : first.alike second = second.alike first := by
  cases first <;> cases second <;> rfl

namespace Draft

/-- The settings of a draft. -/
def choices (draft : Draft) : List Choice :=
  draft.rule.toList.map .rule ++ draft.file.toList.map .file ++ draft.format.toList.map .format ++
    (if draft.pretty then [.pretty] else []) ++ draft.logLevel.toList.map .logLevel

/-- The draft has no setting of this kind. -/
def lacks (draft : Draft) : Choice → Bool
  | .rule _ => draft.rule.isNone
  | .file _ => draft.file.isNone
  | .format _ => draft.format.isNone
  | .pretty => !draft.pretty
  | .logLevel _ => draft.logLevel.isNone

def put (draft : Draft) : Choice → Draft
  | .rule text => { draft with rule := some text }
  | .file path => { draft with file := some path }
  | .format format => { draft with format := some format }
  | .pretty => { draft with pretty := true }
  | .logLevel level => { draft with logLevel := some level }

/-- Adds a setting to a draft that has none of its kind. -/
def add? (draft : Draft) (choice : Choice) : Option Draft :=
  if draft.lacks choice then some (draft.put choice) else none

theorem add?_eq_some {draft next : Draft} {choice : Choice} :
    draft.add? choice = some next ↔ draft.lacks choice = true ∧ draft.put choice = next := by
  by_cases lacks : draft.lacks choice
  · simp [add?, lacks]
  · simp [add?, lacks]

theorem lacks_put (draft : Draft) (first second : Choice) :
    (draft.put first).lacks second = (draft.lacks second && !first.alike second) := by
  cases first <;> cases second <;> simp [lacks, put, Choice.alike]

theorem put_comm (draft : Draft) {first second : Choice} (different : first.alike second = false) :
    (draft.put first).put second = (draft.put second).put first := by
  revert different
  cases first <;> cases second <;> simp [put, Choice.alike]

theorem add?_comm (draft : Draft) (first second : Choice) :
    (draft.add? first).bind (add? · second) = (draft.add? second).bind (add? · first) := by
  have both : ∀ one other : Choice, (draft.add? one).bind (add? · other) =
      if draft.lacks one && draft.lacks other && !one.alike other then
        some ((draft.put one).put other) else none := by
    intro one other
    by_cases lacks : draft.lacks one
    · simp [add?, lacks, lacks_put]
    · simp [add?, lacks]
  rw [both, both, second.alike_comm, Bool.and_comm (draft.lacks second)]
  cases alike : first.alike second with
  | true => simp
  | false => rw [draft.put_comm alike]

theorem foldlM_add?_singleton {draft next : Draft} {choice : Choice} :
    [choice].foldlM add? draft = some next ↔
      draft.lacks choice = true ∧ draft.put choice = next := by
  rw [← add?_eq_some, List.foldlM_cons]
  cases draft.add? choice with
  | none => exact Iff.rfl
  | some added => exact Iff.rfl

theorem foldlM_add?_perm {first second : List Choice} (perm : first.Perm second) (draft : Draft) :
    first.foldlM add? draft = second.foldlM add? draft := by
  induction perm generalizing draft with
  | nil => rfl
  | cons choice perm induction =>
      rw [List.foldlM_cons, List.foldlM_cons]
      exact Option.bind_congr fun next _ => induction next
  | swap choice other rest =>
      simp only [List.foldlM_cons, Option.bind_eq_bind, ← Option.bind_assoc]
      rw [add?_comm]
  | trans perm later induction inductionLater =>
      rw [induction, inductionLater]

/-- Adding the settings of a draft one after the other gives the draft. -/
theorem foldlM_add?_choices (draft : Draft) : draft.choices.foldlM add? empty = some draft := by
  rcases draft with ⟨_ | rule, _ | file, _ | format, _ | pretty, _ | level⟩
  all_goals rfl

end Draft

/-- The setting that an option gives with a value. -/
inductive Choice.NamedBy : Key → String → Choice → Prop
  | file {path : String} (nonempty : path ≠ "") : NamedBy .file path (.file path)
  | format (format : Format) : NamedBy .format format.name (.format format)
  | logLevel {text : String} {level : LogLevel} (valid : LogLevel.ofText? text = some level) :
      NamedBy .logLevel text (.logLevel level)

theorem Choice.NamedBy.nonempty {key : Key} {value : String} {choice : Choice}
    (named : choice.NamedBy key value) : value ≠ "" := by
  cases named with
  | file nonempty => exact nonempty
  | format format => cases format <;> decide
  | logLevel valid =>
      rintro rfl
      have none : LogLevel.ofText? "" = none := by decide
      rw [none] at valid
      cases valid

/-- A value that names a setting is accepted by a draft that has none of the kind. -/
theorem Draft.assign_named {draft : Draft} {key : Key} {value : String} {choice : Choice}
    (named : choice.NamedBy key value) (lacks : draft.lacks choice = true) :
    draft.assign key value = .ok (draft.put choice) := by
  cases named with
  | file nonempty =>
      have unset : draft.file = none := Option.isNone_iff_eq_none.mp lacks
      simp [assign, has, unset, nonempty, put]
  | format format =>
      have unset : draft.format = none := Option.isNone_iff_eq_none.mp lacks
      have named : Format.ofName? format.name = some format := by cases format <;> decide
      simp [assign, has, unset, named, put]
  | logLevel valid =>
      have unset : draft.logLevel = none := Option.isNone_iff_eq_none.mp lacks
      simp [assign, has, unset, valid, put]

end FieldRules
