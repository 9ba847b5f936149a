import FieldRules.Json.Printer
import FieldRules.Json.Reader
import FieldRules.Proofs.BlankRuns

/-!
# Strings and whole numbers of JSON are read as they were written

A string is written with some of its characters escaped and read as code units.  Every escape stands
for the one character that it was written for, and no character is a surrogate, so the units give
the string again.  A whole number of 64 bits is written in decimal and read up to the first
character that cannot belong to a number.
-/

namespace FieldRules
namespace Json

def AllSpace (gap : List Char) : Prop :=
  ∀ character ∈ gap, isSpace character = true

@[simp]
theorem allSpace_nil : AllSpace [] := by
  simp [AllSpace]

theorem AllSpace.skipSpace_append {gap : List Char} (space : AllSpace gap) (rest : List Char) :
    skipSpace (gap ++ rest) = skipSpace rest :=
  List.dropWhile_append_of_pos space

theorem skipSpace_of_not_isSpace {character : Char} (visible : isSpace character = false)
    (rest : List Char) : skipSpace (character :: rest) = character :: rest := by
  simp [skipSpace, visible]

theorem AllSpace.readValue_append {gap : List Char} (space : AllSpace gap) (bound : Nat)
    (rest : List Char) : readValue bound (gap ++ rest) = readValue bound rest := by
  cases bound with
  | zero => simp only [readValue]
  | succ bound => simp only [readValue, space.skipSpace_append]

theorem hexUnit?_of_control :
    ∀ size < 0x20,
      hexUnit? '0' '0' (Nat.digitChar (size / 16)) (Nat.digitChar (size % 16)) = some size := by
  decide

/-- An escaped character is read as the one unit for which it stands. -/
theorem readUnits_escape (before : List Nat) (character : Char) (rest : List Char) :
    readUnits before (escape character ++ rest) = readUnits (character.toNat :: before) rest := by
  by_cases listed : character ∈ ['"', '\\', '\x08', '\t', '\n', '\x0c', '\r']
  · simp only [List.mem_cons, List.not_mem_nil, or_false] at listed
    rcases listed with rfl | rfl | rfl | rfl | rfl | rfl | rfl <;> rfl
  · have plain : shortEscape? character = none := by
      apply List.lookup_eq_none_iff.mpr
      intro entry member
      have short : entry.1 ∈ ['"', '\\', '\x08', '\t', '\n', '\x0c', '\r'] :=
        List.mem_map_of_mem member
      have different : character ≠ entry.1 := by
        rintro rfl
        exact listed short
      simpa using different
    have notQuote : character ≠ '"' := by
      rintro rfl
      exact listed (by decide)
    have notBackslash : character ≠ '\\' := by
      rintro rfl
      exact listed (by decide)
    by_cases control : character.toNat < 0x20
    · simp only [escape, plain, if_pos control, List.cons_append, List.nil_append, readUnits,
        hexUnit?_of_control _ control]
    · simp only [escape, plain, if_neg control, List.cons_append, List.nil_append]
      rw [readUnits.eq_5 _ _ _ notQuote, if_neg control]
      · intro first second third fourth others same
        exact absurd same notBackslash
      · intro short others same
        exact absurd same notBackslash

theorem readUnits_quote (before : List Nat) (text rest : List Char) :
    readUnits before (text.flatMap escape ++ '"' :: rest) =
      some (before.reverse ++ text.map Char.toNat, rest) := by
  induction text generalizing before with
  | nil => simp [readUnits]
  | cons character text induction =>
      rw [List.flatMap_cons, List.append_assoc, readUnits_escape, induction]
      simp

/-- No character is a surrogate, so every unit of a text stands for a character of its own. -/
theorem joinUnits_map_toNat (text : List Char) : joinUnits (text.map Char.toNat) = some text := by
  induction text with
  | nil => rfl
  | cons character text induction =>
      have valid : character.toNat < 0xD800 ∨ 0xDFFF < character.toNat := by
        rcases character.valid with low | ⟨high, _⟩
        · exact Or.inl low
        · exact Or.inr high
      have notHigh : ¬ (0xD800 ≤ character.toNat ∧ character.toNat < 0xDC00) := by omega
      have notLow : ¬ (0xDC00 ≤ character.toNat ∧ character.toNat < 0xE000) := by omega
      rw [List.map_cons, joinUnits.eq_def]
      simp [if_neg notHigh, if_neg notLow, induction]

theorem readString_quote (text : String) (rest : List Char) :
    readString (text.toList.flatMap escape ++ '"' :: rest) = some (text, rest) := by
  simp [readString, readUnits_quote, joinUnits_map_toNat]

/-- The text does not begin with a character that can belong to a number. -/
def StopsNumber (rest : List Char) : Prop :=
  ∀ character later, rest = character :: later →
    character.isDigit = false ∧ character ∉ ['.', 'e', 'E']

theorem stopsNumber_nil : StopsNumber [] := by
  intro character later same
  cases same

theorem stopsNumber_cons {character : Char} (notDigit : character.isDigit = false)
    (notMark : character ∉ ['.', 'e', 'E']) (later : List Char) :
    StopsNumber (character :: later) := by
  intro first others same
  obtain ⟨rfl, _⟩ := List.cons.inj same
  exact ⟨notDigit, notMark⟩

theorem AllSpace.stopsNumber {gap : List Char} (space : AllSpace gap) {rest : List Char}
    (stops : StopsNumber rest) : StopsNumber (gap ++ rest) := by
  cases gap with
  | nil => exact stops
  | cons character gap =>
      have listed : character = ' ' ∨ character = '\t' ∨ character = '\n' ∨ character = '\r' := by
        simpa [isSpace, or_assoc] using space character List.mem_cons_self
      rcases listed with rfl | rfl | rfl | rfl
      all_goals exact stopsNumber_cons (by decide) (by decide) _

theorem isDigit_of_mem_decimal {size : Nat} {digit : Char} (member : digit ∈ Nat.toDigits 10 size) :
    digit.isDigit = true :=
  Nat.isDigit_of_mem_toDigits (by decide) (by decide) member

theorem head?_decimal_ne {size : Nat} (positive : 0 < size) :
    (Nat.toDigits 10 size).head? ≠ some '0' := by
  induction size using Nat.strongRecOn with
  | ind size induction =>
      by_cases small : size < 10
      · have digits : ∀ digit < 10, 0 < digit → Nat.digitChar digit ≠ '0' := by decide
        rw [Nat.toDigits_of_lt_base small, List.head?_cons]
        intro same
        exact digits size small positive (Option.some.inj same)
      · have earlier : (Nat.toDigits 10 (size / 10)).head? ≠ some '0' := by
          apply induction
          · omega
          · omega
        obtain ⟨first, others, written⟩ :=
          List.exists_cons_of_ne_nil (Nat.toDigits_ne_nil (b := 10) (n := size / 10))
        rw [written] at earlier
        rw [Nat.toDigits_of_base_le (by decide) (by omega), written]
        exact earlier

theorem readDigits_decimal (size : Nat) {rest : List Char} (stops : StopsNumber rest) :
    readDigits (Nat.toDigits 10 size ++ rest) = some (Nat.toDigits 10 size, rest) := by
  have allDigits : ∀ digit ∈ Nat.toDigits 10 size, digit.isDigit = true := by
    intro digit member
    exact isDigit_of_mem_decimal member
  have nonempty : Nat.toDigits 10 size ≠ [] := Nat.toDigits_ne_nil
  have stopsAtOnce : rest.takeWhile Char.isDigit = [] ∧ rest.dropWhile Char.isDigit = rest := by
    cases rest with
    | nil => exact ⟨rfl, rfl⟩
    | cons character later =>
        have notDigit := (stops character later rfl).1
        simp [notDigit]
  simp [readDigits, List.takeWhile_append_of_pos allDigits, List.dropWhile_append_of_pos allDigits,
    stopsAtOnce, nonempty]

theorem readWhole_decimal (size : Nat) {rest : List Char} (stops : StopsNumber rest) :
    readWhole (Nat.toDigits 10 size ++ rest) = some (Nat.toDigits 10 size, rest) := by
  rw [readWhole, readDigits_decimal size stops, Option.filter_some]
  cases size with
  | zero => rfl
  | succ size =>
      have notZero := head?_decimal_ne (Nat.succ_pos size)
      simp [notZero]

theorem readNumeral_decimal (negative : Bool) (size : Nat) {rest : List Char}
    (stops : StopsNumber rest) :
    readNumeral negative (Nat.toDigits 10 size ++ rest) =
      some (⟨negative, Nat.toDigits 10 size, [], 0, true⟩, rest) := by
  have noFraction : readFraction rest = some ([], rest) := by
    unfold readFraction
    split
    · exact absurd (List.mem_cons_self) (stops _ _ rfl).2
    · rfl
  have noExponent : readExponent rest = some (none, rest) := by
    unfold readExponent
    split
    · exact absurd (by decide) (stops _ _ rfl).2
    · exact absurd (by decide) (stops _ _ rfl).2
    · rfl
  simp [readNumeral, readWhole_decimal size stops, noFraction, noExponent]

end Json
end FieldRules
