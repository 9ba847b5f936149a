import FieldRules.Proofs.JsonScalars

/-!
# JSON values are read as they were written

A layout decides which blanks stand between the parts of a value, and it may put any blanks there.
For every such layout the reader finds the value again and stops right behind it.  The values for
which this holds are the plain ones: they have no floating-point numbers, their whole numbers fit
into 64 bits, and none of their objects names a member twice.
-/

namespace FieldRules
namespace Json

/-- The layout adds nothing but blanks to the marks of the format. -/
structure Layout.Lawful (layout : Layout) : Prop where
  lineBreak : ∀ depth, AllSpace (layout.lineBreak depth)
  colon : ∃ gap, layout.colon = ':' :: gap ∧ AllSpace gap

theorem Layout.lawful_compact : Layout.compact.Lawful where
  lineBreak _ := allSpace_nil
  colon := ⟨[], rfl, allSpace_nil⟩

theorem Layout.lawful_pretty : Layout.pretty.Lawful where
  lineBreak depth := by
    intro character member
    rcases List.mem_cons.mp member with rfl | inIndent
    · rfl
    · rw [List.eq_of_mem_replicate inIndent]
      rfl
  colon := ⟨[' '], rfl, by simp [AllSpace, isSpace]⟩

/-- The values that are read as they were written. -/
inductive Plain : Json → Prop
  | null : Plain .null
  | bool (value : Bool) : Plain (.bool value)
  | natural {size : Nat} (fits : size < Numeral.wordLimit) : Plain (.integer (.ofNat size))
  | negative {less : Nat} (fits : less < Nat.pow 2 63) : Plain (.integer (.negSucc less))
  | string (text : String) : Plain (.string text)
  | array {items : List Json} (plain : ∀ item ∈ items, Plain item) : Plain (.array items)
  | object {members : List (String × Json)} (distinct : (members.map Prod.fst).Nodup)
      (plain : ∀ member ∈ members, Plain member.2) : Plain (.object members)

theorem not_mem_of_isDigit {digit : Char} (isDigit : digit.isDigit = true) {marks : List Char}
    (others : marks.any Char.isDigit = false) : digit ∉ marks := by
  intro member
  have found : marks.any Char.isDigit = true := List.any_eq_true.mpr ⟨digit, member, isDigit⟩
  rw [others] at found
  cases found

theorem exists_decimal_cons (size : Nat) :
    ∃ digit digits, Nat.toDigits 10 size = digit :: digits ∧ digit.isDigit = true := by
  obtain ⟨digit, digits, written⟩ :=
    List.exists_cons_of_ne_nil (Nat.toDigits_ne_nil (b := 10) (n := size))
  exact ⟨digit, digits, written, isDigit_of_mem_decimal (written ▸ List.mem_cons_self)⟩

/-- A value begins with a mark of its own, and not with a blank or the end of a list. -/
theorem Plain.exists_head {value : Json} (plain : Plain value) (layout : Layout) (depth : Nat) :
    ∃ character, (write layout depth value).head? = some character ∧
      character ∉ [' ', '\t', '\n', '\r', ']'] := by
  cases plain with
  | null => exact ⟨'n', by simp only [write, List.head?_cons], by decide⟩
  | bool value =>
      cases value with
      | false => exact ⟨'f', by simp only [write, List.head?_cons], by decide⟩
      | true => exact ⟨'t', by simp only [write, List.head?_cons], by decide⟩
  | @natural size fits =>
      obtain ⟨digit, digits, written, isDigit⟩ := exists_decimal_cons size
      refine ⟨digit, ?_, not_mem_of_isDigit isDigit (by decide)⟩
      simp only [write, written, List.head?_cons]
  | negative fits => exact ⟨'-', by simp only [write, List.head?_cons], by decide⟩
  | string text => exact ⟨'"', by simp only [write, quote, List.head?_cons], by decide⟩
  | @array items plain =>
      refine ⟨'[', ?_, by decide⟩
      cases items <;> simp only [write, List.cons_append, List.head?_cons]
  | @object members distinct plain =>
      refine ⟨'{', ?_, by decide⟩
      cases members <;> simp only [write, List.cons_append, List.head?_cons]

theorem readNumber_natural {size : Nat} (fits : size < Numeral.wordLimit) {rest : List Char}
    (stops : StopsNumber rest) :
    readNumber (Nat.toDigits 10 size ++ rest) = some (.integer (.ofNat size), rest) := by
  have numeral := readNumeral_decimal false size stops
  have value : ofNumeral? ⟨false, Nat.toDigits 10 size, [], 0, true⟩ =
      some (.integer (.ofNat size)) := by
    simp [ofNumeral?, Numeral.toInt?, fits]
  obtain ⟨digit, digits, written, isDigit⟩ := exists_decimal_cons size
  have unsigned : digit ≠ '-' := by
    rintro rfl
    exact absurd isDigit (by decide)
  rw [written, List.cons_append] at numeral ⊢
  rw [written] at value
  unfold readNumber
  split
  · rename_i same
    exact absurd (List.cons.inj same).1 unsigned
  · simp only [numeral, value, bind, Option.bind_some, pure]

theorem readNumber_negative {less : Nat} (fits : less < Nat.pow 2 63) {rest : List Char}
    (stops : StopsNumber rest) :
    readNumber ('-' :: (Nat.toDigits 10 (less + 1) ++ rest)) =
      some (.integer (.negSucc less), rest) := by
  have value : ofNumeral? ⟨true, Nat.toDigits 10 (less + 1), [], 0, true⟩ =
      some (.integer (.negSucc less)) := by
    have bounded : less + 1 ≤ Nat.pow 2 63 := fits
    have notWide : ¬ Nat.pow 2 63 < less + 1 := Nat.not_lt.mpr bounded
    simp [ofNumeral?, Numeral.toInt?, bounded, Int.negSucc_eq]
  unfold readNumber
  simp [readNumeral_decimal true (less + 1) stops, value]

theorem readValue_numeric {character : Char}
    (numeric : character.isDigit = true ∨ character = '-') (bound : Nat) (later : List Char) :
    readValue (bound + 1) (character :: later) = readNumber (character :: later) := by
  have opening : character ∉ ['n', 't', 'f', '"', '[', '{', ' ', '\t', '\n', '\r'] := by
    rcases numeric with isDigit | rfl
    · exact not_mem_of_isDigit isDigit (by decide)
    · decide
  have visible : isSpace character = false := by
    simp only [List.mem_cons, not_or] at opening
    simp [isSpace, opening]
  rw [readValue.eq_2, skipSpace_of_not_isSpace visible]
  split
  case h_7 => rfl
  all_goals
    rename_i same
    obtain ⟨rfl, _⟩ := List.cons.inj same
    exact absurd (by decide) opening

/-- A value is read from any text that begins with it, if the bound is large enough for the written
value and what follows cannot belong to a number. -/
def ReadBack (layout : Layout) (value : Json) : Prop :=
  ∀ depth bound rest, 2 * (write layout depth value).length ≤ bound → StopsNumber rest →
    readValue bound (write layout depth value ++ rest) = some (value, rest)

section Lists

variable {layout : Layout}

theorem AllSpace.readItems_append {gap : List Char} (space : AllSpace gap) (bound : Nat)
    (rest : List Char) : readItems bound (gap ++ rest) = readItems bound rest := by
  cases bound with
  | zero => simp only [readItems]
  | succ bound => simp only [readItems, space.readValue_append]

theorem readItems_write (lawful : layout.Lawful) {first : Json} {items : List Json}
    (back : ∀ item ∈ first :: items, ReadBack layout item) (depth bound : Nat) (rest : List Char)
    (enough :
      2 * (write layout (depth + 1) first ++ writeItems layout (depth + 1) items).length ≤ bound) :
    readItems (bound + 1) (write layout (depth + 1) first ++
      (writeItems layout (depth + 1) items ++ (layout.lineBreak depth ++ ']' :: rest))) =
        some (first :: items, rest) := by
  rw [List.length_append] at enough
  induction items generalizing first bound with
  | nil =>
      have stops : StopsNumber (layout.lineBreak depth ++ ']' :: rest) :=
        (lawful.lineBreak depth).stopsNumber (stopsNumber_cons (by decide) (by decide) rest)
      have closes : skipSpace (layout.lineBreak depth ++ ']' :: rest) = ']' :: rest := by
        rw [(lawful.lineBreak depth).skipSpace_append, skipSpace_of_not_isSpace (by decide)]
      have firstRead := back first List.mem_cons_self (depth + 1) bound _ (by omega) stops
      simp only [writeItems, List.nil_append, readItems, firstRead, closes]
  | cons second items induction =>
      simp only [writeItems, List.cons_append, List.append_assoc, List.length_cons,
        List.length_append] at enough ⊢
      obtain ⟨bound, rfl⟩ := Nat.exists_eq_succ_of_ne_zero (n := bound) (by omega)
      have firstRead : ∀ later,
          readValue (bound + 1) (write layout (depth + 1) first ++ ',' :: later) =
            some (first, ',' :: later) := by
        intro later
        exact back first List.mem_cons_self (depth + 1) _ _ (by omega)
          (stopsNumber_cons (by decide) (by decide) later)
      have goesOn : ∀ later, skipSpace (',' :: later) = ',' :: later :=
        skipSpace_of_not_isSpace (by decide)
      have laterRead := induction (fun item member => back item (List.mem_cons_of_mem _ member))
        bound (by omega)
      simp only [readItems.eq_2 _ (bound + 1), firstRead, goesOn,
        (lawful.lineBreak (depth + 1)).readItems_append, laterRead, Option.map_some]

theorem insertMember_of_fresh {name : String} {members : List (String × Json)}
    (fresh : name ∉ members.map Prod.fst) (value : Json) :
    insertMember name value members = members ++ [(name, value)] := by
  induction members with
  | nil => rfl
  | cons member members induction =>
      obtain ⟨key, old⟩ := member
      rw [List.map_cons, List.mem_cons, not_or] at fresh
      simp [insertMember, Ne.symm fresh.1, induction fresh.2]

theorem not_mem_of_nodup_names {name : String} {value : Json}
    {before members : List (String × Json)}
    (distinct : ((before ++ (name, value) :: members).map Prod.fst).Nodup) :
    name ∉ before.map Prod.fst := by
  intro member
  rw [List.map_append, List.nodup_append] at distinct
  exact distinct.2.2 name member name List.mem_cons_self rfl

/-- A member is read up to the end of its value.  A comma behind it goes on to the next member, and
a brace ends the object. -/
theorem readMembers_member (lawful : layout.Lawful) {name : String} {value : Json}
    (back : ReadBack layout value) {before : List (String × Json)}
    (fresh : name ∉ before.map Prod.fst) (depth bound : Nat) {behind : List Char}
    (enough : 2 * (write layout depth value).length ≤ bound) (stops : StopsNumber behind)
    (rest : List Char) :
    (skipSpace behind = ',' :: rest →
      readMembers (bound + 1) before
          (quote name ++ (layout.colon ++ (write layout depth value ++ behind))) =
        readMembers bound (before ++ [(name, value)]) rest) ∧
    (skipSpace behind = '}' :: rest →
      readMembers (bound + 1) before
          (quote name ++ (layout.colon ++ (write layout depth value ++ behind))) =
        some (before ++ [(name, value)], rest)) := by
  obtain ⟨gap, colon, space⟩ := lawful.colon
  have opens : ∀ later, skipSpace ('"' :: later) = '"' :: later :=
    skipSpace_of_not_isSpace (by decide)
  have divides : ∀ later, skipSpace (':' :: later) = ':' :: later :=
    skipSpace_of_not_isSpace (by decide)
  constructor
  all_goals
    intro marked
    simp only [readMembers.eq_2, quote, colon, List.cons_append, List.append_assoc,
      List.nil_append, opens, readString_quote, divides, space.readValue_append,
      back depth bound behind enough stops, insertMember_of_fresh fresh, marked]

theorem AllSpace.readMembers_append {gap : List Char} (space : AllSpace gap) (bound : Nat)
    (before : List (String × Json)) (rest : List Char) :
    readMembers bound before (gap ++ rest) = readMembers bound before rest := by
  cases bound with
  | zero => simp only [readMembers]
  | succ bound => simp only [readMembers, space.skipSpace_append]

/-- The members of an object are read up to the brace that closes it, after those read before. -/
theorem readMembers_write (lawful : layout.Lawful) {name : String} {value : Json}
    (before : List (String × Json)) {members : List (String × Json)}
    (back : ∀ member ∈ (name, value) :: members, ReadBack layout member.2)
    (distinct : ((before ++ (name, value) :: members).map Prod.fst).Nodup) (depth bound : Nat)
    (rest : List Char)
    (enough :
      2 * (write layout (depth + 1) value ++ writeMembers layout (depth + 1) members).length ≤ bound) :
    readMembers (bound + 1) before (quote name ++ (layout.colon ++
      (write layout (depth + 1) value ++ (writeMembers layout (depth + 1) members ++
        (layout.lineBreak depth ++ '}' :: rest))))) =
          some (before ++ (name, value) :: members, rest) := by
  rw [List.length_append] at enough
  induction members generalizing name value before bound with
  | nil =>
      have fresh := not_mem_of_nodup_names distinct
      have valueBack : ReadBack layout value := back _ List.mem_cons_self
      have stops : StopsNumber (layout.lineBreak depth ++ '}' :: rest) :=
        (lawful.lineBreak depth).stopsNumber (stopsNumber_cons (by decide) (by decide) rest)
      have closes : skipSpace (layout.lineBreak depth ++ '}' :: rest) = '}' :: rest := by
        rw [(lawful.lineBreak depth).skipSpace_append, skipSpace_of_not_isSpace (by decide)]
      rw [writeMembers, List.nil_append]
      exact (readMembers_member lawful valueBack fresh _ _ (by omega) stops rest).2 closes
  | cons member members induction =>
      obtain ⟨second, secondValue⟩ := member
      have fresh := not_mem_of_nodup_names distinct
      have valueBack : ReadBack layout value := back _ List.mem_cons_self
      have distinctLater :
          (((before ++ [(name, value)]) ++ (second, secondValue) :: members).map Prod.fst).Nodup := by
        rw [List.append_assoc]
        exact distinct
      simp only [writeMembers, List.cons_append, List.append_assoc, List.length_cons,
        List.length_append] at enough ⊢
      obtain ⟨bound, rfl⟩ := Nat.exists_eq_succ_of_ne_zero (n := bound) (by omega)
      have laterRead := induction _
        (fun member inLater => back member (List.mem_cons_of_mem _ inLater)) distinctLater bound
        (by omega)
      have stops : ∀ later, StopsNumber (',' :: later) := stopsNumber_cons (by decide) (by decide)
      rw [(readMembers_member lawful valueBack fresh _ _ (by omega) (stops _) _).1
          (skipSpace_of_not_isSpace (by decide) _),
        (lawful.lineBreak (depth + 1)).readMembers_append, laterRead, List.append_assoc]
      rfl

end Lists

theorem readValue_array {bound : Nat} {inner later : List Char} {character : Char}
    (opens : skipSpace inner = character :: later) (filled : character ≠ ']') :
    readValue (bound + 1) ('[' :: inner) =
      (readItems bound (character :: later)).map fun (items, rest) => (.array items, rest) := by
  have visible : skipSpace ('[' :: inner) = '[' :: inner := skipSpace_of_not_isSpace (by decide) inner
  simp only [readValue.eq_2, visible, opens]
  split
  · rename_i same
    exact absurd (List.cons.inj same).1 filled
  · rfl

theorem readValue_object {bound : Nat} {inner later : List Char} {character : Char}
    (opens : skipSpace inner = character :: later) (filled : character ≠ '}') :
    readValue (bound + 1) ('{' :: inner) =
      (readMembers bound [] (character :: later)).map fun (members, rest) =>
        (.object members, rest) := by
  have visible : skipSpace ('{' :: inner) = '{' :: inner := skipSpace_of_not_isSpace (by decide) inner
  simp only [readValue.eq_2, visible, opens]
  split
  · rename_i same
    exact absurd (List.cons.inj same).1 filled
  · rfl

/-- A value that is written in the same way at every depth need only be read with some bound left.
-/
theorem ReadBack.of_word {layout : Layout} {value : Json} (text : List Char)
    (written : ∀ depth, write layout depth value = text) (nonempty : text ≠ [])
    (read : ∀ bound rest, StopsNumber rest →
      readValue (bound + 1) (text ++ rest) = some (value, rest)) : ReadBack layout value := by
  intro depth bound rest enough stops
  rw [written] at enough ⊢
  have positive := List.length_pos_iff.mpr nonempty
  obtain ⟨bound, rfl⟩ := Nat.exists_eq_succ_of_ne_zero (n := bound) (by omega)
  exact read bound rest stops

theorem readBack_natural (layout : Layout) {size : Nat} (fits : size < Numeral.wordLimit) :
    ReadBack layout (.integer (.ofNat size)) := by
  apply ReadBack.of_word (Nat.toDigits 10 size) (fun depth => by simp only [write])
    Nat.toDigits_ne_nil
  intro bound rest stops
  obtain ⟨digit, digits, written, isDigit⟩ := exists_decimal_cons size
  have numberRead := readNumber_natural fits stops
  rw [written, List.cons_append] at numberRead ⊢
  rw [readValue_numeric (Or.inl isDigit), numberRead]

theorem readBack_negative (layout : Layout) {less : Nat} (fits : less < Nat.pow 2 63) :
    ReadBack layout (.integer (.negSucc less)) := by
  apply ReadBack.of_word ('-' :: Nat.toDigits 10 (less + 1)) (fun depth => by simp only [write])
    (List.cons_ne_nil _ _)
  intro bound rest stops
  rw [List.cons_append, readValue_numeric (Or.inr rfl), readNumber_negative fits stops]

theorem readBack_string (layout : Layout) (text : String) : ReadBack layout (.string text) := by
  apply ReadBack.of_word (quote text) (fun depth => by simp only [write]) (List.cons_ne_nil _ _)
  intro bound rest _
  have opens : ∀ later, skipSpace ('"' :: later) = '"' :: later :=
    skipSpace_of_not_isSpace (by decide)
  simp only [quote, List.cons_append, List.append_assoc, List.nil_append, readValue.eq_2, opens,
    readString_quote, Option.map_some]

theorem readBack_array {layout : Layout} (lawful : layout.Lawful) {items : List Json}
    (plain : ∀ item ∈ items, Plain item) (back : ∀ item ∈ items, ReadBack layout item) :
    ReadBack layout (.array items) := by
  cases items with
  | nil =>
      exact .of_word ['[', ']'] (fun depth => by simp only [write]) (by decide)
        fun bound rest _ => rfl
  | cons first items =>
      intro depth bound rest enough stops
      obtain ⟨character, head, unmarked⟩ :=
        (plain first List.mem_cons_self).exists_head layout (depth + 1)
      obtain ⟨later, firstEq⟩ := List.head?_eq_some_iff.mp head
      simp only [List.mem_cons, List.not_mem_nil, or_false, not_or] at unmarked
      have visible : isSpace character = false := by simp [isSpace, unmarked]
      simp only [write, List.cons_append, List.append_assoc, List.length_cons, List.length_append,
        List.nil_append] at enough ⊢
      obtain ⟨bound, rfl⟩ := Nat.exists_eq_add_of_le' (n := bound) (m := 2) (by omega)
      have itemsRead := readItems_write lawful back depth bound rest (by
        rw [List.length_append]
        omega)
      have opens : skipSpace (layout.lineBreak (depth + 1) ++ (write layout (depth + 1) first ++
          (writeItems layout (depth + 1) items ++ (layout.lineBreak depth ++ ']' :: rest)))) =
          character :: (later ++ (writeItems layout (depth + 1) items ++
            (layout.lineBreak depth ++ ']' :: rest))) := by
        rw [(lawful.lineBreak (depth + 1)).skipSpace_append, firstEq, List.cons_append,
          skipSpace_of_not_isSpace visible]
      rw [firstEq, List.cons_append] at itemsRead
      rw [readValue_array opens unmarked.2.2.2.2, itemsRead]
      rfl

theorem readBack_object {layout : Layout} (lawful : layout.Lawful) {members : List (String × Json)}
    (distinct : (members.map Prod.fst).Nodup)
    (back : ∀ member ∈ members, ReadBack layout member.2) : ReadBack layout (.object members) := by
  cases members with
  | nil =>
      exact .of_word ['{', '}'] (fun depth => by simp only [write]) (by decide)
        fun bound rest _ => rfl
  | cons first members =>
      intro depth bound rest enough stops
      obtain ⟨name, value⟩ := first
      simp only [write, List.cons_append, List.append_assoc, List.length_cons, List.length_append,
        List.nil_append] at enough ⊢
      obtain ⟨bound, rfl⟩ := Nat.exists_eq_add_of_le' (n := bound) (m := 2) (by omega)
      have membersRead := readMembers_write lawful [] back distinct depth bound rest (by
        rw [List.length_append]
        omega)
      have opens : skipSpace (layout.lineBreak (depth + 1) ++ (quote name ++ (layout.colon ++
          (write layout (depth + 1) value ++ (writeMembers layout (depth + 1) members ++
            (layout.lineBreak depth ++ '}' :: rest)))))) =
          quote name ++ (layout.colon ++ (write layout (depth + 1) value ++
            (writeMembers layout (depth + 1) members ++
              (layout.lineBreak depth ++ '}' :: rest)))) := by
        rw [(lawful.lineBreak (depth + 1)).skipSpace_append]
        exact skipSpace_of_not_isSpace (by decide) _
      rw [readValue_object opens (by decide)]
      exact congrArg _ membersRead

/-- Plain values are read as they were written in any lawful layout. -/
theorem Plain.readBack {layout : Layout} (lawful : layout.Lawful) {value : Json}
    (plain : Plain value) : ReadBack layout value := by
  induction plain with
  | null =>
      exact .of_word ['n', 'u', 'l', 'l'] (fun depth => by simp only [write]) (by decide)
        fun bound rest _ => rfl
  | bool value =>
      cases value with
      | false =>
          exact .of_word ['f', 'a', 'l', 's', 'e'] (fun depth => by simp only [write]) (by decide)
            fun bound rest _ => rfl
      | true =>
          exact .of_word ['t', 'r', 'u', 'e'] (fun depth => by simp only [write]) (by decide)
            fun bound rest _ => rfl
  | natural fits => exact readBack_natural layout fits
  | negative fits => exact readBack_negative layout fits
  | string text => exact readBack_string layout text
  | array plain induction => exact readBack_array lawful plain induction
  | object distinct plain induction => exact readBack_object lawful distinct induction

/-- A text that writes a plain value, with blanks behind it, denotes that value. -/
theorem Plain.ofText?_write {layout : Layout} (lawful : layout.Lawful) {value : Json}
    (plain : Plain value) {gap : List Char} (space : AllSpace gap) :
    ofText? (String.ofList (write layout 0 value ++ gap)) = some value := by
  have stops : StopsNumber gap := by
    have atEnd := space.stopsNumber stopsNumber_nil
    rwa [List.append_nil] at atEnd
  have finished : skipSpace gap = [] := by
    have atEnd := space.skipSpace_append []
    rwa [List.append_nil] at atEnd
  have valueRead := plain.readBack lawful 0 (2 * (write layout 0 value ++ gap).length + 1) gap
    (by rw [List.length_append]; omega) stops
  simp only [ofText?, String.toList_ofList, valueRead, finished]
  rfl

end Json
end FieldRules
