import FieldRules.Proofs.ScanSegments
import Mathlib.Data.List.Perm.Basic

/-!
# The choice of a pattern

The patterns of the table are tried in their order, the keywords of a pattern are tried in theirs,
and the first one that accepts the beginning of a text decides.  This file proves that the choice
does not depend on these orders.  What is found is always the longest lexeme with which the text
begins.  Lexemes of different kinds begin with different characters and no keyword is the beginning
of another one, so nothing but the first success could have been a success, and a scan reads the
same tokens in any order of the patterns and of their keywords.
-/

namespace FieldRules

open Pattern Lexical

namespace Lexeme

/-- The lexeme is the longest with which the text begins, and its kind is that of its form. -/
structure IsLongest (input : List Char) (lexeme : Lexeme) : Prop where
  splits : lexeme.text ++ lexeme.rest = input
  hasForm : IsLexeme lexeme.kind lexeme.text
  longest : ∀ {kind : TokenKind} {text : List Char},
    IsLexeme kind text → text <+: input → text.length ≤ lexeme.text.length

variable {input : List Char} {lexeme other : Lexeme}

theorem IsLongest.unique (first : IsLongest input lexeme) (second : IsLongest input other) :
    lexeme = other := by
  have beginsFirst : lexeme.text <+: input := ⟨lexeme.rest, first.splits⟩
  have beginsSecond : other.text <+: input := ⟨other.rest, second.splits⟩
  have lengths : lexeme.text.length = other.text.length :=
    Nat.le_antisymm (second.longest first.hasForm beginsFirst)
      (first.longest second.hasForm beginsSecond)
  have texts : lexeme.text = other.text :=
    (List.prefix_of_prefix_length_le beginsFirst beginsSecond lengths.le).eq_of_length lengths
  have rests : lexeme.rest = other.rest := by
    have splits := first.splits.trans second.splits.symm
    rw [texts] at splits
    exact List.append_cancel_left splits
  have kinds : lexeme.kind = other.kind := kind_unique first.hasForm (texts ▸ second.hasForm)
  cases lexeme
  cases other
  simp_all

theorem isLongest_of_first? (found : first? table input = some lexeme) :
    IsLongest input lexeme where
  splits := (first?_splits found).1
  hasForm := first?_sound found
  longest := by
    rintro kind text hasForm ⟨rest, rfl⟩
    obtain ⟨longer, later, foundLonger, _⟩ := first?_append hasForm rest
    obtain rfl := Option.some.inj (found.symm.trans foundLonger)
    simp

theorem first?_eq_none_iff :
    first? table input = none ↔ ∀ kind text, text <+: input → ¬ IsLexeme kind text := by
  constructor
  · rintro refused kind text ⟨rest, rfl⟩ hasForm
    obtain ⟨longer, later, found, _⟩ := first?_append hasForm rest
    rw [refused] at found
    cases found
  · intro absent
    cases found : first? table input with
    | none => rfl
    | some lexeme =>
        exact absurd (first?_sound found) (absent _ _ ⟨lexeme.rest, (first?_splits found).1⟩)

theorem first?_eq_some_iff : first? table input = some lexeme ↔ IsLongest input lexeme := by
  constructor
  · exact isLongest_of_first?
  · intro isLongest
    cases found : first? table input with
    | none =>
        exact absurd isLongest.hasForm
          (first?_eq_none_iff.mp found _ _ ⟨lexeme.rest, isLongest.splits⟩)
    | some other => rw [(isLongest_of_first? found).unique isLongest]

/-- The table finds the longest lexeme with which a text begins, and nothing only if the text begins
with no lexeme at all.  What it finds is not empty, and it is found again in every beginning of the
text that still holds it. -/
theorem finds_longest_lexeme (input : List Char) :
    (∀ lexeme, first? table input = some lexeme ↔ IsLongest input lexeme) ∧
    (first? table input = none ↔ ∀ kind text, text <+: input → ¬ IsLexeme kind text) ∧
    ∀ lexeme, first? table input = some lexeme →
      lexeme.text ≠ [] ∧
      ∀ shorter, shorter <+: input → lexeme.text <+: shorter →
        ∃ rest, first? table shorter = some ⟨lexeme.kind, lexeme.text, rest⟩ := by
  refine ⟨fun _ => first?_eq_some_iff, first?_eq_none_iff, ?_⟩
  intro lexeme found
  refine ⟨(first?_splits found).2, ?_⟩
  rintro shorter ⟨more, split⟩ ⟨rest, rfl⟩
  have whole : lexeme.text ++ (rest ++ more) = input := by
    rw [← List.append_assoc]
    exact split
  have restEq : lexeme.rest = rest ++ more :=
    List.append_cancel_left ((first?_splits found).1.trans whole.symm)
  obtain ⟨kind, text, behind⟩ := lexeme
  dsimp only at restEq whole
  subst restEq whole
  exact ⟨rest, first?_cut found⟩

/-- A second point ends a number, also where it is the last character that is left.  A field
reference without a name is no lexeme, and nothing shorter is one. -/
theorem finds_longest_lexeme_number :
    IsLongest "1.2.3".toList ⟨.value, "1.2".toList, ".3".toList⟩ ∧
      (∃ rest, first? table "1.2.".toList = some ⟨.value, "1.2".toList, rest⟩) ∧
      ∀ kind text, text <+: "FIELD(\"\")".toList → ¬ IsLexeme kind text := by
  have found : first? table "1.2.3".toList = some ⟨.value, "1.2".toList, ".3".toList⟩ := by
    decide
  have refused : first? table "FIELD(\"\")".toList = none := by decide
  obtain ⟨longest, _, again⟩ := finds_longest_lexeme "1.2.3".toList
  refine ⟨(longest _).mp found, ?_, (finds_longest_lexeme _).2.1.mp refused⟩
  exact (again _ found).2 "1.2.".toList ⟨['3'], by decide⟩ ⟨['.'], by decide⟩

end Lexeme

/-- At most one of the listed items has the property. -/
def AtMostOne {Item : Type} (Holds : Item → Prop) (items : List Item) : Prop :=
  items.Pairwise fun first second => ¬ (Holds first ∧ Holds second)

namespace AtMostOne

variable {Item Found : Type} {Holds : Item → Prop} {items others : List Item}

theorem perm (one : AtMostOne Holds items) (order : items.Perm others) : AtMostOne Holds others :=
  List.Pairwise.perm one order fun apart both => apart both.symm

/-- Where at most one choice succeeds, the first success does not depend on the order. -/
theorem findSome?_eq {choose : Item → Option Found}
    (one : AtMostOne (fun item => (choose item).isSome = true) items) (order : items.Perm others) :
    items.findSome? choose = others.findSome? choose := by
  induction order with
  | nil => rfl
  | cons item order induction =>
      rw [List.findSome?_cons, List.findSome?_cons, induction (List.Pairwise.of_cons one)]
  | swap first second rest =>
      have apart := List.rel_of_pairwise_cons one List.mem_cons_self
      cases foundFirst : choose first with
      | none => simp [List.findSome?_cons, foundFirst]
      | some found =>
          cases foundSecond : choose second with
          | none => simp [foundFirst, foundSecond]
          | some found' => exact absurd ⟨by simp [foundSecond], by simp [foundFirst]⟩ apart
  | trans order order' induction induction' =>
      exact (induction one).trans (induction' (one.perm order))

end AtMostOne

namespace Lexical

def kindOpenedBy (character : Char) : TokenKind :=
  if character = 'F' then .field
  else if character ∈ ['T', 'R', 'M', 'I'] then .condition
  else if character ∈ ['A', 'O', 'N'] then .logical
  else if character = ',' then .separator
  else .value

theorem Opens.kind_eq {kind : TokenKind} {character : Char} (opens : Opens kind character) :
    kindOpenedBy character = kind := by
  cases kind with
  | field =>
      obtain rfl : character = 'F' := opens
      rfl
  | condition =>
      simp only [Opens, List.mem_cons, List.not_mem_nil, or_false] at opens
      rcases opens with rfl | rfl | rfl | rfl <;> rfl
  | value =>
      rcases opens with listed | isDigit
      · simp only [List.mem_cons, List.not_mem_nil, or_false] at listed
        rcases listed with rfl | rfl | rfl | rfl | rfl <;> rfl
      · have notListed : character ∉ ['F', 'T', 'R', 'M', 'I', 'A', 'O', 'N', ','] := by
          intro listed
          simp only [List.mem_cons, List.not_mem_nil, or_false] at listed
          rcases listed with rfl | rfl | rfl | rfl | rfl | rfl | rfl | rfl | rfl <;>
            exact absurd isDigit (by decide)
        simp only [List.mem_cons, List.not_mem_nil, or_false, not_or] at notListed
        simp [kindOpenedBy, notListed]
  | logical =>
      simp only [Opens, List.mem_cons, List.not_mem_nil, or_false] at opens
      rcases opens with rfl | rfl | rfl <;> rfl
  | separator =>
      obtain rfl : character = ',' := opens
      rfl
  | operator => exact opens.elim
  | transform => exact opens.elim
  | invalid => exact opens.elim

end Lexical

namespace Pattern

theorem head?_of_accepts {pattern : Pattern} (listed : pattern ∈ table) {input : List Char}
    (accepts : (pattern.recognise input).isSome = true) :
    input.head?.map kindOpenedBy = some pattern.kind := by
  obtain ⟨⟨text, rest⟩, recognised⟩ := Option.isSome_iff_exists.mp accepts
  obtain ⟨character, others, rfl, opens⟩ := (table_sound listed recognised).exists_cons
  rw [← pattern.splits recognised, List.cons_append, List.head?_cons, Option.map_some, opens.kind_eq]

theorem atMostOne_pattern (input : List Char) :
    AtMostOne (fun pattern => (pattern.recognise input).isSome = true) table := by
  have kindsDiffer : table.Pairwise fun first second => first.kind ≠ second.kind := by decide
  refine kindsDiffer.imp_of_mem ?_
  rintro first second listedFirst listedSecond different ⟨acceptsFirst, acceptsSecond⟩
  have kinds := (head?_of_accepts listedFirst acceptsFirst).symm.trans
    (head?_of_accepts listedSecond acceptsSecond)
  exact different (Option.some.inj kinds)

/-- No word is the beginning of another one. -/
def PrefixFree (words : List String) : Prop :=
  words.Pairwise fun first second =>
    ¬ first.toList <+: second.toList ∧ ¬ second.toList <+: first.toList

instance (words : List String) : Decidable (PrefixFree words) :=
  inferInstanceAs (Decidable (words.Pairwise _))

theorem PrefixFree.atMostOne {words : List String} (free : PrefixFree words) (input : List Char) :
    AtMostOne (fun word => word.toList <+: input) words := by
  refine free.imp ?_
  rintro first second ⟨notFirst, notSecond⟩ ⟨beginsFirst, beginsSecond⟩
  rcases List.prefix_or_prefix_of_prefix beginsFirst beginsSecond with shorter | longer
  · exact notFirst shorter
  · exact notSecond longer

theorem isSome_word_iff {expected input : List Char} :
    (Recogniser.word expected input).isSome = true ↔ expected <+: input := by
  simp [Recogniser.word]

/-- The pattern of keywords that are tried in another order. -/
def reordered (kind : TokenKind) {words others : List String}
    (nonempty : ∀ entry ∈ words, entry ≠ "") (order : others.Perm words) : Pattern :=
  keywords kind others fun entry listed => nonempty entry (order.mem_iff.mp listed)

theorem reordered_eq (kind : TokenKind) {words others : List String}
    (nonempty : ∀ entry ∈ words, entry ≠ "") (order : others.Perm words)
    (free : PrefixFree words) : reordered kind nonempty order = keywords kind words nonempty := by
  have same : Recogniser.oneOf (others.map String.toList) =
      Recogniser.oneOf (words.map String.toList) := by
    funext input
    rw [Recogniser.oneOf, Recogniser.oneOf, List.findSome?_map, List.findSome?_map]
    symm
    apply AtMostOne.findSome?_eq _ order.symm
    simpa only [Function.comp, isSome_word_iff] using free.atMostOne input
  simp only [reordered, keywords, same]

theorem conditionKeywords_nonempty : ∀ keyword ∈ conditionKeywords, keyword ≠ "" := by
  simp [conditionKeywords]

theorem logicalKeywords_nonempty : ∀ keyword ∈ logicalKeywords, keyword ≠ "" := by
  simp [logicalKeywords]

/-- The pattern table with other orders of the keywords. -/
def tableWith {conditions logicals : List String}
    (conditionOrder : conditions.Perm conditionKeywords)
    (logicalOrder : logicals.Perm logicalKeywords) : List Pattern :=
  [field, reordered .condition conditionKeywords_nonempty conditionOrder, value,
    reordered .logical logicalKeywords_nonempty logicalOrder, separator]

theorem tableWith_eq {conditions logicals : List String}
    (conditionOrder : conditions.Perm conditionKeywords)
    (logicalOrder : logicals.Perm logicalKeywords) :
    tableWith conditionOrder logicalOrder = table := by
  rw [tableWith, reordered_eq _ _ _ (by decide), reordered_eq _ _ _ (by decide)]
  rfl

theorem first?_eq_of_perm {patterns : List Pattern} (order : patterns.Perm table)
    (input : List Char) : Lexeme.first? patterns input = Lexeme.first? table input := by
  symm
  apply AtMostOne.findSome?_eq _ order.symm
  simpa only [lexeme?, Option.isSome_map] using atMostOne_pattern input

end Pattern

/-- A scan depends on the patterns only by the lexemes that they find. -/
theorem Scan.run_congr {patterns others : List Pattern}
    (same : ∀ input, Lexeme.first? patterns input = Lexeme.first? others input)
    (position : Position) (input : List Char) :
    run patterns position input = run others position input := by
  induction input using scan_induction others generalizing position with
  | blank gap blank => rw [run_of_allBlank blank, run_of_allBlank blank]
  | refused gap rest blank visible refused =>
      rw [run_stuck blank visible refused, run_stuck blank visible (same rest ▸ refused)]
  | read gap kind text rest blank visible found induction =>
      rw [run_read blank visible found, run_read blank visible (same _ ▸ found), induction]

/-- No order decides anything.  At most one pattern of the table accepts the beginning of a text,
and the text begins with at most one keyword of each kind.  So the patterns find the same lexeme and
read the same tokens in every order, also if their keywords are tried in other orders. -/
theorem search_order_never_decides (source : String) :
    AtMostOne (fun pattern => (pattern.recognise source.toList).isSome = true) table ∧
    AtMostOne (fun keyword => keyword.toList <+: source.toList) conditionKeywords ∧
    AtMostOne (fun keyword => keyword.toList <+: source.toList) logicalKeywords ∧
    ∀ {conditions logicals : List String} (conditionOrder : conditions.Perm conditionKeywords)
      (logicalOrder : logicals.Perm logicalKeywords) {patterns : List Pattern},
      patterns.Perm (tableWith conditionOrder logicalOrder) →
      Lexeme.first? patterns source.toList = Lexeme.first? table source.toList ∧
      (Scan.run patterns Position.start source.toList).outcome = tokenize source := by
  refine ⟨atMostOne_pattern _, PrefixFree.atMostOne (by decide) _,
    PrefixFree.atMostOne (by decide) _, ?_⟩
  intro conditions logicals conditionOrder logicalOrder patterns order
  rw [tableWith_eq] at order
  refine ⟨first?_eq_of_perm order _, ?_⟩
  rw [tokenize, Scan.ofText, Scan.run_congr (first?_eq_of_perm order)]

/-- With all orders reversed, a text with lexemes of every kind is read as before. -/
theorem search_order_never_decides_reversed :
    (Scan.run (tableWith (List.reverse_perm conditionKeywords)
        (List.reverse_perm logicalKeywords)).reverse Position.start
        "FIELD(\"b\")IN.5,NOT".toList).outcome =
      .ok [⟨.field, "FIELD(\"b\")", ⟨0, 1, 0⟩⟩, ⟨.condition, "IN", ⟨10, 1, 10⟩⟩,
        ⟨.value, ".5", ⟨12, 1, 12⟩⟩, ⟨.separator, ",", ⟨14, 1, 14⟩⟩,
        ⟨.logical, "NOT", ⟨15, 1, 15⟩⟩] := by
  have readable : tokenize "FIELD(\"b\")IN.5,NOT" =
      .ok [⟨.field, "FIELD(\"b\")", ⟨0, 1, 0⟩⟩, ⟨.condition, "IN", ⟨10, 1, 10⟩⟩,
        ⟨.value, ".5", ⟨12, 1, 12⟩⟩, ⟨.separator, ",", ⟨14, 1, 14⟩⟩,
        ⟨.logical, "NOT", ⟨15, 1, 15⟩⟩] := by
    decide +kernel
  rw [← readable]
  exact ((search_order_never_decides _).2.2.2 _ _ (List.reverse_perm _)).2

end FieldRules
