import FieldRules.Proofs.ScanSegments
import Mathlib.Data.List.Chain

/-!
# Scanning printed lexemes

A text is printed from lexemes by writing a gap, which may be empty, in front of each.  If no number
stands right before text that would make it longer, the scan of the printed text finds these lexemes
and no others.  To see that, it is enough to look at neighbours: a gap is needed only between a
number and a lexeme that begins with a digit or a point.  So the texts of the tokens that a scan has
read can be joined with any gaps between them and scanned again.
-/

namespace FieldRules

open Text

namespace Piece

def print (pieces : List Piece) : List Char :=
  pieces.flatMap fun piece => piece.gap ++ piece.text

@[simp]
theorem print_nil : print [] = [] := rfl

@[simp]
theorem print_cons (piece : Piece) (later : List Piece) :
    print (piece :: later) = piece.gap ++ (piece.text ++ print later) := by
  simp [print]

/-- No number among the pieces is made longer by the text behind it. -/
inductive Apart (ending : List Char) : List Piece → Prop
  | nil : Apart ending []
  | cons {piece : Piece} {later : List Piece}
      (stops : ¬ Lexical.Continues piece.text (print later ++ ending))
      (rest : Apart ending later) : Apart ending (piece :: later)

def segments (position : Position) : List Piece → List Segment
  | [] => []
  | piece :: later =>
      piece.segment position :: segments (position.advance (piece.gap ++ piece.text)) later

@[simp]
theorem textOf_segments (position : Position) (pieces : List Piece) :
    Segment.textOf (segments position pieces) = print pieces := by
  induction pieces generalizing position with
  | nil => rfl
  | cons piece later induction =>
      rw [segments, Segment.textOf_cons, lexeme_segment, induction, print_cons]
      rfl

/-- The tokens of the segments are the lexemes of the pieces. -/
theorem tokens_segments (position : Position) (pieces : List Piece) :
    ((segments position pieces).map Segment.token).map (fun token => (token.kind, token.value)) =
      pieces.map fun piece => (piece.kind, String.ofList piece.text) := by
  induction pieces generalizing position with
  | nil => rfl
  | cons piece later induction =>
      rw [segments, List.map_cons, List.map_cons, List.map_cons, induction]
      rfl

theorem Apart.laid {ending : List Char} {pieces : List Piece} (apart : Apart ending pieces)
    (position : Position) : Segment.Laid ending position (segments position pieces) := by
  induction apart generalizing position with
  | nil => exact .nil
  | @cons piece later stops rest induction =>
      apply Segment.Laid.cons rfl
      · rw [lexeme_segment, textOf_segments]
        exact Lexeme.first?_exact piece.lexeme stops
      · rw [Segment.text, lexeme_segment]
        exact induction _

/-- The scan of a printed text reads the lexemes that were printed. -/
theorem Apart.exists_tokens {ending : List Char} {pieces : List Piece}
    (apart : Apart ending pieces) (blank : AllBlank ending) :
    ∃ tokens, tokenize (String.ofList (print pieces ++ ending)) = .ok tokens ∧
      tokens.map (fun token => (token.kind, token.value)) =
        pieces.map fun piece => (piece.kind, String.ofList piece.text) := by
  have laid := apart.laid Position.start
  refine ⟨_, ?_, tokens_segments Position.start pieces⟩
  rw [tokenize, Scan.ofText, String.toList_ofList, ← textOf_segments Position.start pieces]
  exact laid.outcome_of_allBlank blank

/-- The second piece may be written behind the first: there is a gap between them, the first is not
a number, or the second does not begin like more of one. -/
def MayFollow (piece next : Piece) : Prop :=
  next.gap = [] → ¬ (Lexical.IsNumber piece.text ∧ Lexical.StartsNumeric next.text)

theorem not_startsUnsigned {next : Piece}
    (separated : next.gap = [] → ¬ Lexical.StartsNumeric next.text) (later : List Piece)
    (ending : List Char) : ¬ Lexical.StartsUnsigned (print (next :: later) ++ ending) := by
  rw [print_cons, List.append_assoc]
  by_cases touching : next.gap = []
  · intro starts
    rw [touching, List.nil_append] at starts
    obtain ⟨character, rest, textEq, _⟩ := next.lexeme.exists_cons
    obtain ⟨first, others, split, isNumeric⟩ := starts.startsNumeric
    rw [textEq] at split
    obtain ⟨rfl, _⟩ := List.cons.inj split
    exact separated touching ⟨character, rest, textEq, isNumeric⟩
  · exact Lexical.not_startsUnsigned_of_gap next.blank touching _

theorem apart_of_isChain {ending : List Char} {pieces : List Piece} (blank : AllBlank ending)
    (chain : pieces.IsChain MayFollow) : Apart ending pieces := by
  induction chain with
  | nil => exact .nil
  | singleton piece =>
      have stops := Lexical.not_startsUnsigned_of_allBlank blank
      exact .cons (fun continues => stops continues.2) .nil
  | @cons_cons piece next later follows chain induction =>
      refine .cons ?_ induction
      rintro ⟨isNumber, starts⟩
      have separated : next.gap = [] → ¬ Lexical.StartsNumeric next.text := by
        intro touching startsNumeric
        exact follows touching ⟨isNumber, startsNumeric⟩
      exact not_startsUnsigned separated later ending starts

end Piece

/-- The second argument consists of the texts of the first, with a gap of at least one blank between
any two of them. -/
inductive Joined : List (List Char) → List Char → Prop
  | nil : Joined [] []
  | single {text : List Char} : Joined [text] text
  | cons {text next gap rest : List Char} {later : List (List Char)} (blank : AllBlank gap)
      (nonempty : gap ≠ []) (joined : Joined (next :: later) rest) :
      Joined (text :: next :: later) (text ++ (gap ++ rest))

/-- The texts of lexemes that are joined can be printed, with any gap in front. -/
theorem Joined.exists_pieces {token : Token} {later : List Token} {joined gap : List Char}
    (lexemes : ∀ listed ∈ token :: later,
      Lexical.IsLexeme listed.kind listed.value.toList)
    (isJoined : Joined ((token :: later).map fun token => token.value.toList) joined)
    (blank : AllBlank gap) :
    ∃ piece pieces, Piece.print (piece :: pieces) = gap ++ joined ∧ piece.gap = gap ∧
      (piece :: pieces).IsChain Piece.MayFollow ∧
      ((piece :: pieces).map fun piece => (piece.kind, String.ofList piece.text)) =
        (token :: later).map fun token => (token.kind, token.value) := by
  let first : Piece :=
    ⟨gap, token.kind, token.value.toList, blank, lexemes token List.mem_cons_self⟩
  induction later generalizing token joined gap with
  | nil =>
      cases isJoined
      refine ⟨first, [], ?_, rfl, .singleton first, ?_⟩
      · simp [first]
      · simp [first]
  | cons next later induction =>
      cases isJoined with
      | cons blankBetween nonempty behind =>
          obtain ⟨second, pieces, printed, gapEq, chain, contents⟩ :=
            induction (fun listed member => lexemes listed (List.mem_cons_of_mem _ member)) behind
              blankBetween
          have follows : Piece.MayFollow first second := by
            intro touching
            exact absurd (gapEq.symm.trans touching) nonempty
          refine ⟨first, second :: pieces, ?_, rfl, .cons_cons follows chain, ?_⟩
          · rw [Piece.print_cons, printed]
          · rw [List.map_cons, contents, List.map_cons]
            simp [first]

theorem isLexeme_of_tokenize {source : String} {tokens : List Token}
    (readable : tokenize source = .ok tokens) :
    ∀ token ∈ tokens, Lexical.IsLexeme token.kind token.value.toList := by
  obtain ⟨segments, ending, _, laid, _, rfl⟩ := Segment.exists_laid_of_outcome readable
  intro token member
  obtain ⟨segment, memberSegment, rfl⟩ := List.mem_map.mp member
  obtain ⟨earlier, later, rfl⟩ := List.append_of_mem memberSegment
  exact Lexeme.first?_sound laid.of_append.2

/-- Scanning undoes printing.  Lexemes that are printed with or without gaps are read again, with
their kinds, if each may follow the one before it.  The same holds of the tokens of a readable text
when their texts are joined with gaps. -/
theorem tokenize_undoes_printing :
    (∀ (pieces : List Piece) (ending : List Char), pieces.IsChain Piece.MayFollow →
      AllBlank ending →
      ∃ tokens, tokenize (String.ofList (Piece.print pieces ++ ending)) = .ok tokens ∧
        (tokens.map fun token => (token.kind, token.value)) =
          pieces.map fun piece => (piece.kind, String.ofList piece.text)) ∧
    ∀ (source : String) (tokens : List Token) (joined : List Char),
      tokenize source = .ok tokens →
      Joined (tokens.map fun token => token.value.toList) joined →
      ∃ again, tokenize (String.ofList joined) = .ok again ∧
        (again.map fun token => (token.kind, token.value)) =
          tokens.map fun token => (token.kind, token.value) := by
  constructor
  · intro pieces ending chain blank
    exact (Piece.apart_of_isChain blank chain).exists_tokens blank
  · intro source tokens joined readable isJoined
    cases tokens with
    | nil =>
        cases isJoined
        have apart : Piece.Apart [] [] := .nil
        exact apart.exists_tokens allBlank_nil
    | cons token later =>
        obtain ⟨piece, pieces, printed, _, chain, contents⟩ :=
          isJoined.exists_pieces (isLexeme_of_tokenize readable) allBlank_nil
        obtain ⟨again, scanned, againEq⟩ :=
          (Piece.apart_of_isChain allBlank_nil chain).exists_tokens allBlank_nil
        rw [printed, List.nil_append, List.append_nil] at scanned
        exact ⟨again, scanned, againEq.trans contents⟩

/-- A gap keeps a fraction from the number in front of it, while a keyword needs none. -/
theorem tokenize_undoes_printing_fraction :
    (∃ tokens, tokenize (String.ofList ['I', 'N', '1', ' ', '.', '5']) = .ok tokens ∧
      (tokens.map fun token => (token.kind, token.value)) =
        [(.condition, "IN"), (.value, "1"), (.value, ".5")]) ∧
    ∃ again, tokenize (String.ofList ['1', '\t', '.', '5']) = .ok again ∧
      (again.map fun token => (token.kind, token.value)) = [(.value, "1"), (.value, ".5")] := by
  have one : Lexical.IsLexeme .value ['1'] :=
    .value (.number (.unsigned (.whole (.singleton (by decide)))))
  have half : Lexical.IsLexeme .value ['.', '5'] :=
    .value (.number (.unsigned (.fraction (.singleton (by decide)))))
  have keyword : Lexical.IsLexeme .condition "IN".toList := .condition (by decide)
  have notNumber : ¬ Lexical.IsNumber ['I', 'N'] := by
    intro isNumber
    cases Lexeme.kind_unique keyword (.value (.number isNumber))
  have tab : AllBlank ['\t'] := by decide
  have readable : tokenize "1 .5" =
      .ok [⟨.value, "1", ⟨0, 1, 0⟩⟩, ⟨.value, ".5", ⟨2, 1, 2⟩⟩] := by
    decide +kernel
  refine ⟨?_, ?_⟩
  · exact tokenize_undoes_printing.1
      [⟨[], _, _, allBlank_nil, keyword⟩, ⟨[], _, _, allBlank_nil, one⟩,
        ⟨[' '], _, _, by decide, half⟩] []
      (.cons_cons (fun _ both => notNumber both.1)
        (.cons_cons (fun touching => nomatch touching) (.singleton _)))
      allBlank_nil
  · exact tokenize_undoes_printing.2 "1 .5" _ _ readable
      (.cons tab (by decide) .single)

end FieldRules
