import FieldRules.Proofs.ScanSegments

/-!
# Texts one behind the other

What a scan finds in a text does not depend on where the text begins: only the positions of its
tokens do.  So a text that stands behind another one and a gap is scanned as if it stood alone, with
its positions moved.  The gap keeps a number at the end of the first text from growing into the
second.
-/

namespace FieldRules

open Text

def Token.moved (move : Position → Position) (token : Token) : Token :=
  { token with position := move token.position }

def RuleError.moved (move : Position → Position) : RuleError → RuleError
  | .unreadable remainder position => .unreadable remainder (move position)
  | .insufficientTokens found => .insufficientTokens found
  | .expectedValue condition position => .expectedValue condition (move position)
  | .unexpectedToken token => .unexpectedToken (token.moved move)

namespace Position

/-- The position that a place of the source has when `front` stands before the source. -/
def behind (front source : List Char) (position : Position) : Position :=
  locate (front ++ source) (byteLength front + position.offset)

theorem behind_advance_start (front before after : List Char) :
    behind front (before ++ after) (start.advance before) = (start.advance front).advance before := by
  rw [behind, offset_advance_start, ← byteLength_append, ← List.append_assoc, locate_append,
    advance_append]

end Position

namespace Scan

variable {patterns : List Pattern} {move : Position → Position}

/-- The scan with other positions. -/
def moved (move : Position → Position) : Scan → Scan
  | .finished => .finished
  | .stuck position rest => .stuck (move position) rest
  | .read token next => .read (token.moved move) (next.moved move)

/-- Scans of one text from two positions differ by the positions only.  It is enough that the places
up to which the text can be read correspond to each other. -/
theorem run_moved {position other : Position} {input : List Char}
    (moves : ∀ piece rest, input = piece ++ rest →
      move (position.advance piece) = other.advance piece) :
    run patterns other input = (run patterns position input).moved move := by
  induction input using scan_induction patterns generalizing position other with
  | blank gap blank => rw [run_of_allBlank blank, run_of_allBlank blank, moved]
  | refused gap rest blank visible refused =>
      rw [run_stuck blank visible refused, run_stuck blank visible refused, moved,
        moves gap rest rfl]
  | read gap kind text later blank visible found induction =>
      have movesLater : ∀ piece rest, later = piece ++ rest →
          move ((position.advance (gap ++ text)).advance piece) =
            (other.advance (gap ++ text)).advance piece := by
        rintro piece rest rfl
        rw [← Position.advance_append, ← Position.advance_append]
        apply moves _ rest
        simp only [List.append_assoc]
      rw [run_read blank visible found, run_read blank visible found, moved, Token.moved,
        moves gap _ rfl, induction movesLater]

theorem run_behind (front source : List Char) :
    run patterns (Position.start.advance front) source =
      (run patterns Position.start source).moved (Position.behind front source) := by
  apply run_moved
  rintro piece rest rfl
  exact Position.behind_advance_start front piece rest

/-- The outcome of a moved scan is the outcome of the scan with its positions moved. -/
theorem outcome_moved (scan : Scan) :
    (scan.moved move).outcome =
      (scan.outcome.map (List.map (Token.moved move))).mapError (RuleError.moved move) := by
  induction scan with
  | finished => rfl
  | stuck position rest => rfl
  | read token next induction =>
      rw [moved, outcome, induction, outcome]
      cases next.outcome with
      | ok tokens => rfl
      | error error => rfl

/-- Behind a readable text and a gap a scan goes on with the second text, whose positions are moved.
-/
theorem ofText_append {first gap second : String} {tokens : List Token}
    (readable : tokenize first = .ok tokens) (blank : AllBlank gap.toList) (nonempty : gap ≠ "") :
    ofText (first ++ gap ++ second) =
      readAll tokens ((ofText second).moved
        (Position.behind (first ++ gap).toList second.toList)) := by
  have filled : gap.toList ≠ [] := by simpa using nonempty
  have stops := Lexical.not_startsUnsigned_of_gap blank filled second.toList
  rw [tokenize, ofText] at readable
  rw [ofText, ofText, ← run_behind, String.toList_append, String.toList_append, List.append_assoc,
    run_append readable stops, run_gap blank, Position.advance_append]

end Scan

/-- Scanning is compatible with putting texts one behind the other.  If the first text can be read,
the tokens of the second text follow its tokens, and if the second text cannot be read, neither can
the whole, for the same remainder.  In both cases the positions are those at which the second text
stands in the whole. -/
theorem tokenize_append {first gap second : String} {tokens : List Token}
    (readable : tokenize first = .ok tokens) (blank : AllBlank gap.toList) (nonempty : gap ≠ "") :
    (∀ later, tokenize second = .ok later →
      tokenize (first ++ gap ++ second) = .ok (tokens ++ later.map fun token =>
        { token with
          position := Position.locate (first ++ gap ++ second).toList
            (byteLength (first ++ gap).toList + token.position.offset) })) ∧
    ∀ remainder position, tokenize second = .error (.unreadable remainder position) →
      tokenize (first ++ gap ++ second) = .error (.unreadable remainder
        (Position.locate (first ++ gap ++ second).toList
          (byteLength (first ++ gap).toList + position.offset))) := by
  have joined : tokenize (first ++ gap ++ second) =
      ((Scan.ofText second).moved
        (Position.behind (first ++ gap).toList second.toList)).outcome.map (tokens ++ ·) := by
    rw [tokenize, Scan.ofText_append readable blank nonempty, Scan.outcome_readAll]
  have whole : (first ++ gap ++ second).toList = (first ++ gap).toList ++ second.toList :=
    String.toList_append
  rw [joined, whole]
  constructor
  · intro later readableLater
    rw [tokenize] at readableLater
    rw [Scan.outcome_moved, readableLater]
    rfl
  · intro remainder position failed
    rw [tokenize] at failed
    rw [Scan.outcome_moved, failed]
    rfl

/-- The second text begins in the middle of a line, and its fraction stays apart from the number in
front of it. -/
theorem tokenize_append_fraction :
    tokenize ("IN\n1" ++ "\t" ++ ".5") =
      .ok [⟨.condition, "IN", ⟨0, 1, 0⟩⟩, ⟨.value, "1", ⟨3, 2, 0⟩⟩, ⟨.value, ".5", ⟨5, 2, 2⟩⟩] ∧
    tokenize ("IN\n1" ++ "\t" ++ ". ") = .error (.unreadable "." ⟨5, 2, 2⟩) := by
  have readable : tokenize "IN\n1" =
      .ok [⟨.condition, "IN", ⟨0, 1, 0⟩⟩, ⟨.value, "1", ⟨3, 2, 0⟩⟩] := by
    decide +kernel
  have readableLater : tokenize ".5" = .ok [⟨.value, ".5", ⟨0, 1, 0⟩⟩] := by
    decide +kernel
  have failed : tokenize ". " = .error (.unreadable "." ⟨0, 1, 0⟩) := by
    decide +kernel
  constructor
  · exact (tokenize_append readable (by decide) (by decide)).1 _ readableLater
  · exact (tokenize_append readable (by decide) (by decide)).2 _ _ failed

end FieldRules
