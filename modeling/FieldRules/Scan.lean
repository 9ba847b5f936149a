import FieldRules.Event
import FieldRules.Lexeme.Pattern
import FieldRules.RuleError
import FieldRules.Text.Blank

/-!
# Scanning a rule text

A scan reads a text from left to right: it skips blanks, takes the lexeme that the pattern table
finds, and goes on after it.  The scan ends with the text or at the first place where no pattern
accepts what follows.  A `Scan` records the tokens in the order in which they were read together
with how the scan ended; the token list, the outcome and the events are views of that record.
-/

namespace FieldRules

inductive Scan where
  /-- Only blanks are left. -/
  | finished
  /-- No pattern accepts the text `rest`, which begins at `position`. -/
  | stuck (position : Position) (rest : List Char)
  /-- A token was read, and the scan went on. -/
  | read (token : Token) (next : Scan)
  deriving Repr

namespace Scan

def run (patterns : List Pattern) (position : Position) (input : List Char) : Scan :=
  let here := position.advance (input.takeWhile Text.isBlank)
  let rest := input.dropWhile Text.isBlank
  if rest.isEmpty then .finished
  else
    match found : Lexeme.first? patterns rest with
    | none => .stuck here rest
    | some lexeme =>
        have : lexeme.rest.length < input.length :=
          Nat.lt_of_lt_of_le (Lexeme.first?_rest_length_lt found)
            (List.dropWhile_sublist _).length_le
        .read ⟨lexeme.kind, String.ofList lexeme.text, here⟩
          (run patterns (here.advance lexeme.text) lexeme.rest)
termination_by input.length

def ofText (source : String) : Scan :=
  run Pattern.table Position.start source.toList

/-- The tokens that were read, also when the scan got stuck after them. -/
def tokens : Scan → List Token
  | .finished => []
  | .stuck .. => []
  | .read token next => token :: next.tokens

def outcome : Scan → Except RuleError (List Token)
  | .finished => .ok []
  | .stuck position rest => .error (.unreadable (String.ofList (Text.trimEnd rest)) position)
  | .read token next => next.outcome.map (token :: ·)

/-- The events of a scan that has read `count` tokens before. -/
def eventsAfter (count : Nat) : Scan → List Event
  | .finished => [.tokenized count]
  | .stuck position _ => [.unreadable position.offset]
  | .read token next =>
      .token token.kind token.value token.position.offset :: next.eventsAfter (count + 1)

def events (scan : Scan) : List Event := scan.eventsAfter 0

end Scan

def tokenize (source : String) : Except RuleError (List Token) :=
  (Scan.ofText source).outcome

end FieldRules
