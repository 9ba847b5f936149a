import FieldRules.Event

/-!
# Settings of the command

The settings say where a rule text comes from, how the compiled rule is written and how much is
logged.
-/

namespace FieldRules

/-- How a compiled rule is written. -/
inductive Format where
  | json
  | tree
  | tokens
  | clauses
  deriving DecidableEq, Repr, Inhabited

namespace Format

def all : List Format := [.json, .tree, .tokens, .clauses]

def name : Format → String
  | .json => "json"
  | .tree => "tree"
  | .tokens => "tokens"
  | .clauses => "clauses"

def ofName? (text : String) : Option Format :=
  all.find? fun format => format.name = text

end Format

namespace LogLevel

/-- The level with the given rank, written in decimal. -/
def ofDigits? (digits : List Char) : Option LogLevel :=
  if digits.isEmpty || !digits.all Char.isDigit then none
  else all.find? fun level => level.rank = Nat.ofDigitChars 10 digits 0

/-- The level that a text names: its rank, which may have a plus sign and leading zeros, or its name
in letters of either case. -/
def ofText? (text : String) : Option LogLevel :=
  let digits :=
    match text.toList with
    | '+' :: rest => rest
    | whole => whole
  (ofDigits? digits).or
    (all.find? fun level => level.name.toList = text.toList.map Char.toUpper)

end LogLevel

structure Settings where
  /-- The rule text itself, if it is given. -/
  rule : Option String
  file : Option String
  format : Format
  /-- Whether JSON is written on indented lines. -/
  pretty : Bool
  logLevel : LogLevel
  deriving DecidableEq, Repr

inductive Source where
  | text (rule : String)
  | file (path : String)
  | standardInput
  deriving DecidableEq, Repr

namespace Source

def name : Source → String
  | .text _ => "<arg>"
  | .file path => path
  | .standardInput => "<stdin>"

end Source

namespace Settings

/-- The source that the settings choose: a rule text, else a file, else the standard input. -/
def source (settings : Settings) : Source :=
  match settings.rule, settings.file with
  | some rule, _ => .text rule
  | none, some path => .file path
  | none, none => .standardInput

end Settings
end FieldRules
