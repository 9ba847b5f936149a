import FieldRules.Settings

/-!
# Reading the arguments of the command

Arguments are read from left to right.  An option takes its value from its own word or from the next
one.  A value from its own word is checked at once; a value from the next word is checked when the
next known option or the rule text comes, or after the last argument.  An option that is not known,
a second rule text and a value for a flag end the reading at once, whatever is still unchecked.
-/

namespace FieldRules

inductive UsageError where
  /-- An option that is not known, or a second rule text. -/
  | unknownArgument
  /-- A value that is missing or not allowed. -/
  | invalidValue
  /-- A text that names no log level. -/
  | invalidLevel
  /-- A value for a flag. -/
  | unwantedValue
  /-- An option given twice, or a rule text beside a file. -/
  | conflict
  deriving DecidableEq, Repr

inductive Halt where
  | help
  | version
  | error (cause : UsageError)
  deriving DecidableEq, Repr

inductive Key where
  | file
  | format
  | logLevel
  deriving DecidableEq, Repr

inductive Switch where
  | valued (key : Key)
  | pretty
  | help
  | version
  deriving DecidableEq, Repr

namespace Switch

def ofName? (name : List Char) : Option Switch :=
  [("file", valued .file), ("format", valued .format), ("pretty", pretty),
    ("log-level", valued .logLevel), ("help", help), ("version", version)].lookup
      (String.ofList name)

def ofLetter? (letter : Char) : Option Switch :=
  [('f', valued .file), ('o', valued .format), ('p', pretty), ('h', help),
    ('V', version)].lookup letter

end Switch

structure Draft where
  rule : Option String
  file : Option String
  format : Option Format
  pretty : Bool
  logLevel : Option LogLevel
  deriving DecidableEq, Repr

namespace Draft

def empty : Draft := ⟨none, none, none, false, none⟩

def has (draft : Draft) : Key → Bool
  | .file => draft.file.isSome
  | .format => draft.format.isSome
  | .logLevel => draft.logLevel.isSome

def assign (draft : Draft) (key : Key) (value : String) : Except Halt Draft :=
  if draft.has key then .error (.error .conflict)
  else
    match key with
    | .file =>
        if value.isEmpty then .error (.error .invalidValue)
        else .ok { draft with file := some value }
    | .format =>
        match Format.ofName? value with
        | some format => .ok { draft with format := some format }
        | none => .error (.error .invalidValue)
    | .logLevel =>
        match LogLevel.ofText? value with
        | some level => .ok { draft with logLevel := some level }
        | none => .error (.error .invalidLevel)

def setPretty (draft : Draft) : Except Halt Draft :=
  if draft.pretty then .error (.error .conflict) else .ok { draft with pretty := true }

end Draft

/-- An option whose value is not checked yet. -/
inductive Pending where
  | nothing
  /-- The next word may be the value. -/
  | awaiting (key : Key)
  | given (key : Key) (value : String)
  deriving DecidableEq, Repr

structure Reading where
  draft : Draft
  pending : Pending
  /-- Whether options have been ended. -/
  onlyTexts : Bool
  deriving DecidableEq, Repr

inductive ArgumentForm where
  /-- Two dashes, which end the options. -/
  | endOfOptions
  /-- Two dashes and a name, possibly with a value behind an equals sign. -/
  | long (name : List Char) (value : Option (List Char))
  | letters (letters : List Char)
  | text
  deriving DecidableEq, Repr

def ArgumentForm.ofText : List Char → ArgumentForm
  | ['-', '-'] => .endOfOptions
  | '-' :: '-' :: rest =>
      .long (rest.takeWhile (· != '='))
        (match rest.dropWhile (· != '=') with
        | [] => none
        | _ :: value => some value)
  | '-' :: letter :: rest => .letters (letter :: rest)
  | _ => .text

namespace Reading

def start : Reading := ⟨.empty, .nothing, false⟩

/-- Checks the value that has not been checked yet. -/
def settle (reading : Reading) : Except Halt Reading :=
  match reading.pending with
  | .nothing => .ok reading
  | .awaiting _ => .error (.error .invalidValue)
  | .given key value =>
      (reading.draft.assign key value).map fun draft =>
        { reading with draft := draft, pending := .nothing }

def takeRule (reading : Reading) (text : String) : Except Halt Reading :=
  if reading.draft.rule.isSome then .error (.error .unknownArgument)
  else reading.settle.map fun settled =>
    { settled with draft := { settled.draft with rule := some text } }

def takeSwitch (reading : Reading) (switch : Switch) : Except Halt Reading :=
  reading.settle.bind fun settled =>
    match switch with
    | .valued key => .ok { settled with pending := .awaiting key }
    | .pretty => settled.draft.setPretty.map fun draft => { settled with draft := draft }
    | .help => .error .help
    | .version => .error .version

/-- Takes an option with a value in its own word. -/
def takeValue (reading : Reading) (key : Key) (value : List Char) : Except Halt Reading :=
  reading.settle.bind fun settled =>
    (settled.draft.assign key (String.ofList value)).map fun draft =>
      { settled with draft := draft }

def takeLong (reading : Reading) (name : List Char) (value : Option (List Char)) :
    Except Halt Reading :=
  match Switch.ofName? name, value with
  | none, _ => .error (.error .unknownArgument)
  | some (.valued key), some value => reading.takeValue key value
  | some _, some _ => .error (.error .unwantedValue)
  | some switch, none => reading.takeSwitch switch

/-- Takes options of one letter each.  The first that needs a value takes the other letters as its
value, without an equals sign before them. -/
def takeLetters (reading : Reading) : List Char → Except Halt Reading
  | [] => .ok reading
  | letter :: rest =>
      match Switch.ofLetter? letter, rest with
      | none, _ => .error (.error .unknownArgument)
      | some (.valued key), '=' :: value => reading.takeValue key value
      | some (.valued key), character :: value => reading.takeValue key (character :: value)
      | some switch, rest => (reading.takeSwitch switch).bind fun next => next.takeLetters rest

def take (reading : Reading) (argument : String) : Except Halt Reading :=
  if reading.onlyTexts then reading.takeRule argument
  else
    match ArgumentForm.ofText argument.toList, reading.pending with
    | .endOfOptions, _ => .ok { reading with onlyTexts := true }
    | .long name value, _ => reading.takeLong name value
    | .letters letters, _ => reading.takeLetters letters
    | .text, .awaiting key => .ok { reading with pending := .given key argument }
    | .text, _ => reading.takeRule argument

end Reading

namespace Settings

/-- The log level: the one among the arguments, else the one that the variable names, else
warnings. -/
def chooseLevel (given : Option LogLevel) (levelVariable : Option String) : Except Halt LogLevel :=
  match given, levelVariable with
  | some level, _ => .ok level
  | none, some text =>
      match LogLevel.ofText? text with
      | some level => .ok level
      | none => .error (.error .invalidLevel)
  | none, none => .ok .warn

def ofDraft (draft : Draft) (levelVariable : Option String) : Except Halt Settings :=
  (chooseLevel draft.logLevel levelVariable).bind fun level =>
    if draft.rule.isSome && draft.file.isSome then .error (.error .conflict)
    else .ok ⟨draft.rule, draft.file, draft.format.getD .tree, draft.pretty, level⟩

def ofArguments (arguments : List String) (levelVariable : Option String) : Except Halt Settings :=
  (arguments.foldlM Reading.take Reading.start).bind fun reading =>
    reading.settle.bind fun settled => ofDraft settled.draft levelVariable

end Settings
end FieldRules
