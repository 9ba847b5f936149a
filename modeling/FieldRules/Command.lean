import FieldRules.Arguments
import FieldRules.Compile
import FieldRules.Diagnostic
import FieldRules.FileTree
import FieldRules.Json.Encoding
import FieldRules.Json.Printer

/-!
# The command

The command reads its settings, gets the rule text from its source and writes the compiled rule in
the chosen format.  A rule that fails is answered with its diagnostic.
-/

namespace FieldRules

inductive Response where
  /-- The result, for the standard output. -/
  | success (output : String)
  /-- The report of a failure, for the standard error. -/
  | failure (report : String)
  | usage (cause : UsageError)
  deriving DecidableEq, Repr

namespace Response

def status : Response → Nat
  | .success _ => 0
  | .failure _ => 1
  | .usage _ => 2

def output : Response → String
  | .success output => output
  | .failure _ => ""
  | .usage _ => ""

end Response

def versionLine : String := "rulex 0.1.0\n"

def usageText : String :=
  Text.unlines
    ["Lex and parse RULEX field rules",
      "",
      "Usage: rulex [OPTIONS] [RULE]",
      "",
      "Arguments:",
      "  [RULE]  Rule text, e.g. 'FIELD(\"age\") RANGE 18'",
      "",
      "Options:",
      "  -f, --file <PATH>        Read the rule text from a file instead",
      "  -o, --format <FORMAT>    Output format: json, tree, tokens or clauses",
      "  -p, --pretty             Pretty-print JSON output",
      "      --log-level <LEVEL>  Maximum log level written to stderr",
      "  -h, --help               Print help",
      "  -V, --version            Print version"]

namespace Settings

/-- The text of a JSON value in the chosen layout. -/
def jsonText (settings : Settings) (value : Json) : String :=
  (if settings.pretty then value.pretty else value.compact) ++ "\n"

def render (settings : Settings) (source : String) : Except RuleError String := do
  let tokens ← tokenize source
  match settings.format with
  | .tokens => return settings.jsonText (Token.listToJson tokens)
  | .json =>
      let root ← parseRules tokens
      return settings.jsonText root.toJson
  | .tree =>
      let root ← parseRules tokens
      return root.render
  | .clauses =>
      let root ← parseRules tokens
      return Text.unlines (root.clauses.map Clause.text)

/-- The events of rendering a rule text; the token format does not parse. -/
def events (settings : Settings) (source : String) : List Event :=
  match settings.format with
  | .tokens => (Scan.ofText source).events
  | _ => compileEvents source

/-- The response for a rule text, or for the reason why it cannot be read. -/
def respond (settings : Settings) : Except ReadError String → Response
  | .error error => .failure ("Error: " ++ error.message ++ "\n")
  | .ok source =>
      match settings.render source with
      | .ok output => .success output
      | .error error => .failure (Diagnostic.render settings.source.name source error)

end Settings

def decodeText (bytes : ByteArray) : Except ReadError String :=
  match String.fromUTF8? bytes with
  | some text => .ok text
  | none => .error .notText

/-- Everything that a run of the command depends on. -/
structure Environment where
  arguments : List String
  /-- The variable that names a log level, if it is set. -/
  logVariable : Option String
  files : FileTree
  standardInput : ByteArray

namespace Environment

def read (environment : Environment) : Source → Except ReadError String
  | .text rule => .ok rule
  | .file path => (environment.files.read path).bind decodeText
  | .standardInput => decodeText environment.standardInput

end Environment

def Halt.response : Halt → Response
  | .help => .success usageText
  | .version => .success versionLine
  | .error cause => .usage cause

def runCommand (environment : Environment) : Response :=
  match Settings.ofArguments environment.arguments environment.logVariable with
  | .error halt => halt.response
  | .ok settings => settings.respond (environment.read settings.source)

end FieldRules
