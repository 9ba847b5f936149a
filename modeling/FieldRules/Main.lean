import FieldRules.Command

/-!
# The program

The outer layer of the command: it gathers the arguments, the log variable and the rule text from
the system, lets the library answer, and writes the response.
-/

namespace FieldRules

/-- Reads a file whole.  A path that leads through a file cannot be opened; a directory can be
opened but not read, and then the error names no file. -/
def readFile (path : String) : IO (Except ReadError String) := do
  try
    return decodeText (← IO.FS.readBinFile path)
  catch error =>
    match error with
    | .noFileOrDirectory .. => return .error .notFound
    | .inappropriateType (some _) .. => return .error .notDirectory
    | .inappropriateType none .. => return .error .isDirectory
    | _ => throw error

/-- Reads a stream up to its end, after the bytes read before. -/
partial def readStream (stream : IO.FS.Stream) (before : ByteArray) : IO ByteArray := do
  let chunk ← stream.read 65536
  if chunk.isEmpty then return before
  readStream stream (before ++ chunk)

def readSource : Source → IO (Except ReadError String)
  | .text rule => return .ok rule
  | .file path => readFile path
  | .standardInput => return decodeText (← readStream (← IO.getStdin) ByteArray.empty)

/-- The line of an event in the log. -/
def Event.logLine (event : Event) : String :=
  let details := event.details.map fun (name, detail) =>
    match detail with
    | .text content => " " ++ name ++ "=" ++ content
    | .count amount => " " ++ name ++ "=" ++ amount.repr
  event.level.name ++ " " ++ event.message ++ String.join details

/-- Writes the events of rendering a rule text, as far as the log level asks for them. -/
def writeLog (settings : Settings) (source : String) : IO Unit := do
  for event in settings.events source do
    if event.level.rank ≤ settings.logLevel.rank then IO.eprintln event.logLine

def writeResponse (response : Response) : IO UInt32 := do
  IO.print response.output
  match response with
  | .success _ => pure ()
  | .failure report => IO.eprint report
  | .usage _ => IO.eprint usageText
  return response.status.toUInt32

end FieldRules

open FieldRules in
def main (arguments : List String) : IO UInt32 := do
  match Settings.ofArguments arguments (← IO.getEnv "RULEX_LOG") with
  | .error halt => writeResponse halt.response
  | .ok settings =>
      let source ← readSource settings.source
      match source with
      | .ok text => writeLog settings text
      | .error _ => pure ()
      writeResponse (settings.respond source)
