import SqlSelect.CommandLine.Messages
import SqlSelect.Descriptor.Text
import SqlSelect.Query.Statement
import SqlSelect.Terminal.Spelled

/-!
# Runs of the program

`run` is the whole program as a function: arguments, environment and the bytes
of each source in, exit code and the two output streams out. Nothing is written
to standard output unless all of it can be.
-/

set_option autoImplicit false

namespace SqlSelect.CommandLine

open SqlSelect.Json (FloatReader)

/-- What a run leaves behind. -/
structure Outcome where
  code : UInt32
  stdout : String := ""
  stderr : String := ""
deriving DecidableEq

/-- Why the bytes of a source could not be had. -/
inductive ReadError where
  | notFound
  | denied
  | notDirectory
  | isDirectory
  | other (reason : String)
deriving DecidableEq

def ReadError.message : ReadError → String
  | .notFound => "No such file or directory (os error 2)"
  | .denied => "Permission denied (os error 13)"
  | .notDirectory => "Not a directory (os error 20)"
  | .isDirectory => "Is a directory (os error 21)"
  | .other reason => reason

/-- What could not be done, and why. -/
structure Failure where
  context : String
  cause : String
deriving DecidableEq

/-- The failure as it is shown. Each line of the cause is indented. -/
def Failure.text (f : Failure) : String :=
  "Error: " ++ f.context ++ "\n\nCaused by:\n    " ++ Text.hanging 4 f.cause ++ "\n"

/-! ## Reading -/

def sourceName : Option String → String
  | none => "stdin"
  | some path => path

/-- The text of a source, if its bytes are one. -/
def sourceText (input : Option String) (bytes : Except ReadError ByteArray) :
    Except Failure String :=
  match bytes with
  | .error e => .error ⟨"cannot read " ++ sourceName input, e.message⟩
  | .ok bytes =>
    match String.fromUTF8? bytes with
    | some text => .ok text
    | none => .error ⟨"cannot read " ++ sourceName input, "stream did not contain valid UTF-8"⟩

/-! ## Rendering -/

variable [FloatReader]

/-- The rendering of a text, decoded as what it describes. -/
def render : Subject → String → Except Failure String
  | .query, text =>
    match Descriptor.decode Query text with
    | .error e => .error ⟨"invalid query descriptor", e.message⟩
    | .ok q => q.statement.mapError fun e => ⟨"cannot render query", e.message⟩
  | .expr, text =>
    match Descriptor.decode Expr text with
    | .error e => .error ⟨"invalid expression", e.message⟩
    | .ok e => .ok e.sql

/-- The table of a query, as the trace shows it. -/
def tableNote : Option String → String
  | none => "None"
  | some table => "Some(" ++ Text.quoted table ++ ")"

/-- The steps that a verbose run tells of. -/
def trace : Subject → String → List String
  | .expr, _ => []
  | .query, text =>
    match Descriptor.decode Query text with
    | .error _ => []
    | .ok q =>
      [ "DEBUG decoded query table=" ++ tableNote q.table ++
          " columns=" ++ (Numeral.ofInt q.selects.length).text,
        match q.statement with
        | .ok sql => "DEBUG rendered query sql=" ++ sql
        | .error .missingTable => "DEBUG rejecting query without FROM table"
        | .error .missingSelect =>
          "DEBUG rejecting query without SELECT expressions table=" ++
            Text.quoted (q.table.getD "") ]

/-! ## Runs -/

/-- Lines, each with its end. -/
def unlines (lines : List String) : String :=
  String.join (lines.map (· ++ "\n"))

/-- What a job leaves behind, given the bytes of its source. -/
def Job.outcome (job : Job) (bytes : Except ReadError ByteArray) : Outcome :=
  let reading := match job.input with
    | none => []
    | some path => [" INFO Reading " ++ Terminal.spelled path]
  match sourceText job.input bytes with
  | .error failure => { code := 1, stderr := unlines reading ++ failure.text }
  | .ok text =>
    let notes := unlines (reading ++ if job.verbose then trace job.subject text else [])
    match render job.subject text with
    | .error failure => { code := 1, stderr := notes ++ failure.text }
    | .ok sql => { code := 0, stdout := sql ++ "\n", stderr := notes }

/-- What is left behind when there is no job. -/
def Stop.outcome (env : Environment) : Stop → Outcome
  | .usage error => { code := 2, stderr := error.text env }
  | .help page => { code := 0, stdout := page.text env }
  | .version => { code := 0, stdout := versionLine }

/-- The whole program. `bytes` gives those of a file, or of standard input. -/
def run (env : Environment) (args : List String)
    (bytes : Option String → Except ReadError ByteArray) : Outcome :=
  match Job.parse env args with
  | .error stop => stop.outcome env
  | .ok job => job.outcome (bytes job.input)

end SqlSelect.CommandLine
