import SqlSelect.CommandLine.Arguments
import SqlSelect.Terminal.Sequence
import SqlSelect.Text.Hanging

/-!
# Help and messages of usage

The texts that are shown instead of doing a job. A page of help shows the
variable that stands in for an option together with its present value. Both
texts are plain: a control sequence in a value or an argument is not passed on.
-/

set_option autoImplicit false

namespace SqlSelect.CommandLine

def programName : String := "chsql"

/-- The variable that stands in for the option to be verbose. -/
def verboseVariable : String := "CHSQL_VERBOSE"

/-- The variable that stands in for the path of the input. -/
def inputVariable : String := "CHSQL_INPUT"

def versionLine : String := programName ++ " 0.1.0\n"

namespace Subject

def name : Subject → String
  | .query => "query"
  | .expr => "expr"

def summary : Subject → String
  | .query => "Render a full SELECT statement from a query descriptor"
  | .expr => "Render a single expression"

def content : Subject → String
  | .query => "descriptor"
  | .expr => "expression"

end Subject

/-- A variable of the environment and its value. -/
def variableNote (name : String) (value : Option String) : String :=
  "[env: " ++ name ++ "=" ++ value.getD "" ++ "]"

/-- The help of an option that a variable stands in for, and the indent of the
option below it. Its later lines start in the column of the help. The name below
is set off from the rest, so that a sequence still open in the value ends there. -/
def optionHelp (column : Nat) (help name : String) (value : Option String) : String :=
  Terminal.plain (Text.hanging column (help ++ " " ++ variableNote name value) ++ "\n  ")

/-- What the program does. -/
def summary : String := "Render ClickHouse SELECT statements from JSON query descriptors"

def helpSummary : String := "Print this message or the help of the given subcommand(s)"

namespace Page

/-- The text of a page. -/
def text (env : Environment) : Page → String
  | .overview =>
    summary ++ "\n\nUsage: " ++ programName ++ " [OPTIONS] <COMMAND>\n\n" ++
      "Commands:\n" ++
      "  query  " ++ Subject.query.summary ++ "\n" ++
      "  expr   " ++ Subject.expr.summary ++ "\n" ++
      "  help   " ++ helpSummary ++ "\n\n" ++
      "Options:\n" ++
      "  -v, --verbose  " ++
        optionHelp 17 "Enable verbose output" verboseVariable env.verbose ++
      "-h, --help     Print help\n" ++
      "  -V, --version  Print version\n"
  | .subject s =>
    s.summary ++ "\n\nUsage: " ++ programName ++ " " ++ s.name ++ " [OPTIONS]\n\n" ++
      "Options:\n" ++
      "  -i, --input <INPUT>  " ++
        optionHelp 23 ("JSON file holding the " ++ s.content ++ " (stdin if not specified)")
          inputVariable env.input ++
      "-h, --help           Print help\n"
  | .help =>
    helpSummary ++ "\n\nUsage: " ++ programName ++ " help [COMMAND]...\n\n" ++
      "Arguments:\n" ++
      "  [COMMAND]...  Print help for the subcommand(s)\n"

end Page

/-- The option as errors name it. -/
def OptionName.text : OptionName → String
  | .verbose => "--verbose"
  | .input => "--input <INPUT>"
  | .help => "--help"
  | .version => "--version"

namespace UsageError

def message : UsageError → String
  | .unknownSubcommand word => "unrecognized subcommand '" ++ Terminal.plain word ++ "'"
  | .unexpectedArgument word => "unexpected argument '" ++ Terminal.plain word ++ "' found"
  | .unexpectedValue value option =>
    "unexpected value '" ++ Terminal.plain value ++ "' for '" ++ option.text ++
      "' found; no more were expected"
  | .missingValue option =>
    "a value is required for '" ++ option.text ++ "' but none was supplied"
  | .repeatedOption option =>
    "the argument '" ++ option.text ++ "' cannot be used multiple times"
  | .invalidValue value option =>
    "invalid value '" ++ Terminal.plain value ++ "' for '" ++ option.text ++ "'"
  | .missingSubcommand =>
    "'" ++ programName ++ "' requires a subcommand but one was not provided"
  | .nothingGiven => "nothing to do"

/-- What is shown for the error. Who gives no arguments is shown the help. -/
def text (env : Environment) : UsageError → String
  | .nothingGiven => Page.overview.text env
  | error => "error: " ++ error.message ++ "\n\nFor more information, try '--help'.\n"

end UsageError

end SqlSelect.CommandLine
