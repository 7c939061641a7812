/-!
# Arguments

The command line names a subcommand, which says what the input describes, and
perhaps a file to read it from. `Arguments.parse` gives the `Job` to be done, or
the reason to `Stop` before any: a request for help, or an error of usage. The
arguments are taken in order, and the first reason to stop is the one that
counts; the environment is consulted only for what they leave open.
-/

set_option autoImplicit false

namespace SqlSelect.CommandLine

inductive Subject where
  | query
  | expr
deriving DecidableEq

/-- The variables of the environment that stand in for options. -/
structure Environment where
  verbose : Option String := none
  input : Option String := none

/-- Something to be rendered. Without a path it comes from standard input. -/
structure Job where
  subject : Subject
  verbose : Bool := false
  input : Option String := none
deriving DecidableEq

inductive Page where
  | overview
  | subject (subject : Subject)
  | help
deriving DecidableEq

/-- The options, as errors name them. -/
inductive OptionName where
  | verbose | input | help | version
deriving DecidableEq

/-- What is wrong with the arguments or the environment. -/
inductive UsageError where
  | unknownSubcommand (word : String)
  | unexpectedArgument (word : String)
  | unexpectedValue (value : String) (option : OptionName)
  | missingValue (option : OptionName)
  | repeatedOption (option : OptionName)
  | invalidValue (value : String) (option : OptionName)
  | missingSubcommand
  | nothingGiven
deriving DecidableEq

/-- Why no job is done. -/
inductive Stop where
  | usage (error : UsageError)
  | help (page : Page)
  | version
deriving DecidableEq

/-! ## The shapes of arguments -/

/-- An argument by its first characters. -/
inductive Argument where
  /-- Two dashes, after which nothing is an option. -/
  | terminator
  /-- A name after two dashes, and what follows an equals sign. -/
  | long (name : String) (value : Option String)
  /-- Letters after one dash. -/
  | short (first : Char) (rest : List Char)
  | word (text : String)

/-- The part before the first equals sign, and the part after it. -/
def splitValue (cs : List Char) : String × Option String :=
  match cs.span (· ≠ '=') with
  | (name, []) => (String.ofList name, none)
  | (name, _ :: value) => (String.ofList name, some (String.ofList value))

/-- The shape of an argument. A single dash is a word. -/
def Argument.ofText (text : String) : Argument :=
  match text.toList with
  | ['-', '-'] => .terminator
  | '-' :: '-' :: cs => let (name, value) := splitValue cs; .long name value
  | '-' :: c :: cs => .short c cs
  | _ => .word text

/-! ## The input of a subcommand -/

/-- The path given so far, and the option that still waits to be settled, with
its value if that has come. -/
structure InputState where
  path : Option String := none
  waiting : Option (Option String) := none

namespace InputState

/-- Takes a value for the path. -/
def accept (s : InputState) (value : String) : Except Stop InputState :=
  if s.path.isSome then .error (.usage (.repeatedOption .input))
  else if value = "" then .error (.usage (.missingValue .input))
  else .ok { path := some value }

/-- Settles the option that waits. -/
def settle (s : InputState) : Except Stop InputState :=
  match s.waiting with
  | none => .ok s
  | some none => .error (.usage (.missingValue .input))
  | some (some value) => s.accept value

/-- The path, once there are no more arguments. -/
def finish (s : InputState) : Except Stop (Option String) := do
  return (← s.settle).path

end InputState

def parseInput (subject : Subject) (s : InputState) : List String → Except Stop (Option String)
  | [] => s.finish
  | arg :: rest =>
    match Argument.ofText arg with
    | .word text =>
      if s.waiting = some none then parseInput subject { s with waiting := some (some text) } rest
      else .error (.usage (.unexpectedArgument text))
    | .terminator =>
      match rest with
      | [] => s.finish
      | text :: _ => .error (.usage (.unexpectedArgument text))
    | .long "input" none => do
      let s ← s.settle
      parseInput subject { s with waiting := some none } rest
    | .long "input" (some value) => do
      let s ← (← s.settle).accept value
      parseInput subject s rest
    | .long "help" none => do
      let _ ← s.settle
      .error (.help (.subject subject))
    | .long "help" (some value) => .error (.usage (.unexpectedValue value .help))
    | .long name _ => .error (.usage (.unexpectedArgument ("--" ++ name)))
    | .short 'h' _ => do
      let _ ← s.settle
      .error (.help (.subject subject))
    | .short 'i' [] => do
      let s ← s.settle
      parseInput subject { s with waiting := some none } rest
    | .short 'i' ('=' :: value) => do
      let s ← (← s.settle).accept (String.ofList value)
      parseInput subject s rest
    | .short 'i' value => do
      let s ← (← s.settle).accept (String.ofList value)
      parseInput subject s rest
    | .short c _ => .error (.usage (.unexpectedArgument ("-" ++ c.toString)))

/-- The path that the environment names, if the arguments name none. -/
def inputOrVariable (env : Environment) : Option String → Except Stop (Option String)
  | some path => .ok (some path)
  | none =>
    if env.input = some "" then .error (.usage (.missingValue .input)) else .ok env.input

/-! ## The arguments before the subcommand -/

/-- The pages that the arguments of `help` lead to. -/
def parseHelp : List String → Except Stop Page
  | [] => .ok .overview
  | name :: rest => do
    let page ←
      if name = "query" then pure (.subject .query)
      else if name = "expr" then pure (.subject .expr)
      else if name = "help" then pure .help
      else .error (.usage (.unknownSubcommand name))
    match rest with
    | [] => return page
    | next :: _ => .error (.usage (.unknownSubcommand next))

/-- Whether to be verbose: by the option, or else by the environment. -/
def verboseOrVariable (env : Environment) (verbose : Bool) : Except Stop Bool :=
  if verbose then .ok true
  else
    match env.verbose with
    | none => .ok false
    | some "true" => .ok true
    | some "false" => .ok false
    | some "" => .error (.usage (.missingValue .verbose))
    | some value => .error (.usage (.invalidValue value .verbose))

/-- The arguments of a subcommand, and then what the environment says. -/
def parseJob (env : Environment) (verbose : Bool) (subject : Subject) (args : List String) :
    Except Stop Job := do
  let input ← inputOrVariable env (← parseInput subject {} args)
  let verbose ← verboseOrVariable env verbose
  return { subject, verbose, input }

def noSubcommand (env : Environment) (verbose : Bool) : Except Stop Job := do
  let _ ← verboseOrVariable env verbose
  if verbose || env.verbose.isSome then .error (.usage .missingSubcommand)
  else .error (.usage .nothingGiven)

def parseLetters (verbose : Bool) : List Char → Except Stop Bool
  | [] => .ok verbose
  | 'v' :: rest =>
    if verbose then .error (.usage (.repeatedOption .verbose)) else parseLetters true rest
  | 'h' :: _ => .error (.help .overview)
  | 'V' :: _ => .error .version
  | c :: _ => .error (.usage (.unexpectedArgument ("-" ++ c.toString)))

def parseArguments (env : Environment) (verbose : Bool) : List String → Except Stop Job
  | [] => noSubcommand env verbose
  | arg :: rest =>
    match Argument.ofText arg with
    | .word "query" => parseJob env verbose .query rest
    | .word "expr" => parseJob env verbose .expr rest
    | .word "help" => do .error (.help (← parseHelp rest))
    | .word text => .error (.usage (.unknownSubcommand text))
    | .terminator =>
      match rest with
      | [] => noSubcommand env verbose
      | text :: _ =>
        if text = "query" ∨ text = "expr" ∨ text = "help" then
          .error (.usage (.unexpectedArgument text))
        else .error (.usage (.unknownSubcommand text))
    | .long "verbose" none =>
      if verbose then .error (.usage (.repeatedOption .verbose))
      else parseArguments env true rest
    | .long "help" none => .error (.help .overview)
    | .long "version" none => .error .version
    | .long "verbose" (some value) => .error (.usage (.unexpectedValue value .verbose))
    | .long "help" (some value) => .error (.usage (.unexpectedValue value .help))
    | .long "version" (some value) => .error (.usage (.unexpectedValue value .version))
    | .long name _ => .error (.usage (.unexpectedArgument ("--" ++ name)))
    | .short c cs => do
      let verbose ← parseLetters verbose (c :: cs)
      parseArguments env verbose rest

/-- The job that the arguments ask for. -/
def Job.parse (env : Environment) (args : List String) : Except Stop Job :=
  parseArguments env false args

end SqlSelect.CommandLine
