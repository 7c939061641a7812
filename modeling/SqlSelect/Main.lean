import SqlSelect.CommandLine.Run

/-!
# The program

Reads the environment and the source, and hands the rest to `CommandLine`.
-/

set_option autoImplicit false

namespace SqlSelect.CommandLine

/-- The bytes of a file, or of standard input. -/
def readSource (input : Option String) : IO (Except ReadError ByteArray) := do
  try
    match input with
    | some path => return .ok (← IO.FS.readBinFile path)
    | none => return .ok (← (← IO.getStdin).readBinToEnd)
  catch
    | .noFileOrDirectory .. => return .error .notFound
    | .permissionDenied .. => return .error .denied
    | .inappropriateType _ code _ =>
      return .error (if code = 20 then .notDirectory else .isDirectory)
    | e => return .error (.other (toString e))

/-- Writes an outcome and gives its exit code. -/
def emit (outcome : Outcome) : IO UInt32 := do
  (← IO.getStderr).putStr outcome.stderr
  (← IO.getStdout).putStr outcome.stdout
  return outcome.code

end SqlSelect.CommandLine

open SqlSelect.CommandLine in
/-- Does what the arguments and the environment ask for. -/
def main (args : List String) : IO UInt32 := do
  let env : Environment :=
    { verbose := ← IO.getEnv verboseVariable, input := ← IO.getEnv inputVariable }
  match Job.parse env args with
  | .error stop => emit (stop.outcome env)
  | .ok job => emit (job.outcome (← readSource job.input))
