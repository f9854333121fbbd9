import SqlScribe.CommandLine.Run

/-!
# The program

Reads the files that the command line names, prints the statement, or prints
what is wrong and ends with exit code 1.
-/

namespace SqlScribe.CommandLine

/-- Reads a file from the disk. -/
def readFromDisk (path : String) : IO (Except FileFault String) := do
  try
    return .ok (← IO.FS.readFile path)
  catch failure =>
    match failure with
    | .noFileOrDirectory _ _ _ => return .error .missing
    | .inappropriateType _ code _ =>
        return .error (if code = 20 then .notDirectory else .isDirectory)
    | other => return .error (.other (toString other))

/-- Reads the files that a command line needs. -/
def readSources (arguments : List String) : IO Files := do
  let paths :=
    match Command.ofArguments arguments with
    | .ok command => command.paths
    | .error _ => []
  let texts ← paths.mapM fun path => do
    return (path, ← readFromDisk path)
  return fun path => (texts.lookup path).getD (.error .missing)

end SqlScribe.CommandLine

open SqlScribe.CommandLine in
def main (arguments : List String) : IO UInt32 := do
  match run (← readSources arguments) arguments with
  | .ok output =>
      IO.println output
      return 0
  | .error fault =>
      IO.eprintln fault.message
      return 1
