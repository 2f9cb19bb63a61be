import WorkItemQuery.CommandLine.Run

/-!
# The program

Reads what the arguments name, runs the command on it, and writes what the command has to say.
-/

namespace WorkItemQuery
namespace CommandLine

/-- The bytes of a file as text, or why there are none. -/
def readPath (path : String) : IO (Except ReadError String) := do
  try
    let bytes ← IO.FS.readBinFile path
    return decodeText bytes
  catch
    | .noFileOrDirectory .. => return .error .notFound
    | .inappropriateType .. => return .error .isADirectory
    | error => return .error (.other (toString error))

/-- The bytes of the standard input as text. -/
def readInput : IO (Except ReadError String) := do
  let stdin ← IO.getStdin
  let bytes ← stdin.readBinToEnd
  return decodeText bytes

/-- The paths that a command reads. -/
def Invocation.paths (invocation : Invocation) : List String :=
  let fields := match invocation.task with
    | .check fields? .. => fields?.toList
    | _ => []
  invocation.path?.toList ++ fields

/-- Reads everything that a command names. -/
def Invocation.environment (invocation : Invocation) : IO Environment := do
  let files ← invocation.paths.mapM fun path => do
    let text ← readPath path
    return (path, text)
  let input ← if invocation.path? = some "-" then readInput else pure (.ok "")
  let stderrIsTerminal ← (← IO.getStderr).isTty
  return {
    file := fun path => (files.lookup path).getD (.error .notFound)
    stdin := input
    stderrIsTerminal }

end CommandLine
end WorkItemQuery

/-- Runs the program on its arguments. -/
def main (arguments : List String) : IO UInt32 := do
  match WorkItemQuery.CommandLine.parse arguments with
  | .error error =>
    IO.eprintln ("error: " ++ error.name)
    return if error = .displayHelp then 0 else 2
  | .ok invocation =>
    let env ← invocation.environment
    let outcome := WorkItemQuery.CommandLine.run env invocation
    IO.print outcome.stdout
    IO.eprint outcome.stderr
    return outcome.exit.toUInt32
