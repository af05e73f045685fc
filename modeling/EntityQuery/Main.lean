import EntityQuery.Command.Answer

/-!
# The command line

Reads the files and the request of a command, writes its answer to standard output, and ends with 1
if the command fails and with 2 if the arguments ask for none.
-/

namespace EntityQuery

/-- The text of a file, or why it cannot be read. -/
def readInput (path : String) : IO (String × Except String String) := do
  try
    let text ← IO.FS.readFile path
    return (path, .ok text)
  catch e => return (path, .error (toString e))

/-- All of standard input behind what has been read. -/
partial def readRest (input : IO.FS.Stream) (before : String) : IO String := do
  let line ← input.getLine
  if line.isEmpty then return before else readRest input (before ++ line)

/-- The request of a command. -/
def requestOf (c : Command) : IO (Except CommandError Document) := do
  if c.takesRequest then
    let text ← readRest (← IO.getStdin) ""
    return readRequest text
  else return .ok .null

/-- Answers a command. -/
def perform (c : Command) : IO UInt32 := do
  let request ← requestOf c
  let inputs ← c.paths.mapM readInput
  let files : Files := fun path =>
    ((inputs.find? fun i => i.1 == path).map Prod.snd).getD (.error "not found")
  let result := request >>= c.answer files
  IO.println (response result).text
  match result with
  | .ok _ => return 0
  | .error e =>
    IO.eprintln e.text
    return 1

/-- How the program is used. -/
def usage : String :=
  "Usage: entityquery validate|translate|run --model <MODEL> [--data <DATA>] [--options <OPTIONS>]"

/-- Runs the program. -/
def runProgram (args : List String) : IO UInt32 := do
  match Command.ofArguments args with
  | .ok c => perform c
  | .error .help =>
    IO.println usage
    return 0
  | .error .version =>
    IO.println "entityquery 0.1.0"
    return 0
  | .error e =>
    IO.eprintln ("error: " ++ e.name ++ "\n" ++ usage)
    return 2

end EntityQuery

/-- The program. -/
def main (args : List String) : IO UInt32 := EntityQuery.runProgram args
