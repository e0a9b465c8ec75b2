import Intel8080.CommandLine.Program

/-!
# The executable

Arguments, files, environment and standard streams around the pure program. A run is printed
slice by slice while it goes on; everything else is printed as a whole.

Embedded here are `main` and the loop of `run_program` that writes what each slice hands over.
Writes to the standard streams are taken to succeed, so a pipe closed at its other end is not
modelled.
-/
namespace Intel8080.Main

open CommandLine

def causeOf : IO.Error → ReadFailure
  | .noFileOrDirectory .. => .notFound
  | .permissionDenied .. => .permissionDenied
  | .inappropriateType _ code _ => if code == 20 then .notDirectory else .isDirectory
  | e => .other (toString e)

def readFile (path : String) : IO FileContents := do
  try
    let bytes ← IO.FS.readBinFile path
    return .ok bytes.toList
  catch e => return .error (causeOf e)

def pathsOf : Command → List String
  | .run o => o.load.image :: o.load.config.toList
  | .debug o => o.image :: o.config.toList
  | .disassemble path _ => [path]
  | _ => []

/-- The environment with the given files read. -/
def environmentWith (paths : List String) : IO Environment := do
  let contents ← paths.mapM fun path => return (path, ← readFile path)
  let files (path : String) : FileContents := (contents.lookup path).getD (.error .notFound)
  return ⟨files, ← IO.getEnv "RUST_LOG"⟩

def printBytes (bytes : Array UInt8) : IO Unit := do
  unless bytes.isEmpty do
    let out ← IO.getStdout
    out.write ⟨bytes⟩
    out.flush

def printMessages (messages : Array Message) : IO Unit :=
  messages.forM fun message => IO.eprintln message.line

def printOutcome (o : Outcome) : IO UInt32 := do
  printBytes o.stdout
  printMessages o.stderr
  return o.exit

/-- Prints a run slice by slice, and then how it ended. -/
partial def printRun (p : Prepared) (dumpState : Bool) (m : Machine Service) : IO UInt32 := do
  if sliceDue p.limit m then
    match slice p.filter p.limit m with
    | .error broken =>
      printMessages (broken.output.events.map .logged)
      printOutcome (breakOff broken)
    | .ok (output, m) =>
      printMessages (output.events.map .logged)
      printBytes output.console
      printRun p dumpState m
  else printOutcome (finishRun p.limit dumpState m)

def execute (arguments : List String) : IO UInt32 := do
  match parse arguments with
  | .error e => printOutcome (refuse e)
  | .ok command =>
    let env ← environmentWith (pathsOf command)
    match command with
    | .run o =>
      match prepare env o with
      | .error outcome => printOutcome outcome
      | .ok p =>
        printMessages p.messages
        printRun p o.dumpState p.machine
    | other => printOutcome (perform env other)

end Intel8080.Main

def main (arguments : List String) : IO UInt32 := Intel8080.Main.execute arguments
