import Intel8080.CommandLine.SelfTest
import Intel8080.CommandLine.Session
import Intel8080.CommandLine.Settings
import Intel8080.Debugger.Basic
import Intel8080.Listing
import Intel8080.Snapshot

/-!
# The program

What the program prints and how it exits, as a function of its arguments, the files it can read
and the variable that filters its log. A run prints a heading, whatever the session hands over,
and a summary; the summary warns if the machine is still running with its steps used up.

Embedded here are `main`, `run_program`, `debug_program` up to the opening of the terminal, and
`disassemble_file`. Writes to the standard streams are taken to succeed.
-/
namespace Intel8080.CommandLine

structure Environment where
  files : String → FileContents
  logVariable : Option String

/-- A line on standard error: an event of the log, or a notice to the user. -/
inductive Message where
  | logged (event : Event)
  | notice (text : String)
  deriving DecidableEq, Repr

def Message.line : Message → String
  | .logged event => event.line
  | .notice text => text

/-- What the program does to the outside. -/
structure Outcome where
  exit : UInt32
  stdout : Array UInt8
  stderr : Array Message

namespace Outcome

def silent : Outcome := ⟨0, #[], #[]⟩

instance : Inhabited Outcome := ⟨silent⟩

def printing (text : String) : Outcome := ⟨0, text.toUTF8.data, #[]⟩

def failing (cause : String) : Outcome := ⟨1, #[], #[.notice ("❌ " ++ cause)]⟩

def after (o : Outcome) (stdout : Array UInt8) (stderr : Array Message) : Outcome :=
  ⟨o.exit, stdout ++ o.stdout, stderr ++ o.stderr⟩

end Outcome

/-- Lines, each ended by a line feed. -/
def unlines (lines : List String) : String := lines.foldl (fun text l => text ++ l ++ "\n") ""

/-- The message of an event, if it passes a filter. -/
def logging (filter : LogFilter) (e : Event) : Array Message :=
  if filter.allows e then #[.logged e] else #[]

/-! ## Running -/

def heading (path : String) (size : Nat) (c : RunConfig) : String :=
  "🔧 Running: " ++ path ++ " (" ++ toString size ++ " bytes at " ++ wordHex c.loadAddress ++
    ", entry " ++ wordHex c.entry ++ ")"

/-- Whether the summary says that the limit was reached. -/
def warnsOfLimit (limit : UInt64) (m : Machine Service) : Bool :=
  m.state == .running && limit ≤ m.steps

def summary (limit : UInt64) (m : Machine Service) : List String :=
  let r := m.regs
  ["", "━━━ Result ━━━", "Steps: " ++ toString m.steps.toNat, "State: " ++ m.state.name,
    "PC=" ++ wordHex r.pc ++ " SP=" ++ wordHex r.sp ++ " A=" ++ byteHex r.a ++ " BC=" ++
      wordHex r.bc ++ " DE=" ++ wordHex r.de ++ " HL=" ++ wordHex r.hl ++ " F=" ++
      byteHex r.flags.toByte] ++
    (if m.reportCount == 0 then []
    else
      ("⚠️  " ++ toString m.reportCount.toNat ++ " unimplemented instruction(s) executed") ::
        (m.reports.toList.take 1).map fun report =>
          "   first: " ++ byteHex report.opcode ++ " at " ++ wordHex report.address) ++
    (if warnsOfLimit limit m then
      ["⚠️  Reached step limit (" ++ toString limit.toNat ++ "). Use --max-steps to increase."]
    else [])

/-- What a finished run prints, and the machine if it is asked for. -/
def finishRun (limit : UInt64) (dumpState : Bool) (m : Machine Service) : Outcome :=
  let state := if dumpState then (Snapshot.ofMachine m).indented ++ "\n" else ""
  ⟨0, state.toUTF8.data, ((summary limit m).map .notice).toArray⟩

/-- What a run that breaks off prints in the end. -/
def breakOff (broken : BrokenRun) : Outcome :=
  .failing ("CPU error at PC=" ++ wordHex broken.machine.regs.pc ++ ": " ++ broken.cause.message)

/-- A machine ready to run, with the messages printed before. -/
structure Prepared where
  machine : Machine Service
  limit : UInt64
  filter : LogFilter
  messages : Array Message

def RunOptions.filter (o : RunOptions) (env : Environment) : LogFilter :=
  if o.trace then .everything else .ofVariable env.logVariable

/-- Prepares a run: configuration, image and machine, in this order. -/
def prepare (env : Environment) (o : RunOptions) : Except Outcome Prepared :=
  match baseConfig env.files o.load with
  | .error e => .error (.failing e.message)
  | .ok base =>
    let config := o.applyTo base
    let path := o.load.image
    let filter := o.filter env
    match imageOfFile path (env.files path) with
    | .error e => .error (.failing ("Failed to load image: " ++ e.message))
    | .ok image =>
      let log := logging filter (.imageLoaded path image.length)
      if image.isEmpty then .error ((Outcome.failing "Image is empty").after #[] log)
      else
        match config.build image with
        | .error e =>
          .error ((Outcome.failing ("Failed to load program: " ++ e.message)).after #[] log)
        | .ok m =>
          .ok ⟨m, stepLimit config, filter, log.push (.notice (heading path image.length config))⟩

def runCommand (env : Environment) (o : RunOptions) : Outcome :=
  match prepare env o with
  | .error outcome => outcome
  | .ok p =>
    match runSession p.filter p.limit p.machine with
    | .error broken =>
      (breakOff broken).after broken.output.console
        (p.messages ++ broken.output.events.map .logged)
    | .ok (output, m) =>
      (finishRun p.limit o.dumpState m).after output.console
        (p.messages ++ output.events.map .logged)

/-! ## The other commands -/

/-- The debugger needs a terminal, which a process without one cannot open. -/
def terminalMissing : String := "No such device or address (os error 6)"

def debugCommand (env : Environment) (o : LoadOptions) : Outcome :=
  match baseConfig env.files o with
  | .error e => .failing e.message
  | .ok base =>
    match imageOfFile o.image (env.files o.image) with
    | .error e => .failing ("Failed to load image: " ++ e.message)
    | .ok image =>
      let announcement := unlines
        ["🔍 Loaded " ++ toString image.length ++ " bytes from " ++ o.image,
          "🚀 Launching debugger..."]
      let cause := match Debugger.new (o.applyTo base) image with
        | .error e => e.message
        | .ok _ => terminalMissing
      (Outcome.failing ("Debugger error: " ++ cause)).after announcement.toUTF8.data #[]

def disassembleCommand (env : Environment) (path : String) (base : UInt16) : Outcome :=
  match imageOfFile path (env.files path) with
  | .error e => .failing ("Failed to load image: " ++ e.message)
  | .ok image =>
    (Outcome.printing (Listing.render image base)).after #[]
      (logging (.ofVariable env.logVariable) (.imageLoaded path image.length))

def selfTestCommand : Outcome :=
  { Outcome.printing (unlines (checkReport checks)) with
    exit := if checks.all (·.passed) then 0 else 1 }

def introduction : String :=
  unlines ["i8080 Emulator v0.1.0", "An Intel 8080 interpreter", "",
    "Use --help for available commands"]

def version : String := unlines ["i8080-emu 0.1.0"]

def help : String :=
  unlines ["An Intel 8080 interpreter with CP/M BDOS console traps", "",
    "Usage: i8080-emu [COMMAND]", "", "Commands:",
    "  run     Run a program until it halts, stops, or leaves the image",
    "  debug   Interactive debugger",
    "  disasm  Disassemble an image to readable text",
    "  test    Run the built-in self-test",
    "  help    Print this message or the help of the given subcommand(s)", "", "Options:",
    "  -h, --help     Print help", "  -V, --version  Print version"]

def perform (env : Environment) : Command → Outcome
  | .run o => runCommand env o
  | .debug o => debugCommand env o
  | .disassemble path base => disassembleCommand env path base
  | .selfTest => selfTestCommand
  | .introduce => .printing introduction
  | .showVersion => .printing version
  | .showHelp => .printing help

def refuse (e : UsageError) : Outcome := ⟨2, #[], #[.notice ("error: " ++ e.message)]⟩

def respond (env : Environment) (arguments : List String) : Outcome :=
  match parse arguments with
  | .error e => refuse e
  | .ok command => perform env command

end Intel8080.CommandLine
