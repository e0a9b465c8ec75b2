import Intel8080.Machine.Execute

/-!
# CP/M services

Programs written for CP/M end by jumping to address 0 and print by calling address 5 with a
function number in `C`. Two handlers stand in for the operating system: the warm boot ends the
run, and the basic disk operating system answers its two console functions. Other functions do
nothing.

Embedded here are `warm_boot`, `bdos`, `print_string` and the table of `cpm`.
-/
namespace Intel8080

inductive Service where
  /-- Ends the run. -/
  | warmBoot
  /-- Answers the console functions. -/
  | bdos
  deriving DecidableEq, Repr

namespace Service

/-- The address that programs jump to when they are done. -/
def warmBootAddress : UInt16 := 0x0000

/-- The address that programs call for a function. -/
def bdosAddress : UInt16 := 0x0005

/-- The function that prints the character in `E`. -/
def consoleOutput : UInt8 := 2

/-- The function that prints the string at `DE`. -/
def printString : UInt8 := 9

def terminator : UInt8 := 0x24

/-- Appends the bytes from an address on, up to the first terminator and at most `count` of them,
and says whether a terminator was met. -/
def appendString (mem : Memory) (address : UInt16) : Nat → Array UInt8 → Array UInt8 × Bool
  | 0, out => (out, false)
  | count + 1, out =>
    let b := mem.read address
    if b == terminator then (out, true) else appendString mem (address + 1) count (out.push b)

/-- Whether a string starting at the address ends anywhere in memory. -/
def isTerminated (mem : Memory) (start : UInt16) : Bool :=
  (appendString mem start memorySize #[]).2

/-- What a service does to a machine, and whether the run goes on. -/
def run {η : Type} (s : Service) (m : Machine η) : Machine η × TrapAction :=
  match s with
  | .warmBoot => (m, .stop)
  | .bdos =>
    if m.regs.c == consoleOutput then (m.writeConsole m.regs.e, .resume)
    else if m.regs.c == printString then
      let (console, _) := appendString m.mem m.regs.de memorySize m.console
      ({ m with console := console }, .resume)
    else (m, .resume)

instance : TrapHandler Service := ⟨Service.run⟩

def traps : TrapTable Service :=
  (TrapTable.empty.insert warmBootAddress .warmBoot).insert bdosAddress .bdos

end Service

end Intel8080
