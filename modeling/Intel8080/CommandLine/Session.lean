import Intel8080.CommandLine.LogFilter
import Intel8080.Machine.Run
import Intel8080.RunConfig

/-!
# Run sessions

A run from the command line is cut into slices of at most ten thousand steps, so that output
appears while the program runs. Each slice hands over the events it logged and the console bytes
it printed, and leaves the console of the machine empty.

Embedded here is the loop over slices in `run_program`.
-/
namespace Intel8080.CommandLine

def sliceSteps : Nat := 10000

/-- The most steps of a run: those configured, or as many as can be counted. -/
def stepLimit (c : RunConfig) : UInt64 := c.maxSteps.getD 18446744073709551615

/-- What a run hands over: the logged events and the printed bytes. -/
structure Output where
  events : Array Event
  console : Array UInt8

def Output.empty : Output := ⟨#[], #[]⟩

instance : Inhabited Output := ⟨.empty⟩

def Output.append (a b : Output) : Output := ⟨a.events ++ b.events, a.console ++ b.console⟩

/-- A run that broke off: why, what it handed over before, and the machine as it stands. -/
structure BrokenRun where
  cause : MachineError
  output : Output
  machine : Machine Service

/-- A run of at most `limit` steps that adds the events that pass the filter to a log. -/
def advanceLogged (filter : LogFilter) (log : Array Event) (m : Machine Service) :
    Nat → Except BrokenRun (Array Event × Machine Service)
  | 0 => .ok (log, m)
  | limit + 1 =>
    if m.isRunning && m.pcInProgram then
      match m.step with
      | .error cause => .error ⟨cause, ⟨log, #[]⟩, m⟩
      | .ok (_, next) =>
        advanceLogged filter (log ++ m.stepEvents.filter filter.allows) next limit
    else .ok (log, m)

def sliceDue (limit : UInt64) (m : Machine Service) : Bool :=
  m.isRunning && m.pcInProgram && m.steps < limit

/-- One slice of a run: what it hands over, and the machine with an empty console. -/
def slice (filter : LogFilter) (limit : UInt64) (m : Machine Service) :
    Except BrokenRun (Output × Machine Service) :=
  match advanceLogged filter #[] m (min (limit - m.steps).toNat sliceSteps) with
  | .error broken => .error broken
  | .ok (log, m) =>
    let (console, m) := m.takeConsole
    .ok (⟨log, console⟩, m)

/-- At most the given number of slices, after the output so far. -/
def slices (filter : LogFilter) (limit : UInt64) (output : Output) (m : Machine Service) :
    Nat → Except BrokenRun (Output × Machine Service)
  | 0 => .ok (output, m)
  | count + 1 =>
    if sliceDue limit m then
      match slice filter limit m with
      | .error broken => .error { broken with output := output.append broken.output }
      | .ok (more, m) => slices filter limit (output.append more) m count
    else .ok (output, m)

/-- A whole run. A slice that is due takes at least one step, so there are never more slices than
steps allowed. -/
def runSession (filter : LogFilter) (limit : UInt64) (m : Machine Service) :
    Except BrokenRun (Output × Machine Service) :=
  slices filter limit .empty m (limit - m.steps).toNat

end Intel8080.CommandLine
