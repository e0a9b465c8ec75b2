import Intel8080.Debugger.Basic
import Intel8080.Proofs.Service.Effect
import Intel8080.Proofs.Text.Pieces

/-!
# The console of the debugger

Whatever the user does, the debugger shows a machine that has taken some number of steps from its
start, with its output moved to the console (`Follows`). No byte is lost or repeated on the way,
but each step's output is read as text by itself. So the console is the text of the whole output
exactly if no step goes on with a character that the output before it begins
(`console_eq_decodeLossy_iff`); a character that a program prints byte by byte is torn apart
(`console_printsBytes`).
-/
namespace Intel8080.Debugger
open Machine (drained printed)

inductive Action where
  | step | run | tick | reset | toggleBreakpoint
  | addBreakpoint (address : UInt16)
  | scrollUp | scrollDown
  deriving DecidableEq, Repr

def perform (d : Debugger) : Action → Debugger
  | .step => d.step
  | .run => d.run
  | .tick => d.tick
  | .reset => d.reset
  | .toggleBreakpoint => d.toggleBreakpoint
  | .addBreakpoint address => d.addBreakpoint address
  | .scrollUp => d.scrollUp
  | .scrollDown => d.scrollDown

def stepCount (d : Debugger) : Nat := if d.machine.isRunning then 1 else 0

def batchCount (d : Debugger) : Nat → Nat
  | 0 => 0
  | n + 1 =>
    if d.running then
      match d.stopReason? with
      | some _ => 0
      | none => d.stepCount + d.step.checkBreakpoint.batchCount n
    else 0

/-- How many instructions were executed since the last reset after more actions, if it was `n`
before them. -/
def elapsed (n : Nat) (d : Debugger) : List Action → Nat
  | [] => n
  | action :: rest =>
    let m := match action with
      | .step => n + d.stepCount
      | .tick => n + d.batchCount stepsPerTick
      | .reset => 0
      | _ => n
    elapsed m (d.perform action) rest

/-- The bytes that each step of a machine prints. -/
def output (start : Machine Service) (i : Nat) : List UInt8 := (start.after i).printed.toList

/-- A debugger `n` steps from a start that its configuration and image build again: the machine
stands there with its output taken, and the console holds that output step by step. -/
structure Follows (start : Machine Service) (n : Nat) (d : Debugger) : Prop where
  builds : d.config.build d.image = .ok start
  machine : d.machine = (start.after n).drained
  console : d.console = Utf8.shown (output start) n

/-- What the steps of a fresh machine print is the whole content of its console. -/
theorem joined_output {start : Machine Service} (fresh : start.console = #[]) (n : Nat) :
    Utf8.joined (output start) n = (start.after n).console.toList := by
  induction n with
  | zero =>
    rw [Machine.after_zero, fresh]
    rfl
  | succ n ih =>
    rw [Utf8.joined, ih, Machine.after_succ_eq_next, Machine.next_console, Array.toList_append]
    rfl

/-- The pending bytes are read by themselves: a character that is cut in two is lost here. -/
theorem drainConsole_console (d : Debugger) :
    d.drainConsole.console = d.console ++ Utf8.decodeLossy d.machine.console.toList := by
  change (if d.machine.console.isEmpty = true then d.console else _) = _
  by_cases empty : d.machine.console.isEmpty = true
  · rw [if_pos empty, Array.isEmpty_iff.1 empty]
    exact String.append_empty.symm
  · rw [if_neg empty]

theorem step_of_running (d : Debugger) (running : d.machine.state = .running) :
    d.step = drainConsole { d with
      machine := d.machine.next
      status := .executed d.machine.nextInstruction
      history := remember d.history d.machine.nextInstruction.address } := by
  have go : d.machine.isRunning = true := beq_iff_eq.2 running
  rw [step, if_pos go, Machine.step_eq_next d.machine running]

theorem step_of_not_running (d : Debugger) (rest : d.machine.state ≠ .running) :
    d.step = { d with status := .notRunning d.machine.state, running := false } := by
  have refused : ¬ d.machine.isRunning = true := fun go => rest (beq_iff_eq.1 go)
  rw [step, if_neg refused]

theorem stepCount_of_running (d : Debugger) (running : d.machine.state = .running) :
    d.stepCount = 1 :=
  if_pos (beq_iff_eq.2 running)

theorem stepCount_of_not_running (d : Debugger) (rest : d.machine.state ≠ .running) :
    d.stepCount = 0 :=
  if_neg fun go => rest (beq_iff_eq.1 go)

/-- A reset that can build the machine starts over and keeps what the user has set up around it. -/
theorem reset_of_builds (d : Debugger) {start : Machine Service}
    (builds : d.config.build d.image = .ok start) :
    d.reset = { d with
      machine := start, status := .wasReset, console := "", history := [], running := false } := by
  rw [reset, builds]

section Follows

variable {start : Machine Service} {n : Nat} {d : Debugger}

/-- A step keeps the debugger on the course of the machine. -/
theorem follows_step (follows : Follows start n d) : Follows start (n + d.stepCount) d.step := by
  by_cases running : d.machine.state = .running
  · rw [stepCount_of_running d running, step_of_running d running]
    refine ⟨follows.builds, ?_, ?_⟩
    · rw [Machine.after_succ_eq_next, Machine.drained_next, ← follows.machine]
      rfl
    · rw [drainConsole_console]
      change d.console ++ Utf8.decodeLossy d.machine.next.console.toList = _
      rw [follows.console, follows.machine]
      rfl
  · rw [stepCount_of_not_running d running, step_of_not_running d running]
    exact ⟨follows.builds, follows.machine, follows.console⟩

theorem follows_checkBreakpoint (follows : Follows start n d) : Follows start n d.checkBreakpoint := by
  simp only [checkBreakpoint]
  split
  · exact ⟨follows.builds, follows.machine, follows.console⟩
  · exact follows

/-- A batch does so by induction on its steps. -/
theorem follows_batch (count : Nat) (follows : Follows start n d) :
    Follows start (n + d.batchCount count) (d.batch count) := by
  induction count generalizing n d with
  | zero => exact follows
  | succ count ih =>
    rw [batch, batchCount]
    split
    · cases d.stopReason? with
      | some reason => exact ⟨follows.builds, follows.machine, follows.console⟩
      | none =>
        change Follows start (n + (d.stepCount + _)) _
        rw [← Nat.add_assoc]
        exact ih (follows_checkBreakpoint (follows_step follows))
    · exact follows

/-- A reset goes back to the beginning of the course, with the console empty. -/
theorem follows_reset (follows : Follows start n d) : Follows start 0 d.reset := by
  have empty := (RunConfig.build_fresh follows.builds).1
  rw [reset_of_builds d follows.builds]
  exact ⟨follows.builds, (Machine.drained_of_empty start empty).symm, rfl⟩

/-- So actions in a row do too, with the steps since the last reset. -/
theorem follows_foldl (actions : List Action) (follows : Follows start n d) :
    Follows start (elapsed n d actions) (actions.foldl perform d) := by
  induction actions generalizing n d with
  | nil => exact follows
  | cons action rest ih =>
    refine ih ?_
    cases action with
    | step => exact follows_step follows
    | tick => exact follows_batch stepsPerTick follows
    | reset => exact follows_reset follows
    | run | addBreakpoint address | scrollUp =>
      exact ⟨follows.builds, follows.machine, follows.console⟩
    | toggleBreakpoint =>
      simp only [perform, toggleBreakpoint]
      split <;> exact ⟨follows.builds, follows.machine, follows.console⟩
    | scrollDown =>
      simp only [perform, scrollDown]
      split <;> exact ⟨follows.builds, follows.machine, follows.console⟩

end Follows

/-- A new debugger is at the beginning of the course. -/
theorem follows_new {config : RunConfig} {image : List UInt8} {d : Debugger}
    (new : Debugger.new config image = .ok d) :
    ∃ start, config.build image = .ok start ∧ Follows start 0 d := by
  rw [Debugger.new] at new
  split at new
  · cases new
  · rename_i start built
    cases new
    have empty := (RunConfig.build_fresh built).1
    exact ⟨start, built, built, (Machine.drained_of_empty start empty).symm, rfl⟩

/-- After any actions the debugger stands as many steps from the start as it has executed since the
last reset, with their output moved to the console and nothing of it lost. The console shows the
text of that output exactly if no step goes on with a character that the output before it begins. -/
theorem console_eq_decodeLossy_iff {config : RunConfig} {image : List UInt8} {d : Debugger}
    (new : Debugger.new config image = .ok d) (actions : List Action) :
    ∃ start, config.build image = .ok start ∧
      let n := elapsed 0 d actions
      (actions.foldl perform d).machine = (start.after n).drained ∧
      Utf8.joined (output start) n = (start.after n).console.toList ∧
      (actions.foldl perform d).console = Utf8.shown (output start) n ∧
      ((actions.foldl perform d).console = Utf8.decodeLossy (start.after n).console.toList ↔
        ∀ i < n, Utf8.continues (start.after i).console.toList (output start i) = false) := by
  obtain ⟨start, built, fresh⟩ := follows_new new
  obtain ⟨-, machine, console⟩ := follows_foldl actions fresh
  have whole := joined_output (RunConfig.build_fresh built).1
  have same := (Utf8.shown_spec (output start) (elapsed 0 d actions)).2
  simp only [whole] at same
  rw [← console] at same
  exact ⟨start, built, machine, whole _, console, same⟩

/-- The services of CP/M for a program at the bottom of memory. -/
def servedAtZero : RunConfig := { RunConfig.default with cpm := true }

/-- `LXI D,0008`, `MVI C,9`, `CALL 0005`, and the two bytes of é with their terminator. -/
def printsString : List UInt8 := [0x11, 0x08, 0x00, 0x0E, 0x09, 0xCD, 0x05, 0x00, 0xC3, 0xA9, 0x24]

/-- `MVI C,2`, and for both bytes of é `MVI E` and `CALL 0005`. -/
def printsBytes : List UInt8 :=
  [0x0E, 0x02, 0x1E, 0xC3, 0xCD, 0x05, 0x00, 0x1E, 0xA9, 0xCD, 0x05, 0x00]

def loadedAtZero (image : List UInt8) : Machine Service :=
  { Machine.withTraps Service.traps with
    mem := Memory.zero.writeBytes 0 image
    loadedEnd := some (UInt32.ofNat image.length) }

def watching (image : List UInt8) : Debugger :=
  { machine := loadedAtZero image
    config := servedAtZero
    image := image
    breakpoints := []
    running := false
    quitting := false
    status := .ready
    memoryRow := 0
    console := ""
    history := [] }

/-- A character that is printed as part of a string is printed in one step and shown whole. -/
theorem console_printsString :
    Debugger.new servedAtZero printsString = .ok (watching printsString) ∧
      ([Action.step, .step, .step].foldl perform (watching printsString)).console = "é" := by
  have new : Debugger.new servedAtZero printsString = .ok (watching printsString) := rfl
  obtain ⟨start, built, -, -, -, same⟩ :=
    console_eq_decodeLossy_iff new [Action.step, .step, .step]
  have start_eq : start = loadedAtZero printsString := (Except.ok.inj built).symm
  have three : elapsed 0 (watching printsString) [Action.step, .step, .step] = 3 := by
    decide +kernel
  have anew : ∀ i < 3, Utf8.continues ((loadedAtZero printsString).after i).console.toList
      (output (loadedAtZero printsString) i) = false := by
    decide +kernel
  have text : Utf8.decodeLossy ((loadedAtZero printsString).after 3).console.toList = "é" := by
    decide +kernel
  rw [three, start_eq] at same
  exact ⟨new, (same.2 anew).trans text⟩

/-- The same character printed byte by byte: the console shows two replacement characters, though
the machine that takes the same steps has printed its two bytes. -/
theorem console_printsBytes :
    let actions := List.replicate 5 Action.step
    let start := loadedAtZero printsBytes
    Debugger.new servedAtZero printsBytes = .ok (watching printsBytes) ∧
      servedAtZero.build printsBytes = .ok start ∧
      elapsed 0 (watching printsBytes) actions = 5 ∧
      (start.after 5).console = #[0xC3, 0xA9] ∧
      Utf8.decodeLossy (start.after 5).console.toList = "é" ∧
      (actions.foldl perform (watching printsBytes)).console = "\uFFFD\uFFFD" ∧
      (actions.foldl perform (watching printsBytes)).console ≠
        Utf8.decodeLossy (start.after 5).console.toList := by
  refine ⟨rfl, rfl, ?_, ?_, ?_, ?_, ?_⟩ <;> decide +kernel

end Intel8080.Debugger
