import Intel8080.Debugger.CodeView
import Intel8080.Proofs.Debugger.Console

/-!
# Starting over

Whatever was done to a debugger, its machine, or both, a reset puts back what a new debugger of the
same configuration and image has, and keeps only what the user has set up around it: breakpoints,
the window of memory, and the wish to leave (`reset_eq_new`). It cannot fail, because nothing
changes the configuration and the image that were accepted at the start (`setup_undergo`). From
there on the debugger cannot be told from a new one, whatever is done next: two debuggers that agree
on all but the wish to leave and the last message go on agreeing (`agrees_undergo`).
-/
namespace Intel8080.Debugger

/-- What can happen to a debugger: the user acts, changes the machine directly, or wants to
leave. -/
inductive Deed where
  | act (action : Action)
  | edit (change : Machine Service → Machine Service)
  | quit

def undergo (d : Debugger) : Deed → Debugger
  | .act action => d.perform action
  | .edit change => { d with machine := change d.machine }
  | .quit => { d with quitting := true }

def setup (d : Debugger) : RunConfig × List UInt8 := (d.config, d.image)

/-- What a debugger builds its machine from, and where its window of memory is. -/
def fixtures (d : Debugger) : (RunConfig × List UInt8) × Nat := (d.setup, d.memoryRow)

section Setup

variable (d : Debugger)

/-- What a step leaves alone: the configuration, the image and the window of memory. -/
theorem fixtures_step : d.step.fixtures = d.fixtures := by
  by_cases running : d.machine.state = .running
  · rw [step_of_running d running]
    rfl
  · rw [step_of_not_running d running]
    rfl

theorem fixtures_checkBreakpoint : d.checkBreakpoint.fixtures = d.fixtures := by
  simp only [checkBreakpoint]
  split <;> rfl

theorem fixtures_batch (count : Nat) : (d.batch count).fixtures = d.fixtures := by
  induction count generalizing d with
  | zero => rfl
  | succ count ih =>
    rw [batch]
    split
    · cases d.stopReason? with
      | some reason => rfl
      | none =>
        calc (d.step.checkBreakpoint.batch count).fixtures
            = d.step.checkBreakpoint.fixtures := ih _
          _ = d.step.fixtures := fixtures_checkBreakpoint d.step
          _ = d.fixtures := fixtures_step d
    · rfl

theorem fixtures_reset : d.reset.fixtures = d.fixtures := by
  rw [reset]
  cases d.config.build d.image <;> rfl

theorem fixtures_toggleBreakpoint : d.toggleBreakpoint.fixtures = d.fixtures := by
  simp only [toggleBreakpoint]
  split <;> rfl

theorem setup_batch (count : Nat) : (d.batch count).setup = d.setup :=
  congrArg Prod.fst (fixtures_batch d count)

/-- Nothing that happens to a debugger changes what it builds its machine from. -/
theorem setup_undergo (deed : Deed) : (d.undergo deed).setup = d.setup := by
  cases deed with
  | edit change => rfl
  | quit => rfl
  | act action =>
    cases action with
    | step => exact congrArg Prod.fst (fixtures_step d)
    | tick => exact setup_batch d stepsPerTick
    | reset => exact congrArg Prod.fst (fixtures_reset d)
    | toggleBreakpoint => exact congrArg Prod.fst (fixtures_toggleBreakpoint d)
    | run | addBreakpoint address | scrollUp => rfl
    | scrollDown =>
      simp only [undergo, perform, scrollDown]
      split <;> rfl

/-- Nothing done to a debugger touches what it builds its machine from. -/
theorem setup_foldl (deeds : List Deed) : (deeds.foldl undergo d).setup = d.setup := by
  induction deeds generalizing d with
  | nil => rfl
  | cons deed rest ih => exact (ih (d.undergo deed)).trans (setup_undergo d deed)

end Setup

/-- A debugger with another wish to leave and another message. -/
def marked (d : Debugger) (quitting : Bool) (status : Status) : Debugger :=
  { d with quitting := quitting, status := status }

/-- Two debuggers that differ at most in the wish to leave, and in the message while neither has
said anything since one was made and the other was reset. -/
structure Agrees (d e : Debugger) : Prop where
  eq_marked : e = d.marked e.quitting e.status
  status : e.status = d.status ∨ e.status = .wasReset ∧ d.status = .ready

section Agrees

variable (d : Debugger) (quitting : Bool) (status : Status)

/-- Another message is no difference while nothing has been said. -/
theorem agrees_marked : Agrees d (d.marked quitting d.status) := ⟨rfl, .inl rfl⟩

/-- A step reads neither the message nor the wish to leave, and says something of its own. -/
theorem step_marked : (d.marked quitting status).step = d.step.marked quitting d.step.status := by
  by_cases running : d.machine.state = .running
  · rw [step_of_running d running, step_of_running (d.marked quitting status) running]
    rfl
  · rw [step_of_not_running d running, step_of_not_running (d.marked quitting status) running]
    rfl

theorem rowsFrom_marked (address : UInt16) (rows : ℕ) :
    (d.marked quitting status).rowsFrom address rows = d.rowsFrom address rows := by
  induction rows generalizing address with
  | zero => rfl
  | succ rows ih =>
    rw [rowsFrom, rowsFrom]
    exact congrArg _ (ih _)

theorem codeView_marked (rows : ℕ) :
    (d.marked quitting status).codeView rows = d.codeView rows :=
  congrArg _ (rowsFrom_marked d quitting status d.machine.regs.pc _)

variable {d} {e : Debugger}

theorem Agrees.ite {c : Prop} [Decidable c] {no otherNo : Debugger} (yes : Agrees d e)
    (otherwise : Agrees no otherNo) :
    Agrees (if c then d else no) (if c then e else otherNo) := by
  split
  · exact yes
  · exact otherwise

/-- After a step both debuggers have said the same. -/
theorem agrees_step (agrees : Agrees d e) : Agrees d.step e.step := by
  rw [agrees.eq_marked, step_marked]
  exact agrees_marked d.step e.quitting

theorem agrees_checkBreakpoint (agrees : Agrees d e) :
    Agrees d.checkBreakpoint e.checkBreakpoint := by
  obtain ⟨eq, status⟩ := agrees
  generalize e.quitting = quitting at eq
  generalize e.status = message at eq status
  subst eq
  exact Agrees.ite (agrees_marked _ quitting) ⟨rfl, status⟩

/-- A batch without a step says nothing, and one with steps the same in both. -/
theorem agrees_batch (count : ℕ) (agrees : Agrees d e) : Agrees (d.batch count) (e.batch count) := by
  induction count generalizing d e with
  | zero => exact agrees
  | succ count ih =>
    have reason : e.stopReason? = d.stopReason? := by
      rw [agrees.eq_marked]
      rfl
    have running : e.running = d.running := by
      rw [agrees.eq_marked]
      rfl
    rw [batch, batch, reason, running]
    refine Agrees.ite ?_ agrees
    cases d.stopReason? with
    | some reason =>
      rw [agrees.eq_marked]
      exact agrees_marked (d.pauseFor reason) e.quitting
    | none => exact ih (agrees_checkBreakpoint (agrees_step agrees))

/-- A reset builds the same machine in both. -/
theorem agrees_reset (agrees : Agrees d e) : Agrees d.reset e.reset := by
  rw [agrees.eq_marked]
  cases build : d.config.build d.image with
  | ok start =>
    rw [reset_of_builds d build, reset_of_builds (d.marked e.quitting e.status) build]
    exact agrees_marked _ e.quitting
  | error cause =>
    have buildHere : (d.marked e.quitting e.status).config.build
        (d.marked e.quitting e.status).image = .error cause := build
    rw [reset, reset, build, buildHere]
    exact agrees_marked _ e.quitting

/-- Debuggers that agree go on agreeing, whatever happens to both. -/
theorem agrees_undergo (deed : Deed) (agrees : Agrees d e) :
    Agrees (d.undergo deed) (e.undergo deed) := by
  have whole := agrees
  obtain ⟨eq, status⟩ := agrees
  generalize e.quitting = quitting at eq
  generalize e.status = message at eq status
  subst eq
  cases deed with
  | edit change => exact ⟨rfl, status⟩
  | quit => exact ⟨rfl, status⟩
  | act action =>
    cases action with
    | step => exact agrees_step whole
    | tick => exact agrees_batch stepsPerTick whole
    | reset => exact agrees_reset whole
    | run => exact agrees_marked d.run quitting
    | addBreakpoint address => exact ⟨rfl, status⟩
    | scrollUp => exact ⟨rfl, status⟩
    | toggleBreakpoint => exact Agrees.ite (agrees_marked _ quitting) (agrees_marked _ quitting)
    | scrollDown => exact Agrees.ite ⟨rfl, status⟩ ⟨rfl, status⟩

/-- So debuggers that agree go on agreeing whatever is done to both. -/
theorem agrees_foldl (deeds : List Deed) (agrees : Agrees d e) :
    Agrees (deeds.foldl undergo d) (deeds.foldl undergo e) := by
  induction deeds generalizing d e with
  | nil => exact agrees
  | cons deed rest ih => exact ih (agrees_undergo deed agrees)

end Agrees

section Fresh

variable {config : RunConfig} {image : List UInt8} {start : Machine Service} {d : Debugger}

theorem setup_new (built : config.build image = .ok start)
    (new : Debugger.new config image = .ok d) : d.setup = (config, image) := by
  rw [Debugger.new, built] at new
  cases new
  rfl

/-- What is left of a debugger in a reset is its breakpoints, its window and the wish to leave. -/
theorem agrees_reset_of_setup {worn : Debugger} (built : config.build image = .ok start)
    (new : Debugger.new config image = .ok d) (setup : worn.setup = (config, image)) :
    Agrees { d with breakpoints := worn.breakpoints, memoryRow := worn.memoryRow } worn.reset := by
  obtain ⟨rfl, rfl⟩ := Prod.mk.inj setup
  rw [Debugger.new, built] at new
  cases new
  rw [reset_of_builds worn built]
  exact ⟨rfl, .inr ⟨rfl, rfl⟩⟩

end Fresh

/-- After whatever was done, a reset succeeds and gives the machine that was built at first, with
nothing printed, remembered or running; breakpoints, the window of memory and the wish to leave
stay. From there on everything goes as in a new debugger with these breakpoints and this window,
whatever is done to both: the machine and with it every stop, the console, the code that is shown
and, once either says anything, the message. -/
theorem reset_eq_new {config : RunConfig} {image : List UInt8} {d : Debugger}
    (new : Debugger.new config image = .ok d) (past : List Deed) :
    let worn := past.foldl undergo d
    let fresh := { d with breakpoints := worn.breakpoints, memoryRow := worn.memoryRow }
    (config.build image = .ok worn.reset.machine ∧ worn.reset.status = .wasReset ∧
      worn.reset.console = "" ∧ worn.reset.history = [] ∧ worn.reset.running = false ∧
      worn.reset.breakpoints = worn.breakpoints ∧ worn.reset.memoryRow = worn.memoryRow ∧
      worn.reset.quitting = worn.quitting) ∧
    ∀ future : List Deed,
      let again := future.foldl undergo worn.reset
      let anew := future.foldl undergo fresh
      again.machine = anew.machine ∧ again.running = anew.running ∧
        again.breakpoints = anew.breakpoints ∧ again.console = anew.console ∧
        again.history = anew.history ∧ again.memoryRow = anew.memoryRow ∧
        (∀ rows, again.codeView rows = anew.codeView rows) ∧
        (again.status = anew.status ∨ again.status = .wasReset ∧ anew.status = .ready) := by
  intro worn fresh
  obtain ⟨start, built, -⟩ := follows_new new
  have kept : worn.setup = (config, image) :=
    (setup_foldl d past).trans (setup_new built new)
  obtain ⟨rfl, rfl⟩ := Prod.mk.inj kept
  refine ⟨?_, fun future => ?_⟩
  · rw [reset_of_builds worn built]
    exact ⟨built, rfl, rfl, rfl, rfl, rfl, rfl, rfl⟩
  · obtain ⟨eq, status⟩ := agrees_foldl future (agrees_reset_of_setup built new kept)
    rw [eq]
    exact ⟨rfl, rfl, rfl, rfl, rfl, rfl, fun rows => codeView_marked _ _ _ rows, status⟩

/-- A step, a scroll, a breakpoint where the machine then stands, a halt and a jump by hand, an
attempt to run on, and the wish to leave. -/
def wearOut : List Deed :=
  [.act .step, .act .scrollDown, .act .toggleBreakpoint,
    .edit fun m => (m.setPc 0x4000).halt, .act .run, .act .tick, .quit]

/-- Running to the breakpoint and then on. -/
def runTwice : List Deed := [.act .run, .act .tick, .act .run, .act .tick]

/-- The reset undoes all of it but the breakpoint, the scroll and the wish to leave, and the
debugger then stops and prints as a new one with this breakpoint does. -/
theorem reset_wearOut :
    Debugger.new servedAtZero printsString = .ok (watching printsString) ∧
      let worn := wearOut.foldl undergo (watching printsString)
      worn.machine.state = .halted ∧ worn.reset.machine = loadedAtZero printsString ∧
        worn.reset.breakpoints = [3] ∧ worn.reset.memoryRow = 1 ∧ worn.reset.quitting = true ∧
        (runTwice.foldl undergo worn.reset).console = "é" := by
  have new : Debugger.new servedAtZero printsString = .ok (watching printsString) := rfl
  have left : (wearOut.foldl undergo (watching printsString)).machine.state = .halted ∧
      (wearOut.foldl undergo (watching printsString)).breakpoints = [3] ∧
      (wearOut.foldl undergo (watching printsString)).memoryRow = 1 ∧
      (wearOut.foldl undergo (watching printsString)).quitting = true := by
    decide +kernel
  have prints : (runTwice.foldl undergo
      { watching printsString with breakpoints := [3], memoryRow := 1 }).console = "é" := by
    decide +kernel
  obtain ⟨⟨built, -, -, -, -, breakpoints, memoryRow, quitting⟩, onward⟩ :=
    reset_eq_new new wearOut
  obtain ⟨-, -, -, console, -⟩ := onward runTwice
  rw [left.2.1, left.2.2.1] at console
  exact ⟨new, left.1, (Except.ok.inj built).symm, breakpoints.trans left.2.1,
    memoryRow.trans left.2.2.1, quitting.trans left.2.2.2, console.trans prints⟩

end Intel8080.Debugger
