import Intel8080.Debugger.CodeView
import Intel8080.Proofs.Debugger.Console
import Mathlib.Algebra.Group.Nat.Defs

/-!
# Observing a machine does not disturb it

Whatever is done in a debugger short of starting over, its machine stands where the machine alone
stands after as many steps as were executed; only the console, which the debugger takes, is empty
(`play_undisturbed`). The moves that execute nothing leave the machine as it is, and two debuggers
of one machine show the same machine after equally many steps, whatever else they hold and whatever
was done in them. Each move is some steps of the machine (`ahead_respond`), and steps in a row add
up (`Ahead.trans`).
-/
namespace Intel8080

namespace Machine

/-- Steps in a row add up. -/
theorem after_add (m : Machine Service) (first second : Nat) :
    m.after (first + second) = (m.after first).after second := by
  rw [Nat.add_comm]
  exact Function.iterate_add_apply next second first m

/-- Taking the output early makes no difference to what is left after more steps. -/
theorem drained_after (m : Machine Service) (n : Nat) :
    (m.after n).drained = (m.drained.after n).drained := by
  induction n generalizing m with
  | zero => rfl
  | succ n ih => rw [after_succ, after_succ, ih m.next, ih m.drained.next, drained_next]

end Machine

namespace Debugger

/-- What a user can do to a debugger without starting over. -/
inductive Move where
  | act (action : Action) (goesOn : action ≠ .reset)
  /-- Looking at a number of rows of code. -/
  | readCode (rows : Nat)

/-- The debugger after a move, with the rows of code that the move shows. -/
def respond (d : Debugger) : Move → Debugger × List CodeRow
  | .act action _ => (d.perform action, [])
  | .readCode rows => (d, d.codeView rows)

def play (d : Debugger) (moves : List Move) : Debugger :=
  moves.foldl (fun d move => (d.respond move).1) d

def moveCount (d : Debugger) : Move → Nat
  | .act .step _ => d.stepCount
  | .act .tick _ => d.batchCount stepsPerTick
  | _ => 0

def executed (d : Debugger) : List Move → Nat
  | [] => 0
  | move :: rest => d.moveCount move + (d.respond move).1.executed rest

/-- Whether a move executes nothing by what it is. -/
def Move.isQuiet : Move → Bool
  | .act .step _ | .act .tick _ => false
  | _ => true

/-- The second debugger shows the machine of the first some steps later, and each of these steps is
counted. -/
structure Ahead (d : Debugger) (n : Nat) (later : Debugger) : Prop where
  machine : later.machine.drained = (d.machine.after n).drained
  steps : later.machine.steps = d.machine.steps + UInt64.ofNat n

section Ahead

variable {d middle later : Debugger}

theorem ahead_of_machine_eq (same : later.machine = d.machine) : Ahead d 0 later :=
  ⟨congrArg Machine.drained same, (congrArg Machine.steps same).trans (UInt64.add_zero _).symm⟩

/-- Two stretches in a row are one. -/
theorem Ahead.trans {first second : Nat} (ahead : Ahead d first middle)
    (onward : Ahead middle second later) : Ahead d (first + second) later := by
  refine ⟨?_, ?_⟩
  · rw [onward.machine, Machine.drained_after, ahead.machine, ← Machine.drained_after,
      Machine.after_add]
  · rw [onward.steps, ahead.steps, UInt64.ofNat_add, UInt64.add_assoc]

/-- A step of the debugger is one of the machine, or none. -/
theorem ahead_step (d : Debugger) : Ahead d d.stepCount d.step := by
  by_cases running : d.machine.state = .running
  · rw [stepCount_of_running d running, step_of_running d running]
    exact ⟨rfl, Machine.next_steps Service.keepsSteps d.machine running⟩
  · rw [stepCount_of_not_running d running, step_of_not_running d running]
    exact ahead_of_machine_eq rfl

theorem checkBreakpoint_machine (d : Debugger) : d.checkBreakpoint.machine = d.machine := by
  simp only [checkBreakpoint]
  split <;> rfl

/-- A batch is as many steps of the machine as it counts. -/
theorem ahead_batch (d : Debugger) (count : Nat) : Ahead d (d.batchCount count) (d.batch count) := by
  induction count generalizing d with
  | zero => exact ahead_of_machine_eq rfl
  | succ count ih =>
    rw [batch, batchCount]
    split
    · cases d.stopReason? with
      | some reason => exact ahead_of_machine_eq rfl
      | none =>
        have stepped : Ahead d (d.stepCount + 0) d.step.checkBreakpoint :=
          (ahead_step d).trans (ahead_of_machine_eq (checkBreakpoint_machine d.step))
        exact stepped.trans (ih d.step.checkBreakpoint)
    · exact ahead_of_machine_eq rfl

/-- Breakpoints, scrolling, starting a run and looking at the code do nothing to the machine. -/
theorem respond_machine_of_quiet (d : Debugger) {move : Move} (quiet : move.isQuiet = true) :
    (d.respond move).1.machine = d.machine := by
  cases move with
  | readCode rows => rfl
  | act action goesOn =>
    cases action with
    | step | tick => cases quiet
    | reset => exact absurd rfl goesOn
    | run | addBreakpoint address | scrollUp => rfl
    | toggleBreakpoint =>
      simp only [respond, perform, toggleBreakpoint]
      split <;> rfl
    | scrollDown =>
      simp only [respond, perform, scrollDown]
      split <;> rfl

theorem moveCount_of_quiet (d : Debugger) {move : Move} (quiet : move.isQuiet = true) :
    d.moveCount move = 0 := by
  cases move with
  | readCode rows => rfl
  | act action goesOn =>
    cases action with
    | step | tick => cases quiet
    | _ => rfl

/-- Every move is a stretch of steps. -/
theorem ahead_respond (d : Debugger) (move : Move) :
    Ahead d (d.moveCount move) (d.respond move).1 := by
  cases quiet : move.isQuiet with
  | true =>
    rw [moveCount_of_quiet d quiet]
    exact ahead_of_machine_eq (respond_machine_of_quiet d quiet)
  | false =>
    cases move with
    | readCode rows => cases quiet
    | act action goesOn =>
      cases action with
      | step => exact ahead_step d
      | tick => exact ahead_batch d stepsPerTick
      | _ => cases quiet

/-- So moves in a row are one too. -/
theorem ahead_play (d : Debugger) (moves : List Move) : Ahead d (d.executed moves) (d.play moves) := by
  induction moves generalizing d with
  | nil => exact ahead_of_machine_eq rfl
  | cons move rest ih => exact (ahead_respond d move).trans (ih (d.respond move).1)

end Ahead

/-- After any moves, a debugger's machine is, but for the console, the machine that was built after
exactly the steps that it counts. Moves that execute nothing change nothing of the machine, and
debuggers of one machine show the same machine after equally many steps. -/
theorem play_undisturbed {config : RunConfig} {image : List UInt8} {d : Debugger}
    (new : Debugger.new config image = .ok d) (moves : List Move) :
    (∃ start, config.build image = .ok start ∧
      (d.play moves).machine.drained = (start.after (d.executed moves)).drained ∧
      (d.play moves).machine.steps = UInt64.ofNat (d.executed moves) ∧
      (d.executed moves < 2 ^ 64 → (d.play moves).machine.drained =
        (start.after (d.play moves).machine.steps.toNat).drained)) ∧
    (∀ (e : Debugger) (move : Move), move.isQuiet = true →
      (e.respond move).1.machine = e.machine) ∧
    ∀ one other : Debugger, one.machine = other.machine → ∀ some others : List Move,
      one.executed some = other.executed others →
        (one.play some).machine.drained = (other.play others).machine.drained := by
  refine ⟨?_, fun e move quiet => respond_machine_of_quiet e quiet,
    fun one other same some others equally => ?_⟩
  · obtain ⟨start, built, fresh⟩ := follows_new new
    have ahead := ahead_play d moves
    have begins : d.machine = start :=
      fresh.machine.trans (Machine.drained_of_empty start (RunConfig.build_fresh built).1)
    have counted : (d.play moves).machine.steps = UInt64.ofNat (d.executed moves) := by
      rw [ahead.steps, begins, (RunConfig.build_fresh built).2, UInt64.zero_add]
    have machine : (d.play moves).machine.drained = (start.after (d.executed moves)).drained := by
      rw [ahead.machine, begins]
    refine ⟨start, built, machine, counted, fun room => ?_⟩
    rw [machine, counted, UInt64.toNat_ofNat_of_lt' room]
  · rw [(ahead_play one some).machine, (ahead_play other others).machine, same, equally]

/-- A breakpoint, a step, a look at the code, a scroll and a batch to the end of the program. -/
def lookAround : List Move :=
  [.act .toggleBreakpoint (ne_of_beq_false rfl), .act .step (ne_of_beq_false rfl), .readCode 6,
    .act .run (ne_of_beq_false rfl), .act .scrollDown (ne_of_beq_false rfl),
    .act .tick (ne_of_beq_false rfl)]

/-- They take the program through its five instructions and no further. -/
theorem play_lookAround :
    Debugger.new servedAtZero printsBytes = .ok (watching printsBytes) ∧
      ((watching printsBytes).play lookAround).machine.steps = 5 ∧
      ((watching printsBytes).play lookAround).machine.drained =
        ((loadedAtZero printsBytes).after 5).drained := by
  have new : Debugger.new servedAtZero printsBytes = .ok (watching printsBytes) := rfl
  have five : (watching printsBytes).executed lookAround = 5 := by decide +kernel
  obtain ⟨⟨start, built, machine, counted, -⟩, -⟩ := play_undisturbed new lookAround
  have start_eq : start = loadedAtZero printsBytes := (Except.ok.inj built).symm
  rw [five] at machine counted
  exact ⟨new, counted, machine.trans (by rw [start_eq])⟩

end Debugger

end Intel8080
