import Intel8080.Machine.Run
import Intel8080.Proofs.Machine.Host
import Mathlib.Logic.Function.Iterate

/-!
# The course of a machine

The machines that follow one another step by step. `next` makes the step total: a machine that is
not running stays as it is. What `next` does is the handler's work if one answers the instruction
(`next_answered`), and otherwise keeps the host's side (`next_free`). A host whose handlers leave
the step counter alone counts every step once (`next_steps`).
-/
namespace Intel8080.Machine

variable {η : Type}

theorem nextOperation_of_empty (m : Machine η) (empty : m.mem = .zero) : m.nextOperation = .nop := by
  rw [nextOperation, empty, Memory.read_zero]
  rfl

variable [TrapHandler η]

/-- The machine after a step, or the same machine if it is not running. -/
def next (m : Machine η) : Machine η :=
  match m.step with
  | .ok (_, after) => after
  | .error _ => m

def after (m : Machine η) (n : Nat) : Machine η := next^[n] m

@[simp] theorem after_zero (m : Machine η) : m.after 0 = m := rfl

theorem after_succ (m : Machine η) (n : Nat) : m.after (n + 1) = m.next.after n := rfl

theorem after_succ_eq_next (m : Machine η) (n : Nat) : m.after (n + 1) = (m.after n).next :=
  Function.iterate_succ_apply' next n m

section Step

variable (m : Machine η)

theorem next_of_running (running : m.state = .running) :
    m.next = (m.advancePc.execute m.nextOperation).book m.nextInstruction := by
  rw [next, step_of_running m running]

/-- A step of a running machine gives the next machine and is never refused. -/
theorem step_eq_next (running : m.state = .running) : m.step = .ok (m.nextInstruction, m.next) := by
  rw [next_of_running m running, step_of_running m running]

theorem next_of_not_running (rest : m.state ≠ .running) : m.next = m := by
  rw [next, step_of_not_running m rest]

/-- An answered transfer goes behind itself and leaves the rest to its handler. -/
theorem next_answered (running : m.state = .running) {handler : η}
    (answered : m.answering? m.nextOperation = some handler) :
    m.next = ((m.setPc (m.regs.pc + 3)).runHandler handler).book m.nextInstruction := by
  rw [next_of_running m running, execute_answered m _ answered]

theorem next_free (running : m.state = .running) (free : m.answering? m.nextOperation = none) :
    m.next = ((m.advancePc.execute m.nextOperation).withHost m).book m.nextInstruction := by
  rw [← execute_free m _ free, next_of_running m running]

end Step

section Empty

variable (m : Machine η)

/-- In empty memory a running machine executes a no-operation. -/
theorem next_of_empty (running : m.state = .running) (empty : m.mem = .zero) :
    m.next = m.advancePc.book m.nextInstruction := by
  rw [next_of_running m running, nextOperation_of_empty m empty]
  rfl

theorem after_of_empty (running : m.state = .running) (empty : m.mem = .zero) (n : Nat) :
    (m.after n).state = .running ∧ (m.after n).mem = .zero := by
  induction n with
  | zero => exact ⟨running, empty⟩
  | succ n ih =>
    rw [after_succ_eq_next, next_of_empty _ ih.1 ih.2]
    exact ih

end Empty

/-- The handlers leave the step counter alone. -/
def KeepsSteps (η : Type) [TrapHandler η] : Prop :=
  ∀ (handler : η) (m : Machine η), (TrapHandler.run handler m).1.steps = m.steps

theorem runHandler_steps (keeps : KeepsSteps η) (m : Machine η) (handler : η) :
    (m.runHandler handler).steps = m.steps := by
  rw [runHandler_eq]
  exact keeps handler m

/-- A step of a running machine is counted once. -/
theorem next_steps (keeps : KeepsSteps η) (m : Machine η) (running : m.state = .running) :
    m.next.steps = m.steps + 1 := by
  cases answer : m.answering? m.nextOperation with
  | none =>
    rw [next_free m running answer]
    rfl
  | some handler =>
    rw [next_answered m running answer]
    change (Machine.runHandler _ handler).steps + 1 = _
    rw [runHandler_steps keeps]
    rfl

/-- Below a limit the step counter does not wrap. -/
theorem next_steps_toNat (keeps : KeepsSteps η) (m : Machine η) (running : m.state = .running)
    {limit : UInt64} (below : m.steps < limit) : m.next.steps.toNat = m.steps.toNat + 1 := by
  have bound := limit.toNat_lt
  rw [UInt64.lt_iff_toNat_lt] at below
  rw [next_steps keeps m running, UInt64.toNat_add, UInt64.toNat_one]
  omega

end Intel8080.Machine
