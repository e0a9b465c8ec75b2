import Intel8080.Proofs.Machine.RunLength
import Intel8080.Proofs.Machine.TrappedTransfer

/-!
# The run state

A running machine is halted by the halt opcode and by nothing else, and stopped by a taken jump or
call to a trapped address whose handler says so and by nothing else (`next_state`), as long as the
handlers leave the run state to the machine. A machine that is not running stays as it is, whatever
it is asked for: the ways to make it execute all look at the run state first, and all they ever do
is repeat steps (`enterAll_eq_after`). So how a machine came to rest is told by one step of its
course.
-/
namespace Intel8080

namespace Machine
open Assembly

variable {η : Type}

/-- The next instruction is a jump or call to an address, and it is taken. -/
def TransfersTo (m : Machine η) (target : UInt16) : Prop :=
  ∃ transfer test, branch? (words m.nextInstruction.mnemonic) = some (transfer, test) ∧
    (transfer = .jump ∨ transfer = .call) ∧ test m.regs.flags = true ∧
      m.controlPath.operand = target

theorem answeredBy_iff_transfersTo (m : Machine η) (handler : η) :
    m.AnsweredBy handler ↔ ∃ target, m.TransfersTo target ∧ m.traps.get? target = some handler := by
  constructor
  · rintro ⟨transfer, test, named, far, taken, trapped⟩
    exact ⟨_, ⟨transfer, test, named, far, taken, rfl⟩, trapped⟩
  · rintro ⟨_, ⟨transfer, test, named, far, taken, rfl⟩, trapped⟩
    exact ⟨transfer, test, named, far, taken, trapped⟩

theorem setReg_state (m : Machine η) (r : Reg) (value : UInt8) :
    (m.setReg r value).state = m.state := by
  cases r <;> rfl

section Step

variable [TrapHandler η]

/-- The handlers leave the run state alone; what they answer is another matter. -/
def KeepsState (η : Type) [TrapHandler η] : Prop :=
  ∀ (handler : η) (m : Machine η), (TrapHandler.run handler m).1.state = m.state

/-- An operation other than a halt that no handler answers leaves the run state alone. -/
theorem execute_state (m : Machine η) (o : Operation) (free : m.answering? o = none)
    (other : o ≠ .hlt) : (m.advancePc.execute o).state = m.state := by
  cases o with
  | hlt => exact absurd rfl other
  | mov target source => exact setReg_state m.advancePc target _
  | mvi target => exact setReg_state m.advancePc.fetchByte.2 target _
  | inr target | dcr target => exact setReg_state _ target _
  | jump condition =>
    simp only [answering?, ite_eq_right_iff] at free
    simp only [execute, taken_advancePc]
    rw [jump_of_free m free]
    rfl
  | call condition =>
    simp only [answering?, ite_eq_right_iff] at free
    simp only [execute, taken_advancePc]
    rw [call_of_free m free]
    cases m.taken condition <;> rfl
  | ret condition =>
    simp only [execute, ret]
    cases m.advancePc.taken condition <;> rfl
  | _ => rfl

theorem runHandler_state (keeps : KeepsState η) (m : Machine η) (handler : η) :
    (m.runHandler handler).state =
      if (TrapHandler.run handler m).2 = .stop then .stopped else m.state := by
  rw [runHandler_eq]
  simp only [keeps handler m]

/-- What a step makes of the run state. -/
theorem next_state (keeps : KeepsState η) (m : Machine η) (running : m.state = .running) :
    m.next.state =
      match m.answering? m.nextOperation with
      | some handler =>
        if (TrapHandler.run handler (m.setPc (m.regs.pc + 3))).2 = .stop then .stopped
        else .running
      | none => if m.nextInstruction.opcode = 0x76 then .halted else .running := by
  cases answer : m.answering? m.nextOperation with
  | some handler =>
    have asked := runHandler_state keeps (m.setPc (m.regs.pc + 3)) handler
    rw [show (m.setPc (m.regs.pc + 3)).state = .running from running] at asked
    rw [next_answered m running answer]
    exact asked
  | none =>
    have halts : m.nextOperation = .hlt ↔ m.nextInstruction.opcode = 0x76 :=
      Opcode.operation_eq_hlt _
    rw [next_of_running m running]
    change (m.advancePc.execute m.nextOperation).state = _
    by_cases halt : m.nextOperation = .hlt
    · rw [if_pos (halts.1 halt), halt]
      rfl
    · rw [if_neg (mt halts.2 halt), execute_state m _ answer halt, running]

/-- The next step runs a handler that says that the run is over. -/
def AsksToStop (m : Machine η) : Prop :=
  ∃ target handler, m.TransfersTo target ∧ m.traps.get? target = some handler ∧
    (TrapHandler.run handler (m.setPc (m.regs.pc + 3))).2 = .stop

theorem asksToStop_iff (m : Machine η) :
    m.AsksToStop ↔ ∃ handler, m.answering? m.nextOperation = some handler ∧
      (TrapHandler.run handler (m.setPc (m.regs.pc + 3))).2 = .stop := by
  simp only [← answeredBy_iff, answeredBy_iff_transfersTo, AsksToStop]
  constructor
  · rintro ⟨target, handler, transfers, trapped, stop⟩
    exact ⟨handler, ⟨target, transfers, trapped⟩, stop⟩
  · rintro ⟨handler, ⟨target, transfers, trapped⟩, stop⟩
    exact ⟨target, handler, transfers, trapped, stop⟩

section Ends

variable (keeps : KeepsState η) (m : Machine η) (running : m.state = .running)

include keeps running

/-- A step halts the machine exactly if its opcode is that of the halt. -/
theorem next_halted_iff : m.next.state = .halted ↔ m.nextInstruction.opcode = 0x76 := by
  rw [next_state keeps m running]
  cases answer : m.answering? m.nextOperation with
  | some handler =>
    have other : ¬ m.nextInstruction.opcode = 0x76 := by
      intro halt
      rw [show m.nextOperation = .hlt from (Opcode.operation_eq_hlt _).2 halt] at answer
      cases answer
    by_cases stop : (TrapHandler.run handler (m.setPc (m.regs.pc + 3))).2 = .stop <;>
      simp [stop, other]
  | none =>
    by_cases halt : m.nextInstruction.opcode = 0x76 <;> simp [halt]

/-- A step stops the machine exactly if a handler asks for it. -/
theorem next_stopped_iff : m.next.state = .stopped ↔ m.AsksToStop := by
  rw [next_state keeps m running, asksToStop_iff]
  cases answer : m.answering? m.nextOperation with
  | some handler =>
    by_cases stop : (TrapHandler.run handler (m.setPc (m.regs.pc + 3))).2 = .stop <;> simp [stop]
  | none =>
    by_cases halt : m.nextInstruction.opcode = 0x76 <;> simp [halt]

end Ends

/-- A halt leaves the program counter behind its opcode. -/
theorem next_pc_of_halt (m : Machine η) (running : m.state = .running)
    (halt : m.nextInstruction.opcode = 0x76) : m.next.regs.pc = m.regs.pc + 1 := by
  have operation : m.nextOperation = .hlt := (Opcode.operation_eq_hlt _).2 halt
  rw [next_of_running m running, operation]
  rfl

end Step

section Traps

variable [TrapHandler η]

/-- No instruction sets a trap. -/
theorem after_traps_of_empty (m : Machine η) (empty : m.traps = .empty) (n : Nat) :
    (m.after n).traps = .empty := by
  induction n with
  | zero => exact empty
  | succ n ih =>
    rw [after_succ_eq_next]
    by_cases running : (m.after n).state = .running
    · rw [next_free _ running (answering?_of_untrapped ih _)]
      exact ih
    · rw [next_of_not_running _ running]
      exact ih

/-- Without traps a machine is never stopped. -/
theorem after_not_stopped (keeps : KeepsState η) (m : Machine η) (empty : m.traps = .empty)
    (start : m.state ≠ .stopped) (n : Nat) : (m.after n).state ≠ .stopped := by
  induction n with
  | zero => exact start
  | succ n ih =>
    rw [after_succ_eq_next]
    by_cases running : (m.after n).state = .running
    · rw [Ne, next_stopped_iff keeps _ running]
      rintro ⟨target, handler, -, trapped, -⟩
      rw [after_traps_of_empty m empty n] at trapped
      cases trapped
    · rwa [next_of_not_running _ running]

end Traps

end Machine

theorem Service.keepsState : Machine.KeepsState Service := by
  intro s m
  change (s.run m).1.state = m.state
  rw [run_eq]

/-- The services leave the traps as they are. -/
theorem Machine.after_traps (m : Machine Service) (n : Nat) : (m.after n).traps = m.traps := by
  induction n with
  | zero => rfl
  | succ n ih =>
    rw [after_succ_eq_next, ← ih]
    by_cases running : (m.after n).state = .running
    · cases answer : (m.after n).answering? (m.after n).nextOperation with
      | some s =>
        rw [next_answered _ running answer, runHandler_service]
        rfl
      | none => rw [next_free _ running answer]; rfl
    · rw [next_of_not_running _ running]

/-- The services are at two addresses. -/
theorem Service.get?_traps (target : UInt16) :
    traps.get? target =
      if target = 0x0000 then some .warmBoot else if target = 0x0005 then some .bdos else none := by
  have entries : traps.entries = [(0x0000, .warmBoot), (0x0005, .bdos)] := by decide
  rw [TrapTable.get?, entries]
  by_cases zero : target = 0x0000
  · subst zero
    rfl
  · by_cases five : target = 0x0005
    · subst five
      rfl
    · simp [List.lookup_cons, beq_false_of_ne zero, beq_false_of_ne five, zero, five]

namespace Machine

/-- A program with the services is stopped by a taken jump or call to the warm boot only. -/
theorem asksToStop_service (m : Machine Service) (traps : m.traps = Service.traps) :
    m.AsksToStop ↔ m.TransfersTo Service.warmBootAddress := by
  have answer (s : Service) (m : Machine Service) : (TrapHandler.run s m).2 = s.action := by
    change (s.run m).2 = s.action
    rw [Service.run_eq]
  constructor
  · rintro ⟨target, s, transfers, trapped, stop⟩
    rw [traps, Service.get?_traps] at trapped
    rw [answer] at stop
    by_cases zero : target = 0x0000
    · rwa [zero] at transfers
    · rw [if_neg zero, Option.ite_none_right_eq_some] at trapped
      cases trapped.2
      cases stop
  · intro transfers
    refine ⟨Service.warmBootAddress, .warmBoot, transfers, ?_, answer _ _⟩
    rw [traps, Service.get?_traps]
    rfl

variable {η : Type}

inductive Entry where
  | step
  | run
  | runLimited (limit : Nat)
  deriving DecidableEq, Repr

/-- What is given back: the executed instruction, or the number of steps. -/
inductive Answer where
  | stepped (result : Except MachineError Instruction)
  | ran (result : Except MachineError UInt64)

/-- The result of a request with the machine after it. A refused request leaves the machine as it
was. -/
def settle {α : Type} (m : Machine η) :
    Except MachineError (α × Machine η) → Except MachineError α × Machine η
  | .ok (value, after) => (.ok value, after)
  | .error e => (.error e, m)

section Entries

variable [TrapHandler η]

/-- A request to a machine. One that never ends is never answered. -/
def enter (m : Machine η) : Entry → Option (Answer × Machine η)
  | .step => some (Prod.map .stepped id (m.settle m.step))
  | .run => m.run.map fun r => Prod.map .ran id (m.settle r)
  | .runLimited limit => (m.runLimited limit).map fun r => Prod.map .ran id (m.settle r)

/-- The answers to requests in a row, with the machine after all of them. -/
def enterAll (m : Machine η) : List Entry → Option (List Answer × Machine η)
  | [] => some ([], m)
  | e :: rest =>
    (m.enter e).bind fun (answer, next) =>
      (next.enterAll rest).map fun (answers, final) => (answer :: answers, final)

/-- What a machine at rest answers: that it is not running, or that it took no step. -/
def Entry.atRest (state : RunState) : Entry → Answer
  | .step => .stepped (.error (.notRunning state))
  | .run | .runLimited _ => .ran (.ok 0)

/-- A run that is answered leaves its machine where its loop ended. -/
theorem final_of_settled {m final : Machine η} {limit : Option UInt64} {answer : Answer}
    (answered : ((m.stepWhile? limit).map (·.map m.counted)).map
      (fun r => Prod.map .ran id (m.settle r)) = some (answer, final)) :
    m.stepWhile? limit = some (.ok final) := by
  obtain ⟨r, given, settled⟩ := Option.map_eq_some_iff.1 answered
  obtain ⟨last, ended, rfl⟩ := exists_final given
  rw [ended, show last = final from congrArg Prod.snd settled]

theorem settle_step (m : Machine η) : (m.settle m.step).2 = m.next := by
  rw [next]
  cases m.step <;> rfl

/-- A request that is answered takes some steps and does nothing else. -/
theorem enter_eq_after {m final : Machine η} {e : Entry} {answer : Answer}
    (answered : m.enter e = some (answer, final)) : ∃ n, final = m.after n := by
  cases e with
  | step =>
    have done := congrArg Prod.snd (Option.some.inj answered)
    exact ⟨1, done.symm.trans (settle_step m)⟩
  | run =>
    obtain ⟨n, same⟩ := stepWhile?_eq_after none m _ (final_of_settled answered)
    exact ⟨n, Except.ok.inj same⟩
  | runLimited limit =>
    obtain ⟨n, same⟩ := stepWhile?_eq_after _ m _ (final_of_settled answered)
    exact ⟨n, Except.ok.inj same⟩

/-- Whatever a machine is asked for in whatever order, it goes along its course. -/
theorem enterAll_eq_after {m final : Machine η} {entries : List Entry} {answers : List Answer}
    (answered : m.enterAll entries = some (answers, final)) : ∃ n, final = m.after n := by
  induction entries generalizing m answers with
  | nil =>
    cases answered
    exact ⟨0, rfl⟩
  | cons e rest ih =>
    obtain ⟨⟨answer, middle⟩, here, others⟩ := Option.bind_eq_some_iff.1 answered
    obtain ⟨⟨later, last⟩, behind, both⟩ := Option.map_eq_some_iff.1 others
    cases both
    obtain ⟨first, rfl⟩ := enter_eq_after here
    obtain ⟨more, rfl⟩ := ih behind
    exact ⟨more + first, (Function.iterate_add_apply next more first m).symm⟩

/-- A request is never answered only if it is a run without a limit that does not end. -/
theorem enter_eq_none_iff (keeps : KeepsSteps η) (m : Machine η) (e : Entry) :
    m.enter e = none ↔ e = .run ∧ m.runLength = ⊤ := by
  cases e with
  | step =>
    refine iff_of_false (Option.some_ne_none _) ?_
    rintro ⟨same, -⟩
    cases same
  | run =>
    rw [enter, Option.map_eq_none_iff, run_eq_none_iff]
    exact (and_iff_right rfl).symm
  | runLimited limit =>
    rw [enter, runLimited, stepWhile?_limit keeps]
    refine iff_of_false (Option.some_ne_none _) ?_
    rintro ⟨same, -⟩
    cases same

section Rest

variable (m : Machine η) (rest : m.state ≠ .running)

include rest

theorem stepWhile?_of_not_running (limit : Option UInt64) :
    m.stepWhile? limit = some (.ok m) := by
  have ended : m.goesOn = false := by
    rw [← Bool.not_eq_true, goesOn_iff]
    exact fun go => rest go.1
  rw [stepWhile?, ended, Bool.false_and, if_neg Bool.false_ne_true]

theorem enter_of_not_running (e : Entry) : m.enter e = some (e.atRest m.state, m) := by
  cases e with
  | step =>
    rw [enter, step_of_not_running m rest]
    rfl
  | run =>
    rw [enter, run, stepWhile?_of_not_running m rest, Option.map_some, map_counted, UInt64.sub_self]
    rfl
  | runLimited limit =>
    rw [enter, runLimited, stepWhile?_of_not_running m rest, Option.map_some, map_counted,
      UInt64.sub_self]
    rfl

/-- A machine at rest stays as it is. -/
theorem enterAll_of_not_running (entries : List Entry) :
    m.enterAll entries = some (entries.map (Entry.atRest m.state), m) := by
  induction entries with
  | nil => rfl
  | cons e others ih =>
    simp only [enterAll, enter_of_not_running m rest, Option.bind_some, ih, Option.map_some,
      List.map_cons]

end Rest

/-- A run that has come to rest did so in one of its steps, and nothing happened since. -/
theorem exists_last_step (m : Machine η) (running : m.state = .running) {n : Nat}
    (rest : (m.after n).state ≠ .running) :
    ∃ k < n, (m.after k).state = .running ∧ (m.after (k + 1)).state ≠ .running ∧
      m.after n = m.after (k + 1) := by
  induction n with
  | zero => exact absurd running rest
  | succ n ih =>
    by_cases before : (m.after n).state = .running
    · exact ⟨n, Nat.lt_succ_self n, before, rest, rfl⟩
    · obtain ⟨k, below, going, ended, same⟩ := ih before
      refine ⟨k, Nat.lt_succ_of_lt below, going, ended, ?_⟩
      rw [after_succ_eq_next, next_of_not_running _ before, same]

end Entries

/-- A running machine is halted by the halt opcode, which it leaves behind, and stopped by a taken
jump or call to an address whose handler says so; nothing else changes the run state. So without
traps no machine is stopped, and with the services only a taken jump or call to 0000 stops one. The
ways to make a machine execute take it along its course, and once it is at rest it refuses to step,
runs no step and stays as it is. -/
theorem runState_course [TrapHandler η] (keeps : KeepsState η) (m : Machine η) :
    (∀ n, (m.after n).state = .running →
      ((m.after (n + 1)).state = .halted ↔ (m.after n).nextInstruction.opcode = 0x76) ∧
      ((m.after (n + 1)).state = .halted →
        (m.after (n + 1)).regs.pc = (m.after n).regs.pc + 1) ∧
      ((m.after (n + 1)).state = .stopped ↔ (m.after n).AsksToStop)) ∧
    (m.state = .running → ∀ n, (m.after n).state ≠ .running →
      ∃ k < n, (m.after k).state = .running ∧ (m.after (k + 1)).state ≠ .running ∧
        m.after n = m.after (k + 1)) ∧
    (m.traps = .empty → m.state ≠ .stopped → ∀ n, (m.after n).state ≠ .stopped) ∧
    (∀ s : Machine Service, s.traps = Service.traps → ∀ n, (s.after n).state = .running →
      ((s.after (n + 1)).state = .stopped ↔ (s.after n).TransfersTo 0x0000)) ∧
    (∀ entries answers final, m.enterAll entries = some (answers, final) →
      ∃ n, final = m.after n) ∧
    (KeepsSteps η → ∀ e, m.enter e = none ↔ e = .run ∧ m.runLength = ⊤) ∧
    (m.state ≠ .running → ∀ entries,
      m.enterAll entries = some (entries.map (Entry.atRest m.state), m)) := by
  refine ⟨fun n running => ⟨?_, fun halted => ?_, ?_⟩, fun running n rest => ?_, ?_, ?_, ?_,
    fun keepsSteps => enter_eq_none_iff keepsSteps m, ?_⟩
  · rw [after_succ_eq_next]
    exact next_halted_iff keeps _ running
  · rw [after_succ_eq_next] at halted ⊢
    exact next_pc_of_halt _ running ((next_halted_iff keeps _ running).1 halted)
  · rw [after_succ_eq_next]
    exact next_stopped_iff keeps _ running
  · exact exists_last_step m running rest
  · exact after_not_stopped keeps m
  · intro s traps n running
    rw [after_succ_eq_next, next_stopped_iff Service.keepsState _ running]
    exact asksToStop_service _ ((after_traps s n).trans traps)
  · exact fun entries answers final => enterAll_eq_after
  · exact enterAll_of_not_running m

/-- `JMP 0000` in a program with the services. -/
def jumpHome : Machine Service :=
  { withTraps Service.traps with
    regs := { Registers.zero with pc := 0x0100 }
    mem := Memory.zero.write 0x0100 0xC3 }

/-- `HLT` in the last cell of memory. -/
def haltAtTop : Machine Service :=
  { withTraps Service.traps with
    regs := { Registers.zero with pc := 0xFFFF }
    mem := Memory.zero.write 0xFFFF 0x76 }

/-- The jump stops its machine, which then refuses to step and runs no step. The halt leaves the
program counter at the bottom of memory. -/
theorem runState_jumpHome :
    KeepsState Service ∧ jumpHome.state = .running ∧ jumpHome.TransfersTo 0x0000 ∧
      (jumpHome.after 1).state = .stopped ∧
      (jumpHome.after 1).enterAll [.step, .run, .runLimited 5] =
        some ([.stepped (.error (.notRunning .stopped)), .ran (.ok 0), .ran (.ok 0)],
          jumpHome.after 1) ∧
      (haltAtTop.after 1).state = .halted ∧ (haltAtTop.after 1).regs.pc = 0x0000 := by
  have stopped : (jumpHome.after 1).state = .stopped := by decide +kernel
  have opcode : haltAtTop.nextInstruction.opcode = 0x76 := Memory.read_write_self _ _ _
  obtain ⟨-, -, -, services, -⟩ := runState_course Service.keepsState jumpHome
  obtain ⟨-, -, -, -, -, -, rest⟩ := runState_course Service.keepsState (jumpHome.after 1)
  obtain ⟨steps, -⟩ := runState_course Service.keepsState haltAtTop
  have halted : (haltAtTop.after 1).state = .halted := (steps 0 rfl).1.2 opcode
  have refused := rest (by rw [stopped]; decide) [.step, .run, .runLimited 5]
  rw [stopped] at refused
  have home := (services jumpHome rfl 0 rfl).1 stopped
  exact ⟨Service.keepsState, rfl, home, stopped, refused, halted, (steps 0 rfl).2.1 halted⟩

end Machine

end Intel8080
