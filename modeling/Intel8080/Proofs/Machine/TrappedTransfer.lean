import Intel8080.Proofs.Machine.ControlTransfer
import Intel8080.Proofs.Machine.Course

/-!
# Trapped transfers

A handler answers exactly the taken jumps and calls to its address, and stands in for the whole
transfer (`step_trapped`). Whether a handler runs is told from outside: a step in which one runs
depends on what the handlers mean, and a step in which none runs does not (`AsksHost`). A run in
which no handler runs goes as it would with no traps at all.
-/
namespace Intel8080.Machine
open Assembly

variable {η : Type}

/-- The mnemonic of the next instruction names a jump or call, the flag that it names has the named
value, and its operand is the address of the handler. -/
def AnsweredBy (m : Machine η) (handler : η) : Prop :=
  ∃ transfer test, branch? (words m.nextInstruction.mnemonic) = some (transfer, test) ∧
    (transfer = .jump ∨ transfer = .call) ∧ test m.regs.flags = true ∧
      m.traps.get? m.controlPath.operand = some handler

/-- What the next step does depends on what the handlers mean. -/
def AsksHost (m : Machine η) : Prop :=
  ∃ one other : TrapHandler η, @step η one m ≠ @step η other m

def untrapped (m : Machine η) : Machine η := { m with traps := .empty }

theorem answering?_of_branch {m : Machine η} {o : Operation} {transfer : Transfer}
    {test : Flags → Bool} {handler : η} (named : branchOf o = some (transfer, test))
    (far : transfer = .jump ∨ transfer = .call) (taken : test m.regs.flags = true)
    (trapped : m.traps.get? m.controlPath.operand = some handler) :
    m.answering? o = some handler := by
  have trapped : m.traps.get? (m.mem.readWord (m.regs.pc + 1)) = some handler := trapped
  cases o with
  | jump condition | call condition =>
    cases named
    rw [← taken_eq_conditionTest, taken_advancePc] at taken
    rw [answering?, if_pos taken, trapped]
  | ret condition | rst vector | pchl =>
    cases named
    obtain far | far := far <;> cases far
  | _ => cases named

theorem branch_of_answering? {m : Machine η} {o : Operation} {handler : η}
    (answered : m.answering? o = some handler) :
    ∃ transfer test, branchOf o = some (transfer, test) ∧
      (transfer = .jump ∨ transfer = .call) ∧ test m.regs.flags = true ∧
        m.traps.get? m.controlPath.operand = some handler := by
  cases o with
  | jump condition =>
    obtain ⟨taken, trapped⟩ := Option.ite_none_right_eq_some.1 answered
    rw [← taken_advancePc, taken_eq_conditionTest] at taken
    exact ⟨.jump, _, rfl, .inl rfl, taken, trapped⟩
  | call condition =>
    obtain ⟨taken, trapped⟩ := Option.ite_none_right_eq_some.1 answered
    rw [← taken_advancePc, taken_eq_conditionTest] at taken
    exact ⟨.call, _, rfl, .inr rfl, taken, trapped⟩
  | _ => cases answered

/-- The handler that the mnemonic asks for is the one that execution finds. -/
theorem answeredBy_iff (m : Machine η) (handler : η) :
    m.AnsweredBy handler ↔ m.answering? m.nextOperation = some handler := by
  have text : branch? (words m.nextInstruction.mnemonic) = branchOf m.nextOperation :=
    branch?_words (m.mem.read m.regs.pc)
  rw [AnsweredBy, text]
  constructor
  · rintro ⟨transfer, test, named, far, taken, trapped⟩
    exact answering?_of_branch named far taken trapped
  · exact branch_of_answering?

/-- No handler answers exactly if none does by the mnemonic and its operand. -/
theorem answering?_eq_none_iff (m : Machine η) :
    m.answering? m.nextOperation = none ↔ ∀ handler, ¬ m.AnsweredBy handler := by
  simp only [answeredBy_iff, Option.eq_none_iff_forall_ne_some, ne_eq]

/-- A step that no handler answers is the same whatever the handlers mean. -/
theorem step_free (m : Machine η) (running : m.state = .running)
    (free : m.answering? m.nextOperation = none) (one other : TrapHandler η) :
    @step η one m = @step η other m := by
  have same : @execute η one m.advancePc m.nextOperation =
      (@execute η other m.advancePc m.nextOperation).withHost m :=
    execute_withHost one other m m m.nextOperation free free
  rw [@step_of_running η one m running, @step_of_running η other m running, same,
    ← @execute_free η m other m.nextOperation free]

theorem asksHost_iff (m : Machine η) (running : m.state = .running) :
    m.AsksHost ↔ ∃ handler, m.AnsweredBy handler := by
  constructor
  · rintro ⟨one, other, different⟩
    by_contra none
    have free := (answering?_eq_none_iff m).2 (not_exists.1 none)
    exact different (step_free m running free one other)
  · rintro ⟨handler, answered⟩
    have answer := (answeredBy_iff m handler).1 answered
    -- One meaning ends the run and the other does not.
    let stopping : TrapHandler η := ⟨fun _ m => (m, .stop)⟩
    let resuming : TrapHandler η := ⟨fun _ m => (m, .resume)⟩
    refine ⟨stopping, resuming, fun same => ?_⟩
    rw [@step_eq_next η stopping m running, @step_eq_next η resuming m running,
      @next_answered η stopping m running handler answer,
      @next_answered η resuming m running handler answer] at same
    have states := congrArg (·.2.state) (Except.ok.inj same)
    change RunState.stopped = m.state at states
    rw [running] at states
    cases states

/-- A step that a handler answers is what the handler does behind the operand, with the run ended
if the handler says so and the step counted. -/
theorem step_answered [TrapHandler η] (m : Machine η) (running : m.state = .running) {handler : η}
    (answered : m.AnsweredBy handler) :
    let answer := TrapHandler.run handler (m.setPc (m.regs.pc + 3))
    m.step = .ok (m.nextInstruction, { answer.1 with
      state := if answer.2 = .stop then .stopped else answer.1.state
      steps := answer.1.steps + 1
      lastInstruction := some m.nextInstruction }) := by
  rw [step_eq_next m running, next_answered m running ((answeredBy_iff m handler).1 answered),
    runHandler_eq]
  rfl

/-- A step that no handler answers goes as it would without traps. -/
theorem next_untrapped [TrapHandler η] (m : Machine η)
    (free : m.state = .running → ∀ handler, ¬ m.AnsweredBy handler) :
    m.untrapped.next = m.next.untrapped := by
  by_cases running : m.state = .running
  · have free := (answering?_eq_none_iff m).2 (free running)
    have freeHere : m.untrapped.answering? m.untrapped.nextOperation = none := by
      rw [answering?_eq_none_iff]
      rintro handler ⟨_, _, _, _, _, trapped⟩
      cases trapped
    have exchanged := execute_withHost inferInstance inferInstance m m.untrapped m.nextOperation
      free freeHere
    rw [next_of_running m.untrapped running, next_free m running free]
    exact congrArg (book · m.nextInstruction) exchanged
  · rw [next_of_not_running m running, next_of_not_running m.untrapped running]

/-- As long as no handler answers, the traps make no difference. -/
theorem after_untrapped [TrapHandler η] (m : Machine η) (n : Nat)
    (free : ∀ i < n, (m.after i).state = .running → ∀ handler, ¬ (m.after i).AnsweredBy handler) :
    m.untrapped.after n = (m.after n).untrapped := by
  induction n with
  | zero => rfl
  | succ n ih =>
    rw [after_succ_eq_next, after_succ_eq_next, ih fun i below => free i (Nat.lt_succ_of_lt below),
      next_untrapped (m.after n) (free n (Nat.lt_succ_self n))]

/-- A step of a running machine asks the host exactly at a taken jump or call to a trapped address;
there it is the work of the handler, behind the operand and in place of the transfer. A run of any
length in which that never happens is, traps aside, the run of the same machine without traps. -/
theorem step_trapped (m : Machine η) :
    (m.state = .running → (m.AsksHost ↔ ∃ handler, m.AnsweredBy handler)) ∧
    (∀ [TrapHandler η] (handler : η), m.state = .running → m.AnsweredBy handler →
      let answer := TrapHandler.run handler (m.setPc (m.regs.pc + 3))
      m.step = .ok (m.nextInstruction, { answer.1 with
        state := if answer.2 = .stop then .stopped else answer.1.state
        steps := answer.1.steps + 1
        lastInstruction := some m.nextInstruction })) ∧
    ∀ [TrapHandler η] (n : Nat),
      (∀ i < n, (m.after i).state = .running → ∀ handler, ¬ (m.after i).AnsweredBy handler) →
        m.untrapped.after n = (m.after n).untrapped :=
  ⟨asksHost_iff m, fun _ running answered => step_answered m running answered, after_untrapped m⟩

/-- A handler that takes its own entry out of the table. -/
inductive OneTime where
  | answer

instance : TrapHandler OneTime :=
  ⟨fun _ m => ({ m with traps := m.traps.erase 0x2000 }.setReg .a 42, .resume)⟩

/-- `CNZ 2000` from FFFF on, with 2000 trapped once. -/
def callOneTime : Machine OneTime :=
  { withTraps (TrapTable.empty.insert 0x2000 .answer) with
    regs := { Registers.zero with pc := 0xFFFF, sp := 0x0100 }
    mem := (Memory.zero.write 0xFFFF 0xC4).write 0x0001 0x20 }

theorem operand_callOneTime : callOneTime.mem.readWord 0x0000 = 0x2000 := by
  have low : callOneTime.mem.read 0x0000 = 0x00 := by
    simp [callOneTime, Memory.read_write]
  have high : callOneTime.mem.read 0x0001 = 0x20 := by
    simp [callOneTime]
  exact Memory.readWord_of_reads low high

theorem nextInstruction_callOneTime :
    callOneTime.nextInstruction = ⟨0xFFFF, 0xC4, .word 0x2000⟩ := by
  have opcode : callOneTime.mem.read 0xFFFF = 0xC4 := by
    simp [callOneTime, Memory.read_write]
  exact Instruction.decode_of_word rfl opcode operand_callOneTime

theorem answeredBy_callOneTime : callOneTime.AnsweredBy .answer := by
  have operand : callOneTime.controlPath.operand = 0x2000 := operand_callOneTime
  refine ⟨.call, fun f => !f.zero, ?_, .inr rfl, rfl, ?_⟩
  · rw [nextInstruction_callOneTime]
    rfl
  · rw [operand]
    rfl

/-- The handler finishes though it is no longer in the table, and nothing is pushed. No-operations
that lead over the trapped address 0005 run as if it were not trapped. -/
theorem step_callOneTime :
    callOneTime.state = .running ∧ callOneTime.AnsweredBy .answer ∧ callOneTime.AsksHost ∧
    (∃ after, callOneTime.step = .ok (⟨0xFFFF, 0xC4, .word 0x2000⟩, after) ∧
      after.regs.pc = 0x0002 ∧ after.regs.sp = 0x0100 ∧ after.mem = callOneTime.mem ∧
      after.regs.a = 42 ∧ after.traps.isEmpty = true ∧ after.state = .running ∧ after.steps = 1) ∧
    (∀ i < 6, ∀ s, ¬ ((withTraps Service.traps).after i).AnsweredBy s) ∧
    (untrapped (withTraps Service.traps)).after 6 = untrapped ((withTraps Service.traps).after 6) := by
  obtain ⟨asks, answers, -⟩ := step_trapped callOneTime
  have step := answers .answer rfl answeredBy_callOneTime
  rw [nextInstruction_callOneTime] at step
  have free : ∀ i < 6, ∀ s, ¬ ((withTraps Service.traps).after i).AnsweredBy s := by
    intro i _
    rw [← answering?_eq_none_iff,
      nextOperation_of_empty _ (after_of_empty (withTraps Service.traps) rfl rfl i).2]
    rfl
  exact ⟨rfl, answeredBy_callOneTime, (asks rfl).2 ⟨_, answeredBy_callOneTime⟩,
    ⟨_, step, rfl, rfl, rfl, rfl, rfl, rfl, rfl⟩, free,
    (step_trapped (withTraps Service.traps)).2.2 6 fun i below _ => free i below⟩

end Intel8080.Machine
