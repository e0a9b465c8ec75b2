import Intel8080.Proofs.CommandLine.Report
import Intel8080.Proofs.Machine.TrappedTransfer

/-!
# Tracing only observes

With every event logged, a run does and prints what it does and prints with warnings only, but for
the log itself (`runCommand_withTrace`). The full log has one line for each executed instruction, in
the order of execution, and the warnings in it are those of the other log. Each step says once that
its instruction is executed (`filter_execute_stepEvents`) and warns at most once
(`lines_warn_stepEvents`); a run says what its steps say, however it is cut into slices
(`logLines_runCommand`).
-/
namespace Intel8080

/-! ## What passes the filters -/

/-- The name of the program covers all of its parts. -/
theorem LogFilter.specificity?_part (e : Event) :
    specificity? ⟨some "i8080", some .trace⟩ e.part = some 6 := by
  cases e with
  | imageLoaded path size =>
    exact (by decide : specificity? ⟨some "i8080", some .trace⟩ "i8080::asm::image" = some 6)
  | executed _ | unimplemented _ | halted _ _ | stopped _ _ =>
    exact (by decide : specificity? ⟨some "i8080", some .trace⟩ "i8080::cpu::execute" = some 6)
  | trapped _ =>
    exact (by decide : specificity? ⟨some "i8080", some .trace⟩ "i8080::cpu::control" = some 6)
  | serviceCalled _ _ | functionUnsupported _ | stringUnterminated _ =>
    exact (by decide : specificity? ⟨some "i8080", some .trace⟩ "i8080::cpu::traps" = some 6)

/-- The name in the filter of a trace covers every part that has events. -/
theorem LogFilter.everything_allows (e : Event) : everything.allows e = true := by
  have decides : deciding e.part none everything.directives =
      some (6, ⟨some "i8080", some .trace⟩) := by
    simp only [everything, deciding, specificity?_part]
  rw [allows, decides]
  cases e <;> rfl

/-- No event is more important than a warning, so that filter lets the warnings pass and nothing
else. -/
theorem LogFilter.atLeast_warn_allows (e : Event) :
    (atLeast .warn).allows e = (e.level == .warn) := by
  cases e <;> rfl

/-! ## What the lines say -/

def executeLine (i : Instruction) : String :=
  "TRACE execute address=" ++ wordHex i.address ++ " opcode=" ++ byteHex i.opcode ++
    " mnemonic=\"" ++ i.mnemonic ++ "\""

theorem Event.line_executed (i : Instruction) : (Event.executed i).line = executeLine i := by
  have head : "TRACE execute address=" = "TRACE" ++ " " ++ "execute" ++ " " ++ "address" ++ "=" := by
    decide
  have opcode : " opcode=" = " " ++ "opcode" ++ "=" := by decide
  have mnemonic : " mnemonic=\"" = " " ++ "mnemonic" ++ "=" ++ "\"" := by decide
  unfold Event.line executeLine
  rw [head, opcode, mnemonic]
  simp only [level, Level.name, message, fields, List.map_cons, List.map_nil, String.join_cons,
    String.join_nil, String.append_assoc, String.append_empty]

theorem Event.line_unimplemented (address : UInt16) (opcode : UInt8) :
    (Event.unimplemented ⟨address, opcode⟩).line = "WARN unimplemented instruction address=" ++
      wordHex address ++ " opcode=" ++ byteHex opcode := by
  have head : "WARN unimplemented instruction address=" =
      "WARN" ++ " " ++ "unimplemented instruction" ++ " " ++ "address" ++ "=" := by decide
  have opcode : " opcode=" = " " ++ "opcode" ++ "=" := by decide
  unfold Event.line
  rw [head, opcode]
  simp only [level, Level.name, message, fields, List.map_cons, List.map_nil, String.join_cons,
    String.join_nil, String.append_assoc, String.append_empty]

theorem Event.line_stringUnterminated (start : UInt16) :
    (Event.stringUnterminated start).line =
      "WARN unterminated BDOS string start=" ++ wordHex start := by
  have head : "WARN unterminated BDOS string start=" =
      "WARN" ++ " " ++ "unterminated BDOS string" ++ " " ++ "start" ++ "=" := by decide
  unfold Event.line
  rw [head]
  simp only [level, Level.name, message, fields, List.map_cons, List.map_nil, String.join_cons,
    String.join_nil, String.append_assoc, String.append_empty]

namespace Machine

/-! ## What a step says -/

/-- The next step calls the service for a string without an end: no byte of memory ends it. -/
def PrintsUnended (m : Machine Service) : Prop :=
  m.AnsweredBy .bdos ∧ m.regs.c = Service.printString ∧
    ∀ address, m.mem.read address ≠ Service.terminator

open Classical in
/-- What the next step warns of: an instruction for a port is skipped, or a string has no end. -/
noncomputable def warningLines (m : Machine Service) : List String :=
  let i := m.nextInstruction
  if i.opcode = 0xDB ∨ i.opcode = 0xD3 then
    ["WARN unimplemented instruction address=" ++ wordHex i.address ++ " opcode=" ++
      byteHex i.opcode]
  else if m.PrintsUnended then ["WARN unterminated BDOS string start=" ++ wordHex m.regs.de]
  else []

/-- What the next step says of the handler that answers it, if one does. -/
def trapEvents (m : Machine Service) : List Event :=
  match m.pendingTrap? with
  | none => []
  | some (target, service) =>
    .trapped target :: service.events m ++
      (match service with
      | .warmBoot => [.stopped (m.regs.pc + 3) m.steps]
      | .bdos => [])

section Step

variable (m : Machine Service)

theorem stepEvents_eq :
    m.stepEvents = .executed m.nextInstruction :: (match m.nextOperation with
      | .hlt => [.halted (m.regs.pc + 1) m.steps]
      | .input | .output =>
        [.unimplemented ⟨m.nextInstruction.address, m.nextInstruction.opcode⟩]
      | _ => m.trapEvents) := rfl

/-- The log names the handler that answers the step. -/
theorem map_pendingTrap? : m.pendingTrap?.map Prod.snd = m.answering? m.nextOperation := by
  have far (target : UInt16) :
      ((m.traps.get? target).map fun s => (target, s)).map Prod.snd = m.traps.get? target := by
    rw [Option.map_map]
    exact Option.map_id'
  have operation : Opcode.operation (m.mem.read m.regs.pc) = m.nextOperation := rfl
  rw [pendingTrap?, transferTarget?, operation]
  cases m.nextOperation with
  | jump condition | call condition =>
    dsimp only [answering?]
    by_cases taken : m.taken condition = true
    · rw [if_pos taken, if_pos taken]
      exact far _
    · rw [if_neg taken, if_neg taken]
      rfl
  | _ => rfl

/-- A service warns of a string without an end and of nothing else. -/
theorem filter_warn_events (s : Service) :
    (s.events m).filter (·.level == .warn) =
      if s = .bdos ∧ m.regs.c = Service.printString ∧
        Service.isTerminated m.mem m.regs.de = false
      then [.stringUnterminated m.regs.de] else [] := by
  cases s with
  | warmBoot => rfl
  | bdos =>
    rw [Service.events]
    by_cases string : m.regs.c = Service.printString
    · rw [string]
      cases Service.isTerminated m.mem m.regs.de <;> rfl
    · have quiet : ¬ (Service.bdos = .bdos ∧ m.regs.c = Service.printString ∧
          Service.isTerminated m.mem m.regs.de = false) := fun warned => string warned.2.1
      rw [if_neg quiet, beq_false_of_ne string]
      cases m.regs.c == Service.consoleOutput <;> rfl

open Classical in
/-- Of a handler there is a warning only for a string that no byte of memory ends. -/
theorem filter_warn_trapEvents :
    m.trapEvents.filter (·.level == .warn) =
      if m.PrintsUnended then [.stringUnterminated m.regs.de] else [] := by
  have answers := map_pendingTrap? m
  rw [trapEvents]
  cases pending : m.pendingTrap? with
  | none =>
    have free : ¬ m.PrintsUnended := by
      rintro ⟨answered, -⟩
      rw [answeredBy_iff, ← answers, pending] at answered
      cases answered
    rw [if_neg free]
    rfl
  | some found =>
    obtain ⟨target, service⟩ := found
    rw [pending] at answers
    have unended : (service = .bdos ∧ m.regs.c = Service.printString ∧
        Service.isTerminated m.mem m.regs.de = false) ↔ m.PrintsUnended := by
      rw [PrintsUnended, answeredBy_iff, ← answers, Service.isTerminated_eq_false_iff,
        Option.map_some, Option.some.injEq]
    rw [← if_congr unended rfl rfl, ← filter_warn_events]
    cases service with
    | warmBoot => rfl
    | bdos =>
      dsimp only
      rw [List.append_nil]
      rfl

/-- The lines of the handlers are not those of executed instructions. -/
theorem filter_execute_trapEvents : m.trapEvents.filter (·.message == "execute") = [] := by
  have quiet (s : Service) : (s.events m).filter (·.message == "execute") = [] := by
    cases s with
    | warmBoot => rfl
    | bdos =>
      rw [Service.events]
      cases m.regs.c == Service.consoleOutput <;> cases m.regs.c == Service.printString <;>
        cases Service.isTerminated m.mem m.regs.de <;> rfl
  rw [trapEvents]
  cases m.pendingTrap? with
  | none => rfl
  | some found =>
    obtain ⟨target, service⟩ := found
    cases service with
    | warmBoot => rfl
    | bdos =>
      dsimp only
      rw [List.append_nil]
      exact quiet .bdos

/-- A step says once that its instruction is executed. -/
theorem filter_execute_stepEvents :
    m.stepEvents.filter (·.message == "execute") = [.executed m.nextInstruction] := by
  have rest := filter_execute_trapEvents m
  rw [stepEvents_eq]
  cases m.nextOperation with
  | hlt | input | output => rfl
  | _ => exact congrArg (Event.executed m.nextInstruction :: ·) rest

/-- A step warns of what its instruction and the memory give reason to, and of nothing else. -/
theorem lines_warn_stepEvents :
    (m.stepEvents.filter (·.level == .warn)).map Event.line = m.warningLines := by
  have port : (m.nextOperation = .input ∨ m.nextOperation = .output) ↔
      (m.nextInstruction.opcode = 0xDB ∨ m.nextInstruction.opcode = 0xD3) :=
    or_congr (Opcode.operation_eq_input _) (Opcode.operation_eq_output _)
  have skipped := Event.line_unimplemented m.nextInstruction.address m.nextInstruction.opcode
  have trapped := filter_warn_trapEvents m
  rw [stepEvents_eq, warningLines]
  cases op : m.nextOperation with
  | input =>
    rw [if_pos (port.1 (.inl op)), ← skipped]
    rfl
  | output =>
    rw [if_pos (port.1 (.inr op)), ← skipped]
    rfl
  | hlt =>
    have other : ¬ (m.nextOperation = .input ∨ m.nextOperation = .output) := by simp [op]
    have free : ¬ m.PrintsUnended := by
      rintro ⟨answered, -⟩
      rw [answeredBy_iff, op] at answered
      cases answered
    rw [if_neg (mt port.2 other), if_neg free]
    rfl
  | _ =>
    have other : ¬ (m.nextOperation = .input ∨ m.nextOperation = .output) := by simp [op]
    rw [if_neg (mt port.2 other), ← Event.line_stringUnterminated]
    refine (congrArg (List.map Event.line) trapped).trans ?_
    split <;> rfl

end Step

end Machine

namespace CommandLine
open Machine

/-! ## What a run says -/

def isExecution (e : Event) : Bool := e.message == "execute"

def isWarning (e : Event) : Bool := e.level == .warn

theorem isExecution_imageLoaded (path : String) (size : Nat) :
    isExecution (.imageLoaded path size) = false := rfl

theorem isWarning_imageLoaded (path : String) (size : Nat) :
    isWarning (.imageLoaded path size) = false := rfl

section Run

variable (m : Machine Service) (limit : Nat)

/-- The execution lines of a run are those of its instructions, in their order. -/
theorem lines_executions_eventsWithin :
    ((m.eventsWithin limit).filter isExecution).map Event.line =
      (List.range (m.stepsWithin limit)).map fun i => executeLine (m.after i).nextInstruction := by
  have said (i : Nat) : ((m.after i).stepEvents.filter isExecution).map Event.line =
      [executeLine (m.after i).nextInstruction] := by
    rw [← Event.line_executed]
    exact congrArg (List.map Event.line) (filter_execute_stepEvents (m.after i))
  rw [eventsWithin_eq_flatMap, List.filter_flatMap, List.map_flatMap, List.map_eq_flatMap]
  simp only [said]

/-- The warnings of a run are what its steps give reason to, in their order. -/
theorem lines_warnings_eventsWithin :
    ((m.eventsWithin limit).filter isWarning).map Event.line =
      (List.range (m.stepsWithin limit)).flatMap fun i => (m.after i).warningLines := by
  have said (i : Nat) : ((m.after i).stepEvents.filter isWarning).map Event.line =
      (m.after i).warningLines := lines_warn_stepEvents (m.after i)
  rw [eventsWithin_eq_flatMap, List.filter_flatMap, List.map_flatMap]
  simp only [said]

/-- Each step of a run within a limit executes the next instruction. -/
theorem step_within (i : Nat) (early : i < m.stepsWithin limit) :
    (m.after i).step = .ok ((m.after i).nextInstruction, m.after (i + 1)) := by
  have running := ((goesOn_iff _).1 (goesOn_after_of_lt m early)).1
  rw [step_eq_next _ running, after_succ_eq_next]

theorem runLimited_of_zero (limit : UInt64) {m : Machine Service} (zero : m.steps = 0) :
    m.runLimited limit.toNat =
      some (.ok (UInt64.ofNat (m.stepsWithin limit.toNat),
        m.after (m.stepsWithin limit.toNat))) := by
  rw [runLimited_eq_advance Service.keepsSteps m _ (room_of_zero zero limit), advance_eq_after]

end Run

theorem filter_everything (events : List Event) :
    events.filter LogFilter.everything.allows = events :=
  List.filter_eq_self.2 fun e _ => LogFilter.everything_allows e

theorem filter_atLeast_warn (events : List Event) :
    (events.filter (LogFilter.atLeast .warn).allows).filter isWarning =
      events.filter isWarning := by
  have allows : (LogFilter.atLeast .warn).allows = isWarning :=
    funext LogFilter.atLeast_warn_allows
  rw [allows, List.filter_filter]
  simp only [Bool.and_self]

/-- Without a variable the option decides between everything and the warnings. -/
theorem filter_withTrace {env : Environment} (o : RunOptions) (unset : env.logVariable = none) :
    (o.withTrace true).filter env = .everything ∧
      (o.withTrace false).filter env = .atLeast .warn := by
  refine ⟨rfl, ?_⟩
  change LogFilter.ofVariable env.logVariable = _
  rw [unset]
  rfl

/-- Whatever is logged, a run does and prints the same beside the log. The log of everything holds
the line of each executed instruction, in the order of execution, and the warnings; these are the
same in both logs, and what the executed instructions give reason to. -/
theorem runCommand_withTrace {env : Environment} (o : RunOptions)
    (unset : env.logVariable = none) :
    let traced := runCommand env (o.withTrace true)
    let plain := runCommand env (o.withTrace false)
    (traced.exit = plain.exit ∧ traced.stdout = plain.stdout ∧ traced.notices = plain.notices ∧
      traced.logLines isWarning = plain.logLines isWarning) ∧
    (∀ outcome, prepare env o = .error outcome →
      traced.logLines isExecution = [] ∧ traced.logLines isWarning = []) ∧
    ∀ p, prepare env o = .ok p →
      let m := p.machine
      let n := m.stepsWithin p.limit.toNat
      m.runLimited p.limit.toNat = some (.ok (UInt64.ofNat n, m.after n)) ∧
      (∀ i < n, (m.after i).step = .ok ((m.after i).nextInstruction, m.after (i + 1))) ∧
      traced.logLines isExecution =
        (List.range n).map (fun i => executeLine (m.after i).nextInstruction) ∧
      traced.logLines isWarning = (List.range n).flatMap fun i => (m.after i).warningLines := by
  intro traced plain
  obtain ⟨everything, warnings⟩ := filter_withTrace o unset
  obtain ⟨cause, loaded, failed⟩ | ⟨config, image, start, built, ready⟩ := prepare_withTrace env o
  · have tracedIs : traced = _ := runCommand_of_failed (failed true)
    have plainIs : plain = _ := runCommand_of_failed (failed false)
    have failed : prepare env o = _ := failed o.trace
    rw [tracedIs, plainIs]
    refine ⟨⟨rfl, rfl, ?_, ?_⟩, fun outcome same => ⟨?_, ?_⟩, fun p prepared => ?_⟩
    · rw [notices_failing, notices_failing]
    · rw [logLines_failing _ _ _ _ isWarning_imageLoaded,
        logLines_failing _ _ _ _ isWarning_imageLoaded]
    · exact logLines_failing _ _ _ _ isExecution_imageLoaded
    · exact logLines_failing _ _ _ _ isWarning_imageLoaded
    · rw [failed] at prepared
      cases prepared
  · obtain ⟨empty, zero⟩ := RunConfig.build_fresh built
    have tracedIs := runCommand_of_prepared (ready true) empty zero
    have plainIs := runCommand_of_prepared (ready false) empty zero
    have notices : traced.notices = plain.notices :=
      (notices_runCommand (ready true) rfl empty zero).trans
        (notices_runCommand (ready false) rfl empty zero).symm
    have executions : traced.logLines isExecution = _ :=
      logLines_runCommand (ready true) rfl empty zero isExecution_imageLoaded
    have tracedWarnings : traced.logLines isWarning = _ :=
      logLines_runCommand (ready true) rfl empty zero isWarning_imageLoaded
    have plainWarnings : plain.logLines isWarning = _ :=
      logLines_runCommand (ready false) rfl empty zero isWarning_imageLoaded
    dsimp only at tracedIs plainIs executions tracedWarnings plainWarnings
    rw [everything, filter_everything] at executions tracedWarnings
    rw [warnings, filter_atLeast_warn] at plainWarnings
    have ready : prepare env o = _ := ready o.trace
    refine ⟨⟨?_, ?_, notices, ?_⟩, fun outcome failed => ?_, fun p prepared => ?_⟩
    · exact (congrArg Outcome.exit tracedIs).trans (congrArg Outcome.exit plainIs).symm
    · exact (congrArg Outcome.stdout tracedIs).trans (congrArg Outcome.stdout plainIs).symm
    · rw [tracedWarnings, plainWarnings]
    · rw [ready] at failed
      cases failed
    · rw [ready] at prepared
      cases prepared
      refine ⟨runLimited_of_zero (stepLimit config) zero, step_within start _, ?_, ?_⟩
      · rw [executions, lines_executions_eventsWithin]
      · rw [tracedWarnings, lines_warnings_eventsWithin]

/-- Whatever file is read, it holds `IN 1` and `NOP`. -/
def portFiles : Environment := ⟨fun _ => .ok [0xDB, 0x01, 0x00], none⟩

def plainRun : RunOptions :=
  ⟨⟨"p.com", none, none, false, none⟩, none, some 5, false, false⟩

def portReader : Machine Service :=
  { Machine.withTraps .empty with
    mem := Memory.zero.writeBytes 0 [0xDB, 0x01, 0x00]
    loadedEnd := some 3 }

/-- The traced run says that both instructions are executed, and the plain run warns of the first
as the traced run does. -/
theorem runCommand_portFiles :
    portFiles.logVariable = none ∧
      (runCommand portFiles (plainRun.withTrace true)).logLines isExecution =
        ["TRACE execute address=0000 opcode=DB mnemonic=\"IN\"",
          "TRACE execute address=0002 opcode=00 mnemonic=\"NOP\""] ∧
      (runCommand portFiles (plainRun.withTrace false)).logLines isWarning =
        ["WARN unimplemented instruction address=0000 opcode=DB"] := by
  have unset : portFiles.logVariable = none := rfl
  obtain ⟨⟨-, -, -, same⟩, -, lines⟩ := runCommand_withTrace plainRun unset
  have prepared : prepare portFiles plainRun = .ok ⟨portReader, 5, .atLeast .warn,
      #[.notice (heading "p.com" 3 { RunConfig.default with maxSteps := some 5 })]⟩ := rfl
  obtain ⟨-, -, executions, warnings⟩ := lines _ prepared
  have length : portReader.runLength = (2 : ℕ) :=
    runLength_eq _ (by decide +kernel) (by decide +kernel)
  have two : portReader.stepsWithin 5 = 2 := by
    rw [stepsWithin, length]
    rfl
  have both : List.range 2 = [0, 1] := rfl
  dsimp only at executions warnings
  change _ = (List.range (portReader.stepsWithin 5)).map _ at executions
  change _ = (List.range (portReader.stepsWithin 5)).flatMap _ at warnings
  rw [two, both] at executions warnings
  have first : (portReader.after 0).warningLines =
      ["WARN unimplemented instruction address=0000 opcode=DB"] := by
    rw [warningLines, if_pos (by decide +kernel)]
    decide +kernel
  have second : (portReader.after 1).warningLines = [] := by
    have free : ¬ (portReader.after 1).PrintsUnended := by
      rintro ⟨answered, -⟩
      have unanswered : (portReader.after 1).answering? (portReader.after 1).nextOperation =
          none := by decide +kernel
      rw [answeredBy_iff, unanswered] at answered
      cases answered
    rw [warningLines, if_neg (by decide +kernel), if_neg free]
  refine ⟨unset, executions.trans (by decide +kernel), same.symm.trans (warnings.trans ?_)⟩
  rw [List.flatMap_cons, first, List.flatMap_cons, second]
  rfl

end CommandLine

end Intel8080
