import Intel8080.Proofs.Machine.Bookkeeping
import Intel8080.Proofs.Machine.RunState
import Intel8080.Proofs.Memory

/-!
# The account of port instructions

The machine skips the instructions that address a port and reports them. A ledger puts beside a
machine which instructions it has executed since it was created or reset, and which of them since
its reports were last taken. However a host steps and runs the machine, takes the reports, resets
it or changes what the reports are not about, the count is that of the port instructions executed,
and the list holds the first of those since it was last taken, as many as there is room for
(`ledger_account`).
-/
namespace Intel8080

/-- Whether an instruction reads or writes a port. -/
def Instruction.addressesPort (i : Instruction) : Bool := i.opcode == 0xDB || i.opcode == 0xD3

/-- One report for each instruction that addresses a port, in their order. -/
def portReports (executed : List Instruction) : List Report :=
  (executed.filter Instruction.addressesPort).map fun i => ⟨i.address, i.opcode⟩

namespace Machine

section Executed

variable {η : Type} [TrapHandler η]

/-- The instructions that a number of steps execute, in order. A refused step ends the list. -/
def executed (m : Machine η) : ℕ → List Instruction
  | 0 => []
  | n + 1 =>
    match m.step with
    | .ok (i, after) => i :: after.executed n
    | .error _ => []

/-- How many steps a request takes if it is answered. -/
noncomputable def Entry.stepCount (m : Machine η) : Entry → ℕ
  | .step => if m.isRunning then 1 else 0
  | .run => m.runLength.toNat
  | .runLimited limit =>
    m.stepsWithin ((m.steps + UInt64.ofNat limit).toNat - m.steps.toNat)

variable (m : Machine η)

theorem executed_succ (running : m.state = .running) (n : ℕ) :
    m.executed (n + 1) = m.nextInstruction :: m.next.executed n := by
  rw [executed, step_eq_next m running]

theorem executed_of_not_running (rest : m.state ≠ .running) (n : ℕ) : m.executed n = [] := by
  cases n with
  | zero => rfl
  | succ n => rw [executed, step_of_not_running m rest]

/-- A machine at rest stays as it is. -/
theorem after_of_not_running (rest : m.state ≠ .running) (n : ℕ) : m.after n = m := by
  induction n with
  | zero => rfl
  | succ n ih => rw [after_succ, next_of_not_running m rest, ih]

/-- The step counter counts the executed instructions. -/
theorem after_steps (keeps : KeepsSteps η) (n : ℕ) :
    (m.after n).steps = m.steps + UInt64.ofNat (m.executed n).length := by
  induction n generalizing m with
  | zero => exact (UInt64.add_zero _).symm
  | succ n ih =>
    by_cases running : m.state = .running
    · rw [after_succ, ih, next_steps keeps m running, executed_succ m running, List.length_cons,
        UInt64.ofNat_add, UInt64.add_assoc, UInt64.add_comm 1]
      rfl
    · rw [after_of_not_running m running, executed_of_not_running m running]
      exact (UInt64.add_zero _).symm

theorem next_eq_after_stepCount : m.next = m.after (Entry.stepCount m .step) := by
  by_cases running : m.state = .running
  · have go : m.isRunning = true := beq_iff_eq.2 running
    rw [Entry.stepCount, if_pos go]
    rfl
  · rw [next_of_not_running m running, after_of_not_running m running]

/-- A request that is answered leaves its machine as many steps further as it took. -/
theorem enter_eq_after_stepCount (keeps : KeepsSteps η) {e : Entry} {answer : Answer}
    {final : Machine η} (answered : m.enter e = some (answer, final)) :
    final = m.after (e.stepCount m) := by
  cases e with
  | step =>
    have done : (m.settle m.step).2 = final := congrArg Prod.snd (Option.some.inj answered)
    rw [← done, settle_step, next_eq_after_stepCount]
  | run =>
    have ended := final_of_settled answered
    have length := (ENat.natCast_toNat (runLength_ne_top ended)).symm
    rw [(stepWhile?_of_runLength _ m length).1] at ended
    cases ended
    rfl
  | runLimited limit =>
    have ended := final_of_settled answered
    rw [stepWhile?_limit keeps, advance_eq_after] at ended
    cases ended
    rfl

end Executed

section Reports

theorem portReports_append (executed more : List Instruction) :
    portReports (executed ++ more) = portReports executed ++ portReports more := by
  rw [portReports, List.filter_append, List.map_append, portReports, portReports]

theorem length_portReports (executed : List Instruction) :
    (portReports executed).length = executed.countP Instruction.addressesPort := by
  rw [portReports, List.length_map, List.countP_eq_length_filter]

/-- What does not fit into a list stays out when more is put behind it. -/
theorem take_append_take {α : Type} (n : ℕ) (l more : List α) :
    (l.take n ++ more).take n = (l ++ more).take n := by
  rw [List.take_append, List.take_append, List.take_take, Nat.min_self, List.length_take]
  congr 2
  omega

/-- Without a port instruction nothing is put behind a list that there is room for. -/
theorem toList_eq_take (kept : Array Report) (room : kept.size ≤ maxReports) :
    kept.toList = (kept.toList ++ portReports []).take maxReports := by
  change kept.toList = (kept.toList ++ []).take maxReports
  rw [List.append_nil, List.take_of_length_le room]

/-- A list that is not longer than the room keeps the first of what is put behind it. -/
theorem toList_keepReports (kept made : Array Report) (room : kept.size ≤ maxReports) :
    (keepReports kept made).toList = (kept.toList ++ made.toList).take maxReports := by
  rw [keepReports, ← Array.foldl_toList]
  generalize made.toList = reports
  induction reports generalizing kept with
  | nil =>
    rw [List.foldl_nil, List.append_nil, List.take_of_length_le room]
  | cons r reports ih =>
    rw [List.foldl_cons]
    by_cases space : kept.size < maxReports
    · rw [if_pos space, ih _ (by rw [Array.size_push]; exact space), Array.toList_push,
        List.append_assoc]
      rfl
    · have full : kept.toList.length = maxReports := Nat.le_antisymm room (Nat.not_lt.1 space)
      rw [if_neg space, ih _ room, List.take_append_of_le_length (by omega),
        List.take_append_of_le_length (by omega)]

end Reports

section Step

variable (m : Machine Service)

/-- Two opcodes address a port, and two operations are skipped for it. -/
theorem addressesPort_nextInstruction : m.nextInstruction.addressesPort = true ↔
    (m.nextOperation = .input ∨ m.nextOperation = .output) := by
  rw [Instruction.addressesPort, Bool.or_eq_true, beq_iff_eq, beq_iff_eq]
  exact (or_congr (Opcode.operation_eq_input _) (Opcode.operation_eq_output _)).symm

/-- An instruction that addresses a port is skipped and reported, and that is all. -/
theorem next_of_addressesPort (running : m.state = .running)
    (port : m.nextInstruction.addressesPort = true) :
    m.next =
      ((m.setPc (m.regs.pc + 2)).report m.regs.pc m.nextInstruction.opcode).book
        m.nextInstruction := by
  rw [next_of_running m running]
  rcases (addressesPort_nextInstruction m).1 port with op | op
  · have opcode : m.nextInstruction.opcode = 0xDB := (Opcode.operation_eq_input _).1 op
    rw [op, opcode, execute, skipPort_advancePc]
  · have opcode : m.nextInstruction.opcode = 0xD3 := (Opcode.operation_eq_output _).1 op
    rw [op, opcode, execute, skipPort_advancePc]

/-- A step reports its instruction if that addresses a port, and nothing otherwise. -/
theorem toList_reported (running : m.state = .running) :
    m.reported.toList = portReports [m.nextInstruction] := by
  by_cases port : m.nextInstruction.addressesPort = true
  · rw [reported, next_of_addressesPort m.takeReports.2 running port, portReports,
      List.filter_cons_of_pos port]
    rfl
  · rw [portReports, List.filter_cons_of_neg port, reported_eq_noteStep m running, noteStep]
    cases m.answering? m.nextOperation with
    | some s => rfl
    | none =>
      rw [addressesPort_nextInstruction] at port
      cases op : m.nextOperation with
      | input => exact absurd (.inl op) port
      | output => exact absurd (.inr op) port
      | _ => rfl

/-- Steps keep, behind what was kept, the first reports of what they execute, and count them all. -/
theorem after_reports (room : m.reports.size ≤ maxReports) (n : ℕ) :
    (m.after n).reports.toList =
        (m.reports.toList ++ portReports (m.executed n)).take maxReports ∧
      (m.after n).reportCount =
        m.reportCount + UInt64.ofNat ((m.executed n).countP Instruction.addressesPort) := by
  induction n generalizing m with
  | zero => exact ⟨toList_eq_take m.reports room, (UInt64.add_zero _).symm⟩
  | succ n ih =>
    by_cases running : m.state = .running
    · obtain ⟨kept, counted⟩ := next_reports m
      have first : m.next.reports.toList =
          (m.reports.toList ++ portReports [m.nextInstruction]).take maxReports := by
        rw [kept, toList_keepReports _ _ room, toList_reported m running]
      have roomNext : m.next.reports.size ≤ maxReports := by
        rw [← Array.length_toList, first]
        exact List.length_take_le _ _
      obtain ⟨keptAfter, countedAfter⟩ := ih m.next roomNext
      rw [after_succ, executed_succ m running, ← List.singleton_append]
      constructor
      · rw [keptAfter, first, take_append_take, portReports_append, List.append_assoc]
      · rw [countedAfter, counted, ← Array.length_toList, toList_reported m running,
          length_portReports, List.countP_append, UInt64.ofNat_add, UInt64.add_assoc]
    · rw [after_of_not_running m running, executed_of_not_running m running]
      exact ⟨toList_eq_take m.reports room, (UInt64.add_zero _).symm⟩

end Step

/-! ## The ledger -/

/-- What a host does to a machine without taking part in its reports, such as loading an image or
setting a register. -/
structure HostChange where
  apply : Machine Service → Machine Service
  reports : ∀ m, (apply m).reports = m.reports
  reportCount : ∀ m, (apply m).reportCount = m.reportCount

inductive HostAction where
  | enter (e : Entry)
  | takeReports
  | reset
  | change (c : HostChange)

/-- A machine with what it has executed. -/
structure Ledger where
  machine : Machine Service
  /-- The instructions executed since the machine was created or last reset. -/
  executed : List Instruction
  /-- Those of them executed since the reports were last taken. -/
  untaken : List Instruction

namespace Ledger

def opening (traps : TrapTable Service) : Ledger := ⟨withTraps traps, [], []⟩

/-- Enters what the host does. A run that does not end has no ledger after it. -/
noncomputable def act (l : Ledger) : HostAction → Option Ledger
  | .enter e =>
    let more := l.machine.executed (e.stepCount l.machine)
    (l.machine.enter e).map fun (_, final) => ⟨final, l.executed ++ more, l.untaken ++ more⟩
  | .takeReports => some { l with machine := l.machine.takeReports.2, untaken := [] }
  | .reset => some ⟨l.machine.reset, [], []⟩
  | .change c => some { l with machine := c.apply l.machine }

/-- A step of a running machine enters its instruction. -/
theorem act_step {m : Machine Service} (running : m.state = .running)
    (executed untaken : List Instruction) :
    act ⟨m, executed, untaken⟩ (.enter .step) =
      some ⟨m.next, executed ++ [m.nextInstruction], untaken ++ [m.nextInstruction]⟩ := by
  have go : m.isRunning = true := beq_iff_eq.2 running
  rw [act, enter, Entry.stepCount, if_pos go, executed_succ m running, step_eq_next m running]
  rfl

/-- What a step enters behind the reports taken is all that is untaken. -/
theorem foldlM_takeReports_step {m : Machine Service}
    (running : m.takeReports.2.state = .running) (executed untaken : List Instruction) :
    [.takeReports, .enter .step].foldlM act ⟨m, executed, untaken⟩ =
      some ⟨m.takeReports.2.next, executed ++ [m.takeReports.2.nextInstruction],
        [m.takeReports.2.nextInstruction]⟩ := by
  change (act ⟨m.takeReports.2, executed, []⟩ (.enter .step)).bind some = _
  rw [act_step running, List.nil_append]
  rfl

/-- The machine has counted and kept what the ledger says. -/
structure Balanced (l : Ledger) : Prop where
  counted :
    l.machine.reportCount = UInt64.ofNat (l.executed.countP Instruction.addressesPort)
  kept : l.machine.reports.toList = (portReports l.untaken).take maxReports

theorem Balanced.size_le {l : Ledger} (balanced : l.Balanced) :
    l.machine.reports.size ≤ maxReports := by
  rw [← Array.length_toList, balanced.kept]
  exact List.length_take_le _ _

theorem balanced_opening (traps : TrapTable Service) : (opening traps).Balanced := ⟨rfl, rfl⟩

/-- A request is as many steps as it takes, and these keep the balance. -/
theorem balanced_enter {l next : Ledger} (balanced : l.Balanced) {e : Entry}
    (entered : l.act (.enter e) = some next) : next.Balanced := by
  obtain ⟨⟨answer, final⟩, answered, rfl⟩ := Option.map_eq_some_iff.1 entered
  have further := enter_eq_after_stepCount _ Service.keepsSteps answered
  obtain ⟨kept, counted⟩ :=
    after_reports l.machine balanced.size_le (e.stepCount l.machine)
  rw [← further] at kept counted
  constructor
  · change final.reportCount = UInt64.ofNat ((l.executed ++ _).countP _)
    rw [counted, balanced.counted, List.countP_append, UInt64.ofNat_add]
  · change final.reports.toList = (portReports (l.untaken ++ _)).take maxReports
    rw [kept, balanced.kept, take_append_take, portReports_append]

/-- Everything a host does keeps the balance. -/
theorem balanced_act {l next : Ledger} (balanced : l.Balanced) {a : HostAction}
    (entered : l.act a = some next) : next.Balanced := by
  cases a with
  | enter e => exact balanced_enter balanced entered
  | takeReports =>
    cases entered
    exact ⟨balanced.counted, rfl⟩
  | reset =>
    cases entered
    exact balanced_opening l.machine.traps
  | change c =>
    cases entered
    constructor
    · exact (c.reportCount l.machine).trans balanced.counted
    · exact (congrArg Array.toList (c.reports l.machine)).trans balanced.kept

/-- So the balance is kept over everything a host does in a row. -/
theorem balanced_foldlM {l final : Ledger} (balanced : l.Balanced) {actions : List HostAction}
    (entered : actions.foldlM act l = some final) : final.Balanced := by
  induction actions generalizing l with
  | nil =>
    cases entered
    exact balanced
  | cons a actions ih =>
    rw [List.foldlM_cons] at entered
    obtain ⟨next, first, others⟩ := Option.bind_eq_some_iff.1 entered
    exact ih (balanced_act balanced first) others

end Ledger

/-- Whatever a host does to a machine with the services, and as long as it gets an answer, the count
of reports is the number of port instructions executed since the last reset, up to the 64 bits of
the counter, and the kept reports are the first of those executed since the reports were last taken,
in the order of execution and at most 64. What a request executes is the instructions at the program
counter in its steps, which the step counter counts too; only a run that does not end is never
answered. A step over a port instruction leaves memory alone and of the registers moves the program
counter alone, and no other step touches the reports. -/
theorem ledger_account (traps : TrapTable Service) (actions : List HostAction) (l : Ledger)
    (entered : actions.foldlM Ledger.act (Ledger.opening traps) = some l) :
    l.machine.reportCount.toNat =
      l.executed.countP Instruction.addressesPort % 2 ^ 64 ∧
    l.machine.reports.toList = (portReports l.untaken).take 64 ∧
    l.machine.reports.size ≤ 64 ∧
    (∀ (m : Machine Service) (e : Entry),
      (m.enter e = none ↔ e = .run ∧ m.runLength = ⊤) ∧
      ∀ answer final, m.enter e = some (answer, final) →
        final = m.after (e.stepCount m) ∧
        final.steps = m.steps + UInt64.ofNat (m.executed (e.stepCount m)).length) ∧
    ∀ m : Machine Service, m.state = .running →
      m.step = .ok (m.nextInstruction, m.next) ∧
      m.nextInstruction.address = m.regs.pc ∧
      m.nextInstruction.opcode = m.mem.read m.regs.pc ∧
      if m.nextInstruction.addressesPort then
        m.next.regs = { m.regs with pc := m.regs.pc + 2 } ∧ m.next.mem = m.mem
      else m.next.reports = m.reports ∧ m.next.reportCount = m.reportCount := by
  have balanced := Ledger.balanced_foldlM (Ledger.balanced_opening traps) entered
  refine ⟨?_, balanced.kept, balanced.size_le,
    fun m e => ⟨enter_eq_none_iff Service.keepsSteps m e, fun answer final answered => ?_⟩,
    fun m running => ?_⟩
  · rw [balanced.counted, UInt64.toNat_ofNat']
  · have further := enter_eq_after_stepCount m Service.keepsSteps answered
    refine ⟨further, ?_⟩
    rw [further, after_steps m Service.keepsSteps]
  · refine ⟨step_eq_next m running, rfl, rfl, ?_⟩
    by_cases port : m.nextInstruction.addressesPort = true
    · rw [if_pos port, next_of_addressesPort m running port]
      exact ⟨rfl, rfl⟩
    · have none : m.reported = #[] := by
        apply Array.toList_inj.1
        rw [toList_reported m running, portReports, List.filter_cons_of_neg port]
        rfl
      obtain ⟨kept, counted⟩ := next_reports m
      rw [if_neg port, kept, counted, none]
      exact ⟨rfl, UInt64.add_zero _⟩

/-- `OUT 10` at the top of memory with its operand at the bottom, and `IN 20` behind it. -/
def portsAtTop : HostChange where
  apply m := { m.setPc 0xFFFF with mem := m.mem.writeBytes 0xFFFF [0xD3, 0x10, 0xDB, 0x20] }
  reports _ := rfl
  reportCount _ := rfl

def atTopPorts : Machine Service := portsAtTop.apply (withTraps .empty)

theorem read_atTopPorts :
    atTopPorts.mem.read 0xFFFF = 0xD3 ∧ atTopPorts.mem.read 0x0000 = 0x10 ∧
      atTopPorts.mem.read 0x0001 = 0xDB ∧ atTopPorts.mem.read 0x0002 = 0x20 := by
  have holds : atTopPorts.mem.Holds 0xFFFF [0xD3, 0x10, 0xDB, 0x20] :=
    Memory.zero.holds_writeBytes 0xFFFF (by decide)
  exact ⟨holds 0 (by decide), holds 1 (by decide), holds 2 (by decide), holds 3 (by decide)⟩

theorem nextInstruction_atTopPorts : atTopPorts.nextInstruction = ⟨0xFFFF, 0xD3, .byte 0x10⟩ := by
  obtain ⟨opcode, operand, -⟩ := read_atTopPorts
  change Instruction.decode atTopPorts.mem 0xFFFF = _
  rw [Instruction.decode_eq, opcode]
  exact congrArg (fun b => Instruction.mk 0xFFFF 0xD3 (.byte b)) operand

theorem next_atTopPorts : atTopPorts.next =
    ((atTopPorts.setPc 0x0001).report 0xFFFF 0xD3).book ⟨0xFFFF, 0xD3, .byte 0x10⟩ := by
  rw [next_of_addressesPort atTopPorts rfl (by rw [nextInstruction_atTopPorts]; rfl),
    nextInstruction_atTopPorts]
  rfl

theorem nextInstruction_next_atTopPorts :
    atTopPorts.next.takeReports.2.nextInstruction = ⟨0x0001, 0xDB, .byte 0x20⟩ := by
  obtain ⟨-, -, opcode, operand⟩ := read_atTopPorts
  rw [next_atTopPorts]
  change Instruction.decode atTopPorts.mem 0x0001 = _
  rw [Instruction.decode_eq, opcode]
  exact congrArg (fun b => Instruction.mk 0x0001 0xDB (.byte b)) operand

/-- The ledger after the first port instruction. -/
theorem foldlM_portsAtTop (more : List HostAction) :
    (.change portsAtTop :: .enter .step :: more).foldlM Ledger.act (Ledger.opening .empty) =
      more.foldlM Ledger.act
        ⟨atTopPorts.next, [⟨0xFFFF, 0xD3, .byte 0x10⟩], [⟨0xFFFF, 0xD3, .byte 0x10⟩]⟩ := by
  have moved : (Ledger.opening .empty).act (.change portsAtTop) = some ⟨atTopPorts, [], []⟩ := rfl
  have stepped := Ledger.act_step (m := atTopPorts) rfl [] []
  rw [nextInstruction_atTopPorts] at stepped
  rw [List.foldlM_cons, moved, Option.bind_eq_bind, Option.bind_some, List.foldlM_cons, stepped]
  rfl

/-- The report of the first port is there until the host takes it, and then only that of the second.
Both are counted. -/
theorem ledger_portsAtTop :
    ∃ l later,
      [.change portsAtTop, .enter .step].foldlM Ledger.act (Ledger.opening .empty) = some l ∧
      [.takeReports, .enter .step].foldlM Ledger.act l = some later ∧
      l.machine.reportCount.toNat = 1 ∧ l.machine.reports.toList = [⟨0xFFFF, 0xD3⟩] ∧
      later.machine.reportCount.toNat = 2 ∧ later.machine.reports.toList = [⟨0x0001, 0xDB⟩] := by
  have running : atTopPorts.next.takeReports.2.state = .running := by
    rw [next_atTopPorts]
    rfl
  have taken := Ledger.foldlM_takeReports_step running [⟨0xFFFF, 0xD3, .byte 0x10⟩]
    [⟨0xFFFF, 0xD3, .byte 0x10⟩]
  rw [nextInstruction_next_atTopPorts] at taken
  have entered := foldlM_portsAtTop []
  have both := (foldlM_portsAtTop [.takeReports, .enter .step]).trans taken
  obtain ⟨first, kept, -⟩ := ledger_account .empty _ _ entered
  obtain ⟨second, keptLater, -⟩ := ledger_account .empty _ _ both
  exact ⟨_, _, entered, taken, first, kept, second, keptLater⟩

end Machine

end Intel8080
