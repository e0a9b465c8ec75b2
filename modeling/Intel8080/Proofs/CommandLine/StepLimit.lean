import Intel8080.Proofs.CommandLine.Report
import Intel8080.Proofs.Debugger.StartingOver
import Intel8080.Proofs.Debugger.StopTime

/-!
# What is said of the step limit

A run is told to have reached its limit if the machine is still running then and every step of the
limit was taken. That is so if the limit cut the run short, but also if the program counter left
the program with the very last step (`limitWarning_mem_iff`). The debugger tells the two apart: it
looks at the program counter first.
-/
namespace Intel8080

/-- A machine that is still running but whose program counter is outside of the program. -/
def Machine.HasLeft {η : Type} (m : Machine η) : Prop :=
  m.state = .running ∧ m.programEnd ≤ m.regs.pc.toUInt32

instance {η : Type} (m : Machine η) : Decidable m.HasLeft := inferInstanceAs (Decidable (_ ∧ _))

/-- Outside of its program a run does not go on. -/
theorem Machine.HasLeft.not_goesOn {η : Type} {m : Machine η} (left : m.HasLeft) :
    ¬ m.goesOn = true := fun go =>
  UInt32.not_lt.2 left.2 ((goesOn_iff m).1 go).2

namespace CommandLine
open Machine

/-! ## The warning among the lines -/

def limitWarning (limit : UInt64) : String :=
  "⚠️  Reached step limit (" ++ toString limit.toNat ++ "). Use --max-steps to increase."

theorem first_append {s : String} {c : Char} (t : String) (first : s.toList.head? = some c) :
    (s ++ t).toList.head? = some c := by
  rw [String.toList_append, List.head?_append, first]
  rfl

theorem last_append (s : String) {t : String} {c : Char} (last : t.toList.getLast? = some c) :
    (s ++ t).toList.getLast? = some c := by
  rw [String.toList_append, List.getLast?_append, last]
  rfl

/-- Its first character tells the warning from the other lines but one, and its last from that one.
-/
theorem limitWarning_first (limit : UInt64) : (limitWarning limit).toList.head? = some '⚠' :=
  first_append _ (first_append _ (by decide))

theorem limitWarning_last (limit : UInt64) : (limitWarning limit).toList.getLast? = some '.' :=
  last_append _ (by decide)

/-- A line that begins with another character than the warning. -/
theorem limitWarning_ne_of_first {limit : UInt64} {line : String}
    (other : line.toList.head? ≠ some '⚠') : limitWarning limit ≠ line := fun same =>
  other (same ▸ limitWarning_first limit)

/-- A line that ends with another character than the warning. -/
theorem limitWarning_ne_of_last {limit : UInt64} {line : String}
    (other : line.toList.getLast? ≠ some '.') : limitWarning limit ≠ line := fun same =>
  other (same ▸ limitWarning_last limit)

theorem limitWarning_ne_heading (limit : UInt64) (path : String) (size : Nat) (c : RunConfig) :
    limitWarning limit ≠ heading path size c := by
  apply limitWarning_ne_of_first
  unfold heading
  simp only [String.append_assoc]
  rw [first_append (c := '🔧') _ (by decide)]
  decide

/-- What the summary always says is not the warning. -/
theorem limitWarning_ne_result {limit : UInt64} (m : Machine Service) {line : String}
    (fixed : line ∈ ["", "━━━ Result ━━━", "Steps: " ++ toString m.steps.toNat,
      "State: " ++ m.state.name,
      "PC=" ++ wordHex m.regs.pc ++ " SP=" ++ wordHex m.regs.sp ++ " A=" ++ byteHex m.regs.a ++
        " BC=" ++ wordHex m.regs.bc ++ " DE=" ++ wordHex m.regs.de ++ " HL=" ++
        wordHex m.regs.hl ++ " F=" ++ byteHex m.regs.flags.toByte]) :
    limitWarning limit ≠ line := by
  apply limitWarning_ne_of_first
  simp only [String.append_assoc, List.mem_cons, List.not_mem_nil, or_false] at fixed
  obtain rfl | rfl | rfl | rfl | rfl := fixed
  · decide
  · decide
  · rw [first_append (c := 'S') _ (by decide)]; decide
  · rw [first_append (c := 'S') _ (by decide)]; decide
  · rw [first_append (c := 'P') _ (by decide)]; decide

/-- What the summary says of skipped instructions is not the warning. -/
theorem limitWarning_ne_skipped {limit : UInt64} (m : Machine Service) {line : String}
    (skipped : line ∈ ("⚠️  " ++ toString m.reportCount.toNat ++
        " unimplemented instruction(s) executed") ::
      (m.reports.toList.take 1).map fun report =>
        "   first: " ++ byteHex report.opcode ++ " at " ++ wordHex report.address) :
    limitWarning limit ≠ line := by
  obtain rfl | first := List.mem_cons.1 skipped
  · apply limitWarning_ne_of_last
    rw [last_append (c := 'd') _ (by decide)]
    decide
  · obtain ⟨report, -, rfl⟩ := List.mem_map.1 first
    apply limitWarning_ne_of_first
    simp only [String.append_assoc]
    rw [first_append (c := ' ') _ (by decide)]
    decide

/-- The summary holds the warning only where it warns. -/
theorem limitWarning_mem_summary_iff (limit : UInt64) (m : Machine Service) :
    limitWarning limit ∈ summary limit m ↔ warnsOfLimit limit m = true := by
  unfold summary
  dsimp only
  rw [List.mem_append, List.mem_append]
  constructor
  · rintro ((fixed | skipped) | warned)
    · exact absurd rfl (limitWarning_ne_result m fixed)
    · split at skipped
      · cases skipped
      · exact absurd rfl (limitWarning_ne_skipped m skipped)
    · split at warned
      · assumption
      · cases warned
  · intro warns
    rw [if_pos warns]
    exact .inr (List.mem_singleton.2 rfl)

/-- On standard error the warning stands only where the summary warns. -/
theorem limitWarning_mem_stderr_iff {env : Environment} {o : RunOptions} {p : Prepared}
    (prepared : prepare env o = .ok p) :
    .notice (limitWarning p.limit) ∈ (runCommand env o).stderr ↔
      warnsOfLimit p.limit (p.machine.advance p.limit.toNat) = true := by
  obtain ⟨config, image, built, -, said⟩ := built_of_prepared prepared
  obtain ⟨empty, zero⟩ := RunConfig.build_fresh built
  have unheaded := limitWarning_ne_heading p.limit o.load.image image.length config
  rw [← Outcome.mem_notices_iff, notices_runCommand prepared said empty zero, List.mem_cons,
    or_iff_right unheaded, limitWarning_mem_summary_iff]
  rfl

/-- From no steps on, the counter says how many steps were taken. -/
theorem advance_steps_of_zero (limit : UInt64) {m : Machine Service} (zero : m.steps = 0) :
    (m.advance limit.toNat).steps.toNat = m.stepsWithin limit.toNat := by
  rw [advance_steps_toNat m Service.keepsSteps (room_of_zero zero limit), zero]
  exact Nat.zero_add _

/-- The summary of a run that started with no steps counted warns if the run is at least as long as
the limit and the machine is still running there. -/
theorem warnsOfLimit_advance_iff (limit : UInt64) {m : Machine Service} (zero : m.steps = 0) :
    warnsOfLimit limit (m.advance limit.toNat) = true ↔
      (limit.toNat : ℕ∞) < m.runLength ∨
        m.runLength = limit.toNat ∧ (m.after limit.toNat).HasLeft := by
  have goes := goesOn_advance_iff m limit.toNat
  have warns : warnsOfLimit limit (m.advance limit.toNat) = true ↔
      (m.advance limit.toNat).state = .running ∧ (limit.toNat : ℕ∞) ≤ m.runLength := by
    rw [warnsOfLimit, Bool.and_eq_true, beq_iff_eq, decide_eq_true_iff, UInt64.le_iff_toNat_le,
      advance_steps_of_zero limit zero, le_stepsWithin_iff]
  rw [warns, le_iff_lt_or_eq]
  constructor
  · rintro ⟨running, longer | same⟩
    · exact .inl longer
    · rw [advance_of_le_runLength m same.le] at running goes
      refine .inr ⟨same.symm, running, ?_⟩
      by_contra inside
      have on : (m.after limit.toNat).goesOn = true :=
        (goesOn_iff _).2 ⟨running, UInt32.not_le.1 inside⟩
      exact absurd same (goes.1 on).ne
  · rintro (longer | ⟨same, left⟩)
    · exact ⟨((goesOn_iff _).1 (goes.2 longer)).1, .inl longer⟩
    · rw [advance_of_le_runLength m same.ge]
      exact ⟨left.1, .inr same.symm⟩

/-! ## The debugger -/

section Debugger

variable {config : RunConfig} {image : List UInt8} {m : Machine Service} {d : Debugger}

/-- A new debugger that runs for longer than the limit pauses where a run within the limit ends,
and shows the reason. -/
theorem play_past_limit (built : config.build image = .ok m)
    (new : Debugger.new config image = .ok d) {limit : UInt64}
    (limited : config.maxSteps = some limit) {count : ℕ} (past : limit.toNat < 500 * count) :
    let final := d.run.play (Debugger.ticks count)
    final.config = config ∧ final.machine.drained = (m.advance limit.toNat).drained ∧
      final.stopReason? = some final.status := by
  intro final
  rw [Debugger.new, built] at new
  cases new
  let start : Debugger := ⟨m, config, image, [], true, false, .running,
    config.loadAddress.toNat / Debugger.rowSize, "", []⟩
  have zero := (RunConfig.build_fresh built).2
  have stops : start.stopTime = min (limit.toNat : ℕ∞) m.runLength := by
    have capped : start.config.maxSteps = some limit := limited
    have fresh : start.machine.steps = 0 := zero
    have stops := Debugger.stopTime_of_unbroken start rfl
    rw [capped, fresh] at stops
    exact stops
  have soon : start.stopTime < (500 * count : ℕ) := by
    rw [stops]
    exact lt_of_le_of_lt (min_le_left _ _) (Nat.cast_lt.2 past)
  obtain ⟨count_eq, pauses⟩ := Debugger.batchCount_eq start rfl (500 * count)
  have batched : final = start.batch (500 * count) := (Debugger.play_ticks start count).1
  rw [batched]
  refine ⟨?_, ?_, Debugger.stopReason?_batch start rfl rfl _ (pauses soon)⟩
  · exact congrArg Prod.fst (Debugger.setup_batch start (500 * count))
  · have machine := (Debugger.ahead_batch start (500 * count)).machine
    rw [count_eq, min_eq_right soon.le, stops] at machine
    rw [advance_eq_after]
    exact machine

/-- The debugger blames the limit exactly if it cut the run short, and says that the program was
left exactly if a run that is not longer than the limit ends so. -/
theorem status_past_limit (built : config.build image = .ok m)
    (new : Debugger.new config image = .ok d) {limit : UInt64}
    (limited : config.maxSteps = some limit) {count : ℕ} (past : limit.toNat < 500 * count) :
    let status := (d.run.play (Debugger.ticks count)).status
    (status = .limitReached limit ↔ (limit.toNat : ℕ∞) < m.runLength) ∧
      ∀ pc, status = .leftProgram pc ↔ m.runLength ≤ limit.toNat ∧
        (m.after m.runLength.toNat).HasLeft ∧ (m.after m.runLength.toNat).regs.pc = pc := by
  intro status
  obtain ⟨configured, shows, reason⟩ := play_past_limit built new limited past
  have zero := (RunConfig.build_fresh built).2
  have goes : (d.run.play (Debugger.ticks count)).machine.goesOn =
      (m.advance limit.toNat).goesOn := (congrArg goesOn shows :)
  have steps : (d.run.play (Debugger.ticks count)).machine.steps =
      (m.advance limit.toNat).steps := (congrArg steps shows :)
  have left : (d.run.play (Debugger.ticks count)).machine.HasLeft ↔
      (m.advance limit.toNat).HasLeft := iff_of_eq (congrArg HasLeft shows :)
  have pcs : (d.run.play (Debugger.ticks count)).machine.regs.pc =
      (m.advance limit.toNat).regs.pc := congrArg (·.regs.pc) shows
  have shown (other : Debugger.Status) : status = other ↔
      (d.run.play (Debugger.ticks count)).stopReason? = some other := by
    rw [reason, Option.some.injEq]
  refine ⟨?_, fun pc => ?_⟩
  · rw [shown, Debugger.stopReason?_eq_limitReached_iff, configured, goes, steps,
      ← goesOn_advance_iff]
    refine and_iff_left_of_imp fun longer => ⟨limited, ?_⟩
    rw [UInt64.le_iff_toNat_le, advance_steps_of_zero limit zero,
      stepsWithin_of_goesOn m limit.toNat longer]
  · rw [shown, Debugger.stopReason?_eq_leftProgram_iff, ← and_assoc]
    change HasLeft _ ∧ _ ↔ _
    rw [left, pcs]
    constructor
    · rintro ⟨out, pc⟩
      have short : m.runLength ≤ limit.toNat :=
        not_lt.1 fun longer => out.not_goesOn ((goesOn_advance_iff m _).2 longer)
      rw [advance_of_runLength_le m short] at out pc
      exact ⟨short, out, pc⟩
    · rintro ⟨short, out⟩
      rw [advance_of_runLength_le m short]
      exact out

end Debugger

/-- A run within a limit is told to have reached it if it would go on, and also if it leaves the
program with the last step of the limit. In the debugger only the first counts as reaching the
limit, and the second as leaving the program. -/
theorem limitWarning_mem_iff {env : Environment} {o : RunOptions} {p : Prepared}
    (prepared : prepare env o = .ok p) :
    let m := p.machine
    let limit := p.limit.toNat
    (.notice (limitWarning p.limit) ∈ (runCommand env o).stderr ↔
      (limit : ℕ∞) < m.runLength ∨ m.runLength = limit ∧ (m.after limit).HasLeft) ∧
    ∃ config image d, config.build image = .ok m ∧ p.limit = stepLimit config ∧
      Debugger.new config image = .ok d ∧
      ∀ count : ℕ, config.maxSteps = some p.limit → limit < 500 * count →
        let status := (d.run.play (Debugger.ticks count)).status
        (status = .limitReached p.limit ↔ (limit : ℕ∞) < m.runLength) ∧
        ∀ pc, status = .leftProgram pc ↔ m.runLength ≤ limit ∧
          (m.after m.runLength.toNat).HasLeft ∧ (m.after m.runLength.toNat).regs.pc = pc := by
  intro m limit
  obtain ⟨config, image, built, limited, -⟩ := built_of_prepared prepared
  have zero := (RunConfig.build_fresh built).2
  have new : ∃ d, Debugger.new config image = .ok d := by
    rw [Debugger.new, built]
    exact ⟨_, rfl⟩
  obtain ⟨d, new⟩ := new
  refine ⟨?_, config, image, d, built, limited, new, fun count capped past => ?_⟩
  · exact (limitWarning_mem_stderr_iff prepared).trans (warnsOfLimit_advance_iff p.limit zero)
  · exact status_past_limit built new capped past

/-- Whatever file is read, it holds an image of no-operations. -/
def idleFiles (size : ℕ) : Environment := ⟨fun _ => .ok (List.replicate size 0), none⟩

def limitedTo (limit : UInt64) : RunOptions :=
  ⟨⟨"p.com", none, none, false, none⟩, none, some limit, false, false⟩

def limitedRun (limit : UInt64) : RunConfig := { RunConfig.default with maxSteps := some limit }

def idleStart (size : ℕ) : Machine Service :=
  { Machine.withTraps .empty with
    mem := Memory.zero.writeBytes 0 (List.replicate size 0)
    loadedEnd := some (UInt32.ofNat size) }

/-- Two no-operations are cut short by a limit of one step and not by one of three. -/
theorem limitWarning_idle_two :
    .notice (limitWarning 1) ∈ (runCommand (idleFiles 2) (limitedTo 1)).stderr ∧
      .notice (limitWarning 3) ∉ (runCommand (idleFiles 2) (limitedTo 3)).stderr := by
  have one : prepare (idleFiles 2) (limitedTo 1) = .ok ⟨idleStart 2, 1, .atLeast .warn,
      #[.notice (heading "p.com" 2 (limitedRun 1))]⟩ := rfl
  have three : prepare (idleFiles 2) (limitedTo 3) = .ok ⟨idleStart 2, 3, .atLeast .warn,
      #[.notice (heading "p.com" 2 (limitedRun 3))]⟩ := rfl
  have two : (idleStart 2).runLength = (2 : ℕ) :=
    runLength_eq _ (by decide +kernel) (by decide +kernel)
  have cut := (limitWarning_mem_iff one).1
  have whole := (limitWarning_mem_iff three).1
  dsimp only at cut whole
  rw [two] at cut whole
  refine ⟨cut.2 (.inl (Nat.cast_lt.2 (by decide))), fun warned => ?_⟩
  obtain longer | ⟨same, -⟩ := whole.1 warned
  · exact absurd (Nat.cast_lt.1 longer) (by decide)
  · exact absurd (Nat.cast_inj.1 same) (by decide)

/-- One no-operation is its whole program, and a limit of one step does not cut it short. The run is
told to have reached the limit, while the debugger says that the program was left. -/
theorem limitWarning_idle_one :
    (limitedRun 1).build [0x00] = .ok (idleStart 1) ∧ (idleStart 1).runLength = (1 : ℕ) ∧
      ¬ (.notice (limitWarning 1) ∈
          (respond (idleFiles 1) ["run", "p.com", "-m", "1"]).stderr ↔
        (1 : ℕ∞) < (idleStart 1).runLength) ∧
      ∃ d, Debugger.new (limitedRun 1) [0x00] = .ok d ∧
        (d.run.play (Debugger.ticks 1)).status = .leftProgram 0x0001 := by
  have prepared : prepare (idleFiles 1) (limitedTo 1) = .ok ⟨idleStart 1, 1, .atLeast .warn,
      #[.notice (heading "p.com" 1 (limitedRun 1))]⟩ := rfl
  have parsed : parse ["run", "p.com", "-m", "1"] = .ok (.run (limitedTo 1)) := by
    decide +kernel
  have response : respond (idleFiles 1) ["run", "p.com", "-m", "1"] =
      runCommand (idleFiles 1) (limitedTo 1) := by
    rw [respond, parsed]
    rfl
  have warns : warnsOfLimit 1 ((idleStart 1).advance 1) = true := by decide +kernel
  have warned := (limitWarning_mem_stderr_iff prepared).2 warns
  have built : (limitedRun 1).build [0x00] = .ok (idleStart 1) := rfl
  have past : (1 : UInt64).toNat < 500 * 1 := by decide
  have left := (status_past_limit built rfl rfl past).2 0x0001
  have out : ((idleStart 1).after 1).HasLeft ∧ ((idleStart 1).after 1).regs.pc = 0x0001 := by
    decide +kernel
  have one : (idleStart 1).runLength = (1 : ℕ) :=
    runLength_eq _ (by decide +kernel) (by decide +kernel)
  rw [one] at left ⊢
  rw [response]
  refine ⟨built, rfl, fun claimed => ?_, _, rfl, left.2 ⟨le_refl _, out⟩⟩
  exact absurd (Nat.cast_lt.1 (claimed.1 warned)) (by decide)

end CommandLine

end Intel8080
