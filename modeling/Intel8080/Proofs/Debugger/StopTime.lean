import Intel8080.Proofs.Debugger.Undisturbed
import Intel8080.Proofs.Machine.RunLength

/-!
# Batches stop at the first reason

A running debugger executes its machine in batches of five hundred steps. Where it stops has
nothing to do with where the batches fall: it is the first step at which the machine has ended, the
limit is reached or, except at the start, a breakpoint is met (`play_ticks_eq_after`). Batches in a
row are one long batch (`batch_add`), and a long batch executes as many steps as its length and the
stop time allow (`batchCount_eq`). Without breakpoints the stop time is the length of a run of the
machine within the configured limit (`stopTime_of_unbroken`).
-/
namespace Intel8080.Debugger

/-- A machine that is not to be stepped: it is not running, its program counter is outside of the
program, or it has taken the configured number of steps. -/
def HasEnded (config : RunConfig) (m : Machine Service) : Prop :=
  m.state ≠ .running ∨ m.programEnd ≤ m.regs.pc.toUInt32 ∨
    ∃ limit ∈ config.maxSteps, limit ≤ m.steps

/-- The debugger stops at the machine some steps ahead. A breakpoint at the start does not count. -/
def StopsAt (d : Debugger) (i : ℕ) : Prop :=
  HasEnded d.config (d.machine.after i) ∨ 1 ≤ i ∧ (d.machine.after i).regs.pc ∈ d.breakpoints

instance (config : RunConfig) (m : Machine Service) : Decidable (HasEnded config m) :=
  inferInstanceAs (Decidable (_ ∨ _))

instance (d : Debugger) (i : ℕ) : Decidable (d.StopsAt i) :=
  inferInstanceAs (Decidable (_ ∨ _))

/-- How many steps a running debugger executes before it stops, infinity if it never does. -/
noncomputable def stopTime (d : Debugger) : ℕ∞ := firstTime d.StopsAt

/-- Batches with nothing done in between. -/
def ticks (count : ℕ) : List Move :=
  List.replicate count (.act .tick fun same => Action.noConfusion same)

section Reasons

variable (d : Debugger)

/-- A batch goes on exactly if its machine is to be stepped. -/
theorem stopReason?_eq_none_iff : d.stopReason? = none ↔ ¬ HasEnded d.config d.machine := by
  simp only [stopReason?, limitReached?, HasEnded, Machine.isRunning, Machine.pcInProgram]
  by_cases running : d.machine.state = .running
  · by_cases inside : d.machine.regs.pc.toUInt32 < d.machine.programEnd
    · simp [running, inside, UInt32.not_le.2 inside, Option.filter_eq_none_iff]
    · simp [running, inside, UInt32.not_lt.1 inside]
  · simp [running]

/-- A debugger ends where a run does, or at its limit. -/
theorem hasEnded_iff (config : RunConfig) (m : Machine Service) :
    HasEnded config m ↔ m.goesOn = false ∨ ∃ limit ∈ config.maxSteps, limit ≤ m.steps := by
  rw [← Bool.not_eq_true, Machine.goesOn_iff, not_and_or, UInt32.not_lt, or_assoc]
  rfl

theorem stopReason?_eq_limitReached_iff (limit : UInt64) :
    d.stopReason? = some (.limitReached limit) ↔
      d.machine.goesOn = true ∧ limit ∈ d.config.maxSteps ∧ limit ≤ d.machine.steps := by
  rw [stopReason?, Machine.goesOn]
  cases d.machine.isRunning with
  | false => simp
  | true =>
    cases d.machine.pcInProgram with
    | false => simp
    | true => simp [limitReached?, Option.filter_eq_some_iff]

theorem stopReason?_eq_leftProgram_iff (pc : UInt16) :
    d.stopReason? = some (.leftProgram pc) ↔
      d.machine.state = .running ∧ d.machine.programEnd ≤ d.machine.regs.pc.toUInt32 ∧
        d.machine.regs.pc = pc := by
  rw [stopReason?, Machine.isRunning, Machine.pcInProgram]
  by_cases running : d.machine.state = .running
  · by_cases inside : d.machine.regs.pc.toUInt32 < d.machine.programEnd
    · simp [running, inside, UInt32.not_le.2 inside]
    · simp [running, inside, UInt32.not_lt.1 inside]
  · simp [running]

end Reasons

section Course

variable (d : Debugger)

/-- The machine that a debugger steps to goes on as the machine itself does. -/
theorem step_machine (running : d.machine.state = .running) :
    d.step.machine = d.machine.next.drained := by
  rw [step_of_running d running]
  rfl

theorem step_kept (running : d.machine.state = .running) :
    d.step.config = d.config ∧ d.step.breakpoints = d.breakpoints ∧ d.step.running = d.running := by
  rw [step_of_running d running]
  exact ⟨rfl, rfl, rfl⟩

/-- Away from breakpoints, the stops seen from the next step are those seen from here. -/
theorem stopsAt_step (running : d.machine.state = .running)
    (unbroken : d.machine.next.regs.pc ∉ d.breakpoints) (i : ℕ) :
    d.step.StopsAt i ↔ d.StopsAt (i + 1) := by
  obtain ⟨config, breakpoints, -⟩ := step_kept d running
  have machine : (d.step.machine.after i).drained = (d.machine.after (i + 1)).drained := by
    rw [step_machine d running, ← Machine.drained_after]
    rfl
  -- Nothing in a stop depends on the console.
  have ended : HasEnded d.config (d.step.machine.after i) ↔
      HasEnded d.config (d.machine.after (i + 1)) := by
    change HasEnded d.config (d.step.machine.after i).drained ↔ _
    rw [machine]
    rfl
  have pc : (d.step.machine.after i).regs.pc = (d.machine.after (i + 1)).regs.pc :=
    congrArg (·.regs.pc) machine
  rw [StopsAt, StopsAt, config, breakpoints, ended, pc]
  cases i with
  | zero =>
    have first : (d.machine.after (0 + 1)).regs.pc ∉ d.breakpoints := unbroken
    simp [first]
  | succ i => simp

theorem stopTime_of_ended (ended : HasEnded d.config d.machine) : d.stopTime = 0 :=
  firstTime_of_zero (.inl ended)

theorem not_stopsAt_zero (on : ¬ HasEnded d.config d.machine) : ¬ d.StopsAt 0 := by
  rintro (ended | ⟨early, -⟩)
  · exact on ended
  · exact absurd early (by decide)

theorem running_of_not_ended (on : ¬ HasEnded d.config d.machine) : d.machine.state = .running := by
  by_contra rest
  exact on (.inl rest)

/-- A breakpoint behind the first step ends the run there. -/
theorem stopTime_of_broken (on : ¬ HasEnded d.config d.machine)
    (broken : d.machine.next.regs.pc ∈ d.breakpoints) : d.stopTime = 1 := by
  have now : d.StopsAt 1 := .inr ⟨Nat.le_refl 1, broken⟩
  refine firstTime_eq now fun i below => ?_
  obtain rfl : i = 0 := by omega
  exact not_stopsAt_zero d on

/-- Without one the stop is one step further than from the next step on. -/
theorem stopTime_of_step (on : ¬ HasEnded d.config d.machine)
    (unbroken : d.machine.next.regs.pc ∉ d.breakpoints) : d.stopTime = d.step.stopTime + 1 := by
  have same : d.step.StopsAt = fun i => d.StopsAt (i + 1) := by
    funext i
    exact propext (stopsAt_step d (running_of_not_ended d on) unbroken i)
  rw [stopTime, stopTime, same]
  exact firstTime_of_succ (not_stopsAt_zero d on)

end Course

section Batch

variable (d : Debugger)

/-- A paused debugger executes nothing. -/
theorem batch_of_paused (paused : d.running = false) (n : ℕ) : d.batch n = d := by
  cases n with
  | zero => rfl
  | succ n => simp [batch, paused]

theorem batchCount_of_paused (paused : d.running = false) (n : ℕ) : d.batchCount n = 0 := by
  cases n with
  | zero => rfl
  | succ n => simp [batchCount, paused]

/-- A batch that is cut in two executes the same. -/
theorem batch_add (first second : ℕ) :
    d.batch (first + second) = (d.batch first).batch second ∧
      d.batchCount (first + second) = d.batchCount first + (d.batch first).batchCount second := by
  induction first generalizing d with
  | zero => simp [batch, batchCount]
  | succ first ih =>
    rw [Nat.succ_add]
    simp only [batch, batchCount]
    by_cases running : d.running = true
    · rw [if_pos running, if_pos running, if_pos running, if_pos running]
      cases d.stopReason? with
      | some reason =>
        have paused : (d.pauseFor reason).running = false := rfl
        exact ⟨(batch_of_paused _ paused second).symm,
          (batchCount_of_paused _ paused second).symm ▸ rfl⟩
      | none =>
        obtain ⟨same, count⟩ := ih d.step.checkBreakpoint
        exact ⟨same, by simp only [count, Nat.add_assoc]⟩
    · rw [if_neg running, if_neg running, if_neg running, if_neg running]
      have paused : d.running = false := by simpa using running
      rw [batch_of_paused d paused, batchCount_of_paused d paused]
      exact ⟨rfl, rfl⟩

/-- Batches in a row are one long batch. -/
theorem play_ticks (count : ℕ) :
    d.play (ticks count) = d.batch (500 * count) ∧
      d.executed (ticks count) = d.batchCount (500 * count) := by
  induction count generalizing d with
  | zero => exact ⟨rfl, rfl⟩
  | succ count ih =>
    have whole : 500 * (count + 1) = stepsPerTick + 500 * count := by
      rw [stepsPerTick]
      omega
    obtain ⟨same, executes⟩ := ih d.tick
    obtain ⟨cut, counts⟩ := batch_add d stepsPerTick (500 * count)
    rw [whole, cut, counts]
    exact ⟨same, congrArg (d.batchCount stepsPerTick + ·) executes⟩

theorem checkBreakpoint_of_broken (running : d.running = true)
    (broken : d.machine.regs.pc ∈ d.breakpoints) : d.checkBreakpoint.running = false := by
  simp [checkBreakpoint, running, broken, pauseFor]

theorem checkBreakpoint_of_unbroken (unbroken : d.machine.regs.pc ∉ d.breakpoints) :
    d.checkBreakpoint = d := by
  simp [checkBreakpoint, unbroken]

/-- A running debugger executes as many steps of a batch as there are before it stops, and it has
paused if the batch was longer. -/
theorem batchCount_eq (running : d.running = true) (n : ℕ) :
    d.batchCount n = (min (n : ℕ∞) d.stopTime).toNat ∧
      (d.stopTime < n → (d.batch n).running = false) := by
  induction n generalizing d with
  | zero => simp [batchCount]
  | succ n ih =>
    rw [batch, batchCount, if_pos running, if_pos running]
    cases reason : d.stopReason? with
    | some reason =>
      have ended : HasEnded d.config d.machine := by
        by_contra on
        rw [(stopReason?_eq_none_iff d).2 on] at reason
        cases reason
      rw [stopTime_of_ended d ended]
      exact ⟨by simp, fun _ => rfl⟩
    | none =>
      have on := (stopReason?_eq_none_iff d).1 reason
      have executing := running_of_not_ended d on
      obtain ⟨-, breakpoints, still⟩ := step_kept d executing
      have stepPc : d.step.machine.regs.pc = d.machine.next.regs.pc := by
        rw [step_machine d executing]
        rfl
      simp only [stepCount_of_running d executing]
      by_cases broken : d.machine.next.regs.pc ∈ d.breakpoints
      · have paused : d.step.checkBreakpoint.running = false := by
          apply checkBreakpoint_of_broken
          · rw [still, running]
          · rw [stepPc, breakpoints]
            exact broken
        rw [batchCount_of_paused _ paused, batch_of_paused _ paused, stopTime_of_broken d on broken]
        exact ⟨by simp, fun _ => paused⟩
      · have unpaused : d.step.checkBreakpoint = d.step := by
          apply checkBreakpoint_of_unbroken
          rw [stepPc, breakpoints]
          exact broken
        obtain ⟨count, pauses⟩ := ih d.step (still.trans running)
        rw [unpaused, count, stopTime_of_step d on broken, toNat_min_succ, Nat.add_comm 1]
        refine ⟨rfl, fun early => pauses ?_⟩
        rw [Nat.cast_succ] at early
        exact lt_of_add_lt_add_right early

/-- Without breakpoints, a debugger that a batch paused shows the reason. -/
theorem stopReason?_batch (running : d.running = true) (unbroken : d.breakpoints = []) (n : ℕ)
    (paused : (d.batch n).running = false) :
    (d.batch n).stopReason? = some (d.batch n).status := by
  induction n generalizing d with
  | zero =>
    rw [batch, running] at paused
    cases paused
  | succ n ih =>
    rw [batch, if_pos running] at paused ⊢
    cases stops : d.stopReason? with
    | some reason =>
      have same : (d.pauseFor reason).stopReason? = d.stopReason? := rfl
      exact same.trans stops
    | none =>
      have executing := running_of_not_ended d ((stopReason?_eq_none_iff d).1 stops)
      obtain ⟨-, breakpoints, still⟩ := step_kept d executing
      have none_set : d.step.breakpoints = [] := breakpoints.trans unbroken
      have unpaused : d.step.checkBreakpoint = d.step := by
        apply checkBreakpoint_of_unbroken
        rw [none_set]
        exact List.not_mem_nil
      rw [stops] at paused
      dsimp only at paused ⊢
      rw [unpaused] at paused ⊢
      exact ih d.step (still.trans running) none_set paused

end Batch

section Unbroken

/-- A breakpoint at the start does not stop a debugger that can go on. -/
theorem stopTime_ne_zero (d : Debugger) (on : ¬ HasEnded d.config d.machine) : d.stopTime ≠ 0 := by
  by_cases broken : d.machine.next.regs.pc ∈ d.breakpoints
  · rw [stopTime_of_broken d on broken]
    exact one_ne_zero
  · rw [stopTime_of_step d on broken]
    simp

/-- Up to a limit, a machine ends with its run or with the steps that are left. -/
theorem firstTime_hasEnded {config : RunConfig} {limit : UInt64}
    (limited : config.maxSteps = some limit) (left : ℕ) (m : Machine Service)
    (apart : left = limit.toNat - m.steps.toNat) :
    firstTime (fun i => HasEnded config (m.after i)) = min (left : ℕ∞) m.runLength := by
  induction left generalizing m with
  | zero =>
    have reached : limit ≤ m.steps := by
      rw [UInt64.le_iff_toNat_le]
      omega
    have ended : HasEnded config (m.after 0) := .inr (.inr ⟨limit, limited, reached⟩)
    rw [firstTime_of_zero ended, Nat.cast_zero, min_eq_left zero_le]
  | succ left ih =>
    cases go : m.goesOn with
    | false =>
      have ended : HasEnded config (m.after 0) := (hasEnded_iff config m).2 (.inl go)
      rw [firstTime_of_zero ended, m.runLength_of_ended go, min_eq_right zero_le]
    | true =>
      have below : m.steps < limit := by
        rw [UInt64.lt_iff_toNat_lt]
        omega
      have on : ¬ HasEnded config (m.after 0) := by
        simp [hasEnded_iff, limited, go, below]
      have running : m.state = .running := ((Machine.goesOn_iff m).1 go).1
      have closer : left = limit.toNat - m.next.steps.toNat := by
        rw [Machine.next_steps_toNat Service.keepsSteps m running below]
        omega
      rw [firstTime_of_succ on, m.runLength_of_goesOn go, Nat.cast_succ, min_add_add_right,
        ← ih m.next closer]
      rfl

/-- Without breakpoints a debugger stops where a run within the configured limit does. -/
theorem stopTime_of_unbroken (d : Debugger) (unbroken : d.breakpoints = []) :
    d.stopTime = match d.config.maxSteps with
      | some limit =>
        min ((limit.toNat - d.machine.steps.toNat : ℕ) : ℕ∞) d.machine.runLength
      | none => d.machine.runLength := by
  have stops : d.StopsAt = fun i => HasEnded d.config (d.machine.after i) := by
    funext i
    simp [StopsAt, unbroken]
  rw [stopTime, stops]
  cases limited : d.config.maxSteps with
  | some limit => exact firstTime_hasEnded limited _ d.machine rfl
  | none =>
    simp only [hasEnded_iff, limited, Option.not_mem_none, false_and, exists_false, or_false]
    exact (Machine.runLength_eq_firstTime d.machine).symm

/-- Once the batches reach the stop time of a debugger without breakpoints, the machine stands where
a run within the configured limit ends. -/
theorem run_of_unbroken (d : Debugger) (unbroken : d.breakpoints = []) (finite : d.stopTime ≠ ⊤) :
    ∃ taken,
      (match d.config.maxSteps with
      | some limit => d.machine.runLimited (limit.toNat - d.machine.steps.toNat)
      | none => d.machine.run) = some (.ok (taken, d.machine.after d.stopTime.toNat)) := by
  have stops := stopTime_of_unbroken d unbroken
  cases limited : d.config.maxSteps with
  | some limit =>
    have room : d.machine.steps.toNat + (limit.toNat - d.machine.steps.toNat) < 2 ^ 64 := by
      have steps := d.machine.steps.toNat_lt
      have bound := limit.toNat_lt
      omega
    have run := Machine.runLimited_eq_advance Service.keepsSteps d.machine _ room
    rw [Machine.advance_eq_after, Machine.stepsWithin] at run
    rw [limited] at stops
    rw [stops]
    exact ⟨_, run⟩
  | none =>
    rw [limited] at stops
    have ends : d.machine.runLength = (d.stopTime.toNat : ℕ) :=
      stops.symm.trans (ENat.natCast_toNat finite).symm
    exact ⟨_, Machine.run_of_runLength d.machine ends⟩

end Unbroken

/-- A running debugger that is left to its batches executes the steps before its stop time and no
others, and once the batches are longer than that it has paused for good. No breakpoint is met on
the way but at the start, where a debugger that could go on always does. Without breakpoints it
ends at the machine that a run within the configured limit ends at. -/
theorem play_ticks_eq_after (d : Debugger) (running : d.running = true) :
    (∀ count : ℕ,
      let n := (min ((500 * count : ℕ) : ℕ∞) d.stopTime).toNat
      d.executed (ticks count) = n ∧
      (d.play (ticks count)).machine.drained = (d.machine.after n).drained ∧
      (d.stopTime < (500 * count : ℕ) → (d.play (ticks count)).running = false ∧
        ∀ more, (d.play (ticks count)).play (ticks more) = d.play (ticks count))) ∧
    (∀ count i : ℕ, 1 ≤ i → i < d.executed (ticks count) →
      (d.machine.after i).regs.pc ∉ d.breakpoints) ∧
    (¬ HasEnded d.config d.machine → ∀ count, 1 ≤ d.executed (ticks (count + 1))) ∧
    (d.breakpoints = [] → ∀ count : ℕ, d.stopTime ≤ (500 * count : ℕ) → ∃ taken final,
      (match d.config.maxSteps with
      | some limit => d.machine.runLimited (limit.toNat - d.machine.steps.toNat)
      | none => d.machine.run) = some (.ok (taken, final)) ∧
      (d.play (ticks count)).machine.drained = final.drained) := by
  have executes (count : ℕ) :
      d.executed (ticks count) = (min ((500 * count : ℕ) : ℕ∞) d.stopTime).toNat :=
    (play_ticks d count).2.trans (batchCount_eq d running _).1
  have shows (count : ℕ) : (d.play (ticks count)).machine.drained =
      (d.machine.after (min ((500 * count : ℕ) : ℕ∞) d.stopTime).toNat).drained := by
    rw [← executes]
    exact (ahead_play d (ticks count)).machine
  refine ⟨fun count => ⟨executes count, shows count, fun late => ?_⟩, fun count i one early => ?_,
    fun on count => ?_, fun unbroken count enough => ?_⟩
  · have paused : (d.play (ticks count)).running = false := by
      rw [(play_ticks d count).1]
      exact (batchCount_eq d running _).2 late
    refine ⟨paused, fun more => ?_⟩
    rw [(play_ticks _ more).1]
    exact batch_of_paused _ paused _
  · intro broken
    have before : (i : ℕ∞) < d.stopTime :=
      calc (i : ℕ∞)
          < (min ((500 * count : ℕ) : ℕ∞) d.stopTime).toNat := by
            rw [← executes]
            exact Nat.cast_lt.2 early
        _ ≤ min ((500 * count : ℕ) : ℕ∞) d.stopTime := ENat.natCast_toNat_le_self _
        _ ≤ d.stopTime := min_le_right _ _
    exact not_of_lt_firstTime before (.inr ⟨one, broken⟩)
  · rw [executes]
    apply ENat.toNat_pos
    · have some_tick : 0 < ((500 * (count + 1) : ℕ) : ℕ∞) := by
        rw [← Nat.cast_zero, Nat.cast_lt]
        omega
      exact (lt_min some_tick (pos_iff_ne_zero.2 (stopTime_ne_zero d on))).ne'
    · exact ne_top_of_le_ne_top (ENat.natCast_ne_top _) (min_le_left _ _)
  · have finite : d.stopTime ≠ ⊤ := ne_top_of_le_ne_top (ENat.natCast_ne_top _) enough
    obtain ⟨taken, run⟩ := run_of_unbroken d unbroken finite
    refine ⟨taken, _, run, ?_⟩
    rw [shows, min_eq_right enough]

/-- A debugger that runs from a breakpoint at the start to one at the call of the service. -/
def betweenBreakpoints : Debugger :=
  { watching printsString with running := true, breakpoints := [0x0000, 0x0005] }

def withoutBreakpoints : Debugger := { betweenBreakpoints with breakpoints := [] }

theorem stopTime_betweenBreakpoints : betweenBreakpoints.stopTime = (2 : ℕ) := by
  have now : betweenBreakpoints.StopsAt 2 := by decide +kernel
  have before : ∀ i < 2, ¬ betweenBreakpoints.StopsAt i := by decide +kernel
  exact firstTime_eq now before

theorem stopTime_withoutBreakpoints : withoutBreakpoints.stopTime = (4 : ℕ) := by
  have now : withoutBreakpoints.StopsAt 4 := by decide +kernel
  have before : ∀ i < 4, ¬ withoutBreakpoints.StopsAt i := by decide +kernel
  exact firstTime_eq now before

/-- The breakpoint at the start is left behind, and the second is not stepped over. Without them the
debugger ends where a run does. -/
theorem play_betweenBreakpoints :
    betweenBreakpoints.running = true ∧ betweenBreakpoints.executed (ticks 1) = 2 ∧
      (betweenBreakpoints.play (ticks 1)).running = false ∧
      (betweenBreakpoints.play (ticks 1)).machine.regs.pc = 0x0005 ∧
      (betweenBreakpoints.play (ticks 1)).play (ticks 3) = betweenBreakpoints.play (ticks 1) ∧
      ∃ taken final, withoutBreakpoints.machine.run = some (.ok (taken, final)) ∧
        (withoutBreakpoints.play (ticks 1)).machine.drained = final.drained := by
  have running : betweenBreakpoints.running = true := rfl
  obtain ⟨stops, -⟩ := play_ticks_eq_after betweenBreakpoints running
  obtain ⟨count, machine, pauses⟩ := stops 1
  have two : (min ((500 * 1 : ℕ) : ℕ∞) betweenBreakpoints.stopTime).toNat = 2 := by
    rw [stopTime_betweenBreakpoints]
    rfl
  have late : betweenBreakpoints.stopTime < (500 * 1 : ℕ) := by
    rw [stopTime_betweenBreakpoints]
    exact Nat.cast_lt.2 (by decide)
  obtain ⟨paused, rests⟩ := pauses late
  have pc : (betweenBreakpoints.machine.after 2).regs.pc = 0x0005 := by decide +kernel
  have enough : withoutBreakpoints.stopTime ≤ (500 * 1 : ℕ) := by
    rw [stopTime_withoutBreakpoints]
    exact Nat.cast_le.2 (by decide)
  obtain ⟨-, -, -, runs⟩ := play_ticks_eq_after withoutBreakpoints rfl
  rw [two] at count machine
  exact ⟨running, count, paused, (congrArg (·.regs.pc) machine).trans pc, rests 3,
    runs rfl 1 enough⟩

end Intel8080.Debugger
