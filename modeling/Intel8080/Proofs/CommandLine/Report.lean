import Intel8080.CommandLine.Program
import Intel8080.Proofs.CommandLine.Slices

/-!
# What a run reports

The run command in closed form. It is prepared first: that fails or succeeds, and gives the same
machine and the same limit, whatever is logged (`prepare_withTrace`). Prepared, it prints what was
said before, then what one run within the limit hands over, then the summary of the machine in
which that run ends (`runCommand_of_prepared`); it does not break off. So its log is what the steps
of that run say (`logLines_runCommand`), and its notices are the heading and the summary
(`notices_runCommand`).
-/
namespace Intel8080.CommandLine
open Machine

/-! ## Preparation -/

def RunOptions.withTrace (o : RunOptions) (trace : Bool) : RunOptions := { o with trace := trace }

/-- What the log says about the image: that it was loaded, if it was. -/
def announced (filter : LogFilter) (path : String) : Option Nat → Array Message
  | none => #[]
  | some size => logging filter (.imageLoaded path size)

/-- Preparation fails or succeeds whatever is logged, and gives the same but for the log. -/
theorem prepare_withTrace (env : Environment) (o : RunOptions) :
    (∃ cause loaded, ∀ trace, prepare env (o.withTrace trace) =
      .error ((Outcome.failing cause).after #[]
        (announced ((o.withTrace trace).filter env) o.load.image loaded))) ∨
    ∃ config image start, config.build image = .ok start ∧
      ∀ trace, prepare env (o.withTrace trace) =
        .ok ⟨start, stepLimit config, (o.withTrace trace).filter env,
          (announced ((o.withTrace trace).filter env) o.load.image (some image.length)).push
            (.notice (heading o.load.image image.length config))⟩ := by
  have applied (trace : Bool) (c : RunConfig) : (o.withTrace trace).applyTo c = o.applyTo c := rfl
  have sameLoad (trace : Bool) : (o.withTrace trace).load = o.load := rfl
  simp only [prepare, applied, sameLoad]
  cases baseConfig env.files o.load with
  | error e => exact .inl ⟨e.message, none, fun trace => rfl⟩
  | ok base =>
    cases imageOfFile o.load.image (env.files o.load.image) with
    | error e => exact .inl ⟨"Failed to load image: " ++ e.message, none, fun trace => rfl⟩
    | ok image =>
      dsimp only
      cases image.isEmpty with
      | true => exact .inl ⟨"Image is empty", some image.length, fun trace => rfl⟩
      | false =>
        cases built : (o.applyTo base).build image with
        | error e =>
          exact .inl ⟨"Failed to load program: " ++ e.message, some image.length, fun trace => rfl⟩
        | ok start => exact .inr ⟨o.applyTo base, image, start, built, fun trace => rfl⟩

/-! ## The lines of standard error -/

def Message.event? : Message → Option Event
  | .logged event => some event
  | .notice _ => none

def Message.notice? : Message → Option String
  | .logged _ => none
  | .notice text => some text

def Outcome.logLines (o : Outcome) (kind : Event → Bool) : List String :=
  ((o.stderr.toList.filterMap Message.event?).filter kind).map Event.line

/-- The lines on standard error that are not of the log. -/
def Outcome.notices (o : Outcome) : List String := o.stderr.toList.filterMap Message.notice?

section Messages

theorem events_of_logged (events : List Event) :
    (events.map Message.logged).filterMap Message.event? = events := by
  rw [List.filterMap_map]
  exact List.filterMap_some

theorem events_of_notices (texts : List String) :
    (texts.map Message.notice).filterMap Message.event? = [] := by
  rw [List.filterMap_map]
  exact List.filterMap_none texts

theorem notices_of_logged (events : List Event) :
    (events.map Message.logged).filterMap Message.notice? = [] := by
  rw [List.filterMap_map]
  exact List.filterMap_none events

theorem notices_of_notices (texts : List String) :
    (texts.map Message.notice).filterMap Message.notice? = texts := by
  rw [List.filterMap_map]
  exact List.filterMap_some

/-- Events of a kind that has nothing to do with loading are not about the image. -/
theorem events_announced (filter : LogFilter) (path : String) (loaded : Option Nat)
    {kind : Event → Bool} (unloaded : ∀ path size, kind (.imageLoaded path size) = false) :
    ((announced filter path loaded).toList.filterMap Message.event?).filter kind = [] := by
  cases loaded with
  | none => rfl
  | some size =>
    rw [announced, logging]
    cases filter.allows (.imageLoaded path size) with
    | false => rfl
    | true => exact List.filter_cons_of_neg (by simp [unloaded])

theorem notices_announced (filter : LogFilter) (path : String) (loaded : Option Nat) :
    (announced filter path loaded).toList.filterMap Message.notice? = [] := by
  cases loaded with
  | none => rfl
  | some size =>
    rw [announced, logging]
    cases filter.allows (.imageLoaded path size) <;> rfl

/-- Notices and log lines share one stream, and this tells the notices from it. -/
theorem Outcome.mem_notices_iff (o : Outcome) (text : String) :
    text ∈ o.notices ↔ .notice text ∈ o.stderr := by
  rw [notices, List.mem_filterMap, ← Array.mem_toList_iff]
  constructor
  · rintro ⟨message, present, shown⟩
    cases message with
    | logged event => cases shown
    | notice other =>
      cases shown
      exact present
  · exact fun present => ⟨_, present, rfl⟩

end Messages

/-! ## The outcome -/

/-- A prepared machine is built from a configuration that gives the limit and the heading. -/
theorem built_of_prepared {env : Environment} {o : RunOptions} {p : Prepared}
    (prepared : prepare env o = .ok p) :
    ∃ config image, config.build image = .ok p.machine ∧ p.limit = stepLimit config ∧
      p.messages = (announced p.filter o.load.image (some image.length)).push
        (.notice (heading o.load.image image.length config)) := by
  obtain ⟨cause, loaded, failed⟩ | ⟨config, image, start, built, ready⟩ := prepare_withTrace env o
  · have failed : prepare env o = _ := failed o.trace
    rw [failed] at prepared
    cases prepared
  · have ready : prepare env o = _ := ready o.trace
    rw [ready] at prepared
    cases prepared
    exact ⟨config, image, built, rfl, rfl⟩

/-- A run that cannot be prepared ends with what went wrong. -/
theorem runCommand_of_failed {env : Environment} {o : RunOptions} {outcome : Outcome}
    (failed : prepare env o = .error outcome) : runCommand env o = outcome := by
  unfold runCommand
  rw [failed]

section Failed

variable (cause : String) (filter : LogFilter) (path : String) (loaded : Option Nat)

/-- A failed preparation logs that the image was loaded, if it was, and nothing of the kind asked
for. -/
theorem logLines_failing {kind : Event → Bool}
    (unloaded : ∀ path size, kind (.imageLoaded path size) = false) :
    ((Outcome.failing cause).after #[] (announced filter path loaded)).logLines kind = [] := by
  have before := events_announced filter path loaded unloaded
  rw [Outcome.logLines, Outcome.after, Array.toList_append, List.filterMap_append,
    List.filter_append, before]
  rfl

/-- Its only notice is the cause. -/
theorem notices_failing :
    ((Outcome.failing cause).after #[] (announced filter path loaded)).notices =
      ["❌ " ++ cause] := by
  rw [Outcome.notices, Outcome.after, Array.toList_append, List.filterMap_append,
    notices_announced]
  rfl

end Failed

section Prepared

variable {env : Environment} {o : RunOptions} {p : Prepared} {path title : String}
  {loaded : Option Nat} (prepared : prepare env o = .ok p)
  (said : p.messages = (announced p.filter path loaded).push (.notice title))
  (empty : p.machine.console = #[]) (zero : p.machine.steps = 0)

include prepared empty zero

/-- What a run prints once it is prepared: what was said before, what the session hands over, and
the summary of the machine that it ends with. -/
theorem runCommand_of_prepared :
    let output := runOutput p.filter p.machine p.limit.toNat
    let final := (p.machine.advance p.limit.toNat).drained
    runCommand env o = (finishRun p.limit o.dumpState final).after output.console
      (p.messages ++ output.events.map .logged) := by
  intro output final
  have session := runSession_eq_runOutput p.filter p.limit empty zero
  rw [runCommand, prepared]
  dsimp only
  rw [session]

include said

/-- The log of a prepared run, but for the loading of the image, is what its steps say. -/
theorem logLines_runCommand {kind : Event → Bool}
    (unloaded : ∀ path size, kind (.imageLoaded path size) = false) :
    (runCommand env o).logLines kind =
      (((p.machine.eventsWithin p.limit.toNat).filter p.filter.allows).filter kind).map
        Event.line := by
  have whole := runCommand_of_prepared prepared empty zero
  dsimp only at whole
  have before := events_announced p.filter path loaded unloaded
  have headed : [Message.notice title].filterMap Message.event? = [] := rfl
  rw [Outcome.logLines, whole, Outcome.after, finishRun, runOutput, said]
  simp only [Array.toList_append, Array.toList_push, Array.toList_map, List.filterMap_append,
    events_of_logged, events_of_notices, List.filter_append, before, headed, List.nil_append,
    List.append_nil]

/-- The notices of a prepared run are its heading and the summary of the machine that it ends
with. -/
theorem notices_runCommand :
    (runCommand env o).notices =
      title :: summary p.limit (p.machine.advance p.limit.toNat).drained := by
  have whole := runCommand_of_prepared prepared empty zero
  dsimp only at whole
  have before := notices_announced p.filter path loaded
  have headed : [Message.notice title].filterMap Message.notice? = [title] := rfl
  rw [Outcome.notices, whole, Outcome.after, finishRun, runOutput, said]
  simp only [Array.toList_append, Array.toList_push, Array.toList_map, List.filterMap_append,
    notices_of_logged, notices_of_notices, before, headed, List.nil_append, List.append_nil]
  rfl

end Prepared

end Intel8080.CommandLine
