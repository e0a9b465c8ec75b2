import Intel8080.CommandLine.Program
import Intel8080.Proofs.RunConfig.Reading

/-!
# What takes precedence

A run is configured by its options, then by what its file gives, then by defaults, of which the load
address of CP/M programs is one. Every part of the configuration follows this order but the load
address: a zero that the file gives is taken for none where CP/M is asked for
(`runConfig_precedence`).
-/
namespace Intel8080.CommandLine

open RunConfig

/-! ## The file -/

/-- What the file of a run gives: nothing if there is no file, and otherwise what the JSON value in
its text says. -/
inductive FileGives (files : String → FileContents) : Option String → Given → Prop where
  | noFile : FileGives files none .nothing
  | file {path text : String} {j : Json} {g : Given}
      (contents : files path = .ok text.toUTF8.data.toList) (value : Json.read text = some j)
      (said : Says j g) : FileGives files (some path) g

/-- A file holds a text if its bytes are those of the text. -/
theorem textOfFile_eq_ok_iff {contents : FileContents} {text : String} :
    textOfFile contents = .ok text ↔ contents = .ok text.toUTF8.data.toList := by
  constructor
  · intro held
    cases contents with
    | error cause => cases held
    | ok bytes =>
      rw [textOfFile] at held
      split at held
      · rename_i found
        cases held
        rw [String.fromUTF8?] at found
        split at found
        · cases found
          rfl
        · cases found
      · cases held
  · rintro rfl
    have valid : text.toUTF8.IsValidUTF8 := text.isValidUTF8
    have bytes : (⟨text.toUTF8.data.toList.toArray⟩ : ByteArray) = text.toUTF8 := by
      rw [Array.toArray_toList]
    rw [textOfFile, bytes, String.fromUTF8?, dif_pos valid]
    rfl

/-- A file is taken exactly if it holds text and the text a configuration. -/
theorem configOfFile_eq_ok_iff {path : String} {contents : FileContents} {c : RunConfig} :
    configOfFile path contents = .ok c ↔
      ∃ text, textOfFile contents = .ok text ∧ parse? text = some c := by
  rw [configOfFile]
  cases textOfFile contents with
  | error cause => simp
  | ok text =>
    simp only [Except.ok.injEq, exists_eq_left']
    cases parse? text with
    | none => simp
    | some other => simp

/-- The options are applied to what the file gives, with the defaults for the rest. -/
theorem baseConfig_eq_ok_iff {files : String → FileContents} {o : LoadOptions} {c : RunConfig} :
    baseConfig files o = .ok c ↔ ∃ g, FileGives files o.config g ∧ g.config = c := by
  rw [baseConfig]
  cases o.config with
  | none =>
    constructor
    · intro same
      cases same
      exact ⟨_, .noFile, rfl⟩
    · rintro ⟨_, ⟨⟩, rfl⟩
      rfl
  | some path =>
    dsimp only
    rw [configOfFile_eq_ok_iff]
    simp only [textOfFile_eq_ok_iff, parse?, Option.bind_eq_some_iff, ofJson?_eq_some_iff]
    constructor
    · rintro ⟨text, contents, j, value, g, said, made⟩
      exact ⟨g, .file contents value said, made⟩
    · rintro ⟨g, _ | ⟨contents, value, said⟩, made⟩
      exact ⟨_, contents, _, value, g, said, made⟩

/-! ## The run -/

def runConfig (env : Environment) (o : RunOptions) : Except ConfigError RunConfig :=
  (baseConfig env.files o.load).map o.applyTo

/-- A run has a configuration exactly if its file gives one, and then the options are applied to it.
-/
theorem runConfig_eq_ok_iff {env : Environment} {o : RunOptions} {c : RunConfig} :
    runConfig env o = .ok c ↔
      ∃ g, FileGives env.files o.load.config g ∧ o.applyTo g.config = c := by
  rw [runConfig]
  constructor
  · intro configured
    cases found : baseConfig env.files o.load with
    | error e =>
      rw [found] at configured
      cases configured
    | ok base =>
      rw [found] at configured
      cases configured
      obtain ⟨g, gives, rfl⟩ := baseConfig_eq_ok_iff.1 found
      exact ⟨g, gives, rfl⟩
  · rintro ⟨g, gives, rfl⟩
    rw [baseConfig_eq_ok_iff.2 ⟨g, gives, rfl⟩]
    rfl

/-- A run that is prepared has a configuration, from which its machine is built, its limit taken and
its heading made. -/
theorem runConfig_of_prepared {env : Environment} {o : RunOptions} {p : Prepared}
    (prepared : prepare env o = .ok p) :
    ∃ c image, runConfig env o = .ok c ∧ c.build image = .ok p.machine ∧ p.limit = stepLimit c ∧
      .notice (heading o.load.image image.length c) ∈ p.messages := by
  rw [prepare] at prepared
  split at prepared
  · cases prepared
  · rename_i base found
    dsimp only at prepared
    split at prepared
    · cases prepared
    · rename_i image _
      split at prepared
      · cases prepared
      · split at prepared
        · cases prepared
        · rename_i m built
          cases prepared
          refine ⟨o.applyTo base, image, ?_, built, rfl, ?_⟩
          · rw [runConfig, found]
            rfl
          · exact Array.mem_push_self

/-! ## The layers -/

/-- The configuration that the layers ask for: the options come first, then what the file gives, and
then the defaults. -/
def layered (o : RunOptions) (g : Given) : RunConfig where
  loadAddress := (o.load.base <|> g.loadAddress).getD (if o.load.cpm then cpmLoadAddress else 0)
  entryPoint := o.load.entry <|> g.entryPoint.join
  cpm := o.load.cpm || g.cpm.getD false
  stackPointer := o.stackPointer <|> g.stackPointer.join
  maxSteps := o.maxSteps <|> g.maxSteps.join

/-- The file gives zero as the load address, which no option overrides, and CP/M is asked for. -/
def LosesZero (o : RunOptions) (g : Given) : Prop :=
  o.load.base = none ∧ o.load.cpm = true ∧ g.loadAddress = some 0

/-- The options move a load address of zero if CP/M is asked for and no other is. -/
theorem loadAddress_applyTo (o : RunOptions) (c : RunConfig) :
    (o.applyTo c).loadAddress = o.load.base.getD
      (if o.load.cpm = true ∧ c.loadAddress = 0 then cpmLoadAddress else c.loadAddress) := by
  rw [RunOptions.applyTo, LoadOptions.applyTo]
  cases o.load.cpm with
  | false => simp
  | true => simp [withCpm]

/-- The slip: a zero that the file gives is taken for no address at all. -/
theorem loadAddress_of_losesZero {o : RunOptions} {g : Given} (loses : LosesZero o g) :
    (o.applyTo g.config).loadAddress = cpmLoadAddress ∧ (layered o g).loadAddress = 0 := by
  obtain ⟨unset, cpm, zero⟩ := loses
  rw [loadAddress_applyTo, layered, Given.config, unset, cpm, zero]
  exact ⟨rfl, rfl⟩

/-- A load address of zero that the file does not give is the default, which CP/M moves. -/
theorem loadAddress_of_not_losesZero {o : RunOptions} {g : Given} (keeps : ¬ LosesZero o g) :
    (o.applyTo g.config).loadAddress = (layered o g).loadAddress := by
  rw [LosesZero] at keeps
  rw [loadAddress_applyTo, layered, Given.config]
  cases based : o.load.base with
  | some base => rfl
  | none =>
    cases cpm : o.load.cpm with
    | false => simp
    | true =>
      cases given : g.loadAddress with
      | none => simp
      | some w =>
        -- A zero here is what the options lose.
        have nonzero : w ≠ 0 := by
          rintro rfl
          exact keeps ⟨based, cpm, given⟩
        simp [nonzero]

/-- Apart from the load address the options do what the layers ask for. -/
theorem applyTo_config (o : RunOptions) (g : Given) :
    o.applyTo g.config =
      { layered o g with loadAddress := (o.applyTo g.config).loadAddress } := by
  have join {α : Type} (x : Option (Option α)) : x.getD none = x.join := by
    cases x <;> rfl
  cases cpm : o.load.cpm <;>
    simp [RunOptions.applyTo, LoadOptions.applyTo, withCpm, layered, Given.config, cpm, join]

/-- The configuration of a run is the one that the layers ask for, whatever the file and the options
are, but for a load address of zero in the file: asking for CP/M moves it as if it were absent. A
file that gives no fields leaves no configuration. The configuration decides the machine that is
run, the limit and the heading. -/
theorem runConfig_precedence (env : Environment) (o : RunOptions) :
    (∀ g, FileGives env.files o.load.config g →
      (runConfig env o = .ok (layered o g) ↔ ¬ LosesZero o g) ∧
      (LosesZero o g →
        runConfig env o = .ok { layered o g with loadAddress := cpmLoadAddress }) ∧
      ∀ c, runConfig env o = .ok c →
        c.entry = (o.load.entry <|> g.entryPoint.join).getD c.loadAddress) ∧
    (∀ c, runConfig env o = .ok c → ∃ g, FileGives env.files o.load.config g) ∧
    ∀ p, prepare env o = .ok p →
      ∃ c image, runConfig env o = .ok c ∧ c.build image = .ok p.machine ∧
        p.limit = stepLimit c ∧ .notice (heading o.load.image image.length c) ∈ p.messages := by
  refine ⟨fun g gives => ?_, fun c configured => ?_, fun p => runConfig_of_prepared⟩
  · have configured : runConfig env o = .ok (o.applyTo g.config) :=
      runConfig_eq_ok_iff.2 ⟨g, gives, rfl⟩
    rw [configured]
    refine ⟨⟨fun same loses => ?_, fun keeps => ?_⟩, fun loses => ?_, fun c same => ?_⟩
    · obtain ⟨moved, zero⟩ := loadAddress_of_losesZero loses
      rw [Except.ok.inj same, zero] at moved
      cases moved
    · rw [applyTo_config, loadAddress_of_not_losesZero keeps]
    · rw [applyTo_config, (loadAddress_of_losesZero loses).1]
    · rw [← Except.ok.inj same, applyTo_config]
      rfl
  · obtain ⟨g, gives, -⟩ := runConfig_eq_ok_iff.1 configured
    exact ⟨g, gives⟩

/-- A configuration file with a text; every other file is the image of one instruction. -/
def configFiles (text : String) : Environment where
  files path := if path = "c.json" then .ok text.toUTF8.data.toList else .ok [0x76]
  logVariable := none

/-- A file that gives a load address and a null. -/
def fileWithNull : String := "\x7b\"entry_point\":null,\"load_address\":512\x7d"

def givenWithNull : Given :=
  { Given.nothing with loadAddress := some 0x0200, entryPoint := some none }

/-- A file that gives zero as the load address. -/
def fileWithZero : String := "\x7b\"load_address\":0\x7d"

def givenZero : Given := { Given.nothing with loadAddress := some 0x0000 }

def cpmOptions (entry : Option UInt16) : RunOptions :=
  ⟨⟨"p.com", none, entry, true, some "c.json"⟩, none, none, false, false⟩

/-- A file that holds fields in the compact notation gives them. -/
theorem fileGives_compact (members : List (String × Json)) {g : Given} {text : String}
    (plain : ∀ member ∈ members, member.2.IsPlain) (written : (Json.record members).compact = text)
    (each : List.Forall₂ (Json.Gives members) fieldNames g.values) :
    FileGives (configFiles text).files (some "c.json") g := by
  subst written
  exact .file rfl (Json.read_compact (Json.isPlain_record plain)) (.object each)

/-- A load address other than zero stays, and an option comes before a null. -/
theorem runConfig_nonzero_kept :
    runConfig (configFiles fileWithNull) (cpmOptions (some 0x0210)) =
      .ok ⟨0x0200, some 0x0210, true, none, none⟩ := by
  have gives : FileGives (configFiles fileWithNull).files (some "c.json") givenWithNull := by
    refine fileGives_compact [("entry_point", .null), ("load_address", .nat 512)] ?_
      (by decide +kernel) ?_
    · simp [Json.IsPlain.null, Json.IsPlain.nat]
    · refine .cons (.given (List.mem_of_getElem? (i := 1) rfl) (by decide)) ?_
      refine .cons (.given (List.mem_of_getElem? (i := 0) rfl) (by decide)) ?_
      refine .cons (.absent (by decide)) (.cons (.absent (by decide)) ?_)
      exact .cons (.absent (by decide)) .nil
  have keeps : ¬ LosesZero (cpmOptions (some 0x0210)) givenWithNull := by
    rintro ⟨-, -, ⟨⟩⟩
  exact ((runConfig_precedence _ (cpmOptions (some 0x0210))).1 _ gives).1.2 keeps

/-- A load address of zero is given, and no option asks for another, but the image goes to the
address that is the default of CP/M programs. -/
theorem runConfig_zero_lost :
    parse ["run", "p.com", "--cpm", "--config", "c.json"] = .ok (.run (cpmOptions none)) ∧
      FileGives (configFiles fileWithZero).files (some "c.json") givenZero ∧
      runConfig (configFiles fileWithZero) (cpmOptions none) =
        .ok ⟨0x0100, none, true, none, none⟩ ∧
      layered (cpmOptions none) givenZero = ⟨0x0000, none, true, none, none⟩ := by
  have gives : FileGives (configFiles fileWithZero).files (some "c.json") givenZero := by
    refine fileGives_compact [("load_address", .nat 0)] ?_ (by decide +kernel) ?_
    · simp [Json.IsPlain.nat]
    · refine .cons (.given List.mem_cons_self (by decide)) (.cons (.absent (by decide)) ?_)
      refine .cons (.absent (by decide)) (.cons (.absent (by decide)) ?_)
      exact .cons (.absent (by decide)) .nil
  refine ⟨by decide +kernel, gives, ?_, rfl⟩
  exact runConfig_eq_ok_iff.2 ⟨_, gives, rfl⟩

end Intel8080.CommandLine
