import Intel8080.Proofs.Json.Fields
import Intel8080.Proofs.Json.RoundTrip
import Intel8080.RunConfig

/-!
# Which texts are configurations

A text gives some of the fields (`Given`), and the configuration that it holds has those at their
values and the others at their defaults. `Says` tells which values give which fields: objects by
name, arrays by position. Reading accepts these and no others (`ofJson?_eq_some_iff`). So every
configuration reads back from its text, whatever else stands in an object and in whatever order its
members are does not matter, and fields that occur twice or are too large are refused
(`parse?_fields`).
-/
namespace Intel8080.RunConfig

open Json

/-! ## What a text says -/

structure Given where
  loadAddress : Option UInt16
  /-- The outer option says whether the field is there, the inner one whether it is null. -/
  entryPoint : Option (Option UInt16)
  cpm : Option Bool
  stackPointer : Option (Option UInt16)
  maxSteps : Option (Option UInt64)

namespace Given

def nothing : Given := ⟨none, none, none, none, none⟩

/-- All fields of a configuration. -/
def all (c : RunConfig) : Given :=
  ⟨some c.loadAddress, some c.entryPoint, some c.cpm, some c.stackPointer, some c.maxSteps⟩

def config (g : Given) : RunConfig where
  loadAddress := g.loadAddress.getD 0
  entryPoint := g.entryPoint.getD none
  cpm := g.cpm.getD false
  stackPointer := g.stackPointer.getD none
  maxSteps := g.maxSteps.getD none

end Given

def wordValue (w : UInt16) : Json := .nat w.toNat

def countValue (n : UInt64) : Json := .nat n.toNat

/-- The values of the fields, in the order of their names. -/
def Given.values (g : Given) : List (Option Json) :=
  [g.loadAddress.map wordValue, g.entryPoint.map (.ofOption wordValue), g.cpm.map .bool,
    g.stackPointer.map (.ofOption wordValue), g.maxSteps.map (.ofOption countValue)]

/-- What a JSON value says of a configuration. An object gives each field by its name, and may have
other members; an array gives the first fields by their positions. -/
inductive Says : Json → Given → Prop where
  | object {members : List (String × Json)} {g : Given}
      (each : List.Forall₂ (Gives members) fieldNames g.values) : Says (.record members) g
  | array {items : List Json} {g : Given} (fits : items.length ≤ fieldNames.length)
      (each : g.values = (List.range fieldNames.length).map (items[·]?)) : Says (.array items) g

/-! ## Reading -/

section Reading

/-- A field is absent, or its value is written for what it reads as. -/
theorem field?_eq_some_iff {α : Type} {absent x : α} {read : Json → Option α} {write : α → Json}
    (exactly : ∀ j x, read j = some x ↔ j = write x) {value : Option Json} :
    field? absent read value = some x ↔
      ∃ o : Option α, value = o.map write ∧ o.getD absent = x := by
  cases value with
  | none =>
    rw [field?]
    constructor
    · intro same
      exact ⟨none, rfl, Option.some.inj same⟩
    · rintro ⟨_ | y, missing, rfl⟩
      · rfl
      · cases missing
  | some j =>
    rw [field?, exactly]
    constructor
    · rintro rfl
      exact ⟨some x, rfl, rfl⟩
    · rintro ⟨_ | y, there, rfl⟩
      · cases there
      · exact Option.some.inj there

theorem word?_eq_some_iff (j : Json) (w : UInt16) : j.asUInt16? = some w ↔ j = wordValue w :=
  asUInt16?_eq_some_iff

theorem optionalWord?_eq_some_iff (j : Json) (o : Option UInt16) :
    optional? asUInt16? j = some o ↔ j = ofOption wordValue o :=
  optional?_eq_some_iff word?_eq_some_iff (fun _ => nofun)

theorem optionalCount?_eq_some_iff (j : Json) (o : Option UInt64) :
    optional? asUInt64? j = some o ↔ j = ofOption countValue o :=
  optional?_eq_some_iff (fun _ _ => asUInt64?_eq_some_iff) (fun _ => nofun)

theorem flag?_eq_some_iff (j : Json) (b : Bool) : j.asBool? = some b ↔ j = .bool b :=
  asBool?_eq_some_iff

/-- The five fields make a configuration if each of them is absent or of its type. -/
theorem ofJson?_eq_some_iff_fields? {j : Json} {c : RunConfig} :
    ofJson? j = some c ↔ ∃ g : Given, j.fields? fieldNames = some g.values ∧ g.config = c := by
  constructor
  · intro read
    rw [ofJson?] at read
    split at read
    · rename_i loadAddress entryPoint cpm stackPointer maxSteps found
      simp only [Option.bind_eq_bind, Option.bind_eq_some_iff] at read
      obtain ⟨_, first, _, second, _, third, _, fourth, _, fifth, made⟩ := read
      obtain ⟨loadAddress, rfl, rfl⟩ := (field?_eq_some_iff word?_eq_some_iff).1 first
      obtain ⟨entryPoint, rfl, rfl⟩ := (field?_eq_some_iff optionalWord?_eq_some_iff).1 second
      obtain ⟨cpm, rfl, rfl⟩ := (field?_eq_some_iff flag?_eq_some_iff).1 third
      obtain ⟨stackPointer, rfl, rfl⟩ := (field?_eq_some_iff optionalWord?_eq_some_iff).1 fourth
      obtain ⟨maxSteps, rfl, rfl⟩ := (field?_eq_some_iff optionalCount?_eq_some_iff).1 fifth
      exact ⟨⟨loadAddress, entryPoint, cpm, stackPointer, maxSteps⟩, found, Option.some.inj made⟩
    · cases read
  · rintro ⟨g, found, rfl⟩
    rw [ofJson?, found]
    simp only [Given.values, (field?_eq_some_iff word?_eq_some_iff).2 ⟨_, rfl, rfl⟩,
      (field?_eq_some_iff optionalWord?_eq_some_iff).2 ⟨_, rfl, rfl⟩,
      (field?_eq_some_iff flag?_eq_some_iff).2 ⟨_, rfl, rfl⟩,
      (field?_eq_some_iff optionalCount?_eq_some_iff).2 ⟨_, rfl, rfl⟩]
    rfl

/-- What is read is what the value says, with the defaults for the rest. -/
theorem ofJson?_eq_some_iff {j : Json} {c : RunConfig} :
    ofJson? j = some c ↔ ∃ g, Says j g ∧ g.config = c := by
  rw [ofJson?_eq_some_iff_fields?]
  constructor
  · rintro ⟨g, found, made⟩
    obtain ⟨members, rfl⟩ | ⟨items, rfl⟩ := eq_record_or_array_of_fields? found
    · exact ⟨g, .object (fields?_record_eq_some_iff.1 found), made⟩
    · obtain ⟨fits, each⟩ := fields?_array_eq_some_iff.1 found
      exact ⟨g, .array fits each, made⟩
  · rintro ⟨g, said, made⟩
    refine ⟨g, ?_, made⟩
    cases said with
    | object each => exact fields?_record_eq_some_iff.2 each
    | array fits each => exact fields?_array_eq_some_iff.2 ⟨fits, each⟩

/-- A text of the grammar is a configuration if its value says one. -/
theorem parse?_eq_some_iff {text : String} {j : Json} (spaced : SpacedText text.toList j)
    {c : RunConfig} : parse? text = some c ↔ ∃ g, Says j g ∧ g.config = c := by
  rw [parse?, read_of_spacedText spaced, Option.bind_some, ofJson?_eq_some_iff]

end Reading

/-! ## Writing -/

/-- A configuration is written with all its fields. -/
theorem all_toJson (c : RunConfig) : Says c.toJson (.all c) := by
  have each : c.toJson.allFields? fieldNames = some (Given.all c).values :=
    allFields?_record rfl (by decide)
  rw [toJson, record, allFields?] at each
  · exact .object (fields?_record_eq_some_iff.1 each)
  · intro items object
    cases object

theorem isPlain_toJson (c : RunConfig) : c.toJson.IsPlain := by
  have word : ∀ o : Option UInt16, (ofOption (fun w => .nat w.toNat) o).IsPlain :=
    isPlain_ofOption fun w => .nat w.toNat
  have count : ∀ o : Option UInt64, (ofOption (fun n => .nat n.toNat) o).IsPlain :=
    isPlain_ofOption fun n => .nat n.toNat
  apply isPlain_record
  simp [IsPlain.nat, IsPlain.bool, word, count]

/-- What is written of a configuration is read back. -/
theorem parse?_render (c : RunConfig) : parse? c.render = some c :=
  (parse?_eq_some_iff (spacedText_compact (isPlain_toJson c))).2 ⟨_, all_toJson c, rfl⟩

/-! ## Objects -/

/-- The fields that hold a number, with the first number that is too large for each. -/
def bounds : List (String × Nat) :=
  [("load_address", UInt16.size), ("entry_point", UInt16.size), ("stack_pointer", UInt16.size),
    ("max_steps", UInt64.size)]

/-- A number that is no natural number below a bound: a larger one, or one that has a sign, a
fraction or an exponent. -/
inductive Exceeds (bound : Nat) : Json → Prop where
  | large {n : Nat} (large : bound ≤ n) : Exceeds bound (.nat n)
  | numeral (literal : String) : Exceeds bound (.numeral literal)

theorem not_exceeds_word (w : UInt16) : ¬ Exceeds UInt16.size (wordValue w) := by
  rintro ⟨large⟩
  exact Nat.not_lt.2 large w.toNat_lt_size

theorem not_exceeds_count (n : UInt64) : ¬ Exceeds UInt64.size (countValue n) := by
  rintro ⟨large⟩
  exact Nat.not_lt.2 large n.toNat_lt_size

section Exceeding

variable {α : Type} {bound : Nat} {write : α → Json} (fit : ∀ x, ¬ Exceeds bound (write x))
include fit

theorem not_exceeds_ofOption (o : Option α) : ¬ Exceeds bound (.ofOption write o) := by
  cases o with
  | none => exact nofun
  | some x => exact fit x

theorem not_exceeds_of_map {o : Option α} {value : Json} (written : o.map write = some value) :
    ¬ Exceeds bound value := by
  obtain ⟨x, -, rfl⟩ := Option.map_eq_some_iff.1 written
  exact fit x

end Exceeding

section Objects

variable {members : List (String × Json)} {g : Given}

theorem exists_gives {names : List String} {values : List (Option Json)}
    (each : List.Forall₂ (Gives members) names values) {name : String} (known : name ∈ names) :
    ∃ value, Gives members name value := by
  induction each with
  | nil => cases known
  | cons first rest ih =>
    rcases List.mem_cons.1 known with rfl | later
    · exact ⟨_, first⟩
    · exact ih later

/-- Whatever stands under the name of a number is below its bound. -/
theorem not_exceeds_of_gives (each : List.Forall₂ (Gives members) fieldNames g.values)
    {name : String} {bound : Nat} (listed : (name, bound) ∈ bounds) {value : Json}
    (member : (name, value) ∈ members) : ¬ Exceeds bound value := by
  simp only [fieldNames, Given.values, List.forall₂_cons, List.Forall₂.nil, and_true] at each
  obtain ⟨loadAddress, entryPoint, -, stackPointer, maxSteps⟩ := each
  have optionalWord := not_exceeds_ofOption not_exceeds_word
  have optionalCount := not_exceeds_ofOption not_exceeds_count
  simp only [bounds, List.mem_cons, Prod.mk.injEq, List.not_mem_nil, or_false] at listed
  obtain ⟨rfl, rfl⟩ | ⟨rfl, rfl⟩ | ⟨rfl, rfl⟩ | ⟨rfl, rfl⟩ := listed
  · exact not_exceeds_of_map not_exceeds_word (loadAddress.eq_of_mem member)
  · exact not_exceeds_of_map optionalWord (entryPoint.eq_of_mem member)
  · exact not_exceeds_of_map optionalWord (stackPointer.eq_of_mem member)
  · exact not_exceeds_of_map optionalCount (maxSteps.eq_of_mem member)

variable {text : String} (spaced : SpacedText text.toList (.record members))
include spaced

/-- The text of an object is a configuration if the object gives each field or nothing for it. -/
theorem parse?_record_eq_some_iff {c : RunConfig} :
    parse? text = some c ↔
      ∃ g : Given, List.Forall₂ (Gives members) fieldNames g.values ∧ g.config = c := by
  rw [parse?, read_of_spacedText spaced, Option.bind_some, ofJson?_eq_some_iff_fields?]
  simp only [fields?_record_eq_some_iff]

/-- The order of the members makes no difference. -/
theorem parse?_perm {other : String} {moved : List (String × Json)} (perm : moved.Perm members)
    (written : SpacedText other.toList (.record moved)) : parse? other = parse? text := by
  have same : Gives moved = Gives members := by
    funext name value
    exact propext (gives_perm_iff perm)
  apply Option.ext
  intro c
  rw [parse?_record_eq_some_iff written, parse?_record_eq_some_iff spaced, same]

/-- A field that is given twice is refused. -/
theorem parse?_of_repeated {name : String} (known : name ∈ fieldNames)
    (twice : 2 ≤ (members.map Prod.fst).count name) : parse? text = none := by
  rw [Option.eq_none_iff_forall_ne_some]
  intro c read
  obtain ⟨g, each, -⟩ := (parse?_record_eq_some_iff spaced).1 read
  obtain ⟨value, gives⟩ := exists_gives each known
  exact not_gives_of_count twice gives

/-- A number that is too large for its field is refused, wherever it stands. -/
theorem parse?_of_exceeds {name : String} {bound : Nat} (listed : (name, bound) ∈ bounds)
    {value : Json} (member : (name, value) ∈ members) (exceeds : Exceeds bound value) :
    parse? text = none := by
  rw [Option.eq_none_iff_forall_ne_some]
  intro c read
  obtain ⟨g, each, -⟩ := (parse?_record_eq_some_iff spaced).1 read
  exact not_exceeds_of_gives each listed member exceeds

end Objects

/-- Every configuration reads back from its text. The text of an object holds a configuration if
each field is absent or stands there once with a value of its type: those that are there have their
values and the others their defaults. Other members do not matter, nor does the order of all. A
field that occurs twice is refused, and so is a number that its field is too small for. -/
theorem parse?_fields :
    (∀ c : RunConfig, parse? c.render = some c) ∧
    ∀ (text : String) (members : List (String × Json)),
      SpacedText text.toList (.record members) →
        (∀ g : Given, List.Forall₂ (Gives members) fieldNames g.values →
          parse? text = some g.config) ∧
        (∀ (other : String) (moved : List (String × Json)), moved.Perm members →
          SpacedText other.toList (.record moved) → parse? other = parse? text) ∧
        (∀ name ∈ fieldNames, 2 ≤ (members.map Prod.fst).count name → parse? text = none) ∧
        ∀ name bound value, (name, bound) ∈ bounds → (name, value) ∈ members →
          Exceeds bound value → parse? text = none := by
  refine ⟨parse?_render, fun text members spaced => ⟨fun g each => ?_, ?_, ?_, ?_⟩⟩
  · exact (parse?_record_eq_some_iff spaced).2 ⟨g, each, rfl⟩
  · exact fun other moved perm written => parse?_perm spaced perm written
  · exact fun name known twice => parse?_of_repeated spaced known twice
  · exact fun name bound value listed member exceeds =>
      parse?_of_exceeds spaced listed member exceeds

/-- The largest limit, a null, a member that no field is read from, and the load address last. -/
def outOfOrder : List (String × Json) :=
  [("max_steps", .nat 18446744073709551615), ("stack_pointer", .null),
    ("note", .record [("load_address", .array [.text "\"", .array []])]),
    ("load_address", .nat 256)]

def largestLimit : String :=
  "\x7b\"max_steps\":18446744073709551615,\"stack_pointer\":null," ++
    "\"note\":\x7b\"load_address\":[\"\\\"\",[]]\x7d,\"load_address\":256\x7d"

theorem isPlain_outOfOrder : ∀ member ∈ outOfOrder, member.2.IsPlain := by
  have items : ∀ item ∈ [Json.text "\"", .array []], item.IsPlain := by
    simp [Json.text, IsPlain.string, IsPlain.array]
  have note : (Json.record [("load_address", .array [.text "\"", .array []])]).IsPlain := by
    apply isPlain_record
    simpa using IsPlain.array items
  simp [outOfOrder, note, IsPlain.nat, IsPlain.null]

theorem parse?_largestLimit :
    parse? largestLimit = some ⟨0x0100, none, false, none, some 0xFFFFFFFFFFFFFFFF⟩ ∧
      parse? (Json.record outOfOrder.reverse).compact = parse? largestLimit ∧
      parse? "\x7b\"cpm\":true,\"cpm\":true\x7d" = none ∧
      parse? "\x7b\"max_steps\":18446744073709551616\x7d" = none := by
  have spaced (members : List (String × Json)) (plain : ∀ member ∈ members, member.2.IsPlain) :=
    spacedText_compact (isPlain_record plain)
  have reversed : ∀ member ∈ outOfOrder.reverse, member.2.IsPlain := fun member belongs =>
    isPlain_outOfOrder member (List.mem_reverse.1 belongs)
  have written : (Json.record outOfOrder).compact = largestLimit := by decide +kernel
  have twice : (Json.record [("cpm", .bool true), ("cpm", .bool true)]).compact =
      "\x7b\"cpm\":true,\"cpm\":true\x7d" := by decide +kernel
  have large : (Json.record [("max_steps", .nat 18446744073709551616)]).compact =
      "\x7b\"max_steps\":18446744073709551616\x7d" := by decide +kernel
  obtain ⟨values, order, -⟩ := parse?_fields.2 _ _ (spaced _ isPlain_outOfOrder)
  obtain ⟨-, -, repeated, -⟩ := parse?_fields.2 _ _
    (spaced [("cpm", .bool true), ("cpm", .bool true)] (by simp [IsPlain.bool]))
  obtain ⟨-, -, -, exceeding⟩ := parse?_fields.2 _ _
    (spaced [("max_steps", .nat 18446744073709551616)] (by simp [IsPlain.nat]))
  rw [written] at values order
  rw [twice] at repeated
  rw [large] at exceeding
  refine ⟨?_, ?_, ?_, ?_⟩
  · refine values ⟨some 0x0100, none, none, some none, some (some 0xFFFFFFFFFFFFFFFF)⟩ ?_
    refine .cons (.given (List.mem_of_getElem? (i := 3) rfl) (by decide)) ?_
    refine .cons (.absent (by decide)) (.cons (.absent (by decide)) ?_)
    refine .cons (.given (List.mem_of_getElem? (i := 1) rfl) (by decide)) ?_
    exact .cons (.given (List.mem_of_getElem? (i := 0) rfl) (by decide)) .nil
  · exact order _ _ (List.reverse_perm outOfOrder) (spaced _ reversed)
  · exact repeated "cpm" (by decide) (by decide)
  · exact exceeding "max_steps" _ _ (List.mem_of_getElem? (i := 3) rfl) List.mem_cons_self
      (.large (by decide))

end Intel8080.RunConfig
