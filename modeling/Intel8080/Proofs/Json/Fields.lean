import Intel8080.Json.Value
import Mathlib.Data.List.Forall2
import Mathlib.Data.List.Nodup

/-!
# Fields of objects and arrays

What an object gives under a name is said by its members alone, not by their order: nothing if no
member has the name, and a value if exactly one has it (`Gives`). Asking an object for its fields
succeeds exactly if it gives something or nothing for each name (`fields?_record_eq_some_iff`), and
asking an array exactly if it is not too long (`fields?_array_eq_some_iff`).

Typed values are read exactly: what reads as a value is what is written for it.
-/
namespace Intel8080.Json

/-! ## Fields by name -/

/-- What an object gives under a name: nothing if no member has that name, and a value if one
member has it and no other. -/
inductive Gives (members : List (String × Json)) (name : String) : Option Json → Prop where
  | absent (missing : name ∉ members.map Prod.fst) : Gives members name none
  | given {value : Json} (member : (name, value) ∈ members)
      (once : (members.map Prod.fst).count name = 1) : Gives members name (some value)

section Members

variable {members moved : List (String × Json)} {name : String} {value : Option Json}

theorem filter_named :
    (members.map fun m => (some m.1, m.2)).filter (fun m => m.1 == some name) =
      (members.filter fun m => m.1 == name).map fun m => (some m.1, m.2) := by
  rw [List.filter_map]
  rfl

theorem count_name_eq_length :
    (members.map Prod.fst).count name = (members.filter fun m => m.1 == name).length := by
  rw [List.count_eq_countP, List.countP_map, List.countP_eq_length_filter]
  rfl

/-- The only member with a name is found among all. -/
theorem filter_eq_singleton_iff {j : Json} :
    members.filter (fun m => m.1 == name) = [(name, j)] ↔
      (name, j) ∈ members ∧ (members.map Prod.fst).count name = 1 := by
  rw [count_name_eq_length]
  constructor
  · intro only
    have found : (name, j) ∈ members.filter fun m => m.1 == name := by
      rw [only]
      exact List.mem_singleton_self _
    rw [only]
    exact ⟨(List.mem_filter.1 found).1, rfl⟩
  · rintro ⟨member, once⟩
    obtain ⟨found, only⟩ := List.length_eq_one_iff.1 once
    have among : (name, j) ∈ members.filter fun m => m.1 == name :=
      List.mem_filter.2 ⟨member, beq_self_eq_true name⟩
    rw [only, List.mem_singleton] at among
    rw [only, among]

/-- The members give what is found under a name. -/
theorem member?_eq_some_iff :
    member? (members.map fun m => (some m.1, m.2)) name = some value ↔
      Gives members name value := by
  rw [member?, filter_named]
  constructor
  · intro found
    split at found
    · rename_i none_found
      cases found
      refine .absent fun listed => ?_
      have positive := List.count_pos_iff.2 listed
      rw [count_name_eq_length, List.map_eq_nil_iff.1 none_found] at positive
      exact Nat.lt_irrefl 0 positive
    · rename_i single
      obtain ⟨⟨other, j⟩, only, rfl⟩ := List.map_eq_singleton_iff.1 single
      cases found
      have same : other = name := by
        have inside : (other, j) ∈ members.filter fun m => m.1 == name := by
          rw [only]
          exact List.mem_singleton_self _
        exact eq_of_beq (List.mem_filter.1 inside).2
      subst same
      obtain ⟨member, once⟩ := filter_eq_singleton_iff.1 only
      exact .given member once
    · cases found
  · intro gives
    cases gives with
    | absent missing =>
      rw [← List.count_eq_zero, count_name_eq_length, List.length_eq_zero_iff] at missing
      rw [missing]
      rfl
    | given member once =>
      rw [filter_eq_singleton_iff.2 ⟨member, once⟩]
      rfl

/-- The order of the members does not matter. -/
theorem gives_perm_iff (perm : moved.Perm members) :
    Gives moved name value ↔ Gives members name value := by
  have names := perm.map Prod.fst
  constructor
  · rintro (missing | ⟨member, once⟩)
    · exact .absent fun listed => missing (names.mem_iff.2 listed)
    · exact .given (perm.mem_iff.1 member) (names.count_eq name ▸ once)
  · rintro (missing | ⟨member, once⟩)
    · exact .absent fun listed => missing (names.mem_iff.1 listed)
    · exact .given (perm.mem_iff.2 member) ((names.count_eq name).trans once)

/-- Whatever stands under a name is what the object gives for it. -/
theorem Gives.eq_of_mem (gives : Gives members name value) {j : Json}
    (member : (name, j) ∈ members) : value = some j := by
  cases gives with
  | absent missing => exact absurd (List.mem_map_of_mem member) missing
  | given here once =>
    have only := filter_eq_singleton_iff.2 ⟨here, once⟩
    have there := filter_eq_singleton_iff.2 ⟨member, once⟩
    cases only.symm.trans there
    rfl

/-- A name that stands twice is given nothing. -/
theorem not_gives_of_count (twice : 2 ≤ (members.map Prod.fst).count name) :
    ¬ Gives members name value := by
  rintro (missing | ⟨-, once⟩)
  · rw [List.count_eq_zero_of_not_mem missing] at twice
    exact absurd twice (by decide)
  · rw [once] at twice
    exact absurd twice (by decide)

/-- Where no name stands twice, each member is given under its name. -/
theorem gives_of_nodup (distinct : (members.map Prod.fst).Nodup) {member : String × Json}
    (belongs : member ∈ members) : Gives members member.1 (some member.2) :=
  .given belongs (List.count_eq_one_of_mem distinct (List.mem_map_of_mem belongs))

/-- Fields that are looked up one by one are given one by one. -/
theorem mapM_member?_eq_some_iff {names : List String} {values : List (Option Json)} :
    names.mapM (member? (members.map fun m => (some m.1, m.2))) = some values ↔
      List.Forall₂ (Gives members) names values := by
  induction names generalizing values with
  | nil => simp [eq_comm]
  | cons name names ih =>
    rw [List.mapM_cons]
    simp only [Option.bind_eq_bind, Option.bind_eq_some_iff, member?_eq_some_iff, ih]
    constructor
    · rintro ⟨value, first, others, rest, whole⟩
      cases whole
      exact .cons first rest
    · rintro (_ | ⟨first, rest⟩)
      exact ⟨_, first, _, rest, rfl⟩

end Members

/-! ## Fields in the order of their names -/

section Fields

variable {names : List String} {values : List (Option Json)}

/-- An object has fields if it gives each of them, or nothing for it. -/
theorem fields?_record_eq_some_iff {members : List (String × Json)} :
    (record members).fields? names = some values ↔ List.Forall₂ (Gives members) names values := by
  have named : (members.map fun m => (some m.1, m.2)).all (fun m => m.1.isSome) = true := by
    simp
  rw [record, fields?, if_pos named]
  exact mapM_member?_eq_some_iff

/-- An array has fields, by their positions, if it is not too long. -/
theorem fields?_array_eq_some_iff {items : List Json} :
    (array items).fields? names = some values ↔
      items.length ≤ names.length ∧ values = (List.range names.length).map (items[·]?) := by
  have filled (fits : items.length ≤ names.length) :
      items.map some ++ List.replicate (names.length - items.length) none =
        (List.range names.length).map (items[·]?) := by
    apply List.ext_getElem?
    intro i
    simp only [List.getElem?_append, List.getElem?_map, List.length_map,
      List.getElem?_replicate]
    grind
  rw [fields?]
  by_cases fits : items.length ≤ names.length
  · rw [if_pos fits, filled fits, Option.some.injEq]
    exact ⟨fun same => ⟨fits, same.symm⟩, fun ⟨_, same⟩ => same.symm⟩
  · rw [if_neg fits]
    exact ⟨nofun, fun ⟨short, _⟩ => absurd short fits⟩

/-- Only objects whose names have texts, and arrays, have fields. -/
theorem eq_record_or_array_of_fields? {j : Json} (found : j.fields? names = some values) :
    (∃ members : List (String × Json), j = record members) ∨ ∃ items, j = .array items := by
  cases j with
  | object members =>
    rw [fields?] at found
    split at found
    · rename_i named
      refine .inl ⟨members.map fun m => (m.1.getD "", m.2), ?_⟩
      have texts : ∀ m ∈ members, (some (m.1.getD ""), m.2) = m := by
        rintro ⟨name, value⟩ belongs
        obtain ⟨text, rfl⟩ := Option.isSome_iff_exists.1 (List.all_eq_true.1 named _ belongs)
        rfl
      rw [record, List.map_map, object.injEq]
      exact (List.map_id members).symm.trans (List.map_congr_left fun m belongs =>
        (texts m belongs).symm)
    · cases found
  | array items => exact .inr ⟨items, rfl⟩
  | _ => cases found

/-- An object gives its fields to one who asks for them in the order in which they were written. -/
theorem allFields?_record {members : List (String × Json)}
    (order : members.map Prod.fst = names) (distinct : names.Nodup) :
    (record members).allFields? names = some (members.map fun m => some m.2) := by
  subst order
  have each : List.Forall₂ (Gives members) (members.map Prod.fst)
      (members.map fun m => some m.2) := by
    rw [List.forall₂_map_left_iff, List.forall₂_map_right_iff, List.forall₂_same]
    exact fun member belongs => gives_of_nodup distinct belongs
  rw [record, allFields?]
  · exact fields?_record_eq_some_iff.2 each
  · intro items object
    cases object

end Fields

/-! ## Typed values -/

section Values

variable {j : Json}

/-- A number is taken exactly if it is a natural number below the bound. -/
theorem below?_eq_some_iff {bound n : Nat} : j.below? bound = some n ↔ n < bound ∧ j = .nat n := by
  cases j with
  | nat m =>
    rw [below?]
    split
    · grind
    · grind
  | _ => simp [below?]

/-- A number of a type reads from the natural number that it is, and from nothing else. -/
theorem map_below?_eq_some_iff {α : Type} {size : Nat} {ofNat : Nat → α} {toNat : α → Nat}
    (bounded : ∀ x, toNat x < size) (back : ∀ x, ofNat (toNat x) = x)
    (forth : ∀ n < size, toNat (ofNat n) = n) {x : α} :
    (j.below? size).map ofNat = some x ↔ j = .nat (toNat x) := by
  rw [Option.map_eq_some_iff]
  constructor
  · rintro ⟨n, read, rfl⟩
    obtain ⟨small, rfl⟩ := below?_eq_some_iff.1 read
    rw [forth n small]
  · rintro rfl
    exact ⟨toNat x, below?_eq_some_iff.2 ⟨bounded x, rfl⟩, back x⟩

theorem asUInt8?_eq_some_iff {b : UInt8} : j.asUInt8? = some b ↔ j = .nat b.toNat :=
  map_below?_eq_some_iff UInt8.toNat_lt_size (fun _ => UInt8.ofNat_toNat)
    fun _ => UInt8.toNat_ofNat_of_lt'

theorem asUInt16?_eq_some_iff {w : UInt16} : j.asUInt16? = some w ↔ j = .nat w.toNat :=
  map_below?_eq_some_iff UInt16.toNat_lt_size (fun _ => UInt16.ofNat_toNat)
    fun _ => UInt16.toNat_ofNat_of_lt'

theorem asUInt32?_eq_some_iff {n : UInt32} : j.asUInt32? = some n ↔ j = .nat n.toNat :=
  map_below?_eq_some_iff UInt32.toNat_lt_size (fun _ => UInt32.ofNat_toNat)
    fun _ => UInt32.toNat_ofNat_of_lt'

theorem asUInt64?_eq_some_iff {n : UInt64} : j.asUInt64? = some n ↔ j = .nat n.toNat :=
  map_below?_eq_some_iff UInt64.toNat_lt_size (fun _ => UInt64.ofNat_toNat)
    fun _ => UInt64.toNat_ofNat_of_lt'

theorem asBool?_eq_some_iff {b : Bool} : j.asBool? = some b ↔ j = .bool b := by
  cases j <;> simp [asBool?]

section Optional

variable {α : Type} {write : α → Json} {read : Json → Option α}

/-- What is written only if it is there reads back, unless it is written as null. -/
theorem optional?_ofOption (back : ∀ x, read (write x) = some x) (proper : ∀ x, write x ≠ .null)
    (o : Option α) : optional? read (ofOption write o) = some o := by
  cases o with
  | none => rfl
  | some x =>
    rw [ofOption, optional?, back]
    · rfl
    · exact proper x

/-- An optional value is read exactly if it is null or a value that is read, where no value is
written as null. -/
theorem optional?_eq_some_iff (exactly : ∀ j x, read j = some x ↔ j = write x)
    (proper : ∀ x, write x ≠ .null) {o : Option α} :
    optional? read j = some o ↔ j = ofOption write o := by
  constructor
  · intro value
    rw [optional?.eq_def] at value
    split at value
    · cases value
      rfl
    · obtain ⟨x, proper, rfl⟩ := Option.map_eq_some_iff.1 value
      exact (exactly _ x).1 proper
  · rintro rfl
    exact optional?_ofOption (fun x => (exactly _ x).2 rfl) proper o

end Optional

end Values

end Intel8080.Json
