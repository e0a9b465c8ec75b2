import Intel8080.Machine.Basic
import Intel8080.Proofs.Memory
import Mathlib.Data.List.Induction

/-!
# Loading images in a row

An image is loaded whole or refused whole, by its base and size alone. After any number of requests
each byte of a fresh machine is the one of the last loaded image that covers it, and the end of the
program is the greatest end of a loaded image (`load_sequence`). Images that have no address in
common may be loaded in either order.
-/
namespace Intel8080

structure Load where
  base : UInt16
  image : List UInt8
  deriving DecidableEq, Repr

namespace Load

def ending (l : Load) : Nat := l.base.toNat + l.image.length

/-- The image ends at the top of memory or below. -/
def fits (l : Load) : Bool := l.ending ≤ memorySize

/-- The byte that the image has for an address, if it covers the address. -/
def byteAt? (l : Load) (address : UInt16) : Option UInt8 :=
  if l.base.toNat ≤ address.toNat then l.image[address.toNat - l.base.toNat]? else none

/-- Images that have no address in common. -/
def Apart (l other : Load) : Prop :=
  ∀ address, l.byteAt? address = none ∨ other.byteAt? address = none

theorem fits_iff (l : Load) : l.fits = true ↔ l.ending ≤ 65536 := decide_eq_true_iff

/-- An image that fits covers its addresses once each. -/
theorem byteAt?_inside (l : Load) (fits : l.ending ≤ 65536) {i : Nat} (inside : i < l.image.length) :
    l.byteAt? (l.base + UInt16.ofNat i) = some l.image[i] := by
  rw [ending] at fits
  have place : (l.base + UInt16.ofNat i).toNat = l.base.toNat + i := toNat_add_ofNat (by omega)
  rw [byteAt?, if_pos (by omega), place, Nat.add_sub_cancel_left, List.getElem?_eq_getElem inside]

theorem byteAt?_outside (l : Load) (fits : l.ending ≤ 65536) {address : UInt16}
    (outside : l.byteAt? address = none) (i : Nat) (inside : i < l.image.length) :
    l.base + UInt16.ofNat i ≠ address := by
  rintro rfl
  rw [byteAt?_inside l fits inside] at outside
  cases outside

theorem exists_of_byteAt? {l : Load} {address : UInt16} {b : UInt8}
    (covered : l.byteAt? address = some b) :
    ∃ i, ∃ inside : i < l.image.length, address = l.base + UInt16.ofNat i ∧ l.image[i] = b := by
  obtain ⟨above, found⟩ := Option.ite_none_right_eq_some.1 covered
  obtain ⟨inside, here⟩ := List.getElem?_eq_some_iff.1 found
  refine ⟨address.toNat - l.base.toNat, inside, ?_, here⟩
  apply UInt16.toNat_inj.1
  have below := address.toNat_lt
  rw [toNat_add_ofNat (by omega)]
  omega

end Load

/-- What stands in memory after an image that fits is stored. -/
theorem Memory.read_writeBytes_load (m : Memory) (l : Load) (fits : l.ending ≤ 65536)
    (address : UInt16) :
    (m.writeBytes l.base l.image).read address = (l.byteAt? address).getD (m.read address) := by
  cases covered : l.byteAt? address with
  | none => exact m.read_writeBytes_of_outside _ _ _ (l.byteAt?_outside fits covered)
  | some b =>
    obtain ⟨i, inside, rfl, here⟩ := Load.exists_of_byteAt? covered
    have length : l.image.length ≤ 65536 := Nat.le_trans (Nat.le_add_left _ _) fits
    rw [m.holds_writeBytes l.base length i inside, here]
    rfl

/-- The greatest number of a list that one more is put behind. -/
theorem max?_concat (numbers : List Nat) (n : Nat) :
    (numbers ++ [n]).max? = some (numbers.max?.elim n (max · n)) := by
  cases numbers with
  | nil => rfl
  | cons first rest =>
    change some ((rest ++ [n]).foldl max first) = _
    rw [List.foldl_append]
    rfl

theorem max?_perm {numbers others : List Nat} (perm : numbers.Perm others) :
    numbers.max? = others.max? := by
  ext n
  simp only [List.max?_eq_some_iff, perm.mem_iff]

theorem toNat_max (a b : UInt32) : (max a b).toNat = max a.toNat b.toNat := by
  change (if a ≤ b then b else a).toNat = _
  simp only [UInt32.le_iff_toNat_le, Nat.max_def]
  split <;> rfl

namespace Machine

variable {η : Type}

/-- The machine after a request to load an image. -/
def load (m : Machine η) (l : Load) : Machine η := (m.loadProgram l.base l.image).2

/-- A machine with an image stored and the end of the program moved up to the end of the image. -/
def withLoaded (m : Machine η) (l : Load) : Machine η :=
  let last := UInt32.ofNat l.ending
  { m with
    mem := m.mem.writeBytes l.base l.image
    loadedEnd := some (m.loadedEnd.elim last (max · last)) }

section Load

variable (m : Machine η) (l : Load)

theorem loadProgram_of_fits (fits : l.ending ≤ 65536) :
    m.loadProgram l.base l.image = (.ok (), m.withLoaded l) := by
  have accepted : ¬ memorySize < l.base.toNat + l.image.length := Nat.not_lt.2 fits
  rw [loadProgram, Memory.load, if_neg accepted]
  rfl

/-- The refusal comes before anything is stored. -/
theorem loadProgram_of_large (large : 65536 < l.ending) :
    m.loadProgram l.base l.image =
      (.error (.imageTooLarge l.base l.image.length (65536 - l.base.toNat)), m) := by
  have refused : memorySize < l.base.toNat + l.image.length := large
  rw [loadProgram, Memory.load, if_pos refused]
  rfl

/-- A load stores the whole image or nothing. -/
theorem load_eq : m.load l = if l.fits then m.withLoaded l else m := by
  by_cases fits : l.ending ≤ 65536
  · rw [load, loadProgram_of_fits m l fits, if_pos (l.fits_iff.2 fits)]
  · rw [load, loadProgram_of_large m l (Nat.lt_of_not_le fits), if_neg (mt l.fits_iff.1 fits)]

/-- An image is refused exactly if it ends above the top of memory, whatever the machine, and then
the machine is as it was. -/
theorem loadProgram_eq_error_iff :
    m.loadProgram l.base l.image =
        (.error (.imageTooLarge l.base l.image.length (65536 - l.base.toNat)), m) ↔
      65536 < l.ending := by
  refine ⟨fun refused => Nat.lt_of_not_le fun fits => ?_, loadProgram_of_large m l⟩
  rw [loadProgram_of_fits m l fits] at refused
  cases (Prod.mk.inj refused).1

theorem loadProgram_eq_ok_iff :
    (m.loadProgram l.base l.image).1 = .ok () ↔ l.ending ≤ 65536 := by
  refine ⟨fun loaded => Nat.le_of_not_lt fun large => ?_, fun fits => ?_⟩
  · rw [loadProgram_of_large m l large] at loaded
    cases loaded
  · rw [loadProgram_of_fits m l fits]

end Load

/-- A refused image might as well not have been asked for. -/
theorem foldl_load_eq (m : Machine η) (loads : List Load) :
    loads.foldl load m = (loads.filter Load.fits).foldl withLoaded m := by
  induction loads generalizing m with
  | nil => rfl
  | cons l rest ih =>
    rw [List.foldl_cons, load_eq, ih, List.filter_cons]
    by_cases fits : l.fits = true
    · rw [if_pos fits, if_pos fits, List.foldl_cons]
    · rw [if_neg fits, if_neg fits]

theorem foldl_withLoaded_rest (m : Machine η) (loads : List Load) :
    loads.foldl withLoaded m = { m with
      mem := (loads.foldl withLoaded m).mem
      loadedEnd := (loads.foldl withLoaded m).loadedEnd } := by
  induction loads generalizing m with
  | nil => rfl
  | cons l rest ih =>
    rw [List.foldl_cons, ih]
    rfl

section Fitting

variable (m : Machine η) {loads : List Load}

/-- After images that fit, each byte is the one of the last of them that covers it. -/
theorem read_foldl_withLoaded (fit : ∀ l ∈ loads, l.fits = true) (address : UInt16) :
    (loads.foldl withLoaded m).mem.read address =
      (loads.reverse.findSome? (·.byteAt? address)).getD (m.mem.read address) := by
  induction loads generalizing m with
  | nil => rfl
  | cons l rest ih =>
    have first := l.fits_iff.1 (fit l List.mem_cons_self)
    rw [List.foldl_cons, ih (m.withLoaded l) fun other among => fit other (.tail l among),
      List.reverse_cons, List.findSome?_append]
    cases rest.reverse.findSome? (·.byteAt? address) with
    | some b => rfl
    | none =>
      rw [List.findSome?_singleton]
      exact m.mem.read_writeBytes_load l first address

/-- After images that fit, the program ends at their greatest end. -/
theorem loadedEnd_foldl_withLoaded (fresh : m.loadedEnd = none)
    (fit : ∀ l ∈ loads, l.fits = true) :
    (loads.foldl withLoaded m).loadedEnd.map UInt32.toNat = (loads.map Load.ending).max? := by
  induction loads using List.reverseRecOn with
  | nil => exact congrArg (Option.map UInt32.toNat) fresh
  | append_singleton loads l ih =>
    have before := ih fun other among => fit other (List.mem_append_left _ among)
    have last := l.fits_iff.1 (fit l (List.mem_append_right _ List.mem_cons_self))
    have ending : (UInt32.ofNat l.ending).toNat = l.ending := by
      rw [UInt32.toNat_ofNat']
      omega
    rw [List.foldl_append, List.map_append, List.map_singleton, max?_concat, ← before]
    change some _ = _
    cases (loads.foldl withLoaded m).loadedEnd with
    | none => exact congrArg some ending
    | some e => exact congrArg some ((toNat_max e _).trans (congrArg (max e.toNat) ending))

/-- The program ends with the image that reaches furthest, whenever it was loaded. -/
theorem programEnd_foldl_withLoaded (fresh : m.loadedEnd = none)
    (fit : ∀ l ∈ loads, l.fits = true) :
    (loads.foldl withLoaded m).programEnd.toNat = (loads.map Load.ending).max?.getD 65536 := by
  rw [← loadedEnd_foldl_withLoaded m fresh fit, programEnd]
  cases (loads.foldl withLoaded m).loadedEnd <;> rfl

/-- The image that was loaded last is there as a whole. -/
theorem dump?_foldl_withLoaded (fit : ∀ l ∈ loads, l.fits = true) {l : Load}
    (last : loads.getLast? = some l) :
    (loads.foldl withLoaded m).mem.dump? l.base (UInt64.ofNat l.image.length) = some l.image := by
  obtain ⟨before, rfl⟩ := List.getLast?_eq_some_iff.1 last
  have fits := l.fits_iff.1 (fit l (List.mem_append_right _ List.mem_cons_self))
  have holds : ((before ++ [l]).foldl withLoaded m).mem.Holds l.base l.image := by
    intro i inside
    rw [read_foldl_withLoaded m fit, List.reverse_append, List.reverse_singleton,
      List.singleton_append, List.findSome?_cons, l.byteAt?_inside fits inside]
    rfl
  exact holds.dump? fits

end Fitting

/-- Images with no address in common may be stored in either order. -/
theorem withLoaded_comm (m : Machine η) {l other : Load} (fits : l.ending ≤ 65536)
    (otherFits : other.ending ≤ 65536) (apart : l.Apart other) :
    (m.withLoaded l).withLoaded other = (m.withLoaded other).withLoaded l := by
  have mem : ((m.withLoaded l).withLoaded other).mem = ((m.withLoaded other).withLoaded l).mem := by
    apply Memory.ext_read
    intro address
    simp only [withLoaded, Memory.read_writeBytes_load _ _ fits,
      Memory.read_writeBytes_load _ _ otherFits]
    obtain free | free := apart address
    · rw [free]
      rfl
    · rw [free]
      rfl
  have ending : ((m.withLoaded l).withLoaded other).loadedEnd =
      ((m.withLoaded other).withLoaded l).loadedEnd := by
    apply congrArg some
    apply UInt32.toNat_inj.1
    cases before : m.loadedEnd with
    | none =>
      simp only [withLoaded, before, Option.elim, toNat_max]
      omega
    | some e =>
      simp only [withLoaded, before, Option.elim, toNat_max]
      omega
  calc (m.withLoaded l).withLoaded other
      = { m with
          mem := ((m.withLoaded l).withLoaded other).mem
          loadedEnd := ((m.withLoaded l).withLoaded other).loadedEnd } := rfl
    _ = { m with
          mem := ((m.withLoaded other).withLoaded l).mem
          loadedEnd := ((m.withLoaded other).withLoaded l).loadedEnd } := by rw [mem, ending]
    _ = (m.withLoaded other).withLoaded l := rfl

/-- Images that are apart can be loaded in either order. -/
theorem load_comm (m : Machine η) {l other : Load} (apart : l.Apart other) :
    (m.load l).load other = (m.load other).load l := by
  by_cases fits : l.fits = true <;> by_cases otherFits : other.fits = true <;>
    simp only [load_eq, fits, otherFits, if_true, if_false, Bool.false_eq_true]
  exact withLoaded_comm m (l.fits_iff.1 fits) (other.fits_iff.1 otherFits) apart

/-- Requests to load images into a fresh machine. Each is refused exactly if its image ends above
the top of memory, and then changes nothing. After all of them each byte is the one of the last
loaded image that covers it, the last image can be read back, the program ends at the greatest end
of a loaded image, in whatever order they came, and nothing else has changed. Images with no address
in common may be loaded in either order into any machine. -/
theorem load_sequence (traps : TrapTable η) (loads : List Load) :
    let after := loads.foldl load (withTraps traps)
    let loaded := loads.filter Load.fits
    (∀ (m : Machine η) (l : Load),
      (m.loadProgram l.base l.image =
          (.error (.imageTooLarge l.base l.image.length (65536 - l.base.toNat)), m) ↔
        65536 < l.ending) ∧
      ((m.loadProgram l.base l.image).1 = .ok () ↔ l.ending ≤ 65536) ∧
      (65536 < l.ending → m.load l = m)) ∧
    (∀ address, after.mem.read address =
      (loaded.reverse.findSome? (·.byteAt? address)).getD 0) ∧
    (∀ l, loaded.getLast? = some l →
      after.mem.dump? l.base (UInt64.ofNat l.image.length) = some l.image) ∧
    after.programEnd.toNat = (loaded.map Load.ending).max?.getD 65536 ∧
    (∀ other, loads.Perm other →
      (other.foldl load (withTraps traps)).programEnd = after.programEnd) ∧
    after = { withTraps traps with mem := after.mem, loadedEnd := after.loadedEnd } ∧
    ∀ (m : Machine η) (l other : Load), l.Apart other →
      (m.load l).load other = (m.load other).load l := by
  have fit (loads : List Load) : ∀ l ∈ loads.filter Load.fits, l.fits = true :=
    fun l among => (List.mem_filter.1 among).2
  have ending (loads : List Load) : (loads.foldl load (withTraps traps)).programEnd.toNat =
      ((loads.filter Load.fits).map Load.ending).max?.getD 65536 := by
    rw [foldl_load_eq]
    exact programEnd_foldl_withLoaded (withTraps traps) rfl (fit loads)
  refine ⟨fun m l => ⟨loadProgram_eq_error_iff m l, loadProgram_eq_ok_iff m l, ?_⟩,
    fun address => ?_, fun l last => ?_, ending loads, fun other perm => ?_, ?_,
    fun m l other => load_comm m⟩
  · intro large
    rw [load_eq, if_neg (mt l.fits_iff.1 (Nat.not_le_of_lt large))]
  · rw [foldl_load_eq, read_foldl_withLoaded _ (fit loads)]
    exact congrArg _ (Memory.read_zero address)
  · rw [foldl_load_eq]
    exact dump?_foldl_withLoaded _ (fit loads) last
  · apply UInt32.toNat_inj.1
    rw [ending, ending, max?_perm ((perm.filter _).map _)]
  · rw [foldl_load_eq]
    exact foldl_withLoaded_rest _ _

/-- An image with another over its middle, one that is a byte too long, one that ends at the top of
memory, and an empty one. -/
def overlapping : List Load :=
  [⟨0x0100, [1, 2, 3]⟩, ⟨0x0101, [9]⟩, ⟨0xFFFE, [4, 5, 6]⟩, ⟨0xFFFE, [7, 8]⟩, ⟨0x2000, []⟩]

/-- The byte in the middle is the later one, and the image that is too long has left no byte. The
end of the program does not depend on the order, and of two images side by side either may come
first. -/
theorem load_overlapping :
    let after : Machine Empty := overlapping.foldl load new
    after.mem.read 0x0100 = 1 ∧ after.mem.read 0x0101 = 9 ∧ after.mem.read 0xFFFE = 7 ∧
      after.mem.dump? 0x2000 0 = some [] ∧ after.programEnd = 65536 ∧
      (overlapping.reverse.foldl load (new : Machine Empty)).programEnd = 65536 ∧
      after.load ⟨0xFFFE, [4, 5, 6]⟩ = after ∧
      (after.load ⟨0x0100, [1]⟩).load ⟨0x0101, [9]⟩ =
        (after.load ⟨0x0101, [9]⟩).load ⟨0x0100, [1]⟩ := by
  obtain ⟨request, read, dump, ending, order, -, swap⟩ :=
    load_sequence (.empty : TrapTable Empty) overlapping
  have apart : Load.Apart ⟨0x0100, [1]⟩ ⟨0x0101, [9]⟩ := by
    intro address
    simp only [Load.byteAt?, ite_eq_right_iff, List.getElem?_eq_none_iff, List.length_singleton,
      UInt16.reduceToNat]
    omega
  have top := UInt32.toNat_inj.1 (show _ = (65536 : UInt32).toNat from ending)
  exact ⟨read 0x0100, read 0x0101, read 0xFFFE, dump ⟨0x2000, []⟩ rfl, top,
    (order _ (List.reverse_perm overlapping).symm).trans top,
    (request _ ⟨0xFFFE, [4, 5, 6]⟩).2.2 (by decide), swap _ _ _ apart⟩

end Machine

end Intel8080
