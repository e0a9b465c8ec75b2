import Intel8080.Memory

/-!
# Bytes in memory

What stands in memory from an address on (`Memory.Holds`), with addresses that wrap at the top. A
store changes nothing outside the bytes it stores, and bytes that do not overlap themselves stand
where they were stored.
-/
namespace Intel8080

theorem add_ofNat_add (address : UInt16) (m n : Nat) :
    address + UInt16.ofNat (m + n) = address + UInt16.ofNat m + UInt16.ofNat n := by
  rw [UInt16.ofNat_add, UInt16.add_assoc]

theorem add_ofNat_zero (address : UInt16) : address + UInt16.ofNat 0 = address :=
  UInt16.add_zero address

theorem add_ofNat_succ (address : UInt16) (n : Nat) :
    address + UInt16.ofNat (n + 1) = address + 1 + UInt16.ofNat n := by
  rw [Nat.add_comm, add_ofNat_add]
  rfl

/-- Less than a whole turn never leads back. -/
theorem add_ofNat_ne {n : Nat} (positive : 0 < n) (turn : n < 65536) (address : UInt16) :
    address + UInt16.ofNat n ≠ address := by
  intro around
  have below := address.toNat_lt
  have same := congrArg UInt16.toNat around
  rw [UInt16.toNat_add, UInt16.toNat_ofNat'] at same
  omega

/-- Every address is less than a whole turn ahead. -/
theorem add_ofNat_sub (start address : UInt16) :
    start + UInt16.ofNat (address - start).toNat = address := by
  rw [UInt16.ofNat_toNat, UInt16.add_comm, UInt16.sub_add_cancel]

theorem sub_ofNat_zero (address : UInt16) : address - UInt16.ofNat 0 = address :=
  UInt16.sub_zero address

theorem sub_ofNat_succ (address : UInt16) (n : Nat) :
    address - UInt16.ofNat (n + 1) = address - UInt16.ofNat n - 1 := by
  simp only [UInt16.ofNat_add, UInt16.sub_eq_add_neg, UInt16.neg_add, UInt16.add_assoc]
  rfl

/-- Below the top of memory, addresses add up. -/
theorem toNat_add_ofNat {address : UInt16} {n : Nat} (below : address.toNat + n < 65536) :
    (address + UInt16.ofNat n).toNat = address.toNat + n := by
  rw [UInt16.toNat_add, UInt16.toNat_ofNat']
  omega

/-- A number of addresses in a row, which go on at the bottom behind the top of memory. -/
def addressesFrom (start : UInt16) (count : Nat) : List UInt16 :=
  (List.range count).map fun i => start + UInt16.ofNat i

theorem addressesFrom_succ (start : UInt16) (count : Nat) :
    addressesFrom start (count + 1) = start :: addressesFrom (start + 1) count := by
  simp only [addressesFrom, List.range_succ_eq_map, List.map_cons, List.map_map, add_ofNat_zero]
  congr 1
  apply List.map_congr_left
  intro i _
  exact add_ofNat_succ start i

namespace Memory

/-- A store beside both bytes of a word leaves the word alone. -/
theorem readWord_write_of_ne (mem : Memory) {target address : UInt16} (value : UInt8)
    (low : target ≠ address) (high : target ≠ address + 1) :
    (mem.write target value).readWord address = mem.readWord address := by
  rw [readWord, read_write_of_ne mem low, read_write_of_ne mem high]
  rfl

/-- An earlier store can be made after a later one, if it gives way to it where they meet. -/
theorem write_write (mem : Memory) (a b : UInt16) (v w : UInt8) :
    (mem.write a v).write b w = (mem.write b w).write a (if a = b then w else v) := by
  apply ext_read
  intro x
  simp only [read_write]
  grind

/-- The bytes stand in memory from an address on. -/
def Holds (m : Memory) (address : UInt16) (bytes : List UInt8) : Prop :=
  ∀ i (inside : i < bytes.length), m.read (address + UInt16.ofNat i) = bytes[i]

/-- Storing bytes leaves everything alone that none of them is stored to. -/
theorem read_writeBytes_of_outside (m : Memory) (address query : UInt16) (bytes : List UInt8)
    (outside : ∀ i < bytes.length, address + UInt16.ofNat i ≠ query) :
    (m.writeBytes address bytes).read query = m.read query := by
  induction bytes generalizing m address with
  | nil => rfl
  | cons b rest ih =>
    have start : address ≠ query := by
      have := outside 0 (Nat.succ_pos _)
      rwa [add_ofNat_zero] at this
    rw [writeBytes, ih, read_write_of_ne m start]
    intro i below
    have := outside (i + 1) (Nat.succ_lt_succ below)
    rwa [add_ofNat_succ] at this

/-- Bytes that do not overlap themselves stand where they were stored. -/
theorem holds_writeBytes (m : Memory) (address : UInt16) {bytes : List UInt8}
    (fits : bytes.length ≤ 65536) : (m.writeBytes address bytes).Holds address bytes := by
  induction bytes generalizing m address with
  | nil => exact fun i inside => absurd inside (Nat.not_lt_zero i)
  | cons b rest ih =>
    rw [List.length_cons] at fits
    intro i inside
    cases i with
    | zero =>
      have kept : ((m.write address b).writeBytes (address + 1) rest).read address = b := by
        rw [read_writeBytes_of_outside, read_write_self]
        intro i below
        rw [← add_ofNat_succ]
        exact add_ofNat_ne (Nat.succ_pos i) (by omega) address
      rw [add_ofNat_zero]
      exact kept
    | succ i =>
      have behind := ih (m.write address b) (address + 1) (by omega) i
        (Nat.lt_of_succ_lt_succ inside)
      rw [← add_ofNat_succ] at behind
      exact behind

theorem Holds.head {m : Memory} {address : UInt16} {b : UInt8} {rest : List UInt8}
    (holds : m.Holds address (b :: rest)) : m.read address = b := by
  have first := holds 0 (Nat.succ_pos _)
  rwa [add_ofNat_zero] at first

/-- A byte stored below others that do not fill memory stands in front of them. -/
theorem Holds.write_below {m : Memory} {address : UInt16} {bytes : List UInt8}
    (holds : m.Holds address bytes) (b : UInt8) (room : bytes.length < 65536) :
    (m.write (address - 1) b).Holds (address - 1) (b :: bytes) := by
  intro i inside
  cases i with
  | zero =>
    rw [add_ofNat_zero]
    exact m.read_write_self _ b
  | succ i =>
    have inside : i < bytes.length := Nat.lt_of_succ_lt_succ inside
    have apart : address - 1 ≠ address - 1 + UInt16.ofNat (i + 1) :=
      (add_ofNat_ne (Nat.succ_pos i) (by omega) (address - 1)).symm
    have same : address - 1 + UInt16.ofNat (i + 1) = address + UInt16.ofNat i := by
      rw [add_ofNat_succ, UInt16.sub_add_cancel]
    rw [read_write_of_ne m apart, same]
    exact holds i inside

/-- The rest of the bytes stands behind the first ones. -/
theorem Holds.drop {m : Memory} {address : UInt16} {bytes : List UInt8}
    (holds : m.Holds address bytes) (n : Nat) :
    m.Holds (address + UInt16.ofNat n) (bytes.drop n) := by
  intro i inside
  rw [List.length_drop] at inside
  rw [← add_ofNat_add, holds (n + i) (by omega), List.getElem_drop]

/-- Reading as many bytes as stand in front of the top of memory gives them back. -/
theorem Holds.bytesFrom {m : Memory} {address : UInt16} {bytes : List UInt8}
    (holds : m.Holds address bytes) (fits : address.toNat + bytes.length ≤ 65536) :
    m.bytesFrom address bytes.length = bytes := by
  have whole : min bytes.length (memorySize - address.toNat) = bytes.length := by
    rw [memorySize]
    omega
  apply List.ext_getElem
  · rw [Memory.bytesFrom, List.length_map, List.length_range, whole]
  · intro i _ inside
    simp only [Memory.bytesFrom, List.getElem_map, List.getElem_range]
    exact holds i inside

/-- A dump of no more bytes than memory has is answered. -/
theorem dump?_ofNat (m : Memory) (start : UInt16) {count : Nat} (most : count ≤ memorySize) :
    m.dump? start (UInt64.ofNat count) = some (m.bytesFrom start count) := by
  have below := start.toNat_lt
  rw [memorySize] at most
  have same : (UInt64.ofNat count).toNat = count := by
    rw [UInt64.toNat_ofNat']
    omega
  have fits : start.toNat + (UInt64.ofNat count).toNat < UInt64.size := by
    change _ < 18446744073709551616
    omega
  rw [dump?_of_fits m fits, same]

/-- A dump of bytes below the top of memory is answered with them. -/
theorem Holds.dump? {m : Memory} {address : UInt16} {bytes : List UInt8}
    (holds : m.Holds address bytes) (fits : address.toNat + bytes.length ≤ 65536) :
    m.dump? address (UInt64.ofNat bytes.length) = some bytes := by
  have most : bytes.length ≤ memorySize := Nat.le_trans (Nat.le_add_left _ _) fits
  rw [dump?_ofNat m address most, holds.bytesFrom fits]

end Memory

end Intel8080
