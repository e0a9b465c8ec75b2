import Intel8080.Proofs.Memory
import Intel8080.Proofs.Service.Effect
import Mathlib.Data.List.Nodup

/-!
# What the disk operating system prints

The console functions append bytes to the console and do nothing else (`run_bdos_exact`). A string
begins at `DE` and goes on over the top of memory if it has to. It ends in front of the first
terminator; where memory has none, one turn around memory is printed, which is every byte once
(`nodup_addressesFrom`, `mem_addressesFrom`).
-/
namespace Intel8080

/-- One turn around memory meets no address twice. -/
theorem nodup_addressesFrom (start : UInt16) : (addressesFrom start memorySize).Nodup := by
  apply List.Nodup.map_on _ List.nodup_range
  intro i below j otherBelow same
  rw [List.mem_range, memorySize] at below otherBelow
  have same := congrArg UInt16.toNat ((UInt16.add_right_inj start).1 same)
  rw [UInt16.toNat_ofNat', UInt16.toNat_ofNat'] at same
  omega

/-- One turn around memory meets every address. -/
theorem mem_addressesFrom (start address : UInt16) : address ∈ addressesFrom start memorySize := by
  rw [addressesFrom, List.mem_map]
  exact ⟨(address - start).toNat, List.mem_range.2 (address - start).toNat_lt,
    add_ofNat_sub start address⟩

namespace Service

/-- Appending a string stops in front of the first terminator, or when the count is used up. -/
theorem toList_appendString (mem : Memory) (address : UInt16) (count : Nat) (out : Array UInt8) :
    ∃ n ≤ count,
      (appendString mem address count out).1.toList =
        out.toList ++ (addressesFrom address n).map mem.read ∧
      terminator ∉ (addressesFrom address n).map mem.read ∧
      (n < count → mem.read (address + UInt16.ofNat n) = terminator) := by
  induction count generalizing address out with
  | zero => exact ⟨0, Nat.le_refl 0, by simp [appendString, addressesFrom]⟩
  | succ count ih =>
    by_cases stop : mem.read address = terminator
    · refine ⟨0, Nat.zero_le _, ?_⟩
      simp [appendString, addressesFrom, stop]
    · obtain ⟨n, within, printed, before, behind⟩ := ih (address + 1) (out.push (mem.read address))
      refine ⟨n + 1, Nat.succ_le_succ within, ?_, ?_, ?_⟩
      · simp [appendString, addressesFrom_succ, stop, printed]
      · simp only [addressesFrom_succ, List.map_cons, List.mem_cons, not_or]
        exact ⟨Ne.symm stop, before⟩
      · intro early
        rw [add_ofNat_succ]
        exact behind (Nat.lt_of_succ_lt_succ early)

variable {η : Type}

/-- The string function prints the bytes before the first terminator, or each byte of memory once if
there is no terminator; the character function prints one byte; and the other functions print
nothing. Output that is already there stays in front, everything else of the machine stays as it
is, and the run goes on. -/
theorem run_bdos_exact (m : Machine η) :
    ∃ out : List UInt8,
      bdos.run m = ({ m with console := m.console ++ out.toArray }, .resume) ∧
      (m.regs.c = 9 →
        (∃ n < 65536, out = (addressesFrom m.regs.de n).map m.mem.read ∧ 0x24 ∉ out ∧
          m.mem.read (m.regs.de + UInt16.ofNat n) = 0x24) ∨
        (∀ address, m.mem.read address ≠ 0x24) ∧
          out = (addressesFrom m.regs.de 65536).map m.mem.read ∧
          (addressesFrom m.regs.de 65536).Nodup ∧
          ∀ address, address ∈ addressesFrom m.regs.de 65536) ∧
      (m.regs.c = 2 → out = [m.regs.e]) ∧
      (m.regs.c ≠ 9 → m.regs.c ≠ 2 → out = []) := by
  refine ⟨(bdos.printed m.regs m.mem).toList, run_eq bdos m, ?_, ?_, ?_⟩
  · intro string
    obtain ⟨n, within, printed, before, behind⟩ :=
      toList_appendString m.mem m.regs.de memorySize #[]
    have out : (bdos.printed m.regs m.mem).toList = (addressesFrom m.regs.de n).map m.mem.read := by
      simp [Service.printed, string, consoleOutput, printString, printed]
    rw [out]
    obtain early | whole := Nat.lt_or_eq_of_le within
    · exact .inl ⟨n, early, rfl, before, behind early⟩
    · subst whole
      refine .inr ⟨fun address met => ?_, rfl, nodup_addressesFrom _, mem_addressesFrom _⟩
      exact before (List.mem_map.2 ⟨address, mem_addressesFrom _ address, met⟩)
  · intro character
    simp [printed, character, consoleOutput]
  · intro notString notCharacter
    simp [printed, notString, notCharacter, consoleOutput, printString]

/-- A call of the string function for a string that runs over the top of memory, with output
pending. -/
def stringAroundTop : Machine Service :=
  { Machine.new with
    regs := { Registers.zero with c := 9, d := 0xFF, e := 0xFE }
    mem := ((Memory.zero.write 0xFFFE 0x48).write 0xFFFF 0x69).write 0x0000 0x24
    console := #[0x3F] }

/-- The two bytes before the terminator come behind the pending one. -/
theorem run_stringAroundTop :
    stringAroundTop.regs.c = 9 ∧
      bdos.run stringAroundTop = ({ stringAroundTop with console := #[0x3F, 0x48, 0x69] }, .resume) := by
  obtain ⟨out, run, string, -, -⟩ := run_bdos_exact stringAroundTop
  have first : stringAroundTop.mem.read 0xFFFE = 0x48 := by
    simp [stringAroundTop, Memory.read_write]
  have second : stringAroundTop.mem.read 0xFFFF = 0x69 := by
    simp [stringAroundTop, Memory.read_write]
  have third : stringAroundTop.mem.read 0x0000 = 0x24 := by
    simp [stringAroundTop]
  have start : stringAroundTop.regs.de = 0xFFFE := by decide
  rw [start] at string
  have printed : out = [0x48, 0x69] := by
    obtain ⟨n, -, bytes, before, behind⟩ | ⟨none, -⟩ := string rfl
    · -- The string cannot end before the terminator at 0000 nor go on behind it.
      rcases n with _ | _ | _ | n
      · exact absurd (first.symm.trans behind) (by decide)
      · exact absurd (second.symm.trans behind) (by decide)
      · have addresses : addressesFrom 0xFFFE 2 = [0xFFFE, 0xFFFF] := by decide
        rw [bytes, addresses, List.map_cons, List.map_cons, List.map_nil, first, second]
      · have addresses : addressesFrom 0xFFFE (n + 3) =
            0xFFFE :: 0xFFFF :: 0x0000 :: addressesFrom 0x0001 n := by
          simp only [addressesFrom_succ]
          rfl
        rw [bytes, addresses] at before
        simp [third] at before
    · exact absurd third (none 0x0000)
  rw [run, printed]
  exact ⟨rfl, rfl⟩

end Service

end Intel8080
