import Intel8080.Word

/-!
# Trap tables

A trap table says which addresses are answered by the host and by which handler. The entries
stand in ascending order of address with no address twice, so tables with the same entries are
equal and listing them needs no sorting. What a handler does is not part of the table.

Embedded here are `register`, `remove`, `get`, `is_empty`, `addresses` and the text of a table.
-/
namespace Intel8080

structure TrapTable (η : Type) where
  entries : List (UInt16 × η)
  ascending : entries.Pairwise fun x y => x.1 < y.1

namespace TrapTable

variable {η : Type}

def empty : TrapTable η := ⟨[], .nil⟩

instance : Inhabited (TrapTable η) := ⟨empty⟩

/-- Puts an entry in its place, where it replaces one of the same address. -/
def place (address : UInt16) (handler : η) : List (UInt16 × η) → List (UInt16 × η)
  | [] => [(address, handler)]
  | (a, h) :: rest =>
    if address < a then (address, handler) :: (a, h) :: rest
    else if a < address then (a, h) :: place address handler rest
    else (address, handler) :: rest

theorem key_of_mem_place {address : UInt16} {handler : η} {entries : List (UInt16 × η)}
    {x : UInt16 × η} (h : x ∈ place address handler entries) :
    x.1 = address ∨ x ∈ entries := by
  induction entries with
  | nil => simp_all [place]
  | cons e rest ih =>
    obtain ⟨a, g⟩ := e
    simp only [place] at h
    split at h
    · simp only [List.mem_cons] at h ⊢
      rcases h with rfl | h
      · exact .inl rfl
      · exact .inr h
    · split at h
      · simp only [List.mem_cons] at h ⊢
        rcases h with rfl | h
        · exact .inr (.inl rfl)
        · exact (ih h).imp_right .inr
      · simp only [List.mem_cons] at h ⊢
        rcases h with rfl | h
        · exact .inl rfl
        · exact .inr (.inr h)

/-- Putting an entry in its place keeps the order, and each address occurs once. -/
theorem ascending_place (address : UInt16) (handler : η) {entries : List (UInt16 × η)}
    (h : entries.Pairwise fun x y => x.1 < y.1) :
    (place address handler entries).Pairwise fun x y => x.1 < y.1 := by
  induction entries with
  | nil => simp [place]
  | cons e rest ih =>
    obtain ⟨a, g⟩ := e
    rw [List.pairwise_cons] at h
    simp only [place]
    split
    · rename_i below
      refine .cons (fun x hx => ?_) (.cons h.1 h.2)
      rcases List.mem_cons.1 hx with rfl | hx
      · exact below
      · exact UInt16.lt_trans below (h.1 x hx)
    · split
      · rename_i above
        refine .cons (fun x hx => ?_) (ih h.2)
        rcases key_of_mem_place hx with same | hx
        · rw [same]
          exact above
        · exact h.1 x hx
      · rename_i notBelow notAbove
        have same : a = address :=
          UInt16.le_antisymm (UInt16.not_lt.1 notBelow) (UInt16.not_lt.1 notAbove)
        subst same
        exact .cons h.1 h.2

/-- Registers a handler, in place of any other at the address. -/
def insert (t : TrapTable η) (address : UInt16) (handler : η) : TrapTable η :=
  ⟨place address handler t.entries, ascending_place address handler t.ascending⟩

def erase (t : TrapTable η) (address : UInt16) : TrapTable η :=
  ⟨t.entries.filter (·.1 != address), t.ascending.filter _⟩

def get? (t : TrapTable η) (address : UInt16) : Option η := t.entries.lookup address

def isEmpty (t : TrapTable η) : Bool := t.entries.isEmpty

def addresses (t : TrapTable η) : List UInt16 := t.entries.map (·.1)

/-- The trapped addresses as a set of quoted words. -/
def describe (t : TrapTable η) : String :=
  "\x7b" ++ ", ".intercalate (t.addresses.map fun a => "\"" ++ wordHex a ++ "\"") ++ "\x7d"

end TrapTable

end Intel8080
