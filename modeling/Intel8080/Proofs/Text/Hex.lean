import Intel8080.Address
import Intel8080.Word

/-!
# Hexadecimal text reads back

The digits of a number stand for it, so two digits stand for the byte that they were written for
and four digits for the word.
-/
namespace Intel8080

/-- Items that read back one by one read back together. -/
theorem mapM_map_eq_some {α β : Type} {write : α → β} {read : β → Option α} {items : List α}
    (each : ∀ item ∈ items, read (write item) = some item) :
    (items.map write).mapM read = some items := by
  induction items with
  | nil => rfl
  | cons item rest ih =>
    rw [List.map_cons, List.mapM_cons, each item List.mem_cons_self,
      ih fun other member => each other (List.mem_cons_of_mem item member)]
    rfl

theorem hexValue?_hexDigit {n : Nat} (small : n < 16) : Json.hexValue? (hexDigit n) = some n := by
  revert n
  decide

theorem hexValue?_toLower_hexDigit {n : Nat} (small : n < 16) :
    Json.hexValue? (hexDigit n).toLower = some n := by
  revert n
  decide

theorem digitValue?_hexDigit {n : Nat} (small : n < 16) : digitValue? 16 (hexDigit n) = some n := by
  rw [digitValue?, hexValue?_hexDigit small]
  simp [small]

theorem numeralValue?_hexDigits {ns : List Nat} (given : ns ≠ []) (small : ∀ n ∈ ns, n < 16) :
    numeralValue? 16 (ns.map hexDigit) = some (ns.foldl (fun n d => n * 16 + d) 0) := by
  have some_digit : (ns.map hexDigit).isEmpty = false := by
    simpa using given
  have digits : (ns.map hexDigit).mapM (digitValue? 16) = some ns :=
    mapM_map_eq_some fun n member => digitValue?_hexDigit (small n member)
  rw [numeralValue?, some_digit, digits]
  rfl

/-- The halves of a byte, the upper one first. -/
def halves (b : UInt8) : List Nat := [b.toNat / 16, b.toNat % 16]

theorem lt_of_mem_halves {b : UInt8} : ∀ n ∈ halves b, n < 16 := by
  have := b.toNat_lt
  simp only [halves, List.mem_cons, List.not_mem_nil, or_false, forall_eq_or_imp, forall_eq]
  omega

theorem toList_byteHex (b : UInt8) : (byteHex b).toList = (halves b).map hexDigit :=
  String.toList_ofList

theorem toList_wordHex (w : UInt16) :
    (wordHex w).toList = (halves (highByte w) ++ halves (lowByte w)).map hexDigit := by
  rw [wordHex, String.toList_append, toList_byteHex, toList_byteHex, List.map_append]

theorem numeralValue?_byteHex (b : UInt8) : numeralValue? 16 (byteHex b).toList = some b.toNat := by
  rw [toList_byteHex, numeralValue?_hexDigits (by simp [halves]) lt_of_mem_halves]
  simp only [halves, List.foldl_cons, List.foldl_nil]
  congr 1
  omega

/-- A word is read back from its four digits. -/
theorem numeralValue?_wordHex (w : UInt16) :
    numeralValue? 16 (wordHex w).toList = some w.toNat := by
  have small : ∀ n ∈ halves (highByte w) ++ halves (lowByte w), n < 16 := by
    intro n member
    exact (List.mem_append.1 member).elim (lt_of_mem_halves n) (lt_of_mem_halves n)
  have joined := toNat_wordOf (highByte w) (lowByte w)
  rw [wordOf_bytes] at joined
  rw [toList_wordHex, numeralValue?_hexDigits (by simp [halves]) small]
  simp only [halves, List.cons_append, List.nil_append, List.foldl_cons, List.foldl_nil]
  congr 1
  omega

end Intel8080
