import Mathlib.Data.ENat.Lattice
import Mathlib.Data.Nat.Find

/-!
# First times

The first step at which something holds, and infinity if it never does. Where it does not hold at
the start, the first time is one more than that of the course from the next step on.
-/
namespace Intel8080
open Classical

/-- The first number of steps after which something holds. -/
noncomputable def firstTime (p : ℕ → Prop) : ℕ∞ :=
  if holds : ∃ n, p n then (Nat.find holds : ℕ∞) else ⊤

/-- A first time is told by being one with none before it. -/
theorem firstTime_eq {p : ℕ → Prop} {n : ℕ} (now : p n) (before : ∀ i < n, ¬ p i) :
    firstTime p = n := by
  have holds : ∃ n, p n := ⟨n, now⟩
  rw [firstTime, dif_pos holds, (Nat.find_eq_iff holds).2 ⟨now, before⟩]

/-- It has not happened before the first time. -/
theorem not_of_lt_firstTime {p : ℕ → Prop} {i : ℕ} (early : (i : ℕ∞) < firstTime p) : ¬ p i := by
  intro now
  have holds : ∃ n, p n := ⟨i, now⟩
  rw [firstTime, dif_pos holds, Nat.cast_lt] at early
  exact Nat.find_min holds early now

theorem firstTime_of_zero {p : ℕ → Prop} (now : p 0) : firstTime p = 0 :=
  firstTime_eq now fun i below => absurd below (Nat.not_lt_zero i)

/-- What has not happened at once is one step further than from the next step on. -/
theorem firstTime_of_succ {p : ℕ → Prop} (later : ¬ p 0) :
    firstTime p = firstTime (fun n => p (n + 1)) + 1 := by
  by_cases holds : ∃ n, p (n + 1)
  · have holdsFromHere : ∃ n, p n := holds.imp' Nat.succ fun n now => now
    have first : Nat.find holdsFromHere = Nat.find holds + 1 :=
      Nat.find_comp_succ holdsFromHere holds later
    rw [firstTime, dif_pos holdsFromHere, firstTime, dif_pos holds, first]
    rfl
  · have never : ¬ ∃ n, p n := by
      rintro ⟨n, now⟩
      cases n with
      | zero => exact later now
      | succ n => exact holds ⟨n, now⟩
    rw [firstTime, dif_neg never, firstTime, dif_neg holds]
    rfl

/-- One more step of both is one more step of the earlier. -/
theorem toNat_min_succ (n : ℕ) (k : ℕ∞) :
    (min ((n + 1 : ℕ) : ℕ∞) (k + 1)).toNat = (min (n : ℕ∞) k).toNat + 1 := by
  have finite : min (n : ℕ∞) k ≠ ⊤ := ne_top_of_le_ne_top (ENat.natCast_ne_top n) (min_le_left _ _)
  rw [Nat.cast_succ, min_add_add_right, ENat.toNat_add finite ENat.one_ne_top]
  rfl

end Intel8080
