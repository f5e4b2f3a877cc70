import Mathlib.Algebra.Group.Nat.Defs
import Mathlib.Tactic.Common

/-!
# Wrapping counters

A 64-bit counter that is incremented and decremented. It holds the difference
of the two numbers as long as it was incremented at least as often.
-/

namespace Counter

/-- `counter` was zero, has been incremented `added` times and decremented `removed` times. -/
def Counts (counter : UInt64) (added removed : ℕ) : Prop :=
  counter + UInt64.ofNat removed = UInt64.ofNat added

variable {counter : UInt64} {added removed : ℕ}

theorem counts_zero : Counts 0 0 0 := rfl

theorem Counts.add (counts : Counts counter added removed) :
    Counts (counter + 1) (added + 1) removed := by
  unfold Counts at counts ⊢
  rw [UInt64.ofNat_add, ← counts]
  ac_rfl

theorem Counts.sub (counts : Counts counter added removed) :
    Counts (counter - 1) added (removed + 1) := by
  unfold Counts at counts ⊢
  rw [UInt64.ofNat_add, ← counts]
  have restored : counter - 1 + 1 = counter := UInt64.sub_add_cancel counter 1
  calc counter - 1 + (UInt64.ofNat removed + UInt64.ofNat 1)
      = counter - 1 + 1 + UInt64.ofNat removed := by ac_rfl
    _ = counter + UInt64.ofNat removed := by rw [restored]

theorem Counts.toNat (counts : Counts counter added removed) (order : removed ≤ added)
    (fits : added - removed < 2 ^ 64) : counter.toNat = added - removed := by
  have equal := congrArg UInt64.toNat counts
  have bounded := counter.toNat_lt
  simp only [UInt64.toNat_add, UInt64.toNat_ofNat'] at equal
  omega

/-- A counter that has been decremented once too often is at its largest value. -/
theorem Counts.wrapped (counts : Counts counter added (added + 1)) :
    counter.toNat = 2 ^ 64 - 1 := by
  have equal := congrArg UInt64.toNat counts
  have bounded := counter.toNat_lt
  simp only [UInt64.toNat_add, UInt64.toNat_ofNat'] at equal
  omega

end Counter
