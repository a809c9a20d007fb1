import Mathlib.Data.BitVec
import Mathlib.Tactic.Common

/-! # Clocks that wrap

A counter of `w` bits shows true time modulo `2 ^ w`. Two readings are compared by the sign
of their difference. The comparison is right for true times that lie less than half a turn
apart, wherever the counter wraps in between.
-/
namespace AlprGate.WrappingClock

/-- What the counter shows at a true time. -/
def reading (w t : ℕ) : BitVec w := BitVec.ofNat w t

theorem reading_add (w t d : ℕ) : reading w t + reading w d = reading w (t + d) := by
  simp [reading, BitVec.ofNat_add]

/-- A deadline at true time `d` lies at most half a turn ahead of `u`, and less than half a
turn behind it. -/
def Near (w d u : ℕ) : Prop := d ≤ u + 2 ^ w ∧ u < d + 2 ^ w

/-- The signed difference of two near readings is the true one. -/
theorem toInt_reading_sub {w d u : ℕ} (h : Near w d u) :
    (reading (w + 1) u - reading (w + 1) d).toInt = (u : ℤ) - d := by
  obtain ⟨hbehind,hahead⟩ := h
  have hturn : (2 ^ (w + 1) : ℕ) = 2 * 2 ^ w := by
    rw [Nat.pow_succ, Nat.mul_comm]
  have hmod : (reading (w + 1) u - reading (w + 1) d).toInt =
      ((u : ℤ) - d).bmod (2 ^ (w + 1)) := by
    rw [reading, reading, BitVec.toInt_sub, BitVec.toInt_ofNat', BitVec.toInt_ofNat',
      ← Int.sub_bmod]
  rw [hmod]
  apply Int.bmod_eq_of_le
  · rw [hturn]
    omega
  · rw [hturn]
    omega

/-- The sign test tells whether a near deadline is reached. -/
theorem reached_iff {w d u : ℕ} (h : Near w d u) :
    ¬ (reading (w + 1) u - reading (w + 1) d).toInt < 0 ↔ d ≤ u := by
  rw [toInt_reading_sub h]
  omega

/-- Times that never go back, each less than half a turn after the one before. -/
def Paced (w : ℕ) (times : List ℕ) : Prop := times.IsChain fun p u => p ≤ u ∧ u < p + 2 ^ w

/-- While a deadline less than half a turn away is not yet passed, the next reading is near
it. -/
theorem Paced.near {w start delay p u : ℕ} {times : List ℕ} (h : Paced w (p :: u :: times))
    (hdelay : delay < 2 ^ w) (hstart : start ≤ p) (hwaits : p ≤ start + delay) :
    Near w (start + delay) u := by
  obtain ⟨⟨hle,hlt⟩,-⟩ := List.isChain_cons_cons.mp h
  constructor
  · omega
  · omega

end AlprGate.WrappingClock
