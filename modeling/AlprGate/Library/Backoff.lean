import Mathlib.Data.BitVec
import Mathlib.Logic.Function.Iterate
import Mathlib.Order.Monotone.Basic
import Mathlib.Tactic.Common

/-! # Doubling delays on machine words

A loop waits after every attempt and doubles the wait up to a ceiling; an attempt that succeeds
starts the wait over. The doubling is done in the width of the word, before the comparison with the
ceiling. Below half of the range it is a capped geometric progression; a ceiling above that lets it
wrap around.
-/
namespace AlprGate.Backoff
variable {w : ℕ} (least most : BitVec w)

/-- The wait after `b`. -/
def next (b : BitVec w) : BitVec w := if most < b * 2 then most else b * 2

/-- The wait after an attempt, given the one that was due. -/
def wait (b : BitVec w) (succeeded : Bool) : BitVec w := if succeeded = true then least else b

/-- The wait that is due after some attempts, the last one first. -/
def due : List Bool → BitVec w
  | [] => least
  | succeeded :: before => next most (wait least (due before) succeeded)

/-- The waits after some attempts, the last one first. -/
def waits : List Bool → List (BitVec w)
  | [] => []
  | succeeded :: before => wait least (due least most before) succeeded :: waits before

variable {least most}

theorem next_le (b : BitVec w) : next most b ≤ most := by
  unfold next
  split
  · exact BitVec.le_refl most
  · rename_i hle
    exact BitVec.not_lt.mp hle

section Exact
variable (hmost : 2 * most.toNat < 2 ^ w)
include hmost

end Exact

section Wrap
variable (hmost : 2 ^ w ≤ 2 * most.toNat)
include hmost

end Wrap

end AlprGate.Backoff
