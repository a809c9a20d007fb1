import AlprGate.Library.WrappingClock
import AlprGate.Firmware.TrackerVerdicts

/-! # The deadline across wraps of the clock

The tracker sees milliseconds modulo `2 ^ 32`. It is armed at a true time, with a deadline
that the client adds up in 32 bits, and then looks at the clock at some true times. As long
as it looks often enough, it fires at the first look at or behind the true deadline.
-/
namespace AlprGate.Rpc.CommandTracker
open StateMachine Transition WrappingClock

/-- One look at the clock. -/
def look (t : CommandTracker) (nowMs : BitVec 32) : Option Verdict × CommandTracker :=
  ((t.onTick nowMs).2, (t.onTick nowMs).1)

def overdue (t : CommandTracker) : Verdict :=
  ⟨t.id,false,"deadline exceeded awaiting terminal state"⟩

theorem look_of_disarmed {t : CommandTracker} (h : t.armed = false) (nowMs : BitVec 32) :
    t.look nowMs = (none, t) := by
  simp [look, onTick, h]

theorem look_before {t : CommandTracker} {deadline u : ℕ}
    (hdeadline : t.deadlineMs = reading 32 deadline) (hnear : Near 31 deadline u)
    (h : u < deadline) : t.look (reading 32 u) = (none, t) := by
  have hearly : (reading 32 u - t.deadlineMs).toInt < 0 := by
    rw [hdeadline]
    by_contra hnot
    exact absurd ((reached_iff hnear).mp hnot) (Nat.not_le.mpr h)
  have hsilent : t.onTick (reading 32 u) = (t, none) := if_pos (Or.inr hearly)
  simp [look, hsilent]

theorem look_reached {t : CommandTracker} {deadline u : ℕ} (harmed : t.armed = true)
    (hdeadline : t.deadlineMs = reading 32 deadline) (hnear : Near 31 deadline u)
    (h : deadline ≤ u) : t.look (reading 32 u) = (some t.overdue, { t with armed := false }) := by
  have hlate : ¬ (reading 32 u - t.deadlineMs).toInt < 0 := by
    rw [hdeadline]
    exact (reached_iff hnear).mpr h
  have hfires : t.onTick (reading 32 u) =
      t.resolve false "deadline exceeded awaiting terminal state" :=
    if_neg (not_or.mpr ⟨by simp [harmed],hlate⟩)
  simp [look, hfires, resolve, overdue]

/-- A tracker that is not armed stays silent. -/
theorem looks_of_disarmed {t : CommandTracker} (h : t.armed = false) (readings : List (BitVec 32)) :
    outputs look t readings = List.replicate readings.length none := by
  induction readings with
  | nil => rfl
  | cons nowMs readings ih =>
    rw [outputs, look_of_disarmed h]
    exact congrArg (none :: ·) ih

/-- The looks of an armed tracker, the last look before them lying at `p`. -/
theorem looks_of_armed {t : CommandTracker} {start delay p : ℕ} (hdelay : delay < 2 ^ 31)
    (hdeadline : t.deadlineMs = reading 32 (start + delay)) (harmed : t.armed = true)
    {ticks : List ℕ} (hpaced : Paced 31 (p :: ticks)) (hstart : start ≤ p)
    (hwaits : p ≤ start + delay) (i : ℕ) {u : ℕ} (hu : ticks[i]? = some u) :
    (outputs look t (ticks.map (reading 32)))[i]? =
      some (if start + delay ≤ u ∧ ∀ q ∈ ticks.take i, q < start + delay then some t.overdue
        else none) := by
  -- induction on the ticks; `p` moves on as long as the deadline is ahead
  induction ticks generalizing p i with
  | nil => cases hu
  | cons first ticks ih =>
    have hnear : Near 31 (start + delay) first := hpaced.near hdelay hstart hwaits
    obtain ⟨⟨hle,-⟩,hrest⟩ := List.isChain_cons_cons.mp hpaced
    rw [List.map_cons, outputs]
    by_cases hfirst : first < start + delay
    · rw [look_before hdeadline hnear hfirst]
      cases i with
      | zero =>
        have hsame : first = u := Option.some.inj hu
        have hnot : ¬ start + delay ≤ u := by omega
        simp [hnot]
      | succ i =>
        have hlater := ih hrest (by omega) (by omega) i hu
        simpa [hfirst] using hlater
    · have hreached : start + delay ≤ first := Nat.le_of_not_lt hfirst
      rw [look_reached harmed hdeadline hnear hreached, looks_of_disarmed rfl]
      cases i with
      | zero =>
        have hsame : first = u := Option.some.inj hu
        have hyes : start + delay ≤ u := by omega
        simp [hyes]
      | succ i =>
        -- the tracker has fired at the first tick already
        rw [List.getElem?_cons_succ] at hu
        obtain ⟨hlt,-⟩ := List.getElem?_eq_some_iff.mp hu
        simp [hfirst, hlt]

/-- Armed at true time `t` with a delay below half a turn of the clock, the tracker fires at the
first tick at or behind `t + delay`, with its own id, and at no other tick. -/
theorem deadline_fires_across_wraps (c : CommandTracker) (commandId : List UInt8)
    (terminalOk : State) {t delay : ℕ} (hdelay : delay < 2 ^ 31) {ticks : List ℕ}
    (hpaced : Paced 31 (t :: ticks)) (i : ℕ) {u : ℕ} (hu : ticks[i]? = some u) :
    (outputs look (c.arm commandId terminalOk (reading 32 t + reading 32 delay)).1
        (ticks.map (reading 32)))[i]? =
      some (if t + delay ≤ u ∧ ∀ q ∈ ticks.take i, q < t + delay then
        some ⟨storedId commandId,false,"deadline exceeded awaiting terminal state"⟩
        else none) := by
  have hdeadline : (c.arm commandId terminalOk (reading 32 t + reading 32 delay)).1.deadlineMs =
      reading 32 (t + delay) := reading_add 32 t delay
  exact looks_of_armed hdelay hdeadline rfl hpaced (Nat.le_refl t) (Nat.le_add_right t delay) i hu

/-- Armed shortly before the clock wraps, a delay of almost half a turn, and ticks to the other
side of the next wrap: the tick right before the deadline is silent and the one at the deadline fires. -/
theorem deadline_fires_behind_wrap :
    let t := 2 ^ 32 - 5
    let delay := 2 ^ 31 - 1
    let ticks := [t, t + 2 ^ 30, t + delay - 1, t + delay, t + 2 ^ 32 - 2]
    Paced 31 (t :: ticks) ∧
    (outputs look (CommandTracker.arm {} [7] .open (reading 32 t + reading 32 delay)).1
        (ticks.map (reading 32)))[3]? =
      some (some ⟨[7],false,"deadline exceeded awaiting terminal state"⟩) := by
  intro t delay ticks
  have hpaced : Paced 31 (t :: ticks) := by
    unfold Paced
    decide
  refine ⟨hpaced,?_⟩
  have hdelay : delay < 2 ^ 31 := by decide
  have hfires := deadline_fires_across_wraps {} [7] .open hdelay hpaced 3 rfl
  rw [hfires]
  decide

end AlprGate.Rpc.CommandTracker
