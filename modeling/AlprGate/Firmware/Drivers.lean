import Mathlib.Tactic.Common

/-! # Relay outputs and debounced inputs

Limit switches and the safety beam share one polling debouncer; they differ in the
electrical polarity of the sample and in their default timings.
-/
namespace AlprGate.Drivers

/-- A motor contactor. `level` is the GPIO level last written. -/
structure Relay where
  activeHigh : Bool := true
  state : Bool := false
  level : Bool := false
  deriving DecidableEq, Repr

def Relay.set (r : Relay) (on : Bool) : Relay :=
  { r with state := on, level := on == r.activeHigh }

structure Debouncer where
  committed : Bool
  lastSample : Bool
  stableSamples : ℕ := 0
  samplesToCommit : ℕ
  hasCallback : Bool := false
  deriving DecidableEq, Repr

/-- Ticks of `pollPeriodMs` that cover `debounceMs`, at least one. -/
def samplesToCommit (debounceMs pollPeriodMs : ℕ) : ℕ :=
  if (debounceMs + pollPeriodMs - 1) / pollPeriodMs = 0 then 1
  else (debounceMs + pollPeriodMs - 1) / pollPeriodMs

/-- Construction trusts the first sample. -/
def Debouncer.init (debounceMs pollPeriodMs : ℕ) (sample : Bool) : Debouncer :=
  { committed := sample, lastSample := sample,
    samplesToCommit := AlprGate.Drivers.samplesToCommit debounceMs pollPeriodMs }

/-- One poll. The second component is the value of a newly committed edge. -/
def Debouncer.onPoll (d : Debouncer) (sample : Bool) : Debouncer × Option Bool :=
  if sample ≠ d.lastSample then ({ d with lastSample := sample, stableSamples := 1 }, none)
  else if sample = d.committed then ({ d with stableSamples := 0 }, none)
  else if d.stableSamples + 1 < d.samplesToCommit then
    ({ d with stableSamples := d.stableSamples + 1 }, none)
  else ({ d with committed := sample, stableSamples := 0 }, some sample)

def Debouncer.setCallback (d : Debouncer) : Debouncer := { d with hasCallback := true }

/-- A poll either leaves the committed value alone and reports nothing, or flips it
and reports the new value. -/
theorem Debouncer.onPoll_cases (d : Debouncer) (sample : Bool) :
    ((d.onPoll sample).2 = none ∧ (d.onPoll sample).1.committed = d.committed) ∨
    ((d.onPoll sample).2 = some sample ∧ (d.onPoll sample).1.committed = sample ∧
      sample ≠ d.committed) := by
  unfold onPoll
  split
  · exact Or.inl ⟨rfl,rfl⟩
  · split
    · exact Or.inl ⟨rfl,rfl⟩
    · rename_i hne
      split
      · exact Or.inl ⟨rfl,rfl⟩
      · exact Or.inr ⟨rfl,rfl,hne⟩

@[simp] theorem Debouncer.onPoll_hasCallback (d : Debouncer) (sample : Bool) :
    (d.onPoll sample).1.hasCallback = d.hasCallback := by
  unfold onPoll
  split
  · rfl
  · split
    · rfl
    · split <;> rfl

/-- A normally-open switch pulls the line low when it closes. -/
def LimitSwitch.readActive (normallyOpen level : Bool) : Bool :=
  if normallyOpen then level == false else level == true

def LimitSwitch.init (level : Bool) : Debouncer :=
  Debouncer.init 20 5 (LimitSwitch.readActive true level)

def LimitSwitch.onPoll (d : Debouncer) (level : Bool) : Debouncer × Option Bool :=
  d.onPoll (LimitSwitch.readActive true level)

/-- A disconnected receiver reads high and counts as blocked. -/
def SafetyBeam.readBlocked (activeHighWhenBlocked level : Bool) : Bool :=
  if activeHighWhenBlocked then level == true else level == false

def SafetyBeam.init (level : Bool) : Debouncer :=
  Debouncer.init 5 1 (SafetyBeam.readBlocked true level)

def SafetyBeam.onPoll (d : Debouncer) (level : Bool) : Debouncer × Option Bool :=
  d.onPoll (SafetyBeam.readBlocked true level)

/-- Patterns of the status LED; the last three never travel over the wire. -/
inductive Pattern where
  | off | authFlash | denyFlash | faultSlow | otaPulse | bootOk | gateMoving | gateOpen | gateStopped
  deriving DecidableEq, Repr

end AlprGate.Drivers
