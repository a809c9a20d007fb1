import AlprGate.Firmware.CommandTracker

/-! # Arming after the dispatch

The device posts a motion command before it arms the tracker, the simulator does it
the other way round. The device with its pending command armed on the spot is the
state the reference is in, as long as no listener call falls into the gap that would
decide the new command or the one still armed.
-/
namespace AlprGate.Rpc
open StateMachine Drivers Control Transition

namespace Device

/-- The device as it would be had the pending command been armed already. -/
def settle (d : Device) : Device :=
  match d.pending with
  | some p => d.armWith p
  | none => d

theorem settle_of_none {d : Device} (h : d.pending = none) : d.settle = d := by
  simp only [settle, h]

theorem settle_of_some {d : Device} {p : Pending} (h : d.pending = some p) :
    d.settle = d.armWith p := by
  simp only [settle, h]

@[simp] theorem pending_settle (d : Device) : d.settle.pending = d.pending := by
  cases h : d.pending with
  | none => rw [settle_of_none h, h]
  | some p => rw [settle_of_some h]; exact h

@[simp] theorem gate_settle (d : Device) : d.settle.gate = d.gate := by
  cases h : d.pending with
  | none => rw [settle_of_none h]
  | some p => rw [settle_of_some h]; rfl

def Undecided (t : CommandTracker) (call : State × Reason × Bool) : Prop :=
  (t.onGateEvent call.1 call.2.1 call.2.2).2 = none

instance (t : CommandTracker) (call : State × Reason × Bool) : Decidable (Undecided t call) :=
  inferInstanceAs (Decidable (_ = none))

/-- In the gap between dispatch and arming, no listener call decides the pending command,
were it armed, or the command still armed. -/
def GapUndecided (d : Device) : DeviceInput → Prop
  | .gate a => d.pending = none ∨
    ∀ call ∈ listenerCall d.gate a, Undecided d.settle.tracker call ∧ Undecided d.tracker call
  | _ => True

instance (d : Device) : (a : DeviceInput) → Decidable (d.GapUndecided a)
  | .gate _ => inferInstanceAs (Decidable (_ ∨ _))
  | .command _ _ _ _ | .arm | .tick _ | .complete _ _ _ => inferInstanceAs (Decidable True)

theorem notifyGateEvent_of_undecided {d : Device} {call : State × Reason × Bool}
    (h : Undecided d.tracker call) : d.notifyGateEvent call = d := by
  have hkeep := CommandTracker.onGateEvent_of_none h
  simp only [notifyGateEvent, record, hkeep, Option.toList_none, List.append_nil]

theorem runGate_of_undecided {cfg : Config} {d : Device} {a : Input}
    (h : ∀ call ∈ listenerCall d.gate a, Undecided d.tracker call) :
    d.runGate cfg a = { d with gate := Control.step cfg.gate d.gate a } := by
  unfold runGate
  split
  · rename_i call hcall
    have hund : Undecided d.tracker call := h call hcall
    exact notifyGateEvent_of_undecided hund
  · rfl

theorem pending_runGate (cfg : Config) (d : Device) (a : Input) :
    (d.runGate cfg a).pending = d.pending := by
  unfold runGate
  split <;> rfl

/-- A gate step without a decision commutes with the arming. -/
theorem runGate_settle (cfg : Config) {d : Device} {a : Input} (h : d.GapUndecided (.gate a)) :
    (d.runGate cfg a).settle = d.settle.runGate cfg a := by
  cases hp : d.pending with
  | none =>
    have hpend : (d.runGate cfg a).pending = none := (pending_runGate cfg d a).trans hp
    rw [settle_of_none hpend, settle_of_none hp]
  | some p =>
    have hgap : ∀ call ∈ listenerCall d.gate a,
        Undecided d.settle.tracker call ∧ Undecided d.tracker call := by
      refine h.resolve_left fun hnone => ?_
      rw [hp] at hnone
      cases hnone
    have hold : d.runGate cfg a = { d with gate := Control.step cfg.gate d.gate a } :=
      runGate_of_undecided fun call hcall => (hgap call hcall).2
    have hnew : d.settle.runGate cfg a =
        { d.settle with gate := Control.step cfg.gate d.settle.gate a } :=
      runGate_of_undecided fun call hcall => (hgap call (by rwa [gate_settle] at hcall)).1
    rw [hold, hnew, settle_of_some hp]
    exact settle_of_some hp

/-- A command is either over after its dispatch or a motion command left pending. -/
theorem handleCommand_cases (cfg : Config) {d : Device} (hp : d.pending = none)
    (commandId : List UInt8) (kind : CommandKind) (ota : Ota) (deadlineMs : BitVec 32) :
    (d.handleCommand cfg commandId kind ota deadlineMs).pending = none ∨
    ∃ gate p, d.handleCommand cfg commandId kind ota deadlineMs =
      { d with gate := gate, pending := some p } := by
  unfold handleCommand
  split
  · exact Or.inl hp
  dsimp only
  split
  · exact Or.inl hp
  split
  · exact Or.inl hp
  split
  · exact Or.inl hp
  · exact Or.inr ⟨_,_,rfl⟩

/-- Dispatching and settling is issuing: the tracker does not see the dispatch. -/
theorem handleCommand_settle (cfg : Config) {d : Device} (hp : d.pending = none)
    (commandId : List UInt8) (kind : CommandKind) (ota : Ota) (deadlineMs : BitVec 32) :
    (d.handleCommand cfg commandId kind ota deadlineMs).settle =
      d.issue cfg commandId kind ota deadlineMs := by
  rcases handleCommand_cases cfg hp commandId kind ota deadlineMs with hnone | ⟨gate,p,he⟩
  · rw [settle_of_none hnone]
    simp only [issue, hnone]
  · simp only [issue, he]
    rfl

/-- The device refines the reference step by step. -/
theorem step_settle (cfg : Config) (d : Device) (a : DeviceInput) (h : d.GapUndecided a) :
    (d.step cfg a).settle = d.settle.issueStep cfg a := by
  cases a with
  | gate a => exact runGate_settle cfg h
  | command commandId kind ota deadlineMs =>
    simp only [step, issueStep, pending_settle]
    by_cases hp : d.pending = none
    · rw [if_pos hp, if_pos hp, settle_of_none hp]
      exact handleCommand_settle cfg hp commandId kind ota deadlineMs
    · rw [if_neg hp, if_neg hp]
  | arm =>
    cases hp : d.pending with
    | none =>
      have hstay : d.step cfg .arm = d := by simp only [step, hp]
      rw [hstay, settle_of_none hp, issueStep, ← hp]
    | some p =>
      have harm : d.step cfg .arm = { d.armWith p with pending := none } := by
        simp only [step, hp]
      rw [harm, settle_of_some hp, issueStep]
      exact settle_of_none rfl
  | tick nowMs =>
    simp only [step, issueStep, pending_settle]
    by_cases hp : d.pending = none
    · rw [if_pos hp, if_pos hp, settle_of_none hp]
      exact settle_of_none hp
    · rw [if_neg hp, if_neg hp]
  | complete commandId success error =>
    cases hp : d.pending with
    | none =>
      rw [settle_of_none hp]
      exact settle_of_none hp
    | some p =>
      rw [settle_of_some hp]
      exact settle_of_some hp

end Device

/-- In every run in which no listener call between a dispatch and its arming decides the
new command or the one still armed, the tracker's verdicts are those of the reference
that arms first, whenever no command waits to be armed. -/
theorem verdicts_as_if_armed_first (cfg : Config) (lo lc bm : Bool) (as : List DeviceInput)
    (h : AllSteps (Device.step cfg) Device.GapUndecided { gate := construct lo lc bm } as) :
    let d := exec (Device.step cfg) { gate := construct lo lc bm } as
    let e := exec (Device.issueStep cfg) { gate := construct lo lc bm } as
    d.gate = e.gate ∧ d.acks = e.acks ∧ (d.pending = none → d.verdicts = e.verdicts) := by
  intro d e
  have hsettle : d.settle = e :=
    exec_simulation (f:=Device.settle) (Device.step_settle cfg) h
  have hacks : d.settle.acks = d.acks := by
    cases hp : d.pending with
    | none => rw [Device.settle_of_none hp]
    | some p => rw [Device.settle_of_some hp]; rfl
  refine ⟨?_,?_,fun hp => ?_⟩
  · rw [← hsettle, Device.gate_settle]
  · rw [← hsettle, hacks]
  · rw [← hsettle, Device.settle_of_none hp]

/-- An open gate with a blocked beam, booted. -/
def bootBlocked : List DeviceInput := boot.map .gate

def pumpGate : List DeviceInput := pumpOnce.map .gate

/-- A close command that the pump takes once it is armed. -/
def closeArmed : List DeviceInput := bootBlocked ++ [.command [1] .closeGate .ready 0, .arm] ++ pumpGate

theorem verdicts_agree_on_armed_close :
    let d := exec (Device.step {}) { gate := construct false true true } closeArmed
    let e := exec (Device.issueStep {}) { gate := construct false true true } closeArmed
    d.pending = none ∧ d.verdicts = [⟨[1],false,"rejected: safety beam obstacle"⟩] ∧
      d.verdicts = e.verdicts :=
  ⟨by decide +kernel,by decide +kernel,
    (verdicts_as_if_armed_first {} false true true closeArmed (by decide +kernel)).2.2
      (by decide +kernel)⟩

/-- A close command that the pump refuses before it is armed. -/
def closeOvertaken : List DeviceInput :=
  bootBlocked ++ [.command [1] .closeGate .ready 0] ++ pumpGate ++ [.arm]

/-- The same with an open command still armed. -/
def closeOverOpen : List DeviceInput :=
  bootBlocked ++ [.command [1] .openGate .ready 0, .arm] ++ pumpGate ++
    [.command [2] .closeGate .ready 0] ++ pumpGate ++ [.arm]

/-- The device misses the refusal, and with an older command armed it charges the refusal
to that one. -/
theorem verdicts_differ_in_the_gap :
    let g : Device := { gate := construct false true true }
    ((exec (Device.step {}) g closeOvertaken).verdicts = [] ∧
      (exec (Device.issueStep {}) g closeOvertaken).verdicts =
        [⟨[1],false,"rejected: safety beam obstacle"⟩]) ∧
    ((exec (Device.step {}) g closeOverOpen).verdicts =
        [⟨[1],false,"rejected: safety beam obstacle"⟩] ∧
      (exec (Device.issueStep {}) g closeOverOpen).verdicts =
        [⟨[1],false,"superseded by a newer command"⟩,
          ⟨[2],false,"rejected: safety beam obstacle"⟩]) := by
  decide +kernel

end AlprGate.Rpc
