import Mathlib.Algebra.Order.Group.Int
import AlprGate.Firmware.TrackedGate

/-! # The virtual gate

The simulator runs the firmware's state machine and command tracker on a position instead
of a motor. One recursive function does what the controller's pump, timers, policies and
listener do. Time passes in steps of the caller's choice; a deadline of zero is a timer
that is not armed. Positions are exact, and the clock of 64 bits is unbounded.
-/
namespace AlprGate.Sim
open StateMachine Rpc

structure Config where
  travelMs : ℕ := 12000
  motorTimeoutMs : ℕ := 30000
  autoCloseMs : ℕ := 0
  reverseOnBeam : Bool := true
  commandDeadlineMs : ℕ := 40000
  deriving DecidableEq, Repr

/-- A state that the machine has entered, with the two motor outputs in it. -/
structure Entry where
  state : State
  motorOpen : Bool
  motorClose : Bool
  deriving DecidableEq, Repr

/-- `trace` lists the transitions so far; no operation reads it. -/
structure VirtualGate where
  machine : Machine := {}
  tracker : CommandTracker := {}
  nowMs : ℕ := 0
  positionMs : ℤ := 0
  motorOpen : Bool := false
  motorClose : Bool := false
  beamBlocked : Bool := false
  watchdogDeadline : ℕ := 0
  autocloseDeadline : ℕ := 0
  acks : List Verdict := []
  trace : List Entry := []
  deriving DecidableEq, Repr

/-- What can be done to a gate that is switched on. -/
inductive Operation where
  | issue (commandId : List UInt8) (c : Motion)
  | localOpen
  | localClose
  | operatorStop
  | clearFault
  | tripBeam
  | clearBeam
  | advance (dtMs : ℕ)
  deriving DecidableEq, Repr

inductive SimInput where
  | bootClosed
  | reboot
  | op (o : Operation)
  deriving DecidableEq, Repr

/-- A gate that moves is watched. -/
def moving (s : State) : Bool := s = .opening ∨ s = .closing

namespace VirtualGate

def record (g : VirtualGate) (r : CommandTracker × Option Verdict) : VirtualGate :=
  { g with tracker := r.1, acks := g.acks ++ r.2.toList }

/-- LEDs and telemetry have no physics. -/
def drive (g : VirtualGate) : Action → VirtualGate
  | .driveMotorOpen => { g with motorClose := false, motorOpen := true }
  | .driveMotorClose => { g with motorOpen := false, motorClose := true }
  | .stopMotor => { g with motorOpen := false, motorClose := false }
  | _ => g

def setDeadlines (cfg : Config) (g : VirtualGate) (out : Outputs) : VirtualGate :=
  if out.transitioned = true then
    { g with
      watchdogDeadline := if moving out.newState = true then g.nowMs + cfg.motorTimeoutMs else 0
      autocloseDeadline :=
        if out.newState = .open ∧ 0 < cfg.autoCloseMs then g.nowMs + cfg.autoCloseMs else 0
      trace := g.trace ++ [⟨out.newState,g.motorOpen,g.motorClose⟩] }
  else g

def report (g : VirtualGate) (out : Outputs) : VirtualGate :=
  if out.transitioned = true ∨ out.reason ≠ .none then
    g.record (g.tracker.onGateEvent out.newState out.reason out.transitioned)
  else g

/-- `apply_locked` up to its policies. -/
def absorb (cfg : Config) (g : VirtualGate) (out : Outputs) : VirtualGate :=
  ((out.actions.foldl drive g).setDeadlines cfg out).report out

/-- The beam has stopped the gate and the policy drives it back. -/
def Reverses (cfg : Config) (out : Outputs) : Prop :=
  cfg.reverseOnBeam = true ∧ out.transitioned = true ∧ out.newState = .stoppedClose ∧
    out.reason = .safetyBeamObstacle

/-- The beam has refused to close and the policy tries again later. -/
def Retries (cfg : Config) (out : Outputs) : Prop :=
  out.transitioned = false ∧ out.newState = .open ∧ out.reason = .safetyBeamObstacle ∧
    0 < cfg.autoCloseMs

instance (cfg : Config) (out : Outputs) : Decidable (Reverses cfg out) :=
  inferInstanceAs (Decidable (_ ∧ _))

instance (cfg : Config) (out : Outputs) : Decidable (Retries cfg out) :=
  inferInstanceAs (Decidable (_ ∧ _))

/-- The recursion goes through `step_locked`; `depth` bounds it. -/
def applyLocked (cfg : Config) : ℕ → VirtualGate → Outputs → VirtualGate
  | 0, g, _ => g
  | depth + 1, g, out =>
    let g := g.absorb cfg out
    if Reverses cfg out then
      let r := handle g.machine .commandOpen
      applyLocked cfg depth { g with machine := r.1 } r.2
    else if Retries cfg out then { g with autocloseDeadline := g.nowMs + cfg.autoCloseMs }
    else g

/-- A reversal is not reversed again, so two levels are enough. -/
def kApplyDepth : ℕ := 2

def stepLocked (cfg : Config) (g : VirtualGate) (ev : Event) : VirtualGate :=
  let r := handle g.machine ev
  applyLocked cfg kApplyDepth { g with machine := r.1 } r.2

/-- What `resolve_position_locked` asks of the machine. -/
def initPosition (cfg : Config) (positionMs : ℤ) (m : Machine) : Machine × Outputs :=
  if positionMs ≤ 0 then initClosed m
  else if cfg.travelMs ≤ positionMs then initOpen m
  else initUnknown m

def resolvePositionLocked (cfg : Config) (g : VirtualGate) : VirtualGate :=
  let r := initPosition cfg g.positionMs g.machine
  applyLocked cfg kApplyDepth { g with machine := r.1 } r.2

def bootClosed (cfg : Config) (g : VirtualGate) : VirtualGate :=
  let r := initClosed g.machine
  applyLocked cfg kApplyDepth { g with positionMs := 0, machine := r.1 } r.2

def issue (cfg : Config) (g : VirtualGate) (commandId : List UInt8) (c : Motion) : VirtualGate :=
  let terminal := if c = .open then State.open else State.closed
  let deadline := BitVec.ofNat 32 g.nowMs + BitVec.ofNat 32 cfg.commandDeadlineMs
  (g.record (g.tracker.arm commandId terminal deadline)).stepLocked cfg
    (if c = .open then .commandOpen else .commandClose)

def clearFault (cfg : Config) (g : VirtualGate) : VirtualGate :=
  let g := g.stepLocked cfg .faultCleared
  if g.machine.state = .initializing then g.resolvePositionLocked cfg else g

/-- A reboot keeps the position, the beam and the tracker. -/
def reboot (cfg : Config) (g : VirtualGate) : VirtualGate :=
  let m : Machine := if g.beamBlocked = true then (handle {} .safetyBeamTripped).1 else {}
  { g with
    motorOpen := false, motorClose := false, watchdogDeadline := 0, autocloseDeadline := 0
    machine := m }.resolvePositionLocked cfg

/-- The gate reaches a limit within `dtMs` of travel. -/
def ArrivesOpen (cfg : Config) (g : VirtualGate) (dtMs : ℕ) : Prop :=
  g.motorOpen = true ∧ cfg.travelMs ≤ g.positionMs + dtMs

def ArrivesClosed (g : VirtualGate) (dtMs : ℕ) : Prop :=
  g.motorOpen = false ∧ g.motorClose = true ∧ g.positionMs - dtMs ≤ 0

instance (cfg : Config) (g : VirtualGate) (dtMs : ℕ) : Decidable (g.ArrivesOpen cfg dtMs) :=
  inferInstanceAs (Decidable (_ ∧ _))

instance (g : VirtualGate) (dtMs : ℕ) : Decidable (g.ArrivesClosed dtMs) :=
  inferInstanceAs (Decidable (_ ∧ _))

/-- The clock moves on and the tracker looks at it. -/
def tick (g : VirtualGate) (dtMs : ℕ) : VirtualGate :=
  { g with nowMs := g.nowMs + dtMs }.record
    (g.tracker.onTick (BitVec.ofNat 32 (g.nowMs + dtMs)))

/-- The motor moves the gate. -/
def travel (cfg : Config) (g : VirtualGate) (dtMs : ℕ) : VirtualGate :=
  if g.motorOpen = true then
    if cfg.travelMs ≤ g.positionMs + dtMs then
      { g with positionMs := cfg.travelMs }.stepLocked cfg .limitOpenHit
    else { g with positionMs := g.positionMs + dtMs }
  else if g.motorClose = true then
    if g.positionMs - dtMs ≤ 0 then { g with positionMs := 0 }.stepLocked cfg .limitClosedHit
    else { g with positionMs := g.positionMs - dtMs }
  else g

def checkWatchdog (cfg : Config) (g : VirtualGate) : VirtualGate :=
  if g.watchdogDeadline ≠ 0 ∧ g.watchdogDeadline ≤ g.nowMs then
    { g with watchdogDeadline := 0 }.stepLocked cfg .motorTimeout
  else g

def checkAutoclose (cfg : Config) (g : VirtualGate) : VirtualGate :=
  if g.autocloseDeadline ≠ 0 ∧ g.autocloseDeadline ≤ g.nowMs then
    { g with autocloseDeadline := 0 }.stepLocked cfg .commandClose
  else g

def advance (cfg : Config) (g : VirtualGate) (dtMs : ℕ) : VirtualGate :=
  (((g.tick dtMs).travel cfg dtMs).checkWatchdog cfg).checkAutoclose cfg

def perform (cfg : Config) (g : VirtualGate) : Operation → VirtualGate
  | .issue commandId c => g.issue cfg commandId c
  | .localOpen => g.stepLocked cfg .commandOpen
  | .localClose => g.stepLocked cfg .commandClose
  | .operatorStop => g.stepLocked cfg .commandStop
  | .clearFault => g.clearFault cfg
  | .tripBeam => { g with beamBlocked := true }.stepLocked cfg .safetyBeamTripped
  | .clearBeam => { g with beamBlocked := false }.stepLocked cfg .safetyBeamCleared
  | .advance dtMs => g.advance cfg dtMs

def step (cfg : Config) (g : VirtualGate) : SimInput → VirtualGate
  | .bootClosed => g.bootClosed cfg
  | .reboot => g.reboot cfg
  | .op o => g.perform cfg o

/-! ### What one event does -/

section Frame
variable (cfg : Config) (g : VirtualGate) (out : Outputs)

theorem report_eq : g.report out =
    { g with tracker := (g.report out).tracker, acks := (g.report out).acks } := by
  unfold report
  split
  · rfl
  · rfl

theorem absorb_eq : g.absorb cfg out =
    { (out.actions.foldl drive g).setDeadlines cfg out with
      tracker := (g.absorb cfg out).tracker, acks := (g.absorb cfg out).acks } :=
  report_eq _ out

end Frame

/-- Outputs that no policy answers. -/
theorem applyLocked_plain {cfg : Config} {out : Outputs} (hreverse : ¬ Reverses cfg out)
    (hretry : ¬ Retries cfg out) (depth : ℕ) (g : VirtualGate) :
    applyLocked cfg (depth + 1) g out = g.absorb cfg out := by
  simp [applyLocked, hreverse, hretry]

theorem applyLocked_retry {cfg : Config} {out : Outputs} (hretry : Retries cfg out) (depth : ℕ)
    (g : VirtualGate) : applyLocked cfg (depth + 1) g out =
      { g.absorb cfg out with autocloseDeadline := (g.absorb cfg out).nowMs + cfg.autoCloseMs } := by
  have hreverse : ¬ Reverses cfg out := by
    intro h
    exact absurd (hretry.1.symm.trans h.2.1) Bool.noConfusion
  simp [applyLocked, hreverse, hretry]

theorem not_retries_of_transitioned {cfg : Config} {out : Outputs} (h : out.transitioned = true) :
    ¬ Retries cfg out := by
  intro hretry
  exact absurd (hretry.1.symm.trans h) Bool.noConfusion

/-- No policy answers a command to open. -/
theorem commandOpen_plain (cfg : Config) (m : Machine) :
    ¬ Reverses cfg (handle m .commandOpen).2 ∧ ¬ Retries cfg (handle m .commandOpen).2 := by
  rcases handle_cases m .commandOpen with ⟨s,stored,reported,actions,hedge,hm⟩ | ⟨⟨-,hev,-⟩,-⟩ | ⟨-,-,hm⟩
  · rw [hm]
    refine ⟨?_,not_retries_of_transitioned rfl⟩
    rintro ⟨-,-,hstopped,-⟩
    generalize m.state = old at hedge
    cases hedge <;> cases hstopped
  · cases hev
  · rw [hm]
    constructor
    · rintro ⟨-,hmoved,-⟩
      cases hmoved
    · rintro ⟨-,-,hreason,-⟩
      cases hreason

/-- More depth changes nothing. -/
theorem applyLocked_deeper (cfg : Config) (depth : ℕ) (g : VirtualGate) (out : Outputs) :
    applyLocked cfg (depth + kApplyDepth) g out = applyLocked cfg kApplyDepth g out := by
  by_cases hreverse : Reverses cfg out
  · obtain ⟨hplain,hquiet⟩ := commandOpen_plain cfg (g.absorb cfg out).machine
    have hunfold : ∀ d, applyLocked cfg (d + 2) g out =
        absorb cfg { g.absorb cfg out with
          machine := (handle (g.absorb cfg out).machine .commandOpen).1 }
          (handle (g.absorb cfg out).machine .commandOpen).2 := by
      intro d
      rw [applyLocked]
      dsimp only
      rw [if_pos hreverse, applyLocked_plain hplain hquiet]
    exact (hunfold depth).trans (hunfold 0).symm
  · simp [kApplyDepth, applyLocked, hreverse]

end VirtualGate
end AlprGate.Sim
