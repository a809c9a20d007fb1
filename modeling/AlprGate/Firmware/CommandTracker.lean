import AlprGate.Library.CText
import AlprGate.Firmware.ControllerSteps

/-! # Completion of server commands

The tracker holds at most one motion command and decides it by five rules. The
control client acks a command, dispatches it and, for the two motion commands, arms
the tracker afterwards. The pump feeds the tracker through the transition listener,
from a task of its own, so it may run between the dispatch and the arming.
-/
namespace AlprGate.Rpc
open StateMachine Drivers Control Transition

def kMaxCommandId : ℕ := 40

/-- What the tracker's buffer holds of an id: a C string ends at its first zero byte, and one byte
of the buffer is for the terminator. -/
def storedId (commandId : List UInt8) : List UInt8 :=
  (CText.cString commandId).take (kMaxCommandId - 1)

/-- A completion decision. Only decisions that fire are values of this type. -/
structure Verdict where
  commandId : List UInt8
  success : Bool
  error : String
  deriving DecidableEq, Repr

structure CommandTracker where
  id : List UInt8 := []
  terminalOk : State := .initializing
  deadlineMs : BitVec 32 := 0
  armed : Bool := false
  deriving DecidableEq, Repr

namespace CommandTracker

def resolve (t : CommandTracker) (success : Bool) (error : String) :
    CommandTracker × Option Verdict :=
  ({ t with armed := false }, some ⟨t.id,success,error⟩)

/-- Arming over a live command hands back its failure. -/
def arm (t : CommandTracker) (commandId : List UInt8) (terminalOk : State)
    (deadlineMs : BitVec 32) : CommandTracker × Option Verdict :=
  (⟨storedId commandId,terminalOk,deadlineMs,true⟩,
    if t.armed then (t.resolve false "superseded by a newer command").2 else none)

def onGateEvent (t : CommandTracker) (s : State) (r : Reason) (transitioned : Bool) :
    CommandTracker × Option Verdict :=
  if t.armed = false then (t, none)
  else if transitioned ∧ s = t.terminalOk then t.resolve true ""
  else if transitioned ∧ s = .faulted then t.resolve false r.toString
  else if transitioned ∧ (s = .stoppedOpen ∨ s = .stoppedClose) then t.resolve false r.toString
  else if transitioned = false ∧ r = .safetyBeamObstacle then
    t.resolve false "rejected: safety beam obstacle"
  else (t, none)

/-- The comparison survives a wrap of the millisecond clock. -/
def onTick (t : CommandTracker) (nowMs : BitVec 32) : CommandTracker × Option Verdict :=
  if t.armed = false ∨ (nowMs - t.deadlineMs).toInt < 0 then (t, none)
  else t.resolve false "deadline exceeded awaiting terminal state"

/-- A gate event either changes nothing or decides the armed command. -/
theorem onGateEvent_cases (t : CommandTracker) (s : State) (r : Reason) (transitioned : Bool) :
    t.onGateEvent s r transitioned = (t, none) ∨
    ∃ success error, t.onGateEvent s r transitioned = t.resolve success error := by
  unfold onGateEvent
  split
  · exact Or.inl rfl
  split
  · exact Or.inr ⟨_,_,rfl⟩
  split
  · exact Or.inr ⟨_,_,rfl⟩
  split
  · exact Or.inr ⟨_,_,rfl⟩
  split
  · exact Or.inr ⟨_,_,rfl⟩
  · exact Or.inl rfl

theorem onGateEvent_of_none {t : CommandTracker} {s : State} {r : Reason} {transitioned : Bool}
    (h : (t.onGateEvent s r transitioned).2 = none) :
    t.onGateEvent s r transitioned = (t, none) := by
  rcases t.onGateEvent_cases s r transitioned with he | ⟨success,error,he⟩
  · exact he
  · rw [he] at h
    cases h

end CommandTracker

inductive CommandKind where
  | unspecified | openGate | closeGate | pulseRelay | latchOpen | latchClose | releaseLatch
  | reboot | beginOta | ledPattern (value : ℕ)
  deriving DecidableEq, Repr

/-- What `begin_ota` runs into. -/
inductive Ota where
  | ready | inProgress | taskFails
  deriving DecidableEq, Repr

structure DispatchResult where
  accepted : Bool := false
  completedNow : Bool := false
  externalCompletion : Bool := false
  terminalOk : State := .initializing
  error : String := ""
  deriving DecidableEq, Repr

def ledPatternMax : ℕ := 5

/-- Wire values mirror the driver's patterns. -/
def patternOfWire : ℕ → Pattern
  | 0 => .off
  | 1 => .authFlash
  | 2 => .denyFlash
  | 3 => .faultSlow
  | 4 => .otaPulse
  | _ => .bootOk

/-- The command dispatcher of `app_main`: its result and the entry points of the gate
controller it calls. -/
def dispatcher (ota : Ota) : CommandKind → DispatchResult × List Input
  | .openGate => ({ accepted := true, terminalOk := .open }, [.command .open])
  | .closeGate => ({ accepted := true, terminalOk := .closed }, [.command .close])
  | .ledPattern value =>
    if ledPatternMax < value then ({ error := "unknown led pattern" }, [])
    else ({ accepted := true, completedNow := true }, [.showLedPattern (patternOfWire value)])
  | .reboot => ({ accepted := true, completedNow := true }, [])
  | .beginOta => match ota with
    | .inProgress => ({ error := "an OTA update is already running" }, [])
    | .taskFails => ({ error := "failed to start the OTA task" }, [])
    | .ready => ({ accepted := true, externalCompletion := true }, [.showLedPattern .otaPulse])
  | .pulseRelay | .latchOpen | .latchClose | .releaseLatch =>
    ({ error := "unsupported on the residential controller profile" }, [])
  | .unspecified => ({ error := "unspecified command kind" }, [])

/-- A motion command that `handle_command` has dispatched and not yet armed. -/
structure Pending where
  commandId : List UInt8
  terminalOk : State
  deadlineMs : BitVec 32
  deriving DecidableEq, Repr

structure Config where
  gate : Control.Config := {}
  dispatcherWired : Bool := true
  deriving DecidableEq, Repr

/-- The gate with its control client. `verdicts` are the tracker's decisions in order,
`acks` the completions acked without it. -/
structure Device where
  gate : Controller
  tracker : CommandTracker := {}
  verdicts : List Verdict := []
  acks : List Verdict := []
  pending : Option Pending := none
  deriving DecidableEq, Repr

inductive DeviceInput where
  | gate (a : Input)
  | command (commandId : List UInt8) (kind : CommandKind) (ota : Ota) (deadlineMs : BitVec 32)
  | arm
  | tick (nowMs : BitVec 32)
  | complete (commandId : List UInt8) (success : Bool) (error : String)
  deriving DecidableEq, Repr

/-- The arguments with which a step calls the transition listener. -/
def listenerCall (s : Controller) (a : Input) : Option (State × Reason × Bool) :=
  match operation s a with
  | some (.notify state r transitioned) => some (state, r, transitioned)
  | _ => none

namespace Device

def record (d : Device) (r : CommandTracker × Option Verdict) : Device :=
  { d with tracker := r.1, verdicts := d.verdicts ++ r.2.toList }

def armWith (d : Device) (p : Pending) : Device :=
  d.record (d.tracker.arm p.commandId p.terminalOk p.deadlineMs)

def notifyGateEvent (d : Device) (call : State × Reason × Bool) : Device :=
  d.record (d.tracker.onGateEvent call.1 call.2.1 call.2.2)

/-- A step of the gate; the listener call is one of its operations. -/
def runGate (cfg : Config) (d : Device) (a : Input) : Device :=
  let d' := { d with gate := Control.step cfg.gate d.gate a }
  match listenerCall d.gate a with
  | some call => d'.notifyGateEvent call
  | none => d'

/-- `handle_command` up to its dispatch. A motion command is left pending. -/
def handleCommand (cfg : Config) (d : Device) (commandId : List UInt8) (kind : CommandKind)
    (ota : Ota) (deadlineMs : BitVec 32) : Device :=
  if cfg.dispatcherWired = false then
    { d with acks := d.acks ++ [⟨commandId,false,"no command dispatcher wired"⟩] }
  else
    let r := dispatcher ota kind
    let d' := { d with gate := exec (Control.step cfg.gate) d.gate r.2 }
    if r.1.accepted = false then { d' with acks := d.acks ++ [⟨commandId,false,r.1.error⟩] }
    else if r.1.completedNow = true then { d' with acks := d.acks ++ [⟨commandId,true,""⟩] }
    else if r.1.externalCompletion = true then d'
    else { d' with pending := some ⟨commandId,r.1.terminalOk,deadlineMs⟩ }

/-- The client's task handles one command at a time and looks at the clock between
commands only. -/
def step (cfg : Config) (d : Device) : DeviceInput → Device
  | .gate a => d.runGate cfg a
  | .command commandId kind ota deadlineMs =>
    if d.pending = none then d.handleCommand cfg commandId kind ota deadlineMs else d
  | .arm => match d.pending with
    | some p => { d.armWith p with pending := none }
    | none => d
  | .tick nowMs => if d.pending = none then d.record (d.tracker.onTick nowMs) else d
  | .complete commandId success error =>
    { d with acks := d.acks ++ [⟨commandId,success,error⟩] }

/-- The order of the simulator's `issue`: the tracker is armed before the event is
dispatched. -/
def issue (cfg : Config) (d : Device) (commandId : List UInt8) (kind : CommandKind)
    (ota : Ota) (deadlineMs : BitVec 32) : Device :=
  let d' := d.handleCommand cfg commandId kind ota deadlineMs
  match d'.pending with
  | some p => { d.armWith p with gate := d'.gate, pending := some p }
  | none => d'

/-- The reference: the same tasks, but a command is armed when it is issued, and the
client's task is only busy until the point where the device arms. -/
def issueStep (cfg : Config) (d : Device) : DeviceInput → Device
  | .command commandId kind ota deadlineMs =>
    if d.pending = none then d.issue cfg commandId kind ota deadlineMs else d
  | .arm => { d with pending := none }
  | .gate a => d.step cfg (.gate a)
  | .tick nowMs => d.step cfg (.tick nowMs)
  | .complete commandId success error => d.step cfg (.complete commandId success error)

end Device

end AlprGate.Rpc
