import AlprGate.Library.BoundedQueue
import AlprGate.Library.Transition
import AlprGate.Firmware.Drivers
import AlprGate.Firmware.StateMachine

/-! # The driver layer that animates the state machine

One queue of sixteen events, one consumer. `start` resolves the boot position on
the main task and then spawns the pump; afterwards only the pump touches the
machine, the relays and the timers. Both run as a list of elementary operations,
so every other task may act between any two of them: each relay write, each timer
call, each read of a limit switch and the policy's own post is one step of a run.
Taking an event off the queue and handling it is one step as well, because nobody
else sees the machine in between.
-/
namespace AlprGate.Control
open StateMachine Drivers BoundedQueue

structure Config where
  sm : StateMachine.Config := {}
  reverseOnBeam : Bool := true
  deriving DecidableEq, Repr

def kQueueDepth : ℕ := 16

/-- Elementary operations of `execute`, `manage_timers`, `apply_policies` and the
listener call. -/
inductive Op where
  | setRelayOpen (on : Bool)
  | setRelayClose (on : Bool)
  | render (p : Pattern)
  | storeState
  | storeReason
  | stopWatchdog
  | startWatchdog
  | stopAutoclose
  | startAutoclose
  | post (ev : Event)
  | notify (s : State) (r : Reason) (transitioned : Bool)
  deriving DecidableEq, Repr

/-- Where the controller's own code stands once its elementary operations are done.
The first eight stages are the body of `start`. -/
inductive Stage where
  | constructed
  | prelatch
  | readOpen
  | resolve (openActive : Bool)
  | registerLimitOpen
  | registerLimitClosed
  | registerBeam
  | createTask
  | noTask
  | pump
  | pumpReadOpen
  | pumpResolve (openActive : Bool)
  deriving DecidableEq, Repr

structure Controller where
  sm : Machine := {}
  relayOpen : Relay := {}
  relayClose : Relay := {}
  limitOpen : Debouncer
  limitClosed : Debouncer
  beam : Debouncer
  led : Pattern := .off
  stateSnapshot : State := .initializing
  reasonSnapshot : Reason := .none
  queue : List Event := []
  watchdogArmed : Bool := false
  autocloseArmed : Bool := false
  stage : Stage := .constructed
  ops : List Op := []
  deriving DecidableEq, Repr

/-- Construction with the GPIO levels of the three inputs. -/
def construct (limitOpen limitClosed beam : Bool) : Controller :=
  { limitOpen := LimitSwitch.init limitOpen, limitClosed := LimitSwitch.init limitClosed,
    beam := SafetyBeam.init beam }

/-- A full queue drops the event; the firmware logs a warning and moves on. -/
def Controller.post (s : Controller) (ev : Event) : Controller :=
  { s with queue := offer kQueueDepth s.queue ev }

/-- The callback of an input, if an edge was committed and one is registered. -/
def Controller.callback (s : Controller) (registered : Bool) (edge : Option Bool)
    (whenTrue whenFalse : Event) : Controller :=
  match edge with
  | some v => if registered then s.post (if v then whenTrue else whenFalse) else s
  | none => s

def Controller.pollLimitOpen (s : Controller) (level : Bool) : Controller :=
  let r := LimitSwitch.onPoll s.limitOpen level
  { s with limitOpen := r.1 }.callback r.1.hasCallback r.2 .limitOpenHit .limitOpenReleased

def Controller.pollLimitClosed (s : Controller) (level : Bool) : Controller :=
  let r := LimitSwitch.onPoll s.limitClosed level
  { s with limitClosed := r.1 }.callback r.1.hasCallback r.2 .limitClosedHit .limitClosedReleased

def Controller.pollBeam (s : Controller) (level : Bool) : Controller :=
  let r := SafetyBeam.onPoll s.beam level
  { s with beam := r.1 }.callback r.1.hasCallback r.2 .safetyBeamTripped .safetyBeamCleared

/-- A one-shot that is not armed does not fire. -/
def Controller.watchdogFires (s : Controller) : Controller :=
  if s.watchdogArmed then { s with watchdogArmed := false }.post .motorTimeout else s

def Controller.autocloseFires (s : Controller) : Controller :=
  if s.autocloseArmed then { s with autocloseArmed := false }.post .commandClose else s

/-- Break before make: the opposing contactor is dropped first. The telemetry action
is a log line. -/
def actionOps : Action → List Op
  | .driveMotorOpen => [.setRelayClose false, .setRelayOpen true]
  | .driveMotorClose => [.setRelayOpen false, .setRelayClose true]
  | .stopMotor => [.setRelayOpen false, .setRelayClose false]
  | .setLedClosed => [.render .off]
  | .setLedOpening | .setLedClosing => [.render .gateMoving]
  | .setLedOpen => [.render .gateOpen]
  | .setLedStopped => [.render .gateStopped]
  | .setLedFault => [.render .faultSlow]
  | .emitTelemetryStateChanged | .none => []

def execute (out : Outputs) : List Op :=
  out.actions.flatMap actionOps ++ [.storeState, .storeReason]

def manageTimers (cfg : Config) (out : Outputs) : List Op :=
  if out.transitioned = false then []
  else
    [.stopWatchdog] ++
    (if (out.newState = .opening ∨ out.newState = .closing) ∧ 0 < cfg.sm.motorTimeoutMs then
      [.startWatchdog] else []) ++
    [.stopAutoclose] ++
    (if out.newState = .open ∧ 0 < cfg.sm.autoCloseMs then [.startAutoclose] else [])

def applyPolicies (cfg : Config) (out : Outputs) : List Op :=
  if cfg.reverseOnBeam ∧ out.transitioned ∧ out.newState = .stoppedClose ∧
      out.reason = .safetyBeamObstacle then [.post .commandOpen]
  else if out.transitioned = false ∧ out.newState = .open ∧ out.reason = .safetyBeamObstacle ∧
      0 < cfg.sm.autoCloseMs then [.stopAutoclose, .startAutoclose]
  else []

/-- The listener hears transitions and refusals that carry a reason. -/
def listener (out : Outputs) : List Op :=
  if out.transitioned ∨ out.reason ≠ .none then [.notify out.newState out.reason out.transitioned]
  else []

/-- What the pump runs after an event was handled. -/
def pumpProgram (cfg : Config) (out : Outputs) : List Op :=
  execute out ++ manageTimers cfg out ++ applyPolicies cfg out ++ listener out

def Controller.runOp (s : Controller) : Op → Controller
  | .setRelayOpen on => { s with relayOpen := s.relayOpen.set on }
  | .setRelayClose on => { s with relayClose := s.relayClose.set on }
  | .render p => { s with led := p }
  | .storeState => { s with stateSnapshot := s.sm.state }
  | .storeReason => { s with reasonSnapshot := s.sm.reason }
  | .stopWatchdog => { s with watchdogArmed := false }
  | .startWatchdog => { s with watchdogArmed := true }
  | .stopAutoclose => { s with autocloseArmed := false }
  | .startAutoclose => { s with autocloseArmed := true }
  | .post ev => s.post ev
  | .notify _ _ _ => s

/-- What the two limit switches prove; both or neither is no position. -/
def initFrom (openActive closedActive : Bool) (m : Machine) : Machine × Outputs :=
  if closedActive = true ∧ openActive = false then initClosed m
  else if openActive = true ∧ closedActive = false then initOpen m
  else initUnknown m

/-- The second half of `resolve_boot_position`, after the open limit was read. -/
def Controller.resolveBootPosition (cfg : Config) (s : Controller) (openActive : Bool)
    (next : Stage) : Controller :=
  let r := initFrom openActive s.limitClosed.committed s.sm
  { s with sm := r.1, ops := execute r.2 ++ manageTimers cfg r.2, stage := next }

/-- The next elementary step of whichever task runs the controller's code. -/
def Controller.advance (cfg : Config) (s : Controller) : Controller :=
  match s.ops with
  | op :: rest => { s with ops := rest }.runOp op
  | [] =>
    match s.stage with
    | .prelatch =>
      { s with sm := if s.beam.committed then (handle s.sm .safetyBeamTripped).1 else s.sm,
               stage := .readOpen }
    | .readOpen => { s with stage := .resolve s.limitOpen.committed }
    | .resolve openActive => s.resolveBootPosition cfg openActive .registerLimitOpen
    | .registerLimitOpen =>
      { s with limitOpen := s.limitOpen.setCallback, stage := .registerLimitClosed }
    | .registerLimitClosed =>
      { s with limitClosed := s.limitClosed.setCallback, stage := .registerBeam }
    | .registerBeam => { s with beam := s.beam.setCallback, stage := .createTask }
    | .createTask => { s with stage := .pump }
    | .pumpReadOpen => { s with stage := .pumpResolve s.limitOpen.committed }
    | .pumpResolve openActive => s.resolveBootPosition cfg openActive .pump
    | .constructed | .noTask | .pump => s

/-- `FaultCleared` sends the pump through `resolve_boot_position` before it receives
again. -/
def stageAfter (ev : Event) (out : Outputs) : Stage :=
  if ev = .faultCleared ∧ out.transitioned ∧ out.newState = .initializing then .pumpReadOpen
  else .pump

/-- One iteration of the pump up to its elementary operations. -/
def Controller.receive (cfg : Config) (s : Controller) : Controller :=
  match s.stage, s.ops, s.queue with
  | .pump, [], ev :: rest =>
    let r := handle s.sm ev
    { s with sm := r.1, queue := rest, stage := stageAfter ev r.2,
             ops := pumpProgram cfg r.2 }
  | _, _, _ => s

inductive Command where
  | open | close | stop | clearFault
  deriving DecidableEq, Repr

def Command.event : Command → Event
  | .open => .commandOpen
  | .close => .commandClose
  | .stop => .commandStop
  | .clearFault => .faultCleared

/-- Everything that can happen next: the controller's own code moves, a driver polls
its pin, a one-shot fires, or some task calls an entry point. -/
inductive Input where
  | start
  | advance
  | createFails
  | receive
  | pollLimitOpen (level : Bool)
  | pollLimitClosed (level : Bool)
  | pollBeam (level : Bool)
  | watchdogFires
  | autocloseFires
  | command (c : Command)
  | showLedPattern (p : Pattern)
  deriving DecidableEq, Repr

def step (cfg : Config) (s : Controller) : Input → Controller
  | .start => if s.stage = .constructed then { s with stage := .prelatch } else s
  | .advance => s.advance cfg
  | .createFails => if s.stage = .createTask ∧ s.ops = [] then { s with stage := .noTask } else s
  | .receive => s.receive cfg
  | .pollLimitOpen level => s.pollLimitOpen level
  | .pollLimitClosed level => s.pollLimitClosed level
  | .pollBeam level => s.pollBeam level
  | .watchdogFires => s.watchdogFires
  | .autocloseFires => s.autocloseFires
  | .command c => s.post c.event
  | .showLedPattern p => { s with led := p }

/-- Schedules without interference: a boot to the end of `start`, and one pump step
to its end. -/
def boot : List Input := .start :: List.replicate 20 .advance

def pumpOnce : List Input := .receive :: List.replicate 12 .advance

/-- `start` has returned, with or without a pump task. -/
def Controller.started (s : Controller) : Prop :=
  s.stage = .noTask ∨ s.stage = .pump ∨ s.stage = .pumpReadOpen ∨
    ∃ b, s.stage = .pumpResolve b

/-- The pump has completed its last step and waits on the queue. -/
def Controller.Idle (s : Controller) : Prop := s.stage = .pump ∧ s.ops = []

instance (s : Controller) : Decidable s.Idle := inferInstanceAs (Decidable (_ ∧ _))

end AlprGate.Control
