import Mathlib.Tactic.Common

/-! # The hardware-agnostic gate state machine

Events in, a transition and at most three driver actions out. The transition
function follows the branches of the firmware's `handle` in their order: the beam
latch first, then operator stop, fault reset and motor timeout, and only then the
switch over the current state.
-/
namespace AlprGate.StateMachine

inductive State where
  | initializing | closed | opening | open | closing | stoppedOpen | stoppedClose | faulted
  deriving DecidableEq, Repr

inductive Event where
  | commandOpen | commandClose | commandStop
  | limitOpenHit | limitOpenReleased | limitClosedHit | limitClosedReleased
  | safetyBeamTripped | safetyBeamCleared
  | motorTimeout | faultCleared
  deriving DecidableEq, Repr

inductive Action where
  | none | driveMotorOpen | driveMotorClose | stopMotor
  | setLedClosed | setLedOpening | setLedOpen | setLedClosing | setLedStopped | setLedFault
  | emitTelemetryStateChanged
  deriving DecidableEq, Repr

inductive Reason where
  | none | operatorStop | safetyBeamObstacle | motorTimeout | limitSwitchConflict | unexpectedEvent
  deriving DecidableEq, Repr

/-- Only the two timer budgets are read, and by the driver layer alone. -/
structure Config where
  motorTimeoutMs : ℕ := 30000
  autoCloseMs : ℕ := 0
  deriving DecidableEq, Repr

def kMaxActionsPerStep : ℕ := 3

structure Outputs where
  actions : List Action := []
  newState : State := .initializing
  transitioned : Bool := false
  reason : Reason := .none
  deriving DecidableEq, Repr

/-- A fourth action would be dropped silently. -/
def push (o : Outputs) (a : Action) : Outputs :=
  if o.actions.length < kMaxActionsPerStep then { o with actions := o.actions ++ [a] } else o

/-- The mutable members of the `StateMachine` class. -/
structure Machine where
  state : State := .initializing
  reason : Reason := .none
  beamClear : Bool := true
  deriving DecidableEq, Repr

def State.toString : State → String
  | .initializing => "Initializing"
  | .closed => "Closed"
  | .opening => "Opening"
  | .open => "Open"
  | .closing => "Closing"
  | .stoppedOpen => "StoppedOpen"
  | .stoppedClose => "StoppedClose"
  | .faulted => "Faulted"

def Reason.toString : Reason → String
  | .none => "None"
  | .operatorStop => "OperatorStop"
  | .safetyBeamObstacle => "SafetyBeamObstacle"
  | .motorTimeout => "MotorTimeout"
  | .limitSwitchConflict => "LimitSwitchConflict"
  | .unexpectedEvent => "UnexpectedEvent"

/-- A transition: the new state and stored reason, the reason reported in the
outputs, and the actions pushed in order. -/
def Machine.enter (m : Machine) (s : State) (stored reported : Reason) (actions : List Action) :
    Machine × Outputs :=
  ({ m with state := s, reason := stored },
    actions.foldl push { newState := s, transitioned := true, reason := reported })

/-- No transition and no action; the outputs only repeat the current state. -/
def Machine.ignore (m : Machine) : Machine × Outputs := (m, { newState := m.state })

def initClosed (m : Machine) : Machine × Outputs :=
  m.enter .closed .none .none [.stopMotor, .setLedClosed, .emitTelemetryStateChanged]

def initOpen (m : Machine) : Machine × Outputs :=
  m.enter .open .none .none [.stopMotor, .setLedOpen, .emitTelemetryStateChanged]

def initUnknown (m : Machine) : Machine × Outputs :=
  m.enter .faulted .limitSwitchConflict .limitSwitchConflict
    [.stopMotor, .setLedFault, .emitTelemetryStateChanged]

/-- The beam latch records the last beam edge, whatever the state. -/
def latch (clear : Bool) : Event → Bool
  | .safetyBeamTripped => false
  | .safetyBeamCleared => true
  | _ => clear

/-- The switch over the current state; `m` already carries the updated latch. -/
def handleState (m : Machine) (ev : Event) : Machine × Outputs :=
  match m.state with
  | .closed =>
    if ev = .commandOpen then
      m.enter .opening m.reason .none [.driveMotorOpen, .setLedOpening, .emitTelemetryStateChanged]
    else m.ignore
  | .opening =>
    if ev = .limitOpenHit then
      m.enter .open m.reason .none [.stopMotor, .setLedOpen, .emitTelemetryStateChanged]
    else m.ignore
  | .open =>
    if ev = .commandClose then
      if m.beamClear = false then
        -- the refusal is reported with a reason but is no transition
        (m, { push { newState := m.state } .emitTelemetryStateChanged with
          reason := .safetyBeamObstacle })
      else
        m.enter .closing m.reason .none
          [.driveMotorClose, .setLedClosing, .emitTelemetryStateChanged]
    else m.ignore
  | .closing =>
    if ev = .limitClosedHit then
      m.enter .closed m.reason .none [.stopMotor, .setLedClosed, .emitTelemetryStateChanged]
    else if ev = .safetyBeamTripped then
      m.enter .stoppedClose .safetyBeamObstacle .safetyBeamObstacle
        [.stopMotor, .setLedStopped, .emitTelemetryStateChanged]
    else m.ignore
  | .stoppedOpen | .stoppedClose =>
    if ev = .commandOpen then
      m.enter .opening .none .none [.driveMotorOpen, .setLedOpening, .emitTelemetryStateChanged]
    else if ev = .commandClose ∧ m.beamClear = true then
      m.enter .closing .none .none [.driveMotorClose, .setLedClosing, .emitTelemetryStateChanged]
    else m.ignore
  | .faulted | .initializing => m.ignore

def handle (m₀ : Machine) (ev : Event) : Machine × Outputs :=
  let m := { m₀ with beamClear := latch m₀.beamClear ev }
  if ev = .commandStop then
    if m.state = .opening then
      m.enter .stoppedOpen .operatorStop .operatorStop
        [.stopMotor, .setLedStopped, .emitTelemetryStateChanged]
    else if m.state = .closing then
      m.enter .stoppedClose .operatorStop .operatorStop
        [.stopMotor, .setLedStopped, .emitTelemetryStateChanged]
    else m.ignore
  else if ev = .faultCleared then
    if m.state = .faulted then
      m.enter .initializing .none .none [.emitTelemetryStateChanged]
    else m.ignore
  else if ev = .motorTimeout then
    if m.state = .opening ∨ m.state = .closing then
      m.enter .faulted .motorTimeout .motorTimeout
        [.stopMotor, .setLedFault, .emitTelemetryStateChanged]
    else m.ignore
  else handleState m ev

/-- The transition table: current state, event, next state, stored reason, reported
reason and actions, given the beam latch and the reason stored before. -/
inductive Edge (clear : Bool) (r : Reason) :
    State → Event → State → Reason → Reason → List Action → Prop
  | openFromClosed : Edge clear r .closed .commandOpen .opening r .none
      [.driveMotorOpen, .setLedOpening, .emitTelemetryStateChanged]
  | reachOpen : Edge clear r .opening .limitOpenHit .open r .none
      [.stopMotor, .setLedOpen, .emitTelemetryStateChanged]
  | closeFromOpen : clear = true → Edge clear r .open .commandClose .closing r .none
      [.driveMotorClose, .setLedClosing, .emitTelemetryStateChanged]
  | reachClosed : Edge clear r .closing .limitClosedHit .closed r .none
      [.stopMotor, .setLedClosed, .emitTelemetryStateChanged]
  | beamStop : Edge clear r .closing .safetyBeamTripped .stoppedClose
      .safetyBeamObstacle .safetyBeamObstacle
      [.stopMotor, .setLedStopped, .emitTelemetryStateChanged]
  | resumeOpen {s : State} : s = .stoppedOpen ∨ s = .stoppedClose →
      Edge clear r s .commandOpen .opening .none .none
      [.driveMotorOpen, .setLedOpening, .emitTelemetryStateChanged]
  | resumeClose {s : State} : s = .stoppedOpen ∨ s = .stoppedClose → clear = true →
      Edge clear r s .commandClose .closing .none .none
      [.driveMotorClose, .setLedClosing, .emitTelemetryStateChanged]
  | stopOpening : Edge clear r .opening .commandStop .stoppedOpen .operatorStop .operatorStop
      [.stopMotor, .setLedStopped, .emitTelemetryStateChanged]
  | stopClosing : Edge clear r .closing .commandStop .stoppedClose .operatorStop .operatorStop
      [.stopMotor, .setLedStopped, .emitTelemetryStateChanged]
  | resetFault : Edge clear r .faulted .faultCleared .initializing .none .none
      [.emitTelemetryStateChanged]
  | timeout {s : State} : s = .opening ∨ s = .closing →
      Edge clear r s .motorTimeout .faulted .motorTimeout .motorTimeout
      [.stopMotor, .setLedFault, .emitTelemetryStateChanged]

/-- A close command that finds the gate open and the beam latch set. -/
def Refused (m : Machine) (ev : Event) : Prop :=
  m.state = .open ∧ ev = .commandClose ∧ m.beamClear = false

/-- An edge of the table is what the machine does. -/
theorem Edge.handle_eq {m : Machine} {ev : Event} {s : State} {stored reported : Reason}
    {actions : List Action} (h : Edge m.beamClear m.reason m.state ev s stored reported actions) :
    handle m ev = (⟨s,stored,latch m.beamClear ev⟩,⟨actions,s,true,reported⟩) := by
  rcases m with ⟨state,reason,clear⟩
  dsimp only at h ⊢
  cases h with
  | openFromClosed => rfl
  | reachOpen => rfl
  | closeFromOpen hclear =>
    subst hclear
    rfl
  | reachClosed => rfl
  | beamStop => rfl
  | resumeOpen hstopped =>
    rcases hstopped with rfl | rfl
    · rfl
    · rfl
  | resumeClose hstopped hclear =>
    subst hclear
    rcases hstopped with rfl | rfl
    · rfl
    · rfl
  | stopOpening => rfl
  | stopClosing => rfl
  | resetFault => rfl
  | timeout hmoving =>
    rcases hmoving with rfl | rfl
    · rfl
    · rfl

theorem Refused.handle_eq {m : Machine} {ev : Event} (h : Refused m ev) :
    handle m ev = (m,⟨[.emitTelemetryStateChanged],.open,false,.safetyBeamObstacle⟩) := by
  rcases m with ⟨state,reason,clear⟩
  obtain ⟨rfl,rfl,rfl⟩ := h
  rfl

/-- An event that is neither an edge nor refused only updates the latch. -/
theorem handle_quiet {m : Machine} {ev : Event}
    (h : handle m ev = ({ m with beamClear := latch m.beamClear ev },{ newState := m.state })) :
    (∀ s stored reported actions,
      ¬ Edge m.beamClear m.reason m.state ev s stored reported actions) ∧ ¬ Refused m ev := by
  constructor
  · intro s stored reported actions hedge
    rw [hedge.handle_eq] at h
    cases h
  · intro hrefused
    rw [hrefused.handle_eq] at h
    have hreason := congrArg (fun r => r.2.reason) h
    cases hreason

/-- Every event is an edge of the table, refused, or quiet. -/
theorem edge_or_refused_or_quiet (m : Machine) (ev : Event) :
    (∃ s stored reported actions, Edge m.beamClear m.reason m.state ev s stored reported actions ∧
      handle m ev = (⟨s,stored,latch m.beamClear ev⟩,⟨actions,s,true,reported⟩)) ∨
    Refused m ev ∨
    handle m ev = ({ m with beamClear := latch m.beamClear ev },{ newState := m.state }) := by
  rcases m with ⟨state,reason,clear⟩
  cases state <;> cases ev <;> cases clear <;>
    first
    | exact .inr (.inr rfl)
    | exact .inr (.inl ⟨rfl,rfl,rfl⟩)
    | exact .inl ⟨_,_,_,_,by constructor <;> simp,rfl⟩

/-- Everything one event can do: follow an edge of the table, be refused by the
beam latch, or only update the latch. -/
theorem handle_cases (m : Machine) (ev : Event) :
    (∃ s stored reported actions, Edge m.beamClear m.reason m.state ev s stored reported actions ∧
      handle m ev = (⟨s,stored,latch m.beamClear ev⟩,⟨actions,s,true,reported⟩)) ∨
    (Refused m ev ∧
      handle m ev = (m,⟨[.emitTelemetryStateChanged],.open,false,.safetyBeamObstacle⟩)) ∨
    ((∀ s stored reported actions,
        ¬ Edge m.beamClear m.reason m.state ev s stored reported actions) ∧ ¬ Refused m ev ∧
      handle m ev = ({ m with beamClear := latch m.beamClear ev },{ newState := m.state })) := by
  rcases edge_or_refused_or_quiet m ev with hedge | hrefused | hquiet
  · exact .inl hedge
  · exact .inr (.inl ⟨hrefused,hrefused.handle_eq⟩)
  · obtain ⟨hnone,hnot⟩ := handle_quiet hquiet
    exact .inr (.inr ⟨hnone,hnot,hquiet⟩)

theorem handle_beamClear (m : Machine) (ev : Event) :
    (handle m ev).1.beamClear = latch m.beamClear ev := by
  rcases handle_cases m ev with ⟨s,stored,reported,actions,-,hm⟩ | ⟨⟨-,rfl,-⟩,hm⟩ | ⟨-,-,hm⟩
  · rw [hm]
  · rw [hm]
    rfl
  · rw [hm]

end AlprGate.StateMachine
