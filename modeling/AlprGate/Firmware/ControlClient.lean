import AlprGate.Firmware.CommandTracker
import AlprGate.Firmware.Outbound

/-! # The control client and the tasks that use it

The `gate_rpc` task connects, pumps the session, handles commands and watches the
tracker's deadline. The gate's pump reports gate events, and the OTA task completes its own
command. All three send through `send_envelope`, so each task is the list of the elementary
operations it has still to run, and a run interleaves them at will: the session may end
between the look at the connected flag and the post to the queue.
-/
namespace AlprGate.Rpc
open StateMachine

/-- The wire enumeration `GateState`. -/
inductive WireState where
  | unknown | closed | opening | open | closing | fault | lockdown
  deriving DecidableEq, Repr

/-- There is no wire value for a gate that has stopped half-way. -/
def toWireState : State → WireState
  | .closed => .closed
  | .opening => .opening
  | .open => .open
  | .closing => .closing
  | .faulted => .fault
  | .initializing | .stoppedOpen | .stoppedClose => .unknown

structure Timestamp where
  seconds : ℤ
  nanos : ℤ
  deriving DecidableEq, Repr

/-- What the two clocks of the controller read: milliseconds since boot, and the wall clock. -/
structure Clocks where
  nowMs : BitVec 32 := 0
  sec : ℤ := 0
  usec : ℤ := 0
  deriving DecidableEq, Repr

/-- Before SNTP has synced, a timestamp is left out. -/
def fillWallclock (c : Clocks) : Option Timestamp :=
  if c.sec < 1700000000 then none else some ⟨c.sec,c.usec * 1000⟩

/-- The copy keeps one byte for the terminator. -/
def copyStr (cap : ℕ) (src : List UInt8) : List UInt8 := src.take (cap - 1)

theorem length_copyStr {cap : ℕ} (h : 0 < cap) (src : List UInt8) :
    (copyStr cap src).length < cap := by
  rw [copyStr, List.length_take]
  omega

def utf8 (s : String) : List UInt8 := s.toList.flatMap String.utf8EncodeChar

def kMaxErrorText : ℕ := 96

/-- The texts fit the arrays of the generated message. -/
structure CommandAck where
  commandId : List UInt8
  receivedTs : Option Timestamp := none
  completedTs : Option Timestamp := none
  completed : Bool := false
  success : Bool := false
  errorText : List UInt8 := []
  stateAfter : WireState
  commandId_lt : commandId.length < kMaxCommandId
  errorText_lt : errorText.length < kMaxErrorText
  deriving DecidableEq, Repr

structure Telemetry where
  seq : BitVec 64 := 0
  sentTs : Option Timestamp := none
  gateState : WireState := .unknown
  limitOpen : Bool := false
  limitClosed : Bool := false
  safetyBeamClear : Bool := false
  deriving DecidableEq, Repr

/-- The payloads that the firmware sends. -/
inductive ControlEnvelope where
  | telemetry (t : Telemetry)
  | ack (a : CommandAck)
  deriving DecidableEq, Repr

/-- The largest encoding of an ack in its envelope: a tag, a length of two bytes and the
generated `CommandAck_size`. -/
def kMaxAckEnvelope : ℕ := 1 + 2 + 192

/-- The generated encoder. An ack always fits the bound that is generated with it. -/
structure Codec where
  encode : ControlEnvelope → Option (List UInt8)
  encode_ack : ∀ a, ∃ body, encode (.ack a) = some body ∧ body.length ≤ kMaxAckEnvelope

structure ClientConfig where
  codec : Codec
  dispatcherWired : Bool := true
  commandDeadlineMs : BitVec 32 := 40000

/-- An envelope on its way through `send_envelope`; a completion keeps the decision it
reports. -/
inductive Outgoing where
  | telemetry (t : Telemetry)
  | received (a : CommandAck)
  | completed (v : Verdict) (a : CommandAck)
  deriving DecidableEq, Repr

def Outgoing.envelope : Outgoing → ControlEnvelope
  | .telemetry t => .telemetry t
  | .received a => .ack a
  | .completed _ a => .ack a

def Outgoing.completion : Outgoing → Option Verdict
  | .completed v _ => some v
  | _ => none

inductive ClientTask where
  | rpc | ctrl | ota
  deriving DecidableEq, Repr

/-- What a task does between two points at which another one may run. `check` encodes an
envelope and reads the connected flag, `post` sends the frame to the queue. -/
inductive ClientOp where
  | storeWireState (w : WireState)
  | sendAckReceived (commandId : List UInt8)
  | dispatch (commandId : List UInt8) (r : DispatchResult)
  | arm (commandId : List UInt8) (terminalOk : State)
  | gateEvent (s : State) (r : Reason) (transitioned : Bool)
  | sendAckCompleted (v : Verdict)
  | check (m : Outgoing)
  | post (m : Outgoing) (body : List UInt8)
  deriving DecidableEq, Repr

/-- The completion that an operation has still to send. -/
def ClientOp.completion : ClientOp → Option Verdict
  | .sendAckCompleted v => some v
  | .check m => m.completion
  | .post m _ => m.completion
  | _ => none

/-- The completions among the operations of a task. -/
def owed (l : List ClientOp) : List Verdict := l.filterMap ClientOp.completion

/-- Where the `gate_rpc` task is: before a session, in one, or behind one with the queue still
to be reset. -/
inductive Phase where
  | offline | live | closing
  deriving DecidableEq, Repr

/-- The completions in `resolved` have been decided. Of these, `delivered` were on the queue of
a live session, `waiting` are on the queue while there is none, and `lost` were given up. -/
structure ControlClient where
  phase : Phase := .offline
  connected : Bool := false
  outbound : Outbound := {}
  tracker : CommandTracker := {}
  lastWireState : WireState := .unknown
  telemetrySeq : BitVec 64 := 0
  rpc : List ClientOp := []
  ctrl : List ClientOp := []
  ota : List ClientOp := []
  resolved : List Verdict := []
  delivered : List Verdict := []
  waiting : List Verdict := []
  lost : List Verdict := []
  deriving DecidableEq, Repr

/-- The session's own frame and offset start afresh, the queue is the client's. -/
def Outbound.session (o : Outbound) : Outbound :=
  { queue := o.queue, queued := o.queue.map fun frame => frame.drop kFrameHeaderSize }

inductive ClientInput where
  | connect (t : Telemetry)
  | connectFails
  | telemetry (t : Telemetry)
  | tick (nowMs : BitVec 32)
  | refill
  | dataRead (length : ℕ)
  | command (commandId : List UInt8) (r : DispatchResult)
  | disconnect
  | reset
  | gateEvent (s : State) (r : Reason) (transitioned : Bool)
  | complete (commandId : List UInt8) (success : Bool) (error : String)
  | run (t : ClientTask) (now : Clocks)
  deriving DecidableEq, Repr

namespace ControlClient

def ops (c : ControlClient) : ClientTask → List ClientOp
  | .rpc => c.rpc
  | .ctrl => c.ctrl
  | .ota => c.ota

def setOps (c : ControlClient) (t : ClientTask) (l : List ClientOp) : ControlClient :=
  match t with
  | .rpc => { c with rpc := l }
  | .ctrl => { c with ctrl := l }
  | .ota => { c with ota := l }

/-- The task `t` goes on to send the completion and then to do `rest`. -/
def settle (c : ControlClient) (t : ClientTask) (rest : List ClientOp) (v : Verdict) :
    ControlClient :=
  { c.setOps t (.sendAckCompleted v :: rest) with resolved := c.resolved ++ [v] }

/-- A call of the tracker under its mutex. -/
def track (c : ControlClient) (t : ClientTask) (rest : List ClientOp)
    (r : CommandTracker × Option Verdict) : ControlClient :=
  match r.2 with
  | some v => { c with tracker := r.1 }.settle t rest v
  | none => { c.setOps t rest with tracker := r.1 }

/-- `send_envelope` returns false. -/
def drop (c : ControlClient) (m : Outgoing) : ControlClient :=
  { c with lost := c.lost ++ m.completion.toList }

/-- The frame is on the queue. -/
def keep (c : ControlClient) (m : Outgoing) : ControlClient :=
  if c.connected = true then { c with delivered := c.delivered ++ m.completion.toList }
  else { c with waiting := c.waiting ++ m.completion.toList }

def ackReceived (c : ControlClient) (commandId : List UInt8) (now : Clocks) : CommandAck :=
  { commandId := copyStr kMaxCommandId commandId
    receivedTs := fillWallclock now
    stateAfter := c.lastWireState
    commandId_lt := length_copyStr (by decide) commandId
    errorText_lt := by decide }

def ackCompleted (c : ControlClient) (v : Verdict) (now : Clocks) : CommandAck :=
  { commandId := copyStr kMaxCommandId v.commandId
    completedTs := fillWallclock now
    completed := true
    success := v.success
    errorText := copyStr kMaxErrorText (if v.success = true then [] else utf8 v.error)
    stateAfter := c.lastWireState
    commandId_lt := length_copyStr (by decide) v.commandId
    errorText_lt := length_copyStr (by decide) _ }

/-- `handle_command` from the call of the dispatcher on. -/
def dispatch (cfg : ClientConfig) (c : ControlClient) (t : ClientTask) (rest : List ClientOp)
    (commandId : List UInt8) (r : DispatchResult) : ControlClient :=
  if cfg.dispatcherWired = false then
    c.settle t rest ⟨commandId,false,"no command dispatcher wired"⟩
  else if r.accepted = false then c.settle t rest ⟨commandId,false,r.error⟩
  else if r.completedNow = true then c.settle t rest ⟨commandId,true,""⟩
  else if r.externalCompletion = true then c.setOps t rest
  else c.setOps t (.arm commandId r.terminalOk :: rest)

def runOp (cfg : ClientConfig) (c : ControlClient) (t : ClientTask) (rest : List ClientOp)
    (now : Clocks) : ClientOp → ControlClient
  | .storeWireState w => { c.setOps t rest with lastWireState := w }
  | .sendAckReceived commandId =>
    c.setOps t (.check (.received (c.ackReceived commandId now)) :: rest)
  | .dispatch commandId r => c.dispatch cfg t rest commandId r
  | .arm commandId terminalOk =>
    c.track t rest (c.tracker.arm commandId terminalOk (now.nowMs + cfg.commandDeadlineMs))
  | .gateEvent s r transitioned => c.track t rest (c.tracker.onGateEvent s r transitioned)
  | .sendAckCompleted v => c.setOps t (.check (.completed v (c.ackCompleted v now)) :: rest)
  | .check m =>
    match pbEncode cfg.codec.encode m.envelope with
    | some body => if c.connected = true then c.setOps t (.post m body :: rest)
      else (c.setOps t rest).drop m
    | none => (c.setOps t rest).drop m
  | .post m body =>
    if (c.outbound.enqueue body).2 = true then
      { c.setOps t rest with outbound := (c.outbound.enqueue body).1 }.keep m
    else (c.setOps t rest).drop m

def sendTelemetry (c : ControlClient) (t : Telemetry) : ControlClient :=
  { c with
    telemetrySeq := c.telemetrySeq + 1
    rpc := [.storeWireState t.gateState, .check (.telemetry { t with seq := c.telemetrySeq })] }

/-- The `gate_rpc` task is in a phase and between two of its calls there. -/
def At (c : ControlClient) (p : Phase) : Prop := c.phase = p ∧ c.rpc = []

instance (c : ControlClient) (p : Phase) : Decidable (c.At p) :=
  inferInstanceAs (Decidable (_ ∧ _))

def step (cfg : ClientConfig) (c : ControlClient) : ClientInput → ControlClient
  | .connect t =>
    if c.At .offline then
      { c with
        phase := .live
        connected := true
        outbound := c.outbound.session
        delivered := c.delivered ++ c.waiting
        waiting := [] }.sendTelemetry t
    else c
  | .connectFails => if c.At .offline then { c with phase := .closing } else c
  | .telemetry t => if c.At .live then c.sendTelemetry t else c
  | .tick nowMs => if c.At .live then c.track .rpc [] (c.tracker.onTick nowMs) else c
  | .refill => if c.At .live then { c with outbound := c.outbound.refill } else c
  | .dataRead length =>
    if c.At .live then { c with outbound := (c.outbound.dataRead length).1 } else c
  | .command commandId r =>
    if c.At .live then { c with rpc := [.sendAckReceived commandId, .dispatch commandId r] } else c
  | .disconnect => if c.At .live then { c with phase := .closing, connected := false } else c
  | .reset =>
    if c.At .closing then
      { c with
        phase := .offline
        connected := false
        outbound := { c.outbound with queue := [] }
        lost := c.lost ++ c.waiting
        waiting := [] }
    else c
  | .gateEvent s r transitioned =>
    if c.ctrl = [] then
      { c with ctrl := [.storeWireState (toWireState s), .gateEvent s r transitioned] }
    else c
  | .complete commandId success error =>
    if c.ota = [] then c.settle .ota [] ⟨commandId,success,error⟩ else c
  | .run t now =>
    match c.ops t with
    | op :: rest => c.runOp cfg t rest now op
    | [] => c

/-- The completions that some task has still to send, or that wait for a session on the queue. -/
def held (c : ControlClient) : List Verdict :=
  owed c.rpc ++ owed c.ctrl ++ owed c.ota ++ c.waiting

end ControlClient
end AlprGate.Rpc
