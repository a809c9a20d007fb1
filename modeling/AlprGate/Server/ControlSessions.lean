import AlprGate.Library.Transition
import AlprGate.Server.Broadcaster

/-! # Control sessions on the broadcaster

Every handler call is a session with two threads of its own: the handler that reads
the stream and a writer that forwards commands from the session's subscription.
Publishing threads serve their targets one at a time. Each of these moves is one step
of a run, so a run is any interleaving of them.
-/
namespace AlprGate.Dash
open BoundedQueue Transition

/-- What a firmware puts on its control stream. -/
inductive ControlPayload where
  | telemetry (gateId : String) | ack | fault (gateId : String) | command | notSet
  deriving DecidableEq, Repr

inductive Status where
  | ok
  | invalidArgument (message : String)
  | unavailable (message : String)
  deriving DecidableEq, Repr

inductive Thread where
  | client (n : ℕ)
  | handler (session : ℕ)
  deriving DecidableEq, Repr

/-- A thread inside `publish`: past the test of the stop flag, or serving targets. -/
inductive Publisher where
  | idle
  | checked (siteId gateId : String) (payload : Payload)
  | serving (env : EventEnvelope) (targets : List ℕ)
  deriving DecidableEq, Repr

inductive Stage where
  | unopened | announcing | registering | streaming | reporting | closing | joining
  | ended (status : Status)
  deriving DecidableEq, Repr

inductive Writer where
  | top | polling | starved | holding (e : DashboardEvent) | stopped
  deriving DecidableEq, Repr

structure Session where
  stage : Stage := .unopened
  gateId : String := ""
  cancelled : Bool := false
  shuttingDown : Bool := false
  writer : Writer := .stopped
  written : List DashboardEvent := []
  deriving DecidableEq, Repr

def Session.finish (x : Session) (status : Status) : Session := { x with stage := .ended status }

/-- `opened` lists the sessions ever opened. -/
structure Server where
  bus : Bus := {}
  session : ℕ → Session := fun _ => {}
  publisher : Thread → Publisher := fun _ => .idle
  opened : List ℕ := []
  defaultSiteId : String := ""

inductive Input where
  | publish (n : ℕ) (siteId gateId : String) (payload : Payload)
  | assign (t : Thread)
  | serve (t : Thread)
  | open (σ : ℕ) (first : Option ControlPayload)
  | subscribe (σ : ℕ)
  | register (σ : ℕ)
  | read (σ : ℕ) (payload : ControlPayload)
  | resume (σ : ℕ)
  | readFails (σ : ℕ)
  | close (σ : ℕ)
  | join (σ : ℕ)
  | cancel (σ : ℕ)
  | writerTop (σ : ℕ)
  | writerNext (σ : ℕ)
  | writerStarved (σ : ℕ)
  | writerWrite (σ : ℕ) (ok : Bool)
  | stop
  | closeAll
  deriving DecidableEq, Repr

namespace Server

def setSession (s : Server) (σ : ℕ) (x : Session) : Server :=
  { s with session := Function.update s.session σ x }

def setPublisher (s : Server) (t : Thread) (p : Publisher) : Server :=
  { s with publisher := Function.update s.publisher t p }

/-- Entering `publish`: a stopped broadcaster returns at once. -/
def beginPublish (s : Server) (t : Thread) (siteId gateId : String) (payload : Payload) : Server :=
  if s.bus.stopped = true then s else s.setPublisher t (.checked siteId gateId payload)

def assign (s : Server) (t : Thread) : Server :=
  match s.publisher t with
  | .checked siteId gateId payload =>
    { s with bus := s.bus.assign siteId gateId payload }.setPublisher t
      (.serving (s.bus.envelope siteId gateId payload) s.bus.live)
  | _ => s

def serve (s : Server) (t : Thread) : Server :=
  match s.publisher t with
  | .serving env (i :: rest) =>
    { s with bus := s.bus.deliver env i }.setPublisher t (.serving env rest)
  | .serving _ [] => s.setPublisher t .idle
  | _ => s

/-- The first read identifies the gate, or the call fails. -/
def openStream (s : Server) (σ : ℕ) (first : Option ControlPayload) : Server :=
  let x := s.session σ
  if x.stage ≠ .unopened then s
  else
    let s' := { s with opened := s.opened ++ [σ] }
    match first with
    | none => s'.setSession σ
        (x.finish (.invalidArgument "control stream closed before identifying gate"))
    | some (.telemetry gateId) =>
      if gateId = "" then
        s'.setSession σ (x.finish (.invalidArgument "telemetry.gate_id is required"))
      else (s'.setSession σ { x with stage := .announcing, gateId := gateId }).beginPublish
        (.handler σ) s.defaultSiteId gateId .telemetry
    | some _ => s'.setSession σ
        (x.finish (.invalidArgument "first envelope must be Telemetry carrying gate_id"))

/-- The filter of a control stream. It sets no cursor. -/
def controlFilter (gateId : String) : DashboardSubscription :=
  { gateIds := [gateId], includeDecisions := true }

/-- After the announcement, `subscribe` tests the stop flag. -/
def trySubscribe (s : Server) (σ : ℕ) : Server :=
  let x := s.session σ
  if x.stage = .announcing ∧ s.publisher (.handler σ) = .idle then
    if s.bus.stopped = true then
      s.setSession σ (x.finish (.unavailable "broadcaster is shutting down"))
    else s.setSession σ { x with stage := .registering }
  else s

/-- The locked part of `subscribe`; the writer thread starts. -/
def register (s : Server) (σ : ℕ) : Server :=
  let x := s.session σ
  if x.stage = .registering then
    { s with bus := s.bus.subscribe σ (controlFilter x.gateId) }.setSession σ
      { x with stage := .streaming, writer := .top }
  else s

/-- The reader loop. A command from the firmware is ignored. -/
def read (s : Server) (σ : ℕ) (payload : ControlPayload) : Server :=
  let x := s.session σ
  if x.stage = .streaming then
    let s' := s.setSession σ { x with stage := .reporting }
    match payload with
    | .telemetry gateId => s'.beginPublish (.handler σ) s.defaultSiteId gateId .telemetry
    | .ack => s'.beginPublish (.handler σ) s.defaultSiteId x.gateId .ack
    | .fault gateId => s'.beginPublish (.handler σ) s.defaultSiteId gateId .fault
    | .command | .notSet => s
  else s

/-- The publish call of the reader loop has returned. -/
def resume (s : Server) (σ : ℕ) : Server :=
  let x := s.session σ
  if x.stage = .reporting ∧ s.publisher (.handler σ) = .idle then
    s.setSession σ { x with stage := .streaming }
  else s

def readFails (s : Server) (σ : ℕ) : Server :=
  let x := s.session σ
  if x.stage = .streaming then s.setSession σ { x with stage := .closing, shuttingDown := true }
  else s

def close (s : Server) (σ : ℕ) : Server :=
  let x := s.session σ
  if x.stage = .closing then
    { s with bus := s.bus.close σ }.setSession σ { x with stage := .joining }
  else s

/-- Joining the writer, returning, and letting go of the subscription. -/
def join (s : Server) (σ : ℕ) : Server :=
  let x := s.session σ
  if x.stage = .joining ∧ x.writer = .stopped then
    { s with bus := s.bus.destroy σ }.setSession σ (x.finish .ok)
  else s

def cancel (s : Server) (σ : ℕ) : Server :=
  s.setSession σ { s.session σ with cancelled := true }

def writerTop (s : Server) (σ : ℕ) : Server :=
  let x := s.session σ
  if x.writer = .top then
    s.setSession σ { x with
      writer := if x.cancelled = true ∨ x.shuttingDown = true then .stopped else .polling }
  else s

/-- `next`: an empty queue is reported after a timeout or a close. Events other than
commands are skipped. -/
def writerNext (s : Server) (σ : ℕ) : Server :=
  let x := s.session σ
  if x.writer = .polling then
    match (s.bus.sub σ).queue with
    | [] => s.setSession σ { x with writer := .starved }
    | e :: _ => { s with bus := s.bus.pop σ }.setSession σ { x with
        writer := match e.payload with
          | .command _ => .holding e
          | _ => .top }
  else s

def writerStarved (s : Server) (σ : ℕ) : Server :=
  let x := s.session σ
  if x.writer = .starved then
    s.setSession σ { x with writer := if s.bus.stopped = true then .stopped else .top }
  else s

def writerWrite (s : Server) (σ : ℕ) (ok : Bool) : Server :=
  let x := s.session σ
  match x.writer with
  | .holding e =>
    if ok = true then s.setSession σ { x with written := x.written ++ [e], writer := .top }
    else s.setSession σ { x with writer := .stopped }
  | _ => s

def step (s : Server) : Input → Server
  | .publish n siteId gateId payload =>
    if s.publisher (.client n) = .idle then s.beginPublish (.client n) siteId gateId payload else s
  | .assign t => s.assign t
  | .serve t => s.serve t
  | .open σ first => s.openStream σ first
  | .subscribe σ => s.trySubscribe σ
  | .register σ => s.register σ
  | .read σ payload => s.read σ payload
  | .resume σ => s.resume σ
  | .readFails σ => s.readFails σ
  | .close σ => s.close σ
  | .join σ => s.join σ
  | .cancel σ => s.cancel σ
  | .writerTop σ => s.writerTop σ
  | .writerNext σ => s.writerNext σ
  | .writerStarved σ => s.writerStarved σ
  | .writerWrite σ ok => s.writerWrite σ ok
  | .stop => { s with bus := s.bus.stop }
  | .closeAll => if s.bus.stopped = true then { s with bus := s.bus.closeAll } else s

/-- Telemetry that names a gate identifies the stream. -/
theorem openStream_telemetry {s : Server} {σ : ℕ} (hnew : (s.session σ).stage = .unopened)
    {gateId : String} (hid : gateId ≠ "") :
    ((s.openStream σ (some (.telemetry gateId))).session σ).stage = .announcing ∧
    ((s.openStream σ (some (.telemetry gateId))).session σ).gateId = gateId := by
  rw [openStream, if_neg (not_not.mpr hnew)]
  dsimp only
  rw [if_neg hid, beginPublish]
  split
  · exact ⟨by simp [setSession],by simp [setSession]⟩
  · exact ⟨by simp [setSession, setPublisher],by simp [setSession, setPublisher]⟩

/-- Any other envelope ends the call, and nothing is published. -/
theorem openStream_other {s : Server} {σ : ℕ} (hnew : (s.session σ).stage = .unopened)
    {first : ControlPayload} (hother : ∀ gateId, first ≠ .telemetry gateId) :
    ((s.openStream σ (some first)).session σ).stage =
      .ended (.invalidArgument "first envelope must be Telemetry carrying gate_id") ∧
    (s.openStream σ (some first)).bus = s.bus ∧
    (s.openStream σ (some first)).publisher = s.publisher := by
  rw [openStream, if_neg (not_not.mpr hnew)]
  cases first with
  | telemetry gateId => exact absurd rfl (hother gateId)
  | _ => exact ⟨by simp [setSession, Session.finish],rfl,rfl⟩

end Server

end AlprGate.Dash
