import AlprGate.Firmware.ControlClient
import AlprGate.Server.Dispatch
import AlprGate.Server.ScenarioSource

/-! # The vision daemon and its calls to the server

The daemon pulls observation sets from its source, builds a frame from each one that is not empty
and submits it, with a bounded number of attempts. The network hands the request of an attempt to
the server at any later time, loses it, or loses the answer: an attempt can fail although the
server decides its frame.
-/
namespace AlprGate.Vision
open ServerRpc (Services)

/-! ### Frames -/

/-- Both parts are cut towards zero; `tp` is in nanoseconds since the epoch. -/
def stamp (tp : ℤ) : Rpc.Timestamp := ⟨tp.tdiv 1000000000,tp.tmod 1000000000⟩

def toProtoClass : VehicleClass → Auth.VehicleClass
  | .pedestrian => .pedestrian
  | .bicycle => .bicycle
  | .motorcycle => .motorcycle
  | .sedan => .sedan
  | .suv => .suv
  | .pickup => .pickup
  | .van => .van
  | .truck => .truck
  | .unknown => .unknown

structure PlateDetection where
  plateText : String
  detectionConf : FloatValue
  ocrConf : FloatValue
  box : PixelBox
  countryHint : String
  rawOcr : String
  deriving DecidableEq, Repr

structure VehicleDetection where
  vehicleClass : Auth.VehicleClass
  classConf : FloatValue
  box : OrientedBox3D
  trackId : BitVec 32
  pointCount : BitVec 32
  deriving DecidableEq, Repr

structure DetectionFrame where
  frameId : BitVec 64
  gateId : String
  captureTs : Rpc.Timestamp
  plates : List PlateDetection
  vehicles : List VehicleDetection
  deriving DecidableEq, Repr

def PlateObservation.detection (p : PlateObservation) : PlateDetection where
  plateText := p.text
  detectionConf := p.detectionConf
  ocrConf := p.ocrConf
  box := p.box
  countryHint := p.countryHint
  rawOcr := p.rawOcr

def VehicleObservation.detection (v : VehicleObservation) : VehicleDetection where
  vehicleClass := toProtoClass v.vehicleClass
  classConf := v.confidence
  box := v.box
  trackId := v.trackId
  pointCount := v.pointCount

structure FrameBuilder where
  gateId : String
  nextFrameId : BitVec 64 := 1
  deriving DecidableEq, Repr

def FrameBuilder.frame (b : FrameBuilder) (obs : ObservationSet) : DetectionFrame where
  frameId := b.nextFrameId
  gateId := b.gateId
  captureTs := stamp obs.captureTs
  plates := obs.plates.map PlateObservation.detection
  vehicles := obs.vehicles.map VehicleObservation.detection

def FrameBuilder.build (b : FrameBuilder) (obs : ObservationSet) : DetectionFrame × FrameBuilder :=
  (b.frame obs,{ b with nextFrameId := b.nextFrameId + 1 })

/-! ### The daemon -/

/-- The status codes of a call that fails. -/
inductive StatusCode where
  | cancelled | unknown | invalidArgument | deadlineExceeded | notFound | alreadyExists
  | permissionDenied | resourceExhausted | failedPrecondition | aborted | outOfRange | unimplemented
  | internal | unavailable | dataLoss | unauthenticated
  deriving DecidableEq, Repr

def StatusCode.number : StatusCode → ℕ
  | .cancelled => 1
  | .unknown => 2
  | .invalidArgument => 3
  | .deadlineExceeded => 4
  | .notFound => 5
  | .alreadyExists => 6
  | .permissionDenied => 7
  | .resourceExhausted => 8
  | .failedPrecondition => 9
  | .aborted => 10
  | .outOfRange => 11
  | .unimplemented => 12
  | .internal => 13
  | .unavailable => 14
  | .dataLoss => 15
  | .unauthenticated => 16

structure SubmitConfig where
  gateId : String := "gate-01"
  maxAttempts : BitVec 32 := 3
  backoffInitialMs : BitVec 32 := 200
  deriving DecidableEq, Repr

/-- At least one attempt is made. -/
def SubmitConfig.attempts (cfg : SubmitConfig) : ℕ :=
  if cfg.maxAttempts = 0 then 1 else cfg.maxAttempts.toNat

/-- What `submit` throws. -/
def submitError (frame : DetectionFrame) (code : StatusCode) (message : String) : String :=
  "submit_client: SubmitDetection failed for frame_id=" ++ toString frame.frameId.toNat ++ ": [" ++
    toString code.number ++ "] " ++ message

/-- Where the daemon is: at the head of its loop, inside an attempt, asleep before the next one, or
gone. The backoff is in milliseconds. -/
inductive DaemonPhase where
  | pulling
  | calling (frame : DetectionFrame) (attempt backoff : ℕ)
  | sleeping (frame : DetectionFrame) (attempt backoff : ℕ)
  | exited (code : ℕ) (fatal : Option String)
  deriving DecidableEq, Repr

/-- How the server reads a frame. Its confidences are rationals there, and only the gate matters
for what is counted here. -/
structure FrameReader where
  read : DetectionFrame → Fusion.DetectionFrame
  gateId_read : ∀ frame, (read frame).gateId = Rpc.utf8 frame.gateId

/-- The daemon, the network and the server. Attempts are numbered from zero and the last one begun
is `rpcs - 1`. The lists hold what has happened: the sets that became frames, the frames, the
requests on the wire, the attempts that the server has taken with the number of its call, and those
of them that were answered. -/
structure Ingest where
  builder : FrameBuilder
  phase : DaemonPhase := .pulling
  shutdownRequested : Bool := false
  submitted : ℕ := 0
  authorized : ℕ := 0
  failed : ℕ := 0
  rpcs : ℕ := 0
  observed : List ObservationSet := []
  frames : List DetectionFrame := []
  wire : List (ℕ × DetectionFrame) := []
  accepted : List (ℕ × ℕ) := []
  answered : List (ℕ × ℕ) := []
  server : Services

inductive IngestStep where
  | signal
  | pull (obs : Option ObservationSet)
  | deliver (id k : ℕ)
  | lose (id : ℕ)
  | server (a : ServerRpc.Input)
  | reply
  | fail (code : StatusCode) (message : String)
  | wake

namespace Ingest

def boot (cfg : SubmitConfig) (server : Services) : Ingest :=
  { builder := { gateId := cfg.gateId }, server := server }

/-- An attempt begins: its request goes out. -/
def call (s : Ingest) (frame : DetectionFrame) (attempt backoff : ℕ) : Ingest :=
  { s with
    phase := .calling frame attempt backoff
    rpcs := s.rpcs + 1
    wire := s.wire ++ [(s.rpcs,frame)] }

def submitSet (cfg : SubmitConfig) (s : Ingest) (obs : ObservationSet) : Ingest :=
  { s with
    builder := (s.builder.build obs).2
    observed := s.observed ++ [obs]
    frames := s.frames ++ [(s.builder.build obs).1] }.call
      (s.builder.build obs).1 1 cfg.backoffInitialMs.toNat

/-- One iteration of the loop, up to the first attempt for its frame. -/
def pull (cfg : SubmitConfig) (s : Ingest) (obs : Option ObservationSet) : Ingest :=
  if s.phase = .pulling then
    if s.shutdownRequested = true then { s with phase := .exited 0 none }
    else match obs with
      | none => { s with phase := .exited 0 none }
      | some obs => if obs.plates = [] ∧ obs.vehicles = [] then s else s.submitSet cfg obs
  else s

/-- The server takes a request that is on the wire, as its call `k`. -/
def deliver (reader : FrameReader) (s : Ingest) (id k : ℕ) : Ingest :=
  match s.wire.lookup id with
  | some frame =>
    if s.server.call k = .idle then
      { s with
        wire := s.wire.filter fun request => request.1 ≠ id
        accepted := s.accepted ++ [(id,k)]
        server := s.server.step (.submitDetection k (reader.read frame)) }
    else s
  | none => s

def lose (s : Ingest) (id : ℕ) : Ingest :=
  { s with wire := s.wire.filter fun request => request.1 ≠ id }

/-- Only `UNAVAILABLE` is tried again. -/
def fail (cfg : SubmitConfig) (s : Ingest) (code : StatusCode) (message : String) : Ingest :=
  match s.phase with
  | .calling frame attempt backoff =>
    if code ≠ .unavailable ∨ attempt = cfg.attempts then
      { s with failed := s.failed + 1, phase := .exited 1 (some (submitError frame code message)) }
    else { s with failed := s.failed + 1, phase := .sleeping frame attempt backoff }
  | _ => s

/-- The answer to the attempt in progress. -/
def answer (cfg : SubmitConfig) (s : Ingest) (id k : ℕ) : ServerRpc.Reply → Ingest
  | .decision d =>
    { s with
      phase := .pulling
      submitted := s.submitted + 1
      authorized := if d.verdict = .authorized then s.authorized + 1 else s.authorized
      answered := s.answered ++ [(id,k)] }
  | .invalidArgument message => s.fail cfg .invalidArgument message
  | .ack _ => s

/-- The server's call for the attempt in progress has returned, and its answer arrives. -/
def reply (cfg : SubmitConfig) (s : Ingest) : Ingest :=
  match s.phase with
  | .calling _ _ _ =>
    match s.accepted.lookup (s.rpcs - 1) with
    | some k =>
      match s.server.call k with
      | .returned r => s.answer cfg (s.rpcs - 1) k r
      | _ => s
    | none => s
  | _ => s

def wake (s : Ingest) : Ingest :=
  match s.phase with
  | .sleeping frame attempt backoff => s.call frame (attempt + 1) (backoff * 2)
  | _ => s

def step (cfg : SubmitConfig) (reader : FrameReader) (s : Ingest) : IngestStep → Ingest
  | .signal => { s with shutdownRequested := true }
  | .pull obs => s.pull cfg obs
  | .deliver id k => s.deliver reader id k
  | .lose id => s.lose id
  | .server a => { s with server := s.server.step a }
  | .reply => s.reply cfg
  | .fail code message => s.fail cfg code message
  | .wake => s.wake

/-- The attempts in progress, at most one. -/
def pending (s : Ingest) : ℕ :=
  match s.phase with
  | .calling _ _ _ => 1
  | _ => 0

end Ingest
end AlprGate.Vision
