import AlprGate.Firmware.ControlClient
import AlprGate.Server.Dispatch
import AlprGate.Simulation.VirtualGate

/-! # The simulator's control stream

A session has two threads. The reader acks every command it gets, hands the two motion
commands to the virtual gate and answers all others itself. The loop lets time pass, sends the
verdicts that the gate has collected and, from time to time, telemetry. Both go through the
mutex of the gate and that of the writer, and a console may operate the gate at any time, so
every call of the gate and every write is a step of its own. The gate outlives the session:
between two sessions it goes on moving.
-/
namespace AlprGate.Sim
open StateMachine Rpc

/-- `to_wire` of the simulator. -/
def toWire : State → WireState
  | .closed => .closed
  | .opening => .opening
  | .open => .open
  | .closing => .closing
  | .faulted => .fault
  | _ => .unknown

/-- `ns` is what the system clock reads, in nanoseconds since the epoch. -/
def stampNow (ns : ℤ) : Timestamp := ⟨ns.tdiv 1000000000,ns.tmod 1000000000⟩

structure SimConfig where
  gateId : String := "gate-sim-01"
  fwVersion : String := "sim-0.1.0"
  telemetryPeriodMs : ℕ := 1000
  tickMs : ℕ := 50
  gate : Config := {}
  deriving DecidableEq, Repr

structure Command where
  commandId : List UInt8
  kind : ServerRpc.CommandKind
  deriving DecidableEq, Repr

structure SimAck where
  commandId : List UInt8
  receivedTs : Option Timestamp := none
  completedTs : Option Timestamp := none
  completed : Bool
  success : Bool := false
  errorText : String := ""
  stateAfter : WireState
  deriving DecidableEq, Repr

structure SimTelemetry where
  gateId : String
  sentTs : Timestamp
  gateState : WireState := .unknown
  limitOpen : Bool := false
  limitClosed : Bool := false
  safetyBeamClear : Bool := false
  uptimeSec : BitVec 32 := 0
  firmwareVersion : String := ""
  seq : ℕ := 0
  deriving DecidableEq, Repr

inductive SimEnvelope where
  | telemetry (t : SimTelemetry)
  | ack (a : SimAck)
  deriving DecidableEq, Repr

/-- What the reader has still to do for a command. -/
inductive ReaderOp where
  | ackReceived (c : Command)
  | act (c : Command)
  | ackCompleted (v : Verdict)
  | write (a : SimAck)
  deriving DecidableEq, Repr

/-- What the loop has still to do in its iteration. A telemetry message is filled in by one call
of the gate after another. -/
inductive LoopOp where
  | advance
  | drainAcks
  | countTelemetry
  | ackCompleted (v : Verdict)
  | readState (t : SimTelemetry)
  | readLimitOpen (t : SimTelemetry)
  | readLimitClosed (t : SimTelemetry)
  | readBeam (t : SimTelemetry)
  | write (e : SimEnvelope)
  deriving DecidableEq, Repr

inductive SimThread where
  | reader | loop
  deriving DecidableEq, Repr

/-- `received` lists the commands read so far and `log` the writes, with the thread each came
from; nothing reads them. -/
structure SimClient where
  gate : VirtualGate := {}
  telemetrySeq : ℕ := 0
  inSession : Bool := false
  streamOpen : Bool := false
  reading : Bool := false
  looping : Bool := false
  reader : List ReaderOp := []
  loop : List LoopOp := []
  sinceTelemetryMs : ℕ := 0
  received : List Command := []
  log : List (SimThread × SimEnvelope) := []
  deriving DecidableEq, Repr

/-- The lines that the console takes. -/
inductive ConsoleLine where
  | open | close | stop | trip | clear | faultClear | reboot
  deriving DecidableEq, Repr

def ConsoleLine.input : ConsoleLine → SimInput
  | .open => .op .localOpen
  | .close => .op .localClose
  | .stop => .op .operatorStop
  | .trip => .op .tripBeam
  | .clear => .op .clearBeam
  | .faultClear => .op .clearFault
  | .reboot => .reboot

inductive SimStep where
  | connect
  | read (c : Option Command)
  | readFails
  | loopHead (shutdown : Bool)
  | runReader (now : ℤ)
  | runLoop (now : ℤ) (uptimeSec : BitVec 32) (ok : Bool)
  | finish
  | offline (backoffMs : ℕ)
  | console (line : ConsoleLine)
  deriving DecidableEq, Repr

/-- The reader's own answer to a command that is not handed to the gate. -/
def Command.answer (c : Command) : Option Verdict :=
  match c.kind with
  | .openGate | .closeGate => none
  | .ledPattern | .reboot => some ⟨c.commandId,true,""⟩
  | .beginOta => some ⟨c.commandId,false,"simulator has no flash to update"⟩
  | _ => some ⟨c.commandId,false,"unsupported on the simulated residential profile"⟩

def writeAckReceived (c : Command) (state : WireState) (now : ℤ) : SimAck where
  commandId := c.commandId
  receivedTs := some (stampNow now)
  completed := false
  stateAfter := state

def writeAckCompleted (v : Verdict) (state : WireState) (now : ℤ) : SimAck where
  commandId := v.commandId
  completedTs := some (stampNow now)
  completed := true
  success := v.success
  errorText := if v.success = true then "" else v.error
  stateAfter := state

namespace SimClient

/-- The switch of the reader over the kind of a command. -/
def act (cfg : SimConfig) (s : SimClient) (rest : List ReaderOp) (c : Command) : SimClient :=
  match c.kind with
  | .openGate => { s with gate := s.gate.issue cfg.gate c.commandId .open, reader := rest }
  | .closeGate => { s with gate := s.gate.issue cfg.gate c.commandId .close, reader := rest }
  | .ledPattern => { s with reader := .ackCompleted ⟨c.commandId,true,""⟩ :: rest }
  | .reboot =>
    { s with
      gate := s.gate.reboot cfg.gate
      reader := .ackCompleted ⟨c.commandId,true,""⟩ :: rest }
  | .beginOta =>
    { s with
      reader := .ackCompleted ⟨c.commandId,false,"simulator has no flash to update"⟩ :: rest }
  | _ =>
    { s with
      reader := .ackCompleted
        ⟨c.commandId,false,"unsupported on the simulated residential profile"⟩ :: rest }

def runReaderOp (cfg : SimConfig) (s : SimClient) (rest : List ReaderOp) (now : ℤ) :
    ReaderOp → SimClient
  | .ackReceived c =>
    { s with reader := .write (writeAckReceived c (toWire s.gate.machine.state) now) :: rest }
  | .act c => s.act cfg rest c
  | .ackCompleted v =>
    { s with reader := .write (writeAckCompleted v (toWire s.gate.machine.state) now) :: rest }
  | .write a => { s with reader := rest, log := s.log ++ [(.reader, .ack a)] }

/-- The message before the gate has been asked. -/
def emptyTelemetry (cfg : SimConfig) (now : ℤ) : SimTelemetry where
  gateId := cfg.gateId
  sentTs := stampNow now

/-- The result of a write counts for telemetry only: the loop is left when it fails. -/
def runLoopOp (cfg : SimConfig) (s : SimClient) (rest : List LoopOp) (now : ℤ)
    (uptimeSec : BitVec 32) (ok : Bool) : LoopOp → SimClient
  | .advance => { s with gate := s.gate.advance cfg.gate cfg.tickMs, loop := rest }
  | .drainAcks =>
    { s with gate := { s.gate with acks := [] }, loop := s.gate.acks.map .ackCompleted ++ rest }
  | .countTelemetry =>
    if cfg.telemetryPeriodMs ≤ s.sinceTelemetryMs + cfg.tickMs then
      { s with sinceTelemetryMs := 0, loop := .readState (emptyTelemetry cfg now) :: rest }
    else { s with sinceTelemetryMs := s.sinceTelemetryMs + cfg.tickMs, loop := rest }
  | .ackCompleted v =>
    { s with loop := .write (.ack (writeAckCompleted v (toWire s.gate.machine.state) now)) :: rest }
  | .readState t =>
    { s with loop := .readLimitOpen { t with gateState := toWire s.gate.machine.state } :: rest }
  | .readLimitOpen t =>
    { s with
      loop := .readLimitClosed { t with limitOpen := cfg.gate.travelMs ≤ s.gate.positionMs } ::
        rest }
  | .readLimitClosed t =>
    { s with loop := .readBeam { t with limitClosed := s.gate.positionMs ≤ 0 } :: rest }
  | .readBeam t =>
    { s with
      telemetrySeq := s.telemetrySeq + 1
      loop := .write (.telemetry { t with
        safetyBeamClear := !s.gate.beamBlocked
        uptimeSec := uptimeSec
        firmwareVersion := cfg.fwVersion
        seq := s.telemetrySeq }) :: rest }
  | .write (.ack a) => { s with loop := rest, log := s.log ++ [(.loop, .ack a)] }
  | .write (.telemetry t) =>
    { s with
      loop := rest
      looping := s.looping && ok
      log := s.log ++ [(.loop, .telemetry t)] }

/-- The stream is open and both threads run. -/
def connect (cfg : SimConfig) (s : SimClient) : SimClient :=
  if s.inSession = true then s
  else { s with
    inSession := true
    streamOpen := true
    reading := true
    looping := true
    sinceTelemetryMs := cfg.telemetryPeriodMs }

/-- `Read` returns an envelope; one that holds no command is passed over. -/
def read (s : SimClient) (c : Option Command) : SimClient :=
  if s.reading = true ∧ s.reader = [] then
    { s with
      received := s.received ++ c.toList
      reader := c.elim [] fun c => [.ackReceived c, .act c] }
  else s

def readFails (s : SimClient) : SimClient :=
  if s.reading = true ∧ s.reader = [] then { s with reading := false, streamOpen := false } else s

/-- The condition of the loop. -/
def loopHead (s : SimClient) (shutdown : Bool) : SimClient :=
  if s.looping = true ∧ s.loop = [] then
    if s.streamOpen = true ∧ shutdown = false then
      { s with loop := [.advance, .drainAcks, .countTelemetry] }
    else { s with looping := false }
  else s

def runReader (cfg : SimConfig) (s : SimClient) (now : ℤ) : SimClient :=
  match s.reader with
  | op :: rest => s.runReaderOp cfg rest now op
  | [] => s

def runLoop (cfg : SimConfig) (s : SimClient) (now : ℤ) (uptimeSec : BitVec 32) (ok : Bool) :
    SimClient :=
  match s.loop with
  | op :: rest => s.runLoopOp cfg rest now uptimeSec ok op
  | [] => s

/-- The reader has been joined. -/
def finish (s : SimClient) : SimClient :=
  if s.reading = false ∧ s.looping = false ∧ s.loop = [] then { s with inSession := false } else s

/-- Between two sessions the gate moves at the pace of the reconnects. -/
def offline (cfg : SimConfig) (s : SimClient) (backoffMs : ℕ) : SimClient :=
  if s.inSession = true then s else { s with gate := s.gate.advance cfg.gate backoffMs }

def step (cfg : SimConfig) (s : SimClient) : SimStep → SimClient
  | .connect => s.connect cfg
  | .read c => s.read c
  | .readFails => s.readFails
  | .loopHead shutdown => s.loopHead shutdown
  | .runReader now => s.runReader cfg now
  | .runLoop now uptimeSec ok => s.runLoop cfg now uptimeSec ok
  | .finish => s.finish
  | .offline backoffMs => s.offline cfg backoffMs
  | .console line => { s with gate := s.gate.step cfg.gate line.input }

/-- The simulator before its first session. -/
def boot (cfg : SimConfig) : SimClient := { gate := VirtualGate.bootClosed cfg.gate {} }

section Frame
variable (cfg : SimConfig) (s : SimClient)

theorem runReaderOp_frame (rest : List ReaderOp) (now : ℤ) (op : ReaderOp) :
    (s.runReaderOp cfg rest now op).inSession = s.inSession ∧
    (s.runReaderOp cfg rest now op).reading = s.reading ∧
    (s.runReaderOp cfg rest now op).looping = s.looping ∧
    (s.runReaderOp cfg rest now op).loop = s.loop ∧
    s.log <+: (s.runReaderOp cfg rest now op).log := by
  cases op with
  | act c =>
    rw [runReaderOp, act]
    split <;> exact ⟨rfl,rfl,rfl,rfl,List.prefix_refl _⟩
  | write a => exact ⟨rfl,rfl,rfl,rfl,List.prefix_append _ _⟩
  | ackReceived c => exact ⟨rfl,rfl,rfl,rfl,List.prefix_refl _⟩
  | ackCompleted v => exact ⟨rfl,rfl,rfl,rfl,List.prefix_refl _⟩

theorem runLoopOp_frame (rest : List LoopOp) (now : ℤ) (uptimeSec : BitVec 32) (ok : Bool)
    (op : LoopOp) :
    (s.runLoopOp cfg rest now uptimeSec ok op).inSession = s.inSession ∧
    (s.runLoopOp cfg rest now uptimeSec ok op).reading = s.reading ∧
    (s.runLoopOp cfg rest now uptimeSec ok op).reader = s.reader ∧
    (s.runLoopOp cfg rest now uptimeSec ok op).received = s.received ∧
    s.log <+: (s.runLoopOp cfg rest now uptimeSec ok op).log := by
  cases op with
  | countTelemetry =>
    rw [runLoopOp]
    split <;> exact ⟨rfl,rfl,rfl,rfl,List.prefix_refl _⟩
  | write e => cases e <;> exact ⟨rfl,rfl,rfl,rfl,List.prefix_append _ _⟩
  | _ => exact ⟨rfl,rfl,rfl,rfl,List.prefix_refl _⟩

end Frame

end SimClient

end AlprGate.Sim
