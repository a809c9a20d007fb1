import AlprGate.Firmware.CommandDecoding
import AlprGate.Firmware.FrameReassembly
import AlprGate.Server.Dispatch

/-! # What the server accepts and what the firmware takes

`IssueCommand` looks at the gate id and at the kind of a command, and at nothing else. The
firmware takes a message of at most `kMaxInMessage` bytes whose fields fit the generated
structure. A longer message drops the session, a field that does not fit only the command. The
commands that `SubmitDetection` composes always fit.
-/
namespace AlprGate.ServerRpc
open Auth Fusion ProtoWire Rpc Transition

/-! ### Commands with all their fields -/

def hexDigit (n : UInt8) : UInt8 := if n < 10 then 48 + n else 87 + n

/-- The conversion `%02x` of each byte. -/
def hexBytes (bs : List UInt8) : Text := bs.flatMap fun b => [hexDigit (b / 16), hexDigit (b % 16)]

theorem length_hexBytes (bs : List UInt8) : (hexBytes bs).length = 2 * bs.length := by
  induction bs with
  | nil => rfl
  | cons b bs ih =>
    rw [hexBytes, List.flatMap_cons, List.length_append]
    change 2 + (hexBytes bs).length = 2 * (bs.length + 1)
    omega

def dash : Text := [0x2D]

/-- Version and variant replace six of the random bits. -/
def generateUuidv4 (b : Fin 16 → UInt8) : Text :=
  let version := (b 6 &&& 0x0F) ||| 0x40
  let variant := (b 8 &&& 0x3F) ||| 0x80
  hexBytes [b 0, b 1, b 2, b 3] ++ dash ++ hexBytes [b 4, b 5] ++ dash ++
    hexBytes [version, b 7] ++ dash ++ hexBytes [variant, b 9] ++ dash ++
    hexBytes [b 10, b 11, b 12, b 13, b 14, b 15]

theorem length_generateUuidv4 (b : Fin 16 → UInt8) : (generateUuidv4 b).length = 36 := by
  unfold generateUuidv4
  simp only [List.length_append, length_hexBytes]
  rfl

/-- A time that is missing or zero is set; the other fields of the message stay. -/
def stampTs (ts : Option Wire.TimeSpan) (now : BitVec 64) : Option Wire.TimeSpan :=
  match ts with
  | none => some { seconds := now }
  | some t => if t.seconds = 0 then some { t with seconds := now } else some t

def stampCommand (req : Wire.GateCommand) (uuid : Text) (now : BitVec 64) : Wire.GateCommand :=
  { req with
    commandId := if req.commandId = [] then uuid else req.commandId
    issuedTs := stampTs req.issuedTs now }

/-- The command that `IssueCommand` publishes, or the message of its refusal. -/
def issueCommand (req : Wire.GateCommand) (uuid : Text) (now : BitVec 64) :
    Except String Wire.GateCommand :=
  if req.gateId = [] then .error "gate_id is required"
  else if req.kind = 0 then .error "command kind must be set"
  else .ok (stampCommand req uuid now)

theorem issueCommand_of_accepted {req : Wire.GateCommand} (hgate : req.gateId ≠ [])
    (hkind : req.kind ≠ 0) (uuid : Text) (now : BitVec 64) :
    issueCommand req uuid now = .ok (stampCommand req uuid now) := by
  rw [issueCommand, if_neg hgate, if_neg hkind]

/-- The command that `SubmitDetection` publishes behind an authorized decision. -/
def openGateCommand (frame : DetectionFrame) (resp : AuthDecision) (uuid : Text)
    (now : BitVec 64) : Wire.GateCommand where
  commandId := uuid
  issuedTs := some { seconds := now }
  gateId := frame.gateId
  kind := 1
  actor := autoActor resp.decisionId

def CommandKind.ofNumber (n : ℤ) : CommandKind :=
  match n with
  | 0 => .unspecified
  | 1 => .openGate
  | 2 => .closeGate
  | 3 => .pulseRelay
  | 4 => .latchOpen
  | 5 => .latchClose
  | 6 => .releaseLatch
  | 7 => .reboot
  | 8 => .beginOta
  | 9 => .ledPattern
  | n => .unrecognized n

/-- What the services look at. -/
def summary (c : Wire.GateCommand) : GateCommand where
  commandId := c.commandId
  issuedTs := c.issuedTs.map fun t => t.seconds.toInt
  gateId := c.gateId
  kind := .ofNumber c.kind.toInt
  actor := c.actor

theorem toInt_eq_zero_iff {w : ℕ} (v : BitVec w) : v.toInt = 0 ↔ v = 0 := by
  have hzero : (0 : BitVec w).toInt = 0 := BitVec.toInt_zero
  rw [← BitVec.toInt_inj, hzero]

theorem ofNumber_eq_unspecified_iff (n : ℤ) : CommandKind.ofNumber n = .unspecified ↔ n = 0 := by
  unfold CommandKind.ofNumber
  constructor
  · intro h
    split at h <;> first | rfl | cases h
  · rintro rfl
    rfl

theorem summary_stampCommand (req : Wire.GateCommand) (uuid : Text) (now : BitVec 64) :
    summary (stampCommand req uuid now) = (summary req).stamp uuid now.toInt := by
  have hts : (stampTs req.issuedTs now).map (fun t => t.seconds.toInt) =
      if (summary req).issuedTs = none ∨ (summary req).issuedTs = some 0 then some now.toInt
      else (summary req).issuedTs := by
    cases hissued : req.issuedTs with
    | none => simp [stampTs, summary, hissued]
    | some t =>
      by_cases hzero : t.seconds = 0
      · simp [stampTs, summary, hissued, hzero]
      · have hsome : t.seconds.toInt ≠ 0 := fun h => hzero ((toInt_eq_zero_iff _).mp h)
        have hkeep : stampTs (some t) now = some t := if_neg hzero
        simp [hkeep, summary, hissued, hsome]
  unfold GateCommand.stamp
  rw [← hts]
  rfl

/-- The services publish the same command. -/
theorem issueCommand_summary (req : Wire.GateCommand) (uuid : Text) (now : BitVec 64) :
    Services.issueCommand (summary req) uuid now.toInt =
      match issueCommand req uuid now with
      | .ok c => .stamped (summary c)
      | .error message => .returned (.invalidArgument message) := by
  have hkind : (summary req).kind = .unspecified ↔ req.kind = 0 :=
    (ofNumber_eq_unspecified_iff _).trans (toInt_eq_zero_iff _)
  unfold Services.issueCommand issueCommand
  by_cases hgate : req.gateId = []
  · rw [if_pos hgate, if_pos (show (summary req).gateId = [] from hgate)]
  · rw [if_neg hgate, if_neg (show ¬ (summary req).gateId = [] from hgate)]
    by_cases hzero : req.kind = 0
    · rw [if_pos hzero, if_pos (hkind.mpr hzero)]
    · rw [if_neg hzero, if_neg fun h => hzero (hkind.mp h), ← summary_stampCommand]

theorem summary_openGateCommand (frame : DetectionFrame) (resp : AuthDecision) (uuid : Text)
    (now : BitVec 64) :
    summary (openGateCommand frame resp uuid now) = openCommand frame resp uuid now.toInt := rfl

/-! ### The session -/

def kMaxInMessage : ℕ := 1024

/-- The largest message that is serialized at all. -/
def kMaxSerialized : ℕ := 2 ^ 31 - 1

/-- The bytes that the writer of the control stream puts on the wire for a command. -/
def writeCommand (c : Wire.GateCommand) : List UInt8 :=
  if c.envelope.length ≤ kMaxSerialized then framed c.envelope else []

/-- The session is alive, and behind the earlier messages it has handed the command on. -/
def Takes (s : Inbound) (earlier : List (List UInt8)) (c : Wire.GateCommand) : Prop :=
  s.failure = none ∧ ∃ body d, s.handled = earlier ++ [body] ∧
    Wire.handleMessage body = some d ∧ d.Carries c

section Session
variable {buffer : List UInt8} {earlier chunks : List (List UInt8)} {c : Wire.GateCommand}

/-- Behind messages that fit, the session is a receiver at the start of a frame. -/
theorem receiver_earlier (hbuffer : buffer.length = kMaxInMessage)
    (hearlier : ∀ p ∈ earlier, p.length ≤ kMaxInMessage) {bytes : List UInt8}
    (hcut : chunks.flatten = earlier.flatMap framed ++ bytes) :
    (exec Inbound.onDataChunk (Inbound.start buffer) chunks).receiver =
      exec (grpcFormat kMaxInMessage).feed ⟨.header [],earlier⟩ bytes := by
  have hsmall : ∀ p ∈ earlier, p.length ≤ kMaxInMessage ∧ p.length < 2 ^ 32 := fun p hp =>
    ⟨hearlier p hp,lt_of_le_of_lt (hearlier p hp) (by decide)⟩
  have hframed := exec_framed hsmall []
  rw [List.nil_append] at hframed
  obtain ⟨-,hrun⟩ := Inbound.exec_onDataChunk (Inbound.sound_start buffer) chunks
  rw [hbuffer, hcut, exec_append] at hrun
  rw [hrun, ← hframed]
  rfl

/-- A message beyond the capacity drops the session. -/
theorem failure_of_oversize (hbuffer : buffer.length = kMaxInMessage)
    (hearlier : ∀ p ∈ earlier, p.length ≤ kMaxInMessage) {body : List UInt8}
    (hlong : kMaxInMessage < body.length) (hsize : body.length ≤ kMaxSerialized)
    (hcut : chunks.flatten = earlier.flatMap framed ++ framed body) :
    (exec Inbound.onDataChunk (Inbound.start buffer) chunks).failure ≠ none := by
  have hlength := declaredLength_makeFrameHeader (n:=body.length)
    (lt_of_le_of_lt hsize (by decide))
  have hread : (grpcFormat kMaxInMessage).read (makeFrameHeader (UInt32.ofNat body.length)) =
      .error .errorOversize := by
    change (if kMaxInMessage < declaredLength (makeFrameHeader (UInt32.ofNat body.length)) then
      Except.error Status.errorOversize else _) = _
    rw [hlength, if_pos hlong]
  have hbad := (grpcFormat kMaxInMessage).exec_bad_header earlier rfl hread body
  have hrun := receiver_earlier hbuffer hearlier hcut
  have hending := Inbound.receiver_ending (exec Inbound.onDataChunk (Inbound.start buffer) chunks)
  rw [hrun, framed, hbad] at hending
  intro hnone
  rw [Inbound.ending, hnone] at hending
  cases hending

theorem takes_iff (hbuffer : buffer.length = kMaxInMessage)
    (hearlier : ∀ p ∈ earlier, p.length ≤ kMaxInMessage)
    (hcut : chunks.flatten = earlier.flatMap framed ++ writeCommand c) :
    Takes (exec Inbound.onDataChunk (Inbound.start buffer) chunks) earlier c ↔
      c.Decodable ∧ c.envelope.length ≤ kMaxInMessage := by
  by_cases hsize : c.envelope.length ≤ kMaxSerialized
  · rw [writeCommand, if_pos hsize] at hcut
    by_cases hfits : c.envelope.length ≤ kMaxInMessage
    · -- the frame is accepted, and the decoder decides
      have hall : ∀ p ∈ earlier ++ [c.envelope], p.length ≤ buffer.length ∧ p.length < 2 ^ 32 := by
        rw [hbuffer, List.forall_mem_append]
        refine ⟨fun p hp => ⟨hearlier p hp,lt_of_le_of_lt (hearlier p hp) (by decide)⟩,?_⟩
        intro p hp
        rw [List.mem_singleton.mp hp]
        exact ⟨hfits,lt_of_le_of_lt hfits (by decide)⟩
      have hframes : chunks.flatten = (earlier ++ [c.envelope]).flatMap framed := by
        rw [hcut, List.flatMap_append, List.flatMap_singleton]
      obtain ⟨hhandled,hfailure,-⟩ := framed_payloads_reassemble buffer _ chunks hall hframes
      have hdecodes := Wire.GateCommand.handleMessage_iff (c:=c) (lt_of_le_of_lt hfits (by decide))
      constructor
      · rintro ⟨-,body,d,hbody,hd,hcarries⟩
        have hsame : body = c.envelope := by
          have hlast := hbody.symm.trans hhandled
          simpa using List.append_cancel_left hlast
        subst hsame
        exact ⟨hdecodes.mp ⟨d,hd,hcarries⟩,hfits⟩
      · rintro ⟨hdecodable,-⟩
        obtain ⟨d,hd,hcarries⟩ := hdecodes.mpr hdecodable
        exact ⟨hfailure,c.envelope,d,hhandled,hd,hcarries⟩
    · have hfailure := failure_of_oversize hbuffer hearlier (Nat.lt_of_not_le hfits) hsize hcut
      exact ⟨fun h => absurd h.1 hfailure,fun h => absurd h.2 hfits⟩
  · -- nothing was written
    rw [writeCommand, if_neg hsize] at hcut
    have hlarge : ¬ c.envelope.length ≤ kMaxInMessage := fun h => hsize (h.trans (by decide))
    have hrun := receiver_earlier hbuffer hearlier hcut
    have hhandled := Inbound.receiver_messages
      (exec Inbound.onDataChunk (Inbound.start buffer) chunks)
    rw [hrun] at hhandled
    constructor
    · rintro ⟨-,body,d,hbody,-⟩
      have hlength := congrArg List.length (hhandled.trans hbody)
      simp at hlength
    · exact fun h => absurd h.2 hlarge

end Session

/-- Stamping does not change what fits. -/
theorem decodable_stampCommand (req : Wire.GateCommand) {uuid : Text} (huuid : uuid.length ≤ 39)
    (now : BitVec 64) : (stampCommand req uuid now).Decodable ↔ req.Decodable := by
  have hid : (stampCommand req uuid now).commandId.length ≤ 39 ↔ req.commandId.length ≤ 39 := by
    unfold stampCommand
    by_cases hnil : req.commandId = []
    · simp [hnil, huuid]
    · simp [hnil]
  have hts : (∀ t ∈ (stampCommand req uuid now).issuedTs, ∀ f ∈ t.unknown, Wire.spanSchema.Skipped f) ↔
      ∀ t ∈ req.issuedTs, ∀ f ∈ t.unknown, Wire.spanSchema.Skipped f := by
    change (∀ t ∈ stampTs req.issuedTs now, _) ↔ _
    cases req.issuedTs with
    | none => simp [stampTs]
    | some t =>
      unfold stampTs
      split
      · rename_i h
        cases h
      · rename_i t' h
        cases h
        split <;> simp
  constructor
  · intro h
    exact ⟨hid.mp h.commandId,h.gateId,h.actor,h.signature,h.kind,h.ledPattern,hts.mp h.issuedTs,
      h.duration,h.unknown⟩
  · intro h
    exact ⟨hid.mpr h.commandId,h.gateId,h.actor,h.signature,h.kind,h.ledPattern,hts.mpr h.issuedTs,
      h.duration,h.unknown⟩

theorem decodable_openGateCommand {frame : DetectionFrame} {resp : AuthDecision} {uuid : Text}
    (hgate : frame.gateId.length ≤ 31) (hdecision : resp.decisionId.length = 36)
    (huuid : uuid.length = 36) (now : BitVec 64) :
    (openGateCommand frame resp uuid now).Decodable := by
  have hactor : (autoActor resp.decisionId).length ≤ 47 := by
    have hauto : (JsonValue.ascii "auto:").length = 5 := by decide
    rw [autoActor, List.length_append, hauto, hdecision]
    decide
  have hkind : (1 : BitVec 32).msb = false := by decide
  have hled : (0 : BitVec 32).msb = false := by decide
  refine ⟨?_,hgate,hactor,by simp [openGateCommand],hkind,hled,?_,nofun,nofun⟩
  · change uuid.length ≤ 39
    omega
  · rintro t ⟨⟩
    exact nofun

/-- A command that `IssueCommand` accepts is taken by the firmware exactly when its fields fit and
its envelope is not too long, and a command that `SubmitDetection` publishes always is. -/
theorem accepted_commands_taken_iff (buffer : List UInt8) (hbuffer : buffer.length = kMaxInMessage)
    (earlier chunks : List (List UInt8)) (hearlier : ∀ p ∈ earlier, p.length ≤ kMaxInMessage) :
    (∀ (req : Wire.GateCommand) (random : Fin 16 → UInt8) (now : BitVec 64) (c : Wire.GateCommand),
      issueCommand req (generateUuidv4 random) now = .ok c →
      chunks.flatten = earlier.flatMap framed ++ writeCommand c →
      (Takes (exec Inbound.onDataChunk (Inbound.start buffer) chunks) earlier c ↔
        req.Decodable ∧
          (stampCommand req (generateUuidv4 random) now).envelope.length ≤ kMaxInMessage)) ∧
    ∀ (frame : DetectionFrame) (resp : AuthDecision) (random random' : Fin 16 → UInt8)
      (now : BitVec 64), frame.gateId.length ≤ 31 → resp.decisionId = generateUuidv4 random →
      chunks.flatten = earlier.flatMap framed ++
        writeCommand (openGateCommand frame resp (generateUuidv4 random') now) →
      Takes (exec Inbound.onDataChunk (Inbound.start buffer) chunks) earlier
        (openGateCommand frame resp (generateUuidv4 random') now) := by
  constructor
  · intro req random now c haccepted hcut
    have hc : c = stampCommand req (generateUuidv4 random) now := by
      unfold issueCommand at haccepted
      split at haccepted
      · cases haccepted
      split at haccepted
      · cases haccepted
      cases haccepted
      rfl
    rw [takes_iff hbuffer hearlier hcut, hc, decodable_stampCommand req (by
      rw [length_generateUuidv4]
      decide)]
  · intro frame resp random random' now hgate hdecision hcut
    have hid : resp.decisionId.length = 36 := by rw [hdecision, length_generateUuidv4]
    have hdecodable := decodable_openGateCommand hgate hid (length_generateUuidv4 random') now
    have hlength := Wire.GateCommand.length_envelope_le hdecodable rfl (by rintro t ⟨⟩; rfl) nofun
    rw [takes_iff hbuffer hearlier hcut]
    exact ⟨hdecodable,hlength.trans (by decide)⟩

/-- A short command of a dashboard, and a command behind a decision. -/
theorem accepted_commands_taken_short :
    let buffer := List.replicate kMaxInMessage 0
    let req : Wire.GateCommand := { gateId := [103], kind := 1, actor := [97] }
    let c := stampCommand req (generateUuidv4 fun _ => 7) 5
    let c' := openGateCommand { gateId := [103] } ⟨generateUuidv4 fun _ => 7,5,[103],.authorized,.none,
      [],.unknown,1,"",0,[]⟩ (generateUuidv4 fun _ => 9) 5
    Takes (exec Inbound.onDataChunk (Inbound.start buffer) [writeCommand c]) [] c ∧
      Takes (exec Inbound.onDataChunk (Inbound.start buffer) [writeCommand c']) [] c' := by
  intro buffer req c c'
  have hbuffer : buffer.length = kMaxInMessage := List.length_replicate
  have hcut : ∀ bytes : List UInt8, [bytes].flatten = [].flatMap framed ++ bytes := by
    intro bytes
    rw [List.flatten_singleton, List.flatMap_nil, List.nil_append]
  constructor
  · have haccepted : issueCommand req (generateUuidv4 fun _ => 7) 5 = .ok c :=
      issueCommand_of_accepted (by decide) (by decide) _ _
    refine ((accepted_commands_taken_iff buffer hbuffer [] _ nofun).1 req (fun _ => 7) 5 c haccepted
      (hcut _)).mpr ⟨?_,?_⟩
    · exact ⟨by decide,by decide,by decide,by decide,by decide,by decide,nofun,nofun,nofun⟩
    · decide +kernel
  · exact (accepted_commands_taken_iff buffer hbuffer [] _ nofun).2 { gateId := [103] } _
      (fun _ => 7) (fun _ => 9) 5 (by decide) rfl (hcut _)

/-- An actor of forty-eight bytes costs the command, an id of eleven hundred bytes the session. -/
theorem accepted_commands_not_taken :
    let buffer := List.replicate kMaxInMessage 0
    let req : Wire.GateCommand := { gateId := [103], kind := 1, actor := List.replicate 48 97 }
    let req' : Wire.GateCommand := { gateId := [103], kind := 1, commandId := List.replicate 1100 97 }
    let c := stampCommand req (generateUuidv4 fun _ => 7) 5
    let c' := stampCommand req' (generateUuidv4 fun _ => 7) 5
    let s := exec Inbound.onDataChunk (Inbound.start buffer) [writeCommand c]
    let s' := exec Inbound.onDataChunk (Inbound.start buffer) [writeCommand c']
    (issueCommand req (generateUuidv4 fun _ => 7) 5 = .ok c ∧ s.failure = none ∧
      s.handled = [c.envelope] ∧ Wire.handleMessage c.envelope = none) ∧
    issueCommand req' (generateUuidv4 fun _ => 7) 5 = .ok c' ∧ s'.failure = some .errorOversize := by
  refine ⟨⟨issueCommand_of_accepted ?_ ?_ _ _,?_,?_,?_⟩,issueCommand_of_accepted ?_ ?_ _ _,?_⟩ <;>
    decide +kernel

end AlprGate.ServerRpc
