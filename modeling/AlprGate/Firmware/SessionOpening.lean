import AlprGate.Firmware.ControlClient
import AlprGate.Server.ControlSessions

/-! # What greets the server

The server identifies a gate by the first envelope of its stream, which has to be telemetry. The
client queues telemetry as soon as a stream exists, and it resets the queue behind every session.
But the connected flag is up before telemetry is on the queue, and a task that has looked at the
flag in one session can post behind the reset. So the completion of another task can be what greets
the server, and then the server refuses the session and the completion is gone.
-/
namespace AlprGate.Rpc
open LengthPrefix Transition

/-- The largest encoding of telemetry in its envelope: a tag, a length of two bytes and the
generated `Telemetry_size`. -/
def kMaxTelemetryEnvelope : ℕ := 1 + 2 + 206

/-- The generated bound on telemetry, next to the one on acks. -/
def Codec.TelemetryFits (codec : Codec) : Prop :=
  ∀ t, ∃ body, codec.encode (.telemetry t) = some body ∧ body.length ≤ kMaxTelemetryEnvelope

/-- What the server sees of an envelope from the gate with the given id. -/
def ControlEnvelope.payload (gateId : String) : ControlEnvelope → Dash.ControlPayload
  | .telemetry _ => .telemetry gateId
  | .ack _ => .ack

/-- The server's parser, on what the firmware encodes. -/
structure EnvelopeReader (codec : Codec) (gateId : String) where
  parse : List UInt8 → Option Dash.ControlPayload
  parse_encode : ∀ env body, codec.encode env = some body →
    parse body = some (env.payload gateId)

/-- A frame that waits to be sent holds the encoding of its message. -/
def ClientOp.Ready (cfg : ClientConfig) : ClientOp → Prop
  | .post m body => pbEncode cfg.codec.encode m.envelope = some body
  | _ => True

/-- The operations of a task that sends completions only. -/
def ClientOp.Completes : ClientOp → Prop
  | .sendAckReceived _ => False
  | .check m | .post m _ => ∃ v a, m = .completed v a
  | _ => True

/-- The operations that send the first telemetry, as far as they are not done. -/
inductive Greets : List ClientOp → Prop
  | store (w : WireState) (t : Telemetry) : Greets [.storeWireState w, .check (.telemetry t)]
  | check (t : Telemetry) : Greets [.check (.telemetry t)]
  | post (t : Telemetry) (body : List UInt8) : Greets [.post (.telemetry t) body]

/-- What can be the first message behind a reset. -/
inductive Heads : ClientTask × Outgoing → Prop
  | telemetry (t : Telemetry) : Heads (.rpc,.telemetry t)
  | completion {task : ClientTask} (h : task ≠ .rpc) (v : Verdict) (a : CommandAck) :
    Heads (task,.completed v a)

namespace ControlClient

/-- The message that an operation puts on the queue. -/
def posts (c : ControlClient) : ClientOp → Option Outgoing
  | .post m body => if (c.outbound.enqueue body).2 = true then some m else none
  | _ => none

/-- The messages that have come to the queue since it was reset, with the tasks that sent them. -/
def posting (c : ControlClient) (a : ClientInput) (posted : List (ClientTask × Outgoing)) :
    List (ClientTask × Outgoing) :=
  match a with
  | .reset => if c.At .closing then [] else posted
  | .run t _ => posted ++ (((c.ops t).head?.bind c.posts).map fun m => (t,m)).toList
  | _ => posted

def bodies (cfg : ClientConfig) (posted : List (ClientTask × Outgoing)) : List (List UInt8) :=
  posted.map fun p => (pbEncode cfg.codec.encode p.2.envelope).getD []

/-! ### What a task changes -/

/-- The task `t` has `l` left to do, and nothing else has changed that a session depends on. -/
structure Turns (c c' : ControlClient) (t : ClientTask) (l : List ClientOp) : Prop where
  phase : c'.phase = c.phase
  connected : c'.connected = c.connected
  outbound : c'.outbound = c.outbound
  delivered : c'.delivered = c.delivered
  waiting : c'.waiting = c.waiting
  ops : c'.ops t = l
  other : ∀ t', t' ≠ t → c'.ops t' = c.ops t'

section Turns
variable {c c' : ControlClient} {t : ClientTask} {l rest : List ClientOp} {cfg : ClientConfig}

theorem ops_setOps (c : ControlClient) (t : ClientTask) (l : List ClientOp) :
    (c.setOps t l).ops t = l := by
  cases t with
  | rpc => rfl
  | ctrl => rfl
  | ota => rfl

theorem ops_setOps_of_ne {t' : ClientTask} (h : t' ≠ t) : (c.setOps t l).ops t' = c.ops t' := by
  cases t with
  | rpc => cases t' <;> first | rfl | exact absurd rfl h
  | ctrl => cases t' <;> first | rfl | exact absurd rfl h
  | ota => cases t' <;> first | rfl | exact absurd rfl h

theorem turns_setOps (c : ControlClient) (t : ClientTask) (l : List ClientOp) :
    Turns c (c.setOps t l) t l := by
  refine ⟨?_,?_,?_,?_,?_,ops_setOps c t l,fun _ => ops_setOps_of_ne⟩
  all_goals cases t <;> rfl

/-- The tracker, the cached state and the books are nothing that a session depends on. -/
theorem Turns.update (h : Turns c c' t l) (tracker : CommandTracker) (w : WireState)
    (seq : BitVec 64) (resolved lost : List Verdict) :
    Turns c { c' with tracker, lastWireState := w, telemetrySeq := seq, resolved, lost } t l :=
  ⟨h.phase,h.connected,h.outbound,h.delivered,h.waiting,h.ops,h.other⟩

theorem turns_settle (c : ControlClient) (t : ClientTask) (rest : List ClientOp) (v : Verdict) :
    Turns c (c.settle t rest v) t (.sendAckCompleted v :: rest) :=
  (turns_setOps c t _).update _ _ _ _ _

theorem turns_drop (c : ControlClient) (t : ClientTask) (rest : List ClientOp) (m : Outgoing) :
    Turns c ((c.setOps t rest).drop m) t rest :=
  (turns_setOps c t rest).update _ _ _ _ _

/-- A call of the tracker leaves at most a completion to be sent. -/
theorem turns_track (c : ControlClient) (t : ClientTask) (rest : List ClientOp)
    (r : CommandTracker × Option Verdict) :
    Turns c (c.track t rest r) t (r.2.toList.map ClientOp.sendAckCompleted ++ rest) := by
  unfold track
  cases r.2 with
  | none => exact (turns_setOps c t rest).update _ _ _ _ _
  | some v =>
    have hsettle := turns_settle { c with tracker := r.1 } t rest v
    exact ⟨hsettle.phase,hsettle.connected,hsettle.outbound,hsettle.delivered,hsettle.waiting,
      hsettle.ops,hsettle.other⟩

theorem turns_sendTelemetry (c : ControlClient) (t : Telemetry) :
    Turns c (c.sendTelemetry t) .rpc
      [.storeWireState t.gateState, .check (.telemetry { t with seq := c.telemetrySeq })] := by
  have hturns := turns_setOps c .rpc
    [.storeWireState t.gateState, .check (.telemetry { t with seq := c.telemetrySeq })]
  exact ⟨rfl,rfl,rfl,rfl,rfl,rfl,hturns.other⟩

/-- What follows on an operation that posts nothing. -/
theorem turns_runOp (cfg : ClientConfig) (c : ControlClient) (t : ClientTask) (rest : List ClientOp)
    (now : Clocks) {op : ClientOp} (hop : ∀ m body, op ≠ .post m body) :
    ∃ l, (∀ o ∈ l, o.Ready cfg ∧ (op.Completes → o.Completes)) ∧
      Turns c (c.runOp cfg t rest now op) t (l ++ rest) := by
  have hnone : ∀ o ∈ ([] : List ClientOp), o.Ready cfg ∧ (op.Completes → o.Completes) := by simp
  have hverdict : ∀ v : Verdict, ∀ o ∈ [ClientOp.sendAckCompleted v],
      o.Ready cfg ∧ (op.Completes → o.Completes) := by
    intro v o ho
    rw [List.mem_singleton.mp ho]
    exact ⟨trivial,fun _ => trivial⟩
  have htracked : ∀ r : CommandTracker × Option Verdict,
      ∀ o ∈ r.2.toList.map ClientOp.sendAckCompleted,
        o.Ready cfg ∧ (op.Completes → o.Completes) := by
    intro r o ho
    obtain ⟨v,_,rfl⟩ := List.mem_map.mp ho
    exact ⟨trivial,fun _ => trivial⟩
  cases op with
  | storeWireState w => exact ⟨[],hnone,(turns_setOps c t rest).update _ _ _ _ _⟩
  | sendAckReceived commandId =>
    refine ⟨[.check (.received (c.ackReceived commandId now))],?_,turns_setOps c t _⟩
    intro o ho
    rw [List.mem_singleton.mp ho]
    exact ⟨trivial,fun h => absurd h not_false⟩
  | dispatch commandId r =>
    change ∃ l, _ ∧ Turns c (c.dispatch cfg t rest commandId r) t (l ++ rest)
    unfold dispatch
    split
    · exact ⟨_,hverdict _,turns_settle c t rest _⟩
    split
    · exact ⟨_,hverdict _,turns_settle c t rest _⟩
    split
    · exact ⟨_,hverdict _,turns_settle c t rest _⟩
    split
    · exact ⟨[],hnone,turns_setOps c t rest⟩
    · refine ⟨[.arm commandId r.terminalOk],?_,turns_setOps c t _⟩
      intro o ho
      rw [List.mem_singleton.mp ho]
      exact ⟨trivial,fun _ => trivial⟩
  | arm commandId terminalOk => exact ⟨_,htracked _,turns_track c t rest _⟩
  | gateEvent s r transitioned => exact ⟨_,htracked _,turns_track c t rest _⟩
  | sendAckCompleted v =>
    refine ⟨[.check (.completed v (c.ackCompleted v now))],?_,turns_setOps c t _⟩
    intro o ho
    rw [List.mem_singleton.mp ho]
    exact ⟨trivial,fun _ => ⟨v,_,rfl⟩⟩
  | check m =>
    unfold runOp
    dsimp only
    split
    · rename_i body hbody
      split
      · refine ⟨[.post m body],?_,turns_setOps c t _⟩
        intro o ho
        rw [List.mem_singleton.mp ho]
        exact ⟨hbody,id⟩
      · exact ⟨[],hnone,turns_drop c t rest m⟩
    · exact ⟨[],hnone,turns_drop c t rest m⟩
  | post m body => exact absurd rfl (hop m body)

theorem pbEncode_telemetry {codec : Codec} (hfits : codec.TelemetryFits) (t : Telemetry) :
    ∃ body, pbEncode codec.encode (.telemetry t) = some body := by
  obtain ⟨body,hbody,hlength⟩ := hfits t
  refine ⟨body,?_⟩
  rw [pbEncode, hbody]
  exact if_pos (hlength.trans (by decide))

/-- Under a raised flag the first telemetry comes to the queue. -/
theorem greets_runOp (hfits : cfg.codec.TelemetryFits) (hconnected : c.connected = true)
    {op : ClientOp} (h : Greets (op :: rest)) (hop : ∀ m body, op ≠ .post m body) (now : Clocks) :
    Greets (c.runOp cfg .rpc rest now op).rpc := by
  cases h with
  | store w tel => exact .check tel
  | check tel =>
    obtain ⟨body,hbody⟩ := pbEncode_telemetry hfits tel
    have hrun : c.runOp cfg .rpc [] now (.check (.telemetry tel)) =
        c.setOps .rpc [.post (.telemetry tel) body] := by
      unfold ControlClient.runOp
      dsimp only [Outgoing.envelope]
      rw [hbody]
      exact if_pos hconnected
    rw [hrun]
    exact .post tel body
  | post tel body => exact absurd rfl (hop _ _)

end Turns

/-! ### The queue and what has been posted -/

/-- Between two sessions the queue holds what has been posted since the reset. -/
structure Shelved (cfg : ClientConfig) (c : ControlClient) (posted : List (ClientTask × Outgoing)) :
    Prop where
  queue : c.outbound.queue = (bodies cfg posted).map framed
  waiting : ∀ p ∈ posted, ∀ v ∈ p.2.completion, v ∈ c.waiting

/-- In a session all that has been posted since the reset is sent in its order, and before there is
anything the first telemetry is on its way. -/
structure Sending (cfg : ClientConfig) (c : ControlClient) (posted : List (ClientTask × Outgoing)) :
    Prop where
  queued : c.outbound.queued = bodies cfg posted
  inOrder : c.outbound.InOrder
  delivered : ∀ p ∈ posted, ∀ v ∈ p.2.completion, v ∈ c.delivered
  greets : posted = [] → Greets c.rpc

structure Filed (cfg : ClientConfig) (c : ControlClient) (posted : List (ClientTask × Outgoing)) :
    Prop where
  ready : ∀ t, ∀ op ∈ c.ops t, op.Ready cfg
  others : ∀ t, t ≠ .rpc → ∀ op ∈ c.ops t, op.Completes
  idle : c.phase ≠ .live → c.rpc = []
  connected : c.connected = true ↔ c.phase = .live
  encoded : ∀ p ∈ posted, ∃ body, pbEncode cfg.codec.encode p.2.envelope = some body
  heads : ∀ p ∈ posted.head?, Heads p
  offline : c.phase = .offline → Shelved cfg c posted
  live : c.phase = .live → Sending cfg c posted

section Filed
variable {cfg : ClientConfig} {c c' : ControlClient} {posted : List (ClientTask × Outgoing)}
  {t : ClientTask} {l rest : List ClientOp}

theorem bodies_append (cfg : ClientConfig) (posted : List (ClientTask × Outgoing)) {m : Outgoing}
    {body : List UInt8} (t : ClientTask) (h : pbEncode cfg.codec.encode m.envelope = some body) :
    bodies cfg (posted ++ [(t,m)]) = bodies cfg posted ++ [body] := by
  rw [bodies, List.map_append, List.map_singleton, h]
  rfl

theorem length_of_mem_bodies (h : Filed cfg c posted) {body : List UInt8}
    (hbody : body ∈ bodies cfg posted) : body.length ≤ kMaxOutFrame - kFrameHeaderSize := by
  obtain ⟨p,hp,rfl⟩ := List.mem_map.mp hbody
  obtain ⟨body,hbody⟩ := h.encoded p hp
  rw [hbody]
  exact Outbound.pbEncode_length hbody

/-- Nothing that a session depends on changes but what one task has to do. -/
theorem Filed.turns (h : Filed cfg c posted) (hturns : Turns c c' t l)
    (hready : ∀ op ∈ l, op.Ready cfg) (hothers : t ≠ .rpc → ∀ op ∈ l, op.Completes)
    (hidle : t = .rpc → c.phase ≠ .live → l = [])
    (hgreets : t = .rpc → c.phase = .live → posted = [] → Greets l) : Filed cfg c' posted := by
  have hrpc : t ≠ .rpc → c'.rpc = c.rpc := fun ht => hturns.other .rpc ht.symm
  refine ⟨?_,?_,?_,?_,h.encoded,h.heads,?_,?_⟩
  · intro t' op hmem
    by_cases ht' : t' = t
    · rw [ht', hturns.ops] at hmem
      exact hready op hmem
    · rw [hturns.other t' ht'] at hmem
      exact h.ready t' op hmem
  · intro t' hne op hmem
    by_cases ht' : t' = t
    · rw [ht', hturns.ops] at hmem
      exact hothers (ht' ▸ hne) op hmem
    · rw [hturns.other t' ht'] at hmem
      exact h.others t' hne op hmem
  · intro hphase
    rw [hturns.phase] at hphase
    by_cases ht : t = .rpc
    · subst ht
      exact hturns.ops.trans (hidle rfl hphase)
    · exact (hrpc ht).trans (h.idle hphase)
  · rw [hturns.connected, hturns.phase]
    exact h.connected
  · intro hphase
    rw [hturns.phase] at hphase
    have hoff := h.offline hphase
    exact ⟨hturns.outbound ▸ hoff.queue,hturns.waiting ▸ hoff.waiting⟩
  · intro hphase
    rw [hturns.phase] at hphase
    have hlive := h.live hphase
    refine ⟨hturns.outbound ▸ hlive.queued,hturns.outbound ▸ hlive.inOrder,
      hturns.delivered ▸ hlive.delivered,fun hnil => ?_⟩
    by_cases ht : t = .rpc
    · subst ht
      rw [show c'.rpc = l from hturns.ops]
      exact hgreets rfl hphase hnil
    · exact (hrpc ht).symm ▸ hlive.greets hnil

theorem Filed.rpc_live (h : Filed cfg c posted) {op : ClientOp} (hops : c.ops t = op :: rest)
    (ht : t = .rpc) : c.phase = .live := by
  by_contra hphase
  subst ht
  cases hops.symm.trans (h.idle hphase)

/-- An operation that posts nothing. -/
theorem Filed.runOp (h : Filed cfg c posted) (hfits : cfg.codec.TelemetryFits) {op : ClientOp}
    (hops : c.ops t = op :: rest) (hop : ∀ m body, op ≠ .post m body) (now : Clocks) :
    Filed cfg (c.runOp cfg t rest now op) posted := by
  obtain ⟨l,hl,hturns⟩ := turns_runOp cfg c t rest now hop
  have hrest : ∀ o ∈ rest, o ∈ c.ops t := fun o ho => hops ▸ List.mem_cons_of_mem op ho
  have hself : op ∈ c.ops t := hops ▸ List.mem_cons_self
  refine h.turns hturns ?_ ?_ ?_ ?_
  · intro o ho
    rcases List.mem_append.mp ho with ho | ho
    · exact (hl o ho).1
    · exact h.ready t o (hrest o ho)
  · intro ht o ho
    rcases List.mem_append.mp ho with ho | ho
    · exact (hl o ho).2 (h.others t ht op hself)
    · exact h.others t ht o (hrest o ho)
  · exact fun ht hphase => absurd (h.rpc_live hops ht) hphase
  · intro ht hphase hnil
    subst ht
    have hgreets := (h.live hphase).greets hnil
    rw [show c.rpc = op :: rest from hops] at hgreets
    rw [← hturns.ops]
    exact greets_runOp hfits (h.connected.mpr hphase) hgreets hop now

/-- Before anything has been posted in a session there is room on the queue. -/
theorem Sending.room (h : Sending cfg c []) (body : List UInt8) :
    (c.outbound.enqueue body).2 = true := by
  obtain ⟨done,inHand,waiting,hreading⟩ := h.inOrder
  have hnil : done ++ inHand ++ waiting = [] := hreading.split.symm.trans h.queued
  have hqueue : c.outbound.queue = [] := by
    rw [hreading.queue, (List.append_eq_nil_iff.mp hnil).2]
    rfl
  rw [Outbound.enqueue, hqueue]
  rfl

/-- The first message is telemetry of the `gate_rpc` task or a completion of another one. -/
theorem Filed.heads_post (h : Filed cfg c []) {m : Outgoing} {body : List UInt8}
    (hops : c.ops t = .post m body :: rest) : Heads (t,m) := by
  by_cases ht : t = .rpc
  · have hgreets := (h.live (h.rpc_live hops ht)).greets rfl
    subst ht
    rw [show c.rpc = .post m body :: rest from hops] at hgreets
    cases hgreets with
    | post tel => exact .telemetry tel
  · obtain ⟨v,a,rfl⟩ := h.others t ht (.post m body) (hops ▸ List.mem_cons_self)
    exact .completion ht v a

theorem mem_keep {m : Outgoing} {v : Verdict} (hv : v ∈ m.completion) :
    (c.connected = true → v ∈ (c.keep m).delivered) ∧
      (c.connected = false → v ∈ (c.keep m).waiting) := by
  have hmem : v ∈ m.completion.toList := Option.mem_toList.mpr hv
  constructor
  · intro hconnected
    rw [keep, if_pos hconnected]
    exact List.mem_append_right _ hmem
  · intro hconnected
    rw [keep, if_neg (by rw [hconnected]; decide)]
    exact List.mem_append_right _ hmem

/-- What `keep` leaves as it is, and that the books only grow. -/
theorem keep_frame (c : ControlClient) (m : Outgoing) :
    (c.keep m).phase = c.phase ∧ (c.keep m).connected = c.connected ∧
      (c.keep m).outbound = c.outbound ∧ (∀ t, (c.keep m).ops t = c.ops t) ∧
      c.delivered ⊆ (c.keep m).delivered ∧ c.waiting ⊆ (c.keep m).waiting := by
  unfold keep
  split
  · exact ⟨rfl,rfl,rfl,fun _ => rfl,List.subset_append_left _ _,List.Subset.refl _⟩
  · exact ⟨rfl,rfl,rfl,fun _ => rfl,List.Subset.refl _,List.subset_append_left _ _⟩

theorem enqueue_of_room {o : Outbound} {body : List UInt8} (h : (o.enqueue body).2 = true) :
    (o.enqueue body).1 =
      { o with queue := o.queue ++ [framed body], queued := o.queued ++ [body] } := by
  unfold Outbound.enqueue at h ⊢
  split
  · rfl
  · rename_i hfull
    rw [if_neg hfull] at h
    cases h

/-- A task that posts has done nothing else. -/
theorem mem_ops_posted {m : Outgoing} {o : Outbound} {op op' : ClientOp} {t' : ClientTask}
    (hops : c.ops t = op :: rest)
    (h : op' ∈ ({ c.setOps t rest with outbound := o }.keep m).ops t') : op' ∈ c.ops t' := by
  have hkept := (keep_frame { c.setOps t rest with outbound := o } m).2.2.2.1 t'
  have hsame : ({ c.setOps t rest with outbound := o } : ControlClient).ops t' =
      (c.setOps t rest).ops t' := rfl
  rw [hkept, hsame] at h
  by_cases ht' : t' = t
  · subst ht'
    rw [ops_setOps] at h
    exact hops ▸ List.mem_cons_of_mem op h
  · rw [ops_setOps_of_ne ht'] at h
    exact h

/-- A frame comes to the queue. -/
theorem Filed.post (h : Filed cfg c posted) {m : Outgoing} {body : List UInt8}
    (hops : c.ops t = .post m body :: rest) (hroom : (c.outbound.enqueue body).2 = true) :
    Filed cfg ({ c.setOps t rest with outbound := (c.outbound.enqueue body).1 }.keep m)
      (posted ++ [(t,m)]) := by
  have hbody : pbEncode cfg.codec.encode m.envelope = some body :=
    h.ready t (.post m body) (hops ▸ List.mem_cons_self)
  have hturns := turns_setOps c t rest
  obtain ⟨hphase,hconnected,houtbound,-,hdelivered,hwaiting⟩ :=
    keep_frame { c.setOps t rest with outbound := (c.outbound.enqueue body).1 } m
  have hqueue := enqueue_of_room hroom
  refine ⟨?_,?_,?_,?_,?_,?_,?_,?_⟩
  · exact fun t' o ho => h.ready t' o (mem_ops_posted hops ho)
  · exact fun t' ht' o ho => h.others t' ht' o (mem_ops_posted hops ho)
  · intro hoff
    rw [hphase] at hoff
    refine List.eq_nil_iff_forall_not_mem.mpr fun o ho => ?_
    have hmem : o ∈ c.rpc := mem_ops_posted hops (show o ∈ ControlClient.ops _ .rpc from ho)
    rw [h.idle (hturns.phase ▸ hoff)] at hmem
    exact List.not_mem_nil hmem
  · rw [hconnected, hphase]
    exact (hturns.connected.symm ▸ hturns.phase.symm ▸ h.connected)
  · refine List.forall_mem_append.mpr ⟨h.encoded,List.forall_mem_singleton.mpr ⟨body,hbody⟩⟩
  · cases posted with
    | nil =>
      rintro p ⟨⟩
      exact h.heads_post hops
    | cons p posted => exact h.heads
  · intro hoff
    rw [hphase] at hoff
    have hshelved := h.offline (hturns.phase ▸ hoff)
    have hdown : (c.setOps t rest).connected = false := by
      rw [hturns.connected]
      refine Bool.eq_false_of_not_eq_true fun hup => ?_
      cases (h.connected.mp hup).symm.trans (hturns.phase ▸ hoff)
    refine ⟨?_,List.forall_mem_append.mpr ⟨?_,List.forall_mem_singleton.mpr ?_⟩⟩
    · rw [houtbound, bodies_append cfg posted t hbody, List.map_append, ← hshelved.queue]
      exact congrArg Outbound.queue hqueue
    · intro p hp v hv
      exact hwaiting (hturns.waiting.symm ▸ hshelved.waiting p hp v hv)
    · exact fun v hv => (mem_keep hv).2 hdown
  · intro hlive
    rw [hphase] at hlive
    have hsending := h.live (hturns.phase ▸ hlive)
    have hup : (c.setOps t rest).connected = true := by
      rw [hturns.connected]
      exact h.connected.mpr (hturns.phase ▸ hlive)
    refine ⟨?_,?_,List.forall_mem_append.mpr ⟨?_,List.forall_mem_singleton.mpr ?_⟩,?_⟩
    · rw [houtbound, bodies_append cfg posted t hbody, ← hsending.queued]
      exact congrArg Outbound.queued hqueue
    · rw [houtbound]
      obtain ⟨done,inHand,waiting,hreading⟩ := hsending.inOrder
      exact hreading.enqueue (Outbound.pbEncode_length hbody)
    · intro p hp v hv
      exact hdelivered (hturns.delivered.symm ▸ hsending.delivered p hp v hv)
    · exact fun v hv => (mem_keep hv).1 hup
    · exact fun hnil => absurd hnil (List.append_ne_nil_of_right_ne_nil _ (List.cons_ne_nil _ _))

/-- A task runs its next operation. -/
theorem Filed.run (h : Filed cfg c posted) (hfits : cfg.codec.TelemetryFits) (t : ClientTask)
    (now : Clocks) :
    Filed cfg (c.step cfg (.run t now)) (c.posting (.run t now) posted) := by
  cases hops : c.ops t with
  | nil =>
    have hstep : c.step cfg (.run t now) = c := by simp [ControlClient.step, hops]
    have hposted : c.posting (.run t now) posted = posted := by simp [posting, hops]
    rw [hstep, hposted]
    exact h
  | cons op rest =>
    have hstep : c.step cfg (.run t now) = c.runOp cfg t rest now op := by
      simp [ControlClient.step, hops]
    have hposted : c.posting (.run t now) posted =
        posted ++ ((c.posts op).map fun m => (t,m)).toList := by
      simp [posting, hops]
    rw [hstep, hposted]
    by_cases hpost : ∃ m body, op = .post m body
    · obtain ⟨m,body,rfl⟩ := hpost
      by_cases hroom : (c.outbound.enqueue body).2 = true
      · rw [posts, if_pos hroom, ControlClient.runOp, if_pos hroom]
        exact h.post hops hroom
      · rw [posts, if_neg hroom, ControlClient.runOp, if_neg hroom]
        have hmem : ∀ o ∈ rest, o ∈ c.ops t := fun o ho => hops ▸ List.mem_cons_of_mem _ ho
        refine (List.append_nil posted).symm ▸ h.turns (turns_drop c t rest m)
          (fun o ho => h.ready t o (hmem o ho)) (fun ht o ho => h.others t ht o (hmem o ho))
          (fun ht hphase => absurd (h.rpc_live hops ht) hphase) ?_
        rintro - hphase rfl
        exact absurd ((h.live hphase).room body) hroom
    · have hnone : c.posts op = none := by
        cases op with
        | post m body => exact absurd ⟨m,body,rfl⟩ hpost
        | _ => rfl
      rw [hnone]
      exact (List.append_nil posted).symm ▸
        h.runOp hfits hops (fun m body heq => hpost ⟨m,body,heq⟩) now

theorem Filed.turns_of_rpc (h : Filed cfg c posted) (hat : c.At .live) {l : List ClientOp}
    (hturns : Turns c c' .rpc l) (hready : ∀ op ∈ l, op.Ready cfg) : Filed cfg c' posted := by
  refine h.turns hturns hready (fun ht => absurd rfl ht) (fun _ hphase => absurd hat.1 hphase) ?_
  -- a session that is between two calls has posted its telemetry
  intro _ hphase hnil
  have hgreets := (h.live hphase).greets hnil
  rw [hat.2] at hgreets
  cases hgreets

theorem Filed.turns_of_other (h : Filed cfg c posted) (ht : t ≠ .rpc) (hturns : Turns c c' t l)
    (hl : ∀ op ∈ l, op.Ready cfg ∧ op.Completes) : Filed cfg c' posted :=
  h.turns hturns (fun op hop => (hl op hop).1) (fun _ op hop => (hl op hop).2)
    (fun heq => absurd heq ht) fun heq => absurd heq ht

theorem drop_framed (body : List UInt8) : (framed body).drop kFrameHeaderSize = body :=
  List.drop_left' rfl

/-- A session starts with what is on the queue. -/
theorem Filed.connect (h : Filed cfg c posted) (hat : c.At .offline) (t : Telemetry) :
    Filed cfg (c.step cfg (.connect t)) posted := by
  have hshelved := h.offline hat.1
  have hqueued : c.outbound.session.queued = bodies cfg posted := by
    rw [Outbound.session, hshelved.queue, List.map_map]
    exact (List.map_congr_left fun body _ => drop_framed body).trans (List.map_id _)
  rw [ControlClient.step, if_pos hat]
  refine ⟨?_,?_,fun hphase => absurd rfl hphase,iff_of_true rfl rfl,h.encoded,h.heads,
    fun hphase => Phase.noConfusion hphase,fun _ => ?_⟩
  · intro t' op hop
    cases t' with
    | rpc =>
      rcases List.mem_pair.mp hop with rfl | rfl
      · trivial
      · trivial
    | ctrl => exact h.ready .ctrl op hop
    | ota => exact h.ready .ota op hop
  · intro t' ht' op hop
    cases t' with
    | rpc => exact absurd rfl ht'
    | ctrl => exact h.others .ctrl ht' op hop
    | ota => exact h.others .ota ht' op hop
  · refine ⟨hqueued,⟨[],[],bodies cfg posted,hqueued,?_,hshelved.queue,rfl,rfl⟩,?_,
      fun _ => .store _ _⟩
    · intro body hbody
      exact length_of_mem_bodies h (hqueued ▸ hbody)
    · intro p hp v hv
      exact List.mem_append_right _ (hshelved.waiting p hp v hv)

/-- Behind a session, or an attempt at one, nothing is asked of the queue. -/
theorem Filed.closing (h : Filed cfg c posted) (hidle : c.rpc = []) :
    Filed cfg { c with phase := .closing, connected := false } posted :=
  ⟨h.ready,h.others,fun _ => hidle,iff_of_false Bool.false_ne_true Phase.noConfusion,h.encoded,
    h.heads,fun hphase => Phase.noConfusion hphase,fun hphase => Phase.noConfusion hphase⟩

/-- The queue is emptied and nothing has been posted since. -/
theorem Filed.reset (h : Filed cfg c posted) (hat : c.At .closing) :
    Filed cfg (c.step cfg .reset) [] := by
  rw [ControlClient.step, if_pos hat]
  exact ⟨h.ready,h.others,fun _ => hat.2,iff_of_false Bool.false_ne_true Phase.noConfusion,
    List.forall_mem_nil _,fun _ hp => absurd hp (Option.not_mem_none _),
    fun _ => ⟨rfl,List.forall_mem_nil _⟩,fun hphase => Phase.noConfusion hphase⟩

/-- The pump and HTTP/2 take from the queue in its order. -/
theorem Filed.pump (h : Filed cfg c posted) (hphase : c.phase = .live) {o : Outbound}
    (hqueued : o.queued = c.outbound.queued) (horder : o.InOrder) :
    Filed cfg { c with outbound := o } posted := by
  have hlive := h.live hphase
  exact ⟨h.ready,h.others,h.idle,h.connected,h.encoded,h.heads,
    fun hoff => Phase.noConfusion (hphase.symm.trans hoff),
    fun _ => ⟨hqueued.trans hlive.queued,horder,hlive.delivered,hlive.greets⟩⟩

theorem queued_refill (o : Outbound) : o.refill.queued = o.queued := by
  unfold Outbound.refill
  split
  · rfl
  · rfl

theorem queued_dataRead (o : Outbound) (length : ℕ) : (o.dataRead length).1.queued = o.queued := by
  unfold Outbound.dataRead
  split
  · rfl
  · dsimp only
    split
    · split
      · rfl
      · rfl
    · split
      · rfl
      · rfl

theorem forall_mem_verdicts (v : Option Verdict) :
    ∀ op ∈ v.toList.map ClientOp.sendAckCompleted ++ [], op.Ready cfg := by
  intro op hop
  rw [List.append_nil] at hop
  obtain ⟨v,_,rfl⟩ := List.mem_map.mp hop
  trivial

theorem Filed.step (hfits : cfg.codec.TelemetryFits) (h : Filed cfg c posted) (a : ClientInput) :
    Filed cfg (c.step cfg a) (c.posting a posted) := by
  cases a with
  | connect t =>
    by_cases hat : c.At .offline
    · exact h.connect hat t
    · rw [ControlClient.step, if_neg hat]
      exact h
  | connectFails =>
    refine iteInduction (motive:=fun c => Filed cfg c posted) (fun hat => ?_) fun _ => h
    have hdown : c.connected = false :=
      Bool.eq_false_of_not_eq_true fun hup => by cases hat.1.symm.trans (h.connected.mp hup)
    have hclosing := h.closing hat.2
    rw [← hdown] at hclosing
    exact hclosing
  | telemetry t =>
    refine iteInduction (motive:=fun c => Filed cfg c posted) (fun hat => ?_) fun _ => h
    refine h.turns_of_rpc hat (turns_sendTelemetry c t) ?_
    exact List.forall_mem_cons.mpr ⟨trivial,List.forall_mem_singleton.mpr trivial⟩
  | tick nowMs =>
    refine iteInduction (motive:=fun c => Filed cfg c posted) (fun hat => ?_) fun _ => h
    exact h.turns_of_rpc hat (turns_track c .rpc [] _) (forall_mem_verdicts _)
  | refill =>
    refine iteInduction (motive:=fun c => Filed cfg c posted) (fun hat => ?_) fun _ => h
    obtain ⟨done,inHand,waiting,hreading⟩ := (h.live hat.1).inOrder
    exact h.pump hat.1 (queued_refill _) hreading.refill
  | dataRead length =>
    refine iteInduction (motive:=fun c => Filed cfg c posted) (fun hat => ?_) fun _ => h
    obtain ⟨done,inHand,waiting,hreading⟩ := (h.live hat.1).inOrder
    exact h.pump hat.1 (queued_dataRead _ length) (hreading.dataRead length)
  | command commandId r =>
    refine iteInduction (motive:=fun c => Filed cfg c posted) (fun hat => ?_) fun _ => h
    refine h.turns_of_rpc hat (turns_setOps c .rpc _) ?_
    exact List.forall_mem_cons.mpr ⟨trivial,List.forall_mem_singleton.mpr trivial⟩
  | disconnect =>
    exact iteInduction (motive:=fun c => Filed cfg c posted) (fun hat => h.closing hat.2) fun _ => h
  | reset =>
    by_cases hat : c.At .closing
    · rw [posting, if_pos hat]
      exact h.reset hat
    · rw [posting, if_neg hat, ControlClient.step, if_neg hat]
      exact h
  | gateEvent s r transitioned =>
    refine iteInduction (motive:=fun c => Filed cfg c posted) (fun _ => ?_) fun _ => h
    refine h.turns_of_other (t:=.ctrl) ClientTask.noConfusion (turns_setOps c .ctrl _) ?_
    exact List.forall_mem_cons.mpr
      ⟨⟨trivial,trivial⟩,List.forall_mem_singleton.mpr ⟨trivial,trivial⟩⟩
  | complete commandId success error =>
    refine iteInduction (motive:=fun c => Filed cfg c posted) (fun _ => ?_) fun _ => h
    refine h.turns_of_other (t:=.ota) ClientTask.noConfusion (turns_settle c .ota [] _) ?_
    exact List.forall_mem_singleton.mpr ⟨trivial,trivial⟩
  | run t now => exact h.run hfits t now

theorem filed_boot (cfg : ClientConfig) : Filed cfg {} [] := by
  have hnone : ∀ t, ({} : ControlClient).ops t = [] := by
    intro t
    cases t with
    | rpc => rfl
    | ctrl => rfl
    | ota => rfl
  refine ⟨fun t op hop => ?_,fun t _ op hop => ?_,fun _ => rfl,
    iff_of_false Bool.false_ne_true Phase.noConfusion,List.forall_mem_nil _,
    fun _ hp => absurd hp (Option.not_mem_none _),fun _ => ⟨rfl,List.forall_mem_nil _⟩,
    fun hphase => Phase.noConfusion hphase⟩
  · rw [hnone t] at hop
    exact absurd hop List.not_mem_nil
  · rw [hnone t] at hop
    exact absurd hop List.not_mem_nil

theorem filed_exec (hfits : cfg.codec.TelemetryFits) (as : List ClientInput) :
    let p := exec (observe (ControlClient.step cfg) posting) ({},[]) as
    Filed cfg p.1 p.2 :=
  exec_invariant (I:=fun p : ControlClient × List (ClientTask × Outgoing) => Filed cfg p.1 p.2)
    (fun _ a h => h.step hfits a) as (filed_boot cfg)

/-- The first message that a receiver has of a session is the first one that was posted. -/
theorem Filed.first_message (h : Filed cfg c posted) (hlive : c.phase = .live) {cap : ℕ}
    (hcap : kMaxOutFrame ≤ cap) {first : List UInt8}
    (hfirst : first ∈ (exec (grpcFormat cap).feed ⟨.header [],[]⟩ c.outbound.wire).messages.head?) :
    ∃ p rest, posted = p :: rest ∧ pbEncode cfg.codec.encode p.2.envelope = some first := by
  have hsending := h.live hlive
  obtain ⟨done,inHand,waiting,hreading⟩ := hsending.inOrder
  obtain ⟨part,hwire,hstarted⟩ := hreading.wire_eq
  have hsplit : done ++ (inHand ++ waiting) = bodies cfg posted := by
    rw [← List.append_assoc, ← hreading.split]
    exact hsending.queued
  have hsmall : ∀ body ∈ done ++ (inHand ++ waiting), body.length ≤ cap ∧ body.length < 2 ^ 32 := by
    intro body hbody
    have hlength := length_of_mem_bodies h (hsplit ▸ hbody)
    have hframe : kMaxOutFrame - kFrameHeaderSize = 507 := rfl
    have hmax : kMaxOutFrame = 512 := rfl
    omega
  obtain ⟨stage,hexec,-⟩ := hstarted.exec_feed hsmall
  rw [hwire, hexec] at hfirst
  cases posted with
  | nil =>
    rw [(List.append_eq_nil_iff.mp hsplit).1] at hfirst
    cases hfirst
  | cons p posted =>
    refine ⟨p,posted,rfl,?_⟩
    obtain ⟨rest,rfl⟩ := List.head?_eq_some_iff.mp hfirst
    obtain ⟨body,hbody⟩ := h.encoded p List.mem_cons_self
    have hhead : first = (pbEncode cfg.codec.encode p.2.envelope).getD [] :=
      (List.cons.inj hsplit).1
    rw [hbody] at hhead ⊢
    exact congrArg some hhead.symm

end Filed

theorem encode_of_pbEncode {codec : Codec} {env : ControlEnvelope} {body : List UInt8}
    (h : pbEncode codec.encode env = some body) : codec.encode env = some body := by
  unfold pbEncode at h
  split at h
  · rename_i body' hbody
    split at h
    · cases h
      exact hbody
    · cases h
  · cases h

/-- Whether the server takes a session is decided by the task that was first to post since the
queue was reset. If it is the one that runs the session, the first message is telemetry, and the
server announces the gate. If it is another one, the first message is a completion, and the server
ends the stream with an error and publishes nothing, although the completion counts as delivered.
Until something has been posted, telemetry is on its way. -/
theorem session_taken_iff_rpc_first (cfg : ClientConfig) (hfits : cfg.codec.TelemetryFits)
    {gateId : String} (hid : gateId ≠ "") (reader : EnvelopeReader cfg.codec gateId) {cap : ℕ}
    (hcap : kMaxOutFrame ≤ cap) (as : List ClientInput)
    (hlive : (exec (ControlClient.step cfg) {} as).phase = .live) :
    let c := exec (ControlClient.step cfg) {} as
    let posted := (exec (observe (ControlClient.step cfg) posting) ({},[]) as).2
    (posted = [] → Greets c.rpc) ∧
    ∀ first ∈ (exec (grpcFormat cap).feed ⟨.header [],[]⟩ c.outbound.wire).messages.head?,
      ∃ t m payload, posted.head? = some (t,m) ∧ reader.parse first = some payload ∧
      ∀ (server : Dash.Server) (σ : ℕ), (server.session σ).stage = .unopened →
        let opened := server.openStream σ (some payload)
        (t = .rpc → (opened.session σ).stage = .announcing ∧ (opened.session σ).gateId = gateId) ∧
        (t ≠ .rpc → (∃ v ∈ c.delivered, m.completion = some v) ∧
          (opened.session σ).stage =
            .ended (.invalidArgument "first envelope must be Telemetry carrying gate_id") ∧
          opened.bus = server.bus ∧ opened.publisher = server.publisher) := by
  intro c posted
  have hfiled : Filed cfg c posted := by
    have h : Filed cfg _ _ := filed_exec hfits as
    rw [exec_observe_fst] at h
    exact h
  refine ⟨(hfiled.live hlive).greets,?_⟩
  intro first hfirst
  obtain ⟨⟨t,m⟩,rest,hposted,hbody⟩ := hfiled.first_message hlive hcap hfirst
  have hhead : Heads (t,m) := hfiled.heads (t,m) (by rw [hposted]; rfl)
  refine ⟨t,m,m.envelope.payload gateId,by rw [hposted]; rfl,
    reader.parse_encode _ _ (encode_of_pbEncode hbody),?_⟩
  intro server σ hnew
  cases hhead with
  | telemetry tel =>
    exact ⟨fun _ => Dash.Server.openStream_telemetry hnew hid,fun ht => absurd rfl ht⟩
  | completion ht v a =>
    refine ⟨fun heq => absurd heq ht,fun _ => ⟨⟨v,?_,rfl⟩,
      Dash.Server.openStream_other hnew fun _ => Dash.ControlPayload.noConfusion⟩⟩
    exact (hfiled.live hlive).delivered (t,.completed v a) (hposted ▸ List.mem_cons_self) v rfl

/-- An encoder that says which payload it is and then writes the two texts of an ack. -/
def taggedEncode : ControlEnvelope → Option (List UInt8)
  | .telemetry _ => some [1]
  | .ack a => some (2 :: (a.commandId ++ a.errorText))

theorem taggedEncode_ack (a : CommandAck) :
    ∃ body, taggedEncode (.ack a) = some body ∧ body.length ≤ kMaxAckEnvelope := by
  refine ⟨_,rfl,?_⟩
  have hcommand : a.commandId.length < 40 := a.commandId_lt
  have htext : a.errorText.length < 96 := a.errorText_lt
  rw [List.length_cons, List.length_append, kMaxAckEnvelope]
  omega

def taggedCodec : Codec := ⟨taggedEncode,taggedEncode_ack⟩

def taggedParse (gateId : String) (body : List UInt8) : Option Dash.ControlPayload :=
  if body.head? = some 1 then some (.telemetry gateId) else some .ack

theorem taggedParse_encode (gateId : String) (env : ControlEnvelope) (body : List UInt8)
    (h : taggedCodec.encode env = some body) :
    taggedParse gateId body = some (env.payload gateId) := by
  cases env with
  | telemetry t =>
    cases h
    rfl
  | ack a =>
    cases h
    rfl

def taggedReader (gateId : String) : EnvelopeReader taggedCodec gateId :=
  ⟨taggedParse gateId,taggedParse_encode gateId⟩

/-- A session ends between the look at the flag and the post of a completion, which then lies on the
queue when the next session begins. -/
def staleCompletion : List ClientInput :=
  .connect {} :: List.replicate 3 (.run .rpc {}) ++
    .complete [7] true "" :: List.replicate 2 (.run .ota {}) ++
    [.disconnect, .reset, .run .ota {}, .connect {}] ++ List.replicate 3 (.run .rpc {}) ++
    [.refill, .dataRead 64]

theorem session_taken_iff_rpc_first_stale :
    let cfg : ClientConfig := ⟨taggedCodec,true,40000⟩
    let c := exec (ControlClient.step cfg) {} staleCompletion
    let posted := (exec (observe (ControlClient.step cfg) posting) ({},[]) staleCompletion).2
    ((exec (grpcFormat 512).feed ⟨.header [],[]⟩ c.outbound.wire).messages = [[2, 7]] ∧
      posted.map Prod.fst = [.ota, .rpc]) ∧
    (posted = [] → Greets c.rpc) ∧
    ∀ first ∈ (exec (grpcFormat 512).feed ⟨.header [],[]⟩ c.outbound.wire).messages.head?,
      ∃ t m payload, posted.head? = some (t,m) ∧
        (taggedReader "gate-01").parse first = some payload ∧
      ∀ (server : Dash.Server) (σ : ℕ), (server.session σ).stage = .unopened →
        let opened := server.openStream σ (some payload)
        (t = .rpc → (opened.session σ).stage = .announcing ∧
          (opened.session σ).gateId = "gate-01") ∧
        (t ≠ .rpc → (∃ v ∈ c.delivered, m.completion = some v) ∧
          (opened.session σ).stage =
            .ended (.invalidArgument "first envelope must be Telemetry carrying gate_id") ∧
          opened.bus = server.bus ∧ opened.publisher = server.publisher) :=
  ⟨by decide +kernel,session_taken_iff_rpc_first ⟨taggedCodec,true,40000⟩
    (fun _ => ⟨[1],rfl,by decide⟩) (by decide) (taggedReader "gate-01") (Nat.le_refl 512)
    staleCompletion (by decide +kernel)⟩

end ControlClient
end AlprGate.Rpc
