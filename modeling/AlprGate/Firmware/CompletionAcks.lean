import AlprGate.Firmware.ControlClient

/-! # What becomes of a completion

Every decided command is at each moment in one of three places: on the queue of a session
that was live, with a task or on a queue without a session, or given up. The client gives a
completion up when it finds the session gone or the queue full, and when it resets a queue
that holds one.
-/
namespace AlprGate.Rpc
open StateMachine Transition

@[simp] theorem owed_nil : owed [] = [] := rfl

@[simp] theorem owed_cons (op : ClientOp) (l : List ClientOp) :
    owed (op :: l) = op.completion.toList ++ owed l := by
  unfold owed
  rw [List.filterMap_cons]
  cases op.completion with
  | none => rfl
  | some v => rfl

namespace ControlClient

/-- The books are kept per completion, with multiplicity. -/
def Balanced (c : ControlClient) : Prop :=
  ∀ v, c.resolved.count v = c.delivered.count v + c.held.count v + c.lost.count v

section Fields
variable (c : ControlClient) (t : ClientTask) (l : List ClientOp)

@[simp] theorem setOps_resolved : (c.setOps t l).resolved = c.resolved := by cases t <;> rfl

@[simp] theorem setOps_delivered : (c.setOps t l).delivered = c.delivered := by cases t <;> rfl

@[simp] theorem setOps_waiting : (c.setOps t l).waiting = c.waiting := by cases t <;> rfl

@[simp] theorem setOps_lost : (c.setOps t l).lost = c.lost := by cases t <;> rfl

@[simp] theorem keep_lost (m : Outgoing) : (c.keep m).lost = c.lost := by
  unfold keep
  split
  · rfl
  · rfl

/-- Exchanging the operations of one task exchanges what it owes. -/
theorem count_held_setOps (v : Verdict) :
    (c.setOps t l).held.count v + (owed (c.ops t)).count v =
      c.held.count v + (owed l).count v := by
  cases t <;> simp only [held, setOps, ops, List.count_append] <;> omega

end Fields

variable {c : ControlClient} {t : ClientTask} {op : ClientOp} {rest l : List ClientOp}

theorem Balanced.setOps (h : Balanced c) (hsame : owed (c.ops t) = owed l) :
    Balanced (c.setOps t l) := by
  intro v
  have hv := h v
  have hheld := count_held_setOps c t l v
  rw [hsame] at hheld
  simp only [setOps_resolved, setOps_delivered, setOps_lost]
  omega

/-- An idle task takes up operations that owe nothing. -/
theorem Balanced.start (h : Balanced c) (hidle : c.ops t = []) (hl : owed l = []) :
    Balanced (c.setOps t l) := by
  refine h.setOps ?_
  rw [hidle, hl, owed_nil]

theorem Balanced.settle (h : Balanced c) (hsame : owed (c.ops t) = owed rest) (d : Verdict) :
    Balanced (c.settle t rest d) := by
  intro v
  have hv := h v
  have hheld := count_held_setOps c t (.sendAckCompleted d :: rest) v
  have hone : ClientOp.completion (.sendAckCompleted d) = some d := rfl
  rw [hsame, owed_cons, List.count_append, hone] at hheld
  change (c.resolved ++ [d]).count v = (c.setOps t _).delivered.count v +
    (c.setOps t (.sendAckCompleted d :: rest)).held.count v + (c.setOps t _).lost.count v
  simp only [List.count_append, setOps_delivered, setOps_lost, Option.toList_some] at hheld ⊢
  omega

theorem Balanced.track (h : Balanced c) (hsame : owed (c.ops t) = owed rest)
    (r : CommandTracker × Option Verdict) : Balanced (c.track t rest r) := by
  obtain ⟨tracker,verdict⟩ := r
  have htracker : Balanced { c with tracker := tracker } := h
  have hops : owed (ops { c with tracker := tracker } t) = owed rest := by
    cases t <;> exact hsame
  cases verdict with
  | some d => exact htracker.settle hops d
  | none => exact h.setOps hsame

/-- A completion that is given up leaves its task. -/
theorem Balanced.drop (h : Balanced c) {m : Outgoing}
    (howed : owed (c.ops t) = m.completion.toList ++ owed rest) :
    Balanced ((c.setOps t rest).drop m) := by
  intro v
  have hv := h v
  have hheld := count_held_setOps c t rest v
  rw [howed, List.count_append] at hheld
  change (c.setOps t rest).resolved.count v = (c.setOps t rest).delivered.count v +
    (c.setOps t rest).held.count v + ((c.setOps t rest).lost ++ m.completion.toList).count v
  simp only [List.count_append, setOps_resolved, setOps_delivered, setOps_lost]
  omega

/-- A completion that is posted leaves its task as well. -/
theorem Balanced.keep (h : Balanced c) {m : Outgoing}
    (howed : owed (c.ops t) = m.completion.toList ++ owed rest) (o : Outbound) :
    Balanced ({ c.setOps t rest with outbound := o }.keep m) := by
  intro v
  have hv := h v
  have hheld := count_held_setOps c t rest v
  rw [howed, List.count_append] at hheld
  unfold ControlClient.keep
  split
  · change (c.setOps t rest).resolved.count v =
      ((c.setOps t rest).delivered ++ m.completion.toList).count v +
      (c.setOps t rest).held.count v + (c.setOps t rest).lost.count v
    simp only [List.count_append, setOps_resolved, setOps_delivered, setOps_lost]
    omega
  · simp only [held, List.count_append, setOps_resolved, setOps_delivered, setOps_waiting,
      setOps_lost] at hv hheld ⊢
    omega

theorem Balanced.runOp (h : Balanced c) (cfg : ClientConfig) (now : Clocks)
    (hops : c.ops t = op :: rest) : Balanced (c.runOp cfg t rest now op) := by
  have howed : owed (c.ops t) = op.completion.toList ++ owed rest := by
    rw [hops, owed_cons]
  cases op with
  | storeWireState w => exact h.setOps howed
  | sendAckReceived commandId => exact h.setOps howed
  | dispatch commandId r =>
    unfold ControlClient.runOp ControlClient.dispatch
    dsimp only
    split
    · exact h.settle howed _
    split
    · exact h.settle howed _
    split
    · exact h.settle howed _
    split
    · exact h.setOps howed
    · exact h.setOps howed
  | arm commandId terminalOk => exact h.track howed _
  | gateEvent s r transitioned => exact h.track howed _
  | sendAckCompleted v => exact h.setOps howed
  | check m =>
    unfold ControlClient.runOp
    dsimp only
    split
    · split
      · refine h.setOps (howed.trans ?_)
        rw [owed_cons]
        rfl
      · exact h.drop howed
    · exact h.drop howed
  | post m body =>
    unfold ControlClient.runOp
    dsimp only
    split
    · exact h.keep howed _
    · exact h.drop howed

theorem Balanced.sendTelemetry (h : Balanced c) (hidle : c.rpc = []) (t : Telemetry) :
    Balanced (c.sendTelemetry t) :=
  h.start (t:=.rpc) hidle rfl

theorem Balanced.step (cfg : ClientConfig) (c : ControlClient) (a : ClientInput)
    (h : Balanced c) : Balanced (c.step cfg a) := by
  cases a with
  | connect t =>
    refine iteInduction (motive:=Balanced) (fun hat => ?_) fun _ => h
    refine Balanced.sendTelemetry (fun v => ?_) ?_ t
    · have hv := h v
      simp only [held, List.count_append, List.count_nil] at hv ⊢
      omega
    · exact hat.2
  | connectFails => exact iteInduction (motive:=Balanced) (fun _ => h) fun _ => h
  | telemetry t =>
    exact iteInduction (motive:=Balanced) (fun hat => h.sendTelemetry hat.2 t) fun _ => h
  | tick nowMs =>
    refine iteInduction (motive:=Balanced) (fun hat => ?_) fun _ => h
    exact h.track (t:=.rpc) (congrArg owed hat.2) _
  | refill => exact iteInduction (motive:=Balanced) (fun _ => h) fun _ => h
  | dataRead length => exact iteInduction (motive:=Balanced) (fun _ => h) fun _ => h
  | command commandId r =>
    exact iteInduction (motive:=Balanced) (fun hat => h.start (t:=.rpc) hat.2 rfl) fun _ => h
  | disconnect => exact iteInduction (motive:=Balanced) (fun _ => h) fun _ => h
  | reset =>
    refine iteInduction (motive:=Balanced) (fun _ v => ?_) fun _ => h
    have hv := h v
    simp only [held, List.count_append, List.count_nil] at hv ⊢
    omega
  | gateEvent s r transitioned =>
    exact iteInduction (motive:=Balanced) (fun hidle => h.start (t:=.ctrl) hidle rfl) fun _ => h
  | complete commandId success error =>
    refine iteInduction (motive:=Balanced) (fun hidle => ?_) fun _ => h
    exact h.settle (t:=.ota) (congrArg owed hidle) _
  | run t now =>
    unfold ControlClient.step
    dsimp only
    split
    · rename_i op rest hops
      exact h.runOp cfg now hops
    · exact h

/-- The operation finds a live session, or room on the queue, when a completion depends on it. -/
def Sends (c : ControlClient) : ClientOp → Prop
  | .check (.completed _ _) => c.connected = true
  | .post (.completed _ _) _ => c.outbound.queue.length < kOutQueueDepth
  | _ => True

instance decidableSends (c : ControlClient) : (op : ClientOp) → Decidable (c.Sends op)
  | .check (.completed _ _) => inferInstanceAs (Decidable (_ = _))
  | .post (.completed _ _) _ => inferInstanceAs (Decidable (_ < _))
  | .check (.telemetry _) | .check (.received _) | .post (.telemetry _) _ | .post (.received _) _
  | .storeWireState _ | .sendAckReceived _ | .dispatch _ _ | .arm _ _ | .gateEvent _ _ _
  | .sendAckCompleted _ => inferInstanceAs (Decidable True)

/-- No step gives a completion up. -/
def Kept (c : ControlClient) : ClientInput → Prop
  | .run t _ => ∀ op ∈ (c.ops t).head?, c.Sends op
  | .reset => c.At .closing → c.waiting = []
  | _ => True

instance decidableKept (c : ControlClient) : (a : ClientInput) → Decidable (c.Kept a)
  | .run t _ => inferInstanceAs (Decidable (∀ op ∈ (c.ops t).head?, c.Sends op))
  | .reset => inferInstanceAs (Decidable (c.At .closing → c.waiting = []))
  | .connect _ | .connectFails | .telemetry _ | .tick _ | .refill | .dataRead _ | .command _ _
  | .disconnect | .gateEvent _ _ _ | .complete _ _ _ => inferInstanceAs (Decidable True)

/-- An ack is never too large for a frame. -/
theorem pbEncode_ack (codec : Codec) (a : CommandAck) :
    ∃ body, pbEncode codec.encode (.ack a) = some body := by
  obtain ⟨body,hbody,hlength⟩ := codec.encode_ack a
  refine ⟨body,?_⟩
  have hfits : body.length ≤ kMaxOutFrame - kFrameHeaderSize :=
    hlength.trans (by decide)
  rw [pbEncode, hbody]
  exact if_pos hfits

theorem drop_lost_of_none {m : Outgoing} (h : m.completion = none) : (c.drop m).lost = c.lost := by
  change c.lost ++ m.completion.toList = c.lost
  rw [h]
  exact List.append_nil _

theorem track_lost (r : CommandTracker × Option Verdict) : (c.track t rest r).lost = c.lost := by
  obtain ⟨tracker,verdict⟩ := r
  cases verdict with
  | some d => exact setOps_lost _ t _
  | none => exact setOps_lost c t rest

theorem check_lost_of_none (cfg : ClientConfig) (now : Clocks) {m : Outgoing}
    (h : m.completion = none) : (c.runOp cfg t rest now (.check m)).lost = c.lost := by
  unfold ControlClient.runOp
  dsimp only
  split
  · split
    · exact setOps_lost c t _
    · rw [drop_lost_of_none h, setOps_lost]
  · rw [drop_lost_of_none h, setOps_lost]

theorem post_lost_of_none (cfg : ClientConfig) (now : Clocks) {m : Outgoing}
    (body : List UInt8) (h : m.completion = none) :
    (c.runOp cfg t rest now (.post m body)).lost = c.lost := by
  unfold ControlClient.runOp
  dsimp only
  split
  · rw [keep_lost]
    exact setOps_lost c t rest
  · rw [drop_lost_of_none h, setOps_lost]

theorem runOp_lost (cfg : ClientConfig) (now : Clocks) (hsends : c.Sends op) :
    (c.runOp cfg t rest now op).lost = c.lost := by
  cases op with
  | storeWireState w => exact setOps_lost c t rest
  | sendAckReceived commandId => exact setOps_lost c t _
  | dispatch commandId r =>
    unfold ControlClient.runOp ControlClient.dispatch
    dsimp only
    split
    · exact setOps_lost c t _
    split
    · exact setOps_lost c t _
    split
    · exact setOps_lost c t _
    split
    · exact setOps_lost c t _
    · exact setOps_lost c t _
  | arm commandId terminalOk => exact track_lost _
  | gateEvent s r transitioned => exact track_lost _
  | sendAckCompleted v => exact setOps_lost c t _
  | check m =>
    cases m with
    | completed v a =>
      -- an ack can be encoded, so only the connected flag decides
      obtain ⟨body,hbody⟩ := pbEncode_ack cfg.codec a
      have hpost : c.runOp cfg t rest now (.check (.completed v a)) =
          c.setOps t (.post (.completed v a) body :: rest) := by
        unfold ControlClient.runOp
        dsimp only [Outgoing.envelope]
        rw [hbody]
        exact if_pos hsends
      rw [hpost, setOps_lost]
    | telemetry t' => exact check_lost_of_none cfg now rfl
    | received a => exact check_lost_of_none cfg now rfl
  | post m body =>
    cases m with
    | completed v a =>
      have hfree : c.outbound.queue.length < kOutQueueDepth := hsends
      have hroom : (c.outbound.enqueue body).2 = true := by
        unfold Outbound.enqueue
        rw [if_pos hfree]
      unfold ControlClient.runOp
      dsimp only
      rw [if_pos hroom, keep_lost]
      exact setOps_lost c t rest
    | telemetry t' => exact post_lost_of_none cfg now body rfl
    | received a => exact post_lost_of_none cfg now body rfl

theorem step_lost (cfg : ClientConfig) (a : ClientInput) (hkept : c.Kept a) :
    (c.step cfg a).lost = c.lost := by
  let Same : ControlClient → Prop := fun c' => c'.lost = c.lost
  cases a with
  | connect t => exact iteInduction (motive:=Same) (fun _ => rfl) fun _ => rfl
  | connectFails => exact iteInduction (motive:=Same) (fun _ => rfl) fun _ => rfl
  | telemetry t => exact iteInduction (motive:=Same) (fun _ => rfl) fun _ => rfl
  | tick nowMs => exact iteInduction (motive:=Same) (fun _ => track_lost _) fun _ => rfl
  | refill => exact iteInduction (motive:=Same) (fun _ => rfl) fun _ => rfl
  | dataRead length => exact iteInduction (motive:=Same) (fun _ => rfl) fun _ => rfl
  | command commandId r => exact iteInduction (motive:=Same) (fun _ => rfl) fun _ => rfl
  | disconnect => exact iteInduction (motive:=Same) (fun _ => rfl) fun _ => rfl
  | reset =>
    refine iteInduction (motive:=Same) (fun hat => ?_) fun _ => rfl
    change c.lost ++ c.waiting = c.lost
    rw [hkept hat, List.append_nil]
  | gateEvent s r transitioned => exact iteInduction (motive:=Same) (fun _ => rfl) fun _ => rfl
  | complete commandId success error =>
    exact iteInduction (motive:=Same) (fun _ => rfl) fun _ => rfl
  | run t now =>
    unfold ControlClient.step
    dsimp only
    split
    · rename_i op rest hops
      exact runOp_lost cfg now (hkept op (by rw [hops]; rfl))
    · rfl

/-- A completion is on the queue of a live session or held to be sent, and never more than once;
none is missing as long as it meets a live session, a free place on the queue and no reset. -/
theorem completions_delivered_or_held (cfg : ClientConfig) (as : List ClientInput) :
    let c := exec (ControlClient.step cfg) {} as
    (c.delivered ++ c.held).Subperm c.resolved ∧
    (AllSteps (ControlClient.step cfg) Kept {} as → (c.delivered ++ c.held).Perm c.resolved) := by
  intro c
  have hstart : Balanced {} := fun v => rfl
  have hbalanced : Balanced c := exec_invariant (Balanced.step cfg) as hstart
  constructor
  · rw [List.subperm_ext_iff]
    intro v _
    have hv := hbalanced v
    rw [List.count_append]
    omega
  · intro hkept
    have hlost : c.lost = [] :=
      exec_invariant_of (I:=fun c => c.lost = [])
        (fun c a hk hl => (step_lost cfg a hk).trans hl) hkept rfl
    rw [List.perm_iff_count]
    intro v
    have hv := hbalanced v
    rw [hlost, List.count_nil] at hv
    rw [List.count_append]
    omega

/-- An encoder that writes the two texts of an ack one after the other. -/
def textCodec : Codec where
  encode
    | .telemetry _ => some []
    | .ack a => some (a.commandId ++ a.errorText)
  encode_ack a := by
    refine ⟨_,rfl,?_⟩
    have hid : a.commandId.length < 40 := a.commandId_lt
    have htext : a.errorText.length < 96 := a.errorText_lt
    rw [List.length_append, kMaxAckEnvelope]
    omega

/-- A session up to its first telemetry. -/
def greeting : List ClientInput := .connect {} :: List.replicate 3 (.run .rpc {})

/-- A rejected command in a live session. -/
theorem completions_of_rejection :
    let as := greeting ++ .command [1] { error := "unspecified command kind" } ::
      List.replicate 7 (.run .rpc {})
    let c := exec (ControlClient.step ⟨textCodec,true,40000⟩) {} as
    c.resolved = [⟨[1],false,"unspecified command kind"⟩] ∧ c.held = [] ∧
      (c.delivered ++ c.held).Perm c.resolved :=
  ⟨by decide +kernel,by decide +kernel,
    (completions_delivered_or_held ⟨textCodec,true,40000⟩ _).2 (by decide +kernel)⟩

/-- The gate reaches the commanded state after the session has ended; and a session is live, but
telemetry has filled its queue when a command is completed. Either way the decision is made and
its completion is nowhere. -/
theorem completion_given_up :
    let opening := .command [1] { accepted := true, terminalOk := .open } ::
      List.replicate 5 (.run .rpc {})
    let afterLoss := exec (ControlClient.step ⟨textCodec,true,40000⟩) {} (greeting ++ opening ++
      .disconnect :: .gateEvent .open .none true :: List.replicate 4 (.run .ctrl {}))
    let overflown := exec (ControlClient.step ⟨textCodec,true,40000⟩) {} (greeting ++
      (List.replicate 7 (.telemetry {} :: List.replicate 3 (.run .rpc {}))).flatten ++
      .complete [2] true "" :: List.replicate 3 (.run .ota {}))
    (afterLoss.resolved = [⟨[1],true,""⟩] ∧ afterLoss.delivered ++ afterLoss.held = []) ∧
    (overflown.connected = true ∧ overflown.resolved = [⟨[2],true,""⟩] ∧
      overflown.delivered ++ overflown.held = []) := by
  decide +kernel

end ControlClient
end AlprGate.Rpc
