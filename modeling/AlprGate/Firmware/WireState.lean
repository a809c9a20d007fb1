import AlprGate.Firmware.CompletionAcks
import AlprGate.Firmware.ControllerInvariant

/-! # The state that an ack reports

An ack reports a cached wire state. The pump's listener stores it with every call, and telemetry
stores it after a look at the controller's snapshot. Between the look and the store the pump may
go through a whole step, and a position that is resolved after a fault clear goes to the snapshot
without a call of the listener.
-/
namespace AlprGate.Control
open StateMachine

/-- The pump task exists. -/
def Stage.pumping : Stage → Bool
  | .pump | .pumpReadOpen | .pumpResolve _ => true
  | _ => false

/-- The state that an operation tells the listener. -/
def Op.announces : Op → Option State
  | .notify s _ _ => some s
  | _ => none

/-- The states that a program has still to tell. -/
def announced (ops : List Op) : List State := ops.filterMap Op.announces

theorem announced_append (xs ys : List Op) : announced (xs ++ ys) = announced xs ++ announced ys :=
  List.filterMap_append

theorem announced_cons_none {op : Op} (h : op.announces = none) (ops : List Op) :
    announced (op :: ops) = announced ops :=
  List.filterMap_cons_none h

theorem announces_early {op : Op} (h : op.late = false) : op.announces = none := by
  cases op with
  | notify s r transitioned => cases h
  | _ => rfl

theorem announced_execute (out : Outputs) : announced (execute out) = [] :=
  List.filterMap_eq_nil_iff.mpr fun _ hop => announces_early (early_of_mem_execute hop)

theorem announced_manageTimers (cfg : Config) (out : Outputs) :
    announced (manageTimers cfg out) = [] := by
  unfold manageTimers
  split
  · rfl
  · split <;> split <;> rfl

theorem announced_applyPolicies (cfg : Config) (out : Outputs) :
    announced (applyPolicies cfg out) = [] := by
  unfold applyPolicies
  split
  · rfl
  · split <;> rfl

/-- The pump tells the listener the state it is in, or it is where it was. -/
theorem announced_pumpProgram (cfg : Config) (m : Machine) (ev : Event) :
    announced (pumpProgram cfg (handle m ev).2) = [(handle m ev).1.state] ∨
      (announced (pumpProgram cfg (handle m ev).2) = [] ∧ (handle m ev).1.state = m.state) := by
  unfold pumpProgram
  rw [announced_append, announced_append, announced_append, announced_execute,
    announced_manageTimers, announced_applyPolicies]
  rcases handle_cases m ev with ⟨s,stored,reported,actions,-,hm⟩ | ⟨⟨hopen,-,-⟩,hm⟩ | ⟨-,-,hm⟩
  · rw [hm]
    exact .inl rfl
  · rw [hm, hopen]
    exact .inl rfl
  · rw [hm]
    exact .inr ⟨rfl,rfl⟩

end AlprGate.Control

namespace AlprGate.Rpc
open StateMachine Control Transition

/-- What an operation of the client stores as the wire state. -/
def ClientOp.stores : ClientOp → Option WireState
  | .storeWireState w => some w
  | _ => none

def stored (l : List ClientOp) : List WireState := l.filterMap ClientOp.stores

theorem stored_cons_none {op : ClientOp} (h : op.stores = none) (l : List ClientOp) :
    stored (op :: l) = stored l :=
  List.filterMap_cons_none h

/-- The controller and the client that `app_main` wires together. `reported` says that some
telemetry has stored its state. -/
structure Reporting where
  gate : Controller
  client : ControlClient := {}
  reported : Bool := false
  deriving DecidableEq, Repr

inductive ReportInput where
  | gate (a : Control.Input)
  | client (a : ClientInput)
  deriving DecidableEq, Repr

/-- The telemetry filler. The limits and the beam are read later, so their readings are left
open. -/
def fillTelemetry (gate : Controller) (t : Telemetry) : Telemetry :=
  { t with gateState := toWireState gate.stateSnapshot }

def fillInput (gate : Controller) : ClientInput → ClientInput
  | .connect t => .connect (fillTelemetry gate t)
  | .telemetry t => .telemetry (fillTelemetry gate t)
  | a => a

namespace Reporting

/-- What the `gate_rpc` task stores next. -/
def storing (s : Reporting) : Option WireState := s.client.rpc.head?.bind ClientOp.stores

section Step
variable (gcfg : Control.Config) (ccfg : ClientConfig)

/-- A step of the gate. The pump waits until the listener returns. -/
def runGate (s : Reporting) (a : Control.Input) : Reporting :=
  if s.client.ctrl ≠ [] ∧ (a = .advance ∨ a = .receive) then s
  else
    { s with
      gate := Control.step gcfg s.gate a
      client := match listenerCall s.gate a with
        | some (st,r,transitioned) => s.client.step ccfg (.gateEvent st r transitioned)
        | none => s.client }

/-- A step of the client. Its task is started behind the pump, and only the listener reports
gate events. -/
def runClient (s : Reporting) (a : ClientInput) : Reporting :=
  if s.gate.stage.pumping = false then s
  else match a with
    | .gateEvent _ _ _ => s
    | .run .rpc now =>
      { s with
        client := s.client.step ccfg (.run .rpc now)
        reported := s.reported || s.storing.isSome }
    | a => { s with client := s.client.step ccfg (fillInput s.gate a) }

def step (s : Reporting) : ReportInput → Reporting
  | .gate a => s.runGate gcfg ccfg a
  | .client a => s.runClient ccfg a

end Step

/-- The pump waits on an empty queue, and neither task is inside a step. -/
structure Quiescent (s : Reporting) : Prop where
  idle : s.gate.Idle
  queue : s.gate.queue = []
  rpc : s.client.rpc = []
  ctrl : s.client.ctrl = []

instance (s : Reporting) : Decidable s.Quiescent :=
  decidable_of_iff (s.gate.Idle ∧ s.gate.queue = [] ∧ s.client.rpc = [] ∧ s.client.ctrl = [])
    ⟨fun h => ⟨h.1,h.2.1,h.2.2.1,h.2.2.2⟩,fun h => ⟨h.idle,h.queue,h.rpc,h.ctrl⟩⟩

/-- The wire states that the pump has still to store. -/
def pending (s : Reporting) : List WireState :=
  stored s.client.ctrl ++ (announced s.gate.ops).map toWireState

/-- No position is resolved once telemetry has reported, and telemetry does not store a state
that the gate has left, unless the pump stores after it. -/
def Fresh (s : Reporting) : ReportInput → Prop
  | .gate a => (resolves s.gate a).isSome = true → s.reported = false
  | .client (.run .rpc _) => ∀ w ∈ s.storing, s.pending = [] → w = toWireState s.gate.sm.state
  | .client _ => True

instance (s : Reporting) : (a : ReportInput) → Decidable (s.Fresh a)
  | .gate a => inferInstanceAs (Decidable ((resolves s.gate a).isSome = true → s.reported = false))
  | .client (.run .rpc _) =>
    inferInstanceAs (Decidable (∀ w ∈ s.storing, s.pending = [] → w = toWireState s.gate.sm.state))
  | .client (.run .ctrl _) | .client (.run .ota _) | .client (.connect _) | .client .connectFails
  | .client (.telemetry _) | .client (.tick _) | .client .refill | .client (.dataRead _)
  | .client (.command _ _) | .client .disconnect | .client .reset | .client (.gateEvent _ _ _)
  | .client (.complete _ _ _) => .isTrue trivial

end Reporting

/-! ### What the client stores -/

namespace ControlClient
variable {c : ControlClient} {t : ClientTask} {rest : List ClientOp}

/-- Two clients with the same cached state and the same stores to come. -/
structure SameStores (c c' : ControlClient) : Prop where
  last : c'.lastWireState = c.lastWireState
  ctrl : stored c'.ctrl = stored c.ctrl
  ota : stored c'.ota = stored c.ota

theorem SameStores.refl (c : ControlClient) : SameStores c c := ⟨rfl,rfl,rfl⟩

theorem SameStores.of_eq {c' : ControlClient} (hlast : c'.lastWireState = c.lastWireState)
    (hctrl : c'.ctrl = c.ctrl) (hota : c'.ota = c.ota) : SameStores c c' :=
  ⟨hlast,by rw [hctrl],by rw [hota]⟩

/-- A task exchanges its operations for others with the same stores. -/
theorem SameStores.setOps {l : List ClientOp} (h : stored l = stored (c.ops t)) :
    SameStores c (c.setOps t l) := by
  cases t with
  | rpc => exact .of_eq rfl rfl rfl
  | ctrl => exact ⟨rfl,h,rfl⟩
  | ota => exact ⟨rfl,rfl,h⟩

theorem SameStores.settle (h : stored rest = stored (c.ops t)) (v : Verdict) :
    SameStores c (c.settle t rest v) := by
  have hset : SameStores c (c.setOps t (.sendAckCompleted v :: rest)) := .setOps h
  exact ⟨hset.last,hset.ctrl,hset.ota⟩

theorem SameStores.track (h : stored rest = stored (c.ops t))
    (r : CommandTracker × Option Verdict) : SameStores c (c.track t rest r) := by
  obtain ⟨tracker,verdict⟩ := r
  cases verdict with
  | some v =>
    have hset : SameStores c (c.settle t rest v) := .settle h v
    cases t <;> exact ⟨hset.last,hset.ctrl,hset.ota⟩
  | none =>
    have hset : SameStores c (c.setOps t rest) := .setOps h
    exact ⟨hset.last,hset.ctrl,hset.ota⟩

theorem SameStores.drop (h : stored rest = stored (c.ops t)) (m : Outgoing) :
    SameStores c ((c.setOps t rest).drop m) := by
  have hset : SameStores c (c.setOps t rest) := .setOps h
  exact ⟨hset.last,hset.ctrl,hset.ota⟩

/-- Every operation but the store leaves the cached state alone. -/
theorem SameStores.runOp (cfg : ClientConfig) (now : Clocks) {op : ClientOp}
    (hops : c.ops t = op :: rest) (hop : op.stores = none) :
    SameStores c (c.runOp cfg t rest now op) := by
  have hrest : stored rest = stored (c.ops t) := by rw [hops, stored_cons_none hop]
  cases op with
  | storeWireState w => cases hop
  | sendAckReceived commandId => exact .setOps hrest
  | dispatch commandId r =>
    unfold ControlClient.runOp ControlClient.dispatch
    dsimp only
    split
    · exact .settle hrest _
    split
    · exact .settle hrest _
    split
    · exact .settle hrest _
    split
    · exact .setOps hrest
    · exact .setOps hrest
  | arm commandId terminalOk => exact .track hrest _
  | gateEvent s r transitioned => exact .track hrest _
  | sendAckCompleted v => exact .setOps hrest
  | check m =>
    unfold ControlClient.runOp
    dsimp only
    split
    · split
      · exact .setOps hrest
      · exact .drop hrest m
    · exact .drop hrest m
  | post m body =>
    unfold ControlClient.runOp
    dsimp only
    split
    · have hset : SameStores c (c.setOps t rest) := .setOps hrest
      unfold ControlClient.keep
      split
      · exact ⟨hset.last,hset.ctrl,hset.ota⟩
      · exact ⟨hset.last,hset.ctrl,hset.ota⟩
    · exact .drop hrest m

/-- A client step that is neither a store nor a gate event. -/
theorem SameStores.step (cfg : ClientConfig) (c : ControlClient) {a : ClientInput}
    (hevent : ∀ s r transitioned, a ≠ .gateEvent s r transitioned)
    (hrun : ∀ t now op rest, a = .run t now → c.ops t = op :: rest → op.stores = none) :
    SameStores c (c.step cfg a) := by
  have hite : ∀ (p : Prop) [Decidable p] (c' : ControlClient), (p → SameStores c c') →
      SameStores c (if p then c' else c) := by
    intro p _ c' h
    split
    · exact h ‹p›
    · exact .refl c
  cases a with
  | connect t => exact hite _ _ fun _ => .of_eq rfl rfl rfl
  | connectFails => exact hite _ _ fun _ => .of_eq rfl rfl rfl
  | telemetry t => exact hite _ _ fun _ => .of_eq rfl rfl rfl
  | tick nowMs =>
    refine hite _ _ fun hat => .track (t:=.rpc) ?_ _
    exact congrArg stored hat.2.symm
  | refill => exact hite _ _ fun _ => .of_eq rfl rfl rfl
  | dataRead length => exact hite _ _ fun _ => .of_eq rfl rfl rfl
  | command commandId r => exact hite _ _ fun _ => .of_eq rfl rfl rfl
  | disconnect => exact hite _ _ fun _ => .of_eq rfl rfl rfl
  | reset => exact hite _ _ fun _ => .of_eq rfl rfl rfl
  | gateEvent s r transitioned => exact absurd rfl (hevent s r transitioned)
  | complete commandId success error =>
    refine hite _ _ fun hidle => .settle (t:=.ota) ?_ _
    exact congrArg stored hidle.symm
  | run t now =>
    unfold ControlClient.step
    dsimp only
    split
    · rename_i op rest hops
      exact .runOp cfg now hops (hrun t now op rest rfl hops)
    · exact .refl c

/-- A task that runs stores the state that its first operation names, or nothing. -/
theorem run_cases (cfg : ClientConfig) (c : ControlClient) (t : ClientTask) (now : Clocks) :
    ((∀ op rest, c.ops t = op :: rest → op.stores = none) ∧
      SameStores c (c.step cfg (.run t now))) ∨
    ∃ w rest, c.ops t = .storeWireState w :: rest ∧
      c.step cfg (.run t now) = { c.setOps t rest with lastWireState := w } := by
  by_cases hstores : ∃ w rest, c.ops t = .storeWireState w :: rest
  · obtain ⟨w,rest,hops⟩ := hstores
    refine .inr ⟨w,rest,hops,?_⟩
    simp [ControlClient.step, hops, ControlClient.runOp]
  · have hnone : ∀ op rest, c.ops t = op :: rest → op.stores = none := by
      intro op rest hops
      cases op with
      | storeWireState w => exact absurd ⟨w,rest,hops⟩ hstores
      | _ => rfl
    refine .inl ⟨hnone,.step cfg c nofun ?_⟩
    intro t' now' op rest hrun
    cases hrun
    exact hnone op rest

end ControlClient

/-! ### The cached state is that of the gate -/

namespace Reporting

structure Truthful (s : Reporting) : Prop where
  coherent : Coherent s.gate
  pending : ∀ w ∈ s.pending, w = toWireState s.gate.sm.state
  agreed : s.reported = true → s.pending = [] → s.client.lastWireState = toWireState s.gate.sm.state
  ota : stored s.client.ota = []

section Steps
variable {gcfg : Control.Config} {ccfg : ClientConfig} {s : Reporting}

/-- A step of the gate that changes neither the machine's state nor what is to be told. -/
theorem Truthful.gate (h : Truthful s) {g : Controller} (hcoherent : Coherent g)
    (hstate : g.sm.state = s.gate.sm.state) (hops : announced g.ops = announced s.gate.ops) :
    Truthful { s with gate := g } := by
  have hpending : Reporting.pending { s with gate := g } = s.pending := by
    unfold Reporting.pending
    rw [hops]
  refine ⟨hcoherent,?_,?_,h.ota⟩
  · rw [hpending]
    dsimp only
    rw [hstate]
    exact h.pending
  · rw [hpending]
    dsimp only
    rw [hstate]
    exact h.agreed

/-- The listener is called by the operation that the pump runs, and by nothing else. -/
theorem listenerCall_cases (g : Controller) (a : Control.Input) :
    (∃ st r transitioned rest, a = .advance ∧ g.ops = .notify st r transitioned :: rest ∧
      listenerCall g a = some (st,r,transitioned)) ∨
    (listenerCall g a = none ∧ (a = .advance → ∀ op rest, g.ops = op :: rest → op.announces = none)) := by
  unfold listenerCall operation
  cases a with
  | advance =>
    cases hops : g.ops with
    | nil => exact .inr ⟨rfl,nofun⟩
    | cons op rest =>
      cases op with
      | notify st r transitioned => exact .inl ⟨st,r,transitioned,rest,rfl,rfl,rfl⟩
      | _ =>
        refine .inr ⟨rfl,fun _ op' rest' hsame => ?_⟩
        cases hsame
        rfl
  | _ => exact .inr ⟨rfl,nofun⟩

/-- The pump calls the listener: what it had to tell is now to be stored. -/
theorem Truthful.notify (h : Truthful s) (hctrl : s.client.ctrl = []) {st : State} {r : Reason}
    {transitioned : Bool} {rest : List Op} (hops : s.gate.ops = .notify st r transitioned :: rest) :
    Truthful { s with
      gate := Control.step gcfg s.gate .advance
      client := s.client.step ccfg (.gateEvent st r transitioned) } := by
  have hgate : Control.step gcfg s.gate .advance = { s.gate with ops := rest } := by
    simp [Control.step, Controller.advance, hops, Controller.runOp]
  have hclient : s.client.step ccfg (.gateEvent st r transitioned) =
      { s.client with ctrl := [.storeWireState (toWireState st), .gateEvent st r transitioned] } :=
    if_pos hctrl
  have hcoherent := (step_move gcfg s.gate .advance).coherent h.coherent
  rw [hgate] at hcoherent ⊢
  rw [hclient]
  have hpending : s.pending = toWireState st :: (announced rest).map toWireState := by
    unfold Reporting.pending
    rw [hctrl, hops]
    rfl
  have hnext := h.pending
  rw [hpending] at hnext
  refine ⟨hcoherent,hnext,?_,h.ota⟩
  intro _ hnone
  cases hnone

/-- A step of the gate without a call of the listener. -/
theorem Truthful.silent (h : Truthful s) {a : Control.Input} (hfresh : s.Fresh (.gate a))
    (hbusy : ¬ (s.client.ctrl ≠ [] ∧ (a = .advance ∨ a = .receive)))
    (hop : a = .advance → ∀ op rest, s.gate.ops = op :: rest → op.announces = none) :
    Truthful { s with gate := Control.step gcfg s.gate a } := by
  have hmove := step_move gcfg s.gate a
  have hcoherent := hmove.coherent h.coherent
  have hctrl : a = .advance ∨ a = .receive → s.client.ctrl = [] := by
    intro ha
    by_contra hctrl
    exact hbusy ⟨hctrl,ha⟩
  generalize hg : Control.step gcfg s.gate a = g at hmove hcoherent ⊢
  cases hmove with
  | quiet hquiet => exact h.gate hcoherent (by rw [hquiet.sm]) (by rw [hquiet.ops])
  | op hops =>
    refine h.gate hcoherent (by rw [runOp_sm]) ?_
    rw [runOp_ops, hops, announced_cons_none (hop rfl _ _ hops)]
  | prelatch hops hstage hbeam =>
    refine h.gate hcoherent ?_ rfl
    have hinit : s.gate.sm.state = .initializing := h.coherent.unresolved (by rw [hstage]; rfl)
    dsimp only
    rw [handle_tripped_initializing hinit]
  | @resolve b next hops hnext hstage =>
    -- nothing has reported yet, and the listener is not called
    have hreported : s.reported = false := hfresh (by rw [resolves_eq_some hops hstage]; rfl)
    have hpending : Reporting.pending
        { s with gate := s.gate.resolveBootPosition gcfg b next } = [] := by
      unfold Reporting.pending Controller.resolveBootPosition
      dsimp only
      rw [hctrl (.inl rfl), announced_append, announced_execute, announced_manageTimers]
      rfl
    refine ⟨hcoherent,?_,?_,h.ota⟩
    · rw [hpending]
      exact nofun
    · intro hrep
      exact absurd (hreported.symm.trans hrep) Bool.noConfusion
  | receive hstage hops hqueue =>
    have hidle := hctrl (.inr rfl)
    have hbefore : s.pending = [] := by
      unfold Reporting.pending
      rw [hidle, hops]
      rfl
    rcases announced_pumpProgram gcfg s.gate.sm _ with htold | ⟨htold,hsame⟩
    · refine ⟨hcoherent,?_,?_,h.ota⟩
      · unfold Reporting.pending
        dsimp only
        rw [hidle, htold]
        intro w hw
        exact List.mem_singleton.mp hw
      · unfold Reporting.pending
        dsimp only
        rw [htold]
        intro _ hnone
        exact absurd hnone (by simp)
    · refine h.gate hcoherent hsame ?_
      rw [hops]
      exact htold

theorem Truthful.runGate (h : Truthful s) {a : Control.Input} (hfresh : s.Fresh (.gate a)) :
    Truthful (s.runGate gcfg ccfg a) := by
  unfold Reporting.runGate
  split
  · exact h
  · rename_i hbusy
    rcases listenerCall_cases s.gate a with ⟨st,r,transitioned,rest,rfl,hops,hcall⟩ | ⟨hcall,hop⟩
    · have hctrl : s.client.ctrl = [] := by
        by_contra hctrl
        exact hbusy ⟨hctrl,.inl rfl⟩
      rw [hcall]
      exact h.notify hctrl hops
    · rw [hcall]
      exact h.silent hfresh hbusy hop

/-- A step of the client that stores nothing. -/
theorem Truthful.client (h : Truthful s) {c : ControlClient} (hsame : s.client.SameStores c) :
    Truthful { s with client := c } := by
  have hpending : Reporting.pending { s with client := c } = s.pending := by
    unfold Reporting.pending
    rw [hsame.ctrl]
  refine ⟨h.coherent,?_,?_,hsame.ota.trans h.ota⟩
  · rw [hpending]
    exact h.pending
  · rw [hpending]
    dsimp only
    rw [hsame.last]
    exact h.agreed

/-- Telemetry stores what it has read. -/
theorem Truthful.runRpc (h : Truthful s) {now : Clocks}
    (hfresh : s.Fresh (.client (.run .rpc now))) :
    Truthful { s with
      client := s.client.step ccfg (.run .rpc now)
      reported := s.reported || s.storing.isSome } := by
  rcases ControlClient.run_cases ccfg s.client .rpc now with ⟨hnone,hsame⟩ | ⟨w,rest,hops,hstep⟩
  · have hstoring : s.storing = none := by
      cases hrpc : s.client.rpc with
      | nil => simp [storing, hrpc]
      | cons op rest => simp [storing, hrpc, hnone op rest hrpc]
    rw [hstoring, Option.isSome_none, Bool.or_false]
    exact h.client hsame
  · have hrpc : s.client.rpc = .storeWireState w :: rest := hops
    have hstoring : s.storing = some w := by simp [storing, hrpc, ClientOp.stores]
    rw [hstep]
    exact ⟨h.coherent,h.pending,fun _ hnone => hfresh w hstoring hnone,h.ota⟩

/-- The listener stores what it was told. -/
theorem Truthful.runCtrl (h : Truthful s) (now : Clocks) :
    Truthful { s with client := s.client.step ccfg (.run .ctrl now) } := by
  rcases ControlClient.run_cases ccfg s.client .ctrl now with ⟨-,hsame⟩ | ⟨w,rest,hops,hstep⟩
  · exact h.client hsame
  · have hctrl : s.client.ctrl = .storeWireState w :: rest := hops
    have hpending : s.pending = w :: Reporting.pending
        { s with client := { s.client.setOps .ctrl rest with lastWireState := w } } := by
      unfold Reporting.pending
      rw [hctrl]
      rfl
    have hall := h.pending
    rw [hpending] at hall
    obtain ⟨hw,hrest⟩ := List.forall_mem_cons.mp hall
    rw [hstep]
    exact ⟨h.coherent,hrest,fun _ _ => hw,h.ota⟩

/-- The task of the updater has nothing to store. -/
theorem Truthful.runOta (h : Truthful s) (now : Clocks) :
    Truthful { s with client := s.client.step ccfg (.run .ota now) } := by
  rcases ControlClient.run_cases ccfg s.client .ota now with ⟨-,hsame⟩ | ⟨w,rest,hops,-⟩
  · exact h.client hsame
  · have hota : s.client.ota = .storeWireState w :: rest := hops
    have hnone := h.ota
    rw [hota] at hnone
    cases hnone

theorem Truthful.runClient (h : Truthful s) {a : ClientInput} (hfresh : s.Fresh (.client a)) :
    Truthful (s.runClient ccfg a) := by
  unfold Reporting.runClient
  split
  · exact h
  · cases a with
    | gateEvent st r transitioned => exact h
    | run t now =>
      cases t with
      | rpc => exact h.runRpc hfresh
      | ctrl => exact h.runCtrl now
      | ota => exact h.runOta now
    | _ =>
      refine h.client (.step ccfg s.client ?_ ?_)
      · intro st r transitioned hsame
        cases hsame
      · intro t now op rest hrun
        cases hrun

theorem Truthful.step {s : Reporting} {a : ReportInput} (hfresh : s.Fresh a) (h : Truthful s) :
    Truthful (s.step gcfg ccfg a) := by
  cases a with
  | gate a => exact h.runGate hfresh
  | client a => exact h.runClient hfresh

theorem truthful_construct (lo lc bm : Bool) : Truthful { gate := construct lo lc bm } :=
  ⟨construct_coherent lo lc bm,nofun,nofun,rfl⟩

end Steps

/-- In every run in which no position is resolved once telemetry has reported and no telemetry
stores a state that the gate has left, an ack between the steps of the two tasks reports the
state that telemetry would report. -/
theorem acks_report_gate_state (gcfg : Control.Config) (ccfg : ClientConfig) (lo lc bm : Bool)
    (as : List ReportInput)
    (h : AllSteps (Reporting.step gcfg ccfg) Fresh { gate := construct lo lc bm } as) :
    let s := exec (Reporting.step gcfg ccfg) { gate := construct lo lc bm } as
    s.reported = true → s.Quiescent →
      s.client.lastWireState = toWireState s.gate.stateSnapshot ∧
      ∀ now t, (∀ commandId, (s.client.ackReceived commandId now).stateAfter =
          (fillTelemetry s.gate t).gateState) ∧
        ∀ v, (s.client.ackCompleted v now).stateAfter = (fillTelemetry s.gate t).gateState := by
  intro s hreported hquiet
  have hs : Truthful s := exec_invariant_of (I:=Truthful) (fun _ _ ha hi => hi.step ha) h
    (truthful_construct lo lc bm)
  have hpending : s.pending = [] := by
    unfold Reporting.pending
    rw [hquiet.ctrl, hquiet.idle.2]
    rfl
  have hsnapshot : s.gate.stateSnapshot = s.gate.sm.state := by
    have hsettled := hs.coherent.stateSnapshot
    rwa [hquiet.idle.2] at hsettled
  have hlast : s.client.lastWireState = toWireState s.gate.stateSnapshot := by
    rw [hsnapshot]
    exact hs.agreed hreported hpending
  exact ⟨hlast,fun now t => ⟨fun commandId => hlast,fun v => hlast⟩⟩

/-- A gate that boots closed and whose first telemetry is out. -/
def greeted : List ReportInput := boot.map .gate ++ ControlClient.greeting.map .client

/-- The gate takes an event, and the listener stores what it is told. -/
def pumped : List ReportInput := pumpOnce.map .gate ++ List.replicate 2 (.client (.run .ctrl {}))

/-- The state in which a run of such a gate ends. -/
def runClosed (as : List ReportInput) : Reporting :=
  exec (Reporting.step {} ⟨ControlClient.textCodec,true,40000⟩)
    { gate := construct true false false } as

/-- The gate has started to open. -/
theorem acks_report_gate_state_opening :
    let as := greeted ++ .gate (.command .open) :: pumped
    (runClosed as).gate.stateSnapshot = .opening ∧
      (runClosed as).client.lastWireState = toWireState (runClosed as).gate.stateSnapshot := by
  intro as
  refine ⟨by decide +kernel,?_⟩
  unfold runClosed
  have hreports := acks_report_gate_state {} ⟨ControlClient.textCodec,true,40000⟩ true false false as
    (by decide +kernel) (by decide +kernel) (by decide +kernel)
  exact hreports.1

/-- A fault is cleared and the position resolved again; and telemetry reads the state of a closed
gate and stores it when the gate has started to open. -/
theorem ack_reports_old_state :
    let cleared := runClosed (greeted ++ .gate (.command .open) :: pumped ++ .gate .watchdogFires :: pumped ++
      .gate (.command .clearFault) :: pumped ++ List.replicate 12 (.gate .advance))
    let overtaken := runClosed (greeted ++ .client (.telemetry {}) :: .gate (.command .open) :: pumped ++
      List.replicate 3 (.client (.run .rpc {})))
    (cleared.reported = true ∧ cleared.Quiescent ∧ cleared.client.lastWireState = .unknown ∧
      toWireState cleared.gate.stateSnapshot = .closed) ∧
    (overtaken.reported = true ∧ overtaken.Quiescent ∧ overtaken.client.lastWireState = .closed ∧
      toWireState overtaken.gate.stateSnapshot = .opening) := by
  decide +kernel

end Reporting
end AlprGate.Rpc
