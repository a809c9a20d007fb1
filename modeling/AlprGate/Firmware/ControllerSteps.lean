import AlprGate.Library.PendingWrites
import AlprGate.Firmware.Controller

/-! # What one step of the controller can change

Drivers, timers and entry points touch only the inputs, the timers, the LED and the
queue. The controller's own code touches the machine and its program. Each posts at
most one event, and only the pump takes one.
-/
namespace AlprGate.Control
open StateMachine Drivers BoundedQueue PendingWrites

/-- The edge that a poll commits on the open limit. -/
def edgeOpen (s : Controller) : Input → Option Bool
  | .pollLimitOpen level => (LimitSwitch.onPoll s.limitOpen level).2
  | _ => none

def edgeClosed (s : Controller) : Input → Option Bool
  | .pollLimitClosed level => (LimitSwitch.onPoll s.limitClosed level).2
  | _ => none

def edgeBeam (s : Controller) : Input → Option Bool
  | .pollBeam level => (SafetyBeam.onPoll s.beam level).2
  | _ => none

/-- The event an edge is reported as, if a callback is registered. -/
def reportOf (registered : Bool) (edge : Option Bool) (whenTrue whenFalse : Event) : Option Event :=
  if registered then edge.map fun v => if v then whenTrue else whenFalse else none

/-- The event a step offers to the queue. -/
def posted (s : Controller) : Input → Option Event
  | .advance => match s.ops with
    | .post ev :: _ => some ev
    | _ => none
  | .pollLimitOpen level =>
    reportOf s.limitOpen.hasCallback (edgeOpen s (.pollLimitOpen level))
      .limitOpenHit .limitOpenReleased
  | .pollLimitClosed level =>
    reportOf s.limitClosed.hasCallback (edgeClosed s (.pollLimitClosed level))
      .limitClosedHit .limitClosedReleased
  | .pollBeam level =>
    reportOf s.beam.hasCallback (edgeBeam s (.pollBeam level))
      .safetyBeamTripped .safetyBeamCleared
  | .watchdogFires => if s.watchdogArmed then some .motorTimeout else none
  | .autocloseFires => if s.autocloseArmed then some .commandClose else none
  | .command c => some c.event
  | .start | .createFails | .receive | .showLedPattern _ => none

/-- The event the machine handles in a step: the head of the queue, or the boot
pre-latch. -/
def handled (s : Controller) : Input → Option Event
  | .receive => match s.stage, s.ops, s.queue with
    | .pump, [], ev :: _ => some ev
    | _, _, _ => none
  | .advance => match s.stage, s.ops with
    | .prelatch, [] => if s.beam.committed then some .safetyBeamTripped else none
    | _, _ => none
  | _ => none

/-- The elementary operation a step runs. -/
def operation (s : Controller) : Input → Option Op
  | .advance => s.ops.head?
  | _ => none

/-- The reading of the open limit with which a step resolves the position. -/
def resolves (s : Controller) : Input → Option Bool
  | .advance => match s.stage, s.ops with
    | .resolve openActive, [] | .pumpResolve openActive, [] => some openActive
    | _, _ => none
  | _ => none

/-- A step that neither handles an event, nor runs an operation, nor resolves. -/
structure Calm (s : Controller) (a : Input) : Prop where
  handled : handled s a = none
  operation : operation s a = none
  resolves : resolves s a = none

theorem handled_receive {s : Controller} {ev : Event} {rest : List Event} (hstage : s.stage = .pump)
    (hops : s.ops = []) (hqueue : s.queue = ev :: rest) : handled s .receive = some ev := by
  simp only [handled, hstage, hops, hqueue]

theorem of_handled_receive {s : Controller} {ev : Event} (h : handled s .receive = some ev) :
    s.stage = .pump ∧ s.ops = [] ∧ ∃ rest, s.queue = ev :: rest := by
  simp only [handled] at h
  split at h
  · rename_i hstage hops hqueue
    cases h
    exact ⟨hstage,hops,_,hqueue⟩
  · cases h

theorem handled_prelatch {s : Controller} (hstage : s.stage = .prelatch) (hops : s.ops = [])
    (hb : s.beam.committed = true) : handled s .advance = some .safetyBeamTripped := by
  simp only [handled, hstage, hops, hb, ↓reduceIte]

theorem handled_advance_eq_none {s : Controller}
    (h : s.ops = [] → s.stage = .prelatch → s.beam.committed = false) :
    handled s .advance = none := by
  simp only [handled]
  split
  · rename_i hstage hops
    rw [h hops hstage]
    rfl
  · rfl

theorem resolves_eq_some {s : Controller} {b : Bool} (hops : s.ops = [])
    (h : s.stage = .resolve b ∨ s.stage = .pumpResolve b) : resolves s .advance = some b := by
  rcases h with h | h <;> simp only [resolves, h, hops]

theorem resolves_eq_none {s : Controller} (h : s.ops ≠ [] ∨ ∀ b, s.stage ≠ .resolve b ∧
    s.stage ≠ .pumpResolve b) : resolves s .advance = none := by
  simp only [resolves]
  split
  · rename_i hst hops
    rcases h with h | h
    · exact absurd hops h
    · exact absurd hst (h _).1
  · rename_i hst hops
    rcases h with h | h
    · exact absurd hops h
    · exact absurd hst (h _).2
  · rfl

theorem calm_advance {s : Controller} (hops : s.ops = [])
    (hp : s.stage = .prelatch → s.beam.committed = false)
    (hr : ∀ b, s.stage ≠ .resolve b ∧ s.stage ≠ .pumpResolve b) : Calm s .advance :=
  ⟨handled_advance_eq_none fun _ => hp,by simp only [operation, hops]; rfl,
    resolves_eq_none (Or.inr hr)⟩

/-- Who posts which event. -/
inductive Source (s : Controller) : Input → Event → Prop
  | policy {ev : Event} {rest : List Op} : s.ops = .post ev :: rest → Source s .advance ev
  | limitOpen {level v : Bool} : s.limitOpen.hasCallback = true →
      edgeOpen s (.pollLimitOpen level) = some v →
      Source s (.pollLimitOpen level) (if v then .limitOpenHit else .limitOpenReleased)
  | limitClosed {level v : Bool} : s.limitClosed.hasCallback = true →
      edgeClosed s (.pollLimitClosed level) = some v →
      Source s (.pollLimitClosed level) (if v then .limitClosedHit else .limitClosedReleased)
  | beam {level v : Bool} : s.beam.hasCallback = true → edgeBeam s (.pollBeam level) = some v →
      Source s (.pollBeam level) (if v then .safetyBeamTripped else .safetyBeamCleared)
  | watchdog : s.watchdogArmed = true → Source s .watchdogFires .motorTimeout
  | autoclose : s.autocloseArmed = true → Source s .autocloseFires .commandClose
  | command (c : Command) : Source s (.command c) c.event

theorem reportOf_eq_some {registered : Bool} {edge : Option Bool} {a b ev : Event}
    (h : reportOf registered edge a b = some ev) :
    registered = true ∧ ∃ v, edge = some v ∧ (if v then a else b) = ev := by
  unfold reportOf at h
  split at h
  · exact ⟨‹_›,Option.map_eq_some_iff.mp h⟩
  · cases h

theorem posted_source {s : Controller} {a : Input} {ev : Event} (h : posted s a = some ev) :
    Source s a ev := by
  cases a with
  | advance =>
    simp only [posted] at h
    split at h
    · rename_i hops
      cases h
      exact .policy hops
    · cases h
  | pollLimitOpen level =>
    obtain ⟨hr,v,he,rfl⟩ := reportOf_eq_some h
    exact .limitOpen hr he
  | pollLimitClosed level =>
    obtain ⟨hr,v,he,rfl⟩ := reportOf_eq_some h
    exact .limitClosed hr he
  | pollBeam level =>
    obtain ⟨hr,v,he,rfl⟩ := reportOf_eq_some h
    exact .beam hr he
  | watchdogFires =>
    simp only [posted] at h
    split at h <;> cases h
    exact .watchdog ‹_›
  | autocloseFires =>
    simp only [posted] at h
    split at h <;> cases h
    exact .autoclose ‹_›
  | command c =>
    cases h
    exact .command c
  | start | createFails | receive | showLedPattern => cases h

theorem mem_of_operation {s : Controller} {a : Input} {op : Op} (h : operation s a = some op) :
    op ∈ s.ops := by
  cases a with
  | advance => exact List.mem_of_mem_head? h
  | _ => cases h

/-- The queue has room for whatever the step posts. -/
def NoDrop (s : Controller) (a : Input) : Prop := posted s a = none ∨ s.queue.length < kQueueDepth

instance (s : Controller) (a : Input) : Decidable (NoDrop s a) :=
  inferInstanceAs (Decidable (_ ∨ _))

theorem NoDrop.mem {s : Controller} {a : Input} (h : NoDrop s a) {ev : Event}
    (hev : posted s a = some ev) : ev ∈ offers kQueueDepth s.queue (posted s a) := by
  rcases h with h | h
  · rw [h] at hev
    cases hev
  · exact mem_offers hev h

/-- The event of a step that the queue accepts. -/
def accepted (s : Controller) (a : Input) : Option Event :=
  if s.queue.length < kQueueDepth then posted s a else none

theorem offers_posted (s : Controller) (a : Input) :
    offers kQueueDepth s.queue (posted s a) = s.queue ++ (accepted s a).toList := by
  unfold accepted
  split
  · rename_i h
    cases posted s a with
    | none => simp [offers]
    | some ev => simp [offers, offer_of_lt h]
  · rename_i h
    cases posted s a with
    | none => simp [offers]
    | some ev => simp [offers, offer, h]

theorem accepted_eq_some {s : Controller} {a : Input} {ev : Event} (h : accepted s a = some ev) :
    posted s a = some ev := by
  unfold accepted at h
  split at h
  · exact h
  · cases h

/-- Stages at which no position has been resolved yet. -/
def Stage.unresolved : Stage → Bool
  | .constructed | .prelatch | .readOpen | .resolve _ | .pumpReadOpen | .pumpResolve _ => true
  | _ => false

/-- How the stage may change while the machine stands still. -/
def Stage.Next (old new : Stage) : Prop :=
  (new.unresolved = true → old.unresolved = true) ∧ (old = .pump → new = .pump)

theorem Stage.Next.refl (st : Stage) : st.Next st := ⟨id,id⟩

/-- The moves that leave the machine, the relays and the program alone: the
environment, calling `start`, reading the open limit, registering a callback,
creating the pump task. -/
structure Quiet (s : Controller) (a : Input) (t : Controller) : Prop where
  sm : t.sm = s.sm
  ops : t.ops = s.ops
  relayOpen : t.relayOpen = s.relayOpen
  relayClose : t.relayClose = s.relayClose
  stateSnapshot : t.stateSnapshot = s.stateSnapshot
  reasonSnapshot : t.reasonSnapshot = s.reasonSnapshot
  stage : s.stage.Next t.stage
  queue : t.queue = offers kQueueDepth s.queue (posted s a)
  watchdog : t.watchdogArmed = s.watchdogArmed ∨
    (a = .watchdogFires ∧ s.watchdogArmed = true ∧ t.watchdogArmed = false)
  autoclose : t.autocloseArmed = s.autocloseArmed ∨
    (a = .autocloseFires ∧ s.autocloseArmed = true ∧ t.autocloseArmed = false)
  limitOpen : t.limitOpen.committed = (edgeOpen s a).getD s.limitOpen.committed
  limitClosed : t.limitClosed.committed = (edgeClosed s a).getD s.limitClosed.committed
  beam : t.beam.committed = (edgeBeam s a).getD s.beam.committed
  calm : Calm s a

theorem committed_onPoll (d : Debouncer) (sample : Bool) :
    (d.onPoll sample).1.committed = (d.onPoll sample).2.getD d.committed := by
  rcases d.onPoll_cases sample with ⟨he,hc⟩ | ⟨he,hc,-⟩
  · rw [he, hc]
    rfl
  · rw [he, hc]
    rfl

theorem callback_eq (s : Controller) (registered : Bool) (edge : Option Bool) (a b : Event) :
    s.callback registered edge a b =
      { s with queue := offers kQueueDepth s.queue (reportOf registered edge a b) } := by
  cases edge with
  | none => cases registered <;> rfl
  | some v => cases registered <;> rfl

theorem posted_advance_nil {s : Controller} (h : s.ops = []) : posted s .advance = none := by
  simp only [posted, h]

theorem quiet_intro {s : Controller} {a : Input} {st : Stage} {lo lc bm : Debouncer} {led : Pattern}
    {q : List Event} {wd ac : Bool} (hcalm : Calm s a)
    (hq : q = offers kQueueDepth s.queue (posted s a))
    (hst : s.stage.Next st)
    (ho : lo.committed = (edgeOpen s a).getD s.limitOpen.committed)
    (hc : lc.committed = (edgeClosed s a).getD s.limitClosed.committed)
    (hb : bm.committed = (edgeBeam s a).getD s.beam.committed)
    (hwd : wd = s.watchdogArmed ∨ (a = .watchdogFires ∧ s.watchdogArmed = true ∧ wd = false))
    (hac : ac = s.autocloseArmed ∨ (a = .autocloseFires ∧ s.autocloseArmed = true ∧ ac = false)) :
    Quiet s a { s with stage := st, limitOpen := lo, limitClosed := lc, beam := bm, led := led,
                       queue := q, watchdogArmed := wd, autocloseArmed := ac } where
  sm := rfl
  ops := rfl
  relayOpen := rfl
  relayClose := rfl
  stateSnapshot := rfl
  reasonSnapshot := rfl
  stage := hst
  queue := hq
  watchdog := hwd
  autoclose := hac
  limitOpen := ho
  limitClosed := hc
  beam := hb
  calm := hcalm

/-- The controller's own code between two programs, as far as it changes no machine. -/
theorem quiet_advance {s : Controller} (hops : s.ops = [])
    (hp : s.stage = .prelatch → s.beam.committed = false)
    (hr : ∀ b, s.stage ≠ .resolve b ∧ s.stage ≠ .pumpResolve b) {st : Stage} {lo lc bm : Debouncer}
    (hst : s.stage.Next st)
    (ho : lo.committed = s.limitOpen.committed) (hc : lc.committed = s.limitClosed.committed)
    (hb : bm.committed = s.beam.committed) :
    Quiet s .advance { s with stage := st, limitOpen := lo, limitClosed := lc, beam := bm } :=
  quiet_intro (calm_advance hops hp hr) (by rw [posted_advance_nil hops]; rfl) hst ho hc hb (Or.inl rfl) (Or.inl rfl)

theorem quiet_refl {s : Controller} {a : Input} (hcalm : Calm s a) (hp : posted s a = none)
    (ho : edgeOpen s a = none) (hc : edgeClosed s a = none) (hb : edgeBeam s a = none) :
    Quiet s a s :=
  quiet_intro hcalm (by rw [hp]; rfl) (.refl _) (by rw [ho]; rfl) (by rw [hc]; rfl) (by rw [hb]; rfl)
    (Or.inl rfl) (Or.inl rfl)

/-! ### The registers an elementary operation writes -/

def writesOpen : Op → Option Bool
  | .setRelayOpen on => some on
  | _ => none

def writesClose : Op → Option Bool
  | .setRelayClose on => some on
  | _ => none

def writesWatchdog : Op → Option Bool
  | .stopWatchdog => some false
  | .startWatchdog => some true
  | _ => none

def writesAutoclose : Op → Option Bool
  | .stopAutoclose => some false
  | .startAutoclose => some true
  | _ => none

/-- The snapshots copy the machine, which no operation changes. -/
def writesState (m : Machine) : Op → Option State
  | .storeState => some m.state
  | _ => none

def writesReason (m : Machine) : Op → Option Reason
  | .storeReason => some m.reason
  | _ => none

def postsEvent : Op → Option Event
  | .post ev => some ev
  | _ => none

section RunOp
variable (s : Controller) (op : Op)

@[simp] theorem runOp_sm : (s.runOp op).sm = s.sm := by cases op <;> rfl
@[simp] theorem runOp_ops : (s.runOp op).ops = s.ops := by cases op <;> rfl
@[simp] theorem runOp_stage : (s.runOp op).stage = s.stage := by cases op <;> rfl
@[simp] theorem runOp_limitOpen : (s.runOp op).limitOpen = s.limitOpen := by cases op <;> rfl
@[simp] theorem runOp_limitClosed : (s.runOp op).limitClosed = s.limitClosed := by cases op <;> rfl
@[simp] theorem runOp_beam : (s.runOp op).beam = s.beam := by cases op <;> rfl

@[simp] theorem runOp_relayOpen :
    (s.runOp op).relayOpen.state = (writesOpen op).getD s.relayOpen.state := by cases op <;> rfl

@[simp] theorem runOp_relayClose :
    (s.runOp op).relayClose.state = (writesClose op).getD s.relayClose.state := by cases op <;> rfl

@[simp] theorem runOp_watchdogArmed :
    (s.runOp op).watchdogArmed = (writesWatchdog op).getD s.watchdogArmed := by cases op <;> rfl

@[simp] theorem runOp_autocloseArmed :
    (s.runOp op).autocloseArmed = (writesAutoclose op).getD s.autocloseArmed := by cases op <;> rfl

@[simp] theorem runOp_stateSnapshot :
    (s.runOp op).stateSnapshot = (writesState s.sm op).getD s.stateSnapshot := by cases op <;> rfl

@[simp] theorem runOp_reasonSnapshot :
    (s.runOp op).reasonSnapshot = (writesReason s.sm op).getD s.reasonSnapshot := by cases op <;> rfl

@[simp] theorem runOp_queue :
    (s.runOp op).queue = offers kQueueDepth s.queue (postsEvent op) := by cases op <;> rfl

end RunOp

theorem posted_advance_cons {s : Controller} {op : Op} {rest : List Op} (h : s.ops = op :: rest) :
    posted s .advance = postsEvent op := by
  simp only [posted, h]
  cases op <;> rfl

/-- Everything a step does to the machine and its program: nothing, an elementary
operation, the boot pre-latch, a position resolved from the two limits, or an event
taken and handled. -/
inductive Move (cfg : Config) (s : Controller) : Input → Controller → Prop
  | quiet {a : Input} {t : Controller} : Quiet s a t → Move cfg s a t
  | op {op : Op} {rest : List Op} : s.ops = op :: rest →
      Move cfg s .advance ({ s with ops := rest }.runOp op)
  | prelatch : s.ops = [] → s.stage = .prelatch → s.beam.committed = true →
      Move cfg s .advance
        { s with sm := (handle s.sm .safetyBeamTripped).1, stage := .readOpen }
  | resolve {b : Bool} {next : Stage} : s.ops = [] → next.unresolved = false →
      s.stage = .resolve b ∨ s.stage = .pumpResolve b →
      Move cfg s .advance (s.resolveBootPosition cfg b next)
  | receive {ev : Event} {rest : List Event} : s.stage = .pump → s.ops = [] →
      s.queue = ev :: rest →
      Move cfg s .receive { s with
        sm := (handle s.sm ev).1, queue := rest, stage := stageAfter ev (handle s.sm ev).2,
        ops := pumpProgram cfg (handle s.sm ev).2 }

theorem advance_move (cfg : Config) (s : Controller) : Move cfg s .advance (s.advance cfg) := by
  unfold Controller.advance
  split
  · rename_i op rest hops
    exact .op hops
  rename_i hops
  split <;> rename_i hstage
  · by_cases hb : s.beam.committed = true
    · simp only [hb, ↓reduceIte]
      exact .prelatch hops hstage hb
    · simp only [hb, Bool.false_eq_true, ↓reduceIte]
      exact .quiet (quiet_advance hops (fun _ => Bool.not_eq_true _ ▸ hb) (by simp [hstage]) (by rw [hstage]; exact ⟨fun _ => rfl,fun h => by cases h⟩) rfl rfl rfl)
  · exact .quiet (quiet_advance hops (by simp [hstage]) (by simp [hstage]) (by rw [hstage]; exact ⟨fun _ => rfl,fun h => by cases h⟩) rfl rfl rfl)
  · exact .resolve hops rfl (Or.inl hstage)
  · exact .quiet (quiet_advance hops (by simp [hstage]) (by simp [hstage]) (by rw [hstage]; exact ⟨fun h => h,fun h => by cases h⟩) rfl rfl rfl)
  · exact .quiet (quiet_advance hops (by simp [hstage]) (by simp [hstage]) (by rw [hstage]; exact ⟨fun h => h,fun h => by cases h⟩) rfl rfl rfl)
  · exact .quiet (quiet_advance hops (by simp [hstage]) (by simp [hstage]) (by rw [hstage]; exact ⟨fun h => h,fun h => by cases h⟩) rfl rfl rfl)
  · exact .quiet (quiet_advance hops (by simp [hstage]) (by simp [hstage]) (by rw [hstage]; exact ⟨fun h => h,fun h => by cases h⟩) rfl rfl rfl)
  · exact .quiet (quiet_advance hops (by simp [hstage]) (by simp [hstage]) (by rw [hstage]; exact ⟨fun _ => rfl,fun h => by cases h⟩) rfl rfl rfl)
  · exact .resolve hops rfl (Or.inr hstage)
  all_goals
    exact .quiet (quiet_refl (calm_advance hops (by simp [hstage]) (by simp [hstage]))
      (posted_advance_nil hops) rfl rfl rfl)

theorem receive_move (cfg : Config) (s : Controller) : Move cfg s .receive (s.receive cfg) := by
  unfold Controller.receive
  split
  · rename_i hstage hops hqueue
    exact .receive hstage hops hqueue
  · rename_i hno
    refine .quiet (quiet_refl ⟨?_,rfl,rfl⟩ rfl rfl rfl rfl)
    rw [Option.eq_none_iff_forall_ne_some]
    intro ev hev
    obtain ⟨hstage,hops,rest,hqueue⟩ := of_handled_receive hev
    exact hno _ _ hstage hops hqueue

theorem posted_watchdogFires {s : Controller} (h : s.watchdogArmed = true) :
    posted s .watchdogFires = some .motorTimeout := by
  simp only [posted, h, ↓reduceIte]

theorem posted_autocloseFires {s : Controller} (h : s.autocloseArmed = true) :
    posted s .autocloseFires = some .commandClose := by
  simp only [posted, h, ↓reduceIte]

theorem step_move (cfg : Config) (s : Controller) (a : Input) : Move cfg s a (step cfg s a) := by
  cases a with
  | advance => exact advance_move cfg s
  | receive => exact receive_move cfg s
  | start =>
    simp only [step]
    split
    · rename_i hs
      exact .quiet (quiet_intro ⟨rfl,rfl,rfl⟩ rfl (by rw [hs]; exact ⟨fun _ => rfl,fun h => by cases h⟩) rfl rfl rfl
        (Or.inl rfl) (Or.inl rfl))
    · exact .quiet (quiet_refl ⟨rfl,rfl,rfl⟩ rfl rfl rfl rfl)
  | createFails =>
    simp only [step]
    split
    · rename_i hs
      exact .quiet (quiet_intro ⟨rfl,rfl,rfl⟩ rfl (by rw [hs.1]; exact ⟨id,fun h => by cases h⟩) rfl rfl rfl
        (Or.inl rfl) (Or.inl rfl))
    · exact .quiet (quiet_refl ⟨rfl,rfl,rfl⟩ rfl rfl rfl rfl)
  | pollLimitOpen level =>
    simp only [step, Controller.pollLimitOpen, callback_eq]
    exact .quiet (quiet_intro ⟨rfl,rfl,rfl⟩ (by simp [posted, edgeOpen, LimitSwitch.onPoll]) (.refl _)
      (committed_onPoll _ _) rfl rfl (Or.inl rfl) (Or.inl rfl))
  | pollLimitClosed level =>
    simp only [step, Controller.pollLimitClosed, callback_eq]
    exact .quiet (quiet_intro ⟨rfl,rfl,rfl⟩ (by simp [posted, edgeClosed, LimitSwitch.onPoll]) (.refl _)
      rfl (committed_onPoll _ _) rfl (Or.inl rfl) (Or.inl rfl))
  | pollBeam level =>
    simp only [step, Controller.pollBeam, callback_eq]
    exact .quiet (quiet_intro ⟨rfl,rfl,rfl⟩ (by simp [posted, edgeBeam, SafetyBeam.onPoll]) (.refl _)
      rfl rfl (committed_onPoll _ _) (Or.inl rfl) (Or.inl rfl))
  | watchdogFires =>
    simp only [step, Controller.watchdogFires]
    split
    · rename_i h
      exact .quiet (quiet_intro ⟨rfl,rfl,rfl⟩ (by rw [posted_watchdogFires h]; rfl) (.refl _) rfl rfl rfl
        (Or.inr ⟨rfl,h,rfl⟩) (Or.inl rfl))
    · rename_i h
      exact .quiet (quiet_refl ⟨rfl,rfl,rfl⟩ (by simp only [posted, h, Bool.false_eq_true, ↓reduceIte])
        rfl rfl rfl)
  | autocloseFires =>
    simp only [step, Controller.autocloseFires]
    split
    · rename_i h
      exact .quiet (quiet_intro ⟨rfl,rfl,rfl⟩ (by rw [posted_autocloseFires h]; rfl) (.refl _) rfl rfl rfl
        (Or.inl rfl) (Or.inr ⟨rfl,h,rfl⟩))
    · rename_i h
      exact .quiet (quiet_refl ⟨rfl,rfl,rfl⟩ (by simp only [posted, h, Bool.false_eq_true, ↓reduceIte])
        rfl rfl rfl)
  | command c => exact .quiet (quiet_intro ⟨rfl,rfl,rfl⟩ rfl (.refl _) rfl rfl rfl (Or.inl rfl) (Or.inl rfl))
  | showLedPattern p => exact .quiet (quiet_intro ⟨rfl,rfl,rfl⟩ rfl (.refl _) rfl rfl rfl (Or.inl rfl) (Or.inl rfl))

end AlprGate.Control
