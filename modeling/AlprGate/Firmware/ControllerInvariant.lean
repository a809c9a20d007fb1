import AlprGate.Firmware.ControllerSteps

/-! # Relays, reasons and timers follow the machine

The relays lag behind the machine while a program is pending, so the invariant is
about the value each register settles to. It becomes a statement about the
registers themselves as soon as the program has run.
-/
namespace AlprGate.Control
open StateMachine Drivers BoundedQueue PendingWrites Transition

/-- The operations that follow `execute`. -/
def Op.late : Op → Bool
  | .setRelayOpen _ | .setRelayClose _ | .render _ | .storeState | .storeReason => false
  | _ => true

theorem late_of_mem_manageTimers {cfg : Config} {out : Outputs} {op : Op}
    (h : op ∈ manageTimers cfg out) : op.late = true := by
  unfold manageTimers at h
  split at h
  · cases h
  · simp only [List.mem_append, List.mem_cons, List.not_mem_nil, or_false] at h
    rcases h with ((rfl | h) | rfl) | h
    · rfl
    · split at h
      · rw [List.mem_singleton.mp h]
        rfl
      · cases h
    · rfl
    · split at h
      · rw [List.mem_singleton.mp h]
        rfl
      · cases h

theorem late_of_mem_applyPolicies {cfg : Config} {out : Outputs} {op : Op}
    (h : op ∈ applyPolicies cfg out) : op.late = true := by
  unfold applyPolicies at h
  split at h
  · rw [List.mem_singleton.mp h]
    rfl
  · split at h
    · simp only [List.mem_cons, List.not_mem_nil, or_false] at h
      rcases h with rfl | rfl <;> rfl
    · cases h

theorem late_of_mem_listener {out : Outputs} {op : Op} (h : op ∈ listener out) :
    op.late = true := by
  unfold listener at h
  split at h
  · rw [List.mem_singleton.mp h]
    rfl
  · cases h

/-- The part of the pump's program that follows `execute`. -/
def afterExecute (cfg : Config) (out : Outputs) : List Op :=
  manageTimers cfg out ++ applyPolicies cfg out ++ listener out

theorem pumpProgram_eq (cfg : Config) (out : Outputs) :
    pumpProgram cfg out = execute out ++ afterExecute cfg out := by
  simp only [pumpProgram, afterExecute, List.append_assoc]

theorem late_of_mem_afterExecute {cfg : Config} {out : Outputs} {op : Op}
    (h : op ∈ afterExecute cfg out) : op.late = true := by
  simp only [afterExecute, List.mem_append] at h
  rcases h with (h | h) | h
  · exact late_of_mem_manageTimers h
  · exact late_of_mem_applyPolicies h
  · exact late_of_mem_listener h

theorem early_of_mem_execute {out : Outputs} {op : Op} (h : op ∈ execute out) :
    op.late = false := by
  simp only [execute, List.mem_append, List.mem_flatMap] at h
  rcases h with ⟨a,-,h⟩ | h
  · cases a <;> simp only [actionOps, List.mem_cons, List.not_mem_nil, or_false] at h <;>
      (rcases h with rfl | rfl <;> rfl)
  · simp only [List.mem_cons, List.not_mem_nil, or_false] at h
    rcases h with rfl | rfl <;> rfl

theorem not_mem_execute {out : Outputs} {op : Op} (h : op.late = true) : op ∉ execute out := by
  intro hop
  rw [early_of_mem_execute hop] at h
  cases h

theorem writesOpen_late {op : Op} (h : op.late = true) : writesOpen op = none := by
  cases op <;> first | rfl | cases h

theorem writesClose_late {op : Op} (h : op.late = true) : writesClose op = none := by
  cases op <;> first | rfl | cases h

theorem writesState_late {m : Machine} {op : Op} (h : op.late = true) :
    writesState m op = none := by
  cases op <;> first | rfl | cases h

theorem writesReason_late {m : Machine} {op : Op} (h : op.late = true) :
    writesReason m op = none := by
  cases op <;> first | rfl | cases h

theorem writesWatchdog_early {op : Op} (h : op.late = false) : writesWatchdog op = none := by
  cases op <;> first | rfl | cases h

theorem writesAutoclose_early {op : Op} (h : op.late = false) : writesAutoclose op = none := by
  cases op <;> first | rfl | cases h

/-! ### What `execute` does to the relays and the snapshots -/

/-- Both contactors settle where the new state wants them, and no write on the way
has both on. -/
structure Drives (old new : State) (ops : List Op) : Prop where
  relayOpen : settled writesOpen ops (decide (old = .opening)) = decide (new = .opening)
  relayClose : settled writesClose ops (decide (old = .closing)) = decide (new = .closing)
  neverBoth : NeverBoth writesOpen writesClose ops (decide (old = .opening))
    (decide (old = .closing))

theorem Drives.append {old new : State} {xs ys : List Op} (h : Drives old new xs)
    (hy : ∀ op ∈ ys, op.late = true) : Drives old new (xs ++ ys) where
  relayOpen := by
    rw [settled_append, settled_of_none fun op hop => writesOpen_late (hy op hop), h.relayOpen]
  relayClose := by
    rw [settled_append, settled_of_none fun op hop => writesClose_late (hy op hop), h.relayClose]
  neverBoth := h.neverBoth.append (by
    rw [h.relayOpen, h.relayClose]
    refine NeverBoth.of_none (fun op hop => writesOpen_late (hy op hop))
      (fun op hop => writesClose_late (hy op hop)) ?_
    simp only [decide_eq_true_eq]
    rintro ⟨ho,hc⟩
    rw [ho] at hc
    cases hc)

theorem handle_drives (m : Machine) (ev : Event) :
    Drives m.state (handle m ev).1.state (execute (handle m ev).2) := by
  rcases m with ⟨state,reason,clear⟩
  rcases handle_cases ⟨state,reason,clear⟩ ev with ⟨s,stored,reported,actions,he,hm⟩ | ⟨-,hm⟩ | ⟨-,-,hm⟩
  · rw [hm]
    dsimp only at he ⊢
    cases he with
    | resumeOpen h | timeout h => rcases h with rfl | rfl <;> exact ⟨rfl,rfl,by decide⟩
    | resumeClose h _ => rcases h with rfl | rfl <;> exact ⟨rfl,rfl,by decide⟩
    | _ => exact ⟨rfl,rfl,by decide⟩
  · rw [hm]
    dsimp only
    cases state <;> exact ⟨rfl,rfl,by decide⟩
  · rw [hm]
    dsimp only
    cases state <;> exact ⟨rfl,rfl,by decide⟩

/-- A position is proved by exactly one active limit. -/
theorem initFrom_cases (openActive closedActive : Bool) (m : Machine) :
    (openActive = false ∧ closedActive = true ∧ initFrom openActive closedActive m =
      (⟨.closed,.none,m.beamClear⟩,
        ⟨[.stopMotor, .setLedClosed, .emitTelemetryStateChanged],.closed,true,.none⟩)) ∨
    (openActive = true ∧ closedActive = false ∧ initFrom openActive closedActive m =
      (⟨.open,.none,m.beamClear⟩,
        ⟨[.stopMotor, .setLedOpen, .emitTelemetryStateChanged],.open,true,.none⟩)) ∨
    (openActive = closedActive ∧ initFrom openActive closedActive m =
      (⟨.faulted,.limitSwitchConflict,m.beamClear⟩,
        ⟨[.stopMotor, .setLedFault, .emitTelemetryStateChanged],.faulted,true,
          .limitSwitchConflict⟩)) := by
  cases openActive <;> cases closedActive
  · exact Or.inr (Or.inr ⟨rfl,rfl⟩)
  · exact Or.inl ⟨rfl,rfl,rfl⟩
  · exact Or.inr (Or.inl ⟨rfl,rfl,rfl⟩)
  · exact Or.inr (Or.inr ⟨rfl,rfl⟩)

theorem initFrom_newState (openActive closedActive : Bool) (m : Machine) :
    (initFrom openActive closedActive m).2.newState =
      (initFrom openActive closedActive m).1.state := by
  rcases initFrom_cases openActive closedActive m with ⟨-,-,h⟩ | ⟨-,-,h⟩ | ⟨-,h⟩ <;> rw [h]

theorem initFrom_beamClear (openActive closedActive : Bool) (m : Machine) :
    (initFrom openActive closedActive m).1.beamClear = m.beamClear := by
  rcases initFrom_cases openActive closedActive m with ⟨-,-,h⟩ | ⟨-,-,h⟩ | ⟨-,h⟩ <;> rw [h]

theorem initFrom_drives (openActive closedActive : Bool) {m : Machine}
    (hm : m.state = .initializing) :
    Drives m.state (initFrom openActive closedActive m).1.state
      (execute (initFrom openActive closedActive m).2) := by
  rw [hm]
  rcases initFrom_cases openActive closedActive m with ⟨-,-,h⟩ | ⟨-,-,h⟩ | ⟨-,h⟩
  all_goals
    rw [h]
    exact ⟨rfl,rfl,by dsimp only; decide⟩

/-- States in which the gate waits for somebody and says why. -/
def State.halted : State → Bool
  | .stoppedOpen | .stoppedClose | .faulted => true
  | _ => false

def ReasonFits (m : Machine) : Prop := m.reason = .none ↔ State.halted m.state = false

theorem handle_reasonFits {m : Machine} (hm : ReasonFits m) (ev : Event) :
    ReasonFits (handle m ev).1 := by
  rcases m with ⟨state,reason,clear⟩
  rcases handle_cases ⟨state,reason,clear⟩ ev with ⟨s,stored,reported,actions,he,h⟩ | ⟨-,h⟩ | ⟨-,-,h⟩
  · rw [h]
    dsimp only at he ⊢
    cases he with
    | openFromClosed | reachOpen | closeFromOpen | reachClosed =>
      exact ⟨fun _ => rfl,fun _ => hm.mpr rfl⟩
    | _ => exact ⟨fun h => by cases h <;> rfl,fun h => by cases h <;> rfl⟩
  · rw [h]
    exact hm
  · rw [h]
    exact hm

theorem initFrom_reasonFits (openActive closedActive : Bool) (m : Machine) :
    ReasonFits (initFrom openActive closedActive m).1 := by
  rcases initFrom_cases openActive closedActive m with ⟨-,-,h⟩ | ⟨-,-,h⟩ | ⟨-,h⟩
  all_goals
    rw [h]
    unfold ReasonFits
    dsimp only
    decide

/-- Every program ends its `execute` part by publishing both snapshots. -/
theorem settled_state_execute (m : Machine) (out : Outputs) (b : State) :
    settled (writesState m) (execute out) b = m.state := by
  simp [execute, writesState]

theorem settled_reason_execute (m : Machine) (out : Outputs) (b : Reason) :
    settled (writesReason m) (execute out) b = m.reason := by
  simp [execute, writesReason]

/-! ### The invariant -/

structure Coherent (s : Controller) : Prop where
  relayOpen : settled writesOpen s.ops s.relayOpen.state = decide (s.sm.state = .opening)
  relayClose : settled writesClose s.ops s.relayClose.state = decide (s.sm.state = .closing)
  neverBoth : NeverBoth writesOpen writesClose s.ops s.relayOpen.state s.relayClose.state
  reason : ReasonFits s.sm
  stateSnapshot : settled (writesState s.sm) s.ops s.stateSnapshot = s.sm.state
  reasonSnapshot : settled (writesReason s.sm) s.ops s.reasonSnapshot = s.sm.reason
  unresolved : s.stage.unresolved = true → s.sm.state = .initializing

theorem construct_coherent (lo lc bm : Bool) : Coherent (construct lo lc bm) :=
  ⟨rfl,rfl,by change ¬ (false = true ∧ false = true); decide,⟨fun _ => rfl,fun _ => rfl⟩,rfl,rfl,fun _ => rfl⟩

/-- A new program whose `execute` part drives the relays from the old state to the
new one. -/
theorem Coherent.program {s : Controller} (hs : Coherent s) (hops : s.ops = []) {m : Machine}
    {out : Outputs} {rest : List Op} (hd : Drives s.sm.state m.state (execute out))
    (hm : ReasonFits m) (hrest : ∀ op ∈ rest, op.late = true) {st : Stage} {q : List Event}
    (hst : st.unresolved = true → m.state = .initializing) :
    Coherent { s with sm := m, ops := execute out ++ rest, stage := st, queue := q } := by
  have ho : s.relayOpen.state = decide (s.sm.state = .opening) := by
    simpa only [hops, settled_nil] using hs.relayOpen
  have hc : s.relayClose.state = decide (s.sm.state = .closing) := by
    simpa only [hops, settled_nil] using hs.relayClose
  have hall := hd.append hrest
  refine ⟨?_,?_,?_,hm,?_,?_,hst⟩
  · dsimp only
    rw [ho]
    exact hall.relayOpen
  · dsimp only
    rw [hc]
    exact hall.relayClose
  · dsimp only
    rw [ho, hc]
    exact hall.neverBoth
  · dsimp only
    rw [settled_append, settled_of_none fun op hop => writesState_late (hrest op hop),
      settled_state_execute]
  · dsimp only
    rw [settled_append, settled_of_none fun op hop => writesReason_late (hrest op hop),
      settled_reason_execute]

theorem stageAfter_unresolved {m : Machine} {ev : Event}
    (h : (stageAfter ev (handle m ev).2).unresolved = true) :
    (handle m ev).1.state = .initializing := by
  unfold stageAfter at h
  split at h
  · rename_i hc
    rcases handle_cases m ev with ⟨s,stored,reported,actions,-,hm⟩ | ⟨-,hm⟩ | ⟨-,-,hm⟩
    · rw [hm] at hc ⊢
      exact hc.2.2
    · rw [hm] at hc
      cases hc.2.1
    · rw [hm] at hc
      cases hc.2.1
  · cases h

theorem handle_tripped_initializing {m : Machine} (hm : m.state = .initializing) :
    (handle m .safetyBeamTripped).1 = { m with beamClear := false } := by
  rcases m with ⟨state,reason,clear⟩
  cases hm
  rfl

theorem Move.coherent {cfg : Config} {s t : Controller} {a : Input} (hmove : Move cfg s a t)
    (hs : Coherent s) : Coherent t := by
  cases hmove with
  | quiet h =>
    refine ⟨?_,?_,?_,?_,?_,?_,?_⟩
    · rw [h.ops, h.relayOpen, h.sm]
      exact hs.relayOpen
    · rw [h.ops, h.relayClose, h.sm]
      exact hs.relayClose
    · rw [h.ops, h.relayOpen, h.relayClose]
      exact hs.neverBoth
    · rw [h.sm]
      exact hs.reason
    · rw [h.ops, h.sm, h.stateSnapshot]
      exact hs.stateSnapshot
    · rw [h.ops, h.sm, h.reasonSnapshot]
      exact hs.reasonSnapshot
    · intro hu
      rw [h.sm]
      exact hs.unresolved (h.stage.1 hu)
  | op hops =>
    rcases hs with ⟨ho,hc,hn,hr,hst,hrs,hu⟩
    rw [hops] at ho hc hn hst hrs
    refine ⟨?_,?_,?_,?_,?_,?_,?_⟩
    · simpa using ho
    · simpa using hc
    · simpa using hn.2
    · simpa using hr
    · simpa using hst
    · simpa using hrs
    · simpa using hu
  | prelatch hops hstage hb =>
    have hi := hs.unresolved (by rw [hstage]; rfl)
    rw [handle_tripped_initializing hi]
    rcases hs with ⟨ho,hc,hn,hr,hst,hrs,-⟩
    rw [hops] at ho hc hn hst hrs
    exact ⟨by rw [hops]; exact ho,by rw [hops]; exact hc,by rw [hops]; exact hn,hr,
      by rw [hops]; exact hst,by rw [hops]; exact hrs,fun _ => hi⟩
  | resolve hops hnext hstage =>
    have hi : s.sm.state = .initializing := hs.unresolved (by rcases hstage with h | h <;> rw [h] <;> rfl)
    exact hs.program hops (initFrom_drives _ _ hi) (initFrom_reasonFits _ _ _)
      (fun op hop => late_of_mem_manageTimers hop) (fun h => by rw [hnext] at h; cases h)
  | receive hstage hops hqueue =>
    rw [pumpProgram_eq]
    exact hs.program hops (handle_drives _ _) (handle_reasonFits hs.reason _)
      (fun op hop => late_of_mem_afterExecute hop) stageAfter_unresolved

/-- An energised contactor outlives its motion only until the pending program drops
it. -/
theorem Coherent.opening_or_pending {s : Controller} (hs : Coherent s)
    (h : s.relayOpen.state = true) : s.sm.state = .opening ∨ .setRelayOpen false ∈ s.ops := by
  by_cases hm : s.sm.state = .opening
  · exact Or.inl hm
  · have hset := hs.relayOpen
    rw [h, decide_eq_false hm] at hset
    obtain ⟨op,hop,hw⟩ := exists_write_of_settled hset Bool.false_ne_true
    cases op <;> cases hw
    exact Or.inr hop

theorem Coherent.closing_or_pending {s : Controller} (hs : Coherent s)
    (h : s.relayClose.state = true) : s.sm.state = .closing ∨ .setRelayClose false ∈ s.ops := by
  by_cases hm : s.sm.state = .closing
  · exact Or.inl hm
  · have hset := hs.relayClose
    rw [h, decide_eq_false hm] at hset
    obtain ⟨op,hop,hw⟩ := exists_write_of_settled hset Bool.false_ne_true
    cases op <;> cases hw
    exact Or.inr hop

/-! ### Pending drives -/

def State.moving : State → Bool
  | .opening | .closing => true
  | _ => false

/-- The motion an operation energises. -/
def Op.motion : Op → Option State
  | .setRelayOpen true => some .opening
  | .setRelayClose true => some .closing
  | _ => none

theorem motion_late {op : Op} (h : op.late = true) : op.motion = none := by
  cases op <;> first | rfl | cases h

/-- A pending drive belongs to the motion the machine is in. -/
def MotionFits (m : Machine) (ops : List Op) : Prop :=
  ∀ op ∈ ops, op.motion = none ∨ op.motion = some m.state

theorem MotionFits.append_late {m : Machine} {xs ys : List Op} (h : MotionFits m xs)
    (hy : ∀ op ∈ ys, op.late = true) : MotionFits m (xs ++ ys) := by
  intro op hop
  rcases List.mem_append.mp hop with hop | hop
  · exact h op hop
  · exact Or.inl (motion_late (hy op hop))

theorem MotionFits.still {m : Machine} {ops : List Op} (h : MotionFits m ops)
    (hm : State.moving m.state = false) : ∀ op ∈ ops, op.motion = none := by
  intro op hop
  refine (h op hop).resolve_right fun hs => ?_
  unfold Op.motion at hs
  split at hs
  · rw [← Option.some.inj hs] at hm
    cases hm
  · rw [← Option.some.inj hs] at hm
    cases hm
  · cases hs

theorem handle_motionFits (m : Machine) (ev : Event) :
    MotionFits (handle m ev).1 (execute (handle m ev).2) := by
  rcases m with ⟨state,reason,clear⟩
  rcases handle_cases ⟨state,reason,clear⟩ ev with ⟨s,stored,reported,actions,he,hm⟩ | ⟨-,hm⟩ | ⟨-,-,hm⟩
  · rw [hm]
    unfold MotionFits
    dsimp only at he ⊢
    cases he <;> decide
  · rw [hm]
    unfold MotionFits
    dsimp only
    cases state <;> decide
  · rw [hm]
    unfold MotionFits
    dsimp only
    cases state <;> decide

theorem initFrom_motionFits (openActive closedActive : Bool) (m : Machine) :
    MotionFits (initFrom openActive closedActive m).1
      (execute (initFrom openActive closedActive m).2) := by
  rcases initFrom_cases openActive closedActive m with ⟨-,-,h⟩ | ⟨-,-,h⟩ | ⟨-,h⟩
  all_goals
    rw [h]
    unfold MotionFits
    dsimp only
    decide

theorem Move.motionFits {cfg : Config} {s t : Controller} {a : Input} (hmove : Move cfg s a t)
    (hs : MotionFits s.sm s.ops) : MotionFits t.sm t.ops := by
  cases hmove with
  | quiet h =>
    rw [h.sm, h.ops]
    exact hs
  | op hops =>
    rw [hops] at hs
    rw [runOp_sm, runOp_ops]
    exact fun op hop => hs op (List.mem_cons_of_mem _ hop)
  | prelatch hops hstage hb =>
    rw [hops]
    exact fun op hop => (by cases hop)
  | resolve hops hnext hstage =>
    exact (initFrom_motionFits _ _ _).append_late fun op hop => late_of_mem_manageTimers hop
  | receive hstage hops hqueue =>
    rw [pumpProgram_eq]
    exact (handle_motionFits _ _).append_late fun op hop => late_of_mem_afterExecute hop

/-- The only event the controller posts to itself is the policy's reversal. -/
def PostsFit (ops : List Op) : Prop := ∀ op ∈ ops, ∀ ev, postsEvent op = some ev → ev = .commandOpen

theorem postsFit_execute (out : Outputs) : PostsFit (execute out) := by
  intro op hop ev hev
  cases op <;> cases hev
  cases early_of_mem_execute hop

theorem postsFit_manageTimers (cfg : Config) (out : Outputs) : PostsFit (manageTimers cfg out) := by
  intro op hop ev hev
  cases op <;> cases hev
  simp [manageTimers] at hop

theorem postsFit_pumpProgram (cfg : Config) (out : Outputs) : PostsFit (pumpProgram cfg out) := by
  intro op hop ev hev
  simp only [pumpProgram, List.mem_append] at hop
  rcases hop with ((hop | hop) | hop) | hop
  · exact postsFit_execute out op hop ev hev
  · exact postsFit_manageTimers cfg out op hop ev hev
  · cases op <;> cases hev
    unfold applyPolicies at hop
    split at hop
    · simpa using hop
    · simp at hop
  · cases op <;> cases hev
    simp [listener] at hop

theorem Move.postsFit {cfg : Config} {s t : Controller} {a : Input} (hmove : Move cfg s a t)
    (hs : PostsFit s.ops) : PostsFit t.ops := by
  cases hmove with
  | quiet h =>
    rw [h.ops]
    exact hs
  | op hops =>
    rw [hops] at hs
    rw [runOp_ops]
    exact fun op hop => hs op (List.mem_cons_of_mem _ hop)
  | prelatch hops hstage hb => exact hs
  | resolve hops hnext hstage =>
    intro op hop
    rcases List.mem_append.mp hop with hop | hop
    · exact postsFit_execute _ op hop
    · exact postsFit_manageTimers _ _ op hop
  | receive hstage hops hqueue => exact postsFit_pumpProgram _ _

/-! ### Callbacks, and where motion can happen -/

theorem initFrom_not_moving (openActive closedActive : Bool) (m : Machine) :
    State.moving (initFrom openActive closedActive m).1.state = false := by
  rcases initFrom_cases openActive closedActive m with ⟨-,-,h⟩ | ⟨-,-,h⟩ | ⟨-,h⟩ <;> rw [h] <;> rfl

/-- How many of the three callbacks `start` has registered. -/
def Stage.registered : Stage → ℕ
  | .constructed | .prelatch | .readOpen | .resolve _ | .registerLimitOpen => 0
  | .registerLimitClosed => 1
  | .registerBeam => 2
  | .createTask | .noTask | .pump | .pumpReadOpen | .pumpResolve _ => 3

structure Wired (s : Controller) : Prop where
  limitOpen : s.limitOpen.hasCallback = decide (1 ≤ s.stage.registered)
  limitClosed : s.limitClosed.hasCallback = decide (2 ≤ s.stage.registered)
  beam : s.beam.hasCallback = decide (3 ≤ s.stage.registered)

theorem construct_wired (lo lc bm : Bool) : Wired (construct lo lc bm) := ⟨rfl,rfl,rfl⟩

/-- Only the stage and the three registrations matter. -/
theorem Wired.congr {s t : Controller} (hs : Wired s)
    (hst : t.stage.registered = s.stage.registered)
    (ho : t.limitOpen.hasCallback = s.limitOpen.hasCallback)
    (hc : t.limitClosed.hasCallback = s.limitClosed.hasCallback)
    (hb : t.beam.hasCallback = s.beam.hasCallback) : Wired t :=
  ⟨by rw [ho, hst, hs.limitOpen],by rw [hc, hst, hs.limitClosed],by rw [hb, hst, hs.beam]⟩

theorem advance_wired (cfg : Config) {s : Controller} (hs : Wired s) : Wired (s.advance cfg) := by
  unfold Controller.advance
  split
  · exact hs.congr (by simp) (by simp) (by simp) (by simp)
  split <;> rename_i hstage
  all_goals rcases hs with ⟨ho,hc,hb⟩; rw [hstage] at ho hc hb
  all_goals first
    | exact ⟨ho,hc,hb⟩
    | exact ⟨rfl,hc,hb⟩
    | exact ⟨ho,rfl,hb⟩
    | exact ⟨ho,hc,rfl⟩
    | exact ⟨by rw [hstage]; exact ho,by rw [hstage]; exact hc,by rw [hstage]; exact hb⟩

theorem registered_stageAfter (ev : Event) (out : Outputs) : (stageAfter ev out).registered = 3 := by
  unfold stageAfter
  split <;> rfl

theorem step_wired (cfg : Config) (s : Controller) (a : Input) (hs : Wired s) :
    Wired (step cfg s a) := by
  cases a with
  | advance => exact advance_wired cfg hs
  | receive =>
    simp only [step, Controller.receive]
    split
    · rename_i hstage _ _
      exact hs.congr (by rw [hstage]; exact registered_stageAfter _ _) rfl rfl rfl
    · exact hs
  | start =>
    simp only [step]
    split
    · rename_i hstage
      exact hs.congr (by rw [hstage]; rfl) rfl rfl rfl
    · exact hs
  | createFails =>
    simp only [step]
    split
    · rename_i hstage
      exact hs.congr (by rw [hstage.1]; rfl) rfl rfl rfl
    · exact hs
  | pollLimitOpen level =>
    simp only [step, Controller.pollLimitOpen, callback_eq]
    exact hs.congr rfl (Debouncer.onPoll_hasCallback _ _) rfl rfl
  | pollLimitClosed level =>
    simp only [step, Controller.pollLimitClosed, callback_eq]
    exact hs.congr rfl rfl (Debouncer.onPoll_hasCallback _ _) rfl
  | pollBeam level =>
    simp only [step, Controller.pollBeam, callback_eq]
    exact hs.congr rfl rfl rfl (Debouncer.onPoll_hasCallback _ _)
  | watchdogFires =>
    simp only [step, Controller.watchdogFires]
    split
    · exact hs.congr rfl rfl rfl rfl
    · exact hs
  | autocloseFires =>
    simp only [step, Controller.autocloseFires]
    split
    · exact hs.congr rfl rfl rfl rfl
    · exact hs
  | command c => exact hs.congr rfl rfl rfl rfl
  | showLedPattern p => exact hs.congr rfl rfl rfl rfl

/-- Only the pump moves the gate. -/
def MovesInPump (s : Controller) : Prop := State.moving s.sm.state = true → s.stage = .pump

theorem Move.movesInPump {cfg : Config} {s t : Controller} {a : Input} (hmove : Move cfg s a t)
    (hco : Coherent s) (hs : MovesInPump s) : MovesInPump t := by
  intro hmov
  cases hmove with
  | quiet h => exact h.stage.2 (hs (h.sm ▸ hmov))
  | op hops =>
    rw [runOp_stage]
    exact hs (by simpa using hmov)
  | prelatch hops hstage hb =>
    have hi := hco.unresolved (by rw [hstage]; rfl)
    rw [handle_tripped_initializing hi, hi] at hmov
    cases hmov
  | resolve hops hnext hstage =>
    rw [Controller.resolveBootPosition, initFrom_not_moving] at hmov
    cases hmov
  | @receive ev rest hstage hops hqueue =>
    by_cases hu : (stageAfter ev (handle s.sm ev).2).unresolved = true
    · have hi := stageAfter_unresolved hu
      rw [hi] at hmov
      cases hmov
    · unfold stageAfter at hu ⊢
      split
      · rename_i hc
        rw [if_pos hc] at hu
        exact absurd rfl hu
      · rfl

/-- What every run keeps, whatever is dropped. -/
structure Sound (s : Controller) : Prop where
  coherent : Coherent s
  motion : MotionFits s.sm s.ops
  posts : PostsFit s.ops
  wired : Wired s
  pump : MovesInPump s

theorem construct_sound (lo lc bm : Bool) : Sound (construct lo lc bm) :=
  ⟨construct_coherent lo lc bm,fun _ hop => (by cases hop),fun _ hop => (by cases hop),construct_wired lo lc bm,
    fun h => (by cases h)⟩

theorem step_sound (cfg : Config) (s : Controller) (a : Input) (hs : Sound s) :
    Sound (step cfg s a) :=
  have hmove := step_move cfg s a
  ⟨hmove.coherent hs.coherent,hmove.motionFits hs.motion,hmove.postsFit hs.posts,
    step_wired cfg s a hs.wired,hmove.movesInPump hs.coherent hs.pump⟩

theorem run_sound (cfg : Config) (lo lc bm : Bool) (as : List Input) :
    Sound (exec (step cfg) (construct lo lc bm) as) :=
  exec_invariant (step_sound cfg) as (construct_sound lo lc bm)

end AlprGate.Control
