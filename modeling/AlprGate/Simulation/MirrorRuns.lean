import AlprGate.Simulation.GateMirror
import AlprGate.Simulation.VirtualTravel

/-! # The virtual gate mirrors the firmware

Between two operations both agree on everything but the position, as long as no reset of a
fault decides a pending command and no watchdog without a budget runs out. The firmware's
`resolve_boot_position` says nothing to the listener, and it never arms a watchdog that has no
budget; the virtual gate does both.
-/
namespace AlprGate.Sim
open StateMachine Drivers BoundedQueue Control Rpc Transition VirtualGate

namespace VirtualGate
variable {cfg : Config} {v : VirtualGate}

/-- One event without the policies. -/
def react (cfg : Config) (v : VirtualGate) (ev : Event) : VirtualGate :=
  absorb cfg { v with machine := (handle v.machine ev).1 } (handle v.machine ev).2

/-- A policy sets the auto-close again or has one more event handled. -/
theorem stepLocked_cases (cfg : Config) (v : VirtualGate) (ev : Event) :
    (∃ deadline, v.stepLocked cfg ev = { v.react cfg ev with autocloseDeadline := deadline }) ∨
      v.stepLocked cfg ev = (v.react cfg ev).react cfg .commandOpen := by
  unfold stepLocked kApplyDepth
  by_cases hreverse : Reverses cfg (handle v.machine ev).2
  · right
    rw [applyLocked, if_pos hreverse]
    exact applyLocked_plain (commandOpen_plain cfg _).1 (commandOpen_plain cfg _).2 0 _
  left
  by_cases hretry : Retries cfg (handle v.machine ev).2
  · exact ⟨_,applyLocked_retry hretry 1 _⟩
  · exact ⟨_,applyLocked_plain hreverse hretry 1 _⟩

/-- What one event preserves, and the auto-close does not touch, the policies preserve. -/
theorem stepLocked_preserves {P : VirtualGate → Prop} {ev : Event} (hev : ev ≠ .faultCleared)
    (hreact : ∀ v ev, ev ≠ .faultCleared → P v → P (v.react cfg ev))
    (hdeadline : ∀ v deadline, P v → P { v with autocloseDeadline := deadline }) (h : P v) :
    P (v.stepLocked cfg ev) := by
  rcases stepLocked_cases cfg v ev with ⟨deadline,hstep⟩ | hstep
  · rw [hstep]
    exact hdeadline _ _ (hreact v ev hev h)
  · rw [hstep]
    exact hreact _ .commandOpen Event.noConfusion (hreact v ev hev h)

/-- The motor of the state is the one that is driven, and the position is resolved. -/
structure Driven (v : VirtualGate) : Prop where
  motorOpen : v.motorOpen = decide (v.machine.state = .opening)
  motorClose : v.motorClose = decide (v.machine.state = .closing)
  resolved : v.machine.state ≠ .initializing

theorem Driven.react {ev : Event} (hev : ev ≠ .faultCleared) (h : Driven v) :
    Driven (v.react cfg ev) := by
  unfold VirtualGate.react
  rcases handle_cases v.machine ev with ⟨s,stored,reported,actions,hedge,hm⟩ | ⟨-,hm⟩ | ⟨-,-,hm⟩
  · obtain ⟨hmotorOpen,hmotorClose⟩ := edge_motor
      (g:={ v with machine := ⟨s,stored,latch v.machine.beamClear ev⟩ }) hedge h.motorOpen h.motorClose
    rw [hm, absorb_transition cfg _ rfl]
    refine ⟨hmotorOpen,hmotorClose,?_⟩
    dsimp only
    rintro rfl
    generalize v.machine.state = old at hedge
    cases hedge
    exact hev rfl
  · rw [hm, absorb_quiet cfg _ rfl rfl]
    exact ⟨h.motorOpen,h.motorClose,h.resolved⟩
  · rw [hm, absorb_quiet cfg _ rfl rfl]
    exact ⟨h.motorOpen,h.motorClose,h.resolved⟩

theorem Driven.stepLocked {ev : Event} (hev : ev ≠ .faultCleared) (h : Driven v) :
    Driven (v.stepLocked cfg ev) :=
  stepLocked_preserves hev (fun _ _ hev h => h.react hev)
    (fun _ _ h => ⟨h.motorOpen,h.motorClose,h.resolved⟩) h

end VirtualGate

/-- Between two operations: the pump has drained the queue. -/
structure Synced (cfg : Config) (v : VirtualGate) (w : Wired) : Prop extends
    Agree cfg v w, Resting w where
  queue : w.gate.queue = []

section Operations
variable {cfg : Config} {v : VirtualGate} {w : Wired}

theorem Wired.run_command (c : Control.Command) : w.run cfg (.command c) = w.post c.event := by
  simp [Wired.run, Wired.post, Wired.setGate, Wired.gate, operation, Device.step, Device.runGate,
    listenerCall, Control.step]

theorem Wired.run_watchdogFires (h : w.gate.watchdogArmed = true) :
    w.run cfg .watchdogFires =
      (w.setGate { w.gate with watchdogArmed := false }).post .motorTimeout := by
  have harmed : w.device.gate.watchdogArmed = true := h
  simp [Wired.run, Wired.post, Wired.setGate, Wired.gate, operation, Device.step, Device.runGate,
    listenerCall, Control.step, Controller.watchdogFires, harmed]

theorem Wired.run_autocloseFires (h : w.gate.autocloseArmed = true) :
    w.run cfg .autocloseFires =
      (w.setGate { w.gate with autocloseArmed := false }).post .commandClose := by
  have harmed : w.device.gate.autocloseArmed = true := h
  simp [Wired.run, Wired.post, Wired.setGate, Wired.gate, operation, Device.step, Device.runGate,
    listenerCall, Control.step, Controller.autocloseFires, harmed]

theorem Synced.post (h : Synced cfg v w) (ev : Event)
    (hstage : stageAfter ev (handle v.machine ev).2 = .pump) :
    Synced cfg (v.stepLocked cfg ev) ((w.post ev).drain cfg) := by
  have hagree : Agree cfg v (w.post ev) := { h.toAgree with }
  have hposted : (w.post ev).gate.queue = [ev] := by
    change offer kQueueDepth w.gate.queue ev = [ev]
    rw [h.queue]
    rfl
  obtain ⟨hagree',hrest,hempty⟩ := hagree.drain ⟨h.idle,h.stored,h.pending⟩ hposted hstage
  exact ⟨hagree',hrest,hempty⟩

/-- The position and the beam of the world are the virtual gate's alone. -/
theorem Synced.place (h : Synced cfg v w) (positionMs : ℤ) (beamBlocked : Bool) :
    Synced cfg { v with positionMs := positionMs, beamBlocked := beamBlocked } w :=
  ⟨{ h.toAgree with },h.toResting,h.queue⟩

theorem Synced.sense (h : Synced cfg v w) (positionMs : ℤ) :
    Synced cfg v (w.sense cfg positionMs) :=
  ⟨{ h.toAgree with },⟨h.idle,h.stored,h.pending⟩,h.queue⟩

/-- Armed first, posted afterwards. -/
theorem Wired.issue_eq (cfg : Config) (hpending : w.device.pending = none) (commandId : List UInt8)
    (c : Motion) :
    w.issue cfg commandId c =
      { w with device := w.device.record (w.device.tracker.arm commandId c.terminalOk
        (BitVec.ofNat 32 w.nowMs + BitVec.ofNat 32 cfg.commandDeadlineMs)) }.post c.command.event := by
  rcases w with ⟨⟨gate,t,verdicts,acks,pending⟩,now,wa,aa,tr⟩
  change pending = none at hpending
  subst hpending
  cases c with
  | «open» => rfl
  | close => rfl

theorem Synced.issue (h : Synced cfg v w) (commandId : List UInt8) (c : Motion) :
    Synced cfg (v.issue cfg commandId c) ((w.issue cfg commandId c).drain cfg) := by
  have harmed : ∀ terminal deadline, Synced cfg (v.record (v.tracker.arm commandId terminal deadline))
      { w with device := w.device.record (w.device.tracker.arm commandId terminal deadline) } := by
    intro terminal deadline
    refine ⟨{ h.toAgree with tracker := ?_, verdicts := ?_ },⟨h.idle,h.stored,h.pending⟩,h.queue⟩
    · change (w.device.tracker.arm commandId terminal deadline).1 = _
      rw [h.tracker]
      rfl
    · change w.device.verdicts ++ _ = v.acks ++ _
      rw [h.tracker, h.verdicts]
  have hdeadline : BitVec.ofNat 32 w.nowMs + BitVec.ofNat 32 cfg.commandDeadlineMs =
      BitVec.ofNat 32 v.nowMs + BitVec.ofNat 32 cfg.commandDeadlineMs := by
    rw [h.nowMs]
  rw [Wired.issue_eq cfg h.pending, hdeadline]
  cases c with
  | «open» => exact (harmed _ _).post .commandOpen rfl
  | close => exact (harmed _ _).post .commandClose rfl

theorem Synced.tick (h : Synced cfg v w) (dtMs : ℕ) : Synced cfg (v.tick dtMs) (w.tick cfg dtMs) := by
  have hstep : w.tick cfg dtMs = { w with
      nowMs := w.nowMs + dtMs
      device := w.device.record (w.device.tracker.onTick (BitVec.ofNat 32 (w.nowMs + dtMs))) } := by
    simp [Wired.tick, Device.step, h.pending]
  rw [hstep, h.nowMs]
  refine ⟨{ h.toAgree with tracker := ?_, verdicts := ?_, nowMs := rfl },
    ⟨h.idle,h.stored,h.pending⟩,h.queue⟩
  · change (w.device.tracker.onTick _).1 = _
    rw [h.tracker]
    rfl
  · change w.device.verdicts ++ _ = v.acks ++ _
    rw [h.tracker, h.verdicts]

/-- The limit that the gate reaches is the one that is reported. -/
theorem Synced.travel (h : Synced cfg v w) {world : VirtualGate} {dtMs : ℕ}
    (hposition : v.positionMs = world.positionMs) (hmotorOpen : v.motorOpen = world.motorOpen)
    (hmotorClose : v.motorClose = world.motorClose) :
    Synced cfg (v.travel cfg dtMs) (w.arrive cfg world dtMs) := by
  have hopen : world.ArrivesOpen cfg dtMs ↔ v.ArrivesOpen cfg dtMs := by
    unfold ArrivesOpen
    rw [hposition, hmotorOpen]
  have hclosed : world.ArrivesClosed dtMs ↔ v.ArrivesClosed dtMs := by
    unfold ArrivesClosed
    rw [hposition, hmotorOpen, hmotorClose]
  unfold VirtualGate.travel Wired.arrive
  simp only [hopen, hclosed]
  by_cases hmotor : v.motorOpen = true
  · have hnot : ¬ v.ArrivesClosed dtMs :=
      fun harrives => absurd (hmotor.symm.trans harrives.1) Bool.noConfusion
    rw [if_pos hmotor, if_neg hnot]
    by_cases harrives : (cfg.travelMs : ℤ) ≤ v.positionMs + dtMs
    · have hhit : v.ArrivesOpen cfg dtMs := ⟨hmotor,harrives⟩
      rw [if_pos harrives, if_pos hhit]
      exact (h.place cfg.travelMs v.beamBlocked).post .limitOpenHit rfl
    · have hshort : ¬ v.ArrivesOpen cfg dtMs := fun hhit => harrives hhit.2
      rw [if_neg harrives, if_neg hshort]
      exact h.place _ v.beamBlocked
  have hnot : ¬ v.ArrivesOpen cfg dtMs := fun harrives => hmotor harrives.1
  rw [if_neg hmotor, if_neg hnot]
  by_cases hback : v.motorClose = true
  · rw [if_pos hback]
    by_cases harrives : v.positionMs - dtMs ≤ 0
    · have hhit : v.ArrivesClosed dtMs :=
        ⟨Bool.eq_false_of_not_eq_true hmotor,hback,harrives⟩
      rw [if_pos harrives, if_pos hhit]
      exact (h.place 0 v.beamBlocked).post .limitClosedHit rfl
    · have hshort : ¬ v.ArrivesClosed dtMs := fun hhit => harrives hhit.2.2
      rw [if_neg harrives, if_neg hshort]
      exact h.place _ v.beamBlocked
  · have hstill : ¬ v.ArrivesClosed dtMs := fun hhit => hback hhit.2.1
    rw [if_neg hback, if_neg hstill]
    exact h

theorem Synced.checkWatchdog (h : Synced cfg v w)
    (hbudget : cfg.motorTimeoutMs = 0 → v.watchdogDeadline = 0) :
    Synced cfg (v.checkWatchdog cfg) (w.checkWatchdog cfg) := by
  have harmed : w.gate.watchdogArmed = true ↔ v.watchdogDeadline ≠ 0 := by
    refine ⟨fun hon => (h.watchdog.mp hon).1,fun hne => h.watchdog.mpr ⟨hne,?_⟩⟩
    exact Nat.pos_of_ne_zero fun hzero => hne (hbudget hzero)
  have hdue : (w.gate.watchdogArmed = true ∧ w.watchdogAt ≤ w.nowMs) ↔
      (v.watchdogDeadline ≠ 0 ∧ v.watchdogDeadline ≤ v.nowMs) := by
    rw [h.nowMs, ← harmed]
    refine and_congr_right fun hon => ?_
    rw [h.watchdogAt hon]
  unfold VirtualGate.checkWatchdog Wired.checkWatchdog
  split
  · rename_i hfires
    rw [if_pos (hdue.mpr hfires), Wired.run_watchdogFires (hdue.mpr hfires).1]
    have hfired : Synced cfg { v with watchdogDeadline := 0 }
        (w.setGate { w.gate with watchdogArmed := false }) :=
      ⟨{ h.toAgree with
          watchdog := ⟨fun hon => (by cases hon),fun hon => absurd rfl hon.1⟩
          watchdogAt := fun hon => (by cases hon) },⟨h.idle,h.stored,h.pending⟩,h.queue⟩
    exact hfired.post .motorTimeout rfl
  · rename_i hwaits
    rw [if_neg (fun hfires => hwaits (hdue.mp hfires))]
    exact h

theorem Synced.checkAutoclose (h : Synced cfg v w) :
    Synced cfg (v.checkAutoclose cfg) (w.checkAutoclose cfg) := by
  have hdue : (w.gate.autocloseArmed = true ∧ w.autocloseAt ≤ w.nowMs) ↔
      (v.autocloseDeadline ≠ 0 ∧ v.autocloseDeadline ≤ v.nowMs) := by
    rw [h.nowMs, ← h.autoclose]
    refine and_congr_right fun hon => ?_
    rw [h.autocloseAt hon]
  unfold VirtualGate.checkAutoclose Wired.checkAutoclose
  split
  · rename_i hfires
    rw [if_pos (hdue.mpr hfires), Wired.run_autocloseFires (hdue.mpr hfires).1]
    have hfired : Synced cfg { v with autocloseDeadline := 0 }
        (w.setGate { w.gate with autocloseArmed := false }) :=
      ⟨{ h.toAgree with
          autoclose := ⟨fun hon => (by cases hon),fun hon => absurd rfl hon⟩
          autocloseAt := fun hon => (by cases hon) },⟨h.idle,h.stored,h.pending⟩,h.queue⟩
    exact hfired.post .commandClose rfl
  · rename_i hwaits
    rw [if_neg (fun hfires => hwaits (hdue.mp hfires))]
    exact h

/-! ### The reset of a fault -/

/-- The position that the virtual gate knows is what the limits show, unless both are hit. -/
theorem initFrom_eq {positionMs : ℤ} (hstroke : ¬ (positionMs ≤ 0 ∧ cfg.travelMs ≤ positionMs))
    (m : Machine) :
    initFrom (decide ((cfg.travelMs : ℤ) ≤ positionMs)) (decide (positionMs ≤ 0)) m =
      initPosition cfg positionMs m := by
  unfold initFrom initPosition
  by_cases hclosed : positionMs ≤ 0
  · have hopen : ¬ (cfg.travelMs : ℤ) ≤ positionMs := fun hopen => hstroke ⟨hclosed,hopen⟩
    simp [hclosed, hopen]
  · simp [hclosed]

/-- The three positions. -/
theorem initPosition_cases (cfg : Config) (positionMs : ℤ) (m : Machine) :
    (initPosition cfg positionMs m = initClosed m ∧ positionMs ≤ 0) ∨
      (initPosition cfg positionMs m = initOpen m ∧ 0 < positionMs ∧ cfg.travelMs ≤ positionMs) ∨
      (initPosition cfg positionMs m = initUnknown m ∧ 0 < positionMs ∧ positionMs < cfg.travelMs) := by
  unfold initPosition
  split
  · rename_i hclosed
    exact .inl ⟨rfl,hclosed⟩
  split
  · rename_i hclosed hopen
    exact .inr (.inl ⟨rfl,not_le.mp hclosed,hopen⟩)
  · rename_i hclosed hopen
    exact .inr (.inr ⟨rfl,not_le.mp hclosed,not_le.mp hopen⟩)

theorem initPosition_produced (cfg : Config) (positionMs : ℤ) (m : Machine) :
    let r := initPosition cfg positionMs m
    r.2.transitioned = true ∧ r.2.newState = r.1.state ∧ r.1.state ≠ .initializing ∧
      r.2.newState ≠ .stoppedClose := by
  rcases initPosition_cases cfg positionMs m with ⟨hr,-⟩ | ⟨hr,-⟩ | ⟨hr,-⟩
  · rw [hr]
    exact ⟨rfl,rfl,State.noConfusion,State.noConfusion⟩
  · rw [hr]
    exact ⟨rfl,rfl,State.noConfusion,State.noConfusion⟩
  · rw [hr]
    exact ⟨rfl,rfl,State.noConfusion,State.noConfusion⟩

/-- The position that is found when a fault is reset decides no command: there is none, or it
waits for the other limit. -/
def SilentReset (cfg : Config) (v : VirtualGate) : Prop :=
  v.machine.state = .faulted → v.tracker.armed = true →
    (v.positionMs ≤ 0 ∧ v.tracker.terminalOk ≠ .closed) ∨
      (0 < v.positionMs ∧ cfg.travelMs ≤ v.positionMs ∧ v.tracker.terminalOk ≠ .open)

instance (cfg : Config) (v : VirtualGate) : Decidable (SilentReset cfg v) :=
  inferInstanceAs (Decidable (_ → _))

/-- Outputs that the tracker does not answer. -/
theorem report_silent (g : VirtualGate) (out : Outputs)
    (h : g.tracker.onGateEvent out.newState out.reason out.transitioned = (g.tracker, none)) :
    g.report out = g := by
  unfold report
  rw [h]
  simp [VirtualGate.record]

theorem absorb_tracker (g : VirtualGate) {out : Outputs} (h : out.transitioned = true) :
    (g.absorb cfg out).tracker = (g.tracker.onGateEvent out.newState out.reason out.transitioned).1 := by
  have hsame : ((out.actions.foldl drive g).setDeadlines cfg out).tracker = g.tracker := by
    rw [setDeadlines, if_pos h, foldl_drive]
  unfold absorb report
  rw [if_pos (.inl h), hsame]
  rfl

theorem handle_faultCleared {m : Machine} (h : m.state ≠ .faulted) :
    handle m .faultCleared = (m,{ newState := m.state }) := by
  simp [handle, latch, Machine.ignore, h]

/-- The reset itself reports nothing that decides a command which waits for a limit. -/
theorem stepLocked_reset (cfg : Config) (hfaulted : v.machine.state = .faulted) :
    let v₁ := v.stepLocked cfg .faultCleared
    v₁.machine.state = .initializing ∧ v₁.positionMs = v.positionMs ∧
      (v₁.tracker.armed = true → v₁.tracker = v.tracker) := by
  have hreset : handle v.machine .faultCleared = _ :=
    Edge.handle_eq (hfaulted ▸ Edge.resetFault)
  have hstep : v.stepLocked cfg .faultCleared =
      absorb cfg { v with machine := (handle v.machine .faultCleared).1 }
        (handle v.machine .faultCleared).2 := by
    refine applyLocked_plain ?_ ?_ 1 _
    · rw [hreset]
      exact fun hr => by cases hr.2.2.1
    · rw [hreset]
      exact not_retries_of_transitioned rfl
  intro v₁
  have htracker : v₁.tracker = (v.tracker.onGateEvent .initializing .none true).1 := by
    change (v.stepLocked cfg .faultCleared).tracker = _
    rw [hstep, hreset]
    exact absorb_tracker _ rfl
  have hrest : v₁.machine.state = .initializing ∧ v₁.positionMs = v.positionMs := by
    change (v.stepLocked cfg .faultCleared).machine.state = _ ∧
      (v.stepLocked cfg .faultCleared).positionMs = _
    rw [hstep, hreset, absorb_transition cfg _ rfl]
    exact ⟨rfl,rfl⟩
  refine ⟨hrest.1,hrest.2,fun harmed => ?_⟩
  rw [htracker] at harmed ⊢
  rcases v.tracker.onGateEvent_cases .initializing .none true with he | ⟨success,error,he⟩
  · rw [he]
  · rw [he] at harmed
    cases harmed

/-- A silent reset leaves the tracker alone when the position is found. -/
theorem SilentReset.onGateEvent (h : SilentReset cfg v) (hfaulted : v.machine.state = .faulted)
    {t : CommandTracker} (ht : t.armed = true → t = v.tracker) (m : Machine) :
    let out := (initPosition cfg v.positionMs m).2
    t.onGateEvent out.newState out.reason out.transitioned = (t, none) := by
  cases harmed : t.armed with
  | false => simp [CommandTracker.onGateEvent, harmed]
  | true =>
    have hsame := ht harmed
    subst hsame
    rcases h hfaulted harmed with ⟨hclosed,hother⟩ | ⟨hlow,hopen,hother⟩
    · have hposition : initPosition cfg v.positionMs m = initClosed m := if_pos hclosed
      rw [hposition]
      change v.tracker.onGateEvent .closed .none true = _
      simp [CommandTracker.onGateEvent, harmed, hother.symm]
    · have hposition : initPosition cfg v.positionMs m = initOpen m := by
        simp [initPosition, not_le.mpr hlow, hopen]
      rw [hposition]
      change v.tracker.onGateEvent .open .none true = _
      simp [CommandTracker.onGateEvent, harmed, hother.symm]

/-- The limit switches of the firmware read the position of the virtual gate. -/
def Senses (cfg : Config) (v : VirtualGate) (w : Wired) : Prop :=
  w.gate.limitOpen.committed = decide ((cfg.travelMs : ℤ) ≤ v.positionMs) ∧
    w.gate.limitClosed.committed = decide (v.positionMs ≤ 0)

/-- Finding the position, when the tracker has nothing to say to it. -/
theorem Agree.resolve (h : Agree cfg v w) (hstored : w.gate.stateSnapshot = w.gate.sm.state)
    (hinit : v.machine.state = .initializing) (hqueue : w.gate.queue = [])
    (hpending : w.device.pending = none) (hsenses : Senses cfg v w)
    (hstroke : ¬ (v.positionMs ≤ 0 ∧ cfg.travelMs ≤ v.positionMs))
    (hsilent : let out := (initPosition cfg v.positionMs v.machine).2
      v.tracker.onGateEvent out.newState out.reason out.transitioned = (v.tracker, none)) :
    Synced cfg (v.resolvePositionLocked cfg) (w.resolved cfg) := by
  have hsm := h.machine
  have hfrom : initFrom w.gate.limitOpen.committed w.gate.limitClosed.committed w.gate.sm =
      initPosition cfg v.positionMs v.machine := by
    rw [hsenses.1, hsenses.2, hsm, initFrom_eq hstroke]
  obtain ⟨htransitioned,hnew,hresolved,hstopped⟩ :=
    initPosition_produced cfg v.positionMs v.machine
  unfold Wired.resolved
  rw [hfrom]
  unfold VirtualGate.resolvePositionLocked
  generalize initPosition cfg v.positionMs v.machine = r at htransitioned hnew hresolved hstopped hsilent ⊢
  dsimp only at htransitioned hnew hresolved hstopped hsilent ⊢
  have hfound : Agree cfg { v with machine := r.1 }
      ((w.received r w.gate.queue).setProgram .pump []) := { h with machine := rfl }
  have hout : Produced ((w.received r w.gate.queue).setProgram .pump []) r.2 := by
    refine ⟨⟨fun _ => ?_,fun _ => htransitioned⟩,hnew⟩
    change w.gate.stateSnapshot ≠ r.1.state
    rw [hstored, hsm, hinit]
    exact hresolved.symm
  have hsteady := Wired.steady_runOps cfg ((w.received r w.gate.queue).setProgram .pump [])
    (execute r.2 ++ manageTimers (wiring cfg).gate r.2)
  obtain ⟨hmanaged,hstored',hqueue'⟩ := hfound.managed hout
  have hplain : applyLocked cfg kApplyDepth { v with machine := r.1 } r.2 =
      (r.2.actions.foldl drive { v with machine := r.1 }).setDeadlines cfg r.2 := by
    have hreverse : ¬ Reverses cfg r.2 := fun hr => hstopped hr.2.2.1
    rw [kApplyDepth, applyLocked_plain hreverse (not_retries_of_transitioned htransitioned)]
    refine report_silent _ _ ?_
    have hsame : ((r.2.actions.foldl drive { v with machine := r.1 }).setDeadlines cfg r.2).tracker =
        v.tracker := by
      rw [setDeadlines, if_pos htransitioned, foldl_drive]
    rw [hsame]
    exact hsilent
  rw [hplain]
  exact ⟨hmanaged,⟨⟨hsteady.stage,hsteady.ops⟩,hstored',hsteady.pending.trans hpending⟩,
    hqueue'.trans hqueue⟩

theorem stepLocked_faultCleared (cfg : Config) (h : v.machine.state ≠ .faulted) :
    v.stepLocked cfg .faultCleared = absorb cfg v { newState := v.machine.state } := by
  unfold VirtualGate.stepLocked
  rw [handle_faultCleared h]
  exact applyLocked_plain (fun hr => by cases hr.2.1) (fun hr => by cases hr.2.2.1) 1 _

/-- The program of the reset itself. -/
theorem Agree.cleared (h : Agree cfg v w) (hstored : w.gate.stateSnapshot = w.gate.sm.state)
    (hfaulted : v.machine.state = .faulted) :
    let w' := w.cleared cfg
    Agree cfg (v.stepLocked cfg .faultCleared) w' ∧ w'.gate.stateSnapshot = w'.gate.sm.state ∧
      w'.gate.queue = [] := by
  have hreset : handle v.machine .faultCleared = _ := Edge.handle_eq (hfaulted ▸ Edge.resetFault)
  have hplain : ¬ Reverses cfg (handle w.gate.sm .faultCleared).2 := by
    rw [h.machine, hreset]
    exact fun hr => by cases hr.2.2.1
  obtain ⟨hreceived,hout⟩ := h.received hstored .faultCleared []
  have hready : Agree cfg _
      ((w.received (handle w.gate.sm .faultCleared) []).setProgram .pumpReadOpen []) :=
    { hreceived with }
  obtain ⟨hstored',-,hprogram⟩ := hready.program ⟨hout.transitioned,hout.newState⟩ rfl
  obtain ⟨hagree,hempty⟩ := hprogram hplain 1
  have hstep : applyLocked cfg (1 + 1) { v with machine := (handle v.machine .faultCleared).1 }
      (handle w.gate.sm .faultCleared).2 = v.stepLocked cfg .faultCleared := by
    rw [h.machine]
    rfl
  rw [hstep] at hagree
  exact ⟨hagree,hstored',hempty⟩

theorem Synced.clearFault (h : Synced cfg v w) (hresolved : v.machine.state ≠ .initializing)
    (hsenses : Senses cfg v w) (hsilent : SilentReset cfg v)
    (hstroke : v.machine.state = .faulted → ¬ (v.positionMs ≤ 0 ∧ cfg.travelMs ≤ v.positionMs)) :
    Synced cfg (v.clearFault cfg) ((w.post .faultCleared).drain cfg) := by
  unfold VirtualGate.clearFault
  dsimp only
  by_cases hfaulted : v.machine.state = .faulted
  · have hsm : w.gate.sm.state = .faulted := by
      rw [h.machine]
      exact hfaulted
    have hposted : (w.post .faultCleared).gate.queue = [.faultCleared] := by
      change offer kQueueDepth w.gate.queue .faultCleared = _
      rw [h.queue]
      rfl
    have hagree : Agree cfg v (w.post .faultCleared) := { h.toAgree with }
    obtain ⟨hcleared,hstored,hempty⟩ := hagree.cleared h.stored hfaulted
    obtain ⟨hinit,hposition,htracker⟩ := stepLocked_reset cfg hfaulted
    have hsteady := Wired.steady_cleared cfg (w.post .faultCleared)
    have hresolve : Synced cfg ((v.stepLocked cfg .faultCleared).resolvePositionLocked cfg)
        (((w.post .faultCleared).cleared cfg).resolved cfg) := by
      refine hcleared.resolve hstored hinit hempty (hsteady.2.2.trans h.pending) ?_ ?_ ?_
      · rw [Senses, hposition, hsteady.1, hsteady.2.1]
        exact hsenses
      · rw [hposition]
        exact hstroke hfaulted
      · rw [hposition]
        exact hsilent.onGateEvent hfaulted htracker _
    have hdrain : (w.post .faultCleared).drain cfg =
        ((w.post .faultCleared).cleared cfg).resolved cfg := by
      unfold Wired.drain
      rw [exec_append, Wired.exec_round_reset (w:=w.post .faultCleared) h.idle hposted hsm,
        Wired.exec_round_empty hresolve.idle hresolve.queue]
    rw [if_pos hinit, hdrain]
    exact hresolve
  · have hstage : stageAfter .faultCleared (handle v.machine .faultCleared).2 = .pump := by
      rw [handle_faultCleared hfaulted]
      rfl
    have hstate : ¬ (v.stepLocked cfg .faultCleared).machine.state = .initializing := by
      rw [stepLocked_faultCleared cfg hfaulted, absorb_quiet cfg _ rfl rfl]
      exact hresolved
    rw [if_neg hstate]
    exact h.post .faultCleared hstage

/-! ### Runs -/

/-- A stroke that takes no time puts both limits at one place; the gate is then never faulted. -/
structure Mirror (cfg : Config) (v : VirtualGate) (w : Wired) : Prop extends
    Synced cfg v w, Driven v where
  strokeless : cfg.travelMs = 0 → Sound cfg v

/-- Without a watchdog budget a moving gate has to arrive within every time step, and the
reset of a fault has to be silent. -/
def Mirrored (cfg : Config) (p : VirtualGate × Wired) : Operation → Prop
  | .clearFault => SilentReset cfg p.1
  | .advance dtMs => cfg.motorTimeoutMs = 0 → p.1.watchdogDeadline ≠ 0 →
      p.1.ArrivesOpen cfg dtMs ∨ p.1.ArrivesClosed dtMs
  | _ => True

instance (cfg : Config) (p : VirtualGate × Wired) : (o : Operation) → Decidable (Mirrored cfg p o)
  | .clearFault => inferInstanceAs (Decidable (SilentReset cfg p.1))
  | .advance _ => inferInstanceAs (Decidable (_ → _))
  | .issue _ _ | .localOpen | .localClose | .operatorStop | .tripBeam | .clearBeam =>
    inferInstanceAs (Decidable True)

theorem VirtualGate.Driven.resolvePosition (cfg : Config) (v : VirtualGate) :
    Driven (v.resolvePositionLocked cfg) := by
  unfold resolvePositionLocked
  rcases initPosition_cases cfg v.positionMs v.machine with ⟨hr,-⟩ | ⟨hr,-⟩ | ⟨hr,-⟩
  all_goals
    rw [hr, kApplyDepth, applyLocked_plain (fun h => by cases h.2.2.1) (not_retries_of_transitioned rfl),
      absorb_transition cfg _ rfl]
    exact ⟨rfl,rfl,State.noConfusion⟩

theorem VirtualGate.Driven.clearFault (h : Driven v) : Driven (v.clearFault cfg) := by
  unfold VirtualGate.clearFault
  dsimp only
  split
  · exact Driven.resolvePosition cfg _
  · rename_i hstate
    have hfaulted : v.machine.state ≠ .faulted :=
      fun hfaulted => hstate (stepLocked_reset cfg hfaulted).1
    rw [stepLocked_faultCleared cfg hfaulted, absorb_quiet cfg _ rfl rfl]
    exact ⟨h.motorOpen,h.motorClose,h.resolved⟩

theorem VirtualGate.Driven.travel (h : Driven v) (dtMs : ℕ) : Driven (v.travel cfg dtMs) := by
  have hplaced : ∀ positionMs, Driven { v with positionMs := positionMs } :=
    fun _ => ⟨h.motorOpen,h.motorClose,h.resolved⟩
  unfold VirtualGate.travel
  split
  · split
    · exact (hplaced _).stepLocked Event.noConfusion
    · exact hplaced _
  split
  · split
    · exact (hplaced _).stepLocked Event.noConfusion
    · exact hplaced _
  · exact h

theorem VirtualGate.Driven.advance (h : Driven v) (dtMs : ℕ) : Driven (v.advance cfg dtMs) := by
  have htick : Driven (v.tick dtMs) := ⟨h.motorOpen,h.motorClose,h.resolved⟩
  have htravel : Driven ((v.tick dtMs).travel cfg dtMs) := htick.travel dtMs
  unfold VirtualGate.advance
  generalize (v.tick dtMs).travel cfg dtMs = g at htravel ⊢
  have hwatchdog : Driven (g.checkWatchdog cfg) := by
    unfold VirtualGate.checkWatchdog
    split
    · exact Driven.stepLocked Event.noConfusion
        ⟨htravel.motorOpen,htravel.motorClose,htravel.resolved⟩
    · exact htravel
  generalize g.checkWatchdog cfg = g' at hwatchdog ⊢
  unfold VirtualGate.checkAutoclose
  split
  · exact Driven.stepLocked Event.noConfusion
      ⟨hwatchdog.motorOpen,hwatchdog.motorClose,hwatchdog.resolved⟩
  · exact hwatchdog

theorem VirtualGate.Driven.perform (h : Driven v) (o : Operation) : Driven (v.perform cfg o) := by
  have hsame : ∀ t acks blocked, Driven { v with tracker := t, acks := acks, beamBlocked := blocked } :=
    fun _ _ _ => ⟨h.motorOpen,h.motorClose,h.resolved⟩
  cases o with
  | issue commandId c =>
    refine Driven.stepLocked ?_ (hsame _ _ _)
    cases c with
    | «open» => exact Event.noConfusion
    | close => exact Event.noConfusion
  | clearFault => exact h.clearFault
  | advance dtMs => exact h.advance dtMs
  | localOpen | localClose | operatorStop => exact h.stepLocked Event.noConfusion
  | tripBeam | clearBeam => exact (hsame v.tracker v.acks _).stepLocked Event.noConfusion

/-- An arrival ends the watch. -/
theorem stepLocked_unwatched {ev : Event} {s : State} {stored reported : Reason}
    {actions : List Action}
    (hedge : Edge v.machine.beamClear v.machine.reason v.machine.state ev s stored reported actions)
    (hs : s ≠ .stoppedClose) (hresting : moving s = false) :
    (v.stepLocked cfg ev).watchdogDeadline = 0 := by
  have hreverse : ¬ Reverses cfg ⟨actions,s,true,reported⟩ := fun hr => hs hr.2.2.1
  unfold VirtualGate.stepLocked
  rw [hedge.handle_eq, kApplyDepth, applyLocked_plain hreverse (not_retries_of_transitioned rfl),
    absorb_transition cfg _ rfl]
  simp [hresting]

/-- A gate that arrives, or that was not watched, is not watched after the motion. -/
theorem VirtualGate.Driven.travel_unwatched (h : Driven v) {dtMs : ℕ}
    (harrives : v.watchdogDeadline ≠ 0 → v.ArrivesOpen cfg dtMs ∨ v.ArrivesClosed dtMs) :
    (v.travel cfg dtMs).watchdogDeadline = 0 := by
  unfold VirtualGate.travel
  split
  · rename_i hmotor
    have hstate : v.machine.state = .opening := by
      simpa [h.motorOpen] using hmotor
    split
    · exact stepLocked_unwatched (v:={ v with positionMs := cfg.travelMs })
        (hstate ▸ Edge.reachOpen) State.noConfusion rfl
    · rename_i hshort
      by_contra hwatched
      rcases harrives hwatched with hopen | hclosed
      · exact hshort hopen.2
      · exact absurd (hmotor.symm.trans hclosed.1) Bool.noConfusion
  rename_i hmotor
  split
  · rename_i hback
    have hstate : v.machine.state = .closing := by
      simpa [h.motorClose] using hback
    split
    · exact stepLocked_unwatched (v:={ v with positionMs := 0 })
        (hstate ▸ Edge.reachClosed) State.noConfusion rfl
    · rename_i hshort
      by_contra hwatched
      rcases harrives hwatched with hopen | hclosed
      · exact hmotor hopen.1
      · exact hshort hclosed.2.2
  · rename_i hstill
    by_contra hwatched
    rcases harrives hwatched with hopen | hclosed
    · exact hmotor hopen.1
    · exact hstill hclosed.2.1

theorem Mirror.perform (h : Mirror cfg v w) (o : Operation) (ho : Mirrored cfg (v, w) o) :
    Synced cfg (v.perform cfg o) (w.perform cfg v o) := by
  have hsensed := h.toSynced.sense v.positionMs
  cases o with
  | issue commandId c => exact hsensed.issue commandId c
  | localOpen =>
    change Synced cfg _ (((w.sense cfg v.positionMs).run cfg (.command .open)).drain cfg)
    rw [Wired.run_command]
    exact hsensed.post .commandOpen rfl
  | localClose =>
    change Synced cfg _ (((w.sense cfg v.positionMs).run cfg (.command .close)).drain cfg)
    rw [Wired.run_command]
    exact hsensed.post .commandClose rfl
  | operatorStop =>
    change Synced cfg _ (((w.sense cfg v.positionMs).run cfg (.command .stop)).drain cfg)
    rw [Wired.run_command]
    exact hsensed.post .commandStop rfl
  | clearFault =>
    change Synced cfg _ (((w.sense cfg v.positionMs).run cfg (.command .clearFault)).drain cfg)
    rw [Wired.run_command]
    refine hsensed.clearFault h.resolved ⟨rfl,rfl⟩ ho ?_
    intro hfaulted hboth
    have hnone : cfg.travelMs = 0 := by omega
    have hbetween := (h.strokeless hnone).faulted hfaulted
    omega
  | tripBeam => exact (hsensed.place v.positionMs true).post .safetyBeamTripped rfl
  | clearBeam => exact (hsensed.place v.positionMs false).post .safetyBeamCleared rfl
  | advance dtMs =>
    have htravelled : Synced cfg ((v.tick dtMs).travel cfg dtMs)
        (((w.sense cfg v.positionMs).tick cfg dtMs).arrive cfg v dtMs) :=
      (hsensed.tick dtMs).travel rfl rfl rfl
    have htick : Driven (v.tick dtMs) := ⟨h.motorOpen,h.motorClose,h.resolved⟩
    exact (htravelled.checkWatchdog fun hbudget => htick.travel_unwatched (ho hbudget)).checkAutoclose

theorem Mirror.step (p : VirtualGate × Wired) (o : Operation) (ho : Mirrored cfg p o)
    (h : Mirror cfg p.1 p.2) : Mirror cfg (lockstep cfg p o).1 (lockstep cfg p o).2 :=
  ⟨h.perform o ho,h.toDriven.perform o,
    fun hnone => (h.strokeless hnone).perform (by omega) o⟩

/-- The controller between `resolve_boot_position` and its operations. -/
def resolvedGate : Controller :=
  { construct true false false with
    sm := ⟨.closed,.none,true⟩
    stage := .registerLimitOpen
    ops := [.setRelayOpen false, .setRelayClose false, .render .off, .storeState, .storeReason,
      .stopWatchdog, .stopAutoclose] }

/-- The controller that has started. -/
def bootedGate : Controller :=
  { resolvedGate with
    stateSnapshot := .closed
    limitOpen := resolvedGate.limitOpen.setCallback
    limitClosed := resolvedGate.limitClosed.setCallback
    beam := resolvedGate.beam.setCallback
    stage := .pump
    ops := [] }

theorem Wired.booted_eq (cfg : Config) :
    Wired.booted cfg = ⟨{ gate := bootedGate },0,0,0,[⟨.closed,false,false⟩]⟩ := by
  -- up to the operations of the boot position, these, the callbacks, and a pump that waits
  have hsplit : boot = (Input.start :: List.replicate 3 Input.advance) ++ (List.replicate 7 Input.advance ++
      (List.replicate 4 Input.advance ++ List.replicate 6 Input.advance)) := rfl
  have hstart : exec (Wired.run cfg) ⟨{ gate := construct true false false },0,0,0,[]⟩
      (Input.start :: List.replicate 3 Input.advance) = ⟨{ gate := resolvedGate },0,0,0,[]⟩ := rfl
  have hresolve : exec (Wired.run cfg) ⟨{ gate := resolvedGate },0,0,0,[]⟩
      (List.replicate 7 Input.advance) =
      ⟨{ gate := { resolvedGate with stateSnapshot := .closed, ops := [] } },0,0,0,
        [⟨.closed,false,false⟩]⟩ :=
    Wired.exec_advance resolvedGate.ops rfl
  have hregister : exec (Wired.run cfg)
      ⟨{ gate := { resolvedGate with stateSnapshot := .closed, ops := [] } },0,0,0,
        [⟨.closed,false,false⟩]⟩ (List.replicate 4 Input.advance) =
      ⟨{ gate := bootedGate },0,0,0,[⟨.closed,false,false⟩]⟩ := rfl
  unfold Wired.booted
  rw [hsplit, exec_append, hstart, exec_append, hresolve, exec_append, hregister]
  exact Wired.exec_idle ⟨rfl,rfl⟩ 6

theorem bootClosed_eq (cfg : Config) : bootClosed cfg {} =
    { machine := ⟨.closed,.none,true⟩, trace := [⟨.closed,false,false⟩] } := by
  unfold VirtualGate.bootClosed
  dsimp only [initClosed, Machine.enter]
  rw [kApplyDepth, applyLocked_plain (fun hr => by cases hr.2.2.1)
    (not_retries_of_transitioned rfl)]
  rfl

/-- Both start on the closed limit. -/
theorem mirror_booted (cfg : Config) : Mirror cfg (bootClosed cfg {}) (Wired.booted cfg) := by
  have hsound : cfg.travelMs = 0 → Sound cfg (bootClosed cfg {}) :=
    fun hnone => sound_bootClosed (by omega) {}
  rw [bootClosed_eq] at hsound ⊢
  rw [Wired.booted_eq]
  refine ⟨⟨⟨rfl,rfl,rfl,rfl,rfl,rfl,rfl,?_,nofun,?_,nofun⟩,⟨⟨rfl,rfl⟩,rfl,rfl⟩,rfl⟩,
    ⟨rfl,rfl,State.noConfusion⟩,hsound⟩
  · exact ⟨nofun,fun hboth => absurd rfl hboth.1⟩
  · exact ⟨nofun,fun hon => absurd rfl hon⟩

/-- As long as no reset of a fault decides a pending command, and no watchdog without a budget
runs out, the virtual gate and the firmware go through the same states with the same relays
and give the same verdicts. -/
theorem virtual_gate_mirrors (cfg : Config) (os : List Operation)
    (hrun : AllSteps (lockstep cfg) (Mirrored cfg) (bootClosed cfg {}, Wired.booted cfg) os) :
    let p := exec (lockstep cfg) (bootClosed cfg {}, Wired.booted cfg) os
    p.2.gate.sm = p.1.machine ∧ p.2.gate.relayOpen.state = p.1.motorOpen ∧
      p.2.gate.relayClose.state = p.1.motorClose ∧ p.2.trace = p.1.trace ∧
      p.2.device.verdicts = p.1.acks := by
  intro p
  have h : Mirror cfg p.1 p.2 :=
    exec_invariant_of (I:=fun p => Mirror cfg p.1 p.2) Mirror.step hrun (mirror_booted cfg)
  exact ⟨h.machine,h.relayOpen,h.relayClose,h.trace,h.verdicts⟩

/-- A stop, a reversal by the beam, an auto-close that is refused, a timeout and its reset. -/
theorem virtual_gate_mirrors_faulted :
    let cfg : Config := { travelMs := 10, motorTimeoutMs := 9, autoCloseMs := 5 }
    let os : List Operation := [.issue [1] .open, .advance 5, .operatorStop, .issue [2] .open,
      .advance 5, .advance 5, .advance 3, .tripBeam, .advance 4, .advance 5, .clearBeam,
      .issue [3] .close, .advance 9, .clearFault]
    let p := exec (lockstep cfg) (bootClosed cfg {}, Wired.booted cfg) os
    p.1.machine.state = .faulted ∧
      p.1.acks = [⟨[1],false,"OperatorStop"⟩,⟨[2],true,""⟩,⟨[3],false,"MotorTimeout"⟩] ∧
      p.2.device.verdicts = p.1.acks := by
  intro cfg os p
  have hmirrors := virtual_gate_mirrors cfg os (by decide +kernel)
  exact ⟨by decide +kernel,by decide +kernel,hmirrors.2.2.2.2⟩

/-- A command that is pending when a fault is reset, and a watchdog without a budget. -/
theorem virtual_gate_deviates :
    (let cfg : Config := { travelMs := 100, motorTimeoutMs := 10 }
      let os : List Operation := [.issue [1] .open, .advance 10, .issue [2] .close, .clearFault]
      let p := exec (lockstep cfg) (bootClosed cfg {}, Wired.booted cfg) os
      p.1.acks = [⟨[1],false,"MotorTimeout"⟩,⟨[2],false,"LimitSwitchConflict"⟩] ∧
        p.2.device.verdicts = [⟨[1],false,"MotorTimeout"⟩]) ∧
    (let cfg : Config := { travelMs := 100, motorTimeoutMs := 0 }
      let os : List Operation := [.advance 1, .localOpen, .advance 1]
      let p := exec (lockstep cfg) (bootClosed cfg {}, Wired.booted cfg) os
      p.1.machine.state = .faulted ∧ p.2.gate.sm.state = .opening) := by
  decide +kernel

end Operations
end AlprGate.Sim
