import AlprGate.Simulation.FirmwareWiring

/-! # The virtual gate and the firmware handle an event

Both run the same machine and the same tracker. What the pump does in a program of elementary
operations, with the reversal as a post of its own, the virtual gate does in one recursive
call: both end with the same machine, relays, tracker and verdicts, transitions and timers.
-/
namespace AlprGate.Sim
open StateMachine Drivers BoundedQueue Control Rpc Transition VirtualGate

/-- A deadline of zero is no timer. A watchdog without a budget is armed in the virtual gate
only. -/
structure Agree (cfg : Config) (v : VirtualGate) (w : Wired) : Prop where
  machine : w.gate.sm = v.machine
  relayOpen : w.gate.relayOpen.state = v.motorOpen
  relayClose : w.gate.relayClose.state = v.motorClose
  tracker : w.device.tracker = v.tracker
  verdicts : w.device.verdicts = v.acks
  nowMs : w.nowMs = v.nowMs
  trace : w.trace = v.trace
  watchdog : w.gate.watchdogArmed = true ↔ v.watchdogDeadline ≠ 0 ∧ 0 < cfg.motorTimeoutMs
  watchdogAt : w.gate.watchdogArmed = true → w.watchdogAt = v.watchdogDeadline
  autoclose : w.gate.autocloseArmed = true ↔ v.autocloseDeadline ≠ 0
  autocloseAt : w.gate.autocloseArmed = true → w.autocloseAt = v.autocloseDeadline

section Program
variable {cfg : Config} {v : VirtualGate} {w : Wired}

/-- Relays, LED and timers: nothing is stored and nothing is posted. -/
def Local (op : Op) : Prop := op ≠ .storeState ∧ ∀ ev, op ≠ .post ev

variable (cfg w) in
theorem runOps_local {l : List Op} (h : ∀ op ∈ l, Local op) :
    (w.runOps cfg l).gate.stateSnapshot = w.gate.stateSnapshot ∧
      (w.runOps cfg l).gate.queue = w.gate.queue := by
  unfold Wired.runOps
  induction l generalizing w with
  | nil => exact ⟨rfl,rfl⟩
  | cons op l ih =>
    obtain ⟨hop,hrest⟩ := List.forall_mem_cons.mp h
    have hone : (w.runOp cfg op).gate.stateSnapshot = w.gate.stateSnapshot ∧
        (w.runOp cfg op).gate.queue = w.gate.queue := by
      cases op with
      | storeState => exact absurd rfl hop.1
      | post ev => exact absurd rfl (hop.2 ev)
      | _ => exact ⟨rfl,rfl⟩
    obtain ⟨hsnapshot,hqueue⟩ := ih (w.runOp cfg op) hrest
    exact ⟨hsnapshot.trans hone.1,hqueue.trans hone.2⟩

theorem local_actions (actions : List Action) : ∀ op ∈ actions.flatMap actionOps, Local op := by
  intro op hop
  obtain ⟨a,-,hmem⟩ := List.mem_flatMap.mp hop
  cases a <;> simp [actionOps] at hmem <;> rcases hmem with rfl | rfl <;>
    exact ⟨Op.noConfusion,fun _ => Op.noConfusion⟩

theorem local_timers (gcfg : Control.Config) (out : Outputs) :
    ∀ op ∈ manageTimers gcfg out, Local op := by
  intro op hop
  have hmem : op = .stopWatchdog ∨ op = .startWatchdog ∨ op = .stopAutoclose ∨
      op = .startAutoclose := by
    unfold manageTimers at hop
    grind
  rcases hmem with rfl | rfl | rfl | rfl <;> exact ⟨Op.noConfusion,fun _ => Op.noConfusion⟩

theorem runOps_append (l l' : List Op) :
    w.runOps cfg (l ++ l') = (w.runOps cfg l).runOps cfg l' := List.foldl_append

theorem runOp_trace {op : Op} (h : op ≠ .storeState) : (w.runOp cfg op).trace = w.trace := by
  simp [Wired.runOp, entered, h]

/-! ### The operations, one by one -/

theorem Agree.setRelayOpen (h : Agree cfg v w) (on : Bool) :
    Agree cfg { v with motorOpen := on } (w.runOp cfg (.setRelayOpen on)) :=
  { h with relayOpen := rfl, trace := (runOp_trace Op.noConfusion).trans h.trace }

theorem Agree.setRelayClose (h : Agree cfg v w) (on : Bool) :
    Agree cfg { v with motorClose := on } (w.runOp cfg (.setRelayClose on)) :=
  { h with relayClose := rfl, trace := (runOp_trace Op.noConfusion).trans h.trace }

theorem Agree.render (h : Agree cfg v w) (p : Pattern) : Agree cfg v (w.runOp cfg (.render p)) :=
  { h with trace := (runOp_trace Op.noConfusion).trans h.trace }

theorem Agree.storeReason (h : Agree cfg v w) : Agree cfg v (w.runOp cfg .storeReason) :=
  { h with trace := (runOp_trace Op.noConfusion).trans h.trace }

theorem Agree.post (h : Agree cfg v w) (ev : Event) : Agree cfg v (w.runOp cfg (.post ev)) :=
  { h with trace := (runOp_trace Op.noConfusion).trans h.trace }

theorem Agree.notify (h : Agree cfg v w) (s : State) (r : Reason) (transitioned : Bool) :
    Agree cfg (v.record (v.tracker.onGateEvent s r transitioned))
      (w.runOp cfg (.notify s r transitioned)) := by
  have hcall : w.device.tracker.onGateEvent s r transitioned =
      v.tracker.onGateEvent s r transitioned := by
    rw [h.tracker]
  refine { h with tracker := ?_, verdicts := ?_, trace := ?_ }
  · exact congrArg Prod.fst hcall
  · change w.device.verdicts ++ (w.device.tracker.onGateEvent s r transitioned).2.toList = _
    rw [hcall, h.verdicts]
    rfl
  · exact (runOp_trace Op.noConfusion).trans h.trace

theorem Agree.stopWatchdog (h : Agree cfg v w) :
    Agree cfg { v with watchdogDeadline := 0 } (w.runOp cfg .stopWatchdog) :=
  { h with
    watchdog := ⟨fun hon => (by cases hon),fun hon => absurd rfl hon.1⟩
    watchdogAt := fun hon => (by cases hon)
    trace := (runOp_trace Op.noConfusion).trans h.trace }

theorem Agree.startWatchdog (h : Agree cfg v w) (hbudget : 0 < cfg.motorTimeoutMs) :
    Agree cfg { v with watchdogDeadline := v.nowMs + cfg.motorTimeoutMs }
      (w.runOp cfg .startWatchdog) := by
  refine { h with trace := ?_, watchdog := ?_, watchdogAt := ?_ }
  · exact (runOp_trace Op.noConfusion).trans h.trace
  · refine ⟨fun _ => ⟨?_,hbudget⟩,fun _ => rfl⟩
    change v.nowMs + cfg.motorTimeoutMs ≠ 0
    omega
  · intro _
    change w.nowMs + cfg.motorTimeoutMs = v.nowMs + cfg.motorTimeoutMs
    rw [h.nowMs]

/-- Without a budget only the virtual gate sets a deadline. -/
theorem Agree.noWatchdog (h : Agree cfg v w) (hoff : w.gate.watchdogArmed = false)
    (hbudget : ¬ 0 < cfg.motorTimeoutMs) (deadline : ℕ) :
    Agree cfg { v with watchdogDeadline := deadline } w :=
  { h with
    watchdog := ⟨fun hon => absurd (hoff.symm.trans hon) Bool.noConfusion,
      fun hboth => absurd hboth.2 hbudget⟩
    watchdogAt := fun hon => absurd (hoff.symm.trans hon) Bool.noConfusion }

theorem Agree.stopAutoclose (h : Agree cfg v w) :
    Agree cfg { v with autocloseDeadline := 0 } (w.runOp cfg .stopAutoclose) :=
  { h with
    autoclose := ⟨fun hon => (by cases hon),fun hon => absurd rfl hon⟩
    autocloseAt := fun hon => (by cases hon)
    trace := (runOp_trace Op.noConfusion).trans h.trace }

theorem Agree.startAutoclose (h : Agree cfg v w) (hperiod : 0 < cfg.autoCloseMs) :
    Agree cfg { v with autocloseDeadline := v.nowMs + cfg.autoCloseMs }
      (w.runOp cfg .startAutoclose) := by
  refine { h with trace := ?_, autoclose := ?_, autocloseAt := ?_ }
  · exact (runOp_trace Op.noConfusion).trans h.trace
  · refine ⟨fun _ => ?_,fun _ => rfl⟩
    change v.nowMs + cfg.autoCloseMs ≠ 0
    omega
  · intro _
    change w.nowMs + cfg.autoCloseMs = v.nowMs + cfg.autoCloseMs
    rw [h.nowMs]

/-- Storing the state makes a transition visible. -/
theorem Agree.storeState (h : Agree cfg v w) {transitioned : Bool}
    (hchange : transitioned = true ↔ w.gate.stateSnapshot ≠ w.gate.sm.state) :
    Agree cfg (if transitioned = true then
        { v with trace := v.trace ++ [⟨v.machine.state,v.motorOpen,v.motorClose⟩] } else v)
      (w.runOp cfg .storeState) := by
  have hstored : (w.runOp cfg .storeState).trace = w.trace ++ entered w.gate .storeState := rfl
  split
  · rename_i hyes
    refine { h with trace := ?_ }
    rw [hstored, entered, if_pos ⟨rfl,hchange.mp hyes⟩, h.trace, h.machine, h.relayOpen,
      h.relayClose]
  · rename_i hno
    refine { h with trace := ?_ }
    rw [hstored, entered, if_neg (fun hboth => hno (hchange.mpr hboth.2)), List.append_nil]
    exact h.trace

/-! ### The program of an event -/

/-- The relays follow the motor, action by action. -/
theorem Agree.actions (h : Agree cfg v w) (actions : List Action) :
    Agree cfg (actions.foldl drive v) (w.runOps cfg (actions.flatMap actionOps)) := by
  induction actions generalizing v w with
  | nil => exact h
  | cons a actions ih =>
    have hone : Agree cfg (v.drive a) (w.runOps cfg (actionOps a)) := by
      cases a with
      | driveMotorOpen => exact (h.setRelayClose false).setRelayOpen true
      | driveMotorClose => exact (h.setRelayOpen false).setRelayClose true
      | stopMotor => exact (h.setRelayOpen false).setRelayClose false
      | setLedClosed | setLedOpening | setLedClosing | setLedOpen | setLedStopped | setLedFault =>
        exact h.render _
      | emitTelemetryStateChanged | none => exact h
    rw [List.flatMap_cons, runOps_append]
    exact ih hone

/-- Both timers are set afresh by a transition. -/
theorem Agree.timers (h : Agree cfg v w) {out : Outputs} (htransitioned : out.transitioned = true) :
    Agree cfg { v with
        watchdogDeadline := if moving out.newState = true then v.nowMs + cfg.motorTimeoutMs else 0
        autocloseDeadline :=
          if out.newState = .open ∧ 0 < cfg.autoCloseMs then v.nowMs + cfg.autoCloseMs else 0 }
      (w.runOps cfg (manageTimers (wiring cfg).gate out)) := by
  have hwatchdog : Agree cfg { v with
        watchdogDeadline := if moving out.newState = true then v.nowMs + cfg.motorTimeoutMs else 0 }
      ((w.runOp cfg .stopWatchdog).runOps cfg
        (if (out.newState = .opening ∨ out.newState = .closing) ∧ 0 < cfg.motorTimeoutMs then
          [.startWatchdog] else [])) := by
    have hstopped := h.stopWatchdog
    by_cases hmoving : out.newState = .opening ∨ out.newState = .closing
    · rw [if_pos (show moving out.newState = true from decide_eq_true hmoving)]
      by_cases hbudget : 0 < cfg.motorTimeoutMs
      · rw [if_pos ⟨hmoving,hbudget⟩]
        exact hstopped.startWatchdog hbudget
      · rw [if_neg (fun hboth => hbudget hboth.2)]
        exact hstopped.noWatchdog rfl hbudget _
    · have hresting : ¬ moving out.newState = true := fun hmoves => hmoving (of_decide_eq_true hmoves)
      rw [if_neg hresting, if_neg (fun hboth => hmoving hboth.1)]
      exact hstopped
  have hrun : w.runOps cfg (manageTimers (wiring cfg).gate out) =
      (((w.runOp cfg .stopWatchdog).runOps cfg
        (if (out.newState = .opening ∨ out.newState = .closing) ∧ 0 < cfg.motorTimeoutMs then
          [.startWatchdog] else [])).runOp cfg .stopAutoclose).runOps cfg
        (if out.newState = .open ∧ 0 < cfg.autoCloseMs then [.startAutoclose] else []) := by
    rw [manageTimers, if_neg (by rw [htransitioned]; exact Bool.noConfusion), runOps_append,
      runOps_append, runOps_append]
    rfl
  rw [hrun]
  by_cases hopen : out.newState = .open ∧ 0 < cfg.autoCloseMs
  · rw [if_pos hopen, if_pos hopen]
    exact hwatchdog.stopAutoclose.startAutoclose hopen.2
  · rw [if_neg hopen, if_neg hopen]
    exact hwatchdog.stopAutoclose

/-- Outputs of the machine in its new state, before the state is stored. -/
structure Produced (w : Wired) (out : Outputs) : Prop where
  transitioned : out.transitioned = true ↔ w.gate.stateSnapshot ≠ w.gate.sm.state
  newState : out.newState = w.gate.sm.state

/-- `execute` and `manage_timers` on one side, the action loop and the deadlines on the other. -/
theorem Agree.managed (h : Agree cfg v w) {out : Outputs} (hout : Produced w out) :
    let w' := w.runOps cfg (execute out ++ manageTimers (wiring cfg).gate out)
    Agree cfg ((out.actions.foldl drive v).setDeadlines cfg out) w' ∧
      w'.gate.stateSnapshot = w'.gate.sm.state ∧ w'.gate.queue = w.gate.queue := by
  intro w'
  have hagree := h.actions out.actions
  have hsm := (Wired.steady_runOps cfg w (out.actions.flatMap actionOps)).sm
  obtain ⟨hsnapshot,hqueue⟩ := runOps_local cfg w (local_actions out.actions)
  generalize hw : w.runOps cfg (out.actions.flatMap actionOps) = w₁ at hagree hsnapshot hsm hqueue
  generalize out.actions.foldl drive v = v₁ at hagree ⊢
  have hchange : out.transitioned = true ↔ w₁.gate.stateSnapshot ≠ w₁.gate.sm.state := by
    rw [hsnapshot, hsm]
    exact hout.transitioned
  have hstored := (hagree.storeState hchange).storeReason
  generalize hw₂ : (w₁.runOp cfg .storeState).runOp cfg .storeReason = w₂ at hstored
  have hrun : w' = w₂.runOps cfg (manageTimers (wiring cfg).gate out) := by
    change w.runOps cfg _ = _
    rw [execute, List.append_assoc, runOps_append, hw, ← hw₂]
    rfl
  have hstore : w₂.gate.stateSnapshot = w₁.gate.sm.state ∧ w₂.gate.sm = w₁.gate.sm ∧
      w₂.gate.queue = w₁.gate.queue := by
    rw [← hw₂]
    exact ⟨rfl,rfl,rfl⟩
  obtain ⟨hsnapshot',hqueue'⟩ :=
    runOps_local cfg w₂ (local_timers (wiring cfg).gate out)
  have hsm' := (Wired.steady_runOps cfg w₂ (manageTimers (wiring cfg).gate out)).sm
  rw [hrun]
  refine ⟨?_,?_,hqueue'.trans (hstore.2.2.trans hqueue)⟩
  · cases htransitioned : out.transitioned with
    | true =>
      have hstate : v₁.machine.state = out.newState := by
        rw [← hagree.machine, hsm, hout.newState]
      rw [if_pos htransitioned, hstate] at hstored
      rw [setDeadlines, if_pos htransitioned]
      exact hstored.timers htransitioned
    | false =>
      have hno : ¬ out.transitioned = true := by
        rw [htransitioned]
        exact Bool.noConfusion
      rw [if_neg hno] at hstored
      rw [setDeadlines, if_neg hno, manageTimers, if_pos htransitioned]
      exact hstored
  · rw [hsnapshot', hsm', hstore.1, hstore.2.1]

theorem applyPolicies_wiring (cfg : Config) (out : Outputs) :
    applyPolicies (wiring cfg).gate out =
      if Reverses cfg out then [.post .commandOpen]
      else if Retries cfg out then [.stopAutoclose, .startAutoclose] else [] := rfl

theorem listener_gate (out : Outputs) : (w.runOps cfg (listener out)).gate = w.gate := by
  unfold listener
  split
  · rfl
  · rfl

theorem Agree.listener (h : Agree cfg v w) (out : Outputs) :
    Agree cfg (v.report out) (w.runOps cfg (listener out)) := by
  unfold Control.listener report
  by_cases hheard : out.transitioned = true ∨ out.reason ≠ .none
  · rw [if_pos hheard, if_pos hheard]
    exact h.notify _ _ _
  · rw [if_neg hheard, if_neg hheard]
    exact h

/-- The tracker does not look at the timers. -/
theorem report_setAutoclose (g : VirtualGate) (out : Outputs) :
    { g with autocloseDeadline := g.nowMs + cfg.autoCloseMs }.report out =
      { g.report out with autocloseDeadline := (g.report out).nowMs + cfg.autoCloseMs } := by
  unfold report
  split
  · rfl
  · rfl

/-- The program of an event does what `apply_locked` does, but that a reversal is posted. -/
theorem Agree.program (h : Agree cfg v w) {out : Outputs} (hout : Produced w out)
    (hqueue : w.gate.queue = []) :
    let w' := w.runOps cfg (pumpProgram (wiring cfg).gate out)
    w'.gate.stateSnapshot = w'.gate.sm.state ∧
    (Reverses cfg out → Agree cfg (v.absorb cfg out) w' ∧ w'.gate.queue = [.commandOpen]) ∧
    (¬ Reverses cfg out → ∀ depth,
      Agree cfg (applyLocked cfg (depth + 1) v out) w' ∧ w'.gate.queue = []) := by
  intro w'
  obtain ⟨hmanaged,hstored,hempty⟩ := h.managed hout
  rw [hqueue] at hempty
  generalize hw : w.runOps cfg (execute out ++ manageTimers (wiring cfg).gate out) = w₁
    at hmanaged hstored hempty
  have hrun : w' = (w₁.runOps cfg (applyPolicies (wiring cfg).gate out)).runOps cfg
      (Control.listener out) := by
    change w.runOps cfg _ = _
    rw [pumpProgram, runOps_append, runOps_append, hw]
  rw [hrun, applyPolicies_wiring, listener_gate]
  by_cases hreverse : Reverses cfg out
  · rw [if_pos hreverse]
    refine ⟨hstored,fun _ => ⟨?_,?_⟩,fun hno => absurd hreverse hno⟩
    · exact (hmanaged.post .commandOpen).listener out
    · change offer kQueueDepth w₁.gate.queue .commandOpen = _
      rw [hempty]
      rfl
  · rw [if_neg hreverse]
    by_cases hretry : Retries cfg out
    · rw [if_pos hretry]
      refine ⟨hstored,fun hyes => absurd hyes hreverse,fun _ depth => ⟨?_,hempty⟩⟩
      rw [applyLocked_retry hretry]
      rw [absorb, ← report_setAutoclose]
      exact (hmanaged.stopAutoclose.startAutoclose hretry.2.2.2).listener out
    · rw [if_neg hretry]
      refine ⟨hstored,fun hyes => absurd hyes hreverse,fun _ depth => ⟨?_,hempty⟩⟩
      rw [applyLocked_plain hreverse hretry]
      exact hmanaged.listener out

/-! ### Events -/

/-- The outputs name the state that the machine is in, and a transition is a change of it. -/
theorem handle_produced (m : Machine) (ev : Event) :
    (handle m ev).2.newState = (handle m ev).1.state ∧
      ((handle m ev).2.transitioned = true ↔ m.state ≠ (handle m ev).1.state) := by
  rcases handle_cases m ev with ⟨s,stored,reported,actions,hedge,hm⟩ | ⟨hrefused,hm⟩ | ⟨-,-,hm⟩
  · rw [hm]
    refine ⟨rfl,fun _ => ?_,fun _ => rfl⟩
    generalize m.state = old at hedge
    dsimp only
    rintro rfl
    cases hedge <;> simp_all
  · rw [hm]
    exact ⟨hrefused.1.symm,Bool.noConfusion,fun hne => absurd rfl hne⟩
  · rw [hm]
    exact ⟨rfl,Bool.noConfusion,fun hne => absurd rfl hne⟩

/-- The machine handles an event on both sides. -/
theorem Agree.received (h : Agree cfg v w) (hstored : w.gate.stateSnapshot = w.gate.sm.state)
    (ev : Event) (rest : List Event) :
    Agree cfg { v with machine := (handle v.machine ev).1 }
      (w.received (handle w.gate.sm ev) rest) ∧
    Produced (w.received (handle w.gate.sm ev) rest) (handle w.gate.sm ev).2 := by
  obtain ⟨hnew,hchange⟩ := handle_produced w.gate.sm ev
  refine ⟨{ h with machine := ?_ },?_,hnew⟩
  · change (handle w.gate.sm ev).1 = _
    rw [h.machine]
  · change _ ↔ w.gate.stateSnapshot ≠ _
    rw [hstored]
    exact hchange

/-- The pump waits, and everybody sees the state that the machine is in. -/
structure Resting (w : Wired) : Prop where
  idle : w.gate.Idle
  stored : w.gate.stateSnapshot = w.gate.sm.state
  pending : w.device.pending = none

/-- One event and a round of the pump. -/
theorem Agree.round (h : Agree cfg v w) (hrest : Resting w) {ev : Event}
    (hqueue : w.gate.queue = [ev]) (hstage : stageAfter ev (handle v.machine ev).2 = .pump) :
    let w' := exec (Wired.run cfg) w Wired.round
    let v' := { v with machine := (handle v.machine ev).1 }
    let out := (handle v.machine ev).2
    Resting w' ∧
    (Reverses cfg out → Agree cfg (v'.absorb cfg out) w' ∧ w'.gate.queue = [.commandOpen]) ∧
    (¬ Reverses cfg out → ∀ depth,
      Agree cfg (applyLocked cfg (depth + 1) v' out) w' ∧ w'.gate.queue = []) := by
  intro w' v' out
  obtain ⟨hreceived,hout⟩ := h.received hrest.stored ev []
  have hsm := h.machine
  rw [← hsm] at hstage
  have hrun : w' = _ := Wired.exec_round hrest.idle hqueue hstage
  have hsteady := Wired.steady_runOps cfg (w.received (handle w.gate.sm ev) [])
    (pumpProgram (wiring cfg).gate (handle w.gate.sm ev).2)
  obtain ⟨hstored,hcases⟩ := hreceived.program hout rfl
  rw [← hrun] at hsteady hstored hcases
  rw [hsm] at hcases
  exact ⟨⟨⟨hsteady.stage.trans hrest.idle.1,hsteady.ops.trans hrest.idle.2⟩,hstored,
    hsteady.pending.trans hrest.pending⟩,hcases⟩

/-- One event in the queue, and a schedule of the pump that drains it. -/
theorem Agree.drain (h : Agree cfg v w) (hrest : Resting w) {ev : Event}
    (hqueue : w.gate.queue = [ev]) (hstage : stageAfter ev (handle v.machine ev).2 = .pump) :
    Agree cfg (v.stepLocked cfg ev) (w.drain cfg) ∧ Resting (w.drain cfg) ∧
      (w.drain cfg).gate.queue = [] := by
  obtain ⟨hrest',hreverses,hplain⟩ := h.round hrest hqueue hstage
  have hdrain : w.drain cfg = exec (Wired.run cfg) (exec (Wired.run cfg) w Wired.round) Wired.round :=
    exec_append _ _ _ _
  rw [hdrain]
  generalize exec (Wired.run cfg) w Wired.round = w₁ at hrest' hreverses hplain ⊢
  by_cases hreverse : Reverses cfg (handle v.machine ev).2
  · -- the reversal is an event of its own
    obtain ⟨habsorbed,hposted⟩ := hreverses hreverse
    obtain ⟨hrest'',-,hopened⟩ := habsorbed.round hrest' hposted rfl
    obtain ⟨hagree,hempty⟩ := hopened (commandOpen_plain cfg _).1 0
    refine ⟨?_,hrest'',hempty⟩
    rw [stepLocked, kApplyDepth, applyLocked, if_pos hreverse]
    exact hagree
  · obtain ⟨hagree,hempty⟩ := hplain hreverse 1
    rw [Wired.exec_round_empty hrest'.idle hempty]
    exact ⟨hagree,hrest',hempty⟩

end Program

end AlprGate.Sim
