import AlprGate.Firmware.ControllerInvariant

/-! # The watchdog and the dwell timer

`manage_timers` re-decides both one-shots on every transition and on nothing else,
except that a close refused by the beam latch restarts the dwell. A one-shot that
is not armed when it is needed has therefore fired, and its event is in the queue.
-/
namespace AlprGate.Control
open StateMachine Drivers BoundedQueue PendingWrites Transition

theorem settled_watchdog_manageTimers (cfg : Config) (out : Outputs) (b : Bool) :
    settled writesWatchdog (manageTimers cfg out) b =
      if out.transitioned = true then
        decide (State.moving out.newState = true ∧ 0 < cfg.sm.motorTimeoutMs) else b := by
  unfold manageTimers
  cases ht : out.transitioned with
  | false => rfl
  | true =>
    cases hn : out.newState <;> by_cases h : 0 < cfg.sm.motorTimeoutMs <;>
      by_cases h' : 0 < cfg.sm.autoCloseMs <;> simp [h, h', writesWatchdog, State.moving]

theorem settled_autoclose_manageTimers (cfg : Config) (out : Outputs) (b : Bool) :
    settled writesAutoclose (manageTimers cfg out) b =
      if out.transitioned = true then
        decide (out.newState = .open ∧ 0 < cfg.sm.autoCloseMs) else b := by
  unfold manageTimers
  cases ht : out.transitioned with
  | false => rfl
  | true =>
    cases hn : out.newState <;> by_cases h : 0 < cfg.sm.motorTimeoutMs <;>
      by_cases h' : 0 < cfg.sm.autoCloseMs <;> simp [h, h', writesAutoclose]

theorem writesWatchdog_listener {out : Outputs} {op : Op} (h : op ∈ listener out) :
    writesWatchdog op = none ∧ writesAutoclose op = none := by
  unfold listener at h
  split at h
  · rw [List.mem_singleton.mp h]
    exact ⟨rfl,rfl⟩
  · cases h

theorem settled_watchdog_program (cfg : Config) (out : Outputs) (b : Bool) :
    settled writesWatchdog (pumpProgram cfg out) b =
      if out.transitioned = true then
        decide (State.moving out.newState = true ∧ 0 < cfg.sm.motorTimeoutMs) else b := by
  have hpolicy : ∀ b, settled writesWatchdog (applyPolicies cfg out) b = b := by
    intro b
    unfold applyPolicies
    split
    · rfl
    · split <;> rfl
  rw [pumpProgram, settled_append, settled_append, settled_append,
    settled_of_none fun op hop => (writesWatchdog_listener hop).1, hpolicy,
    settled_watchdog_manageTimers,
    settled_of_none fun op hop => writesWatchdog_early (early_of_mem_execute hop)]

/-- A close refused by the beam latch re-arms the dwell. -/
theorem settled_autoclose_program (cfg : Config) (out : Outputs) (b : Bool) :
    settled writesAutoclose (pumpProgram cfg out) b =
      if out.transitioned = true then decide (out.newState = .open ∧ 0 < cfg.sm.autoCloseMs)
      else if out.newState = .open ∧ out.reason = .safetyBeamObstacle ∧ 0 < cfg.sm.autoCloseMs
      then true else b := by
  have hpolicy : ∀ b, settled writesAutoclose (applyPolicies cfg out) b =
      if out.transitioned = false ∧ out.newState = .open ∧ out.reason = .safetyBeamObstacle ∧
        0 < cfg.sm.autoCloseMs then true else b := by
    intro b
    unfold applyPolicies
    split
    · rename_i h
      simp [h.2.1, writesAutoclose]
    · split
      · rfl
      · rfl
  rw [pumpProgram, settled_append, settled_append, settled_append,
    settled_of_none fun op hop => (writesWatchdog_listener hop).2, hpolicy,
    settled_autoclose_manageTimers,
    settled_of_none fun op hop => writesAutoclose_early (early_of_mem_execute hop)]
  cases out.transitioned <;> simp

/-- A machine that moves after an event either has a freshly armed watchdog or was
moving before and lost no timeout. -/
theorem handle_watchdog {cfg : Config} (hcfg : 0 < cfg.sm.motorTimeoutMs) {m : Machine} {ev : Event}
    (h : State.moving (handle m ev).1.state = true) (b : Bool) :
    settled writesWatchdog (pumpProgram cfg (handle m ev).2) b = true ∨
      (State.moving m.state = true ∧ ev ≠ .motorTimeout ∧
        settled writesWatchdog (pumpProgram cfg (handle m ev).2) b = b) := by
  rcases handle_cases m ev with ⟨s,stored,reported,actions,-,hm⟩ | ⟨⟨hopen,-,-⟩,hm⟩ | ⟨hno,-,hm⟩
  · rw [hm] at h ⊢
    left
    rw [settled_watchdog_program]
    simpa [hcfg] using h
  · rw [hm, hopen] at h
    cases h
  · right
    rw [hm] at h ⊢
    refine ⟨h,?_,by rw [settled_watchdog_program]; rfl⟩
    rintro rfl
    refine hno _ _ _ _ (.timeout ?_)
    revert h
    cases m.state <;> simp [State.moving]

theorem handle_autoclose {cfg : Config} (hcfg : 0 < cfg.sm.autoCloseMs) {m : Machine} {ev : Event}
    (h : (handle m ev).1.state = .open) (b : Bool) :
    settled writesAutoclose (pumpProgram cfg (handle m ev).2) b = true ∨
      (m.state = .open ∧ ev ≠ .commandClose ∧
        settled writesAutoclose (pumpProgram cfg (handle m ev).2) b = b) := by
  rcases handle_cases m ev with ⟨s,stored,reported,actions,-,hm⟩ | ⟨-,hm⟩ | ⟨hno,href,hm⟩
  · rw [hm] at h ⊢
    left
    rw [settled_autoclose_program]
    simpa [hcfg] using h
  · rw [hm]
    left
    rw [settled_autoclose_program]
    simp [hcfg]
  · right
    rw [hm] at h ⊢
    refine ⟨h,?_,by rw [settled_autoclose_program]; simp⟩
    rintro rfl
    cases hclear : m.beamClear with
    | false => exact href ⟨h,rfl,hclear⟩
    | true =>
      have h : m.state = .open := h
      rw [h] at hno
      exact hno _ _ _ _ (.closeFromOpen hclear)

structure TimersArmed (cfg : Config) (s : Controller) : Prop where
  watchdog : 0 < cfg.sm.motorTimeoutMs → State.moving s.sm.state = true →
    settled writesWatchdog s.ops s.watchdogArmed = true ∨ .motorTimeout ∈ s.queue
  autoclose : 0 < cfg.sm.autoCloseMs → s.sm.state = .open →
    settled writesAutoclose s.ops s.autocloseArmed = true ∨ .commandClose ∈ s.queue

theorem construct_timersArmed (cfg : Config) (lo lc bm : Bool) :
    TimersArmed cfg (construct lo lc bm) :=
  ⟨fun _ h => (by cases h),fun _ h => (by cases h)⟩

theorem initFrom_autoclose {cfg : Config} (hcfg : 0 < cfg.sm.autoCloseMs)
    {openActive closedActive : Bool} {m : Machine}
    (h : (initFrom openActive closedActive m).1.state = .open) (b : Bool) :
    settled writesAutoclose (manageTimers cfg (initFrom openActive closedActive m).2) b = true := by
  rw [settled_autoclose_manageTimers]
  rcases initFrom_cases openActive closedActive m with ⟨-,-,hi⟩ | ⟨-,-,hi⟩ | ⟨-,hi⟩
  · rw [hi] at h
    cases h
  · rw [hi]
    simp [hcfg]
  · rw [hi] at h
    cases h

theorem Move.timersArmed {cfg : Config} {s t : Controller} {a : Input} (hmove : Move cfg s a t)
    (hdrop : NoDrop s a) (hco : Coherent s) (hs : TimersArmed cfg s) : TimersArmed cfg t := by
  cases hmove with
  | quiet h =>
    refine ⟨fun hcfg hmov => ?_,fun hcfg hopen => ?_⟩
    · rw [h.queue]
      rcases h.watchdog with hw | ⟨rfl,harmed,-⟩
      · rw [h.ops, hw]
        exact (hs.watchdog hcfg (h.sm ▸ hmov)).imp id fun hq => subset_offers _ _ _ hq
      · exact Or.inr (hdrop.mem (posted_watchdogFires harmed))
    · rw [h.queue]
      rcases h.autoclose with hw | ⟨rfl,harmed,-⟩
      · rw [h.ops, hw]
        exact (hs.autoclose hcfg (h.sm ▸ hopen)).imp id fun hq => subset_offers _ _ _ hq
      · exact Or.inr (hdrop.mem (posted_autocloseFires harmed))
  | op hops =>
    refine ⟨fun hcfg hmov => ?_,fun hcfg hopen => ?_⟩
    · have h := hs.watchdog hcfg (by simpa using hmov)
      rw [hops] at h
      simp only [runOp_ops, runOp_watchdogArmed, runOp_queue]
      exact h.imp id fun hq => subset_offers _ _ _ hq
    · have h := hs.autoclose hcfg (by simpa using hopen)
      rw [hops] at h
      simp only [runOp_ops, runOp_autocloseArmed, runOp_queue]
      exact h.imp id fun hq => subset_offers _ _ _ hq
  | prelatch hops hstage hb =>
    have hi := hco.unresolved (by rw [hstage]; rfl)
    rw [handle_tripped_initializing hi]
    exact ⟨fun _ h => (by rw [hi] at h; cases h),fun _ h => (by rw [hi] at h; cases h)⟩
  | resolve hops hnext hstage =>
    refine ⟨fun _ hmov => ?_,fun hcfg hopen => Or.inl ?_⟩
    · rw [Controller.resolveBootPosition, initFrom_not_moving] at hmov
      cases hmov
    · simp only [Controller.resolveBootPosition] at hopen ⊢
      rw [settled_append]
      exact initFrom_autoclose hcfg hopen _
  | @receive ev rest hstage hops hqueue =>
    refine ⟨fun hcfg hmov => ?_,fun hcfg hopen => ?_⟩
    · rcases handle_watchdog hcfg hmov s.watchdogArmed with h | ⟨hm,hev,h⟩
      · exact Or.inl h
      · rw [h]
        refine (hs.watchdog hcfg hm).imp (fun ha => by simpa [hops] using ha) fun hq => ?_
        rw [hqueue, List.mem_cons] at hq
        exact hq.resolve_left fun he => hev he.symm
    · rcases handle_autoclose hcfg hopen s.autocloseArmed with h | ⟨hm,hev,h⟩
      · exact Or.inl h
      · rw [h]
        refine (hs.autoclose hcfg hm).imp (fun ha => by simpa [hops] using ha) fun hq => ?_
        rw [hqueue, List.mem_cons] at hq
        exact hq.resolve_left fun he => hev he.symm

theorem run_timersArmed (cfg : Config) (lo lc bm : Bool) {as : List Input}
    (h : AllSteps (step cfg) NoDrop (construct lo lc bm) as) :
    TimersArmed cfg (exec (step cfg) (construct lo lc bm) as) := by
  refine (exec_invariant_of (I:=fun s => Coherent s ∧ TimersArmed cfg s) ?_ h
    ⟨construct_coherent lo lc bm,construct_timersArmed cfg lo lc bm⟩).2
  intro s a hdrop hs
  exact ⟨(step_move cfg s a).coherent hs.1,(step_move cfg s a).timersArmed hdrop hs.1 hs.2⟩

/-- The contactors are never on together, not even between two relay writes. Whenever
no operation is pending, each contactor is on exactly in its direction of travel, a
reason is stored and published exactly in the halted states, and both snapshots show
the machine. As long as no post was dropped, a moving gate has a watchdog or a timeout
under way, and an open gate with a dwell has its timer or a close under way. -/
theorem relays_reason_and_timers (cfg : Config) (lo lc bm : Bool) (as : List Input) :
    let s := exec (step cfg) (construct lo lc bm) as
    ¬ (s.relayOpen.state = true ∧ s.relayClose.state = true) ∧
    (s.ops = [] →
      (s.relayOpen.state = true ↔ s.sm.state = .opening) ∧
      (s.relayClose.state = true ↔ s.sm.state = .closing) ∧
      (s.sm.reason = .none ↔ s.sm.state ≠ .stoppedOpen ∧ s.sm.state ≠ .stoppedClose ∧
        s.sm.state ≠ .faulted) ∧
      s.stateSnapshot = s.sm.state ∧ s.reasonSnapshot = s.sm.reason) ∧
    (AllSteps (step cfg) NoDrop (construct lo lc bm) as → s.ops = [] →
      (0 < cfg.sm.motorTimeoutMs → s.sm.state = .opening ∨ s.sm.state = .closing →
        s.watchdogArmed = true ∨ .motorTimeout ∈ s.queue) ∧
      (0 < cfg.sm.autoCloseMs → s.sm.state = .open →
        s.autocloseArmed = true ∨ .commandClose ∈ s.queue)) := by
  intro s
  have hs : Coherent s := (run_sound cfg lo lc bm as).coherent
  refine ⟨hs.neverBoth.now,fun hops => ?_,fun hdrop hops => ?_⟩
  · rcases hs with ⟨ho,hc,-,hr,hst,hrs,-⟩
    rw [hops] at ho hc hst hrs
    refine ⟨by simpa using congrArg (· = true) ho,by simpa using congrArg (· = true) hc,?_,hst,hrs⟩
    refine Iff.trans hr ?_
    cases s.sm.state <;> simp [State.halted]
  · have ht : TimersArmed cfg s := run_timersArmed cfg lo lc bm hdrop
    refine ⟨fun hcfg hmov => ?_,fun hcfg hopen => ?_⟩
    · have hmov : State.moving s.sm.state = true := by rcases hmov with h | h <;> rw [h] <;> rfl
      exact (ht.watchdog hcfg hmov).imp (fun h => by simpa [hops] using h) id
    · exact (ht.autoclose hcfg hopen).imp (fun h => by simpa [hops] using h) id

theorem watchdog_runs_after_open_command :
    let s := exec (step {}) (construct true false false) (boot ++ .command .open :: pumpOnce)
    s.sm.state = .opening ∧ (s.watchdogArmed = true ∨ .motorTimeout ∈ s.queue) :=
  ⟨by decide,
    ((relays_reason_and_timers {} true false false (boot ++ .command .open :: pumpOnce)).2.2
      (by decide) (by decide)).1 (by decide) (by decide)⟩

end AlprGate.Control
