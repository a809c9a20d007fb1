import AlprGate.Simulation.VirtualGate

/-! # Travel and time in the virtual gate

The distance that is left and the time that the watchdog leaves shrink together while the
gate moves. A watchdog budget of at least one full stroke is therefore never used up: the
gate arrives first, and the deadline is looked at only afterwards.
-/
namespace AlprGate.Sim.VirtualGate
open StateMachine Rpc Transition

/-- Position, motor and machine agree; a machine is faulted because a gate half-way has no
position, and never because of a timeout. -/
structure Placed (cfg : Config) (g : VirtualGate) : Prop where
  low : 0 ≤ g.positionMs
  high : g.positionMs ≤ cfg.travelMs
  closed : g.machine.state = .closed → g.positionMs = 0
  «open» : g.machine.state = .open → g.positionMs = cfg.travelMs
  faulted : g.machine.state = .faulted → 0 < g.positionMs ∧ g.positionMs < cfg.travelMs
  motorOpen : g.motorOpen = decide (g.machine.state = .opening)
  motorClose : g.motorClose = decide (g.machine.state = .closing)
  reason : g.machine.reason ≠ .motorTimeout

/-- The watchdog leaves time for the rest of the way. -/
structure Watched (cfg : Config) (g : VirtualGate) : Prop where
  opening : g.machine.state = .opening →
    g.nowMs + (cfg.travelMs - g.positionMs) ≤ g.watchdogDeadline
  closing : g.machine.state = .closing → g.nowMs + g.positionMs ≤ g.watchdogDeadline
  resting : moving g.machine.state = false → g.watchdogDeadline = 0

structure Sound (cfg : Config) (g : VirtualGate) : Prop extends Placed cfg g, Watched cfg g

/-- A moving gate may be anywhere between its limits. -/
theorem placed_of_moving {cfg : Config} {g : VirtualGate} (h : moving g.machine.state = true)
    (hlow : 0 ≤ g.positionMs) (hhigh : g.positionMs ≤ cfg.travelMs)
    (hmotorOpen : g.motorOpen = decide (g.machine.state = .opening))
    (hmotorClose : g.motorClose = decide (g.machine.state = .closing))
    (hreason : g.machine.reason ≠ .motorTimeout) : Placed cfg g := by
  have hnot : ∀ s, moving s = false → g.machine.state ≠ s := by
    rintro s hrest rfl
    exact absurd (h.symm.trans hrest) Bool.noConfusion
  exact ⟨hlow,hhigh,fun hs => absurd hs (hnot _ rfl),fun hs => absurd hs (hnot _ rfl),
    fun hs => absurd hs (hnot _ rfl),hmotorOpen,hmotorClose,hreason⟩

/-- The actions only switch the motor. -/
theorem foldl_drive (actions : List Action) (g : VirtualGate) : actions.foldl drive g =
    { g with
      motorOpen := (actions.foldl drive g).motorOpen
      motorClose := (actions.foldl drive g).motorClose } := by
  induction actions generalizing g with
  | nil => rfl
  | cons a actions ih =>
    rw [List.foldl_cons, ih (g.drive a)]
    cases a <;> rfl

/-- A transition sets both deadlines afresh. -/
theorem absorb_transition (cfg : Config) (g : VirtualGate) {out : Outputs}
    (h : out.transitioned = true) :
    g.absorb cfg out = { g with
      motorOpen := (out.actions.foldl drive g).motorOpen
      motorClose := (out.actions.foldl drive g).motorClose
      watchdogDeadline := if moving out.newState = true then g.nowMs + cfg.motorTimeoutMs else 0
      autocloseDeadline := (g.absorb cfg out).autocloseDeadline
      trace := (g.absorb cfg out).trace
      tracker := (g.absorb cfg out).tracker
      acks := (g.absorb cfg out).acks } := by
  rw [absorb_eq, setDeadlines, if_pos h, foldl_drive]

/-- Without a transition the motor and the deadlines stay. -/
theorem absorb_quiet (cfg : Config) (g : VirtualGate) {out : Outputs}
    (h : out.transitioned = false) (hmotor : out.actions.foldl drive g = g) :
    g.absorb cfg out = { g with
      tracker := (g.absorb cfg out).tracker
      acks := (g.absorb cfg out).acks } := by
  have hsame : g.setDeadlines cfg out = g := by
    simp [setDeadlines, h]
  rw [absorb_eq, hmotor, hsame]

section Step
variable {cfg : Config} {g : VirtualGate}

/-- A transition to a state that fits the position, with the motor switched accordingly. -/
theorem sound_absorb (hcfg : cfg.travelMs ≤ cfg.motorTimeoutMs) {out : Outputs}
    (htransitioned : out.transitioned = true) (hstate : g.machine.state = out.newState)
    (hreason : g.machine.reason ≠ .motorTimeout) (hlow : 0 ≤ g.positionMs)
    (hhigh : g.positionMs ≤ cfg.travelMs) (hclosed : out.newState = .closed → g.positionMs = 0)
    (hopen : out.newState = .open → g.positionMs = cfg.travelMs)
    (hfaulted : out.newState = .faulted → 0 < g.positionMs ∧ g.positionMs < cfg.travelMs)
    (hmotorOpen : (out.actions.foldl drive g).motorOpen = decide (out.newState = .opening))
    (hmotorClose : (out.actions.foldl drive g).motorClose = decide (out.newState = .closing)) :
    Sound cfg (g.absorb cfg out) := by
  rw [absorb_transition cfg g htransitioned]
  refine ⟨⟨hlow,hhigh,?_,?_,?_,?_,?_,hreason⟩,⟨?_,?_,?_⟩⟩
  · intro h
    exact hclosed (hstate.symm.trans h)
  · intro h
    exact hopen (hstate.symm.trans h)
  · intro h
    exact hfaulted (hstate.symm.trans h)
  · dsimp only
    rw [hstate]
    exact hmotorOpen
  · dsimp only
    rw [hstate]
    exact hmotorClose
  · intro h
    have hmoves : moving out.newState = true := by
      simp [moving, ← hstate.symm.trans h]
    simp only [hmoves, ↓reduceIte]
    omega
  · intro h
    have hmoves : moving out.newState = true := by
      simp [moving, ← hstate.symm.trans h]
    simp only [hmoves, ↓reduceIte]
    omega
  · intro h
    dsimp only at h ⊢
    rw [hstate] at h
    simp [h]

/-- The motor after an edge of the table is the one of the new state. -/
theorem edge_motor {clear : Bool} {r : Reason} {old s : State} {ev : Event}
    {stored reported : Reason} {actions : List Action}
    (h : Edge clear r old ev s stored reported actions)
    (hmotorOpen : g.motorOpen = decide (old = .opening))
    (hmotorClose : g.motorClose = decide (old = .closing)) :
    (actions.foldl drive g).motorOpen = decide (s = .opening) ∧
      (actions.foldl drive g).motorClose = decide (s = .closing) := by
  cases h with
  | resetFault => exact ⟨hmotorOpen,hmotorClose⟩
  | _ => exact ⟨rfl,rfl⟩

/-- Only a timeout stores the reason `motorTimeout`. -/
theorem edge_reason {clear : Bool} {r : Reason} {old s : State} {ev : Event}
    {stored reported : Reason} {actions : List Action}
    (h : Edge clear r old ev s stored reported actions) (hr : r ≠ .motorTimeout)
    (hev : ev ≠ .motorTimeout) : stored ≠ .motorTimeout := by
  cases h with
  | timeout => exact absurd rfl hev
  | openFromClosed | reachOpen | closeFromOpen | reachClosed => exact hr
  | _ => exact Reason.noConfusion

/-- Only a limit switch brings the machine to a limit, and only a timeout into a fault. -/
theorem edge_limit {clear : Bool} {r : Reason} {old s : State} {ev : Event}
    {stored reported : Reason} {actions : List Action}
    (h : Edge clear r old ev s stored reported actions) :
    (s = .closed → ev = .limitClosedHit) ∧ (s = .open → ev = .limitOpenHit) ∧
      (s = .faulted → ev = .motorTimeout) := by
  cases h <;> exact ⟨fun hs => by cases hs <;> rfl,fun hs => by cases hs <;> rfl,
    fun hs => by cases hs <;> rfl⟩

/-- An event that the position allows and that is no timeout. -/
structure Allowed (cfg : Config) (g : VirtualGate) (ev : Event) : Prop where
  limitOpen : ev = .limitOpenHit → g.positionMs = cfg.travelMs
  limitClosed : ev = .limitClosedHit → g.positionMs = 0
  timeout : ev ≠ .motorTimeout

/-- Commands, stops, resets and the beam are allowed anywhere. -/
theorem allowed_of_ne {ev : Event} (hopen : ev ≠ .limitOpenHit) (hclosed : ev ≠ .limitClosedHit)
    (htimeout : ev ≠ .motorTimeout) : Allowed cfg g ev :=
  ⟨fun h => absurd h hopen,fun h => absurd h hclosed,htimeout⟩

theorem Placed.edge (hcfg : cfg.travelMs ≤ cfg.motorTimeoutMs) (h : Placed cfg g) {ev : Event}
    (hev : Allowed cfg g ev) {s : State} {stored reported : Reason} {actions : List Action}
    (hedge : Edge g.machine.beamClear g.machine.reason g.machine.state ev s stored reported actions)
    (clear : Bool) :
    Sound cfg (absorb cfg { g with machine := ⟨s,stored,clear⟩ } ⟨actions,s,true,reported⟩) := by
  obtain ⟨hmotorOpen,hmotorClose⟩ :=
    edge_motor (g:={ g with machine := ⟨s,stored,clear⟩ }) hedge h.motorOpen h.motorClose
  obtain ⟨hclosed,hopen,hfaulted⟩ := edge_limit hedge
  exact sound_absorb hcfg rfl rfl (edge_reason hedge h.reason hev.timeout) h.low h.high
    (fun hs => hev.limitClosed (hclosed hs)) (fun hs => hev.limitOpen (hopen hs))
    (fun hs => absurd (hfaulted hs) hev.timeout) hmotorOpen hmotorClose

/-- A gate that stays as it is but for its tracker, its latch and its auto-close. -/
theorem Sound.same (h : Sound cfg g) {m : Machine} (hstate : m.state = g.machine.state)
    (hreason : m.reason = g.machine.reason) {tracker : CommandTracker} {acks : List Verdict}
    {deadline : ℕ} :
    Sound cfg { g with
      machine := m, tracker := tracker, acks := acks, autocloseDeadline := deadline } := by
  rcases m with ⟨state,reason,clear⟩
  dsimp only at hstate hreason
  subst hstate hreason
  exact ⟨⟨h.low,h.high,h.closed,h.open,h.faulted,h.motorOpen,h.motorClose,h.reason⟩,
    ⟨h.opening,h.closing,h.resting⟩⟩

/-- A gate that the beam has stopped is driven back. -/
theorem Sound.reverse (hcfg : cfg.travelMs ≤ cfg.motorTimeoutMs) (h : Sound cfg g)
    (hstate : g.machine.state = .stoppedClose) (depth : ℕ) :
    Sound cfg (applyLocked cfg (depth + 1)
      { g with machine := (handle g.machine .commandOpen).1 }
      (handle g.machine .commandOpen).2) := by
  have hedge : Edge g.machine.beamClear g.machine.reason g.machine.state .commandOpen
      .opening .none .none [.driveMotorOpen, .setLedOpening, .emitTelemetryStateChanged] :=
    .resumeOpen (.inr hstate)
  have hallowed : Allowed cfg g .commandOpen :=
    allowed_of_ne Event.noConfusion Event.noConfusion Event.noConfusion
  obtain ⟨hreverse,hretry⟩ := commandOpen_plain cfg g.machine
  rw [applyLocked_plain hreverse hretry, hedge.handle_eq]
  exact h.toPlaced.edge hcfg hallowed hedge _

theorem Placed.applyEdge (hcfg : cfg.travelMs ≤ cfg.motorTimeoutMs) (h : Placed cfg g) {ev : Event}
    (hev : Allowed cfg g ev) {s : State} {stored reported : Reason} {actions : List Action}
    (hedge : Edge g.machine.beamClear g.machine.reason g.machine.state ev s stored reported actions)
    {clear : Bool} :
    Sound cfg (applyLocked cfg kApplyDepth { g with machine := ⟨s,stored,clear⟩ }
      ⟨actions,s,true,reported⟩) := by
  have hentered := h.edge hcfg hev hedge clear
  have hretry : ¬ Retries cfg ⟨actions,s,true,reported⟩ := not_retries_of_transitioned rfl
  by_cases hreverse : Reverses cfg ⟨actions,s,true,reported⟩
  · have hstate : (absorb cfg { g with machine := ⟨s,stored,clear⟩ }
        ⟨actions,s,true,reported⟩).machine.state = .stoppedClose := by
      rw [absorb_transition cfg _ rfl]
      exact hreverse.2.2.1
    rw [kApplyDepth, applyLocked]
    dsimp only
    rw [if_pos hreverse]
    exact hentered.reverse hcfg hstate 0
  · rw [kApplyDepth, applyLocked_plain hreverse hretry]
    exact hentered

theorem Sound.applyRefused (h : Sound cfg g) :
    Sound cfg (applyLocked cfg kApplyDepth g
      ⟨[.emitTelemetryStateChanged],.open,false,.safetyBeamObstacle⟩) := by
  have hreverse : ¬ Reverses cfg ⟨[.emitTelemetryStateChanged],.open,false,.safetyBeamObstacle⟩ :=
    fun hr => by cases hr.2.1
  by_cases hretry : Retries cfg ⟨[.emitTelemetryStateChanged],.open,false,.safetyBeamObstacle⟩
  · rw [kApplyDepth, applyLocked_retry hretry, absorb_quiet cfg g rfl rfl]
    exact h.same rfl rfl
  · rw [kApplyDepth, applyLocked_plain hreverse hretry, absorb_quiet cfg g rfl rfl]
    exact h.same rfl rfl

theorem Sound.applyQuiet (h : Sound cfg g) (clear : Bool) :
    Sound cfg (applyLocked cfg kApplyDepth
      { g with machine := { g.machine with beamClear := clear } }
      { newState := g.machine.state }) := by
  have hreverse : ¬ Reverses cfg { newState := g.machine.state } := fun hr => by cases hr.2.1
  have hretry : ¬ Retries cfg { newState := g.machine.state } := fun hr => by cases hr.2.2.1
  rw [kApplyDepth, applyLocked_plain hreverse hretry, absorb_quiet cfg _ rfl rfl]
  exact h.same (m:={ g.machine with beamClear := clear }) rfl rfl

/-- The gate is watched, or it is just arriving. -/
def Timely (cfg : Config) (g : VirtualGate) (ev : Event) : Prop :=
  Watched cfg g ∨ (g.machine.state = .opening ∧ ev = .limitOpenHit) ∨
    (g.machine.state = .closing ∧ ev = .limitClosedHit)

theorem Placed.stepLocked (hcfg : cfg.travelMs ≤ cfg.motorTimeoutMs) (h : Placed cfg g)
    (ev : Event) (hev : Allowed cfg g ev) (htimely : Timely cfg g ev) :
    Sound cfg (g.stepLocked cfg ev) := by
  unfold VirtualGate.stepLocked
  rcases handle_cases g.machine ev with
    ⟨s,stored,reported,actions,hedge,hm⟩ | ⟨hrefused,hm⟩ | ⟨hnone,-,hm⟩
  · rw [hm]
    exact h.applyEdge hcfg hev hedge
  · have hwatched : Watched cfg g := by
      rcases htimely with hwatched | ⟨hs,-⟩ | ⟨hs,-⟩
      · exact hwatched
      · exact absurd (hrefused.1.symm.trans hs) State.noConfusion
      · exact absurd (hrefused.1.symm.trans hs) State.noConfusion
    rw [hm]
    exact Sound.applyRefused ⟨h,hwatched⟩
  · -- a gate that arrives takes an edge
    have hwatched : Watched cfg g := by
      rcases htimely with hwatched | ⟨hs,rfl⟩ | ⟨hs,rfl⟩
      · exact hwatched
      · exact absurd (hs ▸ Edge.reachOpen) (hnone _ _ _ _)
      · exact absurd (hs ▸ Edge.reachClosed) (hnone _ _ _ _)
    rw [hm]
    exact Sound.applyQuiet ⟨h,hwatched⟩ _

theorem Sound.stepLocked (hcfg : cfg.travelMs ≤ cfg.motorTimeoutMs) (h : Sound cfg g)
    (ev : Event) (hev : Allowed cfg g ev) : Sound cfg (g.stepLocked cfg ev) :=
  h.toPlaced.stepLocked hcfg ev hev (.inl h.toWatched)

theorem sound_resolvePosition (hcfg : cfg.travelMs ≤ cfg.motorTimeoutMs)
    (hlow : 0 ≤ g.positionMs) (hhigh : g.positionMs ≤ cfg.travelMs) :
    Sound cfg (g.resolvePositionLocked cfg) := by
  unfold resolvePositionLocked initPosition
  split
  · have hposition : g.positionMs = 0 := by omega
    dsimp only [initClosed, Machine.enter]
    rw [kApplyDepth, applyLocked_plain (fun hr => by cases hr.2.2.1)
      (not_retries_of_transitioned rfl)]
    exact sound_absorb hcfg rfl rfl Reason.noConfusion hlow hhigh (fun _ => hposition)
      State.noConfusion State.noConfusion rfl rfl
  split
  · have hposition : g.positionMs = cfg.travelMs := by omega
    dsimp only [initOpen, Machine.enter]
    rw [kApplyDepth, applyLocked_plain (fun hr => by cases hr.2.2.1)
      (not_retries_of_transitioned rfl)]
    exact sound_absorb hcfg rfl rfl Reason.noConfusion hlow hhigh State.noConfusion
      (fun _ => hposition) State.noConfusion rfl rfl
  · have hbetween : 0 < g.positionMs ∧ g.positionMs < cfg.travelMs := by omega
    dsimp only [initUnknown, Machine.enter]
    rw [kApplyDepth, applyLocked_plain (fun hr => by cases hr.2.2.1)
      (not_retries_of_transitioned rfl)]
    exact sound_absorb hcfg rfl rfl Reason.noConfusion hlow hhigh State.noConfusion
      State.noConfusion (fun _ => hbetween) rfl rfl

variable (cfg) in
/-- An arrival stops the gate at its limit. -/
theorem stepLocked_arrival {ev : Event} {s : State} {stored reported : Reason}
    {actions : List Action}
    (hedge : Edge g.machine.beamClear g.machine.reason g.machine.state ev s stored reported actions)
    (hs : s ≠ .stoppedClose) : (g.stepLocked cfg ev).machine.state = s := by
  have hreverse : ¬ Reverses cfg ⟨actions,s,true,reported⟩ := fun hr => hs hr.2.2.1
  unfold VirtualGate.stepLocked
  rw [hedge.handle_eq, kApplyDepth, applyLocked_plain hreverse (not_retries_of_transitioned rfl),
    absorb_transition cfg _ rfl]

/-- The watchdog has time left, or is off. -/
def Ahead (g : VirtualGate) : Prop := g.watchdogDeadline = 0 ∨ g.nowMs < g.watchdogDeadline

theorem Sound.travelOpening (hcfg : cfg.travelMs ≤ cfg.motorTimeoutMs) (h : Sound cfg g)
    (hstate : g.machine.state = .opening) (dtMs : ℕ) :
    Sound cfg ((g.tick dtMs).travel cfg dtMs) ∧ Ahead ((g.tick dtMs).travel cfg dtMs) := by
  have hmotor : (g.tick dtMs).motorOpen = true := by
    change g.motorOpen = true
    simp [h.motorOpen, hstate]
  have hmoves : moving g.machine.state = true := by
    simp [moving, hstate]
  have hlow := h.low
  have hwatched := h.opening hstate
  rw [VirtualGate.travel, if_pos hmotor]
  split
  · -- the gate arrives, and with the motion its watchdog ends
    have hplaced : Placed cfg { g.tick dtMs with positionMs := cfg.travelMs } :=
      placed_of_moving hmoves (Int.natCast_nonneg _) le_rfl h.motorOpen h.motorClose h.reason
    have hsound := hplaced.stepLocked hcfg .limitOpenHit
      ⟨fun _ => rfl,Event.noConfusion,Event.noConfusion⟩ (.inr (.inl ⟨hstate,rfl⟩))
    refine ⟨hsound,.inl (hsound.resting ?_)⟩
    have hopen := stepLocked_arrival cfg
      (g:={ g.tick dtMs with positionMs := cfg.travelMs }) (hstate ▸ Edge.reachOpen)
      State.noConfusion
    rw [hopen]
    rfl
  · -- the distance that is left shrinks by as much as the time
    rename_i hshort
    change ¬ (cfg.travelMs : ℤ) ≤ g.positionMs + dtMs at hshort
    have hposition : 0 ≤ g.positionMs + dtMs ∧ g.positionMs + dtMs ≤ cfg.travelMs := by omega
    have hleft : ((g.nowMs + dtMs : ℕ) : ℤ) + (cfg.travelMs - (g.positionMs + dtMs)) ≤
        g.watchdogDeadline := by omega
    have hahead : g.nowMs + dtMs < g.watchdogDeadline := by omega
    refine ⟨⟨placed_of_moving hmoves hposition.1 hposition.2 h.motorOpen h.motorClose h.reason,
      ⟨fun _ => hleft,?_,?_⟩⟩,.inr hahead⟩
    · intro hs
      exact absurd (hstate.symm.trans hs) State.noConfusion
    · intro hrest
      exact absurd (hmoves.symm.trans hrest) Bool.noConfusion

theorem Sound.travelClosing (hcfg : cfg.travelMs ≤ cfg.motorTimeoutMs) (h : Sound cfg g)
    (hstate : g.machine.state = .closing) (dtMs : ℕ) :
    Sound cfg ((g.tick dtMs).travel cfg dtMs) ∧ Ahead ((g.tick dtMs).travel cfg dtMs) := by
  have hoff : ¬ (g.tick dtMs).motorOpen = true := by
    change ¬ g.motorOpen = true
    simp [h.motorOpen, hstate]
  have hmotor : (g.tick dtMs).motorClose = true := by
    change g.motorClose = true
    simp [h.motorClose, hstate]
  have hmoves : moving g.machine.state = true := by
    simp [moving, hstate]
  have hhigh := h.high
  have hwatched := h.closing hstate
  rw [VirtualGate.travel, if_neg hoff, if_pos hmotor]
  split
  · have hplaced : Placed cfg { g.tick dtMs with positionMs := 0 } :=
      placed_of_moving hmoves le_rfl (Int.natCast_nonneg _) h.motorOpen h.motorClose h.reason
    have hsound := hplaced.stepLocked hcfg .limitClosedHit
      ⟨Event.noConfusion,fun _ => rfl,Event.noConfusion⟩ (.inr (.inr ⟨hstate,rfl⟩))
    refine ⟨hsound,.inl (hsound.resting ?_)⟩
    have hclosed := stepLocked_arrival cfg (g:={ g.tick dtMs with positionMs := 0 })
      (hstate ▸ Edge.reachClosed) State.noConfusion
    rw [hclosed]
    rfl
  · rename_i hshort
    change ¬ g.positionMs - dtMs ≤ 0 at hshort
    have hposition : 0 ≤ g.positionMs - dtMs ∧ g.positionMs - dtMs ≤ cfg.travelMs := by omega
    have hleft : ((g.nowMs + dtMs : ℕ) : ℤ) + (g.positionMs - dtMs) ≤ g.watchdogDeadline := by
      omega
    have hahead : g.nowMs + dtMs < g.watchdogDeadline := by omega
    refine ⟨⟨placed_of_moving hmoves hposition.1 hposition.2 h.motorOpen h.motorClose h.reason,
      ⟨?_,fun _ => hleft,?_⟩⟩,.inr hahead⟩
    · intro hs
      exact absurd (hstate.symm.trans hs) State.noConfusion
    · intro hrest
      exact absurd (hmoves.symm.trans hrest) Bool.noConfusion

theorem Sound.travelResting (h : Sound cfg g) (hrest : moving g.machine.state = false) (dtMs : ℕ) :
    Sound cfg ((g.tick dtMs).travel cfg dtMs) ∧ Ahead ((g.tick dtMs).travel cfg dtMs) := by
  have hnot : g.machine.state ≠ .opening ∧ g.machine.state ≠ .closing := by
    simpa [moving] using hrest
  have hopen : ¬ (g.tick dtMs).motorOpen = true := by
    change ¬ g.motorOpen = true
    simp [h.motorOpen, hnot.1]
  have hclose : ¬ (g.tick dtMs).motorClose = true := by
    change ¬ g.motorClose = true
    simp [h.motorClose, hnot.2]
  rw [VirtualGate.travel, if_neg hopen, if_neg hclose]
  refine ⟨⟨⟨h.low,h.high,h.closed,h.open,h.faulted,h.motorOpen,h.motorClose,h.reason⟩,⟨?_,?_,h.resting⟩⟩,
    .inl (h.resting hrest)⟩
  · intro hs
    exact absurd hs hnot.1
  · intro hs
    exact absurd hs hnot.2

/-- After the motion of one time step the gate is sound, and its watchdog is not due. -/
theorem Sound.travel (hcfg : cfg.travelMs ≤ cfg.motorTimeoutMs) (h : Sound cfg g) (dtMs : ℕ) :
    Sound cfg ((g.tick dtMs).travel cfg dtMs) ∧ Ahead ((g.tick dtMs).travel cfg dtMs) := by
  by_cases hopening : g.machine.state = .opening
  · exact h.travelOpening hcfg hopening dtMs
  by_cases hclosing : g.machine.state = .closing
  · exact h.travelClosing hcfg hclosing dtMs
  · exact h.travelResting (by simp [moving, hopening, hclosing]) dtMs

theorem checkWatchdog_of_ahead (cfg : Config) (h : Ahead g) : g.checkWatchdog cfg = g := by
  refine if_neg ?_
  rintro ⟨harmed,hdue⟩
  rcases h with hoff | hlater
  · exact harmed hoff
  · omega

theorem Sound.advance (hcfg : cfg.travelMs ≤ cfg.motorTimeoutMs) (h : Sound cfg g) (dtMs : ℕ) :
    Sound cfg (g.advance cfg dtMs) := by
  obtain ⟨hsound,hahead⟩ := h.travel hcfg dtMs
  rw [VirtualGate.advance, checkWatchdog_of_ahead cfg hahead, checkAutoclose]
  split
  · exact (hsound.same (m:=((g.tick dtMs).travel cfg dtMs).machine) rfl rfl).stepLocked hcfg _
      (allowed_of_ne Event.noConfusion Event.noConfusion Event.noConfusion)
  · exact hsound

theorem Sound.issue (hcfg : cfg.travelMs ≤ cfg.motorTimeoutMs) (h : Sound cfg g)
    (commandId : List UInt8) (c : Motion) : Sound cfg (g.issue cfg commandId c) := by
  have harmed : Sound cfg (g.record (g.tracker.arm commandId
      (if c = .open then State.open else State.closed)
      (BitVec.ofNat 32 g.nowMs + BitVec.ofNat 32 cfg.commandDeadlineMs))) :=
    h.same (m:=g.machine) rfl rfl
  refine harmed.stepLocked hcfg _ ?_
  cases c with
  | «open» => exact allowed_of_ne Event.noConfusion Event.noConfusion Event.noConfusion
  | close => exact allowed_of_ne Event.noConfusion Event.noConfusion Event.noConfusion

theorem Sound.clearFault (hcfg : cfg.travelMs ≤ cfg.motorTimeoutMs) (h : Sound cfg g) :
    Sound cfg (g.clearFault cfg) := by
  have hcleared := h.stepLocked hcfg .faultCleared
    (allowed_of_ne Event.noConfusion Event.noConfusion Event.noConfusion)
  unfold VirtualGate.clearFault
  dsimp only
  split
  · exact sound_resolvePosition hcfg hcleared.low hcleared.high
  · exact hcleared

theorem Sound.setBeam (h : Sound cfg g) (blocked : Bool) :
    Sound cfg { g with beamBlocked := blocked } :=
  ⟨⟨h.low,h.high,h.closed,h.open,h.faulted,h.motorOpen,h.motorClose,h.reason⟩,
    ⟨h.opening,h.closing,h.resting⟩⟩

theorem Sound.perform (hcfg : cfg.travelMs ≤ cfg.motorTimeoutMs) (h : Sound cfg g)
    (o : Operation) : Sound cfg (g.perform cfg o) := by
  cases o with
  | issue commandId c => exact h.issue hcfg commandId c
  | clearFault => exact h.clearFault hcfg
  | advance dtMs => exact h.advance hcfg dtMs
  | localOpen | localClose | operatorStop =>
    exact h.stepLocked hcfg _
      (allowed_of_ne Event.noConfusion Event.noConfusion Event.noConfusion)
  | tripBeam | clearBeam =>
    exact (h.setBeam _).stepLocked hcfg _
      (allowed_of_ne Event.noConfusion Event.noConfusion Event.noConfusion)

theorem sound_bootClosed (hcfg : cfg.travelMs ≤ cfg.motorTimeoutMs) (g : VirtualGate) :
    Sound cfg (g.bootClosed cfg) := by
  unfold VirtualGate.bootClosed
  dsimp only [initClosed, Machine.enter]
  rw [kApplyDepth, applyLocked_plain (fun hr => by cases hr.2.2.1)
    (not_retries_of_transitioned rfl)]
  exact sound_absorb hcfg rfl rfl Reason.noConfusion le_rfl (Int.natCast_nonneg _) (fun _ => rfl)
    State.noConfusion State.noConfusion rfl rfl

theorem Sound.step (hcfg : cfg.travelMs ≤ cfg.motorTimeoutMs) (g : VirtualGate) (a : SimInput)
    (h : Sound cfg g) : Sound cfg (g.step cfg a) := by
  cases a with
  | bootClosed => exact sound_bootClosed hcfg g
  | reboot => exact sound_resolvePosition hcfg h.low h.high
  | op o => exact h.perform hcfg o

/-- With a watchdog budget of at least one stroke, the virtual gate stays between its limits,
rests on the limit that its state names, drives exactly the motor of its state, and is never
faulted by its watchdog, which is never due when it is looked at. -/
theorem gate_travels_in_time (cfg : Config) (hcfg : cfg.travelMs ≤ cfg.motorTimeoutMs)
    (as : List SimInput) :
    let g := exec (VirtualGate.step cfg) {} (.bootClosed :: as)
    (0 ≤ g.positionMs ∧ g.positionMs ≤ cfg.travelMs) ∧
    (g.machine.state = .closed → g.positionMs = 0) ∧
    (g.machine.state = .open → g.positionMs = cfg.travelMs) ∧
    ¬(g.motorOpen = true ∧ g.motorClose = true) ∧
    (g.motorOpen = true ↔ g.machine.state = .opening) ∧
    (g.motorClose = true ↔ g.machine.state = .closing) ∧
    g.machine.reason ≠ .motorTimeout ∧
    ∀ dtMs, ((g.tick dtMs).travel cfg dtMs).checkWatchdog cfg = (g.tick dtMs).travel cfg dtMs := by
  intro g
  have hsound : Sound cfg g := by
    apply exec_invariant (Sound.step hcfg) as
    exact sound_bootClosed hcfg {}
  refine ⟨⟨hsound.low,hsound.high⟩,hsound.closed,hsound.open,?_,?_,?_,hsound.reason,?_⟩
  · rw [hsound.motorOpen, hsound.motorClose]
    rintro ⟨hopening,hclosing⟩
    have hsame := (of_decide_eq_true hopening).symm.trans (of_decide_eq_true hclosing)
    cases hsame
  · simp [hsound.motorOpen]
  · simp [hsound.motorClose]
  · intro dtMs
    exact checkWatchdog_of_ahead cfg (hsound.travel hcfg dtMs).2

/-- A stroke of ten and a budget of ten: an opening that is stopped half-way, closed again and
reversed by the beam in one time step each. -/
theorem gate_travels_in_time_reversed :
    let cfg : Config := { travelMs := 10, motorTimeoutMs := 10 }
    let as : List SimInput := [.op .localOpen, .op (.advance 6), .op .operatorStop,
      .op .localClose, .op (.advance 4), .op .tripBeam, .op (.advance 7)]
    let g := exec (VirtualGate.step cfg) {} (.bootClosed :: as)
    g.machine.state = .opening ∧ g.positionMs = 9 ∧
      (0 ≤ g.positionMs ∧ g.positionMs ≤ cfg.travelMs) :=
  ⟨by decide,by decide,(gate_travels_in_time { travelMs := 10, motorTimeoutMs := 10 } (by decide)
    [.op .localOpen, .op (.advance 6), .op .operatorStop, .op .localClose,
      .op (.advance 4), .op .tripBeam, .op (.advance 7)]).1⟩

end Step
end AlprGate.Sim.VirtualGate
