import AlprGate.Firmware.ControllerInvariant

/-! # Reversing on a tripped beam

The policy posts its open command at the tail of the queue that may already hold a
cleared beam and a close command. Between the trip and the reversal the machine
rests in the beam stop, and only two events lead out of it.
-/
namespace AlprGate.Control
open StateMachine Drivers BoundedQueue PendingWrites Transition

/-- The motion a step energises. -/
def driven (s : Controller) (a : Input) : Option State := (operation s a).bind Op.motion

/-- The pump does not take a close command while the machine rests in a beam stop with
a cleared beam. -/
def KeepsReversal (s : Controller) (a : Input) : Prop :=
  ¬ (handled s a = some .commandClose ∧ s.sm.state = .stoppedClose ∧
    s.sm.reason = .safetyBeamObstacle ∧ s.sm.beamClear = true)

instance (s : Controller) (a : Input) : Decidable (KeepsReversal s a) :=
  inferInstanceAs (Decidable (¬ _))

/-- Resting in the beam stop with the reversal on its way. -/
structure Held (s : Controller) : Prop where
  state : s.sm.state = .stoppedClose
  reason : s.sm.reason = .safetyBeamObstacle
  coming : .commandOpen ∈ s.queue ∨ .post .commandOpen ∈ s.ops

/-- The reversal was taken and its relay writes are next. -/
def TurningBack (s : Controller) : Prop :=
  ∃ rest, s.ops = .setRelayClose false :: .setRelayOpen true :: rest ∨
    s.ops = .setRelayOpen true :: rest

theorem Held.driven_eq_none {s : Controller} (h : Held s) (hs : Sound s) (a : Input) :
    driven s a = none := by
  cases hop : operation s a with
  | none => rw [driven, hop, Option.bind_none]
  | some op =>
    rw [driven, hop, Option.bind_some]
    exact hs.motion.still (by rw [h.state]; rfl) op (mem_of_operation hop)

/-- Of the beam stop's two ways out, the close needs a cleared beam. -/
theorem handle_beamStop {m : Machine} (hs : m.state = .stoppedClose)
    (hr : m.reason = .safetyBeamObstacle) (ev : Event)
    (hkeep : ¬ (ev = .commandClose ∧ m.beamClear = true)) :
    (ev = .commandOpen ∧ (handle m ev).2.actions =
      [.driveMotorOpen, .setLedOpening, .emitTelemetryStateChanged]) ∨
    (ev ≠ .commandOpen ∧ (handle m ev).1.state = .stoppedClose ∧
      (handle m ev).1.reason = .safetyBeamObstacle) := by
  rcases m with ⟨state,reason,clear⟩
  cases hs
  cases hr
  cases ev with
  | commandOpen => exact Or.inl ⟨rfl,rfl⟩
  | commandClose =>
    cases clear with
    | true => exact absurd ⟨rfl,rfl⟩ hkeep
    | false => exact Or.inr ⟨by simp,rfl,rfl⟩
  | _ => exact Or.inr ⟨by simp,rfl,rfl⟩

theorem program_of_driveMotorOpen {cfg : Config} {out : Outputs}
    (h : out.actions = [.driveMotorOpen, .setLedOpening, .emitTelemetryStateChanged]) :
    pumpProgram cfg out = .setRelayClose false :: .setRelayOpen true ::
      ([.render .gateMoving, .storeState, .storeReason] ++ afterExecute cfg out) := by
  rw [pumpProgram_eq, execute, h]
  rfl

theorem Move.held {cfg : Config} {s t : Controller} {a : Input} (hmove : Move cfg s a t)
    (hs : Sound s) (hdrop : NoDrop s a) (hkeep : KeepsReversal s a) (h : Held s) :
    Held t ∨ TurningBack t := by
  have hres : s.stage.unresolved = true → False := fun hu => by
    have := hs.coherent.unresolved hu
    rw [h.state] at this
    cases this
  cases hmove with
  | quiet hq =>
    left
    refine ⟨by rw [hq.sm]; exact h.state,by rw [hq.sm]; exact h.reason,?_⟩
    rw [hq.queue, hq.ops]
    exact h.coming.imp (fun hm => subset_offers _ _ _ hm) id
  | @op op rest hops =>
    left
    refine ⟨by rw [runOp_sm]; exact h.state,by rw [runOp_sm]; exact h.reason,?_⟩
    rw [runOp_queue, runOp_ops]
    rcases h.coming with hm | hm
    · exact Or.inl (subset_offers _ _ _ hm)
    · rw [hops, List.mem_cons] at hm
      rcases hm with rfl | hm
      · have hp := posted_advance_cons hops
        exact Or.inl (hp ▸ hdrop.mem hp)
      · exact Or.inr hm
  | prelatch hops hstage hb => exact absurd (by rw [hstage]; rfl) hres
  | resolve hops hnext hstage =>
    exact absurd (by rcases hstage with h | h <;> rw [h] <;> rfl) hres
  | @receive ev rest hstage hops hqueue =>
    have hev := handled_receive hstage hops hqueue
    rcases handle_beamStop h.state h.reason ev
      (fun hc => hkeep ⟨hc.1 ▸ hev,h.state,h.reason,hc.2⟩) with ⟨-,ha⟩ | ⟨hne,hst,hr⟩
    · exact Or.inr ⟨_,Or.inl (program_of_driveMotorOpen ha)⟩
    · left
      refine ⟨hst,hr,Or.inl ?_⟩
      have hm := h.coming
      rw [hops, hqueue, List.mem_cons] at hm
      rcases hm with (hm | hm) | hm
      · exact absurd hm.symm hne
      · exact hm
      · cases hm

theorem Move.turningBack {cfg : Config} {s t : Controller} {a : Input} (hmove : Move cfg s a t)
    (h : TurningBack s) :
    driven s a = some .opening ∨ (driven s a = none ∧ TurningBack t) := by
  obtain ⟨rest,hops⟩ := h
  have hne : s.ops ≠ [] := by rcases hops with hops | hops <;> rw [hops] <;> simp
  cases hmove with
  | quiet hq =>
    exact Or.inr ⟨by rw [driven, hq.calm.operation]; rfl,rest,by rw [hq.ops]; exact hops⟩
  | op hcons =>
    rcases hops with hops | hops
    · refine Or.inr ⟨by simp only [driven, operation, hops]; rfl,rest,Or.inr ?_⟩
      rw [hops] at hcons
      cases hcons
      rw [runOp_ops]
    · exact Or.inl (by simp only [driven, operation, hops]; rfl)
  | prelatch hnil hstage hb => exact absurd hnil hne
  | resolve hnil hnext hstage => exact absurd hnil hne
  | receive hstage hnil hqueue => exact absurd hnil hne

/-- The step that takes the trip leaves the reversal in the pending program. -/
theorem held_of_trip {cfg : Config} (hcfg : cfg.reverseOnBeam = true) {s : Controller}
    (hev : handled s .receive = some .safetyBeamTripped) (hs : s.sm.state = .closing) :
    Held (step cfg s .receive) := by
  obtain ⟨hstage,hops,rest,hqueue⟩ := of_handled_receive hev
  have hh : handle s.sm .safetyBeamTripped = (⟨.stoppedClose,.safetyBeamObstacle,false⟩,
      ⟨[.stopMotor, .setLedStopped, .emitTelemetryStateChanged],.stoppedClose,true,
        .safetyBeamObstacle⟩) := by
    rcases hm : s.sm with ⟨state,reason,clear⟩
    rw [hm] at hs
    cases hs
    rfl
  simp only [step, Controller.receive, hstage, hops, hqueue, hh]
  exact ⟨rfl,rfl,Or.inr (by simp [pumpProgram, applyPolicies, hcfg])⟩

/-- In every run that drops no post and in which the pump takes no close command while
it rests in a beam stop with a cleared beam: after a trip that stopped a closing gate,
the first motion energised is the opening, and until then the reversal is queued or
about to be. -/
theorem reversal_is_next_drive (cfg : Config) (hcfg : cfg.reverseOnBeam = true) (lo lc bm : Bool)
    (as bs : List Input)
    (htrip : handled (exec (step cfg) (construct lo lc bm) as) .receive = some .safetyBeamTripped)
    (hclosing : (exec (step cfg) (construct lo lc bm) as).sm.state = .closing)
    (h : AllSteps (step cfg) (fun s a => NoDrop s a ∧ KeepsReversal s a)
      (exec (step cfg) (construct lo lc bm) (as ++ [.receive])) bs) :
    let s := exec (step cfg) (construct lo lc bm) (as ++ [.receive])
    firstSome (step cfg) driven s bs = some .opening ∨
      (firstSome (step cfg) driven s bs = none ∧
        (Held (exec (step cfg) s bs) ∨ TurningBack (exec (step cfg) s bs))) := by
  intro s
  have hs : Sound s := run_sound cfg lo lc bm _
  have hheld : Held s := by
    simp only [s, exec_append, exec_cons, exec_nil]
    exact held_of_trip hcfg htrip hclosing
  have hstep : ∀ s a, NoDrop s a ∧ KeepsReversal s a → Sound s ∧ (Held s ∨ TurningBack s) →
      driven s a = some .opening ∨ (driven s a = none ∧
        Sound (step cfg s a) ∧ (Held (step cfg s a) ∨ TurningBack (step cfg s a))) := by
    rintro s a ⟨hdrop,hkeep⟩ ⟨hs,hheld | hback⟩
    · exact Or.inr ⟨hheld.driven_eq_none hs a,step_sound cfg s a hs,
        (step_move cfg s a).held hs hdrop hkeep hheld⟩
    · exact ((step_move cfg s a).turningBack hback).imp id
        fun hb => ⟨hb.1,step_sound cfg s a hs,Or.inr hb.2⟩
  exact (firstSome_invariant hstep h ⟨hs,Or.inl hheld⟩).imp id fun hk => ⟨hk.1,hk.2.2⟩

/-- Open, closing, blocked: the trip is at the head of the queue. -/
def closingBlocked : List Input := boot ++ .command .close :: pumpOnce ++ List.replicate 6 (.pollBeam true)

def tripAndReversal : List Input := List.replicate 12 .advance ++ pumpOnce

theorem reversal_after_trip :
    let s := exec (step {}) (construct false true false) (closingBlocked ++ [.receive])
    AllSteps (step {}) (fun s a => NoDrop s a ∧ KeepsReversal s a) s tripAndReversal ∧
    (firstSome (step {}) driven s tripAndReversal = some .opening ∨
      (firstSome (step {}) driven s tripAndReversal = none ∧
        (Held (exec (step {}) s tripAndReversal) ∨
          TurningBack (exec (step {}) s tripAndReversal)))) :=
  ⟨by decide +kernel,
    reversal_is_next_drive {} rfl false true false closingBlocked tripAndReversal
      (by decide +kernel) (by decide +kernel) (by decide +kernel)⟩

/-- The beam clears and somebody asks to close before the pump takes the trip: the first
motion after it is the closing. -/
theorem close_overtakes_reversal :
    let as := closingBlocked ++ List.replicate 6 (.pollBeam false) ++ [.command .close]
    let bs := tripAndReversal ++ pumpOnce
    let s := exec (step {}) (construct false true false) as
    AllSteps (step {}) NoDrop (construct false true false) (as ++ .receive :: bs) ∧
      handled s .receive = some .safetyBeamTripped ∧ s.sm.state = .closing ∧
      firstSome (step {}) driven (step {} s .receive) bs = some .closing := by
  decide +kernel

end AlprGate.Control
