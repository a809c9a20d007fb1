import AlprGate.Firmware.ControllerInvariant

/-! # The beam latch and the beam driver

The boot sequence reads the beam once, resolves the position and only then registers
the callback, while the poll timer is running. An edge committed in that window, or
posted to a full queue, never reaches the machine. A history variable records
whether the latest edge did; while it says so, the latch that the queue still leads
to is the committed value of the driver.
-/
namespace AlprGate.Control
open StateMachine Drivers BoundedQueue PendingWrites Transition

/-- The step in which `start` reads the beam. -/
def BootRead (s : Controller) (a : Input) : Prop :=
  a = .advance ∧ s.stage = .prelatch ∧ s.ops = []

instance (s : Controller) (a : Input) : Decidable (BootRead s a) :=
  inferInstanceAs (Decidable (_ ∧ _))

/-- Whether the latest committed beam edge, or the boot reading if there was none since,
has been handed on: the callback was registered and the queue had room. -/
def edgeKept (s : Controller) (a : Input) (kept : Bool) : Bool :=
  if BootRead s a then true
  else match edgeBeam s a with
    | some _ => s.beam.hasCallback && decide (s.queue.length < kQueueDepth)
    | none => kept

def Stage.beamRead : Stage → Bool
  | .constructed | .prelatch => false
  | _ => true

/-- Only the boot reading takes the controller past the boot reading. -/
theorem step_beamRead (cfg : Config) {s : Controller} {a : Input} (h : ¬ BootRead s a) :
    (step cfg s a).stage.beamRead = s.stage.beamRead := by
  cases a with
  | advance =>
    simp only [step, Controller.advance]
    split
    · rw [runOp_stage]
    · rename_i hops
      split <;> rename_i hstage
      · exact absurd ⟨rfl,hstage,hops⟩ h
      all_goals simp [Controller.resolveBootPosition, hstage, Stage.beamRead]
  | receive =>
    simp only [step, Controller.receive]
    split
    · rename_i hstage _ _
      rw [hstage, stageAfter]
      split <;> rfl
    · rfl
  | start =>
    simp only [step]
    split
    · rename_i hstage
      rw [hstage]
      rfl
    · rfl
  | createFails =>
    simp only [step]
    split
    · rename_i hstage
      rw [hstage.1]
      rfl
    · rfl
  | pollLimitOpen level => simp only [step, Controller.pollLimitOpen, callback_eq]
  | pollLimitClosed level => simp only [step, Controller.pollLimitClosed, callback_eq]
  | pollBeam level => simp only [step, Controller.pollBeam, callback_eq]
  | watchdogFires =>
    simp only [step, Controller.watchdogFires]
    split <;> rfl
  | autocloseFires =>
    simp only [step, Controller.autocloseFires]
    split <;> rfl
  | command c => rfl
  | showLedPattern p => rfl

/-- The latch once the queue has been worked off. -/
def pendingClear (s : Controller) : Bool := s.queue.foldl latch s.sm.beamClear

theorem Move.pendingClear {cfg : Config} {s t : Controller} {a : Input} (hmove : Move cfg s a t)
    (h : ¬ BootRead s a) :
    pendingClear t = (accepted s a).toList.foldl latch (pendingClear s) := by
  unfold Control.pendingClear
  cases hmove with
  | quiet hq => rw [hq.queue, hq.sm, offers_posted, List.foldl_append]
  | op hops =>
    rw [runOp_queue, runOp_sm, ← List.foldl_append, ← offers_posted, posted_advance_cons hops]
  | prelatch hops hstage hb => exact absurd ⟨rfl,hstage,hops⟩ h
  | resolve hops hnext hstage =>
    have hnone : accepted s .advance = none := by
      rw [accepted, posted_advance_nil hops, ite_self]
    rw [hnone]
    simp only [Controller.resolveBootPosition, Option.toList_none, List.foldl_nil]
    rw [initFrom_beamClear]
  | receive hstage hops hqueue =>
    have hnone : accepted s .receive = none := by rw [accepted]; exact ite_self _
    rw [hnone, hqueue]
    simp only [Option.toList_none, List.foldl_nil, List.foldl_cons]
    rw [handle_beamClear]

/-- No move but a poll touches the committed value. -/
theorem Move.beam_committed {cfg : Config} {s t : Controller} {a : Input} (hmove : Move cfg s a t) :
    t.beam.committed = (edgeBeam s a).getD s.beam.committed := by
  cases hmove with
  | quiet hq => exact hq.beam
  | op hops =>
    rw [runOp_beam]
    rfl
  | prelatch | resolve | receive => rfl

/-- Posts that are not beam edges leave the latch alone. -/
theorem latch_posted {s : Controller} {a : Input} {ev : Event} (hs : PostsFit s.ops)
    (h : edgeBeam s a = none ∨ s.beam.hasCallback = false) (hev : posted s a = some ev)
    (clear : Bool) : latch clear ev = clear := by
  cases posted_source hev with
  | policy hops =>
    rw [hs _ (by rw [hops]; exact List.mem_cons_self) ev rfl]
    rfl
  | @limitOpen level v _ _ => cases v <;> rfl
  | @limitClosed level v _ _ => cases v <;> rfl
  | beam hcall he =>
    rcases h with h | h
    · rw [h] at he
      cases he
    · rw [h] at hcall
      cases hcall
  | watchdog | autoclose => rfl
  | command c => cases c <;> rfl

theorem latch_accepted {s : Controller} {a : Input} (hs : PostsFit s.ops)
    (h : edgeBeam s a = none ∨ s.beam.hasCallback = false) (clear : Bool) :
    (accepted s a).toList.foldl latch clear = clear := by
  cases ha : accepted s a with
  | none => rfl
  | some ev => exact latch_posted hs h (accepted_eq_some ha) clear

theorem foldl_latch_of_no_edge {q : List Event}
    (h : ∀ ev ∈ q, ∀ clear, latch clear ev = clear) (clear : Bool) : q.foldl latch clear = clear := by
  induction q generalizing clear with
  | nil => rfl
  | cons ev q ih =>
    rw [List.foldl_cons, h ev List.mem_cons_self]
    exact ih (fun e he => h e (List.mem_cons_of_mem _ he)) clear

structure BeamFits (p : Controller × Bool) : Prop where
  unread : p.1.stage.beamRead = false →
    p.1.sm.beamClear = true ∧ ∀ ev ∈ p.1.queue, ∀ clear, latch clear ev = clear
  read : p.1.stage.beamRead = true → p.2 = true → pendingClear p.1 = !p.1.beam.committed

theorem construct_beamFits (lo lc bm kept : Bool) : BeamFits (construct lo lc bm,kept) :=
  ⟨fun _ => ⟨rfl,fun _ h => (by cases h)⟩,fun h => (by cases h)⟩

/-- The boot reading sets the latch to what the driver shows. -/
theorem bootRead_pendingClear (cfg : Config) {s : Controller} {a : Input} (hs : Sound s)
    (hclear : s.sm.beamClear = true) (hq : ∀ ev ∈ s.queue, ∀ clear, latch clear ev = clear)
    (h : BootRead s a) : pendingClear (step cfg s a) = !(step cfg s a).beam.committed := by
  obtain ⟨rfl,hstage,hops⟩ := h
  have hi := hs.coherent.unresolved (by rw [hstage]; rfl)
  simp only [step, Controller.advance, hops, hstage, pendingClear]
  rw [foldl_latch_of_no_edge hq]
  cases hb : s.beam.committed with
  | false => exact hclear
  | true =>
    simp only [↓reduceIte, handle_tripped_initializing hi]
    rfl

/-- A beam edge that was kept is the last thing the queue tells the latch. -/
theorem latch_kept_edge {s : Controller} {a : Input} {v : Bool} (he : edgeBeam s a = some v)
    (hk : (s.beam.hasCallback && decide (s.queue.length < kQueueDepth)) = true) (clear : Bool) :
    (accepted s a).toList.foldl latch clear = !v := by
  rw [Bool.and_eq_true, decide_eq_true_eq] at hk
  cases a with
  | pollBeam level =>
    rw [accepted, if_pos hk.2]
    simp only [posted, hk.1, he, reportOf]
    cases v <;> rfl
  | _ => cases he

theorem Move.unread {cfg : Config} {s t : Controller} {a : Input} (hmove : Move cfg s a t)
    (hs : Sound s) (hboot : ¬ BootRead s a) (hstage : s.stage.beamRead = false)
    (h : s.sm.beamClear = true ∧ ∀ ev ∈ s.queue, ∀ clear, latch clear ev = clear) :
    t.sm.beamClear = true ∧ ∀ ev ∈ t.queue, ∀ clear, latch clear ev = clear := by
  have hcall : s.beam.hasCallback = false := by
    rw [hs.wired.beam]
    revert hstage
    cases s.stage <;> simp [Stage.beamRead, Stage.registered]
  have hqueue : ∀ ev ∈ offers kQueueDepth s.queue (posted s a), ∀ clear, latch clear ev = clear := by
    intro ev hev
    rw [offers_posted, List.mem_append, Option.mem_toList] at hev
    rcases hev with hev | hev
    · exact h.2 ev hev
    · exact latch_posted hs.posts (Or.inr hcall) (accepted_eq_some hev)
  cases hmove with
  | quiet hq =>
    rw [hq.sm, hq.queue]
    exact ⟨h.1,hqueue⟩
  | op hops =>
    rw [posted_advance_cons hops] at hqueue
    rw [runOp_sm, runOp_queue]
    exact ⟨h.1,hqueue⟩
  | prelatch hops hst hb => exact absurd ⟨rfl,hst,hops⟩ hboot
  | resolve hops hnext hst => rcases hst with hst | hst <;> (rw [hst] at hstage; cases hstage)
  | receive hst hops hq =>
    rw [hst] at hstage
    cases hstage

theorem step_beamFits (cfg : Config) {s : Controller} (a : Input) {kept : Bool} (hs : Sound s)
    (h : BeamFits (s,kept)) : BeamFits (step cfg s a,edgeKept s a kept) := by
  by_cases hboot : BootRead s a
  · have hunread := h.unread (by show s.stage.beamRead = false; rw [hboot.2.1]; rfl)
    refine ⟨fun hread => ?_,fun _ _ => bootRead_pendingClear cfg hs hunread.1 hunread.2 hboot⟩
    obtain ⟨rfl,hstage,hops⟩ := hboot
    simp only [step, Controller.advance, hops, hstage] at hread
    cases hread
  · have hmove := step_move cfg s a
    refine ⟨fun hread => ?_,fun hread hkept => ?_⟩
    · have hstage : s.stage.beamRead = false := step_beamRead cfg hboot ▸ hread
      exact hmove.unread hs hboot hstage (h.unread hstage)
    · dsimp only at hread hkept ⊢
      rw [step_beamRead cfg hboot] at hread
      rw [hmove.pendingClear hboot, hmove.beam_committed]
      rw [edgeKept, if_neg hboot] at hkept
      cases he : edgeBeam s a with
      | none =>
        rw [he] at hkept
        rw [latch_accepted hs.posts (Or.inl he)]
        exact h.read hread hkept
      | some v =>
        rw [he] at hkept
        exact latch_kept_edge he hkept _

theorem run_beamFits (cfg : Config) (lo lc bm kept : Bool) (as : List Input) :
    BeamFits (exec (observe (step cfg) edgeKept) (construct lo lc bm,kept) as) := by
  refine (exec_invariant (I:=fun p => Sound p.1 ∧ BeamFits p) ?_ as
    ⟨construct_sound lo lc bm,construct_beamFits lo lc bm kept⟩).2
  rintro ⟨s,kept⟩ a ⟨hs,h⟩
  exact ⟨step_sound cfg s a hs,step_beamFits cfg a hs h⟩

/-- Once `start` has returned and whenever the queue is empty, the latch agrees with the
driver, provided the latest committed edge was handed on. -/
theorem latch_agrees_with_beam (cfg : Config) (lo lc bm : Bool) (as : List Input) :
    let p := exec (observe (step cfg) edgeKept) (construct lo lc bm,true) as
    p.1.started → p.1.queue = [] → p.2 = true →
      (p.1.sm.beamClear = true ↔ p.1.beam.committed = false) := by
  intro p hstarted hqueue hkept
  have hread : p.1.stage.beamRead = true := by
    rcases hstarted with h | h | h | ⟨b,h⟩ <;> rw [h] <;> rfl
  have h := (run_beamFits cfg lo lc bm true as).read hread hkept
  change pendingClear p.1 = !p.1.beam.committed at h
  rw [pendingClear, hqueue, List.foldl_nil] at h
  rw [h]
  cases p.1.beam.committed <;> decide

/-- A boot with a clear beam, then a trip that the pump works off. -/
def tripHandled : List Input := boot ++ List.replicate 6 (.pollBeam true) ++ pumpOnce

theorem latch_agrees_after_trip :
    let p := exec (observe (step {}) edgeKept) (construct true false false,true) tripHandled
    p.1.stage = .pump ∧ p.1.queue = [] ∧ p.2 = true ∧ p.1.beam.committed = true ∧
      (p.1.sm.beamClear = true ↔ p.1.beam.committed = false) :=
  ⟨by decide +kernel,by decide +kernel,by decide +kernel,by decide +kernel,
    latch_agrees_with_beam {} true false false tripHandled
      (Or.inr (Or.inl (by decide +kernel))) (by decide +kernel) (by decide +kernel)⟩

/-- The beam is blocked between the boot reading and the registration of its callback. -/
def tripBeforeRegistration : List Input :=
  [.start, .advance] ++ List.replicate 6 (.pollBeam true) ++ List.replicate 20 .advance

/-- The beam is blocked while sixteen ignored commands fill the queue. -/
def tripOnFullQueue : List Input :=
  boot ++ List.replicate 16 (.command .clearFault) ++ List.replicate 6 (.pollBeam true) ++
    (List.replicate 16 [.receive, .advance, .advance]).flatten

/-- Either way the pump ends up idle on an empty queue, with a clear latch and a blocked
beam. A gate that has booted open then takes a close command and closes on the obstacle. -/
theorem latch_misses_trip :
    let s := exec (step {}) (construct true false false) tripBeforeRegistration
    let t := exec (step {}) (construct true false false) tripOnFullQueue
    let u := exec (step {}) (construct false true false)
      (tripBeforeRegistration ++ .command .close :: pumpOnce)
    (s.Idle ∧ s.queue = [] ∧ s.sm.beamClear = true ∧ s.beam.committed = true) ∧
    (t.Idle ∧ t.queue = [] ∧ t.sm.beamClear = true ∧ t.beam.committed = true) ∧
    (u.Idle ∧ u.queue = [] ∧ u.sm.state = .closing ∧ u.beam.committed = true) := by
  decide +kernel

end AlprGate.Control
