import AlprGate.Firmware.ControllerInvariant

/-! # Driving towards a limit

Limit switches report edges, motion commands are decided on the machine's state
alone. A motion that starts with its limit already committed never sees the edge
that would end it, so the property needs a condition on the steps that start a
motion; every later step keeps it. Both directions are one argument over the side.
-/
namespace AlprGate.Control
open StateMachine Drivers BoundedQueue PendingWrites Transition

inductive Side where
  | opened | closed
  deriving DecidableEq, Repr

namespace Side

def motion : Side → State
  | opened => .opening
  | closed => .closing

def hit : Side → Event
  | opened => .limitOpenHit
  | closed => .limitClosedHit

def limit (s : Controller) : Side → Debouncer
  | opened => s.limitOpen
  | closed => s.limitClosed

def edge (s : Controller) (a : Input) : Side → Option Bool
  | opened => edgeOpen s a
  | closed => edgeClosed s a

theorem moving_motion (side : Side) : State.moving side.motion = true := by cases side <;> rfl

end Side

/-- The limit ahead is not reached, or the event that says so is under way. -/
def Ahead (side : Side) (s : Controller) : Prop :=
  (side.limit s).committed = false ∨ side.hit ∈ s.queue

instance (side : Side) (s : Controller) : Decidable (Ahead side s) :=
  inferInstanceAs (Decidable (_ ∨ _))

/-- If the step starts the motion of a side, the way ahead of it is free or the hit is
already queued. -/
def StartsAheadOf (side : Side) (s : Controller) (a : Input) : Prop :=
  ∀ ev ∈ handled s a, s.sm.state ≠ side.motion → (handle s.sm ev).1.state = side.motion →
    Ahead side s

def StartsAhead (s : Controller) (a : Input) : Prop :=
  StartsAheadOf .opened s a ∧ StartsAheadOf .closed s a

instance (side : Side) (s : Controller) (a : Input) : Decidable (StartsAheadOf side s a) :=
  inferInstanceAs (Decidable (∀ ev ∈ handled s a, _))

instance (s : Controller) (a : Input) : Decidable (StartsAhead s a) :=
  inferInstanceAs (Decidable (_ ∧ _))

def MovesAhead (side : Side) (s : Controller) : Prop := s.sm.state = side.motion → Ahead side s

/-- A pump that runs has its callbacks, so a committed hit is posted. -/
theorem posted_of_edge {s : Controller} {a : Input} {side : Side} (hs : Wired s)
    (hpump : s.stage = .pump) (h : side.edge s a = some true) : posted s a = some side.hit := by
  rcases hs with ⟨ho,hc,-⟩
  rw [hpump] at ho hc
  cases side with
  | opened =>
    cases a with
    | pollLimitOpen level =>
      have h : edgeOpen s (.pollLimitOpen level) = some true := h
      simp only [posted, ho, h, reportOf]
      rfl
    | _ => cases h
  | closed =>
    cases a with
    | pollLimitClosed level =>
      have h : edgeClosed s (.pollLimitClosed level) = some true := h
      simp only [posted, hc, h, reportOf]
      rfl
    | _ => cases h

/-- The hit of a side ends its motion and starts none of its kind. -/
theorem handle_hit (m : Machine) (side : Side) : (handle m side.hit).1.state ≠ side.motion := by
  rcases m with ⟨state,reason,clear⟩
  cases side <;> cases state <;> exact fun h => (by cases h)

theorem Quiet.limit {s t : Controller} {a : Input} (h : Quiet s a t) (side : Side) :
    (side.limit t).committed = (side.edge s a).getD (side.limit s).committed := by
  cases side with
  | opened => exact h.limitOpen
  | closed => exact h.limitClosed

theorem limit_runOp (s : Controller) (op : Op) (side : Side) :
    side.limit (s.runOp op) = side.limit s := by
  cases side with
  | opened => exact runOp_limitOpen s op
  | closed => exact runOp_limitClosed s op

theorem Move.movesAhead {cfg : Config} {s t : Controller} {a : Input} (hmove : Move cfg s a t)
    (hs : Sound s) (hdrop : NoDrop s a) {side : Side} (hstart : StartsAheadOf side s a)
    (h : MovesAhead side s) : MovesAhead side t := by
  intro hmov
  cases hmove with
  | quiet hq =>
    rw [hq.sm] at hmov
    have hpump : s.stage = .pump := hs.pump (by rw [hmov]; exact side.moving_motion)
    unfold Ahead
    rw [hq.limit, hq.queue]
    rcases h hmov with hfree | hhit
    · -- the only edge that matters is the one that reaches the limit
      cases he : side.edge s a with
      | none => exact Or.inl hfree
      | some v =>
        cases v with
        | false => exact Or.inl rfl
        | true => exact Or.inr (hdrop.mem (posted_of_edge hs.wired hpump he))
    · exact Or.inr (subset_offers _ _ _ hhit)
  | op hops =>
    unfold Ahead
    rw [limit_runOp, runOp_queue]
    refine (h (by simpa using hmov)).imp (fun hfree => ?_) fun hhit => subset_offers _ _ _ hhit
    cases side <;> exact hfree
  | prelatch hops hstage hb =>
    have hi := hs.coherent.unresolved (by rw [hstage]; rfl)
    rw [handle_tripped_initializing hi, hi] at hmov
    cases side <;> cases hmov
  | @resolve b next hops hnext hstage =>
    have hno := initFrom_not_moving b s.limitClosed.committed s.sm
    rw [Controller.resolveBootPosition] at hmov
    rw [hmov, side.moving_motion] at hno
    cases hno
  | @receive ev rest hstage hops hqueue =>
    have hne : ev ≠ side.hit := fun he => handle_hit s.sm side (he ▸ hmov)
    have hahead : Ahead side s := by
      by_cases hold : s.sm.state = side.motion
      · exact h hold
      · exact hstart ev (handled_receive hstage hops hqueue) hold hmov
    refine hahead.imp (fun hfree => ?_) fun hm => ?_
    · cases side <;> exact hfree
    · rw [hqueue, List.mem_cons] at hm
      exact hm.resolve_left fun he => hne he.symm

theorem run_movesAhead (cfg : Config) (lo lc bm : Bool) {as : List Input}
    (h : AllSteps (step cfg) (fun s a => NoDrop s a ∧ StartsAhead s a) (construct lo lc bm) as)
    (side : Side) : MovesAhead side (exec (step cfg) (construct lo lc bm) as) := by
  refine (exec_invariant_of (I:=fun s => Sound s ∧ MovesAhead side s) ?_ h
    ⟨construct_sound lo lc bm,fun hm => by cases side <;> cases hm⟩).2
  intro s a hC hs
  refine ⟨step_sound cfg s a hs.1,(step_move cfg s a).movesAhead hs.1 hC.1 ?_ hs.2⟩
  cases side with
  | opened => exact hC.2.1
  | closed => exact hC.2.2

/-- In every run that drops no post and starts each motion with the way ahead free, or
with the hit already queued, an energised contactor never pushes against its limit: the
limit is not committed, or its hit is queued, or the pending program is about to drop
the contactor. -/
theorem never_driven_into_limit (cfg : Config) (lo lc bm : Bool) (as : List Input)
    (h : AllSteps (step cfg) (fun s a => NoDrop s a ∧ StartsAhead s a) (construct lo lc bm) as) :
    let s := exec (step cfg) (construct lo lc bm) as
    (s.relayOpen.state = true → s.limitOpen.committed = false ∨ .limitOpenHit ∈ s.queue ∨
      .setRelayOpen false ∈ s.ops) ∧
    (s.relayClose.state = true → s.limitClosed.committed = false ∨ .limitClosedHit ∈ s.queue ∨
      .setRelayClose false ∈ s.ops) := by
  intro s
  have hs : Sound s := run_sound cfg lo lc bm as
  refine ⟨fun hr => ?_,fun hr => ?_⟩
  · rcases hs.coherent.opening_or_pending hr with hm | hp
    · rcases run_movesAhead cfg lo lc bm h .opened hm with hfree | hhit
      · exact Or.inl hfree
      · exact Or.inr (Or.inl hhit)
    · exact Or.inr (Or.inr hp)
  · rcases hs.coherent.closing_or_pending hr with hm | hp
    · rcases run_movesAhead cfg lo lc bm h .closed hm with hfree | hhit
      · exact Or.inl hfree
      · exact Or.inr (Or.inl hhit)
    · exact Or.inr (Or.inr hp)

/-- An opening run from the closed limit, which the gate leaves behind. -/
theorem never_driven_into_limit_opening :
    let as := boot ++ .command .open :: pumpOnce
    AllSteps (step {}) (fun s a => NoDrop s a ∧ StartsAhead s a) (construct true false false) as ∧
    (exec (step {}) (construct true false false) as).relayOpen.state = true ∧
    ((exec (step {}) (construct true false false) as).limitOpen.committed = false ∨
      .limitOpenHit ∈ (exec (step {}) (construct true false false) as).queue ∨
      .setRelayOpen false ∈ (exec (step {}) (construct true false false) as).ops) :=
  ⟨by decide,by decide,
    (never_driven_into_limit {} true false false (boot ++ .command .open :: pumpOnce)
      (by decide)).1 (by decide)⟩

/-- Opened, stopped and sent back before the closed limit released: the pump idles with
the close contactor on, the closed limit committed and nothing in the queue. -/
theorem driven_into_closed_limit :
    let as := boot ++ .command .open :: pumpOnce ++ .command .stop :: pumpOnce ++
      .command .close :: pumpOnce
    let s := exec (step {}) (construct true false false) as
    AllSteps (step {}) NoDrop (construct true false false) as ∧ s.Idle ∧
      s.relayClose.state = true ∧ s.limitClosed.committed = true ∧ s.queue = [] := by
  decide

end AlprGate.Control
