import AlprGate.Firmware.ControllerInvariant

/-! # The beam latch guards every close, and a fault guards every drive

Two history properties of whole runs. The last beam event the pump handled is kept
as a history variable; it agrees with the latch in every state, including those in
which the machine ignores all transitions. A faulted gate has to see a reset and
then a position proved by exactly one limit before anything energises a contactor.
-/
namespace AlprGate.Control
open StateMachine Drivers BoundedQueue PendingWrites Transition

/-- The last beam event handled, the boot pre-latch included. -/
def beamHandled (s : Controller) (a : Input) (last : Option Event) : Option Event :=
  if handled s a = some .safetyBeamTripped ∨ handled s a = some .safetyBeamCleared then handled s a
  else last

theorem beamHandled_none {s : Controller} {a : Input} (h : handled s a = none)
    (last : Option Event) : beamHandled s a last = last := by
  simp [beamHandled, h]

/-- The latch after an event is set exactly if the last beam event is a trip. -/
theorem latch_beamHandled {s : Controller} {a : Input} {ev : Event} (h : handled s a = some ev)
    {last : Option Event} {clear : Bool}
    (hc : clear = decide (last ≠ some .safetyBeamTripped)) :
    latch clear ev = decide (beamHandled s a last ≠ some .safetyBeamTripped) := by
  rw [hc, beamHandled, h]
  cases ev <;> simp [latch]

/-- The machine closes only with a clear latch. -/
theorem handle_closing {m : Machine} (hm : m.state = .closing → m.beamClear = true) (ev : Event)
    (h : (handle m ev).1.state = .closing) : (handle m ev).1.beamClear = true := by
  rcases handle_cases m ev with ⟨s,stored,reported,actions,he,hh⟩ | ⟨-,hh⟩ | ⟨hno,-,hh⟩
  · rw [hh] at h ⊢
    dsimp only at h ⊢
    rcases m with ⟨state,reason,clear⟩
    subst h
    cases he with
    | closeFromOpen hc => exact hc
    | resumeClose _ hc => exact hc
  · rw [hh] at h ⊢
    exact hm h
  · rw [hh] at h ⊢
    dsimp only at h ⊢
    rw [hm h]
    cases ev <;> first | rfl | skip
    rw [h] at hno
    exact absurd .beamStop (hno _ _ _ _)

structure LatchFits (p : Controller × Option Event) : Prop where
  last : p.1.sm.beamClear = decide (p.2 ≠ some .safetyBeamTripped)
  closing : p.1.sm.state = .closing → p.1.sm.beamClear = true

theorem construct_latchFits (lo lc bm : Bool) : LatchFits (construct lo lc bm,none) :=
  ⟨rfl,fun h => by cases h⟩

theorem Move.latchFits {cfg : Config} {s t : Controller} {a : Input} (hmove : Move cfg s a t)
    {last : Option Event} (hs : LatchFits (s,last)) :
    LatchFits (t,beamHandled s a last) := by
  rcases hs with ⟨hlast,hclosing⟩
  cases hmove with
  | quiet h =>
    rw [beamHandled_none h.calm.handled]
    exact ⟨by rw [h.sm]; exact hlast,by rw [h.sm]; exact hclosing⟩
  | op hops =>
    rw [beamHandled_none (handled_advance_eq_none fun h => by rw [hops] at h; cases h)]
    exact ⟨by rw [runOp_sm]; exact hlast,by rw [runOp_sm]; exact hclosing⟩
  | prelatch hops hstage hb =>
    refine ⟨?_,handle_closing hclosing _⟩
    dsimp only
    rw [handle_beamClear]
    exact latch_beamHandled (handled_prelatch hstage hops hb) hlast
  | @resolve b next hops hnext hstage =>
    have hno : s.stage ≠ .prelatch := by rcases hstage with h | h <;> rw [h] <;> simp
    rw [beamHandled_none (handled_advance_eq_none fun _ h => absurd h hno)]
    refine ⟨(initFrom_beamClear _ _ _).trans hlast,fun h => ?_⟩
    have hno := initFrom_not_moving b s.limitClosed.committed s.sm
    rw [Controller.resolveBootPosition] at h
    rw [h] at hno
    cases hno
  | receive hstage hops hqueue =>
    refine ⟨?_,handle_closing hclosing _⟩
    dsimp only
    rw [handle_beamClear]
    exact latch_beamHandled (handled_receive hstage hops hqueue) hlast

theorem run_latchFits (cfg : Config) (lo lc bm : Bool) (as : List Input) :
    LatchFits (exec (observe (step cfg) beamHandled) (construct lo lc bm,none) as) := by
  refine exec_invariant ?_ as (construct_latchFits lo lc bm)
  rintro ⟨s,last⟩ a hs
  exact (step_move cfg s a).latchFits hs

/-! ### After a fault -/

/-- The pump takes a fault reset off the queue. -/
def TakesReset (s : Controller) (a : Input) : Prop :=
  a = .receive ∧ handled s a = some .faultCleared

/-- `resolve_boot_position` finds exactly one limit active and the machine takes the
position it proves. -/
def ProvesPosition (cfg : Config) (s : Controller) (a : Input) : Prop :=
  a = .advance ∧ s.ops = [] ∧ ∃ openActive, (s.stage = .resolve openActive ∨
    s.stage = .pumpResolve openActive) ∧ openActive ≠ s.limitClosed.committed ∧
    (step cfg s a).sm.state = if openActive then .open else .closed

/-- Neither faulted nor initializing: some position has been proved. -/
def State.located : State → Bool
  | .faulted | .initializing => false
  | _ => true

theorem handle_faulted {m : Machine} (hm : m.state = .faulted) {ev : Event}
    (hev : ev ≠ .faultCleared) : (handle m ev).1.state = .faulted := by
  rcases m with ⟨state,reason,clear⟩
  cases hm
  cases ev <;> first | rfl | exact absurd rfl hev

theorem handle_reset {m : Machine} (hm : m.state = .faulted) :
    (handle m .faultCleared).1.state = .initializing := by
  rcases m with ⟨state,reason,clear⟩
  cases hm
  rfl

theorem handle_initializing {m : Machine} (hm : m.state = .initializing) (ev : Event) :
    (handle m ev).1.state = .initializing := by
  rcases m with ⟨state,reason,clear⟩
  cases hm
  cases ev <;> rfl

theorem Move.of_faulted {cfg : Config} {s t : Controller} {a : Input} (hmove : Move cfg s a t)
    (hco : Coherent s) (hs : s.sm.state = .faulted) :
    t.sm.state = .faulted ∨ (TakesReset s a ∧ t.sm.state = .initializing) := by
  have hres : s.stage.unresolved = false := by
    rcases Bool.eq_false_or_eq_true s.stage.unresolved with h | h
    · have := hco.unresolved h
      rw [hs] at this
      cases this
    · exact h
  cases hmove with
  | quiet h => exact Or.inl (by rw [h.sm]; exact hs)
  | op hops => exact Or.inl (by rw [runOp_sm]; exact hs)
  | prelatch hops hstage hb =>
    rw [hstage] at hres
    cases hres
  | resolve hops hnext hstage => rcases hstage with h | h <;> (rw [h] at hres; cases hres)
  | @receive ev rest hstage hops hqueue =>
    by_cases hev : ev = .faultCleared
    · subst hev
      exact Or.inr ⟨⟨rfl,handled_receive hstage hops hqueue⟩,handle_reset hs⟩
    · exact Or.inl (handle_faulted hs hev)

/-- An initializing machine waits for a position; two limits that agree prove none. -/
theorem step_of_initializing (cfg : Config) {s : Controller} (a : Input)
    (hs : s.sm.state = .initializing) :
    State.located (step cfg s a).sm.state = false ∨ ProvesPosition cfg s a := by
  suffices h : ∀ t, Move cfg s a t → t = step cfg s a →
      State.located t.sm.state = false ∨ ProvesPosition cfg s a from h _ (step_move cfg s a) rfl
  intro t hmove ht
  cases hmove with
  | quiet h => exact Or.inl (by rw [h.sm, hs]; rfl)
  | op hops => exact Or.inl (by rw [runOp_sm]; simp only [hs]; rfl)
  | prelatch hops hstage hb => exact Or.inl (by simp only [handle_initializing hs]; rfl)
  | @resolve b next hops hnext hstage =>
    rcases initFrom_cases b s.limitClosed.committed s.sm with ⟨ho,hc,hi⟩ | ⟨ho,hc,hi⟩ | ⟨-,hi⟩
    · refine Or.inr ⟨rfl,hops,b,hstage,by rw [ho, hc]; decide,?_⟩
      rw [← ht, Controller.resolveBootPosition, hi, ho]
      rfl
    · refine Or.inr ⟨rfl,hops,b,hstage,by rw [ho, hc]; decide,?_⟩
      rw [← ht, Controller.resolveBootPosition, hi, ho]
      rfl
    · exact Or.inl (by rw [Controller.resolveBootPosition, hi]; rfl)
  | receive hstage hops hqueue => exact Or.inl (by simp only [handle_initializing hs]; rfl)

/-- Between a fault and the next proved position lie a reset and a later reading of
exactly one active limit. -/
theorem exec_of_faulted (cfg : Config) {s : Controller} (hco : Coherent s) (bs : List Input)
    (hend : State.located (exec (step cfg) s bs).sm.state = true) :
    (s.sm.state = .faulted → After (step cfg) TakesReset
      (After (step cfg) (ProvesPosition cfg) fun _ _ => True) s bs) ∧
    (s.sm.state = .initializing → After (step cfg) (ProvesPosition cfg) (fun _ _ => True) s bs) := by
  induction bs generalizing s with
  | nil =>
    rw [exec_nil] at hend
    refine ⟨fun h => ?_,fun h => ?_⟩
    · rw [h] at hend
      cases hend
    · rw [h] at hend
      cases hend
  | cons a bs ih =>
    obtain ⟨ihf,ihi⟩ := ih ((step_move cfg s a).coherent hco) hend
    refine ⟨fun hs => ?_,fun hs => ?_⟩
    · rcases (step_move cfg s a).of_faulted hco hs with ht | ⟨htake,ht⟩
      · exact Or.inr (ihf ht)
      · exact Or.inl ⟨htake,ihi ht⟩
    · rcases step_of_initializing cfg a hs with ht | hproves
      · right
        -- either still initializing, or faulted again by two limits that agree
        cases hst : (step cfg s a).sm.state with
        | initializing => exact ihi hst
        | faulted => exact (ihf hst).right
        | _ =>
          rw [hst] at ht
          cases ht
      · exact Or.inl ⟨hproves,trivial⟩

/-- In every run the close contactor is on only while the last beam event handled is
not a trip, up to the pending write that drops it, and it is switched on only then.
After a fault no contactor is switched on before a reset was taken and a later
resolution read exactly one limit active, which is then the machine's state. -/
theorem close_needs_clear_beam_and_fault_needs_reset (cfg : Config) (lo lc bm : Bool)
    (as : List Input) :
    let p := exec (observe (step cfg) beamHandled) (construct lo lc bm,none) as
    (p.1.relayClose.state = true →
      p.2 ≠ some .safetyBeamTripped ∨ .setRelayClose false ∈ p.1.ops) ∧
    (.setRelayClose true ∈ p.1.ops → p.2 ≠ some .safetyBeamTripped) ∧
    (p.1.sm.state = .faulted → ∀ bs op rest,
      (exec (step cfg) p.1 bs).ops = op :: rest →
      op = .setRelayOpen true ∨ op = .setRelayClose true →
      After (step cfg) TakesReset
        (After (step cfg) (ProvesPosition cfg) fun _ _ => True) p.1 bs) := by
  intro p
  have hl : LatchFits p := run_latchFits cfg lo lc bm as
  have hp : p.1 = exec (step cfg) (construct lo lc bm) as := exec_observe_fst _ _ _
  have hs : Sound p.1 := hp ▸ run_sound cfg lo lc bm as
  have hclear : p.1.sm.state = .closing → p.2 ≠ some .safetyBeamTripped := fun h =>
    of_decide_eq_true (hl.last ▸ hl.closing h)
  refine ⟨fun h => ?_,fun h => hclear ?_,fun hf bs op rest hops hop => ?_⟩
  · exact (hs.coherent.closing_or_pending h).imp hclear id
  · rcases hs.motion _ h with hm | hm
    · cases hm
    · exact (Option.some.inj hm).symm
  · refine (exec_of_faulted cfg hs.coherent bs ?_).1 hf
    have hm := (exec_invariant (step_sound cfg) bs hs).motion op
      (by rw [hops]; exact List.mem_cons_self)
    rcases hop with rfl | rfl
    · rcases hm with hm | hm
      · cases hm
      · rw [← Option.some.inj hm]
        rfl
    · rcases hm with hm | hm
      · cases hm
      · rw [← Option.some.inj hm]
        rfl

end AlprGate.Control
