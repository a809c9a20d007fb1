import AlprGate.Server.BroadcastRuns

/-! # After the broadcaster has been stopped

`stop` sets a flag, takes the subscribers off the list under the lock and closes them one by one;
a second call finds the flag set and returns at once. `publish` and `subscribe` test the flag
before they take the lock. A watch records whether some call of `stop` has returned, and which
events were assigned an id or put into a queue since. Nothing happens behind a returned `stop` in
the runs in which no call is caught between its test and its lock.
-/
namespace AlprGate.Dash
open Transition

/-- An envelope that is offered is queued. -/
def Subscription.takes (p : Subscription) (env : EventEnvelope) : Bool :=
  !p.closed && filterMatches p.filter env.siteId env.gateId env.event

/-- `late` holds the events of the steps taken after some call of `stop` had returned. -/
structure StopWatch where
  returned : Bool := false
  late : List DashboardEvent := []
  deriving DecidableEq, Repr

def StopWatch.see (w : StopWatch) (es : List DashboardEvent) : StopWatch :=
  if w.returned = true then { w with late := w.late ++ es } else w

namespace Hub

/-- What the watch sees of a step. -/
def watch (s : Hub) (a : HubInput) (w : StopWatch) : StopWatch :=
  match a with
  | .assign t =>
    match s.publisher t with
    | .checked siteId gateId payload => w.see [(s.bus.envelope siteId gateId payload).event]
    | _ => w
  | .serve t =>
    match s.publisher t with
    | .serving env (i :: _) => if (s.bus.sub i).takes env = true then w.see [env.event] else w
    | _ => w
  | .register i =>
    match s.asked i with
    | some filter => w.see (s.bus.owed filter)
    | none => w
  -- the flag was set before: this call returns here
  | .stop => if s.bus.stopped = true then { w with returned := true } else w
  | .closeNext => if s.stopper = .closing [] then { w with returned := true } else w
  | _ => w

/-- No call is caught between its test of the flag and its lock: no publisher is there when `stop`
returns, a subscriber takes the lock before `stop` has taken it, and `stop` is not called again
before it has returned. -/
def Timely (s : Hub) : HubInput → Prop
  | .closeNext => s.stopper = .closing [] →
      ∀ t siteId gateId payload, s.publisher t ≠ .checked siteId gateId payload
  | .register i => s.asked i ≠ none → s.stopper = .idle ∨ s.stopper = .flagged
  | .stop => s.bus.stopped = true → s.stopper = .returned
  | _ => True

/-- The list of subscribers has been taken. -/
def Stopper.collected : Stopper → Prop
  | .closing _ | .returned => True
  | _ => False

/-- What holds in every state of a run of timely steps. -/
structure Settled (p : Hub × StopWatch) : Prop where
  sane : p.1.Sane
  subs : ∀ i ∈ p.1.bus.subs, i ∈ p.1.handles
  targets : ∀ t env targets, p.1.publisher t = .serving env targets → ∀ i ∈ targets, i ∈ p.1.handles
  unlisted : Stopper.collected p.1.stopper → p.1.bus.subs = []
  drained : p.1.stopper = .returned →
    ∀ t siteId gateId payload, p.1.publisher t ≠ .checked siteId gateId payload
  returned : p.2.returned = true → p.1.stopper = .returned
  late : p.2.late = []

section Settled
variable {s : Hub} {w : StopWatch}

/-- Behind a `stop` that has returned every subscription is closed. -/
theorem Settled.closed (h : Settled (s, w)) (hreturned : s.stopper = .returned) {i : ℕ}
    (hi : i ∈ s.handles) : (s.bus.sub i).closed = true := by
  rcases h.sane.listed i hi with hlisted | hclosed | ⟨rest,hclosing,-⟩
  · rw [h.unlisted (by rw [hreturned]; trivial)] at hlisted
    cases hlisted
  · exact hclosed
  · rw [hreturned] at hclosing
    cases hclosing

/-- The watch sees nothing before a call of `stop` has returned. -/
theorem see_of_running {es : List DashboardEvent} (h : w.returned = false) : w.see es = w := by
  rw [StopWatch.see, h]
  rfl

theorem Settled.running (h : Settled (s, w)) (hrunning : s.stopper ≠ .returned) :
    w.returned = false :=
  Bool.eq_false_of_not_eq_true fun hreturned => hrunning (h.returned hreturned)

/-- A step that leaves the publishers, the handles and the list of subscribers alone. -/
theorem Settled.of_quiet {s' : Hub} (h : Settled (s, w)) (hsane : s'.Sane)
    (hsubs : s'.bus.subs = s.bus.subs) (hpublisher : s'.publisher = s.publisher)
    (hhandles : s'.handles = s.handles) (hstopper : s'.stopper = s.stopper) :
    Settled (s', w) where
  sane := hsane
  subs := by
    rw [hsubs, hhandles]
    exact h.subs
  targets := by
    rw [hpublisher, hhandles]
    exact h.targets
  unlisted := by
    rw [hstopper, hsubs]
    exact h.unlisted
  drained := by
    rw [hstopper, hpublisher]
    exact h.drained
  returned := by
    rw [hstopper]
    exact h.returned
  late := h.late

/-- A step that does nothing unless its guard holds. -/
theorem Settled.of_guarded {c : Prop} [Decidable c] {s' : Hub} (h : Settled (s, w))
    (hsane : (if c then s' else s).Sane) (hstep : c → s'.Sane → Settled (s', w)) :
    Settled (if c then s' else s, w) := by
  split at hsane
  · rename_i hc
    rw [if_pos hc]
    exact hstep hc hsane
  · rename_i hc
    rw [if_neg hc]
    exact h

/-- One publisher moves on; its targets are handles, and behind `stop` it does not wait for the
lock. -/
theorem Settled.of_publisher {t : ℕ} {p : Publisher} {b : Bus} (h : Settled (s, w))
    (hsane : Sane { s with bus := b, publisher := Function.update s.publisher t p })
    (hsubs : b.subs ⊆ s.bus.subs) (hp : ∀ env targets, p = .serving env targets →
      ∀ i ∈ targets, i ∈ s.handles)
    (hdrained : s.stopper = .returned → ∀ siteId gateId payload, p ≠ .checked siteId gateId payload) :
    Settled ({ s with bus := b, publisher := Function.update s.publisher t p }, w) where
  sane := hsane
  subs := fun i hi => h.subs i (hsubs hi)
  targets := by
    intro t' env targets hserving
    by_cases ht : t' = t
    · subst ht
      exact hp env targets ((Function.update_self ..).symm.trans hserving)
    · exact h.targets t' env targets ((Function.update_of_ne ht ..).symm.trans hserving)
  unlisted := by
    intro hcollected
    exact List.subset_nil.mp (h.unlisted hcollected ▸ hsubs)
  drained := by
    intro hreturned t' siteId gateId payload hchecked
    by_cases ht : t' = t
    · subst ht
      exact hdrained hreturned _ _ _ ((Function.update_self ..).symm.trans hchecked)
    · exact h.drained hreturned t' _ _ _ ((Function.update_of_ne ht ..).symm.trans hchecked)
  returned := h.returned
  late := h.late

theorem Settled.assign (h : Settled (s, w)) (t : ℕ) :
    Settled (observe step watch (s, w) (.assign t)) := by
  have hsane := h.sane.step (.assign t)
  unfold watch
  simp only [observe, step, Hub.assign] at hsane ⊢
  cases hpublisher : s.publisher t with
  | idle => exact h
  | serving env targets => exact h
  | checked siteId gateId payload =>
    simp only [hpublisher] at hsane
    simp only
    have hrunning : s.stopper ≠ .returned := fun hreturned =>
      h.drained hreturned t siteId gateId payload hpublisher
    rw [see_of_running (h.running hrunning)]
    have hlive : s.bus.live ⊆ s.bus.subs := List.filter_sublist.subset
    refine h.of_publisher hsane hlive ?_ fun _ _ _ _ hchecked => by cases hchecked
    intro env targets hserving i hi
    cases hserving
    exact h.subs i (hlive hi)

theorem Settled.serve (h : Settled (s, w)) (t : ℕ) :
    Settled (observe step watch (s, w) (.serve t)) := by
  have hsane := h.sane.step (.serve t)
  unfold watch
  simp only [observe, step, Hub.serve] at hsane ⊢
  cases hpublisher : s.publisher t with
  | idle => exact h
  | checked siteId gateId payload => exact h
  | serving env targets =>
    cases targets with
    | nil =>
      simp only [hpublisher] at hsane
      exact h.of_publisher hsane (List.Subset.refl _) (fun env targets hserving => by cases hserving)
        fun _ _ _ _ hchecked => by cases hchecked
    | cons i rest =>
      have htargets := h.targets t env (i :: rest) hpublisher
      simp only [hpublisher] at hsane
      have hquiet : (if (s.bus.sub i).takes env = true then w.see [env.event] else w) = w := by
        split
        · rename_i htakes
          -- a subscription that takes events is open, so `stop` has not returned
          refine see_of_running (h.running fun hreturned => ?_)
          have hclosed := h.closed hreturned (htargets i List.mem_cons_self)
          simp [Subscription.takes, hclosed] at htakes
        · rfl
      simp only [hquiet]
      refine h.of_publisher hsane (List.Subset.refl _) ?_ fun _ _ _ _ hchecked => by cases hchecked
      intro env' targets hserving j hj
      cases hserving
      exact htargets j (List.mem_cons_of_mem i hj)

theorem Settled.register (h : Settled (s, w)) {i : ℕ} (htimely : Timely s (.register i)) :
    Settled (observe step watch (s, w) (.register i)) := by
  have hsane := h.sane.step (.register i)
  unfold watch
  simp only [observe, step, Hub.register] at hsane ⊢
  cases hasked : s.asked i with
  | none => exact h
  | some filter =>
    have hearly := htimely (by rw [hasked]; exact Option.some_ne_none filter)
    have hrunning : s.stopper ≠ .returned := by
      intro hreturned
      rcases hearly with hidle | hflagged
      · rw [hreturned] at hidle
        cases hidle
      · rw [hreturned] at hflagged
        cases hflagged
    simp only [hasked] at hsane
    simp only
    rw [see_of_running (h.running hrunning)]
    exact {
      sane := hsane
      subs := by
        intro j hj
        rcases List.mem_append.mp hj with hj | hj
        · exact List.mem_append_left _ (h.subs j hj)
        · exact List.mem_append_right _ hj
      targets := fun t env targets hserving j hj =>
        List.mem_append_left _ (h.targets t env targets hserving j hj)
      unlisted := by
        intro hcollected
        rcases hearly with hidle | hflagged
        · rw [hidle] at hcollected
          exact hcollected.elim
        · rw [hflagged] at hcollected
          exact hcollected.elim
      drained := fun hreturned => absurd hreturned hrunning
      returned := h.returned
      late := h.late }

theorem Settled.stop (h : Settled (s, w)) (htimely : Timely s .stop) :
    Settled (observe step watch (s, w) .stop) := by
  have hsane := h.sane.step .stop
  unfold watch
  simp only [observe, step, Hub.stop] at hsane ⊢
  cases hstopped : s.bus.stopped with
  | true => exact { h with returned := fun _ => htimely hstopped }
  | false =>
    have hidle := h.sane.running hstopped
    simp only [hstopped, Bool.false_eq_true, ↓reduceIte] at hsane ⊢
    exact {
      sane := hsane
      subs := h.subs
      targets := h.targets
      unlisted := fun hcollected => hcollected.elim
      drained := fun hreturned => by cases hreturned
      returned := fun hreturned => by
        have hnot := h.returned hreturned
        rw [hidle] at hnot
        cases hnot
      late := h.late }

theorem Settled.collect (h : Settled (s, w)) : Settled (observe step watch (s, w) .collect) := by
  have hsane := h.sane.step .collect
  unfold watch
  simp only [observe, step, Hub.collect] at hsane ⊢
  by_cases hflagged : s.stopper = .flagged
  · simp only [if_pos hflagged] at hsane ⊢
    exact {
      sane := hsane
      subs := fun i hi => absurd hi List.not_mem_nil
      targets := h.targets
      unlisted := fun _ => rfl
      drained := fun hreturned => by cases hreturned
      returned := fun hreturned => by
        have hnot := h.returned hreturned
        rw [hflagged] at hnot
        cases hnot
      late := h.late }
  · simp only [if_neg hflagged]
    exact h

theorem Settled.closeNext (h : Settled (s, w)) (htimely : Timely s .closeNext) :
    Settled (observe step watch (s, w) .closeNext) := by
  have hsane := h.sane.step .closeNext
  unfold watch
  simp only [observe, step, Hub.closeNext] at hsane ⊢
  cases hstopper : s.stopper with
  | idle => exact h
  | flagged => exact h
  | returned => exact h
  | closing rest =>
    have hunlisted := h.unlisted (by rw [hstopper]; trivial)
    cases rest with
    | nil =>
      simp only [hstopper] at hsane
      exact { h with
        sane := hsane
        unlisted := fun _ => hunlisted
        drained := fun _ => htimely hstopper
        returned := fun _ => rfl }
    | cons i rest =>
      simp only [hstopper] at hsane
      exact { h with
        sane := hsane
        unlisted := fun _ => hunlisted
        drained := fun hreturned => by cases hreturned
        returned := fun hreturned => by
          have hnot := h.returned hreturned
          rw [hstopper] at hnot
          cases hnot }

theorem Settled.step (h : Settled (s, w)) {a : HubInput} (htimely : Timely s a) :
    Settled (observe Hub.step watch (s, w) a) := by
  have hsane := h.sane.step a
  cases a with
  | publish t siteId gateId payload =>
    unfold watch
    simp only [observe, Hub.step, Hub.publish] at hsane ⊢
    refine h.of_guarded hsane fun hguard hsane => ?_
    -- the flag is set when `stop` has returned, so this publisher was in time
    refine h.of_publisher hsane (List.Subset.refl _) (fun env targets hserving => by cases hserving)
      fun hreturned => ?_
    have hidle := h.sane.running hguard.2
    rw [hreturned] at hidle
    cases hidle
  | assign t => exact h.assign t
  | serve t => exact h.serve t
  | subscribe i filter =>
    unfold watch
    simp only [observe, Hub.step, Hub.subscribe] at hsane ⊢
    exact h.of_guarded hsane fun _ hsane => h.of_quiet hsane rfl rfl rfl rfl
  | register i => exact h.register htimely
  | next i => exact h.of_quiet hsane rfl rfl rfl rfl
  | drainNow i => exact h.of_quiet hsane rfl rfl rfl rfl
  | close i =>
    unfold watch
    simp only [observe, Hub.step, Hub.close] at hsane ⊢
    exact h.of_guarded hsane fun _ hsane => h.of_quiet hsane rfl rfl rfl rfl
  | destroy i =>
    unfold watch
    simp only [observe, Hub.step, Hub.destroy] at hsane ⊢
    exact h.of_guarded hsane fun _ hsane => h.of_quiet hsane rfl rfl rfl rfl
  | stop => exact h.stop htimely
  | collect => exact h.collect
  | closeNext => exact h.closeNext htimely

end Settled

theorem Settled.fresh (ringCapacity perSubCapacity : ℕ) :
    Settled (Hub.fresh ringCapacity perSubCapacity, {}) where
  sane := Sane.fresh ringCapacity perSubCapacity
  subs := fun i hi => absurd hi List.not_mem_nil
  targets := fun t env targets hserving => by cases hserving
  unlisted := fun _ => rfl
  drained := fun hreturned => by cases hreturned
  returned := fun hreturned => by cases hreturned
  late := rfl

/-- A run under watch. -/
def watched (ringCapacity perSubCapacity : ℕ) (as : List HubInput) : Hub × StopWatch :=
  exec (observe step watch) (Hub.fresh ringCapacity perSubCapacity, {}) as

/-- In every run of timely steps, once some call of `stop` has returned no event is assigned an
id or put into a queue, and every subscription ever handed out is closed. -/
theorem stop_is_final (ringCapacity perSubCapacity : ℕ) (as : List HubInput)
    (h : AllSteps step Timely (Hub.fresh ringCapacity perSubCapacity) as) :
    let p := watched ringCapacity perSubCapacity as
    p.2.late = [] ∧
      (p.2.returned = true → ∀ i ∈ p.1.handles, (p.1.bus.sub i).closed = true) := by
  intro p
  have hsteps : AllSteps (observe step watch) (fun q a => Timely q.1 a)
      (Hub.fresh ringCapacity perSubCapacity, {}) as := AllSteps.observe watch h
  have hsettled : Settled p :=
    exec_invariant_of (fun q a htimely hq => hq.step htimely) hsteps
      (Settled.fresh ringCapacity perSubCapacity)
  exact ⟨hsettled.late,fun hreturned i hi => hsettled.closed (hsettled.returned hreturned) hi⟩

/-- A subscriber and an event, then `stop`; a publisher that is still serving does no harm. -/
theorem stop_is_final_while_serving :
    let p := watched 4 4 [.subscribe 0 {}, .register 0, .publish 0 "" "" .ack, .assign 0, .stop,
      .collect, .closeNext, .closeNext, .serve 0, .serve 0]
    p.2.returned = true ∧ p.2.late = [] ∧ (p.1.bus.sub 0).closed = true := by
  intro p
  -- the publisher serves, and the others have not come
  have hserving : ∀ t siteId gateId payload, (exec step (Hub.fresh 4 4) [.subscribe 0 {},
      .register 0, .publish 0 "" "" .ack, .assign 0, .stop, .collect, .closeNext]).publisher t ≠
        .checked siteId gateId payload := by
    intro t siteId gateId payload hchecked
    cases t with
    | zero => cases hchecked
    | succ t => cases hchecked
  have h := stop_is_final 4 4 [.subscribe 0 {}, .register 0, .publish 0 "" "" .ack, .assign 0,
    .stop, .collect, .closeNext, .closeNext, .serve 0, .serve 0]
    ⟨trivial,fun _ => Or.inl rfl,trivial,trivial,
      fun hstopped => absurd hstopped Bool.false_ne_true,trivial,fun hclosing => (by cases hclosing),
      fun _ => hserving,trivial,trivial,trivial⟩
  have hreturned : p.2.returned = true := rfl
  exact ⟨hreturned,h.1,h.2 hreturned 0 (by decide)⟩

/-- A publisher and a subscriber that tested the flag before `stop` take the lock after it has
returned: an id is assigned, and a subscription is handed out that is never closed. A second
call of `stop` returns while the first has closed nobody yet. -/
theorem stop_leaves_calls_behind :
    let publishing := watched 4 4 [.publish 0 "" "" .ack, .stop, .collect, .closeNext, .assign 0]
    let subscribing := watched 4 4 [.subscribe 0 {}, .stop, .collect, .closeNext, .register 0]
    let twice := watched 4 4 [.subscribe 0 {}, .register 0, .stop, .stop]
    (publishing.2.returned = true ∧ publishing.2.late = [⟨1,.ack⟩]) ∧
    (subscribing.2.returned = true ∧ 0 ∈ subscribing.1.handles ∧
      (subscribing.1.bus.sub 0).closed = false) ∧
    (twice.2.returned = true ∧ 0 ∈ twice.1.handles ∧ (twice.1.bus.sub 0).closed = false) :=
  ⟨⟨rfl,rfl⟩,⟨rfl,by decide,rfl⟩,⟨rfl,by decide,rfl⟩⟩

end Hub
end AlprGate.Dash
