import AlprGate.Server.BroadcastRuns

/-! # The order of events at a subscriber

An id is assigned under one lock and delivered under another, so two publish calls may
reach a subscriber in either order. Where every subscriber is served in the order of the
ids, it takes its events in that order.
-/
namespace AlprGate.Dash
open BoundedQueue SnapshotFanout Transition

namespace View
variable {T : Type*} [DecidableEq T] {v w : View T} {l : Option T} {i : ℕ}

/-- What the subscriber took and has queued is in the order of the ids, below everything that
is still to be served to it. -/
structure InOrder (v : View T) (i : ℕ) : Prop where
  ascending : (v.ledger.taken i ++ (v.bus.sub i).queue).Pairwise fun e e' => e.eventId < e'.eventId
  assigned : ∀ e ∈ v.ledger.taken i ++ (v.bus.sub i).queue, e.eventId < v.bus.nextEventId
  below : ∀ t env, v.Serves t i env → ∀ e ∈ v.ledger.taken i ++ (v.bus.sub i).queue,
    e.eventId < env.id

omit [DecidableEq T] in
/-- No two publish calls have the same id. -/
theorem Tidy.serves_single (h : Tidy v) {t t' : T} {env env' : EventEnvelope} {targets targets' : List ℕ}
    (hserving : v.publisher t = .serving env targets)
    (hserving' : v.publisher t' = .serving env' targets') (hid : env.id = env'.id) : t = t' := by
  have hjob : v.fanout.job t = some (env, targets) := congrArg Publisher.job hserving
  have hjob' : v.fanout.job t' = some (env', targets') := congrArg Publisher.job hserving'
  have henv : env = env' := h.sound.key_injective (h.sound.job t env targets hjob).1
    (h.sound.job t' env' targets' hjob').1 hid
  subst henv
  exact h.sound.single t t' env targets targets' hjob hjob'

/-- No other publish call with a smaller id has the subscriber still to serve. -/
def Earliest (v : View T) (t : T) : Prop :=
  ∀ env i rest, v.publisher t = .serving env (i :: rest) →
    ∀ t' env', v.Serves t' i env' → env.id ≤ env'.id

omit [DecidableEq T] in
/-- Nothing was taken, queued or assigned, and nobody has more to serve. -/
theorem InOrder.of_same (h : InOrder v i)
    (hlist : w.ledger.taken i ++ (w.bus.sub i).queue = v.ledger.taken i ++ (v.bus.sub i).queue)
    (hnext : w.bus.nextEventId = v.bus.nextEventId)
    (hserves : ∀ t env, w.Serves t i env → v.Serves t i env) : InOrder w i := by
  refine ⟨?_,?_,?_⟩
  · rw [hlist]
    exact h.ascending
  · rw [hlist, hnext]
    exact h.assigned
  · intro t env hserving
    rw [hlist]
    exact h.below t env (hserves t env hserving)

omit [DecidableEq T] in
theorem InOrder.quiet (h : InOrder v i) (hquiet : v.Quiet w) : InOrder w i := by
  refine h.of_same ?_ hquiet.nextEventId ?_
  · rw [hquiet.ledger, (hquiet.sub i).queue]
  · rintro t env ⟨targets,hserving,hi⟩
    have hjob := congrFun hquiet.job t
    simp only [Function.comp_apply, hserving, Publisher.job] at hjob
    exact ⟨targets,Publisher.job_eq_some hjob.symm,hi⟩

theorem InOrder.assign (h : InOrder v i) {t : T} {siteId gateId : String} {payload : Payload} :
    InOrder { v with
      bus := v.bus.assign siteId gateId payload
      publisher := Function.update v.publisher t
        (.serving (v.bus.envelope siteId gateId payload) v.bus.live)
      ledger := v.ledger.noteAssign v.bus (.checked siteId gateId payload) } i := by
  refine ⟨h.ascending,?_,?_⟩
  · intro e he
    exact (h.assigned e he).trans (Nat.lt_succ_self _)
  · rintro t' env ⟨targets,hserving,hi⟩ e he
    by_cases ht : t' = t
    · subst ht
      simp only [Function.update_self] at hserving
      cases hserving
      exact h.assigned e he
    · simp only [Function.update_of_ne ht] at hserving
      exact h.below t' env ⟨targets,hserving,hi⟩ e he

/-- The queue grows at the end, by the smallest id that is due. -/
theorem InOrder.serve (h : InOrder v i) (htidy : Tidy v) {t : T} {env : EventEnvelope} {j : ℕ}
    {rest : List ℕ} (hserving : v.publisher t = .serving env (j :: rest)) (hearliest : Earliest v t) :
    InOrder { v with
      bus := v.bus.deliver env j
      publisher := Function.update v.publisher t (.serving env rest)
      ledger := v.ledger.noteServe (.serving env (j :: rest)) } i := by
  obtain ⟨hlog,hnodup,_⟩ := htidy.sound.job t env (j :: rest) (congrArg Publisher.job hserving)
  -- who still has to serve `i` had to before, and is not `t` if `i` is being served
  have hserves : ∀ t' env', View.Serves { v with
      publisher := Function.update v.publisher t (.serving env rest) } t' i env' →
      v.Serves t' i env' ∧ (i = j → env.id < env'.id) := by
    rintro t' env' ⟨targets,hserving',hi⟩
    by_cases ht : t' = t
    · subst ht
      simp only [Function.update_self] at hserving'
      cases hserving'
      refine ⟨⟨_,hserving,List.mem_cons_of_mem j hi⟩,?_⟩
      rintro rfl
      exact absurd hi (List.nodup_cons.mp hnodup).1
    · simp only [Function.update_of_ne ht] at hserving'
      refine ⟨⟨targets,hserving',hi⟩,?_⟩
      rintro rfl
      refine lt_of_le_of_ne (hearliest env i rest hserving t' env' ⟨targets,hserving',hi⟩) ?_
      intro hid
      exact ht (htidy.serves_single hserving' hserving hid.symm)
  by_cases hij : i = j
  · subst hij
    have hsub : (v.ledger.taken i ++ ((v.bus.sub i).offer env).queue).Sublist
        (v.ledger.taken i ++ (v.bus.sub i).queue ++ [env.event]) := by
      rw [List.append_assoc]
      exact (offer_queue_sublist (v.bus.sub i) env).append_left _
    have hbelow := h.below t env ⟨_,hserving,List.mem_cons_self⟩
    have hnew : ∀ e ∈ v.ledger.taken i ++ ((v.bus.sub i).offer env).queue,
        e.eventId < env.id ∨ e = env.event := by
      intro e he
      rcases List.mem_append.mp (hsub.subset he) with he | he
      · exact Or.inl (hbelow e he)
      · exact Or.inr (List.mem_singleton.mp he)
    refine ⟨?_,?_,?_⟩
    · simp only [Bus.deliver, Ledger.noteServe, Function.update_self]
      refine List.Pairwise.sublist hsub (List.pairwise_append.mpr
        ⟨h.ascending,List.pairwise_singleton _ _,?_⟩)
      intro e he e' he'
      rw [List.mem_singleton.mp he']
      exact hbelow e he
    · simp only [Bus.deliver, Ledger.noteServe, Function.update_self]
      intro e he
      have hassigned := htidy.lt_next hlog
      rcases hnew e he with he | rfl
      · exact he.trans hassigned
      · exact hassigned
    · intro t' env' hserves'
      obtain ⟨hbefore,hlater⟩ := hserves t' env' hserves'
      simp only [Bus.deliver, Ledger.noteServe, Function.update_self]
      intro e he
      rcases hnew e he with he | rfl
      · exact he.trans (hlater rfl)
      · exact hlater rfl
  · refine h.of_same ?_ rfl fun t' env' hserves' => (hserves t' env' hserves').1
    simp only [Ledger.noteServe, Bus.deliver, Function.update_of_ne hij]

theorem InOrder.finish (h : InOrder v i) (t : T) :
    InOrder { v with publisher := Function.update v.publisher t .idle } i := by
  refine h.of_same rfl rfl ?_
  rintro t' env ⟨targets,hserving,hi⟩
  by_cases ht : t' = t
  · subst ht
    simp only [Function.update_self] at hserving
    cases hserving
  · simp only [Function.update_of_ne ht] at hserving
    exact ⟨targets,hserving,hi⟩

omit [DecidableEq T] in
/-- A new subscriber starts with ids from the ring, and nobody serves it yet. -/
theorem InOrder.register (h : InOrder v i) (htidy : Tidy v) {j : ℕ}
    (filter : DashboardSubscription) (hnew : j ∉ v.known) :
    InOrder { v with bus := v.bus.subscribe j filter, known := insert j v.known } i := by
  by_cases hij : i = j
  · subst hij
    have hempty := htidy.unknown i hnew
    obtain ⟨hring,hnext⟩ := htidy.ring_ascending
    have hsub := queued_subscribe v.bus i filter
    refine ⟨?_,?_,?_⟩
    · have hqueued := List.Pairwise.sublist hsub hring
      simpa [hempty.1, Bus.queued, List.pairwise_map] using hqueued
    · intro e he
      simp only [hempty.1, List.nil_append] at he
      exact hnext _ (hsub.subset (List.mem_map_of_mem he))
    · intro t env hserves
      exact absurd hserves (htidy.not_serves hnew t env)
  · refine h.of_same ?_ rfl fun _ _ => id
    simp only [Bus.subscribe, Function.update_of_ne hij]

omit [DecidableEq T] in
theorem InOrder.take (h : InOrder v i) (j n : ℕ) :
    InOrder { v with
      bus := v.bus.takeFirst j n
      ledger := v.ledger.noteTake j ((v.bus.sub j).queue.take n) } i := by
  -- what is taken moves from one list to the end of the other
  refine h.of_same ?_ rfl fun _ _ => id
  by_cases hij : i = j
  · subst hij
    simp only [Ledger.noteTake, Bus.takeFirst, Function.update_self, List.append_assoc,
      List.take_append_drop]
  · simp only [Ledger.noteTake, Bus.takeFirst, Function.update_of_ne hij]

theorem InOrder.move (h : InOrder v i) (htidy : Tidy v) (hmove : Move v l w)
    (hearliest : ∀ t, l = some t → Earliest v t) : InOrder w i := by
  cases hmove with
  | quiet hquiet => exact h.quiet hquiet
  | assign hchecked => exact h.assign
  | @serve t env j rest hserving => exact h.serve htidy hserving (hearliest t rfl)
  | @finish t env hserving => exact h.finish t
  | register filter hnew => exact h.register htidy filter hnew
  | take j n => exact h.take j n

end View

namespace Hub

/-- A publish call serves a subscriber only when no publish call with a smaller id has still
to serve it. -/
def ServesInOrder (s : Hub) (a : HubInput) : Prop :=
  ∀ t env i rest, a = .serve t → s.publisher t = .serving env (i :: rest) →
    ∀ t' env' targets, s.publisher t' = .serving env' targets → i ∈ targets →
      env.event.eventId ≤ env'.event.eventId

theorem ServesInOrder.earliest {p : Hub × Ledger} {t : ℕ} (h : ServesInOrder p.1 (.serve t)) :
    (view p).Earliest t := by
  rintro env i rest hserving t' env' ⟨targets,hserving',hi⟩
  exact h t env i rest rfl hserving t' env' targets hserving' hi

theorem inOrder_run (ringCapacity perSubCapacity : ℕ) {as : List HubInput}
    (hserves : AllSteps step ServesInOrder (fresh ringCapacity perSubCapacity) as) :
    Fit (run ringCapacity perSubCapacity as) ∧
      ∀ i, (view (run ringCapacity perSubCapacity as)).InOrder i := by
  refine exec_invariant_of (I:=fun p => Fit p ∧ ∀ i, (view p).InOrder i) ?_
    (AllSteps.observe record hserves) ⟨Fit.fresh ringCapacity perSubCapacity,?_⟩
  · rintro p a hstep ⟨hfit,horder⟩
    obtain ⟨label,hmove,hlabel⟩ := step_move hfit.sane p.2 a
    refine ⟨hfit.step a,fun i => (horder i).move hfit.tidy hmove ?_⟩
    intro t ht
    rw [hlabel t ht] at hstep
    exact hstep.earliest
  · intro i
    refine ⟨List.Pairwise.nil,fun e he => absurd he List.not_mem_nil,?_⟩
    rintro t env ⟨targets,hserving,_⟩
    cases hserving

/-- Where publish calls serve every subscriber in the order of their ids, the events that a
subscriber takes have strictly increasing ids. -/
theorem taken_in_id_order (ringCapacity perSubCapacity : ℕ) {as : List HubInput}
    (hserves : AllSteps step ServesInOrder (fresh ringCapacity perSubCapacity) as) (i : ℕ) :
    ((run ringCapacity perSubCapacity as).2.taken i).Pairwise fun e e' => e.eventId < e'.eventId :=
  (List.pairwise_append.mp ((inOrder_run ringCapacity perSubCapacity hserves).2 i).ascending).1

/-- A publisher that is alone serves in order. -/
theorem servesInOrder_alone {s : Hub} {t : ℕ} (h : ∀ t', t' ≠ t → s.publisher t' = .idle) :
    ServesInOrder s (.serve t) := by
  rintro t₁ env i rest ht₁ hserving t' env' targets hserving' _
  cases ht₁
  by_cases ht : t' = t
  · rw [ht, hserving] at hserving'
    cases hserving'
    exact le_rfl
  · rw [h t' ht] at hserving'
    cases hserving'

/-- One publisher, two events. -/
theorem taken_in_id_order_twice :
    let as : List HubInput := [.subscribe 0 {}, .register 0, .publish 0 "" "" .ack, .assign 0,
      .serve 0, .serve 0, .publish 0 "" "" .ack, .assign 0, .serve 0, .next 0, .next 0]
    AllSteps step ServesInOrder (fresh 4 4) as ∧
      ((run 4 4 as).2.taken 0).map DashboardEvent.eventId = [1, 2] ∧
      ((run 4 4 as).2.taken 0).Pairwise fun e e' => e.eventId < e'.eventId := by
  intro as
  have hother : ∀ (s : Hub) (a : HubInput), (∀ t, a ≠ .serve t) → ServesInOrder s a :=
    fun s a ha t _ _ _ ht => absurd ht (ha t)
  have halone : ∀ s : Hub, (∀ t, s.publisher (t + 1) = .idle) → ServesInOrder s (.serve 0) := by
    intro s hs
    refine servesInOrder_alone ?_
    intro t ht
    obtain ⟨t,rfl⟩ := Nat.exists_eq_succ_of_ne_zero ht
    exact hs t
  have hserves : AllSteps step ServesInOrder (fresh 4 4) as :=
    ⟨hother _ _ (by simp),hother _ _ (by simp),hother _ _ (by simp),hother _ _ (by simp),
      halone _ fun _ => rfl,halone _ fun _ => rfl,hother _ _ (by simp),hother _ _ (by simp),
      halone _ fun _ => rfl,hother _ _ (by simp),hother _ _ (by simp),trivial⟩
  exact ⟨hserves,by decide,taken_in_id_order 4 4 hserves 0⟩

/-- Two publishers: the second to get an id delivers first. -/
theorem taken_out_of_id_order :
    ((run 4 4 [.subscribe 0 {}, .register 0, .publish 0 "" "" .ack, .publish 1 "" "" .ack,
      .assign 0, .assign 1, .serve 1, .serve 0, .next 0, .next 0]).2.taken 0).map
        DashboardEvent.eventId = [2, 1] := by
  decide

end Hub
end AlprGate.Dash
