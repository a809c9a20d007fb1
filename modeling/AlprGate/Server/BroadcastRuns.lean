import AlprGate.Library.Transition
import AlprGate.Server.BusMoves

/-! # Publishers, subscribers and consumers of one broadcaster

Any number of threads publish, subscribe, take events from their queues and let go of
them, and one may stop the broadcaster. The tests of the stop flag, the locked sections
and the deliveries are steps of their own. At rest, every subscription that is open
accounts for all events since it was registered.
-/
namespace AlprGate.Dash
open BoundedQueue SnapshotFanout Transition

/-- The call of `stop` that got past the flag: it takes the subscribers off the list, then
closes them one by one. -/
inductive Stopper where
  | idle | flagged | closing (rest : List ℕ) | returned
  deriving DecidableEq, Repr

/-- `asked` holds the filters of `subscribe` calls that are past the flag; `handles` the
subscriptions ever registered. -/
structure Hub where
  bus : Bus := {}
  publisher : ℕ → Publisher := fun _ => .idle
  asked : ℕ → Option DashboardSubscription := fun _ => none
  handles : List ℕ := []
  stopper : Stopper := .idle

inductive HubInput where
  | publish (t : ℕ) (siteId gateId : String) (payload : Payload)
  | assign (t : ℕ)
  | serve (t : ℕ)
  | subscribe (i : ℕ) (filter : DashboardSubscription)
  | register (i : ℕ)
  | next (i : ℕ)
  | drainNow (i : ℕ)
  | close (i : ℕ)
  | destroy (i : ℕ)
  | stop
  | collect
  | closeNext
  deriving DecidableEq, Repr

namespace Hub

/-- A broadcaster as its constructor leaves it. -/
def fresh (ringCapacity perSubCapacity : ℕ) : Hub where
  bus := { ringCapacity := ringCapacity, perSubCapacity := perSubCapacity }

def publish (s : Hub) (t : ℕ) (siteId gateId : String) (payload : Payload) : Hub :=
  if s.publisher t = .idle ∧ s.bus.stopped = false then
    { s with publisher := Function.update s.publisher t (.checked siteId gateId payload) }
  else s

def assign (s : Hub) (t : ℕ) : Hub :=
  match s.publisher t with
  | .checked siteId gateId payload => { s with
      bus := s.bus.assign siteId gateId payload
      publisher := Function.update s.publisher t
        (.serving (s.bus.envelope siteId gateId payload) s.bus.live) }
  | _ => s

def serve (s : Hub) (t : ℕ) : Hub :=
  match s.publisher t with
  | .serving env (i :: rest) => { s with
      bus := s.bus.deliver env i
      publisher := Function.update s.publisher t (.serving env rest) }
  | .serving _ [] => { s with publisher := Function.update s.publisher t .idle }
  | _ => s

/-- A handle is used once. -/
def subscribe (s : Hub) (i : ℕ) (filter : DashboardSubscription) : Hub :=
  if i ∉ s.handles ∧ s.asked i = none ∧ s.bus.stopped = false then
    { s with asked := Function.update s.asked i (some filter) }
  else s

def register (s : Hub) (i : ℕ) : Hub :=
  match s.asked i with
  | some filter => { s with
      bus := s.bus.subscribe i filter
      asked := Function.update s.asked i none
      handles := s.handles ++ [i] }
  | none => s

/-- `next` takes the head of the queue, if there is one. -/
def next (s : Hub) (i : ℕ) : Hub := { s with bus := s.bus.takeFirst i 1 }

def drainNow (s : Hub) (i : ℕ) : Hub :=
  { s with bus := s.bus.takeFirst i (s.bus.sub i).queue.length }

def close (s : Hub) (i : ℕ) : Hub :=
  if i ∈ s.handles then { s with bus := s.bus.close i } else s

def destroy (s : Hub) (i : ℕ) : Hub :=
  if i ∈ s.handles then { s with bus := s.bus.destroy i } else s

/-- The first call gets past the flag. -/
def stop (s : Hub) : Hub :=
  if s.bus.stopped = true then s else { s with bus := s.bus.stop, stopper := .flagged }

def collect (s : Hub) : Hub :=
  if s.stopper = .flagged then
    { s with bus := { s.bus with subs := [] }, stopper := .closing s.bus.live }
  else s

def closeNext (s : Hub) : Hub :=
  match s.stopper with
  | .closing (i :: rest) => { s with bus := s.bus.close i, stopper := .closing rest }
  | .closing [] => { s with stopper := .returned }
  | _ => s

def step (s : Hub) : HubInput → Hub
  | .publish t siteId gateId payload => s.publish t siteId gateId payload
  | .assign t => s.assign t
  | .serve t => s.serve t
  | .subscribe i filter => s.subscribe i filter
  | .register i => s.register i
  | .next i => s.next i
  | .drainNow i => s.drainNow i
  | .close i => s.close i
  | .destroy i => s.destroy i
  | .stop => s.stop
  | .collect => s.collect
  | .closeNext => s.closeNext

/-- What a step adds to the record. -/
def record (s : Hub) (a : HubInput) (l : Ledger) : Ledger :=
  match a with
  | .assign t => l.noteAssign s.bus (s.publisher t)
  | .serve t => l.noteServe (s.publisher t)
  | .next i => l.noteTake i ((s.bus.sub i).queue.take 1)
  | .drainNow i => l.noteTake i (s.bus.sub i).queue
  | _ => l

/-- A run on record. -/
def run (ringCapacity perSubCapacity : ℕ) (as : List HubInput) : Hub × Ledger :=
  exec (observe step record) (fresh ringCapacity perSubCapacity, {}) as

/-- The broadcaster and its record. -/
def view (p : Hub × Ledger) : View ℕ :=
  ⟨p.1.bus,p.1.publisher,{i | i ∈ p.1.handles},p.2⟩

/-- What holds of the handles: a call of `subscribe` under way has a new one, and a
subscription is registered unless it is closed or about to be. -/
structure Sane (s : Hub) : Prop where
  asked : ∀ i filter, s.asked i = some filter → i ∉ s.handles
  listed : ∀ i ∈ s.handles, i ∈ s.bus.subs ∨ (s.bus.sub i).closed = true ∨
    ∃ rest, s.stopper = .closing rest ∧ i ∈ rest
  expired : ∀ i, (s.bus.sub i).expired = true → (s.bus.sub i).closed = true
  running : s.bus.stopped = false → s.stopper = .idle

section Quiet
variable (s : Hub) (l : Ledger)

theorem publish_quiet (t : ℕ) (siteId gateId : String) (payload : Payload) :
    (view (s,l)).Quiet (view (s.publish t siteId gateId payload,l)) := by
  unfold publish
  split
  · rename_i h
    have hjob := job_comp_update s.publisher (t:=t)
      (p:=.checked siteId gateId payload) (by rw [h.1]; rfl)
    exact { View.Quiet.refl (view (s,l)) with job := hjob }
  · exact .refl _

theorem subscribe_quiet (i : ℕ) (filter : DashboardSubscription) :
    (view (s,l)).Quiet (view (s.subscribe i filter,l)) := by
  unfold subscribe
  split
  · exact { View.Quiet.refl (view (s,l)) with }
  · exact .refl _

theorem close_quiet (i : ℕ) : (view (s,l)).Quiet (view (s.close i,l)) := by
  unfold close
  split
  · exact { View.Quiet.refl (view (s,l)) with sub := s.bus.closes_close i }
  · exact .refl _

theorem destroy_quiet (i : ℕ) : (view (s,l)).Quiet (view (s.destroy i,l)) := by
  unfold destroy
  split
  · exact { View.Quiet.refl (view (s,l)) with sub := s.bus.closes_destroy i }
  · exact .refl _

theorem stop_quiet : (view (s,l)).Quiet (view (s.stop,l)) := by
  unfold stop
  split
  · exact .refl _
  · exact { View.Quiet.refl (view (s,l)) with }

theorem collect_quiet : (view (s,l)).Quiet (view (s.collect,l)) := by
  unfold collect
  split
  · exact { View.Quiet.refl (view (s,l)) with subs := List.nil_sublist _ }
  · exact .refl _

theorem closeNext_quiet : (view (s,l)).Quiet (view (s.closeNext,l)) := by
  unfold closeNext
  split
  · rename_i i rest _
    exact { View.Quiet.refl (view (s,l)) with sub := s.bus.closes_close i }
  · exact { View.Quiet.refl (view (s,l)) with }
  · exact .refl _

end Quiet

theorem assign_move (s : Hub) (l : Ledger) (t : ℕ) :
    (view (s,l)).Move none (view (s.assign t,l.noteAssign s.bus (s.publisher t))) := by
  unfold assign
  split
  · rename_i siteId gateId payload h
    rw [h]
    exact .assign (v:=view (s,l)) h
  · rename_i h
    rw [l.noteAssign_of_ne s.bus h]
    exact .quiet (.refl _)

/-- The publisher serves its next target, or has none left, or is not serving. -/
theorem serve_move (s : Hub) (l : Ledger) (t : ℕ) :
    ∃ label, (view (s,l)).Move label (view (s.serve t,l.noteServe (s.publisher t))) ∧
      ∀ t', label = some t' → t' = t := by
  unfold serve
  split
  · rename_i env i rest h
    rw [h]
    exact ⟨some t,.serve (v:=view (s,l)) h,fun t' ht => (Option.some.inj ht).symm⟩
  · rename_i env h
    rw [h]
    exact ⟨none,.finish (v:=view (s,l)) h,fun t' ht => by cases ht⟩
  · rename_i h _
    rw [l.noteServe_of_ne h]
    exact ⟨none,.quiet (.refl _),fun t' ht => by cases ht⟩

theorem handles_concat (handles : List ℕ) (i : ℕ) :
    {j | j ∈ handles ++ [i]} = insert i {j | j ∈ handles} := by
  ext j
  simp [or_comm]

theorem register_move {s : Hub} (hsane : s.Sane) (l : Ledger) (i : ℕ) :
    (view (s,l)).Move none (view (s.register i,l)) := by
  unfold register
  split
  · rename_i filter h
    have hmove := View.Move.register (v:=view (s,l)) filter (hsane.asked i filter h)
    rwa [show (view (s,l)).known = {j | j ∈ s.handles} from rfl, ← handles_concat] at hmove
  · exact .quiet (.refl _)

/-- Every input moves the broadcaster in one of the six ways. -/
theorem step_move {s : Hub} (hsane : s.Sane) (l : Ledger) (a : HubInput) :
    ∃ label, (view (s,l)).Move label (view (observe step record (s,l) a)) ∧
      ∀ t, label = some t → a = .serve t := by
  have hunlabelled : ∀ p : Hub × Ledger, (view (s,l)).Move none (view p) →
      ∃ label, (view (s,l)).Move label (view p) ∧ ∀ t, label = some t → a = .serve t :=
    fun p h => ⟨none,h,fun t ht => by cases ht⟩
  cases a with
  | publish t siteId gateId payload =>
    exact hunlabelled _ (.quiet (publish_quiet s l t siteId gateId payload))
  | assign t => exact hunlabelled _ (assign_move s l t)
  | serve t =>
    obtain ⟨label,hmove,hlabel⟩ := serve_move s l t
    exact ⟨label,hmove,fun t' ht => congrArg _ (hlabel t' ht).symm⟩
  | subscribe i filter => exact hunlabelled _ (.quiet (subscribe_quiet s l i filter))
  | register i => exact hunlabelled _ (register_move hsane l i)
  | next i => exact hunlabelled _ (.take (v:=view (s,l)) i 1)
  | drainNow i =>
    have hmove := View.Move.take (v:=view (s,l)) i (s.bus.sub i).queue.length
    rw [show ((view (s,l)).bus.sub i).queue = (s.bus.sub i).queue from rfl, List.take_length] at hmove
    exact hunlabelled _ hmove
  | close i => exact hunlabelled _ (.quiet (close_quiet s l i))
  | destroy i => exact hunlabelled _ (.quiet (destroy_quiet s l i))
  | stop => exact hunlabelled _ (.quiet (stop_quiet s l))
  | collect => exact hunlabelled _ (.quiet (collect_quiet s l))
  | closeNext => exact hunlabelled _ (.quiet (closeNext_quiet s l))

theorem Sane.fresh (ringCapacity perSubCapacity : ℕ) : (Hub.fresh ringCapacity perSubCapacity).Sane where
  asked := fun i filter h => by cases h
  listed := fun i hi => absurd hi List.not_mem_nil
  expired := fun i h => by cases h
  running := fun _ => rfl

/-- A change of the broadcaster that closes what it unlists. -/
theorem Sane.of_bus {s : Hub} (h : s.Sane) {b : Bus} {publisher : ℕ → Publisher}
    (hsubs : ∀ i ∈ s.bus.subs, i ∈ b.subs ∨ (b.sub i).closed = true)
    (hclosed : ∀ i, (s.bus.sub i).closed = true → (b.sub i).closed = true)
    (hexpired : ∀ i, (b.sub i).expired = true → (b.sub i).closed = true)
    (hstopped : b.stopped = s.bus.stopped) : Sane { s with bus := b, publisher := publisher } where
  asked := h.asked
  listed := by
    intro i hi
    rcases h.listed i hi with hlisted | hlisted | hlisted
    · rcases hsubs i hlisted with hsub | hsub
      · exact Or.inl hsub
      · exact Or.inr (Or.inl hsub)
    · exact Or.inr (Or.inl (hclosed i hlisted))
    · exact Or.inr (Or.inr hlisted)
  expired := hexpired
  running := fun hrunning => h.running (hstopped.symm.trans hrunning)

/-- The subscription of one handle changes, and stays closed if it was. -/
theorem Sane.of_sub {s : Hub} (h : s.Sane) (i : ℕ) {p : Subscription} {publisher : ℕ → Publisher}
    (hclosed : (s.bus.sub i).closed = true → p.closed = true)
    (hexpired : p.expired = true → p.closed = true) :
    Sane { s with
      bus := { s.bus with sub := Function.update s.bus.sub i p }, publisher := publisher } := by
  refine h.of_bus (fun j hj => Or.inl hj) ?_ ?_ rfl
  · intro j hj
    by_cases hij : j = i
    · subst hij
      simpa only [Function.update_self] using hclosed hj
    · simpa only [Function.update_of_ne hij] using hj
  · intro j
    by_cases hij : j = i
    · subst hij
      simpa only [Function.update_self] using hexpired
    · simpa only [Function.update_of_ne hij] using h.expired j

/-- A new subscription is listed and neither closed nor expired. -/
theorem Sane.registered {s : Hub} (h : s.Sane) {i : ℕ} {p : Subscription}
    (hasked : s.asked i ≠ none) (hp : p.expired = false) :
    Sane { s with
      bus := { s.bus with subs := s.bus.subs ++ [i], sub := Function.update s.bus.sub i p }
      asked := Function.update s.asked i none
      handles := s.handles ++ [i] } where
  asked := by
    intro j filter hj
    have hij : j ≠ i := by
      rintro rfl
      simp only [Function.update_self] at hj
      cases hj
    simp only [Function.update_of_ne hij] at hj
    simpa [hij] using h.asked j filter hj
  listed := by
    intro j hj
    by_cases hij : j = i
    · rw [hij]
      exact Or.inl (List.mem_append_right _ List.mem_cons_self)
    · have hj : j ∈ s.handles := by simpa [hij] using hj
      simp only [Function.update_of_ne hij]
      rcases h.listed j hj with hlisted | hlisted
      · exact Or.inl (List.mem_append_left _ hlisted)
      · exact Or.inr hlisted
  expired := by
    intro j hj
    by_cases hij : j = i
    · subst hij
      simp only [Function.update_self, hp] at hj
      cases hj
    · simp only [Function.update_of_ne hij] at hj ⊢
      exact h.expired j hj
  running := h.running

theorem Sane.step {s : Hub} (h : s.Sane) (a : HubInput) : (s.step a).Sane := by
  cases a with
  | publish t siteId gateId payload =>
    simp only [Hub.step, Hub.publish]
    split
    · exact h.of_bus (fun i hi => Or.inl hi) (fun i => id) h.expired rfl
    · exact h
  | assign t =>
    simp only [Hub.step, Hub.assign]
    split
    · refine h.of_bus ?_ (fun i => id) h.expired rfl
      intro i hi
      rcases s.bus.live_or_expired hi with hlive | hexpired
      · exact Or.inl hlive
      · exact Or.inr (h.expired i hexpired)
    · exact h
  | serve t =>
    simp only [Hub.step, Hub.serve]
    split
    · rename_i env i rest _
      obtain ⟨hclosed,hexpired⟩ := offer_frame (s.bus.sub i) env
      refine h.of_sub i ?_ ?_
      · rw [hclosed]
        exact id
      · rw [hclosed, hexpired]
        exact h.expired i
    · exact h.of_bus (fun i hi => Or.inl hi) (fun i => id) h.expired rfl
    · exact h
  | subscribe i filter =>
    simp only [Hub.step, Hub.subscribe]
    split
    · rename_i hguard
      refine { h with asked := ?_ }
      intro j filter' hj
      by_cases hij : j = i
      · rw [hij]
        exact hguard.1
      · exact h.asked j filter' ((Function.update_of_ne hij _ _).symm.trans hj)
    · exact h
  | register i =>
    simp only [Hub.step, Hub.register]
    split
    · rename_i filter hasked
      refine h.registered (by rw [hasked]; simp) ?_
      exact (Subscription.foldl_pushLocked_frame _ _).2.2.2
    · exact h
  | next i => exact h.of_sub i id (h.expired i)
  | drainNow i => exact h.of_sub i id (h.expired i)
  | close i =>
    simp only [Hub.step, Hub.close]
    split
    · exact h.of_sub i (fun _ => rfl) (fun _ => rfl)
    · exact h
  | destroy i =>
    simp only [Hub.step, Hub.destroy]
    split
    · exact h.of_sub i (fun _ => rfl) (fun _ => rfl)
    · exact h
  | stop =>
    simp only [Hub.step, Hub.stop]
    split
    · exact h
    · rename_i hrunning
      have hidle := h.running (Bool.eq_false_of_not_eq_true hrunning)
      refine { h with listed := ?_, running := fun hfalse => by cases hfalse }
      intro i hi
      rcases h.listed i hi with hlisted | hlisted | ⟨rest,hclosing,_⟩
      · exact Or.inl hlisted
      · exact Or.inr (Or.inl hlisted)
      · rw [hidle] at hclosing
        cases hclosing
  | collect =>
    simp only [Hub.step, Hub.collect]
    split
    · rename_i hflagged
      refine { h with listed := ?_, running := ?_ }
      · intro i hi
        rcases h.listed i hi with hlisted | hlisted | ⟨rest,hclosing,_⟩
        · rcases s.bus.live_or_expired hlisted with hlive | hexpired
          · exact Or.inr (Or.inr ⟨s.bus.live,rfl,hlive⟩)
          · exact Or.inr (Or.inl (h.expired i hexpired))
        · exact Or.inr (Or.inl hlisted)
        · rw [hflagged] at hclosing
          cases hclosing
      · intro hrunning
        rw [h.running hrunning] at hflagged
        cases hflagged
    · exact h
  | closeNext =>
    simp only [Hub.step, Hub.closeNext]
    split
    · rename_i i rest hclosing
      have hclose : Sane { s with bus := s.bus.close i } :=
        h.of_sub i (fun _ => rfl) (fun _ => rfl)
      refine { hclose with listed := ?_, running := ?_ }
      · intro j hj
        rcases hclose.listed j hj with hlisted | hlisted | ⟨rest',hclosing',hj'⟩
        · exact Or.inl hlisted
        · exact Or.inr (Or.inl hlisted)
        · cases hclosing.symm.trans hclosing'
          rcases List.mem_cons.mp hj' with rfl | hj'
          · right
            left
            simp [Bus.close]
          · exact Or.inr (Or.inr ⟨rest,rfl,hj'⟩)
      · intro hrunning
        rw [h.running hrunning] at hclosing
        cases hclosing
    · rename_i hclosing
      refine { h with listed := ?_, running := ?_ }
      · intro i hi
        rcases h.listed i hi with hlisted | hlisted | ⟨rest,hclosing',hi'⟩
        · exact Or.inl hlisted
        · exact Or.inr (Or.inl hlisted)
        · cases hclosing.symm.trans hclosing'
          exact absurd hi' List.not_mem_nil
      · intro hrunning
        rw [h.running hrunning] at hclosing
        cases hclosing
    · exact h

/-- What holds in every state of a run on record. -/
structure Fit (p : Hub × Ledger) : Prop where
  sane : p.1.Sane
  tidy : (view p).Tidy

theorem Fit.fresh (ringCapacity perSubCapacity : ℕ) :
    Fit (Hub.fresh ringCapacity perSubCapacity, {}) where
  sane := Sane.fresh ringCapacity perSubCapacity
  tidy := {
    ids := rfl
    next := rfl
    ring := List.suffix_rfl
    sound := Sound.initial _
    unknown := fun _ _ => ⟨rfl,rfl⟩ }

theorem Fit.step {p : Hub × Ledger} (h : Fit p) (a : HubInput) :
    Fit (observe Hub.step record p a) := by
  obtain ⟨label,hmove,_⟩ := step_move h.sane p.2 a
  exact ⟨h.sane.step a,h.tidy.move hmove⟩

theorem Fit.run (ringCapacity perSubCapacity : ℕ) (as : List HubInput) :
    Fit (Hub.run ringCapacity perSubCapacity as) :=
  exec_invariant (fun _ a h => h.step a) as (Fit.fresh ringCapacity perSubCapacity)

/-- A registered subscription with its books; the log had `c` envelopes when it registered. -/
structure Served (c i : ℕ) (filter : DashboardSubscription) (start : List DashboardEvent)
    (p : Hub × Ledger) : Prop where
  fit : Fit p
  handle : i ∈ p.1.handles
  since : Since c i (view p).fanout
  books : (view p).Books (fun _ => True) 0 filter start i

theorem Served.registered {p : Hub × Ledger} (h : Fit p) {i : ℕ} {filter : DashboardSubscription}
    (hasked : p.1.asked i = some filter) :
    Served p.2.log.length i filter (p.1.bus.owed filter)
      (observe Hub.step record p (.register i)) := by
  have hnew : i ∉ (view p).known := h.sane.asked i filter hasked
  have hview : view (observe Hub.step record p (.register i)) =
      { view p with bus := p.1.bus.subscribe i filter, known := insert i (view p).known } := by
    simp only [view, observe, Hub.step, register, hasked, record, handles_concat]
  refine ⟨h.step (.register i),?_,?_,?_⟩
  · simp [observe, Hub.step, register, hasked]
  · rw [hview]
    exact Since.joined h.tidy.sound hnew
  · rw [hview]
    exact h.tidy.books_registered hnew

theorem Served.step {c i : ℕ} {filter : DashboardSubscription} {start : List DashboardEvent}
    {p : Hub × Ledger} (h : Served c i filter start p) (a : HubInput) :
    Served c i filter start (observe Hub.step record p a) := by
  obtain ⟨label,hmove,_⟩ := step_move h.fit.sane p.2 a
  exact ⟨h.fit.step a,hmove.known h.handle,View.since_move h.fit.tidy h.since hmove,
    h.books.move h.handle hmove fun _ _ _ _ _ _ _ _ _ => trivial⟩

/-- With all publish calls over, the books of an open subscription show every matching event. -/
theorem Served.accounts {c i : ℕ} {filter : DashboardSubscription} {start : List DashboardEvent}
    {p : Hub × Ledger} (h : Served c i filter start p) (hopen : (p.1.bus.sub i).closed = false)
    (hstop : ∀ rest, p.1.stopper = .closing rest → i ∉ rest)
    (hidle : ∀ t, p.1.publisher t = .idle) :
    ∃ lost : List DashboardEvent, lost.length = (p.1.bus.sub i).dropped ∧
      (p.2.taken i ++ (p.1.bus.sub i).queue ++ lost).Perm
        (start ++ matching filter (p.2.log.drop c)) := by
  have hmember : i ∈ (view p).fanout.members := by
    rcases h.fit.sane.listed i h.handle with hlisted | hclosed | ⟨rest,hclosing,hi⟩
    · exact hlisted
    · exact absurd (hopen.symm.trans hclosed) Bool.false_ne_true
    · exact absurd hi (hstop rest hclosing)
  have hserved : ∀ t env, ¬ Owes (view p).fanout t i env := by
    intro t env howes
    obtain ⟨targets,hserving,_⟩ := View.owes_iff.mp howes
    have hidle' := hidle t
    rw [show p.1.publisher t = .serving env targets from hserving] at hidle'
    cases hidle'
  have hreceived := h.since.received_perm h.fit.tidy.sound hmember hserved
  obtain ⟨lost,_,hcount,haccount⟩ := h.books.2 hopen
  refine ⟨lost,(Nat.zero_add _).symm.trans hcount,haccount.perm.trans ?_⟩
  exact ((hreceived.filter _).map EventEnvelope.event).append_left start

/-- Replay and later events have different ids. -/
theorem accounted_nodup {p q : Hub × Ledger} (hp : Fit p) (hq : Fit q)
    (filter : DashboardSubscription) :
    ((p.1.bus.owed filter ++ matching filter (q.2.log.drop p.2.log.length)).map
      DashboardEvent.eventId).Nodup := by
  obtain ⟨hascending,hbelow⟩ := hp.tidy.ring_ascending
  have howed := owed_sublist_ring p.1.bus filter
  have hmatching : ((matching filter (q.2.log.drop p.2.log.length)).map
      DashboardEvent.eventId).Sublist
        (List.range' (1 + p.2.log.length) (q.2.log.length - p.2.log.length)) := by
    have hids : (q.2.log.drop p.2.log.length).map EventEnvelope.id =
        List.range' (1 + p.2.log.length) (q.2.log.length - p.2.log.length) := by
      have htidy : q.2.log.map EventEnvelope.id = List.range' 1 q.2.log.length := hq.tidy.ids
      rw [List.map_drop, htidy, List.drop_range']
      simp
    rw [← hids, matching, List.map_map]
    exact List.filter_sublist.map EventEnvelope.id
  rw [List.map_append]
  refine List.nodup_append.mpr ⟨?_,?_,?_⟩
  · exact (List.Pairwise.sublist howed hascending).imp fun hlt => hlt.ne
  · exact List.Nodup.sublist hmatching List.nodup_range'
  · intro n hn m hm
    have hlow := hbelow n (howed.subset hn)
    have hhigh := (List.mem_range'_1.mp (hmatching.subset hm)).1
    have hnext : p.1.bus.nextEventId = p.2.log.length + 1 := hp.tidy.next
    change n < p.1.bus.nextEventId at hlow
    omega

theorem ringed_run {ringCapacity : ℕ} (hring : 1 ≤ ringCapacity) (perSubCapacity : ℕ)
    (as : List HubInput) : (view (run ringCapacity perSubCapacity as)).Ringed ringCapacity := by
  have hboth : Fit (run ringCapacity perSubCapacity as) ∧
      (view (run ringCapacity perSubCapacity as)).Ringed ringCapacity := by
    refine exec_invariant (I:=fun p => Fit p ∧ (view p).Ringed ringCapacity) ?_ as
      ⟨Fit.fresh ringCapacity perSubCapacity,rfl,List.drop_nil.symm⟩
    rintro p a ⟨hfit,hringed⟩
    obtain ⟨label,hmove,_⟩ := step_move hfit.sane p.2 a
    exact ⟨hfit.step a,hringed.move hring hmove⟩
  exact hboth.2

/-- In every run, a subscription that is open when all publish calls are over has received,
has queued or has dropped exactly the matching events of the replay and those assigned an id
since it registered, each of them once. The ids have no gaps, and the ring holds the last
events up to its capacity. -/
theorem subscription_accounts_for_events {ringCapacity : ℕ} (hring : 1 ≤ ringCapacity)
    (perSubCapacity : ℕ) (before after : List HubInput) (i : ℕ) (filter : DashboardSubscription)
    {p q : Hub × Ledger} (hp : run ringCapacity perSubCapacity before = p)
    (hasked : p.1.asked i = some filter)
    (hq : run ringCapacity perSubCapacity (before ++ .register i :: after) = q)
    (hopen : (q.1.bus.sub i).closed = false)
    (hstop : ∀ rest, q.1.stopper = .closing rest → i ∉ rest)
    (hidle : ∀ t, q.1.publisher t = .idle) :
    (∃ lost : List DashboardEvent, lost.length = (q.1.bus.sub i).dropped ∧
      (q.2.taken i ++ (q.1.bus.sub i).queue ++ lost).Perm
        (p.1.bus.owed filter ++ matching filter (q.2.log.drop p.2.log.length))) ∧
    ((p.1.bus.owed filter ++ matching filter (q.2.log.drop p.2.log.length)).map
      DashboardEvent.eventId).Nodup ∧
    q.2.log.map EventEnvelope.id = List.range' 1 q.2.log.length ∧
    q.1.bus.ring = q.2.log.drop (q.2.log.length - ringCapacity) := by
  have hfit : Fit p := hp ▸ Fit.run ringCapacity perSubCapacity before
  have hfit' : Fit q := hq ▸ Fit.run ringCapacity perSubCapacity _
  have hringed := ringed_run hring perSubCapacity (before ++ .register i :: after)
  rw [hq] at hringed
  have hserved : Served p.2.log.length i filter (p.1.bus.owed filter) q := by
    rw [← hq, run, exec_append, exec_cons]
    refine exec_invariant (fun _ a h => h.step a) after ?_
    rw [show exec (observe step record) _ before = p from hp]
    exact Served.registered hfit hasked
  exact ⟨hserved.accounts hopen hstop hidle,accounted_nodup hfit hfit' filter,hfit'.tidy.ids,
    hringed.last⟩

/-- A queue of one place, two events, nobody reading: one is queued and one dropped. -/
theorem accounts_of_full_queue :
    ∃ lost : List DashboardEvent, lost.length = 1 ∧
      ([⟨2,.ack⟩] ++ lost : List DashboardEvent).Perm [⟨1,.ack⟩, ⟨2,.ack⟩] := by
  have h := subscription_accounts_for_events (le_refl 1) 1 [.subscribe 0 {}]
    [.publish 0 "" "" .ack, .assign 0, .serve 0, .serve 0,
      .publish 0 "" "" .ack, .assign 0, .serve 0, .serve 0] 0 {} rfl rfl rfl rfl
    (fun _ h => by cases h) (fun t => by
      cases t with
      | zero => rfl
      | succ t => rfl)
  exact h.1

end Hub
end AlprGate.Dash
