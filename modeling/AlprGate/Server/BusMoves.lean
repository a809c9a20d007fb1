import AlprGate.Library.SnapshotFanout
import AlprGate.Server.ControlSessions

/-! # What the users of a broadcaster do to it

Whoever uses the broadcaster, its state changes in six ways: an id is assigned and a
snapshot taken, a target is served, a publish call ends, a subscriber registers, a
consumer takes events from its queue, or something closes. With the events ever assigned,
offered and taken on record, the broadcaster is a fan-out from snapshots, and each queue
keeps its books.
-/
namespace AlprGate.Dash
open BoundedQueue SnapshotFanout

/-- The record of a run: the envelopes in the order of their ids, what each subscriber was
offered by publishers, and what was taken from its queue. -/
structure Ledger where
  log : List EventEnvelope := []
  offered : ℕ → List EventEnvelope := fun _ => []
  taken : ℕ → List DashboardEvent := fun _ => []

namespace Ledger

def noteAssign (l : Ledger) (b : Bus) : Publisher → Ledger
  | .checked siteId gateId payload => { l with log := l.log ++ [b.envelope siteId gateId payload] }
  | _ => l

def noteServe (l : Ledger) : Publisher → Ledger
  | .serving env (i :: _) =>
    { l with offered := Function.update l.offered i (l.offered i ++ [env]) }
  | _ => l

def noteTake (l : Ledger) (i : ℕ) (es : List DashboardEvent) : Ledger :=
  { l with taken := Function.update l.taken i (l.taken i ++ es) }

theorem noteTake_nil (l : Ledger) (i : ℕ) : l.noteTake i [] = l := by
  rw [noteTake, List.append_nil, Function.update_eq_self]

theorem noteAssign_of_ne (l : Ledger) (b : Bus) {p : Publisher}
    (h : ∀ siteId gateId payload, p ≠ .checked siteId gateId payload) : l.noteAssign b p = l := by
  cases p with
  | idle => rfl
  | checked siteId gateId payload => exact absurd rfl (h siteId gateId payload)
  | serving env targets => rfl

theorem noteServe_of_ne (l : Ledger) {p : Publisher}
    (h : ∀ env i rest, p ≠ .serving env (i :: rest)) : l.noteServe p = l := by
  cases p with
  | idle => rfl
  | checked siteId gateId payload => rfl
  | serving env targets =>
    cases targets with
    | nil => rfl
    | cons i rest => exact absurd rfl (h env i rest)

end Ledger

/-- The events among the envelopes that pass a filter. -/
def matching (filter : DashboardSubscription) (envs : List EventEnvelope) : List DashboardEvent :=
  (envs.filter fun env => filterMatches filter env.siteId env.gateId env.event).map
    EventEnvelope.event

theorem matching_concat (filter : DashboardSubscription) (envs : List EventEnvelope)
    (env : EventEnvelope) :
    matching filter (envs ++ [env]) = matching filter envs ++
      if filterMatches filter env.siteId env.gateId env.event = true then [env.event] else [] := by
  rw [matching, List.filter_append, List.map_append, List.filter_singleton]
  cases filterMatches filter env.siteId env.gateId env.event with
  | false => rfl
  | true => rfl

/-- The head of a queue is taken. -/
def Bus.takeFirst (b : Bus) (i n : ℕ) : Bus :=
  { b with sub := Function.update b.sub i { b.sub i with queue := (b.sub i).queue.drop n } }

theorem Bus.pop_eq_takeFirst (b : Bus) (i : ℕ) : b.pop i = b.takeFirst i 1 := by
  rw [Bus.pop, Bus.takeFirst, List.drop_one]

/-- The item and the remaining targets of a publish call. -/
def Publisher.job : Publisher → Option (EventEnvelope × List ℕ)
  | .serving env targets => some (env, targets)
  | _ => none

theorem Publisher.job_eq_some {p : Publisher} {env : EventEnvelope} {targets : List ℕ}
    (h : p.job = some (env, targets)) : p = .serving env targets := by
  cases p with
  | idle => cases h
  | checked siteId gateId payload => cases h
  | serving env' targets' =>
    cases h
    rfl

/-- A publisher that serves nobody before and after. -/
theorem job_comp_update {T : Type*} [DecidableEq T] (publisher : T → Publisher) {t : T}
    {p : Publisher} (h : p.job = (publisher t).job) :
    Publisher.job ∘ Function.update publisher t p = Publisher.job ∘ publisher := by
  rw [Function.comp_update, h]
  exact Function.update_eq_self t (Publisher.job ∘ publisher)

/-- A broadcaster, its publishers, the subscribers of all times, and the record. -/
structure View (T : Type*) where
  bus : Bus
  publisher : T → Publisher
  known : Set ℕ
  ledger : Ledger

def EventEnvelope.id (env : EventEnvelope) : ℕ := env.event.eventId

variable {T : Type*}

/-- The fan-out that the broadcaster carries out. -/
def View.fanout (v : View T) : Fanout T ℕ EventEnvelope :=
  ⟨v.ledger.log,v.bus.subs,v.known,Publisher.job ∘ v.publisher,v.ledger.offered⟩

/-- A publish call serves targets and has still to serve `i`. -/
def View.Serves (v : View T) (t : T) (i : ℕ) (env : EventEnvelope) : Prop :=
  ∃ targets, v.publisher t = .serving env targets ∧ i ∈ targets

theorem View.owes_iff {v : View T} {t : T} {i : ℕ} {env : EventEnvelope} :
    Owes v.fanout t i env ↔ v.Serves t i env := by
  constructor
  · rintro ⟨targets,hjob,hi⟩
    exact ⟨targets,Publisher.job_eq_some hjob,hi⟩
  · rintro ⟨targets,hserving,hi⟩
    exact ⟨targets,congrArg Publisher.job hserving,hi⟩

/-- Nothing but `closed` changes, and a closed subscription stays closed. -/
structure Subscription.Closes (p p' : Subscription) : Prop where
  filter : p'.filter = p.filter
  queue : p'.queue = p.queue
  capacity : p'.capacity = p.capacity
  dropped : p'.dropped = p.dropped
  closed : p'.closed = false → p.closed = false

theorem Subscription.Closes.refl (p : Subscription) : p.Closes p := ⟨rfl,rfl,rfl,rfl,id⟩

theorem Bus.closes_close (b : Bus) (i j : ℕ) : (b.sub j).Closes ((b.close i).sub j) := by
  by_cases hij : j = i
  · subst hij
    simp only [Bus.close, Function.update_self]
    exact ⟨rfl,rfl,rfl,rfl,fun h => by cases h⟩
  · simp only [Bus.close, Function.update_of_ne hij]
    exact .refl _

theorem Bus.closes_destroy (b : Bus) (i j : ℕ) : (b.sub j).Closes ((b.destroy i).sub j) := by
  by_cases hij : j = i
  · subst hij
    simp only [Bus.destroy, Function.update_self]
    exact ⟨rfl,rfl,rfl,rfl,fun h => by cases h⟩
  · simp only [Bus.destroy, Function.update_of_ne hij]
    exact .refl _

theorem Bus.closes_closeAll (b : Bus) (i : ℕ) : (b.sub i).Closes (b.closeAll.sub i) := by
  by_cases hlive : i ∈ b.live
  · simp only [Bus.closeAll, hlive, if_true]
    exact ⟨rfl,rfl,rfl,rfl,fun h => by cases h⟩
  · simp only [Bus.closeAll, hlive, if_false]
    exact .refl _

/-- No event moves. -/
structure View.Quiet (v w : View T) : Prop where
  ledger : w.ledger = v.ledger
  nextEventId : w.bus.nextEventId = v.bus.nextEventId
  ring : w.bus.ring = v.bus.ring
  ringCapacity : w.bus.ringCapacity = v.bus.ringCapacity
  subs : w.bus.subs.Sublist v.bus.subs
  known : v.known ⊆ w.known
  job : Publisher.job ∘ w.publisher = Publisher.job ∘ v.publisher
  sub : ∀ i, (v.bus.sub i).Closes (w.bus.sub i)

theorem View.Quiet.refl (v : View T) : v.Quiet v where
  ledger := rfl
  nextEventId := rfl
  ring := rfl
  ringCapacity := rfl
  subs := List.Sublist.refl _
  known := Set.Subset.rfl
  job := rfl
  sub := fun _ => .refl _

variable [DecidableEq T]

/-- The ways in which the broadcaster changes. The label names the publisher that serves a
target. -/
inductive View.Move (v : View T) : Option T → View T → Prop
  | quiet {w : View T} (h : v.Quiet w) : Move v none w
  | assign {t : T} {siteId gateId : String} {payload : Payload}
      (h : v.publisher t = .checked siteId gateId payload) :
      Move v none { v with
        bus := v.bus.assign siteId gateId payload
        publisher := Function.update v.publisher t
          (.serving (v.bus.envelope siteId gateId payload) v.bus.live)
        ledger := v.ledger.noteAssign v.bus (.checked siteId gateId payload) }
  | serve {t : T} {env : EventEnvelope} {i : ℕ} {rest : List ℕ}
      (h : v.publisher t = .serving env (i :: rest)) :
      Move v (some t) { v with
        bus := v.bus.deliver env i
        publisher := Function.update v.publisher t (.serving env rest)
        ledger := v.ledger.noteServe (.serving env (i :: rest)) }
  | finish {t : T} {env : EventEnvelope} (h : v.publisher t = .serving env []) :
      Move v none { v with publisher := Function.update v.publisher t .idle }
  | register {i : ℕ} (filter : DashboardSubscription) (h : i ∉ v.known) :
      Move v none { v with bus := v.bus.subscribe i filter, known := insert i v.known }
  | take (i n : ℕ) :
      Move v none { v with
        bus := v.bus.takeFirst i n
        ledger := v.ledger.noteTake i ((v.bus.sub i).queue.take n) }

namespace View
variable {v w : View T} {l : Option T}

/-- The ids are one, two, three, and so on; the ring holds the last of them. -/
structure Tidy (v : View T) : Prop where
  ids : v.ledger.log.map EventEnvelope.id = List.range' 1 v.ledger.log.length
  next : v.bus.nextEventId = v.ledger.log.length + 1
  ring : v.bus.ring <:+ v.ledger.log
  sound : Sound EventEnvelope.id v.fanout
  unknown : ∀ i, i ∉ v.known → v.ledger.taken i = [] ∧ (v.bus.sub i).queue = []

omit [DecidableEq T] in
theorem Tidy.lt_next (h : Tidy v) {env : EventEnvelope} (henv : env ∈ v.ledger.log) :
    env.id < v.bus.nextEventId := by
  have hmem := List.mem_map_of_mem (f:=EventEnvelope.id) henv
  rw [h.ids, List.mem_range'_1] at hmem
  rw [h.next]
  omega

/-- Every move is a step of the fan-out, or none. -/
theorem Move.fanout (hmove : Move v l w) (htidy : Tidy v) :
    Step EventEnvelope.id v.fanout w.fanout := by
  cases hmove with
  | quiet h =>
    have hstep : Step EventEnvelope.id v.fanout
        { v.fanout with members := w.bus.subs, known := w.known } :=
      .leave w.bus.subs w.known h.subs h.known
    have hfanout : w.fanout = { v.fanout with members := w.bus.subs, known := w.known } := by
      simp only [View.fanout, h.job, h.ledger]
    rwa [hfanout]
  | @assign t siteId gateId payload h =>
    have hjob : v.fanout.job t = none := congrArg Publisher.job h
    have hnew : ∀ env ∈ v.fanout.log, env.id < (v.bus.envelope siteId gateId payload).id :=
      fun env henv => htidy.lt_next henv
    have hstep := Step.assign t _ v.bus.live hjob hnew List.filter_sublist
    simp only [View.fanout, Function.comp_update]
    exact hstep
  | @serve t env i rest h =>
    have hjob : v.fanout.job t = some (env, i :: rest) := congrArg Publisher.job h
    simp only [View.fanout, Function.comp_update]
    exact Step.serve t env i rest hjob
  | @finish t env h =>
    have hjob : v.fanout.job t = some (env, []) := congrArg Publisher.job h
    simp only [View.fanout, Function.comp_update]
    exact Step.finish t env hjob
  | register filter h => exact Step.join _ h
  | take i n => exact Step.leave v.bus.subs v.known (List.Sublist.refl _) Set.Subset.rfl

/-- A subscriber that is not there yet has nothing queued and has taken nothing. -/
theorem Move.unknown (hmove : Move v l w) (h : Tidy v) (i : ℕ) (hi : i ∉ w.known) :
    w.ledger.taken i = [] ∧ (w.bus.sub i).queue = [] := by
  cases hmove with
  | quiet hquiet =>
    rw [hquiet.ledger, (hquiet.sub i).queue]
    exact h.unknown i fun hknown => hi (hquiet.known hknown)
  | assign hchecked => exact h.unknown i hi
  | @serve t env j rest hserving =>
    have hjob : v.fanout.job t = some (env, j :: rest) := congrArg Publisher.job hserving
    have hij : i ≠ j := by
      rintro rfl
      exact hi ((h.sound.job t env _ hjob).2.2 i List.mem_cons_self).1
    simpa only [Ledger.noteServe, Bus.deliver, Function.update_of_ne hij] using h.unknown i hi
  | finish hserving => exact h.unknown i hi
  | @register j filter hnew =>
    have hij : i ≠ j := fun hij => hi (hij ▸ Set.mem_insert j v.known)
    simpa only [Bus.subscribe, Function.update_of_ne hij] using
      h.unknown i fun hknown => hi (Set.mem_insert_of_mem j hknown)
  | take j n =>
    obtain ⟨htaken,hqueue⟩ := h.unknown i hi
    by_cases hij : i = j
    · subst hij
      simp [Ledger.noteTake, Bus.takeFirst, htaken, hqueue]
    · simpa only [Ledger.noteTake, Bus.takeFirst, Function.update_of_ne hij] using h.unknown i hi

theorem Tidy.move (h : Tidy v) (hmove : Move v l w) : Tidy w := by
  have hsound := h.sound.step (hmove.fanout h)
  have hunknown := hmove.unknown h
  cases hmove with
  | quiet hquiet =>
    refine ⟨?_,?_,?_,hsound,hunknown⟩
    · rw [hquiet.ledger]
      exact h.ids
    · rw [hquiet.ledger, hquiet.nextEventId]
      exact h.next
    · rw [hquiet.ledger, hquiet.ring]
      exact h.ring
  | @assign t siteId gateId payload hchecked =>
    refine ⟨?_,?_,?_,hsound,hunknown⟩
    · have hid : (v.bus.envelope siteId gateId payload).id = 1 + v.ledger.log.length := by
        rw [Nat.add_comm]
        exact h.next
      simp only [Ledger.noteAssign, List.map_append, h.ids, List.length_append, List.map_singleton,
        hid, List.length_singleton]
      exact (List.range'_1_concat ..).symm
    · simp only [Bus.assign, Ledger.noteAssign, h.next, List.length_append]
      rfl
    · exact pushRing_suffix _ h.ring _
  | serve hserving => exact ⟨h.ids,h.next,h.ring,hsound,hunknown⟩
  | finish hserving => exact ⟨h.ids,h.next,h.ring,hsound,hunknown⟩
  | register filter hnew => exact ⟨h.ids,h.next,h.ring,hsound,hunknown⟩
  | take i n => exact ⟨h.ids,h.next,h.ring,hsound,hunknown⟩

/-- The ring holds the most recent envelopes, as many as fit. -/
structure Ringed (cap : ℕ) (v : View T) : Prop where
  capacity : v.bus.ringCapacity = cap
  last : v.bus.ring = v.ledger.log.drop (v.ledger.log.length - cap)

theorem Ringed.move {cap : ℕ} (hcap : 0 < cap) (h : Ringed cap v) (hmove : Move v l w) :
    Ringed cap w := by
  cases hmove with
  | quiet hquiet =>
    refine ⟨hquiet.ringCapacity.trans h.capacity,?_⟩
    rw [hquiet.ledger, hquiet.ring]
    exact h.last
  | @assign t siteId gateId payload hchecked =>
    refine ⟨h.capacity,?_⟩
    have hpush := pushRing_last hcap v.ledger.log (v.bus.envelope siteId gateId payload)
    rw [← h.last, ← h.capacity] at hpush
    rw [← h.capacity]
    exact hpush
  | serve hserving => exact ⟨h.capacity,h.last⟩
  | finish hserving => exact ⟨h.capacity,h.last⟩
  | register filter hnew => exact ⟨h.capacity,h.last⟩
  | take i n => exact ⟨h.capacity,h.last⟩

theorem Move.known (hmove : Move v l w) : v.known ⊆ w.known := by
  cases hmove with
  | quiet hquiet => exact hquiet.known
  | assign hchecked => exact Set.Subset.rfl
  | serve hserving => exact Set.Subset.rfl
  | finish hserving => exact Set.Subset.rfl
  | register filter hnew => exact Set.subset_insert _ _
  | take i n => exact Set.Subset.rfl

/-- A subscriber has received, or is yet to be offered, everything assigned since it
registered, when the log had `c` envelopes. -/
theorem since_move {c i : ℕ} (htidy : Tidy v) (h : Since c i v.fanout)
    (hmove : Move v l w) : Since c i w.fanout := h.step (hmove.fanout htidy)

end View

/-- The books of a subscription: `start` and what passed its filter have been taken, are
queued, or were dropped; what was dropped satisfies `P` and is counted from `d` on. -/
def Subscription.Keeps (P : DashboardEvent → Prop) (d : ℕ) (filter : DashboardSubscription)
    (start : List DashboardEvent) (p : Subscription) (taken : List DashboardEvent)
    (offered : List EventEnvelope) : Prop :=
  p.filter = filter ∧ (p.closed = false → ∃ lost : List DashboardEvent, (∀ e ∈ lost, P e) ∧
    d + lost.length = p.dropped ∧ Account (start ++ matching filter offered) taken p.queue lost)

namespace Subscription
variable {P : DashboardEvent → Prop} {d : ℕ} {filter : DashboardSubscription}
variable {p p' : Subscription} {start taken : List DashboardEvent} {offered : List EventEnvelope}

theorem dropped_pushLocked (p : Subscription) (e : DashboardEvent) :
    (p.pushLocked e).dropped = p.dropped + (evicted p.capacity p.queue).length := by
  rw [length_evicted, pushLocked]
  split
  · rfl
  · rfl

/-- An envelope is offered. What the push drops has to satisfy `P`. -/
theorem Keeps.offer (h : p.Keeps P d filter start taken offered) (env : EventEnvelope)
    (hP : p.closed = false → filterMatches filter env.siteId env.gateId env.event = true →
      ∀ e ∈ evicted p.capacity p.queue, P e) :
    (p.offer env).Keeps P d filter start taken (offered ++ [env]) := by
  obtain ⟨hfilter,hbooks⟩ := h
  unfold Subscription.offer
  split
  · rename_i hclosed
    exact ⟨hfilter,fun hopen => absurd (hopen.symm.trans hclosed) Bool.false_ne_true⟩
  · rename_i hclosed
    have hopen := Bool.eq_false_of_not_eq_true hclosed
    obtain ⟨lost,hlost,hcount,haccount⟩ := hbooks hopen
    rw [hfilter]
    split
    · rename_i hmatch
      refine ⟨hfilter,fun _ => ⟨lost ++ evicted p.capacity p.queue,?_,?_,?_⟩⟩
      · intro e he
        rcases List.mem_append.mp he with he | he
        · exact hlost e he
        · exact hP hopen hmatch e he
      · rw [dropped_pushLocked, List.length_append]
        omega
      · rw [matching_concat, if_pos hmatch, ← List.append_assoc]
        exact haccount.push p.capacity env.event
    · rename_i hmatch
      refine ⟨hfilter,fun _ => ⟨lost,hlost,hcount,?_⟩⟩
      rw [matching_concat, if_neg hmatch, List.append_nil]
      exact haccount

theorem Keeps.take (h : p.Keeps P d filter start taken offered) (n : ℕ) :
    { p with queue := p.queue.drop n }.Keeps P d filter start (taken ++ p.queue.take n) offered := by
  obtain ⟨hfilter,hbooks⟩ := h
  refine ⟨hfilter,?_⟩
  intro hopen
  obtain ⟨lost,hlost,hcount,haccount⟩ := hbooks hopen
  exact ⟨lost,hlost,hcount,haccount.take n⟩

theorem Keeps.closes (h : p.Keeps P d filter start taken offered) (hp : p.Closes p') :
    p'.Keeps P d filter start taken offered := by
  obtain ⟨hfilter,hbooks⟩ := h
  refine ⟨hp.filter.trans hfilter,?_⟩
  intro hopen
  rw [hp.dropped, hp.queue]
  exact hbooks (hp.closed hopen)

/-- The replay pushes onto an empty queue. -/
theorem foldl_pushLocked_books (es : List DashboardEvent) {pushed lost : List DashboardEvent}
    (h : Account pushed [] p.queue lost) (hcount : lost.length = p.dropped) :
    ∃ lost', lost'.length = (es.foldl pushLocked p).dropped ∧
      Account (pushed ++ es) [] (es.foldl pushLocked p).queue lost' := by
  induction es generalizing p pushed lost with
  | nil => exact ⟨lost,hcount,by simpa using h⟩
  | cons e es ih =>
    have hcount' : (lost ++ evicted p.capacity p.queue).length = (p.pushLocked e).dropped := by
      rw [dropped_pushLocked, List.length_append, hcount]
    have htail := ih (h.push p.capacity e) hcount'
    simpa using htail

theorem foldl_pushLocked_frame (p : Subscription) (es : List DashboardEvent) :
    (es.foldl pushLocked p).filter = p.filter ∧ (es.foldl pushLocked p).closed = p.closed ∧
      (es.foldl pushLocked p).capacity = p.capacity ∧
      (es.foldl pushLocked p).expired = p.expired := by
  induction es generalizing p with
  | nil => exact ⟨rfl,rfl,rfl,rfl⟩
  | cons e es ih => exact ih (p.pushLocked e)

end Subscription

namespace View
variable {P : DashboardEvent → Prop} {d i : ℕ} {filter : DashboardSubscription}
variable {start : List DashboardEvent} {v w : View T} {l : Option T}

/-- The books of subscriber `i`. -/
def Books (P : DashboardEvent → Prop) (d : ℕ) (filter : DashboardSubscription)
    (start : List DashboardEvent) (i : ℕ) (v : View T) : Prop :=
  (v.bus.sub i).Keeps P d filter start (v.ledger.taken i) (v.ledger.offered i)

theorem Books.move (h : Books P d filter start i v) (hknown : i ∈ v.known) (hmove : Move v l w)
    (hP : ∀ t env rest, l = some t → v.publisher t = .serving env (i :: rest) →
      (v.bus.sub i).closed = false → filterMatches filter env.siteId env.gateId env.event = true →
      ∀ e ∈ evicted (v.bus.sub i).capacity (v.bus.sub i).queue, P e) :
    Books P d filter start i w := by
  unfold Books at h ⊢
  cases hmove with
  | quiet hquiet =>
    rw [hquiet.ledger]
    exact h.closes (hquiet.sub i)
  | assign hchecked => exact h
  | @serve t env j rest hserving =>
    by_cases hij : i = j
    · subst hij
      simp only [Bus.deliver, Ledger.noteServe, Function.update_self]
      exact h.offer env (hP t env rest rfl hserving)
    · simpa only [Bus.deliver, Ledger.noteServe, Function.update_of_ne hij] using h
  | finish hserving => exact h
  | @register j filter' hnew =>
    have hij : i ≠ j := fun hij => hnew (hij ▸ hknown)
    simpa only [Bus.subscribe, Function.update_of_ne hij] using h
  | take j n =>
    by_cases hij : i = j
    · subst hij
      simp only [Bus.takeFirst, Ledger.noteTake, Function.update_self]
      exact h.take n
    · simpa only [Bus.takeFirst, Ledger.noteTake, Function.update_of_ne hij] using h

omit [DecidableEq T] in
/-- The books are opened by the replay. -/
theorem Tidy.books_registered (h : Tidy v) (hi : i ∉ v.known) :
    Books (fun _ => True) 0 filter (v.bus.owed filter) i
      { v with bus := v.bus.subscribe i filter, known := insert i v.known } := by
  obtain ⟨hfilter,_,_,_⟩ := Subscription.foldl_pushLocked_frame
    { filter := filter, capacity := v.bus.perSubCapacity } (v.bus.owed filter)
  obtain ⟨lost,hcount,haccount⟩ := Subscription.foldl_pushLocked_books
    (p:={ filter := filter, capacity := v.bus.perSubCapacity }) (v.bus.owed filter)
    (Account.start []) rfl
  have hoffered : v.ledger.offered i = [] :=
    List.eq_nil_iff_forall_not_mem.mpr fun env henv => hi ((h.sound.received i).2 env henv).2
  simp only [Books, Bus.subscribe, Function.update_self, hoffered, (h.unknown i hi).1]
  refine ⟨hfilter,fun _ => ⟨lost,fun _ _ => trivial,?_,?_⟩⟩
  · rw [Nat.zero_add]
    exact hcount
  · simpa [matching] using haccount

omit [DecidableEq T] in
/-- Nobody serves a subscriber that is not there yet. -/
theorem Tidy.not_serves (h : Tidy v) (hi : i ∉ v.known) (t : T)
    (env : EventEnvelope) : ¬ v.Serves t i env := by
  intro hserves
  obtain ⟨targets,hjob,hmem⟩ := owes_iff.mpr hserves
  exact hi ((h.sound.job t env targets hjob).2.2 i hmem).1

omit [DecidableEq T] in
theorem Tidy.ring_ascending (h : Tidy v) :
    v.bus.ringIds.Pairwise (· < ·) ∧ ∀ n ∈ v.bus.ringIds, n < v.bus.nextEventId := by
  have hsub : v.bus.ringIds.Sublist (v.ledger.log.map EventEnvelope.id) :=
    h.ring.sublist.map EventEnvelope.id
  refine ⟨?_,?_⟩
  · refine List.Pairwise.sublist hsub ?_
    rw [h.ids]
    exact List.pairwise_lt_range'
  · intro n hn
    have hmem := hsub.subset hn
    rw [h.ids, List.mem_range'_1] at hmem
    rw [h.next]
    omega

end View
end AlprGate.Dash
