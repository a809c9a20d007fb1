import AlprGate.Server.Reconnects
import AlprGate.Server.SessionBus

/-! # Commands in the queue of a control session

The subscription of a control session lets decisions and acks of its gate through, and
they share the bounded queue with the commands. A command is kept until its session
writes it, unless a delivery finds the queue full with a command at its head.
-/
namespace AlprGate.Dash

def DashboardEvent.isCommand (e : DashboardEvent) : Bool :=
  match e.payload with
  | .command _ => true
  | _ => false

theorem DashboardEvent.payload_of_isCommand {e : DashboardEvent} (h : e.isCommand = true) :
    ∃ c, e.payload = .command c := by
  unfold DashboardEvent.isCommand at h
  split at h
  · exact ⟨_,‹_›⟩
  · cases h

/-- The envelope and the target of the next delivery of a publish call. -/
def Publisher.delivery : Publisher → Option (EventEnvelope × ℕ)
  | .serving env (i :: _) => some (env, i)
  | _ => none

/-- If this envelope is queued, no command is dropped for it: there is room, or the oldest
event is no command. -/
def Subscription.Spares (p : Subscription) (env : EventEnvelope) : Prop :=
  p.closed = false → filterMatches p.filter env.siteId env.gateId env.event = true →
    p.capacity = 0 ∨ p.queue.length < p.capacity ∨ ∀ e ∈ p.queue.head?, e.isCommand = false

instance (p : Subscription) (env : EventEnvelope) : Decidable (p.Spares env) :=
  inferInstanceAs (Decidable (p.closed = false → _))

theorem Subscription.Spares.evicted {p : Subscription} {env : EventEnvelope} (h : p.Spares env)
    (hopen : p.closed = false)
    (hmatch : filterMatches p.filter env.siteId env.gateId env.event = true) :
    ∀ e ∈ BoundedQueue.evicted p.capacity p.queue, e.isCommand = false := by
  intro e he
  unfold BoundedQueue.evicted at he
  split at he
  · rename_i hfull
    rcases h hopen hmatch with hcap | hroom | hhead
    · omega
    · omega
    · refine hhead e ?_
      cases hqueue : p.queue with
      | nil => simp [hqueue] at he
      | cons e' rest =>
        simp only [hqueue, List.take_succ_cons, List.take_zero, List.mem_singleton] at he
        rw [he]
        rfl
  · exact absurd he List.not_mem_nil

/-- A subscription that is open is registered, and nobody has let go of it. -/
structure Bus.Listed (b : Bus) (i : ℕ) : Prop where
  listed : i ∈ b.subs ∨ (b.sub i).closed = true
  expired : (b.sub i).expired = true → (b.sub i).closed = true

namespace Bus
variable {b : Bus} {i : ℕ}

theorem Listed.assign (h : b.Listed i) (siteId gateId : String) (payload : Payload) :
    (b.assign siteId gateId payload).Listed i := by
  refine ⟨?_,h.expired⟩
  rcases h.listed with hi | hclosed
  · rcases b.live_or_expired hi with hlive | hexpired
    · exact Or.inl hlive
    · exact Or.inr (h.expired hexpired)
  · exact Or.inr hclosed

/-- One subscription is changed, and neither reopened nor let go of while open. -/
theorem Listed.update (h : b.Listed i) {j : ℕ} {p : Subscription}
    (hclosed : (b.sub j).closed = true → p.closed = true)
    (hexpired : p.expired = true → (b.sub j).expired = true ∨ p.closed = true) :
    Listed { b with sub := Function.update b.sub j p } i := by
  by_cases hij : i = j
  · subst hij
    refine ⟨?_,?_⟩
    · simp only [Function.update_self]
      exact h.listed.imp id hclosed
    · simp only [Function.update_self]
      intro hp
      exact (hexpired hp).elim (fun hb => hclosed (h.expired hb)) id
  · refine ⟨?_,?_⟩
    · simp only [Function.update_of_ne hij]
      exact h.listed
    · simp only [Function.update_of_ne hij]
      exact h.expired

theorem Listed.deliver (h : b.Listed i) (env : EventEnvelope) (j : ℕ) :
    (b.deliver env j).Listed i := by
  obtain ⟨hclosed,hexpired⟩ := offer_frame (b.sub j) env
  refine h.update ?_ ?_
  · rw [hclosed]
    exact id
  · rw [hexpired]
    exact Or.inl

theorem listed_subscribe_self (b : Bus) (i : ℕ) (filter : DashboardSubscription) :
    (b.subscribe i filter).Listed i := by
  obtain ⟨_,_,_,hexpired⟩ := Subscription.foldl_pushLocked_frame
    { filter := filter, capacity := b.perSubCapacity } (b.owed filter)
  refine ⟨Or.inl (List.mem_append_right _ List.mem_cons_self),?_⟩
  intro h
  simp only [Bus.subscribe, Function.update_self, hexpired] at h
  cases h

theorem Listed.subscribe (h : b.Listed i) (j : ℕ) (filter : DashboardSubscription) :
    (b.subscribe j filter).Listed i := by
  by_cases hij : i = j
  · rw [hij]
    exact listed_subscribe_self b j filter
  · refine ⟨?_,?_⟩
    · simp only [Bus.subscribe, Function.update_of_ne hij]
      exact h.listed.imp (List.mem_append_left _) id
    · simp only [Bus.subscribe, Function.update_of_ne hij]
      exact h.expired

/-- `stop` closes what it forgets. -/
theorem Listed.closeAll (h : b.Listed i) : b.closeAll.Listed i := by
  by_cases hlive : i ∈ b.live
  · refine ⟨Or.inr ?_,fun _ => ?_⟩
    · simp only [Bus.closeAll, hlive, if_true]
    · simp only [Bus.closeAll, hlive, if_true]
  · have hclosed : (b.sub i).closed = true := by
      rcases h.listed with hi | hclosed
      · rcases b.live_or_expired hi with hlive' | hexpired
        · exact absurd hlive' hlive
        · exact h.expired hexpired
      · exact hclosed
    refine ⟨Or.inr ?_,fun _ => ?_⟩
    · simpa only [Bus.closeAll, hlive, if_false] using hclosed
    · simpa only [Bus.closeAll, hlive, if_false] using hclosed

end Bus

/-- What the writer of a session has written or holds. -/
def Session.hands (x : Session) : List DashboardEvent := x.written ++ x.writer.held

/-- A running writer was running, and nothing leaves its hands. -/
def Session.Carries (x x' : Session) : Prop :=
  x'.writer ≠ .stopped → x.writer ≠ .stopped ∧ x.hands ⊆ x'.hands

theorem Session.Carries.refl (x : Session) : x.Carries x :=
  fun h => ⟨h,List.Subset.refl _⟩

theorem Session.carries_of_eq {x x' : Session} (hwriter : x'.writer = x.writer)
    (hwritten : x'.written = x.written) : x.Carries x' := by
  intro h
  rw [hwriter] at h
  refine ⟨h,?_⟩
  rw [hands, hands, hwriter, hwritten]
  exact List.Subset.refl _

/-- The writer holds nothing before the step. -/
theorem Session.carries_of_held {x x' : Session} {w : Writer} (hwriter : x.writer = w)
    (hrunning : w ≠ .stopped) (hheld : w.held = []) (hwritten : x'.written = x.written) :
    x.Carries x' := by
  intro _
  rw [hands, hands, hwriter, hheld, List.append_nil, hwritten]
  exact ⟨hrunning,List.subset_append_left _ _⟩

namespace Server
open BoundedQueue SnapshotFanout Transition
variable {s : Server} {σ : ℕ}

theorem bus_beginPublish (s : Server) (th : Thread) (siteId gateId : String) (payload : Payload) :
    (s.beginPublish th siteId gateId payload).bus = s.bus := by
  unfold Server.beginPublish
  split
  · rfl
  · rfl

theorem listed_step (h : s.bus.Listed σ) (a : Input) :
    (s.step a).bus.Listed σ := by
  cases a with
  | publish n siteId gateId payload =>
    simp only [Server.step]
    split
    · rwa [bus_beginPublish]
    · exact h
  | assign th =>
    simp only [Server.step, Server.assign]
    split
    · exact h.assign _ _ _
    · exact h
  | serve th =>
    simp only [Server.step, Server.serve]
    split
    · exact h.deliver _ _
    · exact h
    · exact h
  | «open» τ first =>
    simp only [Server.step, Server.openStream]
    split
    · exact h
    · split
      · exact h
      · split
        · exact h
        · rwa [bus_beginPublish]
      · exact h
  | subscribe τ =>
    simp only [Server.step, trySubscribe]
    split
    · split
      · exact h
      · exact h
    · exact h
  | register τ =>
    simp only [Server.step, Server.register]
    split
    · exact h.subscribe _ _
    · exact h
  | read τ payload =>
    simp only [Server.step, Server.read]
    split
    · split
      · rwa [bus_beginPublish]
      · rwa [bus_beginPublish]
      · rwa [bus_beginPublish]
      · exact h
      · exact h
    · exact h
  | resume τ =>
    simp only [Server.step, Server.resume]
    split
    · exact h
    · exact h
  | readFails τ =>
    simp only [Server.step, Server.readFails]
    split
    · exact h
    · exact h
  | close τ =>
    simp only [Server.step, Server.close]
    split
    · exact h.update (fun _ => rfl) (fun _ => Or.inr rfl)
    · exact h
  | join τ =>
    simp only [Server.step, Server.join]
    split
    · exact h.update (fun _ => rfl) (fun _ => Or.inr rfl)
    · exact h
  | cancel τ => exact h
  | writerTop τ =>
    simp only [Server.step, Server.writerTop]
    split
    · exact h
    · exact h
  | writerNext τ =>
    simp only [Server.step, Server.writerNext]
    split
    · split
      · exact h
      · exact h.update id Or.inl
    · exact h
  | writerStarved τ =>
    simp only [Server.step, Server.writerStarved]
    split
    · exact h
    · exact h
  | writerWrite τ ok =>
    simp only [Server.step, Server.writerWrite]
    split
    · split
      · exact h
      · exact h
    · exact h
  | stop => exact ⟨h.listed,h.expired⟩
  | closeAll =>
    simp only [Server.step]
    split
    · exact h.closeAll
    · exact h

/-- Every step but that of taking from the queue. -/
theorem carries_step (hlate : (s.session σ).stage.early = false) (a : Input)
    (ha : a ≠ .writerNext σ) : (s.session σ).Carries ((s.step a).session σ) := by
  have hturn := session_turn s a σ
  generalize (s.step a).session σ = x at hturn ⊢
  cases hturn with
  | same => exact .refl _
  | register hstage =>
    rw [hstage] at hlate
    cases hlate
  | top w hwriter => exact Session.carries_of_held hwriter Writer.noConfusion rfl rfl
  | starved w hwriter => exact Session.carries_of_held hwriter Writer.noConfusion rfl rfl
  | next => exact absurd rfl ha
  | write hwriter =>
    intro _
    rw [Session.hands, Session.hands, hwriter]
    exact ⟨Writer.noConfusion,by simp [Writer.held]⟩
  | fail => exact fun h => absurd rfl h
  | _ => exact Session.carries_of_eq rfl rfl

/-- Whatever command the writer has taken, it has written or holds. -/
def Carried (σ : ℕ) (p : Server × Ledger) : Prop :=
  (p.1.session σ).writer ≠ .stopped →
    ∀ e ∈ p.2.taken σ, e.isCommand = true → e ∈ (p.1.session σ).hands

theorem taken_step (l : Ledger) (a : Input) (ha : a ≠ .writerNext σ) :
    (record s a l).taken σ = l.taken σ := by
  cases a with
  | assign th =>
    simp only [record]
    cases s.publisher th with
    | idle => rfl
    | checked siteId gateId payload => rfl
    | serving env targets => rfl
  | serve th =>
    simp only [record]
    rcases s.publisher th with _ | _ | ⟨env,_ | ⟨i,rest⟩⟩
    · rfl
    · rfl
    · rfl
    · rfl
  | writerNext τ =>
    have hother : σ ≠ τ := fun h => ha (h ▸ rfl)
    simp only [record]
    split
    · exact Function.update_of_ne hother _ _
    · rfl
  | _ => rfl

theorem carried_writerNext {l : Ledger} (h : Carried σ (s,l)) :
    Carried σ (observe step record (s,l) (.writerNext σ)) := by
  by_cases hpolling : (s.session σ).writer = .polling
  · have hbefore : ∀ e ∈ l.taken σ, e.isCommand = true → e ∈ (s.session σ).written := by
      intro e he hcommand
      have hmem := h (running_of_eq hpolling Writer.noConfusion) e he hcommand
      simpa [Session.hands, hpolling, Writer.held] using hmem
    intro _ e he hcommand
    simp only [observe, record, hpolling, if_true, Ledger.noteTake, Function.update_self] at he
    simp only [observe, Server.step, Server.writerNext, hpolling, if_true]
    cases hqueue : (s.bus.sub σ).queue with
    | nil =>
      rw [hqueue, List.take_nil, List.append_nil] at he
      simpa [Session.hands, Writer.held] using hbefore e he hcommand
    | cons e' rest =>
      rw [hqueue, List.take_succ_cons, List.take_zero] at he
      rw [Session.hands, setSession_self]
      rcases List.mem_append.mp he with he | he
      · exact List.mem_append_left _ (hbefore e he hcommand)
      · rw [List.mem_singleton.mp he] at hcommand ⊢
        obtain ⟨c,hpayload⟩ := DashboardEvent.payload_of_isCommand hcommand
        refine List.mem_append_right _ ?_
        simp only [hpayload, Writer.held]
        exact List.mem_singleton_self _
  · have hsame : observe step record (s,l) (.writerNext σ) = (s,l) := by
      simp only [observe, Server.step, Server.writerNext, record, hpolling, if_false]
    rw [hsame]
    exact h

theorem Carried.step {p : Server × Ledger} (h : Carried σ p)
    (hlate : (p.1.session σ).stage.early = false) (a : Input) :
    Carried σ (observe Server.step record p a) := by
  by_cases ha : a = .writerNext σ
  · rw [ha]
    exact carried_writerNext h
  · intro hrunning e he hcommand
    obtain ⟨hbefore,hhands⟩ := carries_step hlate a ha hrunning
    have htaken : e ∈ p.2.taken σ := by
      rw [← taken_step p.2 a ha]
      exact he
    exact hhands (h hbefore e htaken hcommand)

/-- The condition on a delivery to the session. -/
def SparesCommands (σ : ℕ) (s : Server) : Input → Prop
  | .serve th => ∀ x ∈ (s.publisher th).delivery, x.2 = σ → (s.bus.sub σ).Spares x.1
  | _ => True

instance (σ : ℕ) (s : Server) : (a : Input) → Decidable (SparesCommands σ s a)
  | .serve th => inferInstanceAs (Decidable (∀ x ∈ (s.publisher th).delivery, _))
  | .open .. | .publish .. | .assign _ | .register _ | .subscribe _ | .read .. | .resume _
  | .readFails _ | .close _ | .join _ | .cancel _ | .writerTop _ | .writerNext _
  | .writerStarved _ | .writerWrite .. | .stop | .closeAll => isTrue trivial

/-- A session past registration; the log had `c` envelopes when it registered and its
subscription had dropped `d` events and queued `start`. No command is dropped later. -/
structure Attended (c σ d : ℕ) (g : String) (start : List DashboardEvent)
    (p : Server × Ledger) : Prop where
  fit : Fit p
  late : (p.1.session σ).stage.early = false
  listed : p.1.bus.Listed σ
  since : Since c σ (view p).fanout
  books : (view p).Books (fun e => e.isCommand = false) d (controlFilter g) start σ
  carried : Carried σ p

theorem Attended.registered {p : Server × Ledger} (h : Fit p)
    (hstage : (p.1.session σ).stage = .registering) :
    ∃ d start, Attended p.2.log.length σ d (p.1.session σ).gateId start
      (observe Server.step record p (.register σ)) := by
  have hnew : σ ∉ (view p).known := by
    intro hknown
    change (p.1.session σ).stage.early = false at hknown
    rw [hstage] at hknown
    cases hknown
  have hstep : (observe Server.step record p (.register σ)).1 =
      { p.1 with bus := p.1.bus.subscribe σ (controlFilter (p.1.session σ).gateId) }.setSession σ
        { p.1.session σ with stage := .streaming, writer := .top } := by
    simp only [observe, Server.step, Server.register, hstage, if_true]
  have hview : view (observe Server.step record p (.register σ)) =
      { view p with
        bus := p.1.bus.subscribe σ (controlFilter (p.1.session σ).gateId)
        known := insert σ (view p).known } := by
    have hknown := known_setSession p.1 σ
      (x:={ p.1.session σ with stage := .streaming, writer := .top }) rfl
    rw [view, hstep, show insert σ (view p).known = _ from hknown.symm]
    rfl
  have hempty : p.2.taken σ = [] := (h.tidy.unknown σ hnew).1
  have hoffered : p.2.offered σ = [] :=
    List.eq_nil_iff_forall_not_mem.mpr fun env henv =>
      hnew ((h.tidy.sound.received σ).2 env henv).2
  obtain ⟨hfilter,_,_,_⟩ := Subscription.foldl_pushLocked_frame
    { filter := controlFilter (p.1.session σ).gateId, capacity := p.1.bus.perSubCapacity }
    (p.1.bus.owed (controlFilter (p.1.session σ).gateId))
  refine ⟨((p.1.bus.subscribe σ (controlFilter (p.1.session σ).gateId)).sub σ).dropped,
    ((p.1.bus.subscribe σ (controlFilter (p.1.session σ).gateId)).sub σ).queue,
    h.step (.register σ),?_,?_,?_,?_,?_⟩
  · rw [hstep, setSession_self]
    rfl
  · rw [hstep]
    exact Bus.listed_subscribe_self _ _ _
  · rw [hview]
    exact Since.joined h.tidy.sound hnew
  · rw [hview]
    refine ⟨?_,fun _ => ⟨[],by simp,by simp,?_⟩⟩
    · simp only [Bus.subscribe, Function.update_self]
      exact hfilter
    · simp only [view, hempty, hoffered, matching, List.filter_nil, List.map_nil, List.append_nil]
      exact Account.start _
  · intro _ e he _
    change e ∈ p.2.taken σ at he
    rw [hempty] at he
    exact absurd he List.not_mem_nil

theorem Attended.step {c d : ℕ} {g : String} {start : List DashboardEvent} {p : Server × Ledger}
    (h : Attended c σ d g start p) {a : Input} (hspares : SparesCommands σ p.1 a) :
    Attended c σ d g start (observe Server.step record p a) := by
  obtain ⟨label,hmove,hlabel⟩ := step_view p.1 p.2 h.fit.unoccupied a
  refine ⟨h.fit.step a,hmove.known h.late,listed_step h.listed a,
    View.since_move h.fit.tidy h.since hmove,?_,h.carried.step h.late a⟩
  refine h.books.move h.late hmove ?_
  intro th env rest hth hserving hopen hmatch
  have hserve := hlabel th hth
  subst hserve
  have hdelivery : (env, σ) ∈ (p.1.publisher th).delivery := by
    rw [show p.1.publisher th = .serving env (σ :: rest) from hserving]
    rfl
  rw [← h.books.1] at hmatch
  exact (hspares (env, σ) hdelivery rfl).evicted hopen hmatch

theorem filterMatches_command {g siteId : String} {e : DashboardEvent}
    (he : e.isCommand = true) : filterMatches (controlFilter g) siteId g e = true := by
  obtain ⟨c,hpayload⟩ := DashboardEvent.payload_of_isCommand he
  simp [filterMatches, controlFilter, hpayload]

/-- The books of a session that lives show every command published for its gate. -/
theorem Attended.kept {c d : ℕ} {g : String} {start : List DashboardEvent} {p : Server × Ledger}
    (h : Attended c σ d g start p) (hopen : (p.1.bus.sub σ).closed = false)
    (hrunning : (p.1.session σ).writer ≠ .stopped) {env : EventEnvelope}
    (henv : env ∈ p.2.log.drop c) (hgate : env.gateId = g) (hcommand : env.event.isCommand = true) :
    (∃ th targets, p.1.publisher th = .serving env targets ∧ σ ∈ targets) ∨
      env.event ∈ (p.1.session σ).hands ++ (p.1.bus.sub σ).queue := by
  have hmember : σ ∈ (view p).fanout.members := by
    rcases h.listed.listed with hlisted | hclosed
    · exact hlisted
    · exact absurd (hopen.symm.trans hclosed) Bool.false_ne_true
  rcases h.since.complete hmember env henv with hreceived | ⟨th,howes⟩
  · right
    have hmatch : env.event ∈ matching (controlFilter g) (p.2.offered σ) := by
      refine List.mem_map_of_mem (List.mem_filter.mpr ⟨hreceived,?_⟩)
      rw [hgate]
      exact filterMatches_command hcommand
    obtain ⟨lost,hlost,_,haccount⟩ := h.books.2 hopen
    have hmem := haccount.perm.mem_iff.mpr (List.mem_append_right start hmatch)
    rcases List.mem_append.mp hmem with hmem | hmem
    · rcases List.mem_append.mp hmem with htaken | hqueued
      · exact List.mem_append_left _ (h.carried hrunning _ htaken hcommand)
      · exact List.mem_append_right _ hqueued
    · exact absurd (hcommand.symm.trans (hlost _ hmem)) Bool.false_ne_true.symm
  · exact Or.inl ⟨th,View.owes_iff.mp howes⟩

/-- A command published for the gate of a session after the session registered is still to
be delivered, queued, held by the writer or written while the session lives, provided that
no delivery to the session finds its queue full with a command at the head. -/
theorem commands_kept_while_session_lives (ringCapacity perSubCapacity : ℕ)
    (defaultSiteId : String) (before after : List Input) (σ : ℕ) {p q : Server × Ledger}
    (hp : run ringCapacity perSubCapacity defaultSiteId before = p)
    (hstage : (p.1.session σ).stage = .registering)
    (hspares : AllSteps step (SparesCommands σ) (p.1.step (.register σ)) after)
    (hq : run ringCapacity perSubCapacity defaultSiteId (before ++ .register σ :: after) = q)
    (hopen : (q.1.bus.sub σ).closed = false) (hrunning : (q.1.session σ).writer ≠ .stopped) :
    ∀ env ∈ q.2.log.drop p.2.log.length, env.gateId = (p.1.session σ).gateId →
      env.event.isCommand = true →
      (∃ th targets, q.1.publisher th = .serving env targets ∧ σ ∈ targets) ∨
        env.event ∈ (q.1.session σ).hands ++ (q.1.bus.sub σ).queue := by
  have hfit : Fit p := hp ▸ Fit.run ringCapacity perSubCapacity defaultSiteId before
  obtain ⟨d,start,hregistered⟩ := Attended.registered hfit hstage
  have hattended : Attended p.2.log.length σ d (p.1.session σ).gateId start q := by
    rw [← hq, run, exec_append, exec_cons]
    rw [show exec (observe step record) _ before = p from hp]
    exact exec_invariant_of (fun _ a hC hI => hI.step hC)
      (AllSteps.observe record hspares) hregistered
  exact fun env henv hgate hcommand => hattended.kept hopen hrunning henv hgate hcommand

/-- An event of gate `g` other than a command is published and served to one subscriber. -/
def notice (payload : Payload) : List Input :=
  [.publish 0 "site" "g" payload, .assign (.client 0), .serve (.client 0), .serve (.client 0)]

/-- A queue of two places has room for a command and an ack. -/
theorem command_kept_with_room :
    let before := (connect 1 "g").dropLast
    let after := command ⟨"c","g"⟩ ++ notice .ack
    let q := run 8 2 "site" (before ++ .register 1 :: after)
    (⟨2,.command ⟨"c","g"⟩⟩ : DashboardEvent) ∈ (q.1.session 1).hands ++ (q.1.bus.sub 1).queue := by
  intro before after q
  have hkept := commands_kept_while_session_lives 8 2 "site" before after 1 rfl (by decide)
    (by decide +kernel) (rfl : _ = q) (by decide +kernel) (by decide +kernel)
    ⟨"site","g",2,.command ⟨"c","g"⟩⟩ (by decide +kernel) rfl rfl
  rcases hkept with ⟨th,targets,hserving,_⟩ | hkept
  · cases th with
    | client n =>
      cases n with
      | zero => cases hserving
      | succ n => cases hserving
    | handler n =>
      cases n with
      | zero => cases hserving
      | succ n =>
        cases n with
        | zero => cases hserving
        | succ n => cases hserving
  · exact hkept

/-- One command is pending in a queue of two places, with a decision behind it. The ack that
comes next evicts it: the session lives, every publish call is over, and the command is
neither queued nor in the writer's hands. -/
theorem command_evicted_by_ack :
    let stalled := connect 1 "g" ++ command ⟨"c","g"⟩ ++ notice .decision
    let s := exec step (boot 8 2 "site") stalled
    let t := exec step s (notice .ack)
    let c : DashboardEvent := ⟨2,.command ⟨"c","g"⟩⟩
    c ∈ (s.bus.sub 1).queue ∧
      ((s.bus.sub 1).queue.filter DashboardEvent.isCommand).length < (s.bus.sub 1).capacity ∧
      (t.session 1).stage = .streaming ∧ (t.session 1).writer ≠ .stopped ∧
      (t.bus.sub 1).closed = false ∧ t.publisher (.client 0) = .idle ∧
      c ∉ (t.session 1).hands ++ (t.bus.sub 1).queue := by
  decide +kernel

end Server
end AlprGate.Dash
