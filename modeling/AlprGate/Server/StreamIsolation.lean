import AlprGate.Server.Reconnects
import AlprGate.Server.SessionBus

/-! # Gates are kept apart by their control streams

Commands are routed by the gate they name and reach the stream of that gate only. In the
other direction an ack is routed by the gate of the stream it came from, but telemetry and
faults are routed by the gate that they name themselves.
-/
namespace AlprGate.Dash

/-- If this is a command, it is one for gate `g`. -/
def Payload.For (g : String) (payload : Payload) : Prop :=
  ∀ c, payload = .command c → c.gateId = g

/-- A command travels under the gate that it names. -/
def EventEnvelope.Routed (env : EventEnvelope) : Prop := env.event.payload.For env.gateId

/-- `publish_command` routes by the command, and nothing else publishes commands. -/
def Input.Routed : Input → Prop
  | .publish _ _ gateId payload => payload.For gateId
  | _ => True

/-- An input of the server as the services make them. -/
structure ServiceInput where
  input : Input
  routed : input.Routed

theorem filterMatches_controlFilter {g siteId gateId : String} {e : DashboardEvent}
    (h : filterMatches (Server.controlFilter g) siteId gateId e = true) : gateId = g := by
  by_contra hne
  simp [filterMatches, Server.controlFilter, hne] at h

namespace View
variable {T : Type*} [DecidableEq T] {v w : View T} {l : Option T}

theorem Move.ring_mem (hmove : Move v l w) {env : EventEnvelope} (henv : env ∈ w.bus.ring) :
    env ∈ v.bus.ring ∨ ∃ t siteId gateId payload, v.publisher t = .checked siteId gateId payload ∧
      env = v.bus.envelope siteId gateId payload := by
  cases hmove with
  | quiet hquiet =>
    rw [hquiet.ring] at henv
    exact Or.inl henv
  | @assign t siteId gateId payload hchecked =>
    rcases List.mem_append.mp henv with henv | henv
    · left
      split at henv
      · exact List.mem_of_mem_tail henv
      · exact henv
    · exact Or.inr ⟨t,siteId,gateId,payload,hchecked,List.mem_singleton.mp henv⟩
  | serve hserving => exact Or.inl henv
  | finish hserving => exact Or.inl henv
  | register filter hnew => exact Or.inl henv
  | take i n => exact Or.inl henv

/-- A subscription keeps its filter. -/
theorem Move.filter (hmove : Move v l w) {i : ℕ} (hi : i ∈ v.known) :
    (w.bus.sub i).filter = (v.bus.sub i).filter := by
  cases hmove with
  | quiet hquiet => exact (hquiet.sub i).filter
  | assign hchecked => rfl
  | @serve t env j rest hserving =>
    by_cases hij : i = j
    · subst hij
      simp only [Bus.deliver, Function.update_self]
      unfold Subscription.offer
      split
      · rfl
      · split
        · rfl
        · rfl
    · simp only [Bus.deliver, Function.update_of_ne hij]
  | finish hserving => rfl
  | @register j filter hnew =>
    have hij : i ≠ j := fun hij => hnew (hij ▸ hi)
    simp only [Bus.subscribe, Function.update_of_ne hij]
  | take j n =>
    by_cases hij : i = j
    · subst hij
      simp only [Bus.takeFirst, Function.update_self]
    · simp only [Bus.takeFirst, Function.update_of_ne hij]

end View

theorem mem_offer_queue {p : Subscription} {env : EventEnvelope} {e : DashboardEvent}
    (he : e ∈ (p.offer env).queue) :
    e ∈ p.queue ∨
      (e = env.event ∧ filterMatches p.filter env.siteId env.gateId env.event = true) := by
  have hsub := (offer_queue_sublist p env).subset he
  unfold Subscription.offer at he
  split at he
  · exact Or.inl he
  · split at he
    · rename_i hmatch
      rcases List.mem_append.mp hsub with hsub | hsub
      · exact Or.inl hsub
      · exact Or.inr ⟨List.mem_singleton.mp hsub,hmatch⟩
    · exact Or.inl he

namespace Server
open BoundedQueue Transition

section Steps
variable {s t : Server} {a : Input} {σ τ : ℕ}

/-- A session that has been opened keeps its gate, and stays opened. -/
theorem opened_step (h : (s.session σ).stage ≠ .unopened) (a : Input) :
    ((s.step a).session σ).stage ≠ .unopened ∧
      ((s.step a).session σ).gateId = (s.session σ).gateId := by
  have hturn := session_turn s a σ
  generalize (s.step a).session σ = x at hturn ⊢
  cases hturn with
  | same => exact ⟨h,rfl⟩
  | enter hstage => exact absurd hstage h
  | reject status hstage => exact absurd hstage h
  | cancel => exact ⟨h,rfl⟩
  | top w hwriter => exact ⟨h,rfl⟩
  | next w hwriter => exact ⟨h,rfl⟩
  | starved w hwriter => exact ⟨h,rfl⟩
  | write hwriter => exact ⟨h,rfl⟩
  | fail hwriter => exact ⟨h,rfl⟩
  | _ => exact ⟨Stage.noConfusion,rfl⟩

/-- The events a session has written, holds and has queued. -/
def handed (s : Server) (σ : ℕ) : List DashboardEvent :=
  (s.session σ).written ++ ((s.session σ).writer.held ++ (s.bus.sub σ).queue)

theorem handed_of_early (h : Unrepeated s) (hearly : Early s σ) : s.handed σ = [] := by
  have hids : (s.handed σ).map DashboardEvent.eventId = [] := by
    rw [← h.freshSeen σ hearly, handed, List.map_append]
    rfl
  exact List.map_eq_nil_iff.mp hids

theorem handed_congr (hx : t.session τ = s.session τ) (hp : t.bus.sub τ = s.bus.sub τ) :
    t.handed τ = s.handed τ := by
  rw [handed, hx, hp, handed]

theorem Steady.handed_subset (h : Steady s t) : t.handed τ ⊆ s.handed τ := by
  rw [handed, (h.fades τ).written]
  exact ((h.fades τ).pending.append_left _).subset

/-- A session gains an event when it is served, or by the replay. -/
theorem Move.handed_mem (hmove : Move s a t) {e : DashboardEvent} (he : e ∈ t.handed τ) :
    e ∈ s.handed τ ∨
    (∃ th env rest, s.publisher th = .serving env (τ :: rest) ∧ e = env.event ∧
      filterMatches (s.bus.sub τ).filter env.siteId env.gateId env.event = true) ∨
    ((s.session τ).stage = .registering ∧
      e ∈ s.bus.owed (controlFilter (s.session τ).gateId)) := by
  cases hmove with
  | steady hsteady => exact Or.inl (hsteady.handed_subset he)
  | @enter σ gateId _ hstage hsteady =>
    left
    have hentered := hsteady.handed_subset he
    have hsame : (s.enter σ gateId).handed τ = s.handed τ := by
      rcases enter_session_cases s σ τ gateId with ⟨_,hx⟩ | ⟨_,hx⟩
      · rw [handed, hx]
        rfl
      · exact handed_congr hx rfl
    rwa [hsame] at hentered
  | assign => exact Or.inl he
  | @deliver th env i rest hserving =>
    by_cases hi : τ = i
    · subst hi
      simp only [handed, setPublisher, Bus.deliver, Function.update_self] at he
      rcases List.mem_append.mp he with he | he
      · exact Or.inl (List.mem_append_left _ he)
      · rcases List.mem_append.mp he with he | he
        · exact Or.inl (List.mem_append_right _ (List.mem_append_left _ he))
        · rcases mem_offer_queue he with he | ⟨rfl,hmatch⟩
          · exact Or.inl (List.mem_append_right _ (List.mem_append_right _ he))
          · exact Or.inr (Or.inl ⟨th,env,rest,hserving,rfl,hmatch⟩)
    · have hsub : (s.bus.deliver env i).sub τ = s.bus.sub τ := Function.update_of_ne hi ..
      have hsame := handed_congr (s:=s) (t:={ s with bus := s.bus.deliver env i }) rfl hsub
      change e ∈ handed { s with bus := s.bus.deliver env i } τ at he
      rw [hsame] at he
      exact Or.inl he
  | @register σ hstage =>
    by_cases hσ : τ = σ
    · subst hσ
      simp only [handed, setSession_self, Writer.held, List.nil_append] at he
      rcases List.mem_append.mp he with he | he
      · exact Or.inl (List.mem_append_left _ he)
      · refine Or.inr (Or.inr ⟨hstage,?_⟩)
        simp only [setSession, Bus.subscribe, Function.update_self, foldl_pushLocked_queue] at he
        exact (foldl_pushDrop_sublist _ _ _).subset he
    · have hx : ({ s with bus := s.bus.subscribe σ (controlFilter (s.session σ).gateId) }.setSession σ
          { s.session σ with stage := .streaming, writer := .top }).session τ = s.session τ :=
        setSession_other hσ
      rw [handed_congr hx (Function.update_of_ne hσ ..)] at he
      exact Or.inl he
  | @write σ e' hholding =>
    left
    by_cases hσ : τ = σ
    · subst hσ
      simpa [handed, hholding, Writer.held, setSession] using he
    · rwa [handed_congr (setSession_other hσ) rfl] at he

end Steps

/-- Commands are where their gate is. -/
structure Sorted (s : Server) : Prop where
  checked : ∀ th siteId gateId payload, s.publisher th = .checked siteId gateId payload →
    payload.For gateId
  serving : ∀ th env ts, s.publisher th = .serving env ts → env.Routed
  ring : ∀ env ∈ s.bus.ring, env.Routed
  filter : ∀ σ, Target s σ → (s.bus.sub σ).filter = controlFilter (s.session σ).gateId
  handed : ∀ σ, ∀ e ∈ s.handed σ, e.payload.For (s.session σ).gateId

section Sorted
variable {s : Server} {σ : ℕ}

theorem opened_of_late (hlate : ¬ Early s σ) : (s.session σ).stage ≠ .unopened :=
  fun h => hlate (early_of_stage h rfl)

theorem Sorted.checked_step (h : Sorted s) {a : Input} (ha : a.Routed) (th : Thread)
    (siteId gateId : String) (payload : Payload)
    (hchecked : (s.step a).publisher th = .checked siteId gateId payload) :
    payload.For gateId := by
  have hreport : ∀ {p : Payload}, (∀ c, p ≠ .command c) → p.For gateId :=
    fun hp c hc => absurd hc (hp c)
  have hprogress := publisher_progress s a th
  rw [hchecked] at hprogress
  generalize hp : Publisher.checked siteId gateId payload = p at hprogress
  cases hprogress with
  | same => exact h.checked th siteId gateId payload hp.symm
  | client =>
    cases hp
    exact ha
  | announce hstage hgate =>
    cases hp
    exact hreport fun c => Payload.noConfusion
  | telemetry hstage =>
    cases hp
    exact hreport fun c => Payload.noConfusion
  | ack hstage =>
    cases hp
    exact hreport fun c => Payload.noConfusion
  | fault hstage =>
    cases hp
    exact hreport fun c => Payload.noConfusion
  | assign hchecked => cases hp
  | serve hserving => cases hp
  | finish hserving => cases hp

theorem Sorted.serving_step (h : Sorted s) (a : Input) (th : Thread) (env : EventEnvelope)
    (ts : List ℕ) (hserving : (s.step a).publisher th = .serving env ts) : env.Routed := by
  have hprogress := publisher_progress s a th
  rw [hserving] at hprogress
  generalize hp : Publisher.serving env ts = p at hprogress
  cases hprogress with
  | same => exact h.serving th env ts hp.symm
  | assign hchecked =>
    cases hp
    exact h.checked th _ _ _ hchecked
  | serve hserving =>
    cases hp
    exact h.serving th env _ hserving
  | _ => cases hp

theorem Sorted.filter_step (h : Sorted s) (hs : Enrolled s) (hfree : Unoccupied s) (a : Input)
    (htarget : Target (s.step a) σ) :
    ((s.step a).bus.sub σ).filter = controlFilter ((s.step a).session σ).gateId := by
  have hbefore : Target s σ →
      ((s.step a).bus.sub σ).filter = controlFilter ((s.step a).session σ).gateId := by
    intro htarget'
    have hlate : ¬ Early s σ := fun hearly => hs.freshTarget σ hearly htarget'
    obtain ⟨label,hmove,_⟩ := step_view s {} hfree a
    have hfilter := hmove.filter (i:=σ) (Bool.eq_false_iff.mpr hlate)
    rw [(opened_step (opened_of_late hlate) a).2, ← h.filter σ htarget']
    exact hfilter
  rcases (step_move s a).target htarget with htarget' | ⟨rfl,_⟩
  · exact hbefore htarget'
  · by_cases hstage : (s.session σ).stage = .registering
    · obtain ⟨hfilter,_⟩ := Subscription.foldl_pushLocked_frame
        { filter := controlFilter (s.session σ).gateId, capacity := s.bus.perSubCapacity }
        (s.bus.owed (controlFilter (s.session σ).gateId))
      simp only [Server.step, Server.register, hstage, if_true, setSession, Bus.subscribe,
        Function.update_self]
      exact hfilter
    · have hsame : s.step (.register σ) = s := by
        simp only [Server.step, Server.register, hstage, if_false]
      rw [hsame] at htarget ⊢
      exact h.filter σ htarget

theorem Sorted.handed_step (h : Sorted s) (hs : Enrolled s) (hu : Unrepeated s) (a : Input)
    {e : DashboardEvent} (he : e ∈ (s.step a).handed σ) :
    e.payload.For ((s.step a).session σ).gateId := by
  rcases (step_move s a).handed_mem he with he | ⟨th,env,rest,hserving,rfl,hmatch⟩ | ⟨hstage,he⟩
  · have hopened : (s.session σ).stage ≠ .unopened := by
      intro hunopened
      rw [handed_of_early hu (early_of_stage hunopened rfl)] at he
      exact absurd he List.not_mem_nil
    rw [(opened_step hopened a).2]
    exact h.handed σ e he
  · have htarget : Target s σ := Or.inr ⟨th,env,_,hserving,List.mem_cons_self⟩
    have hlate : ¬ Early s σ := fun hearly => hs.freshTarget σ hearly htarget
    rw [h.filter σ htarget] at hmatch
    rw [(opened_step (opened_of_late hlate) a).2, ← filterMatches_controlFilter hmatch]
    exact h.serving th env _ hserving
  · obtain ⟨env,henv,rfl⟩ := List.mem_map.mp he
    obtain ⟨hring,hmatch⟩ := List.mem_filter.mp henv
    have hopened : (s.session σ).stage ≠ .unopened := by
      rw [hstage]
      exact Stage.noConfusion
    rw [(opened_step hopened a).2,
      ← filterMatches_controlFilter (Bool.and_eq_true_iff.mp hmatch).2]
    exact h.ring env hring

/-- What holds in every state of a run of the services. -/
structure Orderly (s : Server) : Prop where
  enrolled : Enrolled s
  unrepeated : Unrepeated s
  unoccupied : Unoccupied s
  sorted : Sorted s

theorem Orderly.step (h : Orderly s) {a : Input} (ha : a.Routed) : Orderly (s.step a) where
  enrolled := step_enrolled s a h.enrolled
  unrepeated := step_unrepeated s a h.enrolled h.unrepeated
  unoccupied := h.unoccupied.step a
  sorted := {
    checked := h.sorted.checked_step ha
    serving := h.sorted.serving_step a
    ring := by
      intro env henv
      obtain ⟨label,hmove,_⟩ := step_view s {} h.unoccupied a
      rcases hmove.ring_mem henv with henv | ⟨th,siteId,gateId,payload,hchecked,rfl⟩
      · exact h.sorted.ring env henv
      · exact h.sorted.checked th siteId gateId payload hchecked
    filter := fun _ => h.sorted.filter_step h.enrolled h.unoccupied a
    handed := fun _ _ => h.sorted.handed_step h.enrolled h.unrepeated a }

theorem Orderly.boot (ringCapacity perSubCapacity : ℕ) (defaultSiteId : String) :
    Orderly (boot ringCapacity perSubCapacity defaultSiteId) where
  enrolled := boot_enrolled ringCapacity perSubCapacity defaultSiteId
  unrepeated := boot_unrepeated ringCapacity perSubCapacity defaultSiteId
  unoccupied := fun _ => Or.inr (Or.inr rfl)
  sorted := {
    checked := fun _ _ _ _ h => by cases h
    serving := fun _ _ _ h => by cases h
    ring := fun _ h => absurd h List.not_mem_nil
    filter := fun σ h => absurd h
      ((boot_enrolled ringCapacity perSubCapacity defaultSiteId).freshTarget σ rfl)
    handed := fun _ _ h => absurd h List.not_mem_nil }

end Sorted

/-- The events put on the bus, with the thread that published each. -/
def notePublished (s : Server) (a : Input) (l : List (Thread × EventEnvelope)) :
    List (Thread × EventEnvelope) :=
  match a with
  | .assign th => match s.publisher th with
    | .checked siteId gateId payload => l ++ [(th, s.bus.envelope siteId gateId payload)]
    | _ => l
  | _ => l

/-- Telemetry and faults read from a stream name the gate of the stream. -/
def NamesItself (s : Server) : Input → Prop
  | .read σ (.telemetry gateId) => (s.session σ).stage = .streaming → gateId = (s.session σ).gateId
  | .read σ (.fault gateId) => (s.session σ).stage = .streaming → gateId = (s.session σ).gateId
  | _ => True

/-- What the handler of a session publishes goes under the gate of the session. -/
structure Owned (p : Server × List (Thread × EventEnvelope)) : Prop where
  checked : ∀ σ siteId gateId payload, p.1.publisher (.handler σ) = .checked siteId gateId payload →
    (p.1.session σ).stage ≠ .unopened ∧ gateId = (p.1.session σ).gateId
  published : ∀ σ env, (.handler σ, env) ∈ p.2 →
    (p.1.session σ).stage ≠ .unopened ∧ env.gateId = (p.1.session σ).gateId

section Owned
variable {p : Server × List (Thread × EventEnvelope)}

/-- A gate that was the session's gate still is. -/
theorem owned_opened {s : Server} {σ : ℕ} {gateId : String} (a : Input)
    (h : (s.session σ).stage ≠ .unopened ∧ gateId = (s.session σ).gateId) :
    ((s.step a).session σ).stage ≠ .unopened ∧ gateId = ((s.step a).session σ).gateId := by
  obtain ⟨hstage,hgate⟩ := opened_step h.1 a
  exact ⟨hstage,h.2.trans hgate.symm⟩

theorem Owned.checked_step (h : Owned p) {a : Input} (ha : NamesItself p.1 a) (σ : ℕ)
    (siteId gateId : String) (payload : Payload)
    (hchecked : (p.1.step a).publisher (.handler σ) = .checked siteId gateId payload) :
    ((p.1.step a).session σ).stage ≠ .unopened ∧
      gateId = ((p.1.step a).session σ).gateId := by
  have hstreaming : (p.1.session σ).stage = .streaming → (p.1.session σ).stage ≠ .unopened := by
    intro hstage
    rw [hstage]
    exact Stage.noConfusion
  have hprogress := publisher_progress p.1 a (.handler σ)
  rw [hchecked] at hprogress
  generalize hpub : Publisher.checked siteId gateId payload = pub at hprogress
  generalize hth : Thread.handler σ = th at hprogress
  cases hprogress with
  | same =>
    rw [← hth] at hpub
    exact owned_opened a (h.checked σ siteId gateId payload hpub.symm)
  | client => cases hth
  | announce hstage hgate =>
    cases hth
    cases hpub
    have hsession : ((p.1.step (.open σ (some (.telemetry gateId)))).session σ) =
        { p.1.session σ with stage := .announcing, gateId := gateId } := by
      simp [Server.step, Server.openStream, hstage, hgate, session_beginPublish]
    rw [hsession]
    exact ⟨Stage.noConfusion,rfl⟩
  | telemetry hstage =>
    cases hth
    cases hpub
    exact owned_opened _ ⟨hstreaming hstage,ha hstage⟩
  | ack hstage =>
    cases hth
    cases hpub
    exact owned_opened _ ⟨hstreaming hstage,rfl⟩
  | fault hstage =>
    cases hth
    cases hpub
    exact owned_opened _ ⟨hstreaming hstage,ha hstage⟩
  | assign hchecked => cases hpub
  | serve hserving => cases hpub
  | finish hserving => cases hpub

theorem mem_notePublished {s : Server} {a : Input} {l : List (Thread × EventEnvelope)}
    {th : Thread} {env : EventEnvelope} (h : (th, env) ∈ notePublished s a l) :
    (th, env) ∈ l ∨ ∃ siteId gateId payload, s.publisher th = .checked siteId gateId payload ∧
      env = s.bus.envelope siteId gateId payload := by
  unfold notePublished at h
  split at h
  · split at h
    · rename_i th' siteId gateId payload hchecked
      rcases List.mem_append.mp h with h | h
      · exact Or.inl h
      · cases List.mem_singleton.mp h
        exact Or.inr ⟨siteId,gateId,payload,hchecked,rfl⟩
    · exact Or.inl h
  · exact Or.inl h

theorem Owned.step (h : Owned p) {a : Input} (ha : NamesItself p.1 a) :
    Owned (observe Server.step notePublished p a) where
  checked := h.checked_step ha
  published := by
    intro σ env henv
    rcases mem_notePublished henv with henv | ⟨siteId,gateId,payload,hchecked,rfl⟩
    · exact owned_opened a (h.published σ env henv)
    · exact owned_opened a (h.checked σ siteId gateId payload hchecked)

end Owned

/-- In every run of the services, every command written to a stream names the gate of the
stream. If all telemetry and all faults read from streams name the gate of their stream,
everything published from a stream is routed under the gate of the stream. -/
theorem streams_isolated (ringCapacity perSubCapacity : ℕ) (defaultSiteId : String)
    (as : List ServiceInput) {p : Server × List (Thread × EventEnvelope)}
    (hp : exec (observe step notePublished) (boot ringCapacity perSubCapacity defaultSiteId, [])
      (as.map ServiceInput.input) = p) :
    (∀ σ, ∀ e ∈ (p.1.session σ).written, ∀ c, e.payload = .command c →
      c.gateId = (p.1.session σ).gateId) ∧
    (AllSteps step NamesItself (boot ringCapacity perSubCapacity defaultSiteId)
        (as.map ServiceInput.input) →
      ∀ σ env, (.handler σ, env) ∈ p.2 → env.gateId = (p.1.session σ).gateId) := by
  constructor
  · have horderly : Orderly p.1 := by
      rw [← hp, exec_observe_fst, exec, List.foldl_map]
      have hstep : ∀ (s : Server) (a : ServiceInput), Orderly s → Orderly (s.step a.input) :=
        fun s a h => h.step a.routed
      exact exec_invariant hstep as (Orderly.boot ringCapacity perSubCapacity defaultSiteId)
    exact fun σ e he => horderly.sorted.handed σ e (List.mem_append_left _ he)
  · intro hnames
    have howned : Owned p := by
      rw [← hp]
      exact exec_invariant_of (fun _ a ha h => h.step ha) (AllSteps.observe notePublished hnames)
        ⟨fun _ _ _ _ h => (by cases h),fun _ _ h => absurd h List.not_mem_nil⟩
    exact fun σ env henv => (howned.published σ env henv).2

/-- A gate gets a command and reports a fault of its own. -/
theorem isolated_stream_of_gate :
    let as : List ServiceInput :=
      [⟨.open 1 (some (.telemetry "g")),trivial⟩, ⟨.assign (.handler 1),trivial⟩,
        ⟨.serve (.handler 1),trivial⟩, ⟨.subscribe 1,trivial⟩, ⟨.register 1,trivial⟩,
        ⟨.publish 0 "site" "g" (.command ⟨"c","g"⟩),fun _ hc => by cases hc; rfl⟩,
        ⟨.assign (.client 0),trivial⟩, ⟨.serve (.client 0),trivial⟩, ⟨.writerTop 1,trivial⟩,
        ⟨.writerNext 1,trivial⟩, ⟨.writerWrite 1 true,trivial⟩, ⟨.read 1 (.fault "g"),trivial⟩,
        ⟨.assign (.handler 1),trivial⟩]
    let p := exec (observe step notePublished) (boot 8 8 "site", []) (as.map ServiceInput.input)
    ((p.1.session 1).written.map DashboardEvent.payload = [.command ⟨"c","g"⟩] ∧
      ∀ e ∈ (p.1.session 1).written, ∀ c, e.payload = .command c → c.gateId = "g") ∧
    (p.2.map Prod.fst = [.handler 1, .client 0, .handler 1] ∧
      ∀ env, (.handler 1, env) ∈ p.2 → env.gateId = "g") := by
  intro as p
  have h := streams_isolated 8 8 "site" as (rfl : _ = p)
  refine ⟨⟨by decide +kernel,h.1 1⟩,by decide +kernel,h.2 ?_ 1⟩
  exact ⟨trivial,trivial,trivial,trivial,trivial,trivial,trivial,trivial,trivial,trivial,trivial,
    fun _ => rfl,trivial,trivial⟩

/-- A peer identified as gate `g` reports a fault of gate `h`, and it is on the bus as one. -/
theorem fault_under_foreign_gate :
    let p := exec (observe step notePublished) (boot 8 8 "site", [])
      (connect 1 "g" ++ [.read 1 (.fault "h"), .assign (.handler 1)])
    (p.1.session 1).gateId = "g" ∧ (.handler 1, ⟨"site","h",2,.fault⟩) ∈ p.2 := by
  decide +kernel

end Server
end AlprGate.Dash
