import AlprGate.Dashboard.StreamBooks

/-! # Exactly once

The events of the running server are ingested or in flight on the stream, in order and each
once, and the stream can bring the rest.
-/
namespace AlprGate.DashApi
open BoundedQueue Dash Transition

/-- A step of the stream itself. -/
def UplinkInput.Delivers : UplinkInput → Prop
  | .drain | .next | .write | .checkStopped | .read => True
  | _ => False

namespace Uplink
variable {ι φ γ κ : Type*} (s : Uplink ι φ γ κ)

def run [DecidableEq ι] (frame : DashboardEvent → φ) (telemetry : DashboardEvent → Option (ι × γ))
    (as : List UplinkInput) : Uplink ι φ γ κ :=
  exec (fun t a => t.step frame telemetry a) s as

/-- What the handler and its queue hold. -/
def upstream : List DashboardEvent :=
  match s.handler with
  | none => []
  | some h => h.out ++ (s.bus.sub s.conn).queue

def inFlight : List DashboardEvent := s.wire ++ s.upstream

/-- The steps that the events in flight have ahead of them. -/
def work : ℕ :=
  s.wire.length + match s.handler with
    | none => 0
    | some .starved => 1 + 3 * (s.bus.sub s.conn).queue.length
    | some h => 2 * h.out.length + 3 * (s.bus.sub s.conn).queue.length

/-- The dashboard reads a stream of the running server. -/
structure Connected : Prop where
  reading : s.client = .reading
  origin : s.origin = s.boot
  running : s.bus.stopped = false

/-- The same connection to the same server, with the same log. -/
structure Continues (t : Uplink ι φ γ κ) : Prop where
  synced : t.Synced
  connected : t.Connected
  boot : t.boot = s.boot
  siteId : t.siteId = s.siteId
  published : t.published = s.published

variable {s}

theorem Synced.ingested_append_inFlight (h : s.Synced) (hconn : s.Connected) :
    s.ingested s.boot ++ s.inFlight = s.expected s.boot := by
  rw [inFlight, upstream, ← List.append_assoc]
  cases hx : s.handler with
  | none =>
    have hstopped := h.finished hconn.reading hconn.origin hx
    exact absurd (hconn.running.symm.trans hstopped) Bool.false_ne_true
  | some x => exact (h.attached x hx).books

section Steps
variable [DecidableEq ι] (frame : DashboardEvent → φ)
variable (telemetry : DashboardEvent → Option (ι × γ)) {a : UplinkInput}

omit [DecidableEq ι] in
/-- The stream leaves the server's log and the connection alone. -/
theorem Move.delivers {t : Uplink ι φ γ κ} (hmove : s.Move a t) (ha : a.Delivers) :
    t.client = s.client ∧ t.origin = s.origin ∧ t.boot = s.boot ∧ t.siteId = s.siteId ∧
    t.published = s.published ∧ t.bus.stopped = s.bus.stopped := by
  cases hmove with
  | still => exact ⟨rfl,rfl,rfl,rfl,rfl,rfl⟩
  | took => exact ⟨rfl,rfl,rfl,rfl,rfl,rfl⟩
  | turned => exact ⟨rfl,rfl,rfl,rfl,rfl,rfl⟩
  | wrote => exact ⟨rfl,rfl,rfl,rfl,rfl,rfl⟩
  | finished => exact ⟨rfl,rfl,rfl,rfl,rfl,rfl⟩
  | ingested => exact ⟨rfl,rfl,rfl,rfl,rfl,rfl⟩
  | _ => exact ha.elim

omit [DecidableEq ι] in
theorem Resumable.of_delivers (ha : a.Delivers) : s.Resumable a := by
  cases a with
  | publish => exact ha.elim
  | accept => exact ha.elim
  | _ => exact trivial

/-- As long as something is in flight a step of the stream moves it on. -/
theorem exists_delivery (hreading : s.client = .reading) (hrunning : s.bus.stopped = false)
    (hflight : s.inFlight ≠ []) :
    ∃ a : UplinkInput, a.Delivers ∧ (s.step frame telemetry a).work < s.work := by
  cases hwire : s.wire with
  | cons e wire =>
    refine ⟨.read,trivial,?_⟩
    simp only [step, read, hreading, hwire, work, List.length_cons]
    omega
  | nil =>
    rw [inFlight, hwire, List.nil_append, upstream] at hflight
    cases hx : s.handler with
    | none => exact absurd (by rw [hx]) hflight
    | some x =>
      rw [hx] at hflight
      cases x with
      | fresh =>
        have hpos : 0 < (s.bus.sub s.conn).queue.length := List.length_pos_iff.mpr hflight
        refine ⟨.drain,trivial,?_⟩
        simp only [step, drain, hx, work, Subscriber.out, Bus.takeFirst, Function.update_self,
          List.drop_length, List.length_nil]
        omega
      | starved =>
        refine ⟨.checkStopped,trivial,?_⟩
        simp only [step, checkStopped, hx, hrunning, Bool.false_eq_true, if_false, work,
          Subscriber.out, List.length_nil]
        omega
      | writing out =>
        cases out with
        | cons e out =>
          refine ⟨.write,trivial,?_⟩
          simp only [step, write, hx, work, hwire, Subscriber.out, List.nil_append,
            List.length_cons, List.length_nil]
          omega
        | nil =>
          cases hqueue : (s.bus.sub s.conn).queue with
          | nil => exact absurd hqueue hflight
          | cons e queue =>
            refine ⟨.next,trivial,?_⟩
            simp only [step, next, hx, hqueue, work, hwire, Subscriber.out, Bus.pop,
              Function.update_self, List.tail_cons, List.length_cons, List.length_nil]
            omega

/-- The stream brings everything that is in flight. -/
theorem Synced.exists_delivered (h : s.Synced) (hconn : s.Connected) :
    ∃ bs : List UplinkInput, (∀ a ∈ bs, a.Delivers) ∧
      (s.run frame telemetry bs).published = s.published ∧
      (s.run frame telemetry bs).ingested s.boot = s.expected s.boot := by
  have hstep : ∀ t, s.Continues t → ¬ t.inFlight = [] → ∃ a : UplinkInput, a.Delivers ∧
      s.Continues (t.step frame telemetry a) ∧ (t.step frame telemetry a).work < t.work := by
    intro t ht hflight
    obtain ⟨a,ha,hwork⟩ := exists_delivery frame telemetry ht.connected.reading ht.connected.running hflight
    obtain ⟨hclient,horigin,hboot,hsite,hpublished,hstopped⟩ :=
      (t.step_move frame telemetry a).delivers ha
    exact ⟨a,ha,{
      synced := ht.synced.move (t.step_move frame telemetry a) (Resumable.of_delivers ha)
      connected := ⟨hclient.trans ht.connected.reading,
        (horigin.trans ht.connected.origin).trans hboot.symm,
        hstopped.trans ht.connected.running⟩
      boot := hboot.trans ht.boot
      siteId := hsite.trans ht.siteId
      published := hpublished.trans ht.published },hwork⟩
  obtain ⟨bs,hbs,hend,hdone⟩ := exists_exec_of_measure work hstep ⟨h,hconn,rfl,rfl,rfl⟩
  refine ⟨bs,hbs,hend.published,?_⟩
  have hall := hend.synced.ingested_append_inFlight hend.connected
  rw [hdone, List.append_nil, hend.boot] at hall
  refine hall.trans ?_
  rw [expected, expected, hend.siteId, hend.published]

end Steps

/-- In a run whose steps are all resumable, the events ingested of every boot are the first ones
of that boot that match, each once, and a connected dashboard gets all of them. -/
theorem ingested_exactly_once [DecidableEq ι] (frame : DashboardEvent → φ)
    (telemetry : DashboardEvent → Option (ι × γ)) (siteId : String)
    (ringCapacity perSubCapacity cacheCapacity : ℕ) {as : List UplinkInput} {s : Uplink ι φ γ κ}
    (hsteps : AllSteps (fun (t : Uplink ι φ γ κ) a => t.step frame telemetry a) Resumable
      (fresh siteId ringCapacity perSubCapacity cacheCapacity) as)
    (hs : (fresh siteId ringCapacity perSubCapacity cacheCapacity).run frame telemetry as = s) :
    (∀ b, s.ingested b <+: s.expected b ∧ ((s.expected b).map DashboardEvent.eventId).Nodup) ∧
    (s.Connected → s.ingested s.boot ++ s.inFlight = s.expected s.boot ∧
      ∃ bs : List UplinkInput, (∀ a ∈ bs, a.Delivers) ∧
        (s.run frame telemetry bs).published = s.published ∧
        (s.run frame telemetry bs).ingested s.boot = s.expected s.boot) := by
  have hsynced : s.Synced := by
    rw [← hs]
    exact exec_invariant_of (fun t a ha h => h.move (t.step_move frame telemetry a) ha) hsteps
      (Synced.fresh siteId ringCapacity perSubCapacity cacheCapacity)
  exact ⟨fun b => ⟨hsynced.prior b,hsynced.nodup_expected b⟩,fun hconn =>
    ⟨hsynced.ingested_append_inFlight hconn,hsynced.exists_delivered frame telemetry hconn⟩⟩

/-- An event before the first stream, one that is lost with it, and one before the second. -/
def brokenStream : List UplinkInput :=
  [.publish "s" "g" .decision,.dial,.accept,.drain,.write,.read,.publish "s" "g" .ack,.breaks,
    .publish "s" "h" .fault,.dial,.accept]

theorem ingested_once_over_break :
    let s := (fresh "s" 4 4 4 : Uplink String ℕ Unit Unit).run DashboardEvent.eventId
      (fun _ => none) brokenStream
    (s.ingested 0).map DashboardEvent.eventId = [1] ∧
    (s.expected 0).map DashboardEvent.eventId = [1,2,3] ∧
    ∃ bs : List UplinkInput, (∀ a ∈ bs, a.Delivers) ∧
      (s.run DashboardEvent.eventId (fun _ => none) bs).published = s.published ∧
      (s.run DashboardEvent.eventId (fun _ => none) bs).ingested 0 = s.expected 0 := by
  intro s
  have hsteps : AllSteps (fun (t : Uplink String ℕ Unit Unit) a =>
      t.step DashboardEvent.eventId (fun _ => none) a) Resumable (fresh "s" 4 4 4) brokenStream := by
    refine ⟨?_,trivial,?_,trivial,trivial,trivial,?_,trivial,?_,trivial,?_,trivial⟩
    · exact fun h => absurd rfl h
    · rintro since ⟨⟩ _
      decide
    · exact fun _ _ => Or.inr (by decide)
    · exact fun h => absurd rfl h
    · rintro since ⟨⟩ _
      decide
  exact ⟨by decide,by decide,
    ((ingested_exactly_once DashboardEvent.eventId (fun _ => none) "s" 4 4 4 hsteps rfl).2
      ⟨rfl,rfl,rfl⟩).2⟩

/-- An event of boot `b` that was not sent, with the cursor already at or past its id. -/
structure Skipped (b : ℕ) (e : DashboardEvent) (s : Uplink ι φ γ κ) : Prop where
  begun : b ≤ s.boot
  old : s.boot = b → e.eventId < s.bus.nextEventId
  passed : e.eventId ≤ s.cache.lastEventId
  cursor : ∀ since, s.client = .dialing since → e.eventId ≤ since
  origin : s.handler ≠ none → s.origin = s.boot
  ingested : e ∉ s.ingested b
  wire : s.origin = b → e ∉ s.wire
  upstream : s.boot = b → e ∉ s.upstream

section Skipping
variable {b : ℕ} {e : DashboardEvent}

theorem Skipped.published (h : s.Skipped b e) (hrunning : s.bus.stopped = false)
    (siteId gateId : String) (payload : Payload) :
    (s.publish siteId gateId payload).Skipped b e := by
  rw [publish_running siteId gateId payload hrunning]
  exact { h with
    old := fun hb => by
      obtain ⟨-,-,hnext,-⟩ := s.bus.publish_frame siteId gateId payload
      change e.eventId < (s.bus.publish siteId gateId payload).nextEventId
      have hold := h.old hb
      omega
    upstream := fun hb hmem => by
      have hbefore := h.upstream hb
      simp only [Uplink.upstream] at hbefore hmem
      cases hx : s.handler with
      | none => simp [hx] at hmem
      | some x =>
        rw [hx] at hmem hbefore
        rcases List.mem_append.mp hmem with hout | hqueue
        · exact hbefore (List.mem_append_left _ hout)
        · rcases Bus.mem_queue_publish hqueue with hqueue | rfl
          · exact hbefore (List.mem_append_right _ hqueue)
          · exact absurd (h.old hb) (Nat.lt_irrefl _) }

/-- The replay starts behind the cursor. -/
theorem Skipped.notMem_owed (h : s.Skipped b e) {since : ℕ} (hclient : s.client = .dialing since) :
    e ∉ ((s.bus.subscribe (s.conn + 1) (dashboardFilter s.siteId since)).sub
      (s.conn + 1)).queue := by
  intro hqueue
  simp only [Bus.subscribe, Function.update_self, foldl_pushLocked_queue] at hqueue
  have howed := (foldl_pushDrop_sublist _ _ _).subset hqueue
  simp only [List.nil_append, Bus.owed, List.mem_map, List.mem_filter, Bool.and_eq_true,
    decide_eq_true_eq] at howed
  obtain ⟨env,⟨_,hsince,_⟩,rfl⟩ := howed
  exact absurd (h.cursor since hclient) (Nat.not_le.mpr hsince)

theorem Skipped.wrote (h : s.Skipped b e) {e' : DashboardEvent} {out : List DashboardEvent}
    (hx : s.handler = some (.writing (e' :: out))) :
    { s with wire := s.wire ++ [e'], handler := some (.writing out) }.Skipped b e := by
  have horigin := h.origin (by rw [hx]; exact Option.some_ne_none _)
  have hbefore : s.boot = b → e ∉ e' :: out ++ (s.bus.sub s.conn).queue := fun hb => by
    simpa only [Uplink.upstream, hx, Subscriber.out] using h.upstream hb
  exact { h with
    origin := fun _ => horigin
    wire := fun hb hmem => by
      rcases List.mem_append.mp hmem with hwire | hself
      · exact h.wire hb hwire
      · rw [List.mem_singleton.mp hself] at hbefore
        exact hbefore (horigin.symm.trans hb) List.mem_cons_self
    upstream := fun hb hmem => hbefore hb (List.mem_cons_of_mem _ hmem) }

theorem Skipped.ingest (h : s.Skipped b e) {e' : DashboardEvent} {wire : List DashboardEvent}
    {cache : EventCache ι φ γ κ} (hwire : s.wire = e' :: wire)
    (hlast : cache.lastEventId = max s.cache.lastEventId e'.eventId) :
    { s with
      cache := cache
      ingested := Function.update s.ingested s.origin (s.ingested s.origin ++ [e'])
      wire := wire }.Skipped b e :=
  { h with
    passed := by
      rw [hlast]
      exact h.passed.trans (Nat.le_max_left _ _)
    ingested := by
      by_cases hb : b = s.origin
      · subst hb
        have hnot := h.wire rfl
        rw [hwire, List.mem_cons, not_or] at hnot
        simp only [Function.update_self, List.mem_append, List.mem_singleton, not_or]
        exact ⟨h.ingested,hnot.1⟩
      · simp only [Function.update_of_ne hb]
        exact h.ingested
    wire := fun hb hmem => h.wire hb (by rw [hwire]; exact List.mem_cons_of_mem _ hmem) }

theorem Skipped.move {t : Uplink ι φ γ κ} {a : UplinkInput} (h : s.Skipped b e)
    (hmove : s.Move a t) : t.Skipped b e := by
  cases hmove with
  | still => exact h
  | published siteId gateId payload hrunning => exact h.published hrunning siteId gateId payload
  | stopped =>
    exact { h with
      upstream := fun hb => by
        have hbefore := h.upstream hb
        simp only [Uplink.upstream, (s.bus.stop.closes_closeAll s.conn).queue]
        exact hbefore }
  | restarted =>
    have hlater : s.boot + 1 ≠ b := Nat.ne_of_gt (Nat.lt_succ_of_le h.begun)
    exact { h with
      begun := h.begun.trans (Nat.le_succ _)
      old := fun hb => absurd hb hlater
      origin := fun hx => absurd rfl hx
      upstream := fun hb => absurd hb hlater }
  | dialed =>
    exact { h with
      cursor := by
        rintro since ⟨⟩
        exact h.passed }
  | refused => exact { h with cursor := fun _ hc => by cases hc }
  | accepted hclient =>
    exact { h with
      cursor := fun _ hc => by cases hc
      origin := fun _ => rfl
      wire := fun _ => List.not_mem_nil
      upstream := fun _ => h.notMem_owed hclient }
  | took _ hx hout n =>
    exact { h with
      origin := fun _ => h.origin (by rw [hx]; exact Option.some_ne_none _)
      upstream := fun hb => by
        have hbefore := h.upstream hb
        simp only [Uplink.upstream, hx, hout, List.nil_append] at hbefore
        simp only [Uplink.upstream, Subscriber.out, Bus.takeFirst, Function.update_self,
          List.take_append_drop]
        exact hbefore }
  | turned _ y hx hout =>
    exact { h with
      origin := fun _ => h.origin (by rw [hx]; exact Option.some_ne_none _)
      upstream := fun hb => by
        have hbefore := h.upstream hb
        simp only [Uplink.upstream, hx, hout] at hbefore
        exact hbefore }
  | wrote hx => exact h.wrote hx
  | finished =>
    exact { h with
      origin := fun hx => absurd rfl hx
      upstream := fun _ => List.not_mem_nil }
  | broke =>
    exact { h with
      cursor := fun _ hc => by cases hc
      origin := fun hx => absurd rfl hx
      wire := fun _ => List.not_mem_nil
      upstream := fun _ => List.not_mem_nil }
  | @reaped i =>
    have hqueue := (s.bus.closes_destroy i s.conn).queue
    exact { h with
      upstream := fun hb => by
        have hbefore := h.upstream hb
        simp only [Uplink.upstream, hqueue]
        exact hbefore }
  | ingested _ hwire hlast => exact h.ingest hwire hlast

/-- A skipped event is never ingested, whatever happens from there on. -/
theorem Skipped.run [DecidableEq ι] (frame : DashboardEvent → φ)
    (telemetry : DashboardEvent → Option (ι × γ)) (h : s.Skipped b e) (as : List UplinkInput) :
    (s.run frame telemetry as).Skipped b e :=
  exec_invariant (fun t a ht => ht.move (t.step_move frame telemetry a)) as h

end Skipping

/-- An event is ingested; the server restarts and publishes one while the stream is down; the
dashboard comes back. -/
def restartedServer : List UplinkInput :=
  [.dial,.accept,.publish "s" "g" .decision,.drain,.write,.read,.restart,.breaks,
    .publish "s" "g" .ack,.dial,.accept]

/-- The new event has the id of the one before the restart. It is in the ring, fits the queue and
is never ingested. -/
theorem skipped_after_restart :
    let s := (fresh "s" 4 4 4 : Uplink String ℕ Unit Unit).run DashboardEvent.eventId
      (fun _ => none) restartedServer
    s.client = .reading ∧ s.origin = s.boot ∧ s.boot = 1 ∧
    s.expected 1 = [⟨1,.ack⟩] ∧ matching (dashboardFilter "s" 0) s.bus.ring = [⟨1,.ack⟩] ∧
    ∀ bs : List UplinkInput,
      ⟨1,.ack⟩ ∉ (s.run DashboardEvent.eventId (fun _ => none) bs).ingested 1 := by
  intro s
  have hskipped : s.Skipped 1 ⟨1,.ack⟩ :=
    ⟨by decide,by decide,by decide,fun _ hc => (by cases hc),by decide,by decide,by decide,by decide⟩
  exact ⟨by decide,by decide,by decide,by decide,by decide,fun bs =>
    (hskipped.run DashboardEvent.eventId (fun _ => none) bs).ingested⟩

end Uplink
end AlprGate.DashApi
