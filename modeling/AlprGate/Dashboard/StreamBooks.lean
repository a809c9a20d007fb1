import Mathlib.Data.List.Perm.Subperm
import Mathlib.Data.List.Range
import AlprGate.Dashboard.StreamResume

/-! # The books of a stream

Of every boot of the server the dashboard has ingested the first events that match. While a
handler serves the stream, the rest of them are on the wire, with the handler or in its queue.
-/
namespace AlprGate.DashApi
open BoundedQueue Dash Transition

namespace Uplink
variable {ι φ γ κ : Type*} (s : Uplink ι φ γ κ)

/-- The events of a boot that match the subscription. -/
def expected (b : ℕ) : List DashboardEvent := matching (dashboardFilter s.siteId 0) (s.published b)

/-- The events of the running server that the dashboard has still to ingest. -/
def missing : List DashboardEvent := (s.expected s.boot).drop (s.ingested s.boot).length

/-- The conditions on accepting a stream and on publishing to one. -/
def Resumable : UplinkInput → Prop
  | .accept => ∀ since, s.client = .dialing since → s.bus.stopped = false →
    (∀ e ∈ s.missing, since < e.eventId) ∧
    (∀ e ∈ s.missing, e ∈ matching (dashboardFilter s.siteId 0) s.bus.ring) ∧
    (s.bus.perSubCapacity = 0 ∨ s.missing.length ≤ s.bus.perSubCapacity)
  | .publish siteId gateId payload => s.handler ≠ none →
    filterMatches (dashboardFilter s.siteId 0) siteId gateId
      (s.bus.envelope siteId gateId payload).event = true →
    s.bus.perSubCapacity = 0 ∨ (s.bus.sub s.conn).queue.length < s.bus.perSubCapacity
  | _ => True

/-- The handler of the running server, its queue, the wire and the cache hold the matching
events in order, each once. -/
structure Attached (h : Subscriber) : Prop where
  origin : s.origin = s.boot
  books : s.ingested s.boot ++ s.wire ++ (h.out ++ (s.bus.sub s.conn).queue) = s.expected s.boot
  filter : ∃ since, (s.bus.sub s.conn).filter = dashboardFilter s.siteId since
  capacity : (s.bus.sub s.conn).capacity = s.bus.perSubCapacity
  listed : s.bus.stopped = true ∨ (s.conn ∈ s.bus.subs ∧ (s.bus.sub s.conn).closed = false ∧
    (s.bus.sub s.conn).expired = false)

/-- The invariant of resumable runs. Boots to come are empty, and only the wire of the present
stream can still add to a boot that is over. -/
structure Synced : Prop where
  ids : ∀ b, (s.published b).map EventEnvelope.id = List.range' 1 (s.published b).length
  next : s.bus.nextEventId = (s.published s.boot).length + 1
  ring : s.bus.ring <:+ s.published s.boot
  subs : s.bus.subs.Nodup ∧ ∀ i ∈ s.bus.subs, i ≤ s.conn
  unborn : ∀ b, s.boot < b → s.published b = [] ∧ s.ingested b = []
  past : s.origin ≤ s.boot
  known : ∀ b, ∀ e ∈ s.ingested b, e.eventId ≤ s.cache.lastEventId
  dialing : ∀ since, s.client = .dialing since → since = s.cache.lastEventId
  idle : s.client ≠ .reading → s.wire = [] ∧ s.handler = none
  prior : ∀ b, s.ingested b <+: s.expected b
  flow : s.ingested s.origin ++ s.wire <+: s.expected s.origin
  attached : ∀ h, s.handler = some h → s.Attached h
  finished : s.client = .reading → s.origin = s.boot → s.handler = none →
    s.bus.stopped = true

variable {s}

theorem Synced.fresh (siteId : String) (ringCapacity perSubCapacity cacheCapacity : ℕ) :
    (fresh siteId ringCapacity perSubCapacity cacheCapacity : Uplink ι φ γ κ).Synced where
  ids := fun _ => rfl
  next := rfl
  ring := List.suffix_rfl
  subs := ⟨List.nodup_nil,fun i hi => absurd hi List.not_mem_nil⟩
  unborn := fun _ _ => ⟨rfl,rfl⟩
  past := le_rfl
  known := fun _ _ he => absurd he List.not_mem_nil
  dialing := fun _ h => by cases h
  idle := fun _ => ⟨rfl,rfl⟩
  prior := fun _ => List.prefix_rfl
  flow := List.prefix_rfl
  attached := fun _ h => by cases h
  finished := fun h => by cases h

section Publish
variable {siteId gateId : String} {payload : Payload}

variable (siteId gateId payload) in
theorem publish_running (h : s.bus.stopped = false) :
    s.publish siteId gateId payload = { s with
      bus := s.bus.publish siteId gateId payload
      published := Function.update s.published s.boot
        (s.published s.boot ++ [s.bus.envelope siteId gateId payload]) } := by
  rw [Uplink.publish, if_neg (by rw [h]; exact Bool.false_ne_true)]

variable (siteId gateId payload) in
theorem published_publish (h : s.bus.stopped = false) (b : ℕ) :
    (s.publish siteId gateId payload).published b =
      if b = s.boot then s.published b ++ [s.bus.envelope siteId gateId payload]
      else s.published b := by
  rw [publish_running siteId gateId payload h]
  by_cases hb : b = s.boot
  · subst hb
    simp
  · simp [hb]

variable (siteId gateId payload) in
theorem expected_publish (h : s.bus.stopped = false) (b : ℕ) :
    (s.publish siteId gateId payload).expected b = s.expected b ++
      if b = s.boot ∧ filterMatches (dashboardFilter s.siteId 0) siteId gateId
          (s.bus.envelope siteId gateId payload).event = true then
        [(s.bus.envelope siteId gateId payload).event] else [] := by
  have hsite : (s.publish siteId gateId payload).siteId = s.siteId := by rw [publish_running siteId gateId payload h]
  rw [expected, hsite, published_publish siteId gateId payload h, expected]
  by_cases hb : b = s.boot
  · rw [if_pos hb, matching_concat]
    simp only [hb, true_and]
    rfl
  · rw [if_neg hb, if_neg fun hand => hb hand.1, List.append_nil]

/-- An event that matches is queued for the stream. -/
theorem queue_publish (hrunning : s.bus.stopped = false) (hnodup : s.bus.subs.Nodup)
    {h : Subscriber} (hattached : s.Attached h)
    (hroom : filterMatches (dashboardFilter s.siteId 0) siteId gateId
      (s.bus.envelope siteId gateId payload).event = true →
      s.bus.perSubCapacity = 0 ∨ (s.bus.sub s.conn).queue.length < s.bus.perSubCapacity) :
    (s.bus.publish siteId gateId payload).sub s.conn = { s.bus.sub s.conn with
      queue := (s.bus.sub s.conn).queue ++
        if filterMatches (dashboardFilter s.siteId 0) siteId gateId
          (s.bus.envelope siteId gateId payload).event = true then
          [(s.bus.envelope siteId gateId payload).event] else [] } := by
  obtain ⟨hmem,hopen,hexpired⟩ : s.conn ∈ s.bus.subs ∧ (s.bus.sub s.conn).closed = false ∧
      (s.bus.sub s.conn).expired = false := by
    rcases hattached.listed with hstopped | hlisted
    · exact absurd (hrunning.symm.trans hstopped) Bool.false_ne_true
    · exact hlisted
  have hlive : s.conn ∈ s.bus.live := List.mem_filter.mpr ⟨hmem,decide_eq_true hexpired⟩
  obtain ⟨since,hfilter⟩ := hattached.filter
  have hsub : (s.bus.publish siteId gateId payload).sub s.conn =
      (s.bus.sub s.conn).offer (s.bus.envelope siteId gateId payload) := by
    have hlives : s.bus.live.Nodup := hnodup.sublist List.filter_sublist
    rw [Bus.publish, Bus.foldl_deliver _ _ hlives, if_pos hlive]
    rfl
  have hmatches : filterMatches (s.bus.sub s.conn).filter siteId gateId
      (s.bus.envelope siteId gateId payload).event =
      filterMatches (dashboardFilter s.siteId 0) siteId gateId
        (s.bus.envelope siteId gateId payload).event := by
    rw [hfilter]
    rfl
  rw [hsub, Subscription.offer, if_neg (by rw [hopen]; exact Bool.false_ne_true)]
  change (if filterMatches (s.bus.sub s.conn).filter siteId gateId
    (s.bus.envelope siteId gateId payload).event = true then _ else _) = _
  rw [hmatches]
  split
  · rename_i hmatch
    have hroom' := hroom hmatch
    rw [← hattached.capacity] at hroom'
    rw [Subscription.pushLocked, pushDrop_of_room hroom', if_neg (by omega)]
  · simp

theorem Attached.publish {h : Subscriber} (hattached : s.Attached h)
    (hrunning : s.bus.stopped = false) (hnodup : s.bus.subs.Nodup)
    (hroom : filterMatches (dashboardFilter s.siteId 0) siteId gateId
      (s.bus.envelope siteId gateId payload).event = true →
      s.bus.perSubCapacity = 0 ∨ (s.bus.sub s.conn).queue.length < s.bus.perSubCapacity) :
    (s.publish siteId gateId payload).Attached h := by
  have hsub := queue_publish hrunning hnodup hattached hroom
  have hexpected := expected_publish siteId gateId payload hrunning s.boot
  obtain ⟨-,hcapacity,-,hsubs⟩ := s.bus.publish_frame siteId gateId payload
  rw [publish_running siteId gateId payload hrunning] at hexpected ⊢
  refine ⟨hattached.origin,?_,?_,?_,Or.inr ?_⟩
  · change s.ingested s.boot ++ s.wire ++
      (h.out ++ ((s.bus.publish siteId gateId payload).sub s.conn).queue) = _
    rw [hexpected, hsub, ← hattached.books]
    simp only [true_and, List.append_assoc]
  · change ∃ since, ((s.bus.publish siteId gateId payload).sub s.conn).filter = _
    rw [hsub]
    exact hattached.filter
  · change ((s.bus.publish siteId gateId payload).sub s.conn).capacity =
      (s.bus.publish siteId gateId payload).perSubCapacity
    rw [hsub, hcapacity]
    exact hattached.capacity
  · rcases hattached.listed with hstopped | ⟨hmem,hopen,hexpired⟩
    · exact absurd (hrunning.symm.trans hstopped) Bool.false_ne_true
    · change s.conn ∈ (s.bus.publish siteId gateId payload).subs ∧
        ((s.bus.publish siteId gateId payload).sub s.conn).closed = false ∧
        ((s.bus.publish siteId gateId payload).sub s.conn).expired = false
      rw [hsub, hsubs]
      exact ⟨List.mem_filter.mpr ⟨hmem,decide_eq_true hexpired⟩,hopen,hexpired⟩

theorem Synced.publish (h : s.Synced) (hrunning : s.bus.stopped = false)
    (hroom : s.Resumable (.publish siteId gateId payload)) :
    (s.publish siteId gateId payload).Synced := by
  have hpublished := published_publish siteId gateId payload hrunning
  have hexpected := expected_publish siteId gateId payload hrunning
  have hattached : ∀ x, s.handler = some x → (s.publish siteId gateId payload).Attached x :=
    fun x hx => (h.attached x hx).publish hrunning h.subs.1
      (hroom (by rw [hx]; exact Option.some_ne_none x))
  have hgrow : ∀ b, s.expected b <+: (s.publish siteId gateId payload).expected b := by
    intro b
    rw [hexpected]
    exact List.prefix_append _ _
  obtain ⟨hring,-,hnext,hsubs⟩ := s.bus.publish_frame siteId gateId payload
  rw [publish_running siteId gateId payload hrunning] at hpublished hattached hgrow ⊢
  refine { h with ids := ?_, next := ?_, ring := ?_, subs := ?_, unborn := ?_, prior := ?_,
                  flow := ?_, attached := hattached, finished := ?_ }
  · intro b
    rw [hpublished]
    split
    · rename_i hb
      subst hb
      rw [List.map_append, h.ids, List.length_append, List.length_singleton, List.range'_1_concat]
      simp [EventEnvelope.id, Bus.envelope, h.next, Nat.add_comm]
    · exact h.ids b
  · change (s.bus.publish siteId gateId payload).nextEventId = _
    rw [hnext, hpublished, if_pos rfl, List.length_append, h.next]
    rfl
  · change (s.bus.publish siteId gateId payload).ring <:+ _
    rw [hring, hpublished, if_pos rfl]
    exact pushRing_suffix _ h.ring _
  · change (s.bus.publish siteId gateId payload).subs.Nodup ∧
      ∀ i ∈ (s.bus.publish siteId gateId payload).subs, i ≤ s.conn
    rw [hsubs]
    exact ⟨h.subs.1.sublist List.filter_sublist,fun i hi => h.subs.2 i (List.mem_of_mem_filter hi)⟩
  · intro b hb
    rw [hpublished, if_neg (Nat.ne_of_gt hb)]
    exact h.unborn b hb
  · exact fun b => (h.prior b).trans (hgrow b)
  · exact h.flow.trans (hgrow s.origin)
  · intro hclient horigin hhandler
    exact absurd (hrunning.symm.trans (h.finished hclient horigin hhandler)) Bool.false_ne_true

end Publish

theorem Synced.nodup_expected (h : s.Synced) (b : ℕ) :
    ((s.expected b).map DashboardEvent.eventId).Nodup := by
  have hids : ((s.published b).map EventEnvelope.id).Nodup := by
    rw [h.ids b]
    exact List.nodup_range'
  rw [expected, matching, List.map_map]
  exact hids.sublist (List.filter_sublist.map _)

theorem Synced.append_missing (h : s.Synced) : s.ingested s.boot ++ s.missing = s.expected s.boot := by
  obtain ⟨rest,hrest⟩ := h.prior s.boot
  rw [missing, ← hrest, List.drop_left]

/-- The replay is what the dashboard is missing. -/
theorem Synced.owed_eq_missing (h : s.Synced) {since : ℕ} (hclient : s.client = .dialing since)
    (habove : ∀ e ∈ s.missing, since < e.eventId)
    (hkept : ∀ e ∈ s.missing, e ∈ matching (dashboardFilter s.siteId 0) s.bus.ring) :
    s.bus.owed (dashboardFilter s.siteId since) = s.missing := by
  have howed : s.bus.owed (dashboardFilter s.siteId since) =
      (matching (dashboardFilter s.siteId 0) s.bus.ring).filter fun e => since < e.eventId := by
    rw [matching, List.filter_map, List.filter_filter]
    rfl
  -- what is ingested lies at or below the cursor, what is missing above it
  have hmissing : (s.expected s.boot).filter (fun e => since < e.eventId) = s.missing := by
    have hbelow : (s.ingested s.boot).filter (fun e => since < e.eventId) = [] := by
      refine List.filter_eq_nil_iff.mpr fun e he => ?_
      have hknown := h.known s.boot e he
      have hsince := h.dialing since hclient
      simp only [decide_eq_true_eq]
      omega
    have hall : s.missing.filter (fun e => since < e.eventId) = s.missing :=
      List.filter_eq_self.mpr fun e he => decide_eq_true (habove e he)
    rw [← h.append_missing, List.filter_append, hbelow, hall, List.nil_append]
  have hsuffix : matching (dashboardFilter s.siteId 0) s.bus.ring <:+ s.expected s.boot :=
    (h.ring.filter _).map _
  have hsub : (s.bus.owed (dashboardFilter s.siteId since)).Sublist s.missing := by
    rw [howed, ← hmissing]
    exact (hsuffix.filter _).sublist
  have hmem : s.missing ⊆ s.bus.owed (dashboardFilter s.siteId since) := by
    intro e he
    rw [howed]
    exact List.mem_filter.mpr ⟨hkept e he,decide_eq_true (habove e he)⟩
  have hnodup : s.missing.Nodup :=
    ((h.nodup_expected s.boot).of_map).sublist (List.drop_sublist _ _)
  exact hsub.eq_of_length_le (List.Nodup.subperm hnodup hmem).length_le

/-- The subscription of an accepted stream starts with what is missing. -/
theorem Synced.subscribe_sub (h : s.Synced) {since : ℕ} (hclient : s.client = .dialing since)
    (habove : ∀ e ∈ s.missing, since < e.eventId)
    (hkept : ∀ e ∈ s.missing, e ∈ matching (dashboardFilter s.siteId 0) s.bus.ring)
    (hfits : s.bus.perSubCapacity = 0 ∨ s.missing.length ≤ s.bus.perSubCapacity) :
    let p := (s.bus.subscribe (s.conn + 1) (dashboardFilter s.siteId since)).sub (s.conn + 1)
    p.queue = s.missing ∧ p.filter = dashboardFilter s.siteId since ∧
      p.capacity = s.bus.perSubCapacity ∧ p.closed = false ∧ p.expired = false := by
  obtain ⟨hfilter,hclosed,hcapacity,hexpired⟩ := Subscription.foldl_pushLocked_frame
    { filter := dashboardFilter s.siteId since, capacity := s.bus.perSubCapacity } s.missing
  simp only [Bus.subscribe, Function.update_self, h.owed_eq_missing hclient habove hkept]
  refine ⟨?_,hfilter,hcapacity,hclosed,hexpired⟩
  rw [foldl_pushLocked_queue, foldl_pushDrop_of_room (by simpa using hfits), List.nil_append]

theorem Synced.accepted (h : s.Synced) {since : ℕ} (hclient : s.client = .dialing since)
    (hrunning : s.bus.stopped = false) (hready : s.Resumable .accept) :
    { s with
      bus := s.bus.subscribe (s.conn + 1) (dashboardFilter s.siteId since)
      client := .reading
      conn := s.conn + 1
      origin := s.boot
      handler := some .fresh
      wire := [] }.Synced := by
  obtain ⟨habove,hkept,hfits⟩ := hready since hclient hrunning
  obtain ⟨hqueue,hfilter,hcapacity,hopen,hexpired⟩ := h.subscribe_sub hclient habove hkept hfits
  have hnew : s.conn + 1 ∉ s.bus.subs := fun hmem => absurd (h.subs.2 _ hmem) (by omega)
  exact { h with
    subs := ⟨List.nodup_append.mpr ⟨h.subs.1,List.nodup_singleton _,by
        rintro a ha b hb rfl
        exact hnew (List.mem_singleton.mp hb ▸ ha)⟩,by
      intro i hi
      rcases List.mem_append.mp hi with hi | hi
      · exact (h.subs.2 i hi).trans (Nat.le_succ _)
      · exact (List.mem_singleton.mp hi).le⟩
    past := le_rfl
    dialing := fun _ hc => by cases hc
    idle := fun hc => absurd rfl hc
    flow := by
      simp only [List.append_nil]
      exact h.prior s.boot
    attached := by
      rintro x ⟨⟩
      exact {
        origin := rfl
        books := by
          simp only [Subscriber.out, hqueue, List.append_nil, List.nil_append]
          exact h.append_missing
        filter := ⟨since,hfilter⟩
        capacity := hcapacity
        listed := Or.inr ⟨List.mem_append_right _ (List.mem_singleton.mpr rfl),hopen,hexpired⟩ }
    finished := fun _ _ hx => by cases hx }

theorem Synced.stopped (h : s.Synced) : { s with bus := s.bus.stop.closeAll }.Synced := by
  have hcloses := s.bus.stop.closes_closeAll s.conn
  exact { h with
    subs := ⟨List.nodup_nil,fun i hi => absurd hi List.not_mem_nil⟩
    attached := fun x hx => {
      origin := (h.attached x hx).origin
      books := by
        simp only [hcloses.queue]
        exact (h.attached x hx).books
      filter := by
        simp only [hcloses.filter]
        exact (h.attached x hx).filter
      capacity := hcloses.capacity.trans (h.attached x hx).capacity
      listed := Or.inl rfl }
    finished := fun _ _ _ => rfl }

/-- The new boot has published nothing, and the wire still belongs to the boot before. -/
theorem Synced.restart (h : s.Synced) : s.restart.Synced := by
  obtain ⟨hpublished,hingested⟩ := h.unborn (s.boot + 1) (Nat.lt_succ_self _)
  exact { h with
    next := by
      change 1 = (s.published (s.boot + 1)).length + 1
      rw [hpublished]
      rfl
    ring := List.nil_suffix
    subs := ⟨List.nodup_nil,fun i hi => absurd hi List.not_mem_nil⟩
    unborn := fun b hb => h.unborn b ((Nat.lt_succ_self _).trans hb)
    past := h.past.trans (Nat.le_succ _)
    idle := fun hc => ⟨(h.idle hc).1,rfl⟩
    attached := fun x hx => by cases hx
    finished := fun _ horigin => absurd horigin (Nat.ne_of_lt (Nat.lt_succ_of_le h.past)) }

/-- The stream is there as long as its handler. -/
theorem Synced.reading (h : s.Synced) {x : Subscriber} (hx : s.handler = some x) :
    s.client = .reading := by
  by_contra hclient
  exact Option.some_ne_none x (hx.symm.trans (h.idle hclient).2)

/-- The handler takes events from its queue. -/
theorem Synced.took (h : s.Synced) {x : Subscriber} (hx : s.handler = some x) (hout : x.out = [])
    (n : ℕ) :
    { s with bus := s.bus.takeFirst s.conn n
             handler := some (.writing ((s.bus.sub s.conn).queue.take n)) }.Synced := by
  have hattached := h.attached x hx
  have hbooks := hattached.books
  rw [hout, List.nil_append] at hbooks
  exact { h with
    idle := fun hc => absurd (h.reading hx) hc
    attached := by
      rintro y ⟨⟩
      exact {
        origin := hattached.origin
        books := by
          simp only [Subscriber.out, Bus.takeFirst, Function.update_self, List.take_append_drop]
          exact hbooks
        filter := by
          simp only [Bus.takeFirst, Function.update_self]
          exact hattached.filter
        capacity := by
          simp only [Bus.takeFirst, Function.update_self]
          exact hattached.capacity
        listed := by
          simp only [Bus.takeFirst, Function.update_self]
          exact hattached.listed }
    finished := fun _ _ hc => by cases hc }

theorem Synced.wrote (h : s.Synced) {e : DashboardEvent} {out : List DashboardEvent}
    (hx : s.handler = some (.writing (e :: out))) :
    { s with wire := s.wire ++ [e], handler := some (.writing out) }.Synced := by
  have hattached := h.attached _ hx
  have hbooks : s.ingested s.boot ++ (s.wire ++ [e]) ++ (out ++ (s.bus.sub s.conn).queue) =
      s.expected s.boot := by
    rw [← hattached.books]
    simp [Subscriber.out]
  exact { h with
    idle := fun hc => absurd (h.reading hx) hc
    flow := by
      change s.ingested s.origin ++ (s.wire ++ [e]) <+: s.expected s.origin
      rw [hattached.origin]
      exact ⟨_,hbooks⟩
    attached := by
      rintro y ⟨⟩
      exact { hattached with books := hbooks }
    finished := fun _ _ hc => by cases hc }

/-- Letting go of an earlier subscription leaves that of the stream alone. -/
theorem Synced.reaped (h : s.Synced) {i : ℕ} (hi : s.handler ≠ none → s.conn ≠ i) :
    { s with bus := s.bus.destroy i }.Synced :=
  { h with
    attached := fun x hx => by
      have hother : s.conn ≠ i := hi (by rw [hx]; exact Option.some_ne_none x)
      have hsub : (s.bus.destroy i).sub s.conn = s.bus.sub s.conn :=
        Function.update_of_ne hother _ _
      have hattached := h.attached x hx
      exact {
        origin := hattached.origin
        books := by
          simp only [hsub]
          exact hattached.books
        filter := by
          simp only [hsub]
          exact hattached.filter
        capacity := by
          simp only [hsub]
          exact hattached.capacity
        listed := by
          simp only [hsub]
          exact hattached.listed } }

/-- An event moves from the wire to the cache. -/
theorem Synced.ingested (h : s.Synced) {e : DashboardEvent} {wire : List DashboardEvent}
    {cache : EventCache ι φ γ κ} (hclient : s.client = .reading) (hwire : s.wire = e :: wire)
    (hlast : cache.lastEventId = max s.cache.lastEventId e.eventId) :
    { s with
      cache := cache
      ingested := Function.update s.ingested s.origin (s.ingested s.origin ++ [e])
      wire := wire }.Synced := by
  have hself : Function.update s.ingested s.origin (s.ingested s.origin ++ [e]) s.origin ++ wire =
      s.ingested s.origin ++ s.wire := by
    rw [Function.update_self, hwire, List.append_assoc]
    rfl
  have hother : ∀ b, b ≠ s.origin →
      Function.update s.ingested s.origin (s.ingested s.origin ++ [e]) b = s.ingested b :=
    fun b hb => Function.update_of_ne hb _ _
  exact { h with
    unborn := fun b hb => ⟨(h.unborn b hb).1,
      (hother b (Nat.ne_of_gt (h.past.trans_lt hb))).trans (h.unborn b hb).2⟩
    known := by
      intro b e' he'
      rw [hlast]
      by_cases hb : b = s.origin
      · subst hb
        simp only [Function.update_self, List.mem_append, List.mem_singleton] at he'
        rcases he' with he' | rfl
        · exact (h.known _ e' he').trans (Nat.le_max_left _ _)
        · exact Nat.le_max_right _ _
      · simp only [hother b hb] at he'
        exact (h.known b e' he').trans (Nat.le_max_left _ _)
    dialing := fun since hc => by rw [hclient] at hc; cases hc
    idle := fun hc => absurd hclient hc
    prior := by
      intro b
      by_cases hb : b = s.origin
      · subst hb
        exact (List.prefix_append _ _).trans (hself ▸ h.flow)
      · simp only [hother b hb]
        exact h.prior b
    flow := hself ▸ h.flow
    attached := fun x hx => { h.attached x hx with
      books := by
        have hbooks := (h.attached x hx).books
        rw [← (h.attached x hx).origin, ← hself] at hbooks
        rw [← (h.attached x hx).origin]
        exact hbooks } }

theorem Synced.move {t : Uplink ι φ γ κ} {a : UplinkInput} (h : s.Synced) (hmove : s.Move a t)
    (ha : s.Resumable a) : t.Synced := by
  cases hmove with
  | still => exact h
  | published siteId gateId payload hrunning => exact h.publish hrunning ha
  | stopped => exact h.stopped
  | restarted => exact h.restart
  | dialed hclient =>
    have hidle := h.idle (by rw [hclient]; exact fun hc => by cases hc)
    exact { h with
      dialing := fun since hc => by cases hc; rfl
      idle := fun _ => hidle
      attached := fun x hx => absurd (hidle.2.symm.trans hx) (Option.some_ne_none x).symm
      finished := fun hc => by cases hc }
  | refused hclient =>
    have hidle := h.idle (by rw [hclient]; exact fun hc => by cases hc)
    exact { h with
      dialing := fun _ hc => by cases hc
      idle := fun _ => hidle
      attached := fun x hx => absurd (hidle.2.symm.trans hx) (Option.some_ne_none x).symm
      finished := fun hc => by cases hc }
  | accepted hclient hrunning => exact h.accepted hclient hrunning ha
  | took _ hx hout n => exact h.took hx hout n
  | turned _ y hx hout =>
    -- what counts of the handler is what it holds
    exact { h with
      idle := fun hc => absurd (h.reading hx) hc
      attached := by
        rintro z ⟨⟩
        exact { h.attached _ hx with books := hout ▸ (h.attached _ hx).books }
      finished := fun _ _ hc => by cases hc }
  | wrote hx => exact h.wrote hx
  | finished hstopped =>
    exact { h with
      idle := fun hc => ⟨(h.idle hc).1,rfl⟩
      attached := fun y hy => by cases hy
      finished := fun _ _ _ => hstopped }
  | broke =>
    exact { h with
      dialing := fun _ hc => by cases hc
      idle := fun _ => ⟨rfl,rfl⟩
      flow := by
        simp only [List.append_nil]
        exact h.prior s.origin
      attached := fun x hx => by cases hx
      finished := fun hc => by cases hc }
  | reaped hi => exact h.reaped hi
  | ingested hclient hwire hlast => exact h.ingested hclient hwire hlast

end Uplink
end AlprGate.DashApi
