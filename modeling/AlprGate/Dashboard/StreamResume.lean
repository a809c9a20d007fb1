import AlprGate.Dashboard.EventCache
import AlprGate.Server.BusMoves

/-! # The dashboard's event stream across breaks and restarts

The dashboard subscribes with the highest id that it has ingested and reads until the stream
breaks; the server replays its ring from that cursor on and then forwards what is published.
A restarted server counts its events from one again, while the cursor of the dashboard
stays.
-/
namespace AlprGate.Dash
open BoundedQueue

/-- A publish call that no other step interrupts. -/
def Bus.publish (b : Bus) (siteId gateId : String) (payload : Payload) : Bus :=
  b.live.foldl (fun b' i => b'.deliver (b.envelope siteId gateId payload) i)
    (b.assign siteId gateId payload)

theorem Bus.foldl_deliver (env : EventEnvelope) (targets : List ℕ) (hnodup : targets.Nodup)
    (b : Bus) (i : ℕ) :
    (targets.foldl (fun b' j => b'.deliver env j) b).sub i =
      if i ∈ targets then (b.sub i).offer env else b.sub i := by
  induction targets generalizing b with
  | nil => simp
  | cons j targets ih =>
    obtain ⟨hj,hnodup'⟩ := List.nodup_cons.mp hnodup
    rw [List.foldl_cons, ih hnodup']
    by_cases hij : i = j
    · subst hij
      simp [hj, Bus.deliver]
    · simp [hij, Bus.deliver]

theorem Bus.foldl_deliver_frame (env : EventEnvelope) (targets : List ℕ) (b : Bus) :
    (targets.foldl (fun b' j => b'.deliver env j) b).ring = b.ring ∧
    (targets.foldl (fun b' j => b'.deliver env j) b).perSubCapacity = b.perSubCapacity ∧
    (targets.foldl (fun b' j => b'.deliver env j) b).nextEventId = b.nextEventId ∧
    (targets.foldl (fun b' j => b'.deliver env j) b).subs = b.subs := by
  induction targets generalizing b with
  | nil => exact ⟨rfl,rfl,rfl,rfl⟩
  | cons j targets ih => exact ih (b.deliver env j)

theorem Bus.publish_frame (b : Bus) (siteId gateId : String) (payload : Payload) :
    (b.publish siteId gateId payload).ring =
      pushRing b.ringCapacity b.ring (b.envelope siteId gateId payload) ∧
    (b.publish siteId gateId payload).perSubCapacity = b.perSubCapacity ∧
    (b.publish siteId gateId payload).nextEventId = b.nextEventId + 1 ∧
    (b.publish siteId gateId payload).subs = b.live :=
  Bus.foldl_deliver_frame (b.envelope siteId gateId payload) b.live (b.assign siteId gateId payload)

/-- A publish call adds no event but its own. -/
theorem Bus.mem_queue_publish {b : Bus} {siteId gateId : String} {payload : Payload} {i : ℕ}
    {e : DashboardEvent} (h : e ∈ ((b.publish siteId gateId payload).sub i).queue) :
    e ∈ (b.sub i).queue ∨ e = (b.envelope siteId gateId payload).event := by
  have hfold : ∀ (targets : List ℕ) (b' : Bus),
      e ∈ ((targets.foldl (fun b' j => b'.deliver (b.envelope siteId gateId payload) j) b').sub
        i).queue → e ∈ (b'.sub i).queue ∨ e = (b.envelope siteId gateId payload).event := by
    intro targets
    induction targets with
    | nil => exact fun b' h' => Or.inl h'
    | cons j targets ih =>
      intro b' h'
      rcases ih (b'.deliver (b.envelope siteId gateId payload) j) h' with hqueue | heq
      · by_cases hij : i = j
        · subst hij
          simp only [Bus.deliver, Function.update_self] at hqueue
          simpa using (offer_queue_sublist _ _).subset hqueue
        · simp only [Bus.deliver, Function.update_of_ne hij] at hqueue
          exact Or.inl hqueue
      · exact Or.inr heq
  exact hfold b.live (b.assign siteId gateId payload) h

end AlprGate.Dash

namespace AlprGate.DashApi
open BoundedQueue Dash Transition

/-- The handler of a stream on the server: the replay is still to be drained, there are events
to write, or `next` has come back with nothing. -/
inductive Subscriber where
  | fresh
  | writing (out : List DashboardEvent)
  | starved
  deriving DecidableEq, Repr

/-- What the handler holds. -/
def Subscriber.out : Subscriber → List DashboardEvent
  | .writing out => out
  | _ => []

inductive Client where
  | waiting
  | dialing (since : ℕ)
  | reading
  deriving DecidableEq, Repr

/-- A server and a dashboard. `published` and `ingested` list the events of every boot of the
server; `origin` is the boot that accepted the stream, and `conn` its subscription. -/
structure Uplink (ι φ γ κ : Type*) where
  siteId : String
  bus : Bus := {}
  boot : ℕ := 0
  published : ℕ → List EventEnvelope := fun _ => []
  cache : EventCache ι φ γ κ := {}
  ingested : ℕ → List DashboardEvent := fun _ => []
  client : Client := .waiting
  conn : ℕ := 0
  origin : ℕ := 0
  handler : Option Subscriber := none
  wire : List DashboardEvent := []

inductive UplinkInput where
  | publish (siteId gateId : String) (payload : Payload)
  | stop
  | restart
  | dial
  | accept
  | drain
  | next
  | write
  | checkStopped
  | read
  | breaks
  | reap (i : ℕ)
  deriving DecidableEq, Repr

/-- The subscription of the dashboard: every kind of event of its site. -/
def dashboardFilter (siteId : String) (since : ℕ) : DashboardSubscription where
  siteId := siteId
  includeDecisions := true
  includeTelemetry := true
  includeFaults := true
  includeOta := true
  sinceEventId := since

namespace Uplink
variable {ι φ γ κ : Type*} (s : Uplink ι φ γ κ)

def publish (siteId gateId : String) (payload : Payload) : Uplink ι φ γ κ :=
  if s.bus.stopped = true then s
  else { s with
    bus := s.bus.publish siteId gateId payload
    published := Function.update s.published s.boot
      (s.published s.boot ++ [s.bus.envelope siteId gateId payload]) }

def stop : Uplink ι φ γ κ :=
  if s.bus.stopped = true then s else { s with bus := s.bus.stop.closeAll }

/-- A new process with an empty broadcaster. What is on the wire can still be read. -/
def restart : Uplink ι φ γ κ :=
  { s with
    bus := { ringCapacity := s.bus.ringCapacity, perSubCapacity := s.bus.perSubCapacity }
    boot := s.boot + 1
    handler := none }

/-- The cursor is read before the call. -/
def dial : Uplink ι φ γ κ :=
  match s.client with
  | .waiting => { s with client := .dialing s.cache.lastEventId }
  | _ => s

def accept : Uplink ι φ γ κ :=
  match s.client with
  | .dialing since =>
    if s.bus.stopped = true then { s with client := .waiting }
    else { s with
      bus := s.bus.subscribe (s.conn + 1) (dashboardFilter s.siteId since)
      client := .reading
      conn := s.conn + 1
      origin := s.boot
      handler := some .fresh
      wire := [] }
  | _ => s

/-- `drain_now`. -/
def drain : Uplink ι φ γ κ :=
  match s.handler with
  | some .fresh => { s with
      bus := s.bus.takeFirst s.conn (s.bus.sub s.conn).queue.length
      handler := some (.writing (s.bus.sub s.conn).queue) }
  | _ => s

/-- `next`, once the replay is written. -/
def next : Uplink ι φ γ κ :=
  match s.handler with
  | some (.writing []) => match (s.bus.sub s.conn).queue with
    | [] => { s with handler := some .starved }
    | e :: _ => { s with bus := s.bus.pop s.conn, handler := some (.writing [e]) }
  | _ => s

def write : Uplink ι φ γ κ :=
  match s.handler with
  | some (.writing (e :: out)) =>
    { s with wire := s.wire ++ [e], handler := some (.writing out) }
  | _ => s

/-- After `next` has come back with nothing the handler returns if the broadcaster has stopped,
whatever has been queued in between. -/
def checkStopped : Uplink ι φ γ κ :=
  match s.handler with
  | some .starved =>
    if s.bus.stopped = true then { s with bus := s.bus.destroy s.conn, handler := none }
    else { s with handler := some (.writing []) }
  | _ => s

/-- The stream dies: what is on the wire is lost, and the server gives up on it. -/
def breaks : Uplink ι φ γ κ :=
  match s.client with
  | .waiting => s
  | _ => { s with client := .waiting, handler := none, wire := [] }

/-- The server lets go of the subscription of an earlier stream. -/
def reap (i : ℕ) : Uplink ι φ γ κ :=
  if i = s.conn ∧ s.handler ≠ none then s else { s with bus := s.bus.destroy i }

variable [DecidableEq ι] (frame : DashboardEvent → φ) (telemetry : DashboardEvent → Option (ι × γ))

def read : Uplink ι φ γ κ :=
  match s.client, s.wire with
  | .reading, e :: wire => { s with
      cache := s.cache.ingest ⟨DashboardEvent.eventId,frame,telemetry⟩ e
      ingested := Function.update s.ingested s.origin (s.ingested s.origin ++ [e])
      wire := wire }
  | _, _ => s

def step : UplinkInput → Uplink ι φ γ κ
  | .publish siteId gateId payload => s.publish siteId gateId payload
  | .stop => s.stop
  | .restart => s.restart
  | .dial => s.dial
  | .accept => s.accept
  | .drain => s.drain
  | .next => s.next
  | .write => s.write
  | .checkStopped => s.checkStopped
  | .read => s.read frame telemetry
  | .breaks => s.breaks
  | .reap i => s.reap i

end Uplink

/-- A server that has just started, and a dashboard with an empty cache. -/
def Uplink.fresh {ι φ γ κ : Type*} (siteId : String) (ringCapacity perSubCapacity cacheCapacity : ℕ) :
    Uplink ι φ γ κ where
  siteId := siteId
  bus := { ringCapacity := ringCapacity, perSubCapacity := perSubCapacity }
  cache := { ringCapacity := cacheCapacity }

namespace Uplink
variable {ι φ γ κ : Type*} (s : Uplink ι φ γ κ)

/-- What a step can do. A step that finds nothing to do changes nothing, and draining and `next`
differ in how many events they take. -/
inductive Move : UplinkInput → Uplink ι φ γ κ → Prop
  | still (a : UplinkInput) : Move a s
  | published (siteId gateId : String) (payload : Payload) (hrunning : s.bus.stopped = false) :
      Move (.publish siteId gateId payload) (s.publish siteId gateId payload)
  | stopped (hrunning : s.bus.stopped = false) : Move .stop { s with bus := s.bus.stop.closeAll }
  | restarted : Move .restart s.restart
  | dialed (hclient : s.client = .waiting) :
      Move .dial { s with client := .dialing s.cache.lastEventId }
  | refused {since : ℕ} (hclient : s.client = .dialing since) :
      Move .accept { s with client := .waiting }
  | accepted {since : ℕ} (hclient : s.client = .dialing since) (hrunning : s.bus.stopped = false) :
      Move .accept { s with
        bus := s.bus.subscribe (s.conn + 1) (dashboardFilter s.siteId since)
        client := .reading
        conn := s.conn + 1
        origin := s.boot
        handler := some .fresh
        wire := [] }
  | took (a : UplinkInput) {x : Subscriber} (hx : s.handler = some x) (hout : x.out = []) (n : ℕ) :
      Move a { s with
        bus := s.bus.takeFirst s.conn n
        handler := some (.writing ((s.bus.sub s.conn).queue.take n)) }
  | turned (a : UplinkInput) {x : Subscriber} (y : Subscriber) (hx : s.handler = some x)
      (hout : x.out = y.out) : Move a { s with handler := some y }
  | wrote {e : DashboardEvent} {out : List DashboardEvent}
      (hx : s.handler = some (.writing (e :: out))) :
      Move .write { s with wire := s.wire ++ [e], handler := some (.writing out) }
  | finished (hstopped : s.bus.stopped = true) :
      Move .checkStopped { s with bus := s.bus.destroy s.conn, handler := none }
  | broke : Move .breaks { s with client := .waiting, handler := none, wire := [] }
  | reaped {i : ℕ} (hi : s.handler ≠ none → s.conn ≠ i) :
      Move (.reap i) { s with bus := s.bus.destroy i }
  | ingested {e : DashboardEvent} {wire : List DashboardEvent} {cache : EventCache ι φ γ κ}
      (hclient : s.client = .reading) (hwire : s.wire = e :: wire)
      (hlast : cache.lastEventId = max s.cache.lastEventId e.eventId) :
      Move .read { s with
        cache := cache
        ingested := Function.update s.ingested s.origin (s.ingested s.origin ++ [e])
        wire := wire }

variable [DecidableEq ι] (frame : DashboardEvent → φ) (telemetry : DashboardEvent → Option (ι × γ))

theorem step_move (a : UplinkInput) : s.Move a (s.step frame telemetry a) := by
  cases a with
  | publish siteId gateId payload =>
    by_cases hstopped : s.bus.stopped = true
    · have hsame : s.publish siteId gateId payload = s := if_pos hstopped
      rw [step, hsame]
      exact .still _
    · exact .published siteId gateId payload (Bool.eq_false_iff.mpr hstopped)
  | stop =>
    simp only [step, stop]
    split
    · exact .still _
    · exact .stopped (Bool.eq_false_iff.mpr ‹_›)
  | restart => exact .restarted
  | dial =>
    simp only [step, dial]
    split
    · exact .dialed ‹_›
    · exact .still _
  | accept =>
    simp only [step, accept]
    split
    · split
      · exact .refused ‹_›
      · exact .accepted ‹_› (Bool.eq_false_iff.mpr ‹_›)
    · exact .still _
  | drain =>
    simp only [step, drain]
    split
    · rename_i hx
      have htook := Move.took (s:=s) .drain hx rfl (s.bus.sub s.conn).queue.length
      rw [List.take_length] at htook
      exact htook
    · exact .still _
  | next =>
    simp only [step, next]
    split
    · rename_i hx
      split
      · exact .turned _ .starved hx rfl
      · rename_i e rest hqueue
        have htook := Move.took (s:=s) .next hx rfl 1
        rw [hqueue, ← Bus.pop_eq_takeFirst] at htook
        exact htook
    · exact .still _
  | write =>
    simp only [step, write]
    split
    · exact .wrote ‹_›
    · exact .still _
  | checkStopped =>
    simp only [step, checkStopped]
    split
    · rename_i hx
      split
      · exact .finished ‹_›
      · exact .turned _ (.writing []) hx rfl
    · exact .still _
  | read =>
    simp only [step, read]
    split
    · exact .ingested ‹_› ‹_› (s.cache.lastEventId_ingest ⟨DashboardEvent.eventId,frame,telemetry⟩ _)
    · exact .still _
  | breaks =>
    simp only [step, breaks]
    split
    · exact .still _
    · exact .broke
  | reap i =>
    simp only [step, reap]
    split
    · exact .still _
    · rename_i hi
      exact .reaped fun hx hconn => hi ⟨hconn.symm,hx⟩

end Uplink
end AlprGate.DashApi
