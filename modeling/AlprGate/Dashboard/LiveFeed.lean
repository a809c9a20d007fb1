import Mathlib.Data.List.Nodup
import AlprGate.Dashboard.EventCache
import AlprGate.Library.Transition

/-! # The live feed of a new connection

A new connection copies the ring, sends the copy, and then registers a sink. The copy and
the registration take the lock of the cache one after the other, and the event stream can
ingest between them: such a frame is neither in the copy nor handed to the sink.
-/
namespace AlprGate.DashApi
open Transition

/-- How far the handler of a connection has come. -/
inductive Stage (φ : Type*) where
  | absent
  | refused (reason : String)
  | replaying (frames : List φ)
  | live (sinkId : ℕ)
  | closed
  deriving DecidableEq

structure Connection (φ : Type*) where
  stage : Stage φ := .absent
  connected : Bool := false
  sent : List φ := []

/-- `send` on a connection that is gone does nothing. -/
def Connection.send {φ : Type*} (c : Connection φ) (frame : φ) : Connection φ :=
  if c.connected = true then { c with sent := c.sent ++ [frame] } else c

/-- `ingested` lists the events ever ingested. -/
structure Feed (ε ι φ γ : Type*) where
  initialised : Bool := false
  cache : EventCache ι φ γ ℕ := {}
  conn : ℕ → Connection φ := fun _ => {}
  ingested : List ε := []

inductive FeedInput (ε : Type*) where
  | setEventStream
  | ingest (ev : ε)
  | connect (n : ℕ)
  | send (n : ℕ)
  | addSink (n : ℕ)
  | drop (n : ℕ)
  | closed (n : ℕ)
  deriving DecidableEq

namespace Feed
variable {ε ι φ γ : Type*}

def setConn (s : Feed ε ι φ γ) (n : ℕ) (c : Connection φ) : Feed ε ι φ γ :=
  { s with conn := Function.update s.conn n c }

/-- The entry of `handleNewConnection`, up to the copy of the ring. -/
def connect (s : Feed ε ι φ γ) (n : ℕ) : Feed ε ι φ γ :=
  match (s.conn n).stage with
  | .absent =>
    if s.initialised = true then
      s.setConn n { s.conn n with stage := .replaying s.cache.recentFrames, connected := true }
    else s.setConn n { s.conn n with stage := .refused "event stream not initialised" }
  | _ => s

/-- One frame of the copy. -/
def send (s : Feed ε ι φ γ) (n : ℕ) : Feed ε ι φ γ :=
  match (s.conn n).stage with
  | .replaying (frame :: frames) =>
    s.setConn n { (s.conn n).send frame with stage := .replaying frames }
  | _ => s

def addSink (s : Feed ε ι φ γ) (n : ℕ) : Feed ε ι φ γ :=
  match (s.conn n).stage with
  | .replaying [] =>
    { s with cache := (s.cache.addSink n).2 }.setConn n
      { s.conn n with stage := .live (s.cache.addSink n).1 }
  | _ => s

def drop (s : Feed ε ι φ γ) (n : ℕ) : Feed ε ι φ γ :=
  s.setConn n { s.conn n with connected := false }

/-- `handleConnectionClosed`. -/
def close (s : Feed ε ι φ γ) (n : ℕ) : Feed ε ι φ γ :=
  match (s.conn n).stage with
  | .live sinkId =>
    { s with cache := s.cache.removeSink sinkId }.setConn n
      { s.conn n with stage := .closed, connected := false }
  | _ => s

/-- Every sink forwards the frame to its connection. -/
def fanOut (sinks : List (ℕ × ℕ)) (frame : φ) (conn : ℕ → Connection φ) : ℕ → Connection φ :=
  sinks.foldl (fun conn x => Function.update conn x.2 ((conn x.2).send frame)) conn

variable [DecidableEq ι] (P : Presentation ε ι φ γ)

def ingest (s : Feed ε ι φ γ) (ev : ε) : Feed ε ι φ γ :=
  { s with
    cache := s.cache.ingest P ev
    conn := fanOut s.cache.sinks (P.frame ev) s.conn
    ingested := s.ingested ++ [ev] }

def step (s : Feed ε ι φ γ) : FeedInput ε → Feed ε ι φ γ
  | .setEventStream => { s with initialised := true }
  | .ingest ev => s.ingest P ev
  | .connect n => s.connect n
  | .send n => s.send n
  | .addSink n => s.addSink n
  | .drop n => s.drop n
  | .closed n => s.close n

/-- A dashboard that has just started, and a run of it. -/
def run (ringCapacity : ℕ) (as : List (FeedInput ε)) : Feed ε ι φ γ :=
  exec (step P) { cache := { ringCapacity := ringCapacity } } as

/-- The frames of the ingested events. -/
def frames (s : Feed ε ι φ γ) : List φ := s.ingested.map P.frame

omit [DecidableEq ι] in
@[simp] theorem setConn_self (s : Feed ε ι φ γ) (n : ℕ) (c : Connection φ) :
    (s.setConn n c).conn n = c := Function.update_self ..

omit [DecidableEq ι] in
theorem setConn_other {s : Feed ε ι φ γ} {n m : ℕ} {c : Connection φ} (h : m ≠ n) :
    (s.setConn n c).conn m = s.conn m := Function.update_of_ne h ..

/-- A connection without a sink gets nothing. -/
theorem fanOut_other {sinks : List (ℕ × ℕ)} {n : ℕ} (h : n ∉ sinks.map Prod.snd) (frame : φ)
    (conn : ℕ → Connection φ) : fanOut sinks frame conn n = conn n := by
  induction sinks generalizing conn with
  | nil => rfl
  | cons x sinks ih =>
    obtain ⟨hx,hsinks⟩ := List.ne_and_not_mem_of_not_mem_cons h
    have htail := ih hsinks (Function.update conn x.2 ((conn x.2).send frame))
    exact htail.trans (Function.update_of_ne hx ..)

/-- A connection with one sink gets the frame once. -/
theorem fanOut_self {sinks : List (ℕ × ℕ)} {n : ℕ} (hnodup : (sinks.map Prod.snd).Nodup)
    (h : n ∈ sinks.map Prod.snd) (frame : φ) (conn : ℕ → Connection φ) :
    fanOut sinks frame conn n = (conn n).send frame := by
  induction sinks generalizing conn with
  | nil => exact absurd h List.not_mem_nil
  | cons x sinks ih =>
    obtain ⟨hx,hnodup'⟩ := List.nodup_cons.mp hnodup
    by_cases hn : n = x.2
    · subst hn
      have htail := fanOut_other hx frame (Function.update conn x.2 ((conn x.2).send frame))
      exact htail.trans (Function.update_self ..)
    · have hmem : n ∈ sinks.map Prod.snd := (List.mem_cons.mp h).resolve_left hn
      have htail := ih hnodup' hmem (Function.update conn x.2 ((conn x.2).send frame))
      rw [Function.update_of_ne hn] at htail
      exact htail

/-- The sinks are those of the live connections, each with an id of its own. -/
structure Wired (s : Feed ε ι φ γ) : Prop where
  ids : (s.cache.sinks.map Prod.fst).Nodup
  below : ∀ x ∈ s.cache.sinks, x.1 < s.cache.nextSinkId
  conns : (s.cache.sinks.map Prod.snd).Nodup
  live : ∀ id n, (id, n) ∈ s.cache.sinks ↔ (s.conn n).stage = .live id

/-- The ring holds the last frames ingested. -/
structure Ringed (cap : ℕ) (s : Feed ε ι φ γ) : Prop where
  capacity : s.cache.ringCapacity = cap
  ring : s.cache.ring = (s.frames P).drop ((s.frames P).length - cap)

omit [DecidableEq ι] in
theorem Wired.mem_of_live {s : Feed ε ι φ γ} (h : s.Wired) {n id : ℕ}
    (hn : (s.conn n).stage = .live id) : n ∈ s.cache.sinks.map Prod.snd :=
  List.mem_map_of_mem ((h.live id n).mpr hn)

omit [DecidableEq ι] in
theorem Wired.not_mem_of_ne {s : Feed ε ι φ γ} (h : s.Wired) {n : ℕ}
    (hn : ∀ id, (s.conn n).stage ≠ .live id) : n ∉ s.cache.sinks.map Prod.snd := by
  intro hmem
  obtain ⟨⟨id,m⟩,hx,rfl⟩ := List.mem_map.mp hmem
  exact hn id ((h.live id m).mp hx)

omit [DecidableEq ι] in
/-- A step of a connection that neither gains nor loses a sink. -/
theorem Wired.setConn {s : Feed ε ι φ γ} (h : s.Wired) {n : ℕ} {c : Connection φ}
    (hc : ∀ id, c.stage = .live id ↔ (s.conn n).stage = .live id) : (s.setConn n c).Wired where
  ids := h.ids
  below := h.below
  conns := h.conns
  live := by
    intro id m
    refine (h.live id m).trans ?_
    by_cases hm : m = n
    · subst hm
      rw [setConn_self]
      exact (hc id).symm
    · rw [setConn_other hm]

omit [DecidableEq ι] in
theorem Wired.addSink {s : Feed ε ι φ γ} (h : s.Wired) (n : ℕ) : (s.addSink n).Wired := by
  unfold Feed.addSink
  split
  · rename_i hstage
    have hfree : n ∉ s.cache.sinks.map Prod.snd :=
      h.not_mem_of_ne fun id => by rw [hstage]; exact fun hlive => by cases hlive
    refine ⟨?_,?_,?_,?_⟩
    · simp only [EventCache.addSink, Feed.setConn, List.map_append]
      refine List.nodup_append.mpr ⟨h.ids,List.nodup_singleton _,?_⟩
      intro a ha b hb
      obtain ⟨x,hx,rfl⟩ := List.mem_map.mp ha
      rw [List.mem_singleton.mp hb]
      exact Nat.ne_of_lt (h.below x hx)
    · intro x hx
      rcases List.mem_append.mp hx with hx | hx
      · exact Nat.lt_succ_of_lt (h.below x hx)
      · rw [List.mem_singleton.mp hx]
        exact Nat.lt_succ_self _
    · simp only [EventCache.addSink, Feed.setConn, List.map_append]
      refine List.nodup_append.mpr ⟨h.conns,List.nodup_singleton _,?_⟩
      intro a ha b hb
      rw [List.mem_singleton.mp hb]
      rintro rfl
      exact hfree ha
    · intro id m
      change (id, m) ∈ s.cache.sinks ++ [(s.cache.nextSinkId, n)] ↔ _
      by_cases hm : m = n
      · subst hm
        have hnone : (id, m) ∉ s.cache.sinks := fun hx => hfree (List.mem_map_of_mem hx)
        rw [setConn_self]
        simp [hnone, EventCache.addSink, eq_comm]
      · rw [setConn_other hm]
        simp [hm, h.live id m]
  · exact h

omit [DecidableEq ι] in
theorem Wired.close {s : Feed ε ι φ γ} (h : s.Wired) (n : ℕ) : (s.close n).Wired := by
  unfold Feed.close
  split
  · rename_i sinkId hstage
    have hsub := List.filter_sublist (p:=fun x : ℕ × ℕ => x.1 ≠ sinkId) (l:=s.cache.sinks)
    refine ⟨h.ids.sublist (hsub.map _),fun x hx => h.below x (hsub.subset hx),
      h.conns.sublist (hsub.map _),?_⟩
    intro id m
    change (id, m) ∈ s.cache.sinks.filter (fun x => x.1 ≠ sinkId) ↔ _
    rw [List.mem_filter, h.live id m]
    by_cases hm : m = n
    · subst hm
      rw [setConn_self, hstage]
      simp only [Stage.live.injEq, decide_eq_true_eq]
      constructor
      · rintro ⟨rfl,hne⟩
        exact absurd rfl hne
      · intro hclosed
        cases hclosed
    · rw [setConn_other hm]
      constructor
      · exact fun hx => hx.1
      · intro hx
        refine ⟨hx,decide_eq_true ?_⟩
        -- Two connections cannot share the id.
        rintro rfl
        have hpair := List.inj_on_of_nodup_map h.ids ((h.live id m).mpr hx)
          ((h.live id n).mpr hstage) rfl
        exact hm (congrArg Prod.snd hpair)
  · exact h

theorem stage_send (c : Connection φ) (frame : φ) :
    (c.send frame).stage = c.stage ∧ (c.send frame).connected = c.connected := by
  unfold Connection.send
  split
  · exact ⟨rfl,rfl⟩
  · exact ⟨rfl,rfl⟩

theorem stage_fanOut (sinks : List (ℕ × ℕ)) (frame : φ) (conn : ℕ → Connection φ) (n : ℕ) :
    (fanOut sinks frame conn n).stage = (conn n).stage ∧
      (fanOut sinks frame conn n).connected = (conn n).connected := by
  induction sinks generalizing conn with
  | nil => exact ⟨rfl,rfl⟩
  | cons x sinks ih =>
    obtain ⟨hstage,hconnected⟩ := ih (Function.update conn x.2 ((conn x.2).send frame))
    have hhead : (Function.update conn x.2 ((conn x.2).send frame) n).stage = (conn n).stage ∧
        (Function.update conn x.2 ((conn x.2).send frame) n).connected = (conn n).connected := by
      by_cases hn : n = x.2
      · subst hn
        rw [Function.update_self]
        exact stage_send (conn x.2) frame
      · rw [Function.update_of_ne hn]
        exact ⟨rfl,rfl⟩
    exact ⟨hstage.trans hhead.1,hconnected.trans hhead.2⟩

theorem Wired.step {s : Feed ε ι φ γ} (h : s.Wired) (a : FeedInput ε) : (s.step P a).Wired := by
  cases a with
  | setEventStream => exact ⟨h.ids,h.below,h.conns,h.live⟩
  | ingest ev =>
    refine ⟨h.ids,h.below,h.conns,?_⟩
    intro id n
    refine (h.live id n).trans ?_
    simp only [Feed.step, Feed.ingest, (stage_fanOut s.cache.sinks (P.frame ev) s.conn n).1]
  | connect n =>
    simp only [Feed.step, Feed.connect]
    split
    · rename_i hstage
      split
      · exact h.setConn fun id => by simp [hstage]
      · exact h.setConn fun id => by simp [hstage]
    · exact h
  | send n =>
    simp only [Feed.step, Feed.send]
    split
    · rename_i hstage
      exact h.setConn fun id => by simp [hstage]
    · exact h
  | addSink n => exact h.addSink n
  | drop n => exact h.setConn fun id => Iff.rfl
  | closed n => exact h.close n

theorem Ringed.step {cap : ℕ} {s : Feed ε ι φ γ} (h : s.Ringed P cap) (a : FeedInput ε) :
    (s.step P a).Ringed P cap := by
  cases a with
  | setEventStream => exact ⟨h.capacity,h.ring⟩
  | ingest ev =>
    refine ⟨h.capacity,?_⟩
    have hbefore : s.cache.ring =
        (s.frames P).drop ((s.frames P).length - s.cache.ringCapacity) := by
      rw [h.capacity]
      exact h.ring
    have hring := EventCache.ring_ingest P hbefore ev
    rw [h.capacity] at hring
    simpa [Feed.step, Feed.ingest, Feed.frames] using hring
  | connect n =>
    simp only [Feed.step, Feed.connect]
    split
    · split
      · exact ⟨h.capacity,h.ring⟩
      · exact ⟨h.capacity,h.ring⟩
    · exact h
  | send n =>
    simp only [Feed.step, Feed.send]
    split
    · exact ⟨h.capacity,h.ring⟩
    · exact h
  | addSink n =>
    simp only [Feed.step, Feed.addSink]
    split
    · exact ⟨h.capacity,h.ring⟩
    · exact h
  | drop n => exact ⟨h.capacity,h.ring⟩
  | closed n =>
    simp only [Feed.step, Feed.close]
    split
    · exact ⟨h.capacity,h.ring⟩
    · exact h

/-- What a step makes of one connection. -/
inductive Turn (s : Feed ε ι φ γ) (n : ℕ) : FeedInput ε → Connection φ → Prop
  | same {a : FeedInput ε} (h : ∀ ev, a = .ingest ev → ∀ id, (s.conn n).stage ≠ .live id) :
      Turn s n a (s.conn n)
  | frame {ev : ε} {id : ℕ} (hstage : (s.conn n).stage = .live id) :
      Turn s n (.ingest ev) ((s.conn n).send (P.frame ev))
  | connect (hstage : (s.conn n).stage = .absent) (hinitialised : s.initialised = true) :
      Turn s n (.connect n)
        { s.conn n with stage := .replaying s.cache.recentFrames, connected := true }
  | refuse {reason : String} (hstage : (s.conn n).stage = .absent)
      (hinitialised : s.initialised = false) :
      Turn s n (.connect n) { s.conn n with stage := .refused reason }
  | replay {frame : φ} {frames : List φ} (hstage : (s.conn n).stage = .replaying (frame :: frames)) :
      Turn s n (.send n) { (s.conn n).send frame with stage := .replaying frames }
  | join {id : ℕ} (hstage : (s.conn n).stage = .replaying []) :
      Turn s n (.addSink n) { s.conn n with stage := .live id }
  | dropped : Turn s n (.drop n) { s.conn n with connected := false }
  | closed {id : ℕ} (hstage : (s.conn n).stage = .live id) :
      Turn s n (.closed n) { s.conn n with stage := .closed, connected := false }

omit [DecidableEq ι] in
theorem Turn.update {s t : Feed ε ι φ γ} {a : FeedInput ε} {n m : ℕ} {c : Connection φ}
    (ht : t.conn = Function.update s.conn m c) (ha : ∀ ev, a ≠ .ingest ev)
    (hc : n = m → Turn P s n a c) : Turn P s n a (t.conn n) := by
  rw [ht]
  by_cases h : n = m
  · rw [h, Function.update_self, ← h]
    exact hc h
  · rw [Function.update_of_ne h]
    exact .same fun ev hev => absurd hev (ha ev)

theorem conn_turn {s : Feed ε ι φ γ} (h : s.Wired) (a : FeedInput ε) (n : ℕ) :
    Turn P s n a ((s.step P a).conn n) := by
  cases a with
  | setEventStream => exact .same fun ev hev => by cases hev
  | ingest ev =>
    simp only [Feed.step, Feed.ingest]
    by_cases hlive : ∃ id, (s.conn n).stage = .live id
    · obtain ⟨id,hid⟩ := hlive
      rw [fanOut_self h.conns (h.mem_of_live hid)]
      exact .frame hid
    · have hnone : ∀ id, (s.conn n).stage ≠ .live id := fun id hid => hlive ⟨id,hid⟩
      rw [fanOut_other (h.not_mem_of_ne hnone)]
      exact .same fun _ _ => hnone
  | connect m =>
    simp only [Feed.step, Feed.connect]
    split
    · rename_i hstage
      split
      · rename_i hinit
        exact .update P rfl (fun _ => by simp) (by rintro rfl; exact .connect hstage hinit)
      · rename_i hinit
        have hinit' := Bool.eq_false_iff.mpr hinit
        exact .update P rfl (fun _ => by simp) (by rintro rfl; exact .refuse hstage hinit')
    · exact .same fun ev hev => by cases hev
  | send m =>
    simp only [Feed.step, Feed.send]
    split
    · rename_i hstage
      exact .update P rfl (fun _ => by simp) (by rintro rfl; exact .replay hstage)
    · exact .same fun ev hev => by cases hev
  | addSink m =>
    simp only [Feed.step, Feed.addSink]
    split
    · rename_i hstage
      exact .update P rfl (fun _ => by simp) (by rintro rfl; exact .join hstage)
    · exact .same fun ev hev => by cases hev
  | drop m => exact .update P rfl (fun _ => by simp) (by rintro rfl; exact .dropped)
  | closed m =>
    simp only [Feed.step, Feed.close]
    split
    · rename_i hstage
      exact .update P rfl (fun _ => by simp) (by rintro rfl; exact .closed hstage)
    · exact .same fun ev hev => by cases hev

/-- What has been sent and what is left of the copy make up the copy. -/
structure Copied (start : List φ) (n : ℕ) (s : Feed ε ι φ γ) : Prop where
  present : (s.conn n).stage ≠ .absent
  copy : ∀ frames, (s.conn n).stage = .replaying frames → (s.conn n).connected = true →
    (s.conn n).sent ++ frames = start

theorem Copied.step {start : List φ} {n : ℕ} {s : Feed ε ι φ γ} (hwired : s.Wired)
    (h : s.Copied start n) (a : FeedInput ε) : (s.step P a).Copied start n := by
  suffices hturn : ∀ c, Turn P s n a c → c.stage ≠ .absent ∧
      ∀ frames, c.stage = .replaying frames → c.connected = true → c.sent ++ frames = start by
    obtain ⟨hpresent,hcopy⟩ := hturn _ (conn_turn P hwired a n)
    exact ⟨hpresent,hcopy⟩
  intro c hturn
  cases hturn with
  | same hkept => exact ⟨h.present,h.copy⟩
  | @frame ev id hstage =>
    obtain ⟨hsame,_⟩ := stage_send (s.conn n) (P.frame ev)
    rw [hsame, hstage]
    exact ⟨fun hlive => (by cases hlive),fun frames hlive => (by cases hlive)⟩
  | connect hstage hinit => exact absurd hstage h.present
  | refuse hstage hinit => exact absurd hstage h.present
  | @replay frame frames hstage =>
    refine ⟨fun habsent => (by cases habsent),?_⟩
    intro frames' hframes hconnected
    cases hframes
    have hconnected' : (s.conn n).connected = true :=
      (stage_send (s.conn n) frame).2.symm.trans hconnected
    have hcopy := h.copy _ hstage hconnected'
    simp only [Connection.send, hconnected', if_true, List.append_assoc]
    exact hcopy
  | join hstage => exact ⟨fun hlive => (by cases hlive),fun frames hlive => (by cases hlive)⟩
  | dropped => exact ⟨h.present,fun frames _ hconnected => (by cases hconnected)⟩
  | closed hstage =>
    exact ⟨fun hclosed => (by cases hclosed),fun frames hclosed => (by cases hclosed)⟩

/-- The copy has been sent, and every frame since the first `m`. -/
structure Followed (start : List φ) (m n : ℕ) (s : Feed ε ι φ γ) : Prop where
  count : m ≤ s.ingested.length
  started : (s.conn n).stage ≠ .absent ∧ ∀ frames, (s.conn n).stage ≠ .replaying frames
  sent : (s.conn n).connected = true → (∃ id, (s.conn n).stage = .live id) ∧
    (s.conn n).sent = start ++ (s.frames P).drop m

theorem ingested_step (s : Feed ε ι φ γ) (a : FeedInput ε) :
    (∃ ev, a = .ingest ev ∧ (s.step P a).ingested = s.ingested ++ [ev]) ∨
      ((∀ ev, a ≠ .ingest ev) ∧ (s.step P a).ingested = s.ingested) := by
  cases a with
  | ingest ev => exact Or.inl ⟨ev,rfl,rfl⟩
  | setEventStream => exact Or.inr ⟨fun _ => by simp,rfl⟩
  | connect n =>
    refine Or.inr ⟨fun _ => by simp,?_⟩
    simp only [Feed.step, Feed.connect]
    split
    · split
      · rfl
      · rfl
    · rfl
  | send n =>
    refine Or.inr ⟨fun _ => by simp,?_⟩
    simp only [Feed.step, Feed.send]
    split
    · rfl
    · rfl
  | addSink n =>
    refine Or.inr ⟨fun _ => by simp,?_⟩
    simp only [Feed.step, Feed.addSink]
    split
    · rfl
    · rfl
  | drop n => exact Or.inr ⟨fun _ => by simp,rfl⟩
  | closed n =>
    refine Or.inr ⟨fun _ => by simp,?_⟩
    simp only [Feed.step, Feed.close]
    split
    · rfl
    · rfl

theorem Followed.step {start : List φ} {m n : ℕ} {s : Feed ε ι φ γ} (hwired : s.Wired)
    (h : s.Followed P start m n) (a : FeedInput ε) : (s.step P a).Followed P start m n := by
  have hgrows : m ≤ (s.step P a).ingested.length := by
    rcases ingested_step P s a with ⟨ev,_,hingested⟩ | ⟨_,hingested⟩
    · rw [hingested, List.length_append]
      exact Nat.le_add_right_of_le h.count
    · rw [hingested]
      exact h.count
  have hframes : (∀ ev, a ≠ .ingest ev) → (s.step P a).frames P = s.frames P := by
    intro ha
    rcases ingested_step P s a with ⟨ev,hev,_⟩ | ⟨_,hingested⟩
    · exact absurd hev (ha ev)
    · rw [frames, hingested, frames]
  suffices hturn : ∀ c, Turn P s n a c → (c.stage ≠ .absent ∧ ∀ fs, c.stage ≠ .replaying fs) ∧
      (c.connected = true → (∃ id, c.stage = .live id) ∧
        c.sent = start ++ ((s.step P a).frames P).drop m) by
    obtain ⟨hstarted,hsent⟩ := hturn _ (conn_turn P hwired a n)
    exact ⟨hgrows,hstarted,hsent⟩
  intro c hturn
  cases hturn with
  | same hkept =>
    refine ⟨h.started,?_⟩
    intro hconnected
    obtain ⟨⟨id,hlive⟩,hsent⟩ := h.sent hconnected
    rw [hframes fun ev hev => hkept ev hev id hlive]
    exact ⟨⟨id,hlive⟩,hsent⟩
  | @frame ev id hstage =>
    obtain ⟨hsame,hconn⟩ := stage_send (s.conn n) (P.frame ev)
    rw [hsame, hconn]
    refine ⟨h.started,?_⟩
    intro hconnected
    obtain ⟨_,hsent⟩ := h.sent hconnected
    refine ⟨⟨id,hstage⟩,?_⟩
    have hle : m ≤ (s.frames P).length := by
      rw [frames, List.length_map]
      exact h.count
    have hnew : (s.step P (.ingest ev)).frames P = s.frames P ++ [P.frame ev] := by
      simp [Feed.step, Feed.ingest, frames]
    rw [hnew, List.drop_append_of_le_length hle, ← List.append_assoc, ← hsent]
    simp only [Connection.send, hconnected, if_true]
  | connect hstage hinit => exact absurd hstage h.started.1
  | refuse hstage hinit => exact absurd hstage h.started.1
  | replay hstage => exact absurd hstage (h.started.2 _)
  | join hstage => exact absurd hstage (h.started.2 _)
  | dropped => exact ⟨h.started,fun hconnected => (by cases hconnected)⟩
  | closed hstage =>
    exact ⟨⟨fun hclosed => (by cases hclosed),fun frames hclosed => (by cases hclosed)⟩,
      fun hconnected => (by cases hconnected)⟩

theorem ingested_exec (s : Feed ε ι φ γ) (as : List (FeedInput ε)) :
    s.ingested <+: (exec (step P) s as).ingested := by
  induction as generalizing s with
  | nil => exact List.prefix_rfl
  | cons a as ih =>
    refine List.IsPrefix.trans ?_ (ih (s.step P a))
    rcases ingested_step P s a with ⟨ev,_,hingested⟩ | ⟨_,hingested⟩
    · rw [hingested]
      exact List.prefix_append _ _
    · simp [hingested]

/-- Nothing is sent before a connection is there. -/
theorem unsent_step {s : Feed ε ι φ γ} (hwired : s.Wired) {n : ℕ}
    (h : (s.conn n).stage = .absent → (s.conn n).sent = []) (a : FeedInput ε) :
    ((s.step P a).conn n).stage = .absent → ((s.step P a).conn n).sent = [] := by
  suffices hturn : ∀ c, Turn P s n a c → c.stage = .absent → c.sent = [] from
    hturn _ (conn_turn P hwired a n)
  intro c hturn habsent
  cases hturn with
  | same hkept => exact h habsent
  | @frame ev id hstage =>
    rw [(stage_send (s.conn n) (P.frame ev)).1, hstage] at habsent
    cases habsent
  | dropped => exact h habsent
  | _ => cases habsent

/-- What holds in every state of a run. -/
structure Sound (cap : ℕ) (s : Feed ε ι φ γ) : Prop where
  wired : s.Wired
  ringed : s.Ringed P cap
  unsent : ∀ n, (s.conn n).stage = .absent → (s.conn n).sent = []

theorem Sound.step {cap : ℕ} {s : Feed ε ι φ γ} (h : s.Sound P cap) (a : FeedInput ε) :
    (s.step P a).Sound P cap where
  wired := h.wired.step P a
  ringed := h.ringed.step P a
  unsent := fun n => unsent_step P h.wired (h.unsent n) a

theorem Sound.run (ringCapacity : ℕ) (as : List (FeedInput ε)) :
    (run P ringCapacity as : Feed ε ι φ γ).Sound P ringCapacity := by
  refine exec_invariant (fun s a h => h.step P a) as ⟨⟨?_,?_,?_,?_⟩,⟨rfl,?_⟩,fun _ _ => rfl⟩
  · exact List.nodup_nil
  · exact fun x hx => absurd hx List.not_mem_nil
  · exact List.nodup_nil
  · simp
  · simp [frames]

omit [DecidableEq ι] in
/-- The ring starts where its length says. -/
theorem Ringed.drop_length {cap : ℕ} {s : Feed ε ι φ γ} (h : s.Ringed P cap) :
    (s.frames P).drop ((s.frames P).length - s.cache.ring.length) = s.cache.ring := by
  rw [h.ring, List.length_drop]
  congr 1
  omega

/-- The copy is that of the ring. -/
theorem copied_connect {p : Feed ε ι φ γ} {n : ℕ} (habsent : (p.conn n).stage = .absent)
    (hsent : (p.conn n).sent = []) : (p.step P (.connect n)).Copied p.cache.ring n := by
  simp only [Feed.step, Feed.connect, habsent]
  split
  · refine ⟨?_,?_⟩
    · rw [setConn_self]
      exact fun h => by cases h
    · intro frames hframes _
      rw [setConn_self] at hframes ⊢
      cases hframes
      rw [hsent]
      rfl
  · refine ⟨?_,?_⟩
    · rw [setConn_self]
      exact fun h => by cases h
    · intro frames hframes
      rw [setConn_self] at hframes
      cases hframes

theorem followed_addSink {start : List φ} {r : Feed ε ι φ γ} {n : ℕ} (h : r.Copied start n)
    (hready : (r.conn n).stage = .replaying []) :
    (r.step P (.addSink n)).Followed P start r.ingested.length n := by
  simp only [Feed.step, Feed.addSink, hready]
  refine ⟨Nat.le_refl _,?_,?_⟩
  · rw [setConn_self]
    exact ⟨fun hlive => (by cases hlive),fun frames hlive => (by cases hlive)⟩
  · rw [setConn_self]
    intro hconnected
    have hcopy := h.copy [] hready hconnected
    refine ⟨⟨_,rfl⟩,?_⟩
    have hnone : (r.frames P).drop r.ingested.length = [] := by
      simp [frames]
    change (r.conn n).sent = start ++ (r.frames P).drop r.ingested.length
    rw [hnone]
    simpa using hcopy

/-- After its registration a connection has been sent the copy and all later frames. -/
theorem sent_after_join {ringCapacity : ℕ} {p : Feed ε ι φ γ} (hp : p.Sound P ringCapacity)
    (mid after : List (FeedInput ε)) {n : ℕ} (habsent : (p.conn n).stage = .absent)
    {r q : Feed ε ι φ γ} (hr : exec (step P) (p.step P (.connect n)) mid = r)
    (hready : (r.conn n).stage = .replaying [])
    (hq : exec (step P) (r.step P (.addSink n)) after = q)
    (hconnected : (q.conn n).connected = true) :
    (q.conn n).sent = p.cache.ring ++ (q.frames P).drop r.ingested.length := by
  have hcopied : r.Sound P ringCapacity ∧ r.Copied p.cache.ring n := by
    rw [← hr]
    refine exec_invariant (I:=fun s : Feed ε ι φ γ => s.Sound P ringCapacity ∧
      s.Copied p.cache.ring n) ?_ mid ⟨hp.step P _,copied_connect P habsent (hp.unsent n habsent)⟩
    rintro s a ⟨hsound,hcopy⟩
    exact ⟨hsound.step P a,hcopy.step P hsound.wired a⟩
  have hfollowed : q.Sound P ringCapacity ∧
      q.Followed P p.cache.ring r.ingested.length n := by
    rw [← hq]
    refine exec_invariant (I:=fun s : Feed ε ι φ γ => s.Sound P ringCapacity ∧
      s.Followed P p.cache.ring r.ingested.length n) ?_ after
      ⟨hcopied.1.step P _,followed_addSink P hcopied.2 hready⟩
    rintro s a ⟨hsound,hfollows⟩
    exact ⟨hsound.step P a,hfollows.step P hsound.wired a⟩
  exact (hfollowed.2.sent hconnected).2

/-- A connection copies the ring in state `p`, registers its sink in state `r` and is still
connected in state `q`. What it has been sent is the run of frames from the oldest one in the
ring of `p` to the latest one ingested exactly when nothing was ingested between `p` and `r`. -/
theorem replay_contiguous_iff (ringCapacity : ℕ) (before mid after : List (FeedInput ε)) (n : ℕ)
    {p r q : Feed ε ι φ γ} (hp : run P ringCapacity before = p)
    (habsent : (p.conn n).stage = .absent)
    (hr : run P ringCapacity (before ++ .connect n :: mid) = r)
    (hready : (r.conn n).stage = .replaying [])
    (hq : run P ringCapacity (before ++ .connect n :: (mid ++ .addSink n :: after)) = q)
    (hconnected : (q.conn n).connected = true) :
    (q.conn n).sent = (q.frames P).drop ((p.frames P).length - p.cache.ring.length) ↔
      r.ingested = p.ingested := by
  have hsound : p.Sound P ringCapacity := hp ▸ Sound.run P ringCapacity before
  have hr' : exec (step P) (p.step P (.connect n)) mid = r := by
    rw [← hr, ← hp, run, run, exec_append, exec_cons]
  have hq' : exec (step P) (r.step P (.addSink n)) after = q := by
    rw [← hq, ← hr', ← hp, run, run, exec_append, exec_cons, exec_append, exec_cons]
  have hsent := sent_after_join P hsound mid after habsent hr' hready hq' hconnected
  -- The ingested events are those before the copy, those before the registration, and the rest.
  obtain ⟨between,hbetween⟩ : p.ingested <+: r.ingested := by
    have hconnect : (p.step P (.connect n)).ingested = p.ingested := by
      rcases ingested_step P p (.connect n) with ⟨ev,hev,_⟩ | ⟨_,hsame⟩
      · cases hev
      · exact hsame
    rw [← hr', ← hconnect]
    exact ingested_exec P _ mid
  obtain ⟨later,hlater⟩ : r.ingested <+: q.ingested := by
    have hjoin : (r.step P (.addSink n)).ingested = r.ingested := by
      rcases ingested_step P r (.addSink n) with ⟨ev,hev,_⟩ | ⟨_,hsame⟩
      · cases hev
      · exact hsame
    rw [← hq', ← hjoin]
    exact ingested_exec P _ after
  have hrun : (q.frames P).drop ((p.frames P).length - p.cache.ring.length) =
      p.cache.ring ++ between.map P.frame ++ later.map P.frame := by
    have hframes : q.frames P = p.frames P ++ (between.map P.frame ++ later.map P.frame) := by
      rw [frames, ← hlater, ← hbetween, List.map_append, List.map_append, List.append_assoc]
      rfl
    rw [hframes, List.drop_append_of_le_length (Nat.sub_le _ _), hsound.ringed.drop_length P,
      List.append_assoc]
  have hcount : r.ingested.length = (r.ingested.map P.frame).length := by rw [List.length_map]
  rw [hsent, hrun, frames, ← hlater, List.map_append, hcount, List.drop_left, ← hbetween]
  constructor
  · intro hsame
    have hlength := congrArg List.length hsame
    simp only [List.length_append, List.length_map] at hlength
    rw [List.length_eq_zero_iff.mp (by omega : between.length = 0), List.append_nil]
  · intro hsame
    have hnone : between = [] := List.append_right_eq_self.mp hsame
    simp [hnone]

/-- Events that are their own ids and frames. -/
def plain : Presentation ℕ Unit ℕ Unit := ⟨id,id,fun _ => none⟩

/-- With nothing ingested between the copy and the registration the feed has no gap. -/
theorem replay_contiguous_when_quiet :
    let before : List (FeedInput ℕ) := [.setEventStream, .ingest 1, .ingest 2, .ingest 3]
    let mid : List (FeedInput ℕ) := [.send 0, .send 0]
    let after : List (FeedInput ℕ) := [.ingest 4]
    ((run plain 2 (before ++ .connect 0 :: (mid ++ .addSink 0 :: after))).conn 0).sent =
      [2, 3, 4] := by
  intro before mid after
  have hsent := (replay_contiguous_iff plain 2 before mid after 0 rfl (by decide) rfl (by decide) rfl
    (by decide)).mpr (by decide)
  exact hsent.trans (by decide)

/-- An event is ingested after the copy and before the registration: its frame is missing in
the middle of what the connection gets. -/
theorem replay_with_gap :
    let s := run plain 2 [.setEventStream, .ingest 1, .connect 0, .send 0, .ingest 2, .addSink 0,
      .ingest 3]
    (s.conn 0).sent = [1, 3] ∧ s.ingested = [1, 2, 3] ∧ (s.conn 0).connected = true := by
  decide

end Feed
end AlprGate.DashApi
