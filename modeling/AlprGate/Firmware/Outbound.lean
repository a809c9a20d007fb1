import AlprGate.Firmware.FrameReassembly

/-! # The outbound half of a session

Any task queues an encoded frame; the session's pump takes the next frame when it has
none in hand, and HTTP/2 reads the frame in hand in pieces of its own choice. The pieces
put together are the queued frames in their order.
-/
namespace AlprGate.Rpc
open LengthPrefix Transition

def kMaxOutFrame : ℕ := 512

def kOutQueueDepth : ℕ := 8

/-- The bytes of a frame up to its `len`. -/
abbrev OutFrame := List UInt8

variable {α : Type*}

/-- The encoder writes behind the room for the prefix and fails when the envelope does not
fit. -/
def pbEncode (encode : α → Option (List UInt8)) (env : α) : Option (List UInt8) :=
  match encode env with
  | some body => if body.length ≤ kMaxOutFrame - kFrameHeaderSize then some body else none
  | none => none

/-- `queued` are the encoded envelopes that went into the queue since the session began,
`wire` the bytes that HTTP/2 has read. -/
structure Outbound where
  queue : List OutFrame := []
  current : OutFrame := []
  currentOff : ℕ := 0
  hasCurrent : Bool := false
  queued : List (List UInt8) := []
  wire : List UInt8 := []
  deriving DecidableEq, Repr

namespace Outbound

/-- A full queue refuses the frame. -/
def enqueue (o : Outbound) (body : List UInt8) : Outbound × Bool :=
  if o.queue.length < kOutQueueDepth then
    ({ o with queue := o.queue ++ [framed body], queued := o.queued ++ [body] }, true)
  else (o, false)

/-- `connected` is what the flag of the client reads. -/
def sendEnvelope (encode : α → Option (List UInt8)) (o : Outbound) (connected : Bool) (env : α) :
    Outbound × Bool :=
  match pbEncode encode env with
  | some body => if connected = true then o.enqueue body else (o, false)
  | none => (o, false)

/-- The pump takes a frame in hand. -/
def refill (o : Outbound) : Outbound :=
  match o.hasCurrent, o.queue with
  | false, frame :: rest =>
    { o with queue := rest, current := frame, currentOff := 0, hasCurrent := true }
  | _, _ => o

/-- Without a frame in hand the read is deferred. -/
def dataRead (o : Outbound) (length : ℕ) : Outbound × Option (List UInt8) :=
  if o.hasCurrent = false then (o, none)
  else
    let remain := o.current.length - o.currentOff
    let take := if length < remain then length else remain
    let bytes := (o.current.drop o.currentOff).take take
    let o := { o with currentOff := o.currentOff + take, wire := o.wire ++ bytes }
    if o.currentOff = o.current.length then
      ({ o with hasCurrent := false, currentOff := 0 }, some bytes)
    else (o, some bytes)

end Outbound

inductive OutInput (α : Type*) where
  | send (connected : Bool) (env : α)
  | refill
  | dataRead (length : ℕ)

namespace Outbound

def step (encode : α → Option (List UInt8)) (o : Outbound) : OutInput α → Outbound
  | .send connected env => (o.sendEnvelope encode connected env).1
  | .refill => o.refill
  | .dataRead length => (o.dataRead length).1

/-- The envelopes are read completely, in part or not at all, in the order of the queue. -/
structure Reading (o : Outbound) (done inHand waiting : List (List UInt8)) : Prop where
  split : o.queued = done ++ inHand ++ waiting
  small : ∀ body ∈ o.queued, body.length ≤ kMaxOutFrame - kFrameHeaderSize
  queue : o.queue = waiting.map framed
  hand : if o.hasCurrent = true then
      inHand.map framed = [o.current] ∧ o.currentOff < o.current.length ∧
        o.wire = done.flatMap framed ++ o.current.take o.currentOff
    else inHand = [] ∧ o.wire = done.flatMap framed

/-- Every envelope is at its place. -/
def InOrder (o : Outbound) : Prop :=
  ∃ done inHand waiting, o.Reading done inHand waiting

theorem length_framed (body : List UInt8) : (framed body).length = body.length + 5 := by
  rw [framed, List.length_append, Nat.add_comm]
  rfl

variable {o : Outbound} {done inHand waiting : List (List UInt8)}

theorem Reading.of_hand (h : o.Reading done inHand waiting) (hhand : o.hasCurrent = true) :
    ∃ body, inHand = [body] ∧ o.current = framed body ∧ o.currentOff < o.current.length ∧
      o.wire = done.flatMap framed ++ o.current.take o.currentOff := by
  have hcurrent := h.hand
  rw [if_pos hhand] at hcurrent
  obtain ⟨hmap,hoff,hwire⟩ := hcurrent
  obtain ⟨body,rest,rfl,hbody,hrest⟩ := List.map_eq_cons_iff.mp hmap
  rw [List.map_eq_nil_iff.mp hrest]
  exact ⟨body,rfl,hbody.symm,hoff,hwire⟩

theorem Reading.of_free (h : o.Reading done inHand waiting) (hfree : o.hasCurrent = false) :
    inHand = [] ∧ o.wire = done.flatMap framed := by
  have hnone := h.hand
  rw [hfree] at hnone
  exact hnone

theorem Reading.enqueue (h : o.Reading done inHand waiting) {body : List UInt8}
    (hbody : body.length ≤ kMaxOutFrame - kFrameHeaderSize) :
    (o.enqueue body).1.InOrder := by
  unfold Outbound.enqueue
  split
  · refine ⟨done,inHand,waiting ++ [body],?_,?_,?_,h.hand⟩
    · rw [← List.append_assoc, ← h.split]
    · intro b hb
      rcases List.mem_append.mp hb with hb | hb
      · exact h.small b hb
      · rw [List.mem_singleton.mp hb]
        exact hbody
    · rw [List.map_append, ← h.queue]
      rfl
  · exact ⟨done,inHand,waiting,h⟩

theorem pbEncode_length {encode : α → Option (List UInt8)} {env : α} {body : List UInt8}
    (h : pbEncode encode env = some body) : body.length ≤ kMaxOutFrame - kFrameHeaderSize := by
  unfold pbEncode at h
  split at h
  · split at h
    · rename_i hfits
      cases h
      exact hfits
    · cases h
  · cases h

theorem Reading.send (h : o.Reading done inHand waiting) (encode : α → Option (List UInt8))
    (connected : Bool) (env : α) : (o.sendEnvelope encode connected env).1.InOrder := by
  unfold sendEnvelope
  cases hencode : pbEncode encode env with
  | none => exact ⟨done,inHand,waiting,h⟩
  | some body =>
    dsimp only
    split
    · exact h.enqueue (pbEncode_length hencode)
    · exact ⟨done,inHand,waiting,h⟩

theorem Reading.refill (h : o.Reading done inHand waiting) : o.refill.InOrder := by
  unfold Outbound.refill
  split
  · rename_i frame rest hfree hqueue
    obtain ⟨rfl,hwire⟩ := h.of_free hfree
    have hmap := h.queue.symm.trans hqueue
    obtain ⟨body,waiting',rfl,rfl,hrest⟩ := List.map_eq_cons_iff.mp hmap
    refine ⟨done,[body],waiting',?_,h.small,hrest.symm,?_⟩
    · rw [h.split]
      simp
    · rw [if_pos rfl]
      refine ⟨rfl,?_,?_⟩
      · dsimp only
        rw [length_framed]
        omega
      · dsimp only
        rw [hwire, List.take_zero, List.append_nil]
  · exact ⟨done,inHand,waiting,h⟩

theorem Reading.dataRead (h : o.Reading done inHand waiting) (length : ℕ) :
    (o.dataRead length).1.InOrder := by
  unfold Outbound.dataRead
  cases hhand : o.hasCurrent with
  | false =>
    rw [if_pos rfl]
    exact ⟨done,inHand,waiting,h⟩
  | true =>
    rw [if_neg Bool.noConfusion]
    obtain ⟨body,rfl,hcurrent,hoff,hwire⟩ := h.of_hand hhand
    dsimp only
    generalize htake : (if length < o.current.length - o.currentOff then length
      else o.current.length - o.currentOff) = take
    have hle : o.currentOff + take ≤ o.current.length := by
      split at htake
      · omega
      · omega
    have hread : o.wire ++ (o.current.drop o.currentOff).take take =
        done.flatMap framed ++ o.current.take (o.currentOff + take) := by
      rw [hwire, List.append_assoc, ← List.take_add]
    split
    · -- the read comes to the end of the frame and lets go of it
      rename_i hend
      refine ⟨done ++ [body],[],waiting,?_,h.small,h.queue,?_⟩
      · rw [h.split]
        simp
      · rw [if_neg Bool.noConfusion]
        refine ⟨rfl,?_⟩
        dsimp only
        rw [hread, hend, List.take_length, List.flatMap_append, hcurrent]
        simp
    · -- the frame stays in hand with the new offset
      rename_i hmore
      refine ⟨done,[body],waiting,h.split,h.small,h.queue,?_⟩
      rw [if_pos rfl]
      refine ⟨?_,?_,hread⟩
      · rw [hcurrent]
        rfl
      · dsimp only at hmore ⊢
        omega

theorem InOrder.step (encode : α → Option (List UInt8)) (o : Outbound) (a : OutInput α)
    (h : o.InOrder) : (o.step encode a).InOrder := by
  obtain ⟨done,inHand,waiting,h⟩ := h
  cases a with
  | send connected env => exact h.send encode connected env
  | refill => exact h.refill
  | dataRead length => exact h.dataRead length

theorem inOrder_exec (encode : α → Option (List UInt8)) (as : List (OutInput α)) :
    (exec (Outbound.step encode) {} as).InOrder := by
  have hstart : ({} : Outbound).Reading [] [] [] := ⟨rfl,fun _ h => (by cases h),rfl,rfl,rfl⟩
  exact exec_invariant (InOrder.step encode) as ⟨[],[],[],hstart⟩

/-- What has been read of the frames that are not read completely: at most a part of the first
one, without its last byte. -/
def Started : List (List UInt8) → List UInt8 → Prop
  | [], part => part = []
  | body :: _, part => part <+: framed body ∧ part.length < (framed body).length

theorem started_nil (bodies : List (List UInt8)) : Started bodies [] := by
  cases bodies with
  | nil => rfl
  | cons body rest =>
    refine ⟨List.nil_prefix,?_⟩
    rw [length_framed]
    exact Nat.succ_pos _

theorem Reading.wire_eq (h : o.Reading done inHand waiting) :
    ∃ part, o.wire = done.flatMap framed ++ part ∧ Started (inHand ++ waiting) part := by
  cases hhand : o.hasCurrent with
  | false =>
    obtain ⟨-,hwire⟩ := h.of_free hhand
    exact ⟨[],by rw [hwire, List.append_nil],started_nil _⟩
  | true =>
    obtain ⟨body,rfl,hcurrent,hoff,hwire⟩ := h.of_hand hhand
    refine ⟨o.current.take o.currentOff,hwire,?_,?_⟩
    · rw [← hcurrent]
      exact List.take_prefix _ _
    · rw [← hcurrent, List.length_take]
      omega

theorem Started.part_of_frames {bodies : List (List UInt8)} {part : List UInt8}
    (h : Started bodies part) : part <+: bodies.flatMap framed := by
  cases bodies with
  | nil =>
    rw [show part = [] from h]
    exact List.nil_prefix
  | cons body rest =>
    rw [List.flatMap_cons]
    exact h.1.trans (List.prefix_append _ _)

/-- A frame that has been read only in part is not on the wire. -/
theorem Started.incomplete {bodies : List (List UInt8)} {part : List UInt8}
    (h : Started bodies part) {j : ℕ} (hpos : 0 < j) (hj : j ≤ bodies.length) :
    ¬(bodies.take j).flatMap framed <+: part := by
  intro hprefix
  cases bodies with
  | nil => exact absurd hj (not_le.mpr hpos)
  | cons body rest =>
    obtain ⟨i,rfl⟩ := Nat.exists_eq_add_of_lt hpos
    have hlength := hprefix.length_le
    rw [Nat.zero_add, List.take_succ_cons, List.flatMap_cons, List.length_append] at hlength
    have hshort := h.2
    omega

theorem complete_iff {bodies : List (List UInt8)} {part : List UInt8}
    (h : Started bodies part) {j : ℕ} (hj : j ≤ (done ++ bodies).length) :
    ((done ++ bodies).take j).flatMap framed <+: done.flatMap framed ++ part ↔
      j ≤ done.length := by
  constructor
  · intro hprefix
    by_contra hlt
    rw [List.take_append, List.take_of_length_le (by omega), List.flatMap_append,
      List.prefix_append_right_inj] at hprefix
    rw [List.length_append] at hj
    exact h.incomplete (by omega) (by omega) hprefix
  · intro hle
    rw [List.take_append_of_le_length hle]
    have hsplit : done.flatMap framed =
        (done.take j).flatMap framed ++ (done.drop j).flatMap framed := by
      rw [← List.flatMap_append, List.take_append_drop]
    rw [hsplit, List.append_assoc]
    exact List.prefix_append _ _

/-- A receiver with room for every envelope has those whose frames are complete. -/
theorem Started.exec_feed {bodies : List (List UInt8)} {part : List UInt8}
    (h : Started bodies part) {cap : ℕ}
    (hfits : ∀ body ∈ done ++ bodies, body.length ≤ cap ∧ body.length < 2 ^ 32) :
    ∃ stage, exec (grpcFormat cap).feed ⟨.header [],[]⟩ (done.flatMap framed ++ part) =
      ⟨stage,done⟩ ∧ stage.ending = .needMore := by
  have hdone := exec_framed (fun body hb => hfits body (List.mem_append_left bodies hb)) []
  rw [exec_append, hdone, List.nil_append]
  cases bodies with
  | nil =>
    rw [show part = [] from h, exec_nil]
    exact ⟨_,rfl,rfl⟩
  | cons body rest =>
    obtain ⟨hcap,hsize⟩ := hfits body (List.mem_append_right done List.mem_cons_self)
    exact (grpcFormat cap).exec_incomplete done (isFrame_framed hcap hsize) h.1 h.2

/-- HTTP/2 has the queued frames in their order, up to some byte, and a peer with room for every
envelope has exactly the envelopes whose frames lie before that byte. -/
theorem wire_of_queued_frames (encode : α → Option (List UInt8)) (as : List (OutInput α)) :
    let o := exec (Outbound.step encode) {} as
    o.wire <+: o.queued.flatMap framed ∧
    ∃ k ≤ o.queued.length,
      (∀ j ≤ o.queued.length, (o.queued.take j).flatMap framed <+: o.wire ↔ j ≤ k) ∧
      ∀ (buffer : List UInt8) (chunks : List (List UInt8)),
        (∀ body ∈ o.queued, body.length ≤ buffer.length) → chunks.flatten = o.wire →
        let s := exec Inbound.onDataChunk (Inbound.start buffer) chunks
        s.failure = none ∧ s.handled = o.queued.take k := by
  intro o
  obtain ⟨done,inHand,waiting,h⟩ := inOrder_exec encode as
  obtain ⟨part,hwire,hstarted⟩ := h.wire_eq
  have hqueued : o.queued = done ++ (inHand ++ waiting) := by
    rw [← List.append_assoc]
    exact h.split
  change o.wire = _ at hwire
  have hsmall : ∀ body ∈ o.queued, body.length ≤ kMaxOutFrame - kFrameHeaderSize := h.small
  refine ⟨?_,done.length,?_,?_,?_⟩
  · rw [hwire, hqueued, List.flatMap_append, List.prefix_append_right_inj]
    exact hstarted.part_of_frames
  · rw [hqueued, List.length_append]
    exact Nat.le_add_right _ _
  · intro j hj
    rw [hqueued] at hj ⊢
    rw [hwire]
    exact complete_iff hstarted hj
  · intro buffer chunks hfits hcut s
    obtain ⟨-,hrun⟩ := Inbound.exec_onDataChunk (Inbound.sound_start buffer) chunks
    have hroom : ∀ body ∈ done ++ (inHand ++ waiting),
        body.length ≤ buffer.length ∧ body.length < 2 ^ 32 := by
      intro body hb
      rw [← hqueued] at hb
      refine ⟨hfits body hb,lt_of_le_of_lt (hsmall body hb) ?_⟩
      decide
    obtain ⟨stage,hexec,hending⟩ := hstarted.exec_feed hroom
    have hreceiver : s.receiver = ⟨stage,done⟩ := by
      rw [← hexec, ← hwire, ← hcut]
      exact hrun
    have hhandled := s.receiver_messages
    have hfailure := s.receiver_ending
    rw [hreceiver] at hhandled hfailure
    rw [hqueued, List.take_left]
    exact ⟨Inbound.failure_of_ending (hfailure.symm.trans hending),hhandled.symm⟩

/-- Two envelopes, the first frame read in two pieces and the second one not to its end. -/
theorem wire_of_queued_frames_cut :
    let o := exec (Outbound.step some) {} [.send true [8], .refill, .dataRead 4, .send true [],
      .dataRead 9, .refill, .dataRead 4]
    o.queued = [[8], []] ∧ o.wire = [0, 0, 0, 0, 1, 8, 0, 0, 0, 0] ∧
      o.wire <+: o.queued.flatMap framed ∧
      ∃ k, (exec Inbound.onDataChunk (Inbound.start [0]) [o.wire]).handled = o.queued.take k := by
  intro o
  obtain ⟨hpart,k,-,-,hpeer⟩ := wire_of_queued_frames some [.send true [8], .refill, .dataRead 4,
    .send true [], .dataRead 9, .refill, .dataRead 4]
  refine ⟨by decide +kernel,by decide +kernel,hpart,k,?_⟩
  exact (hpeer [0] [o.wire] (by decide +kernel) (List.append_nil _)).2

end Outbound
end AlprGate.Rpc
