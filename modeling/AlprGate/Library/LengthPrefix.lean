import AlprGate.Library.Transition

/-! # Length-prefixed framing

A frame is a header of fixed size and the payload whose length the header announces.
The parser reads a whole stream at once. The receiver takes one element at a time and
keeps what it has of the frame at hand, so it does not matter how a stream is cut. Both
come to the same messages and to the same end.
-/
namespace AlprGate.LengthPrefix
open Transition
variable {β ε : Type*}

/-- A complete header announces a length or is refused. -/
structure Format (β ε : Type*) where
  size : ℕ
  size_pos : 0 < size
  read : List β → Except ε ℕ

/-- How a stream ends: in the middle of a frame or between two, or at a bad header. -/
inductive Ending (ε : Type*) where
  | needMore
  | error (e : ε)
  deriving DecidableEq, Repr

/-- What the receiver has of the frame at hand. -/
inductive Stage (β ε : Type*) where
  | header (got : List β)
  | payload (want : ℕ) (got : List β)
  | failed (e : ε)
  deriving DecidableEq, Repr

def Stage.ending : Stage β ε → Ending ε
  | .header _ | .payload _ _ => .needMore
  | .failed e => .error e

structure Receiver (β ε : Type*) where
  stage : Stage β ε := .header []
  messages : List (List β) := []
  deriving DecidableEq, Repr

namespace Format
variable (F : Format β ε)

/-- The messages of the longest prefix of good frames, and how the rest ends. -/
def parse (bs : List β) : List (List β) × Ending ε :=
  if bs.length < F.size then ([], .needMore)
  else match F.read (bs.take F.size) with
    | .error e => ([], .error e)
    | .ok n =>
      if bs.length < F.size + n then ([], .needMore)
      else
        let r := parse (bs.drop (F.size + n))
        ((bs.drop F.size).take n :: r.1, r.2)
termination_by bs.length
decreasing_by
  have hpos := F.size_pos
  rw [List.length_drop]
  omega

/-- A complete header decides what comes next. An empty payload is complete at once. -/
def opened (hdr : List β) (ms : List (List β)) : Receiver β ε :=
  match F.read hdr with
  | .error e => ⟨.failed e,ms⟩
  | .ok 0 => ⟨.header [],ms ++ [[]]⟩
  | .ok (n + 1) => ⟨.payload (n + 1) [],ms⟩

def feed (r : Receiver β ε) (b : β) : Receiver β ε :=
  match r.stage with
  | .header got =>
    if (got ++ [b]).length < F.size then { r with stage := .header (got ++ [b]) }
    else F.opened (got ++ [b]) r.messages
  | .payload want got =>
    if (got ++ [b]).length < want then { r with stage := .payload want (got ++ [b]) }
    else ⟨.header [],r.messages ++ [got ++ [b]]⟩
  | .failed _ => r

/-- A header and the payload it announces. -/
structure IsFrame (hdr payload : List β) : Prop where
  size : hdr.length = F.size
  read : F.read hdr = .ok payload.length

variable (ms : List (List β))

theorem exec_failed (e : ε) (bs : List β) :
    exec F.feed ⟨.failed e,ms⟩ bs = ⟨.failed e,ms⟩ := by
  induction bs with
  | nil => rfl
  | cons b bs ih => exact ih

section Collect
variable {ms} {n : ℕ} {P : List β → Stage β ε} {W : List β → Receiver β ε}

/-- Below its limit a stage keeps what it is fed. -/
theorem exec_collect
    (hkeep : ∀ got b, (got ++ [b]).length < n → F.feed ⟨P got,ms⟩ b = ⟨P (got ++ [b]),ms⟩)
    (got bs : List β) (h : (got ++ bs).length < n) :
    exec F.feed ⟨P got,ms⟩ bs = ⟨P (got ++ bs),ms⟩ := by
  induction bs generalizing got with
  | nil => simp
  | cons b bs ih =>
    have hshort : (got ++ [b]).length < n := by
      simp only [List.length_append, List.length_cons, List.length_nil] at h ⊢
      omega
    have hrest := ih (got ++ [b]) (by simpa using h)
    rw [exec_cons, hkeep got b hshort, hrest, List.append_assoc, List.singleton_append]

/-- The last element completes it. -/
theorem exec_collect_full
    (hkeep : ∀ got b, (got ++ [b]).length < n → F.feed ⟨P got,ms⟩ b = ⟨P (got ++ [b]),ms⟩)
    (hlast : ∀ got b, ¬ (got ++ [b]).length < n → F.feed ⟨P got,ms⟩ b = W (got ++ [b]))
    (got bs : List β) (h : (got ++ bs).length = n) (hbs : bs ≠ []) :
    exec F.feed ⟨P got,ms⟩ bs = W (got ++ bs) := by
  obtain ⟨front,b,rfl⟩ := (List.eq_nil_or_concat bs).resolve_left hbs
  rw [List.concat_eq_append, ← List.append_assoc] at h ⊢
  rw [List.length_append, List.length_singleton] at h
  have hfront := F.exec_collect hkeep got front (by omega)
  have hfull : ¬ (got ++ front ++ [b]).length < n := by
    rw [List.length_append, List.length_singleton]
    omega
  rw [exec_append, hfront, exec_cons, exec_nil, hlast _ b hfull]

end Collect

theorem exec_header_short (bs : List β) (h : bs.length < F.size) :
    exec F.feed ⟨.header [],ms⟩ bs = ⟨.header bs,ms⟩ :=
  F.exec_collect (P:=Stage.header) (fun got b hb => by simp only [feed, if_pos hb]) [] bs h

theorem exec_header_full (hdr : List β) (h : hdr.length = F.size) :
    exec F.feed ⟨.header [],ms⟩ hdr = F.opened hdr ms := by
  have hne : hdr ≠ [] := by
    have hpos := F.size_pos
    rintro rfl
    rw [List.length_nil] at h
    omega
  exact F.exec_collect_full (P:=Stage.header) (W:=fun hdr => F.opened hdr ms)
    (fun got b hb => by simp only [feed, if_pos hb])
    (fun got b hb => by simp only [feed, if_neg hb]) [] hdr h hne

theorem exec_payload_short (want : ℕ) (got bs : List β) (h : (got ++ bs).length < want) :
    exec F.feed ⟨.payload want got,ms⟩ bs = ⟨.payload want (got ++ bs),ms⟩ :=
  F.exec_collect (P:=Stage.payload want) (fun got b hb => by simp only [feed, if_pos hb]) got bs h

theorem exec_payload_full (want : ℕ) (got bs : List β) (h : (got ++ bs).length = want)
    (hbs : bs ≠ []) :
    exec F.feed ⟨.payload want got,ms⟩ bs = ⟨.header [],ms ++ [got ++ bs]⟩ :=
  F.exec_collect_full (P:=Stage.payload want) (W:=fun bs => ⟨.header [],ms ++ [bs]⟩)
    (fun got b hb => by simp only [feed, if_pos hb])
    (fun got b hb => by simp only [feed, if_neg hb]) got bs h hbs

/-- A refused header ends the reception, whatever follows it. -/
theorem exec_bad_header {hdr : List β} {e : ε} (hsize : hdr.length = F.size)
    (hread : F.read hdr = .error e) (bs : List β) :
    exec F.feed ⟨.header [],ms⟩ (hdr ++ bs) = ⟨.failed e,ms⟩ := by
  have hfull := F.exec_header_full ms hdr hsize
  rw [exec_append, hfull, opened, hread]
  exact F.exec_failed ms e bs

/-- A good header and less than its payload. -/
theorem exec_frame_short {hdr bs : List β} {n : ℕ} (hsize : hdr.length = F.size)
    (hread : F.read hdr = .ok n) (hn : bs.length < n) :
    exec F.feed ⟨.header [],ms⟩ (hdr ++ bs) = ⟨.payload n bs,ms⟩ := by
  have hfull := F.exec_header_full ms hdr hsize
  rw [exec_append, hfull, opened, hread]
  cases n with
  | zero => omega
  | succ n => exact F.exec_payload_short ms (n + 1) [] bs hn

/-- A whole frame delivers its payload. -/
theorem exec_frame {hdr payload : List β} (h : F.IsFrame hdr payload) :
    exec F.feed ⟨.header [],ms⟩ (hdr ++ payload) = ⟨.header [],ms ++ [payload]⟩ := by
  have hfull := F.exec_header_full ms hdr h.size
  rw [exec_append, hfull, opened, h.read]
  cases payload with
  | nil => rfl
  | cons b payload => exact F.exec_payload_full ms _ [] (b :: payload) rfl (List.cons_ne_nil b payload)

/-- A stream of whole frames delivers their payloads in order. -/
theorem exec_frames (frames : List (List β × List β)) (h : ∀ f ∈ frames, F.IsFrame f.1 f.2) :
    exec F.feed ⟨.header [],ms⟩ (frames.flatMap fun f => f.1 ++ f.2) =
      ⟨.header [],ms ++ frames.map Prod.snd⟩ := by
  induction frames generalizing ms with
  | nil => simp
  | cons f frames ih =>
    have hhead := F.exec_frame ms (h f List.mem_cons_self)
    have htail := ih (ms ++ [f.2]) fun g hg => h g (List.mem_cons_of_mem f hg)
    rw [List.flatMap_cons, exec_append, hhead, htail, List.append_assoc]
    rfl

/-- A frame that has not come to its end delivers nothing and is no error. -/
theorem exec_incomplete {hdr payload bs : List β} (h : F.IsFrame hdr payload)
    (hbs : bs <+: hdr ++ payload) (hlt : bs.length < (hdr ++ payload).length) :
    ∃ stage : Stage β ε, exec F.feed ⟨.header [],ms⟩ bs = ⟨stage,ms⟩ ∧ stage.ending = .needMore := by
  by_cases hshort : bs.length < F.size
  · exact ⟨_,F.exec_header_short ms bs hshort,rfl⟩
  · have hhdr : hdr <+: bs := by
      refine List.prefix_of_prefix_length_le (List.prefix_append hdr payload) hbs ?_
      rw [h.size]
      omega
    obtain ⟨front,rfl⟩ := hhdr
    have hfront : front.length < payload.length := by
      simp only [List.length_append] at hlt
      omega
    exact ⟨_,F.exec_frame_short ms h.size h.read hfront,rfl⟩

/-- The receiver comes to what the parser finds. -/
theorem exec_parse (bs : List β) :
    (exec F.feed ⟨.header [],ms⟩ bs).messages = ms ++ (F.parse bs).1 ∧
      (exec F.feed ⟨.header [],ms⟩ bs).stage.ending = (F.parse bs).2 := by
  induction bs using parse.induct F generalizing ms with
  | case1 bs hshort =>
    rw [F.exec_header_short ms bs hshort, parse, if_pos hshort]
    exact ⟨(List.append_nil ms).symm,rfl⟩
  | case2 bs hlong e hread =>
    have hsize : (bs.take F.size).length = F.size := by
      rw [List.length_take]
      omega
    have hrun := F.exec_bad_header ms hsize hread (bs.drop F.size)
    rw [List.take_append_drop] at hrun
    rw [hrun, parse, if_neg hlong, hread]
    exact ⟨(List.append_nil ms).symm,rfl⟩
  | case3 bs hlong n hread hshort =>
    have hsize : (bs.take F.size).length = F.size := by
      rw [List.length_take]
      omega
    have hless : (bs.drop F.size).length < n := by
      rw [List.length_drop]
      omega
    have hrun := F.exec_frame_short ms hsize hread hless
    rw [List.take_append_drop] at hrun
    rw [hrun, parse, if_neg hlong, hread]
    simp only [if_pos hshort]
    exact ⟨(List.append_nil ms).symm,rfl⟩
  | case4 bs hlong n hread hwhole ih =>
    have hsize : (bs.take F.size).length = F.size := by
      rw [List.length_take]
      omega
    have hpayload : ((bs.drop F.size).take n).length = n := by
      rw [List.length_take, List.length_drop]
      omega
    have hframe : F.IsFrame (bs.take F.size) ((bs.drop F.size).take n) :=
      ⟨hsize,by rw [hread, hpayload]⟩
    have hsplit : bs = (bs.take F.size ++ (bs.drop F.size).take n) ++ bs.drop (F.size + n) := by
      rw [List.append_assoc, ← List.drop_drop, List.take_append_drop, List.take_append_drop]
    have hrun : exec F.feed ⟨.header [],ms⟩ bs =
        exec F.feed ⟨.header [],ms ++ [(bs.drop F.size).take n]⟩ (bs.drop (F.size + n)) := by
      rw [← F.exec_frame ms hframe, ← exec_append, ← hsplit]
    obtain ⟨hmessages,hending⟩ := ih (ms ++ [(bs.drop F.size).take n])
    rw [hrun, parse, if_neg hlong, hread]
    simp only [if_neg hwhole]
    exact ⟨by rw [hmessages, List.append_assoc]; rfl,hending⟩

end Format
end AlprGate.LengthPrefix
