import AlprGate.Firmware.FrameReassembly

/-! # Frame assembly stays inside its arrays

The push of the assembler once more, with every store into the header array and into the
caller's buffer checked against the array's bound, and the subtraction of the payload branch
checked for underflow. From any state that pushes and resets lead to, no check fails, and every
push takes a byte or reports an error. The loop of the data callback has no guard of its own; it
ends because of that.
-/
namespace AlprGate.Rpc
open Transition

/-- A store outside of an array, or a difference of unsigned numbers that wraps. -/
inductive Overrun where
  | header (index : ℕ)
  | payload (index : ℕ)
  | underflow
  deriving DecidableEq, Repr

/-- The copy loop of the payload branch into a buffer of `cap` bytes. -/
def writeChecked (cap : ℕ) (buf : List UInt8) (pos : ℕ) : List UInt8 → Except Overrun (List UInt8)
  | [] => .ok buf
  | b :: bs =>
    if pos < cap then writeChecked cap (buf.set pos b) (pos + 1) bs else .error (.payload pos)

theorem writeChecked_eq {cap pos : ℕ} {bs : List UInt8} (h : pos + bs.length ≤ cap)
    (buf : List UInt8) : writeChecked cap buf pos bs = .ok (writeAt buf pos bs) := by
  induction bs generalizing buf pos with
  | nil => rfl
  | cons b bs ih =>
    rw [List.length_cons] at h
    have hroom : pos < cap := by omega
    rw [writeChecked, if_pos hroom, ih (by omega), writeAt]

namespace FrameAssembler

def headerByteChecked (a : FrameAssembler) (b : UInt8) :
    Except Overrun (FrameAssembler × Option Status) :=
  if a.headerFilled < kFrameHeaderSize then .ok (a.headerByte b)
  else .error (.header a.headerFilled)

def payloadBytesChecked (a : FrameAssembler) (data : List UInt8) :
    Except Overrun (FrameAssembler × Status × ℕ) :=
  if a.msgLen < a.msgFilled then .error .underflow
  else do
    let want := a.msgLen - a.msgFilled
    let avail := data.length
    let take := if avail < want then avail else want
    let buf ← writeChecked a.cap a.buf a.msgFilled (data.take take)
    let a := { a with buf := buf, msgFilled := a.msgFilled + take }
    if a.msgFilled = a.msgLen then .ok ({ a with inPayload := false }, .messageReady, take)
    else .ok (a, .needMore, take)

def pushLoopChecked : FrameAssembler → List UInt8 → Except Overrun (FrameAssembler × Status × ℕ)
  | a, [] => .ok (a, .needMore, 0)
  | a, b :: rest =>
    if a.inPayload = true then a.payloadBytesChecked (b :: rest)
    else do
      match ← a.headerByteChecked b with
      | (a, some status) => .ok (a, status, 1)
      | (a, none) =>
        let r ← pushLoopChecked a rest
        .ok (r.1, r.2.1, r.2.2 + 1)

def pushChecked (a : FrameAssembler) (data : List UInt8) :
    Except Overrun (FrameAssembler × Status × ℕ) :=
  if a.poisoned = true then .ok (a, .errorOversize, 0) else a.pushLoopChecked data

section Checks
variable {a : FrameAssembler}

theorem payloadBytesChecked_eq (h : Sound a) (hpayload : a.inPayload = true) (data : List UInt8) :
    a.payloadBytesChecked data = .ok (a.payloadBytes data) := by
  obtain ⟨-,hless,hfits⟩ := h.payload hpayload
  have hroom : a.msgFilled + (data.take (if data.length < a.msgLen - a.msgFilled then data.length
      else a.msgLen - a.msgFilled)).length ≤ a.cap := by
    rw [List.length_take]
    split <;> omega
  have hwrite := writeChecked_eq hroom a.buf
  unfold payloadBytesChecked payloadBytes
  rw [if_neg (not_lt.mpr hless.le)]
  dsimp only
  rw [hwrite]
  exact (apply_ite Except.ok _ _ _).symm

/-- The checks of a loop that starts between two pushes all pass. -/
theorem pushLoopChecked_eq (h : Sound a) (data : List UInt8) :
    a.pushLoopChecked data = .ok (a.pushLoop data) := by
  induction data generalizing a with
  | nil => rfl
  | cons b rest ih =>
    rw [pushLoopChecked, pushLoop]
    cases hpayload : a.inPayload with
    | true => exact payloadBytesChecked_eq h hpayload (b :: rest)
    | false =>
      have hturn := headerByte_spec h hpayload b
      rw [headerByteChecked, if_pos h.filled]
      simp only [Bool.false_eq_true, ↓reduceIte]
      cases hbyte : a.headerByte b with
      | mk a₁ status =>
        rw [hbyte] at hturn
        cases hturn with
        | goesOn hcap hsound hrun =>
          have hrest := ih hsound
          change (a₁.pushLoopChecked rest >>= fun r => Except.ok (r.1, r.2.1, r.2.2 + 1)) = _
          rw [hrest]
          rfl
        | ready hcap hsound hstage hrun => rfl
        | failed he hcap hheader hpoisoned hrun => rfl

end Checks

/-- The public operations of an assembler. -/
inductive Call where
  | push (data : List UInt8)
  | reset
  deriving DecidableEq, Repr

def call (a : FrameAssembler) : Call → FrameAssembler
  | .push data => (a.push data).1
  | .reset => a.reset

/-- What calls keep: an assembler that is not poisoned is between two pushes. A poisoned one
has partial state, which a push does not look at and a reset clears. -/
structure Reached (cap : ℕ) (a : FrameAssembler) : Prop where
  cap : a.cap = cap
  header : a.header.length = kFrameHeaderSize
  sound : a.poisoned = false → Sound a

theorem reached_new (buffer : List UInt8) : Reached buffer.length { buf := buffer } :=
  ⟨rfl,rfl,fun _ => sound_reset (a:={ buf := buffer }) rfl⟩

section Reached
variable {cap : ℕ} {a : FrameAssembler}

theorem Reached.push (h : Reached cap a) (data : List UInt8) : Reached cap (a.push data).1 := by
  cases hpoisoned : a.poisoned with
  | true =>
    rw [push_poisoned hpoisoned]
    exact h
  | false =>
    have hpush := push_spec (h.sound hpoisoned) data
    cases hr : a.push data with
    | mk a' r =>
      rw [hr] at hpush
      cases hpush with
      | needMore hcap hsound hrun => exact ⟨hcap.trans h.cap,hsound.header,fun _ => hsound⟩
      | ready hcap hsound hstage hpos hn hrun =>
        exact ⟨hcap.trans h.cap,hsound.header,fun _ => hsound⟩
      | failed he hcap hheader hpoisoned' hn hrun =>
        refine ⟨hcap.trans h.cap,hheader,fun hclean => ?_⟩
        exact absurd (hpoisoned'.symm.trans hclean) Bool.noConfusion

theorem Reached.call (h : Reached cap a) (c : Call) : Reached cap (a.call c) := by
  cases c with
  | push data => exact h.push data
  | reset => exact ⟨h.cap,h.header,fun _ => sound_reset h.header⟩

theorem Reached.pushChecked_eq (h : Reached cap a) (data : List UInt8) :
    a.pushChecked data = .ok (a.push data) := by
  unfold pushChecked FrameAssembler.push
  split
  · rfl
  · rename_i hclean
    exact pushLoopChecked_eq (h.sound (Bool.eq_false_of_not_eq_true hclean)) data

/-- A push takes no more than it is offered, and something unless it reports an error. -/
theorem Reached.progress (h : Reached cap a) (data : List UInt8) :
    (a.push data).2.2 ≤ data.length ∧ (data ≠ [] →
      (a.push data).2.1 = .errorCompressed ∨ (a.push data).2.1 = .errorOversize ∨
        0 < (a.push data).2.2) := by
  cases hpoisoned : a.poisoned with
  | true =>
    rw [push_poisoned hpoisoned]
    exact ⟨Nat.zero_le _,fun _ => Or.inr (Or.inl rfl)⟩
  | false =>
    have hpush := push_spec (h.sound hpoisoned) data
    cases hr : a.push data with
    | mk a' r =>
      rw [hr] at hpush
      cases hpush with
      | needMore hcap hsound hrun =>
        exact ⟨le_rfl,fun hdata => Or.inr (Or.inr (List.length_pos_iff.mpr hdata))⟩
      | ready hcap hsound hstage hpos hn hrun => exact ⟨hn,fun _ => Or.inr (Or.inr hpos)⟩
      | failed he hcap hheader hpoisoned' hn hrun =>
        refine ⟨hn,fun _ => ?_⟩
        rcases he with he | he
        · exact Or.inl he
        · exact Or.inr (Or.inl he)

end Reached
end FrameAssembler

namespace Inbound

/-- The loop of the data callback as the code has it, without a bound on its turns: the session
that a chunk ends in, for the chunks on which the loop ends. -/
inductive DataLoop : Inbound → List UInt8 → Inbound → Prop
  | done (s : Inbound) : DataLoop s [] s
  | ready {s t : Inbound} {data : List UInt8} (hdata : data ≠ [])
      (hstatus : (s.assembler.push data).2.1 = .messageReady)
      (hrest : DataLoop { s with
          assembler := (s.assembler.push data).1
          handled := s.handled ++ [(s.assembler.push data).1.message] }
        (data.drop (s.assembler.push data).2.2) t) : DataLoop s data t
  | more {s t : Inbound} {data : List UInt8} (hdata : data ≠ [])
      (hstatus : (s.assembler.push data).2.1 = .needMore)
      (hrest : DataLoop { s with assembler := (s.assembler.push data).1 }
        (data.drop (s.assembler.push data).2.2) t) : DataLoop s data t
  | failed {s : Inbound} {data : List UInt8} (hdata : data ≠ [])
      (hstatus : (s.assembler.push data).2.1 = .errorCompressed ∨
        (s.assembler.push data).2.1 = .errorOversize) :
      DataLoop s data { s with
        assembler := (s.assembler.push data).1
        failure := some (s.assembler.push data).2.1 }

/-- The loop ends on every chunk, after no more turns than the chunk has bytes. -/
theorem dataLoop_ends {cap : ℕ} (turns : ℕ) {s : Inbound} (h : s.assembler.Reached cap)
    {data : List UInt8} (hturns : data.length ≤ turns) :
    DataLoop s data (dataLoop turns s data) := by
  induction turns generalizing s data with
  | zero =>
    rw [List.length_eq_zero_iff.mp (Nat.le_zero.mp hturns)]
    exact .done s
  | succ turns ih =>
    by_cases hdata : data = []
    · rw [hdata, dataLoop_nil]
      exact .done s
    obtain ⟨-,hprogress⟩ := h.progress data
    have hnext := h.push data
    have hshorter : 0 < (s.assembler.push data).2.2 →
        (data.drop (s.assembler.push data).2.2).length ≤ turns := by
      intro hpos
      rw [List.length_drop]
      omega
    rw [dataLoop, if_neg hdata]
    dsimp only
    split
    · rename_i hstatus
      have hpos : 0 < (s.assembler.push data).2.2 := by simpa [hstatus] using hprogress hdata
      exact .ready hdata hstatus (ih hnext (hshorter hpos))
    · rename_i hstatus
      have hpos : 0 < (s.assembler.push data).2.2 := by simpa [hstatus] using hprogress hdata
      exact .more hdata hstatus (ih hnext (hshorter hpos))
    · rename_i hstatus
      exact .failed hdata (Or.inl hstatus)
    · rename_i hstatus
      exact .failed hdata (Or.inr hstatus)

end Inbound

/-- Whatever was pushed and reset before, and whatever the capacity: no check of a push fails,
the push takes no more than it was offered, and on a chunk that is not empty it takes a byte or
reports an error. So the loop of the data callback ends on every chunk. -/
theorem push_stays_in_bounds (buffer : List UInt8) (calls : List FrameAssembler.Call)
    (data : List UInt8) :
    let a := exec FrameAssembler.call { buf := buffer } calls
    a.cap = buffer.length ∧ a.pushChecked data = .ok (a.push data) ∧
    (a.push data).2.2 ≤ data.length ∧
    (data ≠ [] → (a.push data).2.1 = .errorCompressed ∨ (a.push data).2.1 = .errorOversize ∨
      0 < (a.push data).2.2) ∧
    ∀ handled failure, ∃ t, Inbound.DataLoop ⟨a,handled,failure⟩ data t := by
  intro a
  have hreached : a.Reached buffer.length :=
    exec_invariant (fun _ c h => h.call c) calls (FrameAssembler.reached_new buffer)
  obtain ⟨htakes,hprogress⟩ := hreached.progress data
  refine ⟨hreached.cap,hreached.pushChecked_eq data,htakes,hprogress,?_⟩
  intro handled failure
  exact ⟨_,Inbound.dataLoop_ends data.length hreached le_rfl⟩

end AlprGate.Rpc
