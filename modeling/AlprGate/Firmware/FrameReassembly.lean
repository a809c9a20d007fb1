import AlprGate.Library.LengthPrefix
import AlprGate.Firmware.GrpcFraming

/-! # Reassembly does not depend on the chunks

An assembler between two pushes is a receiver of length-prefixed frames: the part of the
header it has, or the part of the payload that is in the buffer. A push moves the receiver
by exactly the bytes it takes, so a chunk moves it by the whole chunk, and a stream by the
stream, wherever it was cut.
-/
namespace AlprGate.Rpc
open LengthPrefix Transition

/-- The header as the assembler judges it: the compressed flag, then the length. -/
def grpcFormat (cap : ℕ) : Format UInt8 Status where
  size := kFrameHeaderSize
  size_pos := by decide
  read header :=
    if header.getD 0 0 ≠ 0 then .error .errorCompressed
    else if cap < declaredLength header then .error .errorOversize
    else .ok (declaredLength header)

section Buffer
variable {l : List UInt8} {p : ℕ}

theorem take_set_succ (h : p < l.length) (b : UInt8) :
    (l.set p b).take (p + 1) = l.take p ++ [b] := by
  have hget : (l.set p b)[p]? = some b := List.getElem?_set_self h
  simp [List.take_add_one, hget, List.take_set_of_le]

@[simp] theorem length_writeAt (l : List UInt8) (p : ℕ) (bs : List UInt8) :
    (writeAt l p bs).length = l.length := by
  induction bs generalizing l p with
  | nil => rfl
  | cons b bs ih => simp [writeAt, ih]

theorem take_writeAt (bs : List UInt8) (h : p + bs.length ≤ l.length) :
    (writeAt l p bs).take (p + bs.length) = l.take p ++ bs := by
  induction bs generalizing l p with
  | nil => simp [writeAt]
  | cons b bs ih =>
    rw [List.length_cons] at h
    have hrest := ih (l:=l.set p b) (p:=p + 1) (by rw [List.length_set]; omega)
    rw [take_set_succ (by omega) b] at hrest
    simp only [writeAt, List.length_cons]
    rw [← Nat.add_assoc, Nat.add_right_comm, hrest, List.append_assoc, List.singleton_append]

end Buffer

namespace FrameAssembler

/-- What an assembler has of the frame at hand. -/
def stage (a : FrameAssembler) : Stage UInt8 Status :=
  if a.inPayload = true then .payload a.msgLen (a.buf.take a.msgFilled)
  else .header (a.header.take a.headerFilled)

/-- Between two pushes, unless there was an error. -/
structure Sound (a : FrameAssembler) : Prop where
  clean : a.poisoned = false
  header : a.header.length = kFrameHeaderSize
  filled : a.headerFilled < kFrameHeaderSize
  payload : a.inPayload = true → a.headerFilled = 0 ∧ a.msgFilled < a.msgLen ∧ a.msgLen ≤ a.cap

/-- What one header byte does: the loop goes on, or it returns with a message or an error. -/
inductive Turned (a : FrameAssembler) (b : UInt8) : FrameAssembler × Option Status → Prop
  | goesOn {a' : FrameAssembler} (hcap : a'.cap = a.cap) (hsound : Sound a')
      (hrun : ∀ ms, (grpcFormat a.cap).feed ⟨a.stage,ms⟩ b = ⟨a'.stage,ms⟩) : Turned a b (a', none)
  | ready {a' : FrameAssembler} (hcap : a'.cap = a.cap) (hsound : Sound a')
      (hstage : a'.stage = .header [])
      (hrun : ∀ ms, (grpcFormat a.cap).feed ⟨a.stage,ms⟩ b = ⟨.header [],ms ++ [a'.message]⟩) :
      Turned a b (a', some .messageReady)
  | failed {a' : FrameAssembler} {e : Status} (he : e = .errorCompressed ∨ e = .errorOversize)
      (hcap : a'.cap = a.cap) (hheader : a'.header.length = kFrameHeaderSize)
      (hpoisoned : a'.poisoned = true)
      (hrun : ∀ ms, (grpcFormat a.cap).feed ⟨a.stage,ms⟩ b = ⟨.failed e,ms⟩) :
      Turned a b (a', some e)

/-- What a push does: it takes all bytes and wants more, or it stops behind those that
complete a message or a bad header. -/
inductive Pushed (a : FrameAssembler) (data : List UInt8) : FrameAssembler × Status × ℕ → Prop
  | needMore {a' : FrameAssembler} (hcap : a'.cap = a.cap) (hsound : Sound a')
      (hrun : ∀ ms, exec (grpcFormat a.cap).feed ⟨a.stage,ms⟩ data = ⟨a'.stage,ms⟩) :
      Pushed a data (a', .needMore, data.length)
  | ready {a' : FrameAssembler} {n : ℕ} (hcap : a'.cap = a.cap) (hsound : Sound a')
      (hstage : a'.stage = .header []) (hpos : 0 < n) (hn : n ≤ data.length)
      (hrun : ∀ ms, exec (grpcFormat a.cap).feed ⟨a.stage,ms⟩ (data.take n) =
        ⟨.header [],ms ++ [a'.message]⟩) :
      Pushed a data (a', .messageReady, n)
  | failed {a' : FrameAssembler} {e : Status} {n : ℕ}
      (he : e = .errorCompressed ∨ e = .errorOversize) (hcap : a'.cap = a.cap)
      (hheader : a'.header.length = kFrameHeaderSize) (hpoisoned : a'.poisoned = true)
      (hn : n ≤ data.length)
      (hrun : ∀ ms, exec (grpcFormat a.cap).feed ⟨a.stage,ms⟩ (data.take n) = ⟨.failed e,ms⟩) :
      Pushed a data (a', e, n)

/-- A complete header is judged as the format judges it. -/
theorem headerDone_spec {a a₀ : FrameAssembler} {b : UInt8} (hclean : a.poisoned = false)
    (hheader : a.header.length = kFrameHeaderSize) (hfilled : a.headerFilled = 0)
    (hcap : a.cap = a₀.cap)
    (hrun : ∀ ms, (grpcFormat a₀.cap).feed ⟨a₀.stage,ms⟩ b =
      (grpcFormat a₀.cap).opened a.header ms) : Turned a₀ b a.headerDone := by
  have hzero : a.headerFilled < kFrameHeaderSize := by rw [hfilled]; decide
  have hread : (grpcFormat a₀.cap).read a.header =
      if a.header.getD 0 0 ≠ 0 then .error .errorCompressed
      else if a.cap < declaredLength a.header then .error .errorOversize
      else .ok (declaredLength a.header) := by rw [hcap]; rfl
  simp only [Format.opened] at hrun
  unfold headerDone
  by_cases hflag : a.header.getD 0 0 ≠ 0
  · rw [if_pos hflag] at hread ⊢
    exact .failed (Or.inl rfl) hcap hheader rfl fun ms => by rw [hrun, hread]
  rw [if_neg hflag] at hread ⊢
  have hsame : cap { a with msgLen := declaredLength a.header } = a.cap := rfl
  dsimp only
  rw [hsame]
  by_cases hlarge : a.cap < declaredLength a.header
  · rw [if_pos hlarge] at hread ⊢
    exact .failed (Or.inr rfl) hcap hheader rfl fun ms => by rw [hrun, hread]
  rw [if_neg hlarge] at hread ⊢
  by_cases hempty : declaredLength a.header = 0
  · rw [if_pos hempty]
    refine .ready hcap ⟨hclean,hheader,hzero,fun h => absurd h Bool.false_ne_true⟩ ?_ ?_
    · simp [stage, hfilled]
    · intro ms
      rw [hrun, hread, hempty]
      simp [message]
  · rw [if_neg hempty]
    refine .goesOn hcap ⟨hclean,hheader,hzero,fun _ => ⟨hfilled,?_,not_lt.mp hlarge⟩⟩ ?_
    · exact Nat.pos_of_ne_zero hempty
    · intro ms
      obtain ⟨n,hn⟩ := Nat.exists_eq_succ_of_ne_zero hempty
      rw [hrun, hread, hn]
      simp [stage]

theorem headerByte_spec {a : FrameAssembler} (h : Sound a) (hpayload : a.inPayload = false)
    (b : UInt8) : Turned a b (a.headerByte b) := by
  have hroom : a.headerFilled < a.header.length := by rw [h.header]; exact h.filled
  have hgot := take_set_succ hroom b
  have hset : (a.header.set a.headerFilled b).length = kFrameHeaderSize := by
    rw [List.length_set, h.header]
  have hstage : a.stage = .header (a.header.take a.headerFilled) := by simp [stage, hpayload]
  have hlength : (a.header.take a.headerFilled ++ [b]).length = a.headerFilled + 1 := by
    rw [← hgot, List.length_take, List.length_set]
    omega
  unfold headerByte
  dsimp only
  by_cases hmore : a.headerFilled + 1 < kFrameHeaderSize
  · rw [if_pos hmore]
    refine .goesOn rfl ⟨h.clean,hset,hmore,?_⟩ ?_
    · intro hin
      exact absurd (hpayload.symm.trans hin) Bool.false_ne_true
    · intro ms
      have hshort : (a.header.take a.headerFilled ++ [b]).length < (grpcFormat a.cap).size := by
        rw [hlength]
        exact hmore
      simp only [hstage, Format.feed, if_pos hshort]
      simp [stage, hpayload, hgot]
  · rw [if_neg hmore]
    have hfilled : a.headerFilled + 1 = kFrameHeaderSize :=
      Nat.le_antisymm h.filled (not_lt.mp hmore)
    have hwhole : a.header.set a.headerFilled b = a.header.take a.headerFilled ++ [b] := by
      rw [← hgot, hfilled, ← hset, List.take_length]
    refine headerDone_spec h.clean hset rfl rfl ?_
    intro ms
    have hlong : ¬ (a.header.take a.headerFilled ++ [b]).length < (grpcFormat a.cap).size := by
      rw [hlength]
      exact hmore
    simp only [hstage, Format.feed, if_neg hlong, hwhole]

theorem payloadBytes_spec {a : FrameAssembler} (h : Sound a) (hpayload : a.inPayload = true)
    {data : List UInt8} (hdata : data ≠ []) : Pushed a data (a.payloadBytes data) := by
  obtain ⟨hheader,hless,hfits⟩ := h.payload hpayload
  have hstage : a.stage = .payload a.msgLen (a.buf.take a.msgFilled) := by simp [stage, hpayload]
  have hpos : 0 < data.length := List.length_pos_iff.mpr hdata
  have hroom : a.msgLen ≤ a.buf.length := hfits
  have hgot : (a.buf.take a.msgFilled).length = a.msgFilled := by
    rw [List.length_take]
    omega
  unfold payloadBytes
  dsimp only
  by_cases hshort : data.length < a.msgLen - a.msgFilled
  · have hmore : a.msgFilled + data.length ≠ a.msgLen := by omega
    have hwrite := take_writeAt data (l:=a.buf) (p:=a.msgFilled) (by omega)
    rw [if_pos hshort, if_neg hmore, List.take_length]
    refine .needMore (length_writeAt ..) ⟨h.clean,h.header,h.filled,fun _ => ⟨hheader,?_,?_⟩⟩ ?_
    · dsimp only
      omega
    · simpa [cap] using hroom
    · intro ms
      have hrun := (grpcFormat a.cap).exec_payload_short ms a.msgLen (a.buf.take a.msgFilled) data
        (by rw [List.length_append, hgot]; omega)
      rw [hstage, hrun, ← hwrite]
      simp [stage, hpayload]
  · have hle : a.msgLen - a.msgFilled ≤ data.length := not_lt.mp hshort
    have hdone : a.msgFilled + (a.msgLen - a.msgFilled) = a.msgLen := by omega
    have hlength : (data.take (a.msgLen - a.msgFilled)).length = a.msgLen - a.msgFilled := by
      rw [List.length_take]
      omega
    have hwrite := take_writeAt (data.take (a.msgLen - a.msgFilled)) (l:=a.buf)
      (p:=a.msgFilled) (by rw [hlength, hdone]; exact hroom)
    rw [hlength, hdone] at hwrite
    rw [if_neg hshort, if_pos hdone]
    refine .ready (length_writeAt ..)
      ⟨h.clean,h.header,h.filled,fun hin => absurd hin Bool.false_ne_true⟩ ?_ (by omega) hle ?_
    · simp [stage, hheader]
    · intro ms
      have hne : data.take (a.msgLen - a.msgFilled) ≠ [] := by
        intro hnil
        rw [hnil, List.length_nil] at hlength
        omega
      have hrun := (grpcFormat a.cap).exec_payload_full ms a.msgLen (a.buf.take a.msgFilled)
        (data.take (a.msgLen - a.msgFilled)) (by rw [List.length_append, hgot, hlength, hdone]) hne
      rw [hstage, hrun, ← hwrite]
      rfl

/-- A push moves the receiver by the bytes it takes. -/
theorem pushLoop_spec {a : FrameAssembler} (h : Sound a) (data : List UInt8) :
    Pushed a data (a.pushLoop data) := by
  induction data generalizing a with
  | nil => exact .needMore rfl h fun ms => rfl
  | cons b rest ih =>
    rw [pushLoop]
    cases hpayload : a.inPayload with
    | true => exact payloadBytes_spec h hpayload (List.cons_ne_nil b rest)
    | false =>
      have hturn := headerByte_spec h hpayload b
      simp only [Bool.false_eq_true, ↓reduceIte]
      cases hbyte : a.headerByte b with
      | mk a₁ status =>
        rw [hbyte] at hturn
        cases hturn with
        | goesOn hcap hsound hrun =>
          -- The receiver is one byte further; the rest of the chunk moves it from there.
          have hrest := ih hsound
          dsimp only
          cases hloop : a₁.pushLoop rest with
          | mk a₂ r =>
            rw [hloop] at hrest
            cases hrest with
            | needMore hcap₂ hsound₂ hrun₂ =>
              refine .needMore (hcap₂.trans hcap) hsound₂ ?_
              intro ms
              rw [exec_cons, hrun, ← hcap, hrun₂]
            | ready hcap₂ hsound₂ hstage₂ hpos hn hrun₂ =>
              refine .ready (hcap₂.trans hcap) hsound₂ hstage₂ (Nat.succ_pos _)
                (Nat.succ_le_succ hn) ?_
              intro ms
              rw [List.take_succ_cons, exec_cons, hrun, ← hcap, hrun₂]
            | failed he hcap₂ hheader hpoisoned hn hrun₂ =>
              refine .failed he (hcap₂.trans hcap) hheader hpoisoned (Nat.succ_le_succ hn) ?_
              intro ms
              rw [List.take_succ_cons, exec_cons, hrun, ← hcap, hrun₂]
        | ready hcap hsound hstage hrun =>
          refine .ready hcap hsound hstage Nat.one_pos (Nat.succ_le_succ (Nat.zero_le _)) ?_
          intro ms
          exact hrun ms
        | failed he hcap hheader hpoisoned hrun =>
          refine .failed he hcap hheader hpoisoned (Nat.succ_le_succ (Nat.zero_le _)) ?_
          intro ms
          exact hrun ms

theorem push_spec {a : FrameAssembler} (h : Sound a) (data : List UInt8) :
    Pushed a data (a.push data) := by
  rw [push, if_neg (by rw [h.clean]; exact Bool.false_ne_true)]
  exact pushLoop_spec h data

theorem push_poisoned {a : FrameAssembler} (h : a.poisoned = true) (data : List UInt8) :
    a.push data = (a, .errorOversize, 0) := if_pos h

theorem sound_reset {a : FrameAssembler} (h : a.header.length = kFrameHeaderSize) :
    Sound a.reset :=
  ⟨rfl,h,Nat.succ_pos 4,fun hin => absurd hin Bool.false_ne_true⟩

/-- Nothing of a frame is there yet. -/
theorem fresh_of_stage {a : FrameAssembler} (h : Sound a) (hstage : a.stage = .header []) :
    a.headerFilled = 0 ∧ a.inPayload = false ∧ a.poisoned = false := by
  unfold stage at hstage
  split at hstage
  · cases hstage
  · rename_i hpayload
    have hgot : (a.header.take a.headerFilled).length = 0 := by
      rw [Stage.header.inj hstage, List.length_nil]
    have hfilled := h.filled
    rw [List.length_take, h.header] at hgot
    exact ⟨by omega,Bool.eq_false_iff.mpr hpayload,h.clean⟩

end FrameAssembler

namespace Inbound

/-- A session that has not received anything. The contents of its buffer are arbitrary. -/
def start (buffer : List UInt8) : Inbound := { assembler := { buf := buffer } }

def ending (s : Inbound) : Ending Status :=
  match s.failure with
  | none => .needMore
  | some e => .error e

/-- The session as a receiver of frames. -/
def receiver (s : Inbound) : Receiver UInt8 Status :=
  match s.failure with
  | none => ⟨s.assembler.stage,s.handled⟩
  | some e => ⟨.failed e,s.handled⟩

/-- Between two chunks: the assembler is ready for more, or poisoned by the error that
dropped the session. -/
structure Sound (cap : ℕ) (s : Inbound) : Prop where
  cap : s.assembler.cap = cap
  header : s.assembler.header.length = kFrameHeaderSize
  alive : s.failure = none → s.assembler.Sound
  dropped : s.failure ≠ none → s.assembler.poisoned = true

theorem Sound.of_assembler {a : FrameAssembler} (h : a.Sound) {cap : ℕ} (hcap : a.cap = cap)
    (handled : List (List UInt8)) : Sound cap ⟨a,handled,none⟩ :=
  ⟨hcap,h.header,fun _ => h,fun hne => absurd rfl hne⟩

theorem sound_start (buffer : List UInt8) : Sound buffer.length (start buffer) :=
  .of_assembler (FrameAssembler.sound_reset (a:={ buf := buffer }) rfl) rfl []

theorem dataLoop_nil (turns : ℕ) (s : Inbound) : dataLoop turns s [] = s := by
  cases turns with
  | zero => rfl
  | succ turns => rfl

theorem receiver_messages (s : Inbound) : s.receiver.messages = s.handled := by
  unfold receiver
  split <;> rfl

theorem receiver_ending (s : Inbound) : s.receiver.stage.ending = s.ending := by
  unfold receiver ending
  split
  · unfold FrameAssembler.stage
    split <;> rfl
  · rfl

theorem failure_of_ending {s : Inbound} (h : s.ending = .needMore) : s.failure = none := by
  cases hf : s.failure with
  | none => rfl
  | some e =>
    rw [ending, hf] at h
    cases h

/-- The loop of the callback moves the receiver by the whole chunk. -/
theorem dataLoop_spec {cap : ℕ} (turns : ℕ) {a : FrameAssembler} (h : a.Sound) (hcap : a.cap = cap)
    (handled : List (List UInt8)) (data : List UInt8) (hturns : data.length ≤ turns) :
    Sound cap (dataLoop turns ⟨a,handled,none⟩ data) ∧
      (dataLoop turns ⟨a,handled,none⟩ data).receiver =
        exec (grpcFormat cap).feed ⟨a.stage,handled⟩ data := by
  induction turns generalizing a handled data with
  | zero =>
    have hnil : data = [] := List.length_eq_zero_iff.mp (Nat.le_zero.mp hturns)
    rw [hnil]
    exact ⟨.of_assembler h hcap handled,rfl⟩
  | succ turns ih =>
    by_cases hnil : data = []
    · rw [hnil]
      exact ⟨.of_assembler h hcap handled,rfl⟩
    have hpush := FrameAssembler.push_spec h data
    rw [dataLoop, if_neg hnil]
    dsimp only
    cases hr : a.push data with
    | mk a' r =>
      rw [hr] at hpush
      cases hpush with
      | needMore hcap' hsound hrun =>
        dsimp only
        rw [List.drop_length, dataLoop_nil]
        refine ⟨.of_assembler hsound (hcap'.trans hcap) handled,?_⟩
        rw [← hcap, hrun]
        rfl
      | @ready _ n hcap' hsound hstage hpos hn hrun =>
        have hrest := ih hsound (hcap'.trans hcap) (handled ++ [a'.message]) (data.drop n)
          (by rw [List.length_drop]; omega)
        have hsplit : exec (grpcFormat cap).feed ⟨a.stage,handled⟩ data =
            exec (grpcFormat cap).feed ⟨a'.stage,handled ++ [a'.message]⟩ (data.drop n) := by
          have happend := exec_append (grpcFormat cap).feed ⟨a.stage,handled⟩ (data.take n)
            (data.drop n)
          rw [List.take_append_drop, ← hcap, hrun] at happend
          rw [hstage, ← hcap]
          exact happend
        rw [hsplit]
        exact hrest
      | @failed _ e n he hcap' hheader hpoisoned hn hrun =>
        -- A failed receiver ignores what is left of the chunk.
        have hsplit : exec (grpcFormat cap).feed ⟨a.stage,handled⟩ data = ⟨.failed e,handled⟩ := by
          have happend := exec_append (grpcFormat cap).feed ⟨a.stage,handled⟩ (data.take n)
            (data.drop n)
          rw [List.take_append_drop, ← hcap, hrun, Format.exec_failed] at happend
          rw [← hcap]
          exact happend
        rw [hsplit]
        rcases he with rfl | rfl
        · exact ⟨⟨hcap'.trans hcap,hheader,fun hf => (by cases hf),fun _ => hpoisoned⟩,rfl⟩
        · exact ⟨⟨hcap'.trans hcap,hheader,fun hf => (by cases hf),fun _ => hpoisoned⟩,rfl⟩

theorem onDataChunk_spec {cap : ℕ} {s : Inbound} (h : Sound cap s) (data : List UInt8) :
    Sound cap (s.onDataChunk data) ∧
      (s.onDataChunk data).receiver = exec (grpcFormat cap).feed s.receiver data := by
  obtain ⟨a,handled,failure⟩ := s
  cases failure with
  | none => exact dataLoop_spec data.length (h.alive rfl) h.cap handled data le_rfl
  | some e => exact ⟨h,((grpcFormat cap).exec_failed handled e data).symm⟩

/-- Chunk after chunk, the session is where the concatenation of the chunks takes it. -/
theorem exec_onDataChunk {cap : ℕ} {s : Inbound} (h : Sound cap s) (chunks : List (List UInt8)) :
    Sound cap (exec onDataChunk s chunks) ∧
      (exec onDataChunk s chunks).receiver =
        exec (grpcFormat cap).feed s.receiver chunks.flatten := by
  induction chunks generalizing s with
  | nil => exact ⟨h,rfl⟩
  | cons data chunks ih =>
    obtain ⟨hsound,hrun⟩ := onDataChunk_spec h data
    have hrest := ih hsound
    rw [hrun, ← exec_append] at hrest
    exact hrest

/-- From a fresh or reset assembler the session delivers what the parser finds. -/
theorem exec_parse {cap : ℕ} {s : Inbound} (h : Sound cap s)
    (hfresh : s.receiver = ⟨.header [],[]⟩) (chunks : List (List UInt8)) :
    ((exec onDataChunk s chunks).handled, (exec onDataChunk s chunks).ending) =
      (grpcFormat cap).parse chunks.flatten := by
  obtain ⟨-,hrun⟩ := exec_onDataChunk h chunks
  obtain ⟨hmessages,hending⟩ := (grpcFormat cap).exec_parse [] chunks.flatten
  rw [hfresh] at hrun
  rw [← hrun, receiver_messages, List.nil_append] at hmessages
  rw [← hrun, receiver_ending] at hending
  rw [hmessages, hending]

/-- However a stream is cut, the session hands on the messages of its longest prefix of good
frames and ends with the first bad header or in wait of more. After an error the assembler
stays as it is until a reset, and behaves like a new one then. -/
theorem delivery_independent_of_chunks (buffer : List UInt8) (chunks chunks' : List (List UInt8))
    (hcut : chunks.flatten = chunks'.flatten) :
    (exec onDataChunk (start buffer) chunks).handled =
      (exec onDataChunk (start buffer) chunks').handled ∧
    (exec onDataChunk (start buffer) chunks).ending =
      (exec onDataChunk (start buffer) chunks').ending ∧
    let s := exec onDataChunk (start buffer) chunks
    (s.handled, s.ending) = (grpcFormat buffer.length).parse chunks.flatten ∧
    (s.failure = none → s.assembler.push [] = (s.assembler, .needMore, 0)) ∧
    (s.failure ≠ none → ∀ data, s.assembler.push data = (s.assembler, .errorOversize, 0)) ∧
    ∀ more, let t := exec onDataChunk { assembler := s.assembler.reset } more
      (t.handled, t.ending) = (grpcFormat buffer.length).parse more.flatten := by
  have hparse : ∀ cs, _ := exec_parse (sound_start buffer) rfl
  obtain ⟨hsound,-⟩ := exec_onDataChunk (sound_start buffer) chunks
  have hsame : ((exec onDataChunk (start buffer) chunks).handled,
      (exec onDataChunk (start buffer) chunks).ending) =
      ((exec onDataChunk (start buffer) chunks').handled,
        (exec onDataChunk (start buffer) chunks').ending) := by
    rw [hparse chunks, hparse chunks', hcut]
  refine ⟨congrArg Prod.fst hsame,congrArg Prod.snd hsame,hparse chunks,?_,?_,?_⟩
  · intro halive
    rw [FrameAssembler.push, if_neg (by rw [(hsound.alive halive).clean]; exact Bool.false_ne_true)]
    rfl
  · intro hdropped data
    exact FrameAssembler.push_poisoned (hsound.dropped hdropped) data
  · intro more
    exact exec_parse (.of_assembler (FrameAssembler.sound_reset hsound.header) hsound.cap []) rfl more

/-- A frame with one byte of payload and the start of the next one, in two cuts. -/
theorem delivery_of_two_cuts :
    let s := exec onDataChunk (start [7, 7]) [[0, 0, 0, 0, 1, 9, 1]]
    let s' := exec onDataChunk (start [7, 7]) [[0, 0], [0, 0, 1], [9, 1]]
    s.handled = [[9]] ∧ s'.handled = s.handled ∧ s'.ending = s.ending :=
  ⟨by decide +kernel,
    (delivery_independent_of_chunks [7, 7] [[0, 0], [0, 0, 1], [9, 1]] [[0, 0, 0, 0, 1, 9, 1]]
      rfl).1,
    (delivery_independent_of_chunks [7, 7] [[0, 0], [0, 0, 1], [9, 1]] [[0, 0, 0, 0, 1, 9, 1]]
      rfl).2.1⟩

end Inbound

theorem declaredLength_makeFrameHeader {n : ℕ} (h : n < 2 ^ 32) :
    declaredLength (makeFrameHeader (UInt32.ofNat n)) = n := by
  have hmod : n % 4294967296 = n := Nat.mod_eq_of_lt h
  have hbyte : ∀ m : ℕ, m &&& 255 = m % 256 := fun m => Nat.and_two_pow_sub_one_eq_mod m 8
  have hjoin : ∀ m b : ℕ, m <<< 8 ||| b % 256 = m * 256 + b % 256 := by
    intro m b
    have hlt : b % 256 < 2 ^ 8 := Nat.mod_lt b (by decide)
    rw [← Nat.shiftLeft_add_eq_or_of_lt hlt, Nat.shiftLeft_eq]
  have hnest : ∀ a b c d : ℕ, a <<< 24 ||| b <<< 16 ||| c <<< 8 ||| d =
      ((a <<< 8 ||| b) <<< 8 ||| c) <<< 8 ||| d := by
    intro a b c d
    simp only [Nat.shiftLeft_or_distrib, ← Nat.shiftLeft_add]
  have hdigits : declaredLength (makeFrameHeader (UInt32.ofNat n)) =
      ((n / 16777216 % 256 * 256 + n / 65536 % 256) * 256 + n / 256 % 256) * 256 + n % 256 := by
    simp only [declaredLength, makeFrameHeader, hnest]
    simp [hmod, hbyte, hjoin, Nat.shiftRight_eq_div_pow]
  omega

/-- What the firmware and its peer put on the wire for a message. -/
def framed (payload : List UInt8) : List UInt8 :=
  makeFrameHeader (UInt32.ofNat payload.length) ++ payload

theorem isFrame_framed {cap : ℕ} {payload : List UInt8} (hcap : payload.length ≤ cap)
    (h : payload.length < 2 ^ 32) :
    (grpcFormat cap).IsFrame (makeFrameHeader (UInt32.ofNat payload.length)) payload := by
  refine ⟨rfl,?_⟩
  have hlength := declaredLength_makeFrameHeader h
  have hread : (grpcFormat cap).read (makeFrameHeader (UInt32.ofNat payload.length)) =
      if cap < declaredLength (makeFrameHeader (UInt32.ofNat payload.length)) then
        .error .errorOversize
      else .ok (declaredLength (makeFrameHeader (UInt32.ofNat payload.length))) := rfl
  rw [hread, hlength, if_neg (not_lt.mpr hcap)]

/-- Whole frames deliver their payloads and leave the receiver between two frames. -/
theorem exec_framed {cap : ℕ} {payloads : List (List UInt8)}
    (h : ∀ p ∈ payloads, p.length ≤ cap ∧ p.length < 2 ^ 32) (ms : List (List UInt8)) :
    exec (grpcFormat cap).feed ⟨.header [],ms⟩ (payloads.flatMap framed) =
      ⟨.header [],ms ++ payloads⟩ := by
  have hframes := (grpcFormat cap).exec_frames ms
    (payloads.map fun p => (makeFrameHeader (UInt32.ofNat p.length), p)) (by
      intro f hf
      obtain ⟨p,hp,rfl⟩ := List.mem_map.mp hf
      exact isFrame_framed (h p hp).1 (h p hp).2)
  rw [List.flatMap_map, List.map_map] at hframes
  have hid : payloads.map (Prod.snd ∘ fun p => (makeFrameHeader (UInt32.ofNat p.length), p)) =
      payloads := List.map_id'' (fun _ => rfl) payloads
  rw [hid] at hframes
  exact hframes

/-- Framing and reassembly are inverse to each other, however the bytes are cut. -/
theorem framed_payloads_reassemble (buffer : List UInt8) (payloads chunks : List (List UInt8))
    (hfits : ∀ p ∈ payloads, p.length ≤ buffer.length ∧ p.length < 2 ^ 32)
    (hcut : chunks.flatten = payloads.flatMap framed) :
    let s := exec Inbound.onDataChunk (Inbound.start buffer) chunks
    s.handled = payloads ∧ s.failure = none ∧ s.assembler.headerFilled = 0 ∧
      s.assembler.inPayload = false ∧ s.assembler.poisoned = false := by
  intro s
  obtain ⟨hsound,hrun⟩ := Inbound.exec_onDataChunk (Inbound.sound_start buffer) chunks
  have hreceiver : s.receiver = ⟨.header [],payloads⟩ := by
    have hframed := exec_framed hfits []
    rw [List.nil_append] at hframed
    rw [← hframed, ← hcut]
    exact hrun
  have hending := s.receiver_ending
  have hhandled := s.receiver_messages
  rw [hreceiver] at hending hhandled
  have hfailure : s.failure = none := Inbound.failure_of_ending hending.symm
  have hstage : s.assembler.stage = .header [] := by
    rw [Inbound.receiver, hfailure] at hreceiver
    exact congrArg Receiver.stage hreceiver
  exact ⟨hhandled.symm,hfailure,FrameAssembler.fresh_of_stage (hsound.alive hfailure) hstage⟩

/-- An empty message and one of two bytes, byte by byte. -/
theorem framed_payloads_reassemble_bytewise :
    (exec Inbound.onDataChunk (Inbound.start [0, 0, 0])
      (([[], [4, 5]].flatMap framed).map fun b => [b])).handled = [[], [4, 5]] :=
  (framed_payloads_reassemble [0, 0, 0] [[], [4, 5]] _ (by decide) (by decide)).1

end AlprGate.Rpc
