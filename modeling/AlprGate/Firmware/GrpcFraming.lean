import Mathlib.Data.UInt
import Mathlib.Tactic.Common

/-! # gRPC frame assembly

A frame is one byte for the compressed flag, four for the length, and the payload. The
assembler is fed chunks that end anywhere; it collects the header in an array of its own
and the payload in a buffer that the caller lends it. The session's data callback feeds
each chunk until it is used up and hands every complete message on.
-/
namespace AlprGate.Rpc

def kFrameHeaderSize : ℕ := 5

def makeFrameHeader (payloadLen : UInt32) : List UInt8 :=
  [0, ((payloadLen >>> 24) &&& 0xFF).toUInt8, ((payloadLen >>> 16) &&& 0xFF).toUInt8,
    ((payloadLen >>> 8) &&& 0xFF).toUInt8, (payloadLen &&& 0xFF).toUInt8]

inductive Status where
  | needMore | messageReady | errorCompressed | errorOversize
  deriving DecidableEq, Repr

/-- The capacity is the length of the caller's buffer. -/
structure FrameAssembler where
  buf : List UInt8
  header : List UInt8 := List.replicate kFrameHeaderSize 0
  headerFilled : ℕ := 0
  msgLen : ℕ := 0
  msgFilled : ℕ := 0
  inPayload : Bool := false
  poisoned : Bool := false
  deriving DecidableEq, Repr

/-- The copy loop of the payload branch. -/
def writeAt (buf : List UInt8) (pos : ℕ) : List UInt8 → List UInt8
  | [] => buf
  | b :: bs => writeAt (buf.set pos b) (pos + 1) bs

/-- The length in the last four bytes of a header, most significant byte first. -/
def declaredLength (header : List UInt8) : ℕ :=
  ((header.getD 1 0).toNat <<< 24) ||| ((header.getD 2 0).toNat <<< 16) |||
    ((header.getD 3 0).toNat <<< 8) ||| (header.getD 4 0).toNat

namespace FrameAssembler

def cap (a : FrameAssembler) : ℕ := a.buf.length

/-- `message()` up to `message_size()`. -/
def message (a : FrameAssembler) : List UInt8 := a.buf.take a.msgLen

/-- A complete header. The compressed flag is looked at before the length; `none` goes on
with the payload. -/
def headerDone (a : FrameAssembler) : FrameAssembler × Option Status :=
  if a.header.getD 0 0 ≠ 0 then ({ a with poisoned := true }, some .errorCompressed)
  else
    let a := { a with msgLen := declaredLength a.header }
    if a.cap < a.msgLen then ({ a with poisoned := true }, some .errorOversize)
    else if a.msgLen = 0 then ({ a with msgFilled := 0, inPayload := false }, some .messageReady)
    else ({ a with msgFilled := 0, inPayload := true }, none)

/-- One turn of the loop that takes a header byte. -/
def headerByte (a : FrameAssembler) (b : UInt8) : FrameAssembler × Option Status :=
  let a := { a with header := a.header.set a.headerFilled b, headerFilled := a.headerFilled + 1 }
  if a.headerFilled < kFrameHeaderSize then (a, none)
  else { a with headerFilled := 0 }.headerDone

/-- One turn of the loop that takes payload bytes. Short of the whole message the chunk is
used up, so the loop is over either way. -/
def payloadBytes (a : FrameAssembler) (data : List UInt8) : FrameAssembler × Status × ℕ :=
  let want := a.msgLen - a.msgFilled
  let avail := data.length
  let take := if avail < want then avail else want
  let a := { a with
    buf := writeAt a.buf a.msgFilled (data.take take), msgFilled := a.msgFilled + take }
  if a.msgFilled = a.msgLen then ({ a with inPayload := false }, .messageReady, take)
  else (a, .needMore, take)

/-- The loop over the bytes offered, with the number of bytes it takes. -/
def pushLoop : FrameAssembler → List UInt8 → FrameAssembler × Status × ℕ
  | a, [] => (a, .needMore, 0)
  | a, b :: rest =>
    if a.inPayload = true then a.payloadBytes (b :: rest)
    else match a.headerByte b with
      | (a, some status) => (a, status, 1)
      | (a, none) =>
        let r := pushLoop a rest
        (r.1, r.2.1, r.2.2 + 1)

/-- A poisoned assembler reports an oversize error until it is reset. -/
def push (a : FrameAssembler) (data : List UInt8) : FrameAssembler × Status × ℕ :=
  if a.poisoned = true then (a, .errorOversize, 0) else a.pushLoop data

def reset (a : FrameAssembler) : FrameAssembler :=
  { a with headerFilled := 0, msgLen := 0, msgFilled := 0, inPayload := false, poisoned := false }

end FrameAssembler

/-- The receiving half of a session: the messages handed to `handle_message` in order, and
the framing error that dropped the session. -/
structure Inbound where
  assembler : FrameAssembler
  handled : List (List UInt8) := []
  failure : Option Status := none
  deriving DecidableEq, Repr

namespace Inbound

/-- The loop of the data callback. Every push takes at least one byte, so the length of the
chunk bounds the number of turns. -/
def dataLoop : ℕ → Inbound → List UInt8 → Inbound
  | 0, s, _ => s
  | turns + 1, s, data =>
    if data = [] then s
    else
      let r := s.assembler.push data
      match r.2.1 with
      | .messageReady =>
        dataLoop turns { s with assembler := r.1, handled := s.handled ++ [r.1.message] }
          (data.drop r.2.2)
      | .needMore => dataLoop turns { s with assembler := r.1 } (data.drop r.2.2)
      | .errorCompressed | .errorOversize =>
        { s with assembler := r.1, failure := some r.2.1 }

/-- A session that was dropped gets no more data. -/
def onDataChunk (s : Inbound) (data : List UInt8) : Inbound :=
  if s.failure = none then dataLoop data.length s data else s

end Inbound

end AlprGate.Rpc
