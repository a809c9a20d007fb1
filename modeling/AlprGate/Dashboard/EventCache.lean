import Mathlib.Data.List.Basic
import Mathlib.Logic.Function.Basic
import Mathlib.Tactic.Common

/-! # The event cache of the dashboard

The cache keeps the most recent frames, the status of each gate, the highest event id and
the sinks that every frame is handed to. It reads an event through its presentation.
-/
namespace AlprGate.DashApi

/-- What the cache reads of an event: its id, its frame, and the gate and the status of a
telemetry event. -/
structure Presentation (ε ι φ γ : Type*) where
  eventId : ε → ℕ
  frame : ε → φ
  telemetry : ε → Option (ι × γ)

/-- Sinks are kept in the order of their ids, each with what it forwards to. -/
structure EventCache (ι φ γ κ : Type*) where
  ringCapacity : ℕ := 256
  ring : List φ := []
  gates : ι → Option γ := fun _ => none
  sinks : List (ℕ × κ) := []
  nextSinkId : ℕ := 1
  lastEventId : ℕ := 0

/-- Pop the front while there is more than fits. -/
def popExcess {φ : Type*} (cap : ℕ) : List φ → List φ
  | [] => []
  | x :: xs => if cap < (x :: xs).length then popExcess cap xs else x :: xs

theorem popExcess_eq_drop {φ : Type*} (cap : ℕ) (xs : List φ) :
    popExcess cap xs = xs.drop (xs.length - cap) := by
  induction xs with
  | nil => simp [popExcess]
  | cons x xs ih =>
    rw [popExcess, List.length_cons]
    split
    · rename_i h
      have hsucc : xs.length + 1 - cap = xs.length - cap + 1 := by omega
      rw [ih, hsucc, List.drop_succ_cons]
    · rename_i h
      have hzero : xs.length + 1 - cap = 0 := by omega
      rw [hzero, List.drop_zero]

namespace EventCache
variable {ε ι φ γ κ : Type*}

def addSink (c : EventCache ι φ γ κ) (sink : κ) : ℕ × EventCache ι φ γ κ :=
  (c.nextSinkId, { c with
    nextSinkId := c.nextSinkId + 1, sinks := c.sinks ++ [(c.nextSinkId, sink)] })

def removeSink (c : EventCache ι φ γ κ) (id : ℕ) : EventCache ι φ γ κ :=
  { c with sinks := c.sinks.filter fun x => x.1 ≠ id }

def recentFrames (c : EventCache ι φ γ κ) : List φ := c.ring

variable [DecidableEq ι] (P : Presentation ε ι φ γ)

/-- The locked part of `ingest`, up to the calls of the sinks. -/
def ingest (c : EventCache ι φ γ κ) (ev : ε) : EventCache ι φ γ κ :=
  { c with
    lastEventId := if c.lastEventId < P.eventId ev then P.eventId ev else c.lastEventId
    ring := popExcess c.ringCapacity (c.ring ++ [P.frame ev])
    gates := match P.telemetry ev with
      | some (gateId, status) => Function.update c.gates gateId (some status)
      | none => c.gates }

theorem lastEventId_ingest (c : EventCache ι φ γ κ) (ev : ε) :
    (c.ingest P ev).lastEventId = max c.lastEventId (P.eventId ev) := by
  simp only [ingest]
  split
  · rename_i h
    exact (Nat.max_eq_right (Nat.le_of_lt h)).symm
  · rename_i h
    exact (Nat.max_eq_left (Nat.le_of_not_lt h)).symm

/-- The ring holds the last frames, as many as fit. -/
theorem ring_ingest {c : EventCache ι φ γ κ} {frames : List φ}
    (h : c.ring = frames.drop (frames.length - c.ringCapacity)) (ev : ε) :
    (c.ingest P ev).ring = (frames ++ [P.frame ev]).drop
      ((frames ++ [P.frame ev]).length - c.ringCapacity) := by
  have hle : frames.length - c.ringCapacity ≤ frames.length := Nat.sub_le _ _
  have hring : c.ring ++ [P.frame ev] =
      (frames ++ [P.frame ev]).drop (frames.length - c.ringCapacity) := by
    rw [h, List.drop_append_of_le_length hle]
  simp only [ingest]
  rw [popExcess_eq_drop, hring, List.drop_drop]
  congr 1
  simp only [List.length_drop, List.length_append, List.length_singleton]
  omega

end EventCache
end AlprGate.DashApi
