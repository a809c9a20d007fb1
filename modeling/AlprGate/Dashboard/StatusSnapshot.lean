import Mathlib.Order.MinMax
import AlprGate.Library.Transition
import AlprGate.Dashboard.EventCache

/-! # The status snapshot

What `/api/status` answers from the cache: the status of each gate and the highest event id. The
id is the greatest of all that were ingested. The status is the one that was ingested last, and
that is the one with the highest id only if the events of the gate arrive so.
-/
namespace AlprGate.DashApi
open Transition
variable {ε ι φ γ κ : Type*}

structure StatusSnapshot (ι γ : Type*) where
  gates : ι → Option γ
  lastEventId : ℕ

def EventCache.statusSnapshot (c : EventCache ι φ γ κ) : StatusSnapshot ι γ :=
  ⟨c.gates,c.lastEventId⟩

namespace Presentation
variable (P : Presentation ε ι φ γ)

/-- The status in a telemetry event of the gate that no other one exceeds in its id. -/
def Newest (events : List ε) (gateId : ι) (status : γ) : Prop :=
  ∃ ev ∈ events, P.telemetry ev = some (gateId, status) ∧
    ∀ ev' ∈ events, ∀ status', P.telemetry ev' = some (gateId, status') →
      P.eventId ev' ≤ P.eventId ev

/-- The telemetry event of a gate that is ingested last has the status of one with the highest
id. -/
def ArrivesNewest (events : List ε) : Prop :=
  ∀ before ev after gateId status, events = before ++ ev :: after →
    P.telemetry ev = some (gateId, status) →
    (∀ ev' ∈ after, ∀ status', P.telemetry ev' ≠ some (gateId, status')) →
    P.Newest events gateId status

variable [DecidableEq ι]

/-- What an event says about a gate. -/
def statusOf (gateId : ι) (ev : ε) : Option γ :=
  match P.telemetry ev with
  | some (gateId', status) => if gateId' = gateId then some status else none
  | none => none

variable {P}

theorem statusOf_eq_some_iff {gateId : ι} {ev : ε} {status : γ} :
    P.statusOf gateId ev = some status ↔ P.telemetry ev = some (gateId, status) := by
  unfold statusOf
  cases P.telemetry ev with
  | none => simp
  | some p =>
    obtain ⟨gateId',status'⟩ := p
    by_cases h : gateId' = gateId
    · simp [h]
    · simp [h]

theorem statusOf_eq_none_iff {gateId : ι} {ev : ε} :
    P.statusOf gateId ev = none ↔ ∀ status, P.telemetry ev ≠ some (gateId, status) := by
  rw [Option.eq_none_iff_forall_ne_some]
  simp only [ne_eq, statusOf_eq_some_iff]

end Presentation

/-- What a snapshot after these events should say. -/
structure StatusSnapshot.Current (P : Presentation ε ι φ γ) (events : List ε)
    (v : StatusSnapshot ι γ) : Prop where
  reported : ∀ gateId status, v.gates gateId = some status → P.Newest events gateId status
  missing : ∀ gateId, v.gates gateId = none →
    ∀ ev ∈ events, ∀ status, P.telemetry ev ≠ some (gateId, status)
  bound : ∀ ev ∈ events, P.eventId ev ≤ v.lastEventId
  attained : (events = [] ∧ v.lastEventId = 0) ∨ ∃ ev ∈ events, P.eventId ev = v.lastEventId

namespace EventCache
variable [DecidableEq ι] (P : Presentation ε ι φ γ)

theorem gates_ingest (c : EventCache ι φ γ κ) (ev : ε) (gateId : ι) :
    (c.ingest P ev).gates gateId = (P.statusOf gateId ev).or (c.gates gateId) := by
  simp only [ingest, Presentation.statusOf]
  cases P.telemetry ev with
  | none => rfl
  | some p =>
    obtain ⟨gateId',status⟩ := p
    by_cases h : gateId' = gateId
    · subst h
      simp
    · simp [h, Function.update_of_ne (Ne.symm h)]

/-- A gate has the status that was ingested last. -/
theorem gates_exec (c : EventCache ι φ γ κ) (events : List ε) (gateId : ι) :
    (exec (ingest P) c events).gates gateId =
      (latest (P.statusOf gateId) events).or (c.gates gateId) := by
  induction events generalizing c with
  | nil => rfl
  | cons ev events ih => rw [exec_cons, ih, gates_ingest, latest_cons, Option.or_assoc]

theorem le_lastEventId_exec (c : EventCache ι φ γ κ) (events : List ε) :
    c.lastEventId ≤ (exec (ingest P) c events).lastEventId ∧
      ∀ ev ∈ events, P.eventId ev ≤ (exec (ingest P) c events).lastEventId := by
  induction events generalizing c with
  | nil => simp
  | cons ev events ih =>
    obtain ⟨hcache,hevents⟩ := ih (c.ingest P ev)
    rw [lastEventId_ingest] at hcache
    refine ⟨le_trans (le_max_left _ _) hcache,?_⟩
    intro ev' hev'
    rcases List.mem_cons.mp hev' with rfl | hmem
    · exact le_trans (le_max_right _ _) hcache
    · exact hevents ev' hmem

theorem lastEventId_exec_mem (c : EventCache ι φ γ κ) (events : List ε) :
    (exec (ingest P) c events).lastEventId = c.lastEventId ∨
      ∃ ev ∈ events, P.eventId ev = (exec (ingest P) c events).lastEventId := by
  induction events generalizing c with
  | nil => exact Or.inl rfl
  | cons ev events ih =>
    rw [exec_cons]
    rcases ih (c.ingest P ev) with h | ⟨ev',hmem,h⟩
    · rw [h, lastEventId_ingest]
      rcases max_choice c.lastEventId (P.eventId ev) with hmax | hmax
      · exact Or.inl hmax
      · exact Or.inr ⟨ev,List.mem_cons_self,hmax.symm⟩
    · exact Or.inr ⟨ev',List.mem_cons_of_mem ev hmem,h⟩

/-- The cursor is the greatest id of all arrivals, in whatever order they come. -/
theorem lastEventId_attained (ringCapacity : ℕ) (events : List ε) :
    let v := (exec (ingest P) { ringCapacity := ringCapacity : EventCache ι φ γ κ }
      events).statusSnapshot
    (events = [] ∧ v.lastEventId = 0) ∨ ∃ ev ∈ events, P.eventId ev = v.lastEventId := by
  intro v
  rcases lastEventId_exec_mem P { ringCapacity := ringCapacity : EventCache ι φ γ κ } events
    with hzero | hmem
  · cases events with
    | nil => exact Or.inl ⟨rfl,rfl⟩
    | cons ev events =>
      -- no id is above the cursor, so all of them are 0
      have hle := (le_lastEventId_exec P { ringCapacity := ringCapacity : EventCache ι φ γ κ }
        (ev :: events)).2 ev List.mem_cons_self
      have hev : P.eventId ev = v.lastEventId := by
        change P.eventId ev ≤ v.lastEventId at hle
        change v.lastEventId = 0 at hzero
        omega
      exact Or.inr ⟨ev,List.mem_cons_self,hev⟩
  · exact Or.inr hmem

/-- The snapshot of a fresh cache after any events shows the telemetry with the highest id of
every gate exactly if each gate's last arrival shows it. -/
theorem statusSnapshot_current_iff (ringCapacity : ℕ) (events : List ε) :
    (exec (ingest P) { ringCapacity := ringCapacity : EventCache ι φ γ κ }
      events).statusSnapshot.Current P events ↔ P.ArrivesNewest events := by
  have hgates : ∀ gateId, (exec (ingest P) { ringCapacity := ringCapacity : EventCache ι φ γ κ }
      events).statusSnapshot.gates gateId = latest (P.statusOf gateId) events := by
    intro gateId
    exact (gates_exec P _ events gateId).trans (Option.or_none ..)
  constructor
  · intro hcurrent before ev after gateId status heq hev hafter
    refine hcurrent.reported gateId status ?_
    rw [hgates, latest_eq_some_iff]
    refine ⟨before,ev,after,heq,Presentation.statusOf_eq_some_iff.mpr hev,?_⟩
    intro ev' hev'
    exact Presentation.statusOf_eq_none_iff.mpr (hafter ev' hev')
  · intro harrives
    refine ⟨?_,?_,(le_lastEventId_exec P _ events).2,lastEventId_attained P ringCapacity events⟩
    · intro gateId status hstatus
      rw [hgates] at hstatus
      obtain ⟨before,ev,after,heq,hev,hafter⟩ := latest_eq_some_iff.mp hstatus
      refine harrives before ev after gateId status heq
        (Presentation.statusOf_eq_some_iff.mp hev) ?_
      intro ev' hev'
      exact Presentation.statusOf_eq_none_iff.mp (hafter ev' hev')
    · intro gateId hnone ev hev
      rw [hgates] at hnone
      exact Presentation.statusOf_eq_none_iff.mp (latest_eq_none_iff.mp hnone ev hev)

/-- Telemetry events of one gate: their id and the state they report. -/
def gateStates : Presentation (ℕ × ℕ) Unit ℕ ℕ := ⟨Prod.fst,Prod.fst,fun ev => some ((), ev.2)⟩

/-- Event 7 and then a replayed event 5: the cursor stays at 7, and the status goes back to the
one of event 5. -/
theorem statusSnapshot_shows_replayed_event :
    let v := (exec (ingest gateStates) ({} : EventCache Unit ℕ ℕ Unit)
      [(7, 1), (5, 0)]).statusSnapshot
    v.lastEventId = 7 ∧ v.gates () = some 0 ∧ ¬ v.Current gateStates [(7, 1), (5, 0)] := by
  intro v
  refine ⟨rfl,rfl,?_⟩
  intro hcurrent
  obtain ⟨ev,hmem,hev,hnewest⟩ := hcurrent.reported () 0 rfl
  have hid : 7 ≤ ev.1 := hnewest (7, 1) List.mem_cons_self 1 rfl
  have hstate : ev.2 = 0 := congrArg Prod.snd (Option.some.inj hev)
  rcases List.mem_pair.mp hmem with rfl | rfl
  · cases hstate
  · omega

end EventCache
end AlprGate.DashApi
