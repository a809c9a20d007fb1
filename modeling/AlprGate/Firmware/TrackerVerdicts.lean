import Mathlib.Data.List.Forall2
import AlprGate.Firmware.CommandTracker

/-! # Verdicts and arm calls

The tracker is called from three sides: a new command arms it, the transition listener
reports to it and the session's loop ticks it. Whatever the order of the calls, every
verdict decides the arm call whose turn it is.
-/
namespace AlprGate.Rpc
open StateMachine Transition

inductive Call where
  | arm (p : Pending)
  | gateEvent (s : State) (r : Reason) (transitioned : Bool)
  | tick (nowMs : BitVec 32)
  deriving DecidableEq, Repr

/-- The arguments of an arm call. -/
def Call.armed : Call → Option Pending
  | .arm p => some p
  | _ => none

namespace CommandTracker

def call (t : CommandTracker) : Call → CommandTracker × Option Verdict
  | .arm p => t.arm p.commandId p.terminalOk p.deadlineMs
  | .gateEvent s r transitioned => t.onGateEvent s r transitioned
  | .tick nowMs => t.onTick nowMs

/-- The verdicts of a sequence of calls, each with the call that returned it. -/
def firings : CommandTracker → List Call → List (Call × Verdict)
  | _, [] => []
  | t, c :: calls => ((t.call c).2.map fun v => (c, v)).toList ++ firings (t.call c).1 calls

/-- A verdict on an arm call: it names the command, and it is a success when the call that
returned it is a transition into the state that the command waits for. -/
structure Decides (p : Pending) (f : Call × Verdict) : Prop where
  commandId : f.2.commandId = storedId p.commandId
  success : f.2.success = true ↔ ∃ r, f.1 = .gateEvent p.terminalOk r true

/-- The arm calls that are still undecided. -/
inductive Holds : CommandTracker → List Pending → Prop
  | free {t : CommandTracker} (h : t.armed = false) : Holds t []
  | busy {t : CommandTracker} {p : Pending} (h : t.armed = true)
      (hid : t.id = storedId p.commandId) (hok : t.terminalOk = p.terminalOk) :
      Holds t [p]

theorem call_of_unarmed {t : CommandTracker} (h : t.armed = false) (c : Call) :
    (t.call c).2 = none := by
  cases c with
  | arm p =>
    have hnone : (t.call (.arm p)).2 = if t.armed = true then
        (t.resolve false "superseded by a newer command").2 else none := rfl
    rw [hnone, h]
    exact if_neg Bool.noConfusion
  | gateEvent s r transitioned => rw [call, onGateEvent, if_pos h]
  | tick nowMs => rw [call, onTick, if_pos (Or.inl h)]

/-- An armed tracker answers a gate event by success exactly at its terminal state. -/
theorem onGateEvent_armed {t : CommandTracker} (h : t.armed = true) (s : State) (r : Reason)
    (transitioned : Bool) :
    t.onGateEvent s r transitioned = (t, none) ∨
    ∃ success error, t.onGateEvent s r transitioned = t.resolve success error ∧
      (success = true ↔ transitioned = true ∧ s = t.terminalOk) := by
  unfold onGateEvent
  rw [if_neg (by rw [h]; exact Bool.noConfusion)]
  split
  · rename_i hok
    exact Or.inr ⟨true,"",rfl,fun _ => hok,fun _ => rfl⟩
  · rename_i hok
    have hfail : false = true ↔ transitioned = true ∧ s = t.terminalOk :=
      ⟨Bool.noConfusion,fun h => absurd h hok⟩
    split
    · exact Or.inr ⟨false,_,rfl,hfail⟩
    split
    · exact Or.inr ⟨false,_,rfl,hfail⟩
    split
    · exact Or.inr ⟨false,_,rfl,hfail⟩
    · exact Or.inl rfl

/-- One call decides the arm call that is held, or none, and may add one. -/
theorem Holds.call {t : CommandTracker} {held : List Pending} (h : Holds t held) (c : Call) :
    ∃ decided held', held ++ c.armed.toList = decided ++ held' ∧
      List.Forall₂ Decides decided ((t.call c).2.map fun v => (c, v)).toList ∧
      Holds (t.call c).1 held' := by
  cases c with
  | arm p =>
    cases h with
    | free h =>
      refine ⟨[],[p],rfl,?_,.busy rfl rfl rfl⟩
      rw [call_of_unarmed h]
      exact .nil
    | @busy q h hid hok =>
      -- the verdict still has the old id, although the tracker already has the new one
      refine ⟨[q],[p],rfl,?_,.busy rfl rfl rfl⟩
      have hfire : (t.call (.arm p)).2 = some ⟨t.id,false,"superseded by a newer command"⟩ :=
        if_pos h
      rw [hfire]
      refine .cons ⟨hid,Bool.noConfusion,?_⟩ .nil
      rintro ⟨r,hr⟩
      cases hr
  | gateEvent s r transitioned =>
    cases h with
    | free h =>
      refine ⟨[],[],rfl,?_,?_⟩
      · rw [call_of_unarmed h]
        exact .nil
      · rw [CommandTracker.call, onGateEvent, if_pos h]
        exact .free h
    | @busy q h hid hok =>
      rcases onGateEvent_armed h s r transitioned with hcall | ⟨success,error,hcall,hsuccess⟩
      · refine ⟨[],[q],rfl,?_,?_⟩
        · rw [CommandTracker.call, hcall]
          exact .nil
        · rw [CommandTracker.call, hcall]
          exact .busy h hid hok
      · refine ⟨[q],[],rfl,?_,?_⟩
        · rw [CommandTracker.call, hcall]
          refine .cons ⟨hid,?_⟩ .nil
          refine hsuccess.trans ⟨?_,?_⟩
          · rintro ⟨rfl,rfl⟩
            exact ⟨r,by rw [hok]⟩
          · rintro ⟨r',hr'⟩
            cases hr'
            exact ⟨rfl,hok.symm⟩
        · rw [CommandTracker.call, hcall]
          exact .free rfl
  | tick nowMs =>
    by_cases hquiet : t.armed = false ∨ (nowMs - t.deadlineMs).toInt < 0
    · refine ⟨[],held,by simp [Call.armed],?_,?_⟩
      · rw [CommandTracker.call, onTick, if_pos hquiet]
        exact .nil
      · rw [CommandTracker.call, onTick, if_pos hquiet]
        exact h
    · cases h with
      | free h => exact absurd (Or.inl h) hquiet
      | @busy q h hid hok =>
        refine ⟨[q],[],rfl,?_,?_⟩
        · rw [CommandTracker.call, onTick, if_neg hquiet]
          refine .cons ⟨hid,Bool.noConfusion,?_⟩ .nil
          rintro ⟨r,hr⟩
          cases hr
        · rw [CommandTracker.call, onTick, if_neg hquiet]
          exact .free rfl

/-- A sequence of calls decides the held arm calls and its own in their order. -/
theorem Holds.firings {t : CommandTracker} {held : List Pending} (h : Holds t held)
    (calls : List Call) :
    ∃ decided held', held ++ calls.filterMap Call.armed = decided ++ held' ∧
      List.Forall₂ Decides decided (t.firings calls) ∧
      Holds (exec (fun t c => (t.call c).1) t calls) held' := by
  induction calls generalizing t held with
  | nil => exact ⟨[],held,by simp,.nil,h⟩
  | cons c calls ih =>
    obtain ⟨decided,held₁,hsplit,hdecides,hheld⟩ := h.call c
    obtain ⟨decided',held₂,hsplit',hdecides',hheld'⟩ := ih hheld
    refine ⟨decided ++ decided',held₂,?_,?_,hheld'⟩
    · have harmed : (c :: calls).filterMap Call.armed =
          c.armed.toList ++ calls.filterMap Call.armed := by
        rw [List.filterMap_cons]
        cases c.armed with
        | none => rfl
        | some p => rfl
      rw [harmed, ← List.append_assoc, hsplit, List.append_assoc, hsplit', List.append_assoc]
    · exact List.rel_append hdecides hdecides'

theorem Holds.length {t : CommandTracker} {held : List Pending} (h : Holds t held) :
    held.length = if t.armed = true then 1 else 0 := by
  cases h with
  | free h => rw [h]; rfl
  | busy h => rw [h]; rfl

/-- The verdicts decide the arm calls one by one and in their order; the last arm call has none
as long as the tracker is armed. -/
theorem firings_decide_arms (calls : List Call) :
    let arms := calls.filterMap Call.armed
    let fired := firings {} calls
    let t := exec (fun t c => (t.call c).1) ({} : CommandTracker) calls
    arms.length = fired.length + (if t.armed = true then 1 else 0) ∧
    List.Forall₂ Decides (arms.take fired.length) fired ∧
    (t.armed = false → ∀ c, (t.call c).2 = none) := by
  intro arms fired t
  have hstart : Holds {} [] := .free rfl
  obtain ⟨decided,held,hsplit,hdecides,hheld⟩ := hstart.firings calls
  have harms : arms = decided ++ held := hsplit
  have hfired : decided.length = fired.length := hdecides.length_eq
  refine ⟨?_,?_,fun h => call_of_unarmed h⟩
  · rw [harms, List.length_append, hfired, hheld.length]
  · rw [harms, ← hfired, List.take_left]
    exact hdecides

/-- A command that is superseded and one that reaches its state. -/
theorem firings_decide_two_arms :
    let calls : List Call := [.tick 0, .arm ⟨[1],.open,9⟩, .arm ⟨[2],.closed,9⟩,
      .gateEvent .open .none true, .gateEvent .closed .none true, .tick 10]
    List.Forall₂ Decides (calls.filterMap Call.armed)
      [(.arm ⟨[2],.closed,9⟩, ⟨[1],false,"superseded by a newer command"⟩),
        (.gateEvent .closed .none true, ⟨[2],true,""⟩)] :=
  (firings_decide_arms [.tick 0, .arm ⟨[1],.open,9⟩, .arm ⟨[2],.closed,9⟩,
    .gateEvent .open .none true, .gateEvent .closed .none true, .tick 10]).2.1

end CommandTracker
end AlprGate.Rpc
