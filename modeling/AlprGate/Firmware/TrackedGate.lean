import AlprGate.Firmware.TrackerVerdicts

/-! # The gate and its tracker

A motion command is armed and then handled, and the listener reports every step of the
machine to the tracker. The tracker hears a state, a reason and whether the step was a
transition, but not who asked for it, and a step without a transition and without a reason
it does not hear at all.
-/
namespace AlprGate.Rpc
open StateMachine Control Transition

/-- The two commands that the tracker follows. -/
inductive Motion where
  | open | close
  deriving DecidableEq, Repr

namespace Motion

def kind : Motion → CommandKind
  | .open => .openGate
  | .close => .closeGate

def terminalOk (m : Motion) : State := (dispatcher .ready m.kind).1.terminalOk

def command : Motion → Control.Command
  | .open => .open
  | .close => .close

/-- The dispatcher asks the gate controller for exactly this motion. -/
theorem dispatcher_kind (m : Motion) (ota : Ota) :
    dispatcher ota m.kind = ({ accepted := true, terminalOk := m.terminalOk }, [.command m.command]) := by
  cases m with
  | «open» => rfl
  | close => rfl

end Motion

/-- In the log every verdict stands with the state that its command waited for. -/
structure TrackedGate where
  machine : Machine := {}
  tracker : CommandTracker := {}
  log : List (State × Verdict) := []
  deriving DecidableEq, Repr

/-- `event` are local commands, the auto-close, stops and the edges of the inputs. -/
inductive GateInput where
  | issue (commandId : List UInt8) (m : Motion) (deadlineMs : BitVec 32)
  | event (ev : Event)
  | bootPosition (openActive closedActive : Bool)
  | tick (nowMs : BitVec 32)
  deriving DecidableEq, Repr

namespace TrackedGate

def record (g : TrackedGate) (r : CommandTracker × Option Verdict) : TrackedGate :=
  { g with
    tracker := r.1
    log := g.log ++ (r.2.map fun v => (g.tracker.terminalOk, v)).toList }

def hear (g : TrackedGate) : Op → TrackedGate
  | .notify s r transitioned => g.record (g.tracker.onGateEvent s r transitioned)
  | _ => g

def handle (g : TrackedGate) (ev : Event) : TrackedGate :=
  let r := StateMachine.handle g.machine ev
  (listener r.2).foldl hear { g with machine := r.1 }

def arm (g : TrackedGate) (commandId : List UInt8) (m : Motion) (deadlineMs : BitVec 32) :
    TrackedGate :=
  g.record (g.tracker.arm commandId m.terminalOk deadlineMs)

def issue (g : TrackedGate) (commandId : List UInt8) (m : Motion) (deadlineMs : BitVec 32) :
    TrackedGate :=
  (g.arm commandId m deadlineMs).handle m.command.event

/-- The boot position is resolved behind the listener's back. -/
def step (g : TrackedGate) : GateInput → TrackedGate
  | .issue commandId m deadlineMs => g.issue commandId m deadlineMs
  | .event ev => g.handle ev
  | .bootPosition openActive closedActive =>
    if g.machine.state = .initializing then
      { g with machine := (initFrom openActive closedActive g.machine).1 }
    else g
  | .tick nowMs => g.record (g.tracker.onTick nowMs)

/-- Everything one event can do to the gate and its tracker. -/
theorem handle_cases (g : TrackedGate) (ev : Event) :
    (∃ s stored reported actions,
      Edge g.machine.beamClear g.machine.reason g.machine.state ev s stored reported actions ∧
      g.handle ev = ({ g with machine := ⟨s,stored,latch g.machine.beamClear ev⟩ }.record
        (g.tracker.onGateEvent s reported true))) ∨
    (Refused g.machine ev ∧
      g.handle ev = g.record (g.tracker.onGateEvent .open .safetyBeamObstacle false)) ∨
    g.handle ev = { g with machine :=
      { g.machine with beamClear := latch g.machine.beamClear ev } } := by
  unfold handle
  rcases StateMachine.handle_cases g.machine ev with
    ⟨s,stored,reported,actions,hedge,hm⟩ | ⟨hrefused,hm⟩ | ⟨-,-,hm⟩
  · rw [hm]
    exact .inl ⟨s,stored,reported,actions,hedge,rfl⟩
  · rw [hm]
    exact .inr (.inl ⟨hrefused,rfl⟩)
  · rw [hm]
    exact .inr (.inr rfl)

end TrackedGate

/-- A close command that only the beam latch keeps from moving the gate. -/
def RefusedByBeam (m : Machine) : Prop :=
  m.beamClear = false ∧ (handle m .commandClose).2.transitioned = false ∧
    (handle { m with beamClear := true } .commandClose).2.transitioned = true

instance (m : Machine) : Decidable (RefusedByBeam m) :=
  inferInstanceAs (Decidable (_ ∧ _ ∧ _))

/-- Two of the three refusals are no refusal of the state machine: the outputs are those of an
ignored event. -/
theorem handle_of_refusedByBeam {m : Machine} (h : RefusedByBeam m) :
    (m.state = .open ∧
      handle m .commandClose = (m,⟨[.emitTelemetryStateChanged],.open,false,.safetyBeamObstacle⟩)) ∨
    ((m.state = .stoppedOpen ∨ m.state = .stoppedClose) ∧
      handle m .commandClose = (m,{ newState := m.state })) := by
  rcases m with ⟨state,reason,clear⟩
  obtain ⟨hlatch,-,hmoves⟩ := h
  change clear = false at hlatch
  subst hlatch
  cases state with
  | «open» => exact .inl ⟨rfl,rfl⟩
  | stoppedOpen => exact .inr ⟨.inl rfl,rfl⟩
  | stoppedClose => exact .inr ⟨.inr rfl,rfl⟩
  | initializing => cases hmoves
  | closed => cases hmoves
  | opening => cases hmoves
  | closing => cases hmoves
  | faulted => cases hmoves

namespace TrackedGate

/-- The tracker fails a refused close in the same step when the gate is open, and does not hear
of it when the gate has stopped half-way. -/
theorem refused_close_fails_iff (as : List GateInput) (commandId : List UInt8)
    (deadlineMs : BitVec 32) (h : RefusedByBeam (exec step {} as).machine) :
    let g := exec step {} as
    (∃ error, (g.step (.issue commandId .close deadlineMs)).log =
      (g.arm commandId .close deadlineMs).log ++
        [(.closed, ⟨storedId commandId,false,error⟩)]) ↔
      g.machine.state = .open := by
  intro g
  have hissue : g.step (.issue commandId .close deadlineMs) =
      (listener (StateMachine.handle g.machine .commandClose).2).foldl hear
        { g.arm commandId .close deadlineMs with
          machine := (StateMachine.handle g.machine .commandClose).1 } := rfl
  rcases handle_of_refusedByBeam h with ⟨hopen,hm⟩ | ⟨hstopped,hm⟩
  · refine ⟨fun _ => hopen,fun _ => ⟨"rejected: safety beam obstacle",?_⟩⟩
    rw [hissue, hm]
    rfl
  · constructor
    · rintro ⟨error,hlog⟩
      rw [hissue, hm] at hlog
      have hlength := congrArg List.length hlog
      rw [List.length_append] at hlength
      exact absurd hlength (Nat.ne_of_lt (Nat.lt_succ_self _))
    · intro hopen
      rcases hstopped with hs | hs
      · rw [hs] at hopen
        cases hopen
      · rw [hs] at hopen
        cases hopen

theorem refused_close_fails_at_open :
    let as : List GateInput := [.bootPosition true false, .event .safetyBeamTripped]
    RefusedByBeam (exec step {} as).machine ∧
    ∃ error, ((exec step {} as).step (.issue [1] .close 9)).log =
      ((exec step {} as).arm [1] .close 9).log ++ [(.closed, ⟨[1],false,error⟩)] :=
  ⟨by decide,
    (refused_close_fails_iff [.bootPosition true false, .event .safetyBeamTripped] [1] 9
      (by decide)).mpr rfl⟩

/-- A close that the beam has stopped, and an opening that the operator has stopped: the next
close is refused, and its command stays armed without a verdict. -/
theorem refused_close_unheard :
    let halfClosed := exec step {}
      [.bootPosition true false, .event .commandClose, .event .safetyBeamTripped]
    let halfOpen := exec step {}
      [.bootPosition false true, .event .commandOpen, .event .commandStop, .event .safetyBeamTripped]
    (halfClosed.machine.state = .stoppedClose ∧ RefusedByBeam halfClosed.machine ∧
      (halfClosed.step (.issue [1] .close 9)).log = [] ∧
      (halfClosed.step (.issue [1] .close 9)).tracker.armed = true) ∧
    (halfOpen.machine.state = .stoppedOpen ∧ RefusedByBeam halfOpen.machine ∧
      (halfOpen.step (.issue [1] .close 9)).log = [] ∧
      (halfOpen.step (.issue [1] .close 9)).tracker.armed = true) := by
  decide

/-- The error of rule 4. -/
theorem onGateEvent_rejected {t : CommandTracker} {s : State} {r : Reason} {transitioned : Bool}
    {v : Verdict} (h : (t.onGateEvent s r transitioned).2 = some v)
    (herror : v.error = "rejected: safety beam obstacle") : t.armed = true ∧ transitioned = false := by
  have hreason : r.toString ≠ "rejected: safety beam obstacle" := by
    cases r <;> decide
  unfold CommandTracker.onGateEvent at h
  split at h
  · cases h
  rename_i harmed
  refine ⟨Bool.not_eq_false _ ▸ harmed,?_⟩
  split at h
  · cases h
    exact absurd herror (by simp)
  split at h
  · cases h
    exact absurd herror hreason
  split at h
  · cases h
    exact absurd herror hreason
  split at h
  · rename_i hquiet
    exact hquiet.1
  · cases h

/-- A tracker that is still armed after a gate event has not seen its terminal state. -/
theorem onGateEvent_pending {t : CommandTracker} {s : State} {r : Reason} {transitioned : Bool}
    (h : (t.onGateEvent s r transitioned).1.armed = true) :
    (t.onGateEvent s r transitioned).1 = t ∧ ¬(transitioned = true ∧ s = t.terminalOk) := by
  rcases t.onGateEvent_cases s r transitioned with hsame | ⟨success,error,hresolved⟩
  · rw [hsame] at h
    refine ⟨by rw [hsame],fun hok => ?_⟩
    have hverdict : (t.onGateEvent s r transitioned).2 = some ⟨t.id,true,""⟩ := by
      unfold CommandTracker.onGateEvent
      rw [if_neg (by rw [h]; exact Bool.noConfusion), if_pos hok]
      rfl
    rw [hsame] at hverdict
    cases hverdict
  · rw [hresolved] at h
    cases h

/-- An open command is issued to a gate that is not open, and none is pending when the boot
position turns out to be open. -/
def OpenMoves (g : TrackedGate) : GateInput → Prop
  | .issue _ .open _ => g.machine.state ≠ .open
  | .bootPosition openActive closedActive =>
    ¬(g.machine.state = .initializing ∧ openActive = true ∧ closedActive = false ∧
      g.tracker.armed = true ∧ g.tracker.terminalOk = .open)
  | _ => True

instance decidableOpenMoves (g : TrackedGate) : (a : GateInput) → Decidable (OpenMoves g a)
  | .issue _ .open _ => inferInstanceAs (Decidable (_ ≠ _))
  | .issue _ .close _ => inferInstanceAs (Decidable True)
  | .event _ => inferInstanceAs (Decidable True)
  | .bootPosition _ _ => inferInstanceAs (Decidable (¬(_ ∧ _ ∧ _ ∧ _ ∧ _)))
  | .tick _ => inferInstanceAs (Decidable True)

/-- A pending open command waits for a gate that is not open. -/
structure Attributed (g : TrackedGate) : Prop where
  awaits : g.tracker.armed = true → g.tracker.terminalOk = .closed ∨
    g.tracker.terminalOk = .open ∧ g.machine.state ≠ .open
  blames : ∀ e ∈ g.log, e.2.error = "rejected: safety beam obstacle" → e.1 = .closed

theorem attributed_record {g : TrackedGate} {r : CommandTracker × Option Verdict}
    (hlog : ∀ e ∈ g.log, e.2.error = "rejected: safety beam obstacle" → e.1 = .closed)
    (hawaits : r.1.armed = true → r.1.terminalOk = .closed ∨
      r.1.terminalOk = .open ∧ g.machine.state ≠ .open)
    (hblames : ∀ v, r.2 = some v → v.error = "rejected: safety beam obstacle" →
      g.tracker.terminalOk = .closed) : Attributed (g.record r) := by
  refine ⟨hawaits,?_⟩
  intro e he herror
  rcases List.mem_append.mp he with he | he
  · exact hlog e he herror
  · obtain ⟨v,hv,rfl⟩ := Option.map_eq_some_iff.mp (Option.mem_toList.mp he)
    exact hblames v hv herror

theorem Attributed.arm {g : TrackedGate} (h : Attributed g) (commandId : List UInt8) {m : Motion}
    (hm : m = .open → g.machine.state ≠ .open) (deadlineMs : BitVec 32) :
    Attributed (g.arm commandId m deadlineMs) := by
  refine attributed_record h.blames ?_ ?_
  · intro _
    cases m with
    | «open» => exact .inr ⟨rfl,hm rfl⟩
    | close => exact .inl rfl
  · intro v hv herror
    unfold CommandTracker.arm at hv
    dsimp only at hv
    split at hv
    · cases hv
      exact absurd herror (by simp)
    · cases hv

theorem Attributed.handle {g : TrackedGate} (h : Attributed g) (ev : Event) :
    Attributed (g.handle ev) := by
  rcases g.handle_cases ev with ⟨s,stored,reported,actions,-,hg⟩ | ⟨⟨hopen,-,-⟩,hg⟩ | hg
  · rw [hg]
    refine attributed_record h.blames ?_ ?_
    · -- a transition into the awaited state decides the command
      intro harmed
      obtain ⟨hsame,hnot⟩ := onGateEvent_pending harmed
      rw [hsame] at harmed ⊢
      rcases h.awaits harmed with hclosed | ⟨hwaits,-⟩
      · exact .inl hclosed
      · refine .inr ⟨hwaits,fun hs => hnot ⟨rfl,?_⟩⟩
        rw [hwaits]
        exact hs
    · intro v hv herror
      exact absurd (onGateEvent_rejected hv herror).2 Bool.noConfusion
  · -- the gate is open, so the command that is blamed waits for the closed state
    have hclosed : g.tracker.armed = true → g.tracker.terminalOk = .closed := by
      intro harmed
      rcases h.awaits harmed with hclosed | ⟨-,hnot⟩
      · exact hclosed
      · exact absurd hopen hnot
    rw [hg]
    refine attributed_record h.blames ?_ ?_
    · intro harmed
      obtain ⟨hsame,-⟩ := onGateEvent_pending harmed
      rw [hsame] at harmed ⊢
      exact .inl (hclosed harmed)
    · intro v hv herror
      exact hclosed (onGateEvent_rejected hv herror).1
  · rw [hg]
    exact ⟨h.awaits,h.blames⟩

theorem Attributed.tick {g : TrackedGate} (h : Attributed g) (nowMs : BitVec 32) :
    Attributed (g.record (g.tracker.onTick nowMs)) := by
  unfold CommandTracker.onTick
  split
  · exact attributed_record h.blames h.awaits fun _ hv => by cases hv
  · refine attributed_record h.blames Bool.noConfusion ?_
    intro v hv herror
    cases hv
    exact absurd herror (by simp)

/-- Only the position `open` puts the machine into the state open. -/
theorem initFrom_open {openActive closedActive : Bool} {m : Machine}
    (h : (initFrom openActive closedActive m).1.state = .open) :
    openActive = true ∧ closedActive = false := by
  unfold initFrom at h
  split at h
  · cases h
  split at h
  · rename_i hopen
    exact hopen
  · cases h

theorem Attributed.step (g : TrackedGate) (a : GateInput) (hmoves : OpenMoves g a)
    (h : Attributed g) : Attributed (g.step a) := by
  cases a with
  | issue commandId m deadlineMs =>
    refine (h.arm commandId ?_ deadlineMs).handle _
    rintro rfl
    exact hmoves
  | event ev => exact h.handle ev
  | bootPosition openActive closedActive =>
    unfold TrackedGate.step
    dsimp only
    split
    · rename_i hinit
      refine ⟨?_,h.blames⟩
      intro harmed
      rcases h.awaits harmed with hclosed | ⟨hwaits,-⟩
      · exact .inl hclosed
      · refine .inr ⟨hwaits,fun hopen => hmoves ?_⟩
        obtain ⟨hactive,hreleased⟩ := initFrom_open hopen
        exact ⟨hinit,hactive,hreleased,harmed,hwaits⟩
    · exact h
  | tick nowMs => exact h.tick nowMs

/-- The interlock is blamed only in verdicts on close commands, as long as every open command
has a way to go when it is issued. -/
theorem interlock_blames_closes {as : List GateInput} (h : AllSteps step OpenMoves {} as) :
    ∀ e ∈ (exec step {} as).log, e.2.error = "rejected: safety beam obstacle" → e.1 = .closed := by
  have hstart : Attributed {} := ⟨Bool.noConfusion,fun _ he => by cases he⟩
  exact (exec_invariant_of Attributed.step h hstart).blames

/-- An open command has come to its end when a close is refused; the next close command is
blamed for the second refusal. -/
theorem interlock_blames_second_close :
    let as : List GateInput := [.bootPosition false true, .issue [1] .open 9, .event .limitOpenHit,
      .event .safetyBeamTripped, .event .commandClose, .issue [2] .close 9]
    (exec step {} as).log = [(.open, ⟨[1],true,""⟩),
      (.closed, ⟨[2],false,"rejected: safety beam obstacle"⟩)] ∧
    ∀ e ∈ (exec step {} as).log, e.2.error = "rejected: safety beam obstacle" → e.1 = .closed :=
  ⟨by decide,interlock_blames_closes (by decide)⟩

/-- An open command to a gate that is open already is still pending when someone else's close
is refused. -/
theorem interlock_blames_open :
    (exec step {} [.bootPosition true false, .issue [1] .open 9, .event .safetyBeamTripped,
      .event .commandClose]).log = [(.open, ⟨[1],false,"rejected: safety beam obstacle"⟩)] := by
  decide

end TrackedGate
end AlprGate.Rpc
