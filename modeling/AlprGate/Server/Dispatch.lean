import AlprGate.Library.JsonValue
import AlprGate.Library.Transition
import AlprGate.Server.FusionHistory

/-! # The services between the engine and the bus

A detection is decided, the decision is published, and an authorized one is followed by an
`OPEN_GATE` command. A command from the dashboard first updates the override of its gate and
is then published, with an ack behind it. Calls run side by side: a decision, an update of
an override and a publish call are steps of their own, and the bus can be stopped between
any two of them.
-/
namespace AlprGate.ServerRpc
open Auth Fusion Transition
open JsonValue (ascii)

/-- An unrecognized number is a kind of its own. -/
inductive CommandKind where
  | unspecified | openGate | closeGate | pulseRelay | latchOpen | latchClose | releaseLatch
  | reboot | beginOta | ledPattern
  | unrecognized (number : ℤ)
  deriving DecidableEq, Repr

structure GateCommand where
  commandId : Text := []
  issuedTs : Option ℤ := none
  gateId : Text
  kind : CommandKind
  actor : Text := []
  deriving DecidableEq, Repr

structure CommandAck where
  commandId : Text
  receivedTs : ℤ
  completed : Bool := false
  success : Bool := false
  deriving DecidableEq, Repr

inductive DashboardEvent where
  | decision (d : AuthDecision)
  | command (c : GateCommand)
  | ack (a : CommandAck)
  deriving DecidableEq, Repr

inductive Handler where
  | submitDetection | issueCommand | authorize
  deriving DecidableEq, Repr

/-- An event on the bus, with the handler that published it. -/
structure Posted where
  eventId : ℕ
  siteId : Text
  gateId : Text
  event : DashboardEvent
  handler : Handler
  deriving DecidableEq, Repr

/-- What a call returns. -/
inductive Reply where
  | invalidArgument (message : String)
  | decision (d : AuthDecision)
  | ack (a : CommandAck)
  deriving DecidableEq, Repr

/-- How far a call has come. -/
inductive Call where
  | idle
  | submitted (frame : DetectionFrame)
  | decided (frame : DetectionFrame) (resp : AuthDecision)
  | announced (frame : DetectionFrame) (resp : AuthDecision)
  | requested (req : AuthorizeRequest)
  | judged (req : AuthorizeRequest) (resp : AuthDecision)
  | stamped (command : GateCommand)
  | latched (command : GateCommand)
  | issued (command : GateCommand)
  | returned (reply : Reply)
  deriving DecidableEq, Repr

/-- `decisions` lists the decisions ever taken. -/
structure Services where
  fusion : FusionEngine := {}
  defaultSiteId : Text := []
  stopped : Bool := false
  nextEventId : ℕ := 1
  log : List Posted := []
  call : ℕ → Call := fun _ => .idle
  decisions : List AuthDecision := []

/-- Generated ids and clock readings come with the step that asks for them. -/
inductive Input where
  | submitDetection (k : ℕ) (req : DetectionFrame)
  | authorize (k : ℕ) (req : AuthorizeRequest)
  | issueCommand (k : ℕ) (req : GateCommand) (uuid : Text) (now : ℤ)
  | decide (k : ℕ) (uuid : Text) (nowUnix : ℤ) (nowLocal : Tm)
  | updateOverride (k : ℕ)
  | publishDecision (k : ℕ)
  | publishCommand (k : ℕ) (uuid : Text) (now : ℤ)
  | publishAck (k : ℕ) (now : ℤ)
  | store (op : StoreOp)
  | stop

/-- The actor of a command that a decision has caused. -/
def autoActor (decisionId : Text) : Text := ascii "auto:" ++ decisionId

theorem autoActor_injective {d d' : Text} (h : autoActor d = autoActor d') : d = d' :=
  List.append_cancel_left h

/-- The override that a kind of command asks for. -/
def CommandKind.override : CommandKind → Option OverrideState
  | .latchOpen => some .forceOpen
  | .latchClose => some .forceClose
  | .releaseLatch => some .none
  | _ => none

/-- A command gets an id and a time unless it brings them. -/
def GateCommand.stamp (req : GateCommand) (uuid : Text) (now : ℤ) : GateCommand :=
  { req with
    commandId := if req.commandId = [] then uuid else req.commandId
    issuedTs := if req.issuedTs = none ∨ req.issuedTs = some 0 then some now else req.issuedTs }

/-- The command that follows an authorized decision. -/
def openCommand (frame : DetectionFrame) (resp : AuthDecision) (uuid : Text) (now : ℤ) :
    GateCommand where
  commandId := uuid
  issuedTs := some now
  gateId := frame.gateId
  kind := .openGate
  actor := autoActor resp.decisionId

namespace Services

def setCall (s : Services) (k : ℕ) (c : Call) : Services :=
  { s with call := Function.update s.call k c }

/-- A stopped bus takes nothing. -/
def publish (s : Services) (handler : Handler) (siteId gateId : Text) (event : DashboardEvent) :
    Services :=
  if s.stopped = true then s
  else { s with
    nextEventId := s.nextEventId + 1
    log := s.log ++ [⟨s.nextEventId,siteId,gateId,event,handler⟩] }

def publishDecision (s : Services) (handler : Handler) (siteId : Text) (d : AuthDecision) :
    Services := s.publish handler siteId d.gateId (.decision d)

def publishCommand (s : Services) (handler : Handler) (siteId : Text) (c : GateCommand) :
    Services := s.publish handler siteId c.gateId (.command c)

def publishAck (s : Services) (handler : Handler) (siteId gateId : Text) (a : CommandAck) :
    Services := s.publish handler siteId gateId (.ack a)

/-- The entry of `SubmitDetection`. -/
def submitDetection (req : DetectionFrame) : Call :=
  if req.gateId = [] then .returned (.invalidArgument "frame.gate_id is required")
  else .submitted req

/-- The entry of `Authorize`. -/
def authorize (req : AuthorizeRequest) : Call :=
  if req.siteId = [] then .returned (.invalidArgument "site_id is required")
  else if req.frame.gateId = [] then .returned (.invalidArgument "frame.gate_id is required")
  else .requested req

/-- The entry of `IssueCommand`. -/
def issueCommand (req : GateCommand) (uuid : Text) (now : ℤ) : Call :=
  if req.gateId = [] then .returned (.invalidArgument "gate_id is required")
  else if req.kind = .unspecified then .returned (.invalidArgument "command kind must be set")
  else .stamped (req.stamp uuid now)

def start (s : Services) (k : ℕ) (c : Call) : Services :=
  match s.call k with
  | .idle => s.setCall k c
  | _ => s

/-- A detection is decided under the default site. -/
def decisionRequest (s : Services) (frame : DetectionFrame) : AuthorizeRequest where
  frame := frame
  siteId := s.defaultSiteId
  actor := ascii "firmware-submit"

def takeDecision (s : Services) (k : ℕ) (d : AuthDecision) (c : Call) : Services :=
  { s with decisions := s.decisions ++ [d] }.setCall k c

def decide (s : Services) (k : ℕ) (uuid : Text) (nowUnix : ℤ) (nowLocal : Tm) : Services :=
  match s.call k with
  | .submitted frame =>
    let d := s.fusion.decideAt uuid (s.decisionRequest frame) nowUnix nowLocal
    s.takeDecision k d (.decided frame d)
  | .requested req =>
    let d := s.fusion.decideAt uuid req nowUnix nowLocal
    s.takeDecision k d (.judged req d)
  | _ => s

def setOverride (s : Services) (c : GateCommand) : Services :=
  match c.kind.override with
  | some state => { s with fusion := s.fusion.setOverride c.gateId state }
  | none => s

def updateOverride (s : Services) (k : ℕ) : Services :=
  match s.call k with
  | .stamped c => (s.setOverride c).setCall k (.latched c)
  | _ => s

/-- Only an authorized detection goes on to its command. -/
def afterDecision (frame : DetectionFrame) (d : AuthDecision) : Call :=
  if d.verdict = .authorized then .announced frame d else .returned (.decision d)

def announce (s : Services) (k : ℕ) : Services :=
  match s.call k with
  | .decided frame d =>
    (s.publishDecision .submitDetection s.defaultSiteId d).setCall k (afterDecision frame d)
  | .judged req d =>
    (s.publishDecision .authorize req.siteId d).setCall k (.returned (.decision d))
  | _ => s

def dispatch (s : Services) (k : ℕ) (uuid : Text) (now : ℤ) : Services :=
  match s.call k with
  | .announced frame d =>
    (s.publishCommand .submitDetection s.defaultSiteId (openCommand frame d uuid now)).setCall k
      (.returned (.decision d))
  | .latched c => (s.publishCommand .issueCommand s.defaultSiteId c).setCall k (.issued c)
  | _ => s

/-- Receipt is acknowledged; the firmware completes the command later. -/
def acknowledge (s : Services) (k : ℕ) (now : ℤ) : Services :=
  match s.call k with
  | .issued c =>
    (s.publishAck .issueCommand s.defaultSiteId c.gateId ⟨c.commandId,now,false,false⟩).setCall k
      (.returned (.ack ⟨c.commandId,now,false,false⟩))
  | _ => s

def step (s : Services) : Input → Services
  | .submitDetection k req => s.start k (submitDetection req)
  | .authorize k req => s.start k (authorize req)
  | .issueCommand k req uuid now => s.start k (issueCommand req uuid now)
  | .decide k uuid nowUnix nowLocal => s.decide k uuid nowUnix nowLocal
  | .updateOverride k => s.updateOverride k
  | .publishDecision k => s.announce k
  | .publishCommand k uuid now => s.dispatch k uuid now
  | .publishAck k now => s.acknowledge k now
  | .store op => { s with fusion := s.fusion.apply (.store op) }
  | .stop => { s with stopped := true }

/-- Services that have just started, on an engine in any state. -/
def boot (fusion : FusionEngine) (defaultSiteId : Text) : Services :=
  { fusion := fusion, defaultSiteId := defaultSiteId }

end Services

/-- The decision of a call that has still to publish because of it. -/
def Call.awaits : Call → Option AuthDecision
  | .decided _ d => some d
  | .announced _ d => some d
  | .judged _ d => some d
  | _ => none

end AlprGate.ServerRpc

namespace AlprGate.Fusion.FusionEngine
open Auth

variable (f : FusionEngine) (decisionId : Text) (req : AuthorizeRequest) (nowUnix : ℤ)
  (nowLocal : Tm)

theorem decideScored_frame (out : AuthDecision) (normalized : Text) (vehicleClass : VehicleClass)
    (alprConf lidarConf combined : ℚ) :
    let d := f.decideScored out req normalized vehicleClass alprConf lidarConf combined nowUnix
      nowLocal
    d.decisionId = out.decisionId ∧ d.gateId = out.gateId := by
  unfold decideScored
  split
  · exact ⟨rfl,rfl⟩
  · split
    · exact ⟨rfl,rfl⟩
    · split
      · exact ⟨rfl,rfl⟩
      · split
        · exact ⟨rfl,rfl⟩
        · split
          · split
            · exact ⟨rfl,rfl⟩
            · exact ⟨rfl,rfl⟩
          · exact ⟨rfl,rfl⟩

/-- A decision carries the id that was generated for it and the gate of its frame. -/
theorem decideAt_frame :
    (f.decideAt decisionId req nowUnix nowLocal).decisionId = decisionId ∧
      (f.decideAt decisionId req nowUnix nowLocal).gateId = req.frame.gateId := by
  unfold decideAt
  dsimp only
  split
  · exact ⟨rfl,rfl⟩
  · split
    · exact ⟨rfl,rfl⟩
    · split
      · exact ⟨rfl,rfl⟩
      · exact decideScored_frame ..

theorem decideAt_forceClose (h : f.overrideFor req.frame.gateId = .forceClose) :
    (f.decideAt decisionId req nowUnix nowLocal).verdict = .denied := by
  unfold decideAt
  dsimp only
  rw [if_pos h]

end AlprGate.Fusion.FusionEngine

namespace AlprGate.ServerRpc.Services
open Auth Fusion

@[simp] theorem setCall_self (s : Services) (k : ℕ) (c : Call) : (s.setCall k c).call k = c :=
  Function.update_self ..

theorem setCall_other {s : Services} {k j : ℕ} {c : Call} (h : j ≠ k) :
    (s.setCall k c).call j = s.call j := Function.update_of_ne h ..

section Publish
variable (s : Services) (handler : Handler) (siteId gateId : Text) (event : DashboardEvent)

theorem publish_frame :
    (s.publish handler siteId gateId event).fusion = s.fusion ∧
    (s.publish handler siteId gateId event).stopped = s.stopped ∧
    (s.publish handler siteId gateId event).call = s.call ∧
    (s.publish handler siteId gateId event).decisions = s.decisions := by
  unfold publish
  split
  · exact ⟨rfl,rfl,rfl,rfl⟩
  · exact ⟨rfl,rfl,rfl,rfl⟩

/-- Publishing appends one event under the next id, or does nothing on a stopped bus. -/
theorem publish_log :
    (s.stopped = true ∧ s.publish handler siteId gateId event = s) ∨
    (s.stopped = false ∧
      (s.publish handler siteId gateId event).nextEventId = s.nextEventId + 1 ∧
      (s.publish handler siteId gateId event).log =
        s.log ++ [⟨s.nextEventId,siteId,gateId,event,handler⟩]) := by
  unfold publish
  split
  · rename_i h
    exact Or.inl ⟨h,rfl⟩
  · rename_i h
    exact Or.inr ⟨Bool.eq_false_of_not_eq_true h,rfl,rfl⟩

end Publish

/-- A step that neither decides nor publishes. -/
structure Calm (s : Services) (a : Input) (t : Services) : Prop where
  log : t.log = s.log
  nextEventId : t.nextEventId = s.nextEventId
  decisions : t.decisions = s.decisions
  stopped : s.stopped = true → t.stopped = true
  call : ∀ k, t.call k = s.call k ∨ (t.call k).awaits = none
  override : ∀ g, t.fusion.overrideFor g = s.fusion.overrideFor g ∨
    ∃ k c, a = .updateOverride k ∧ s.call k = .stamped c ∧ c.gateId = g ∧
      c.kind.override = some (t.fusion.overrideFor g)

theorem Calm.refl (s : Services) (a : Input) : Calm s a s where
  log := rfl
  nextEventId := rfl
  decisions := rfl
  stopped := id
  call := fun _ => Or.inl rfl
  override := fun _ => Or.inl rfl

/-- Every way a step can go. -/
inductive Move (s : Services) : Input → Services → Prop
  | calm {a : Input} {t : Services} (h : Calm s a t) : Move s a t
  | decide {k : ℕ} {frame : DetectionFrame} {d : AuthDecision} {uuid : Text} {nowUnix : ℤ}
      {nowLocal : Tm} (h : s.call k = .submitted frame)
      (hd : d = s.fusion.decideAt uuid (s.decisionRequest frame) nowUnix nowLocal) :
      Move s (.decide k uuid nowUnix nowLocal) (s.takeDecision k d (.decided frame d))
  | judge {k : ℕ} {req : AuthorizeRequest} {d : AuthDecision} {uuid : Text} {nowUnix : ℤ}
      {nowLocal : Tm} (h : s.call k = .requested req)
      (hd : d = s.fusion.decideAt uuid req nowUnix nowLocal) :
      Move s (.decide k uuid nowUnix nowLocal) (s.takeDecision k d (.judged req d))
  | announce {k : ℕ} {frame : DetectionFrame} {d : AuthDecision}
      (h : s.call k = .decided frame d) :
      Move s (.publishDecision k)
        ((s.publishDecision .submitDetection s.defaultSiteId d).setCall k (afterDecision frame d))
  | report {k : ℕ} {req : AuthorizeRequest} {d : AuthDecision} (h : s.call k = .judged req d) :
      Move s (.publishDecision k)
        ((s.publishDecision .authorize req.siteId d).setCall k (.returned (.decision d)))
  | dispatch {k : ℕ} {frame : DetectionFrame} {d : AuthDecision} {uuid : Text} {now : ℤ}
      (h : s.call k = .announced frame d) :
      Move s (.publishCommand k uuid now)
        ((s.publishCommand .submitDetection s.defaultSiteId
          (openCommand frame d uuid now)).setCall k (.returned (.decision d)))
  | issue {k : ℕ} {c : GateCommand} {uuid : Text} {now : ℤ} (h : s.call k = .latched c) :
      Move s (.publishCommand k uuid now)
        ((s.publishCommand .issueCommand s.defaultSiteId c).setCall k (.issued c))
  | acknowledge {k : ℕ} {c : GateCommand} {a : CommandAck} {now : ℤ} (h : s.call k = .issued c) :
      Move s (.publishAck k now)
        ((s.publishAck .issueCommand s.defaultSiteId c.gateId a).setCall k (.returned (.ack a)))

theorem start_calm (s : Services) (a : Input) (k : ℕ) {c : Call} (hc : c.awaits = none) :
    Calm s a (s.start k c) := by
  unfold start
  split
  · refine { Calm.refl s a with call := ?_ }
    intro j
    by_cases hj : j = k
    · subst hj
      rw [setCall_self]
      exact Or.inr hc
    · exact Or.inl (setCall_other hj)
  · exact .refl s a

theorem setOverride_frame (s : Services) (c : GateCommand) :
    (s.setOverride c).log = s.log ∧ (s.setOverride c).nextEventId = s.nextEventId ∧
      (s.setOverride c).decisions = s.decisions ∧ (s.setOverride c).stopped = s.stopped ∧
      (s.setOverride c).call = s.call := by
  unfold setOverride
  split
  · exact ⟨rfl,rfl,rfl,rfl,rfl⟩
  · exact ⟨rfl,rfl,rfl,rfl,rfl⟩

/-- An override changes as a latch command for its gate asks for, or not at all. -/
theorem overrideFor_setOverride (s : Services) (c : GateCommand) (g : Text) :
    (s.setOverride c).fusion.overrideFor g = s.fusion.overrideFor g ∨
      (c.gateId = g ∧ c.kind.override = some ((s.setOverride c).fusion.overrideFor g)) := by
  unfold setOverride
  split
  · rename_i state hstate
    have hset := s.fusion.setOverride_overrideFor g c.gateId state
    by_cases hg : c.gateId = g
    · rw [if_pos hg, Option.getD_some] at hset
      rw [hstate]
      exact Or.inr ⟨hg,congrArg some hset.symm⟩
    · rw [if_neg hg, Option.getD_none] at hset
      exact Or.inl hset
  · exact Or.inl rfl

theorem updateOverride_calm (s : Services) (k : ℕ) :
    Calm s (.updateOverride k) (s.updateOverride k) := by
  unfold updateOverride
  split
  · rename_i c hcall
    obtain ⟨hlog,hnext,hdecisions,hstopped,hcalls⟩ := s.setOverride_frame c
    refine ⟨hlog,hnext,hdecisions,fun h => hstopped.trans h,?_,?_⟩
    · intro j
      by_cases hj : j = k
      · subst hj
        rw [setCall_self]
        exact Or.inr rfl
      · rw [setCall_other hj, hcalls]
        exact Or.inl rfl
    · intro g
      rcases s.overrideFor_setOverride c g with hsame | ⟨hg,hset⟩
      · exact Or.inl hsame
      · exact Or.inr ⟨k,c,rfl,hcall,hg,hset⟩
  · exact .refl s _

/-- What a step can do, said once. -/
theorem step_move (s : Services) (a : Input) : Move s a (s.step a) := by
  cases a with
  | submitDetection k req =>
    refine .calm (start_calm s _ k ?_)
    unfold submitDetection
    split
    · rfl
    · rfl
  | authorize k req =>
    refine .calm (start_calm s _ k ?_)
    unfold authorize
    split
    · rfl
    · split
      · rfl
      · rfl
  | issueCommand k req uuid now =>
    refine .calm (start_calm s _ k ?_)
    unfold issueCommand
    split
    · rfl
    · split
      · rfl
      · rfl
  | decide k uuid nowUnix nowLocal =>
    simp only [step, Services.decide]
    split
    · rename_i h
      exact .decide h rfl
    · rename_i h
      exact .judge h rfl
    · exact .calm (.refl s _)
  | updateOverride k => exact .calm (updateOverride_calm s k)
  | publishDecision k =>
    simp only [step, announce]
    split
    · rename_i h
      exact .announce h
    · rename_i h
      exact .report h
    · exact .calm (.refl s _)
  | publishCommand k uuid now =>
    simp only [step, Services.dispatch]
    split
    · rename_i h
      exact .dispatch h
    · rename_i h
      exact .issue h
    · exact .calm (.refl s _)
  | publishAck k now =>
    simp only [step, Services.acknowledge]
    split
    · rename_i h
      exact .acknowledge h
    · exact .calm (.refl s _)
  | store op => exact .calm { Calm.refl s (.store op) with override := fun _ => Or.inl rfl }
  | stop => exact .calm { Calm.refl s .stop with stopped := fun _ => rfl }

end AlprGate.ServerRpc.Services
