import AlprGate.Server.DispatchProvenance

/-! # A lockdown and the decisions before it

From the update of the override on, every decision for the gate is a denial. What can still
open the gate is a detection that was authorized before the update and whose command is
published after it.
-/
namespace AlprGate.ServerRpc
open Auth Fusion Transition
open JsonValue (ascii)

/-- The call goes on to publish an `OPEN_GATE` command for gate `g`. -/
def Call.Opens (g : Text) : Call → Prop
  | .decided frame d => d.verdict = .authorized ∧ frame.gateId = g
  | .announced frame _ => frame.gateId = g
  | _ => False

theorem Call.not_opens_of_awaits {g : Text} {c : Call} (h : c.awaits = none) : ¬ c.Opens g := by
  cases c with
  | decided frame d => cases h
  | announced frame d => cases h
  | judged req d => cases h
  | _ => exact id

namespace Services
variable {s t : Services} {a : Input} {g : Text}

/-- The step does not end the lockdown of gate `g`. -/
def KeepsLockdown (g : Text) (s : Services) : Input → Prop
  | .updateOverride k => ∀ c, s.call k = .stamped c → c.gateId = g →
    c.kind ≠ .latchOpen ∧ c.kind ≠ .releaseLatch
  | _ => True

/-- The gate is locked and no call is about to open it. -/
structure Locked (g : Text) (s : Services) : Prop where
  override : s.fusion.overrideFor g = .forceClose
  calls : s.stopped = true ∨ ∀ k, ¬ (s.call k).Opens g

theorem override_forceClose {c : GateCommand} (hopen : c.kind ≠ .latchOpen)
    (hrelease : c.kind ≠ .releaseLatch) {state : OverrideState} (h : c.kind.override = some state) :
    state = .forceClose := by
  cases hkind : c.kind with
  | latchOpen => exact absurd hkind hopen
  | releaseLatch => exact absurd hkind hrelease
  | latchClose =>
    rw [hkind] at h
    exact (Option.some.inj h).symm
  | _ =>
    rw [hkind] at h
    cases h

theorem Move.overrideFor (hmove : Move s a t) (hkeeps : KeepsLockdown g s a)
    (h : s.fusion.overrideFor g = .forceClose) : t.fusion.overrideFor g = .forceClose := by
  have hpublish : ∀ (handler : Handler) (siteId gateId : Text) (event : DashboardEvent),
      (s.publish handler siteId gateId event).fusion.overrideFor g = .forceClose := by
    intro handler siteId gateId event
    rw [(publish_frame s handler siteId gateId event).1]
    exact h
  cases hmove with
  | calm hcalm =>
    rcases hcalm.override g with hsame | ⟨k,c,ha,hcall,hgate,hset⟩
    · exact hsame.trans h
    · subst ha
      obtain ⟨hopen,hrelease⟩ := hkeeps c hcall hgate
      exact override_forceClose hopen hrelease hset
  | decide hcall hd => exact h
  | judge hcall hd => exact h
  | announce hcall => exact hpublish ..
  | report hcall => exact hpublish ..
  | dispatch hcall => exact hpublish ..
  | issue hcall => exact hpublish ..
  | acknowledge hcall => exact hpublish ..

/-- Under a lockdown no call comes to open the gate. -/
theorem Move.opens (hmove : Move s a t) (h : s.fusion.overrideFor g = .forceClose) {k : ℕ}
    (hk : (t.call k).Opens g) : (s.call k).Opens g := by
  cases hmove.fate k with
  | kept hsame => rwa [hsame] at hk
  | emptied hnone => exact absurd hk (Call.not_opens_of_awaits hnone)
  | decided hafter hgate hlockdown hdecisions hothers =>
    rw [hafter] at hk
    obtain ⟨hverdict,rfl⟩ := hk
    rw [hlockdown h] at hverdict
    cases hverdict
  | judged hafter hdecisions hothers =>
    rw [hafter] at hk
    exact absurd hk id
  | announced hbefore hafter hverdict hposted =>
    rw [hafter] at hk
    rw [hbefore]
    exact ⟨hverdict,hk⟩

theorem Locked.step (h : Locked g s) (hmove : Move s a t) (hkeeps : KeepsLockdown g s a) :
    Locked g t where
  override := hmove.overrideFor hkeeps h.override
  calls := by
    rcases h.calls with hstopped | hcalls
    · exact Or.inl (hmove.stopped hstopped)
    · exact Or.inr fun k hk => hcalls k (hmove.opens h.override hk)

/-- Under a lockdown nothing is published that opens the gate. -/
theorem Locked.log (h : Locked g s) (hmove : Move s a t) :
    ∃ new, t.log = s.log ++ new ∧ ∀ e ∈ new, ∀ c, e.AutoOpen c → c.gateId ≠ g := by
  rcases hmove.log with ⟨hlog,_⟩ | ⟨e,hlog,_,_,hrunning,hposts⟩
  · exact ⟨[],by rw [hlog, List.append_nil],fun e he => absurd he List.not_mem_nil⟩
  · refine ⟨[e],hlog,?_⟩
    intro e' he' c hauto hgate
    rw [List.mem_singleton.mp he'] at hauto
    obtain ⟨k,frame,d,hk,_,hframe,_⟩ := hposts.autoOpen hauto
    rcases h.calls with hstopped | hcalls
    · exact Bool.false_ne_true (hrunning.symm.trans hstopped)
    · refine hcalls k ?_
      rw [hk]
      exact hframe.symm.trans hgate

theorem locked_exec (h : Locked g s) {as : List Input}
    (hkeeps : AllSteps step (KeepsLockdown g) s as) :
    ∃ new, (exec step s as).log = s.log ++ new ∧
      ∀ e ∈ new, ∀ c, e.AutoOpen c → c.gateId ≠ g := by
  induction as generalizing s with
  | nil => exact ⟨[],(List.append_nil _).symm,fun e he => absurd he List.not_mem_nil⟩
  | cons a as ih =>
    have hmove := step_move s a
    obtain ⟨new,hnew,hfree⟩ := h.log hmove
    obtain ⟨later,hlater,hfree'⟩ := ih (h.step hmove hkeeps.1) hkeeps.2
    refine ⟨new ++ later,?_,?_⟩
    · rw [exec_cons, hlater, hnew, List.append_assoc]
    · intro e he
      rcases List.mem_append.mp he with he | he
      · exact hfree e he
      · exact hfree' e he

/-- The override of a gate after its latch command. -/
theorem overrideFor_latchClose {k : ℕ} {c : GateCommand} (hcall : s.call k = .stamped c)
    (hkind : c.kind = .latchClose) :
    (s.step (.updateOverride k)).fusion.overrideFor c.gateId = .forceClose := by
  have hset := s.fusion.setOverride_overrideFor c.gateId c.gateId .forceClose
  rw [if_pos rfl, Option.getD_some] at hset
  simp only [step, updateOverride, hcall, setOverride, hkind, CommandKind.override, setCall]
  exact hset

/-- A detection that has been announced on a running bus gets its command. -/
theorem dispatch_posts {j : ℕ} {frame : DetectionFrame} {d : AuthDecision}
    (hcall : s.call j = .announced frame d) (hrunning : s.stopped = false) :
    ∃ e c, (s.step (.publishCommand j [] 0)).log = s.log ++ [e] ∧ e.AutoOpen c ∧
      c.gateId = frame.gateId := by
  refine ⟨⟨s.nextEventId,s.defaultSiteId,frame.gateId,.command (openCommand frame d [] 0),
    .submitDetection⟩,openCommand frame d [] 0,?_,⟨Handler.noConfusion,rfl,rfl⟩,rfl⟩
  simp [step, Services.dispatch, hcall, publishCommand, publish, hrunning, setCall, openCommand]

theorem announce_posts {j : ℕ} {frame : DetectionFrame} {d : AuthDecision}
    (hcall : s.call j = .decided frame d) (hverdict : d.verdict = .authorized)
    (hrunning : s.stopped = false) :
    (s.step (.publishDecision j)).call j = .announced frame d ∧
      (s.step (.publishDecision j)).stopped = false ∧
      ∃ e, (s.step (.publishDecision j)).log = s.log ++ [e] := by
  simp [step, announce, hcall, publishDecision, publish, hrunning, setCall, afterDecision,
    hverdict]

/-- Whatever call is about to open the gate can still do so. -/
theorem opens_posts {j : ℕ} (hj : (s.call j).Opens g) (hrunning : s.stopped = false) :
    ∃ after, AllSteps step (KeepsLockdown g) s after ∧
      ∃ new, (exec step s after).log = s.log ++ new ∧
        ∃ e ∈ new, ∃ c, e.AutoOpen c ∧ c.gateId = g := by
  cases hcall : s.call j with
  | decided frame d =>
    rw [hcall] at hj
    obtain ⟨hverdict,rfl⟩ := hj
    obtain ⟨hannounced,hrunning',e,hlog⟩ := announce_posts hcall hverdict hrunning
    obtain ⟨e',c,hlog',hauto,hgate⟩ := dispatch_posts hannounced hrunning'
    refine ⟨[.publishDecision j, .publishCommand j [] 0],⟨trivial,trivial,trivial⟩,[e, e'],?_,
      e',List.mem_cons_of_mem _ List.mem_cons_self,c,hauto,hgate⟩
    rw [exec_cons, exec_cons, exec_nil, hlog', hlog]
    simp
  | announced frame d =>
    rw [hcall] at hj
    obtain ⟨e,c,hlog,hauto,hgate⟩ := dispatch_posts hcall hrunning
    exact ⟨[.publishCommand j [] 0],⟨trivial,trivial⟩,[e],hlog,e,List.mem_cons_self,c,hauto,
      hgate.trans hj⟩
  | _ =>
    rw [hcall] at hj
    exact absurd hj id

/-- A lockdown that takes effect in state `p` holds, in every run that does not end it, against
automatic commands exactly when the bus is stopped or no detection for the gate stands between
its authorized decision and its command. -/
theorem lockdown_holds_iff {p : Services} {k : ℕ} {c : GateCommand}
    (hcall : p.call k = .stamped c) (hkind : c.kind = .latchClose) :
    (∀ after, AllSteps step (KeepsLockdown c.gateId) (p.step (.updateOverride k)) after →
      ∀ e ∈ (exec step (p.step (.updateOverride k)) after).log.drop p.log.length,
        ∀ c', e.AutoOpen c' → c'.gateId ≠ c.gateId) ↔
    (p.stopped = true ∨ ∀ j, ¬ (p.call j).Opens c.gateId) := by
  have hcalm : Calm p (.updateOverride k) (p.step (.updateOverride k)) := updateOverride_calm p k
  have hcalls : ∀ j, j ≠ k → (p.step (.updateOverride k)).call j = p.call j := by
    intro j hj
    simp only [step, updateOverride, hcall, setCall_other hj, (p.setOverride_frame c).2.2.2.2]
  have hstopped : (p.step (.updateOverride k)).stopped = p.stopped := by
    simp only [step, updateOverride, hcall, setCall, (p.setOverride_frame c).2.2.2.1]
  constructor
  · intro hholds
    by_contra hnot
    obtain ⟨hrunning,hopens⟩ := not_or.mp hnot
    obtain ⟨j,hj⟩ := not_forall.mp hopens
    have hopen := not_not.mp hj
    have hjk : j ≠ k := by
      rintro rfl
      rw [hcall] at hopen
      exact hopen
    rw [← hcalls j hjk] at hopen
    obtain ⟨after,hkeeps,new,hlog,e,he,c',hauto,hgate⟩ :=
      opens_posts hopen (hstopped.trans (Bool.eq_false_of_not_eq_true hrunning))
    refine hholds after hkeeps e ?_ c' hauto hgate
    rw [hlog, hcalm.log, List.drop_left]
    exact he
  · intro hsafe after hkeeps e he
    have hlocked : Locked c.gateId (p.step (.updateOverride k)) := by
      refine ⟨overrideFor_latchClose hcall hkind,?_⟩
      rcases hsafe with hbus | hcallers
      · exact Or.inl (hstopped.trans hbus)
      · refine Or.inr fun j hj => ?_
        rcases hcalm.call j with hsame | hnone
        · exact hcallers j (hsame ▸ hj)
        · exact Call.not_opens_of_awaits hnone hj
    obtain ⟨new,hlog,hfree⟩ := locked_exec hlocked hkeeps
    rw [hlog, hcalm.log, List.drop_left] at he
    exact hfree e he

/-- A lockdown of gate `g`. -/
def latchClose : GateCommand := { gateId := ascii "g", kind := .latchClose }

/-- With no detection under way the lockdown holds. -/
theorem lockdown_holds_when_idle :
    let p := exec step (boot {} []) [.issueCommand 0 latchClose [1] 7]
    ∀ after, AllSteps step (KeepsLockdown (ascii "g")) (p.step (.updateOverride 0)) after →
      ∀ e ∈ (exec step (p.step (.updateOverride 0)) after).log.drop p.log.length,
        ∀ c', e.AutoOpen c' → c'.gateId ≠ ascii "g" := by
  intro p
  have hcall : p.call 0 = .stamped (latchClose.stamp [1] 7) := rfl
  refine (lockdown_holds_iff hcall rfl).mpr (Or.inr ?_)
  intro j hj
  cases j with
  | zero => exact hj
  | succ j => exact hj

/-- A detection is authorized, the lockdown takes effect, and the command of the detection
follows it onto the bus. -/
theorem lockdown_overtaken :
    let p := exec step (boot {} [])
      [.store (.upsert [] [{ plateText := ascii "AB1" }]), .submitDetection 0 plateAtGate,
        .decide 0 [1] 0 ⟨0,0,0⟩, .issueCommand 1 latchClose [2] 7]
    let q := exec step (p.step (.updateOverride 1)) [.publishDecision 0, .publishCommand 0 [3] 8]
    p.call 1 = .stamped (latchClose.stamp [2] 7) ∧
      (p.step (.updateOverride 1)).fusion.overrideFor (ascii "g") = .forceClose ∧
      q.fusion.overrideFor (ascii "g") = .forceClose ∧
      ∃ e ∈ q.log.drop p.log.length, e.handler = .submitDetection ∧
        e.event = .command ⟨[3],some 8,ascii "g",.openGate,autoActor [1]⟩ := by
  decide +kernel

end Services
end AlprGate.ServerRpc
