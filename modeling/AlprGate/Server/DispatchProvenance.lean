import AlprGate.Server.Dispatch

/-! # Where an automatic command comes from

A call that has decided holds its decision until it has published what follows from it. No
two calls hold the same decision, and a decision is given up with the command that it
causes. So a command on the bus that no guard has issued stands behind its own authorized
decision.
-/
namespace AlprGate.ServerRpc
open Auth Fusion Transition
open JsonValue (ascii)

/-- An `OPEN_GATE` command on the bus that `IssueCommand` has not published. -/
def Posted.AutoOpen (e : Posted) (c : GateCommand) : Prop :=
  e.handler ≠ .issueCommand ∧ e.event = .command c ∧ c.kind = .openGate

/-- An authorized decision for the gate of the command, named by the command's actor. -/
def Warrants (d : AuthDecision) (c : GateCommand) : Prop :=
  d.verdict = .authorized ∧ d.gateId = c.gateId ∧ c.actor = autoActor d.decisionId

namespace Services
variable {s t : Services} {a : Input}

/-- What a step makes of a call that holds a decision afterwards. -/
inductive Fate (s t : Services) (j : ℕ) : Prop
  | kept (h : t.call j = s.call j)
  | emptied (h : (t.call j).awaits = none)
  | decided {frame : DetectionFrame} {d : AuthDecision} (hafter : t.call j = .decided frame d)
      (hgate : d.gateId = frame.gateId)
      (hlockdown : s.fusion.overrideFor frame.gateId = .forceClose → d.verdict = .denied)
      (hdecisions : t.decisions = s.decisions ++ [d]) (hothers : ∀ i, i ≠ j → t.call i = s.call i)
  | judged {req : AuthorizeRequest} {d : AuthDecision} (hafter : t.call j = .judged req d)
      (hdecisions : t.decisions = s.decisions ++ [d]) (hothers : ∀ i, i ≠ j → t.call i = s.call i)
  | announced {frame : DetectionFrame} {d : AuthDecision} (hbefore : s.call j = .decided frame d)
      (hafter : t.call j = .announced frame d) (hverdict : d.verdict = .authorized)
      (hposted : t.stopped = true ∨ ∃ e ∈ t.log, e.event = .decision d)

/-- One call moves. -/
theorem Fate.update {k : ℕ} {c : Call} (ht : t.call = Function.update s.call k c)
    (hc : t.call k = c → Fate s t k) (j : ℕ) : Fate s t j := by
  by_cases hj : j = k
  · subst hj
    exact hc (by rw [ht, Function.update_self])
  · exact .kept (by rw [ht, Function.update_of_ne hj])

/-- A call that publishes and then holds nothing. -/
theorem Fate.publish (handler : Handler) (siteId gateId : Text) (event : DashboardEvent) (k : ℕ)
    {c : Call} (hc : c.awaits = none) (j : ℕ) :
    Fate s ((s.publish handler siteId gateId event).setCall k c) j := by
  refine .update (k:=k) (c:=c) ?_ (fun h => .emptied (by rw [h, hc])) j
  rw [setCall, (publish_frame s handler siteId gateId event).2.2.1]

theorem announce_fate {k : ℕ} {frame : DetectionFrame} {d : AuthDecision}
    (hcall : s.call k = .decided frame d) (j : ℕ) :
    Fate s ((s.publishDecision .submitDetection s.defaultSiteId d).setCall k
      (afterDecision frame d)) j := by
  unfold afterDecision
  split
  · rename_i hverdict
    refine .update (k:=k) (c:=.announced frame d) ?_ ?_ j
    · rw [setCall, publishDecision, (publish_frame ..).2.2.1]
    · intro hafter
      refine .announced hcall hafter hverdict ?_
      rcases publish_log s .submitDetection s.defaultSiteId d.gateId (.decision d) with
        ⟨hstopped,_⟩ | ⟨_,_,hlog⟩
      · exact Or.inl ((publish_frame ..).2.1.trans hstopped)
      · exact Or.inr ⟨_,hlog ▸ List.mem_append_right _ List.mem_cons_self,rfl⟩
  · exact .publish _ _ _ _ _ rfl j

theorem Move.fate (hmove : Move s a t) (j : ℕ) : Fate s t j := by
  cases hmove with
  | calm hcalm =>
    rcases hcalm.call j with hsame | hnone
    · exact .kept hsame
    · exact .emptied hnone
  | @decide k frame d uuid nowUnix nowLocal hcall hd =>
    refine .update (k:=k) (c:=.decided frame d) rfl ?_ j
    intro hafter
    refine .decided hafter ?_ ?_ rfl fun i hi => setCall_other hi
    · rw [hd]
      exact (FusionEngine.decideAt_frame ..).2
    · intro hclosed
      rw [hd]
      exact FusionEngine.decideAt_forceClose _ _ _ _ _ hclosed
  | @judge k req d uuid nowUnix nowLocal hcall hd =>
    refine .update (k:=k) (c:=.judged req d) rfl ?_ j
    exact fun hafter => .judged hafter rfl fun i hi => setCall_other hi
  | announce hcall => exact announce_fate hcall j
  | report hcall => exact .publish _ _ _ _ _ rfl j
  | dispatch hcall => exact .publish _ _ _ _ _ rfl j
  | issue hcall => exact .publish _ _ _ _ _ rfl j
  | acknowledge hcall => exact .publish _ _ _ _ _ rfl j

/-- A call comes to hold a decision by taking it. -/
theorem Move.awaits (hmove : Move s a t) {j : ℕ} {d : AuthDecision}
    (h : (t.call j).awaits = some d) :
    (s.call j).awaits = some d ∨
      (t.decisions = s.decisions ++ [d] ∧ ∀ i, i ≠ j → t.call i = s.call i) := by
  cases hmove.fate j with
  | kept hsame =>
    rw [hsame] at h
    exact Or.inl h
  | emptied hnone =>
    rw [hnone] at h
    cases h
  | decided hafter hgate hlockdown hdecisions hothers =>
    rw [hafter] at h
    cases h
    exact Or.inr ⟨hdecisions,hothers⟩
  | judged hafter hdecisions hothers =>
    rw [hafter] at h
    cases h
    exact Or.inr ⟨hdecisions,hothers⟩
  | announced hbefore hafter hverdict hposted =>
    rw [hafter] at h
    cases h
    rw [hbefore]
    exact Or.inl rfl

theorem Move.decisions (hmove : Move s a t) :
    t.decisions = s.decisions ∨ ∃ d, t.decisions = s.decisions ++ [d] := by
  cases hmove with
  | calm hcalm => exact Or.inl hcalm.decisions
  | decide hcall hd => exact Or.inr ⟨_,rfl⟩
  | judge hcall hd => exact Or.inr ⟨_,rfl⟩
  | announce hcall => exact Or.inl (publish_frame ..).2.2.2
  | report hcall => exact Or.inl (publish_frame ..).2.2.2
  | dispatch hcall => exact Or.inl (publish_frame ..).2.2.2
  | issue hcall => exact Or.inl (publish_frame ..).2.2.2
  | acknowledge hcall => exact Or.inl (publish_frame ..).2.2.2

theorem Move.stopped (hmove : Move s a t) (h : s.stopped = true) : t.stopped = true := by
  cases hmove with
  | calm hcalm => exact hcalm.stopped h
  | decide hcall hd => exact h
  | judge hcall hd => exact h
  | announce hcall => exact (publish_frame ..).2.1.trans h
  | report hcall => exact (publish_frame ..).2.1.trans h
  | dispatch hcall => exact (publish_frame ..).2.1.trans h
  | issue hcall => exact (publish_frame ..).2.1.trans h
  | acknowledge hcall => exact (publish_frame ..).2.1.trans h

/-- What can be put on the bus: a decision that is held, the command of an announced
decision, which is then given up, or something of `IssueCommand`. -/
inductive Posts (s t : Services) (e : Posted) : Prop
  | decision {k : ℕ} {d : AuthDecision} (hevent : e.event = .decision d)
      (h : (s.call k).awaits = some d)
  | command {k : ℕ} {frame : DetectionFrame} {d : AuthDecision} {uuid : Text} {now : ℤ}
      (hevent : e.event = .command (openCommand frame d uuid now))
      (h : s.call k = .announced frame d) (hk : (t.call k).awaits = none)
  | issued (hhandler : e.handler = .issueCommand) (hevent : ∀ d, e.event ≠ .decision d)

/-- A step keeps the log, or appends one event under the next id to that of a running bus. -/
theorem Move.log (hmove : Move s a t) :
    (t.log = s.log ∧ t.nextEventId = s.nextEventId) ∨
    ∃ e, t.log = s.log ++ [e] ∧ e.eventId = s.nextEventId ∧ t.nextEventId = s.nextEventId + 1 ∧
      s.stopped = false ∧ Posts s t e := by
  have hpublish : ∀ (handler : Handler) (siteId gateId : Text) (event : DashboardEvent) (k : ℕ)
      (c : Call), Posts s ((s.publish handler siteId gateId event).setCall k c)
        ⟨s.nextEventId,siteId,gateId,event,handler⟩ →
      (((s.publish handler siteId gateId event).setCall k c).log = s.log ∧
        ((s.publish handler siteId gateId event).setCall k c).nextEventId = s.nextEventId) ∨
      ∃ e, ((s.publish handler siteId gateId event).setCall k c).log = s.log ++ [e] ∧
        e.eventId = s.nextEventId ∧
        ((s.publish handler siteId gateId event).setCall k c).nextEventId = s.nextEventId + 1 ∧
        s.stopped = false ∧ Posts s ((s.publish handler siteId gateId event).setCall k c) e := by
    intro handler siteId gateId event k c hposts
    rcases publish_log s handler siteId gateId event with ⟨_,hsame⟩ | ⟨hrunning,hnext,hlog⟩
    · rw [hsame]
      exact Or.inl ⟨rfl,rfl⟩
    · exact Or.inr ⟨_,hlog,rfl,hnext,hrunning,hposts⟩
  cases hmove with
  | calm hcalm => exact Or.inl ⟨hcalm.log,hcalm.nextEventId⟩
  | decide hcall hd => exact Or.inl ⟨rfl,rfl⟩
  | judge hcall hd => exact Or.inl ⟨rfl,rfl⟩
  | @announce k frame d hcall =>
    exact hpublish _ _ _ _ _ _ (.decision (k:=k) rfl (by rw [hcall]; rfl))
  | @report k req d hcall =>
    exact hpublish _ _ _ _ _ _ (.decision (k:=k) rfl (by rw [hcall]; rfl))
  | dispatch hcall =>
    exact hpublish _ _ _ _ _ _ (.command rfl hcall (by rw [setCall_self]; rfl))
  | issue hcall => exact hpublish _ _ _ _ _ _ (.issued rfl fun d h => by cases h)
  | acknowledge hcall => exact hpublish _ _ _ _ _ _ (.issued rfl fun d h => by cases h)

/-- Calls, the decisions they hold, and the decisions on the bus. -/
structure Tracked (s : Services) : Prop where
  below : ∀ e ∈ s.log, e.eventId < s.nextEventId
  awaited : ∀ k d, (s.call k).awaits = some d → d ∈ s.decisions
  sole : ∀ k k' d, (s.call k).awaits = some d → (s.call k').awaits = some d → k = k'
  posted : ∀ e ∈ s.log, ∀ d, e.event = .decision d → d ∈ s.decisions
  decided : ∀ k frame d, s.call k = .decided frame d → d.gateId = frame.gateId
  announced : ∀ k frame d, s.call k = .announced frame d → d.gateId = frame.gateId ∧
    d.verdict = .authorized ∧ (s.stopped = true ∨ ∃ e ∈ s.log, e.event = .decision d)

section Tracked

theorem Move.mem_decisions (hmove : Move s a t) {d : AuthDecision} (h : d ∈ s.decisions) :
    d ∈ t.decisions := by
  rcases hmove.decisions with hsame | ⟨d',hnew⟩
  · rwa [hsame]
  · rw [hnew]
    exact List.mem_append_left _ h

theorem Move.mem_log (hmove : Move s a t) {e : Posted} (h : e ∈ s.log) : e ∈ t.log := by
  rcases hmove.log with ⟨hsame,_⟩ | ⟨e',hnew,_⟩
  · rwa [hsame]
  · rw [hnew]
    exact List.mem_append_left _ h

/-- Ids that differ at the end of a step tell decisions apart. -/
theorem eq_of_decisionId {decisions : List AuthDecision}
    (hids : (decisions.map AuthDecision.decisionId).Nodup) {d d' : AuthDecision}
    (hd : d ∈ decisions) (hd' : d' ∈ decisions) (h : d.decisionId = d'.decisionId) : d = d' :=
  List.inj_on_of_nodup_map hids hd hd' h

theorem Tracked.sole_step (h : Tracked s) (hmove : Move s a t)
    (hids : (t.decisions.map AuthDecision.decisionId).Nodup) (k k' : ℕ) (d : AuthDecision)
    (hk : (t.call k).awaits = some d) (hk' : (t.call k').awaits = some d) : k = k' := by
  -- A decision that has just been taken was held by nobody.
  have hnew : t.decisions = s.decisions ++ [d] → ∀ i, (s.call i).awaits ≠ some d := by
    intro hdecisions i hi
    have hold := h.awaited i d hi
    rw [hdecisions, List.map_append] at hids
    exact (List.nodup_append.mp hids).2.2 d.decisionId (List.mem_map_of_mem hold) d.decisionId
      List.mem_cons_self rfl
  rcases hmove.awaits hk with hs | ⟨hdecisions,hothers⟩
  · rcases hmove.awaits hk' with hs' | ⟨hdecisions,_⟩
    · exact h.sole k k' d hs hs'
    · exact absurd hs (hnew hdecisions k)
  · by_contra hne
    have hsame := hothers k' (Ne.symm hne)
    rw [hsame] at hk'
    exact hnew hdecisions k' hk'

theorem Tracked.step (h : Tracked s) (hmove : Move s a t)
    (hids : (t.decisions.map AuthDecision.decisionId).Nodup) : Tracked t where
  below := by
    intro e he
    rcases hmove.log with ⟨hlog,hnext⟩ | ⟨e',hlog,hid,hnext,_⟩
    · rw [hnext]
      exact h.below e (hlog ▸ he)
    · rw [hlog] at he
      rw [hnext]
      rcases List.mem_append.mp he with he | he
      · exact Nat.lt_succ_of_lt (h.below e he)
      · rw [List.mem_singleton.mp he, hid]
        exact Nat.lt_succ_self _
  awaited := by
    intro k d hk
    rcases hmove.awaits hk with hs | ⟨hdecisions,_⟩
    · exact hmove.mem_decisions (h.awaited k d hs)
    · rw [hdecisions]
      exact List.mem_append_right _ List.mem_cons_self
  sole := h.sole_step hmove hids
  posted := by
    intro e he d hd
    refine hmove.mem_decisions ?_
    rcases hmove.log with ⟨hlog,_⟩ | ⟨e',hlog,_,_,_,hposts⟩
    · exact h.posted e (hlog ▸ he) d hd
    · rw [hlog] at he
      rcases List.mem_append.mp he with he | he
      · exact h.posted e he d hd
      · rw [List.mem_singleton.mp he] at hd
        cases hposts with
        | @decision k d' hevent hk =>
          cases hevent.symm.trans hd
          exact h.awaited k d hk
        | command hevent hk hempty => cases hevent.symm.trans hd
        | issued hhandler hevent => exact absurd hd (hevent d)
  decided := by
    intro k frame d hk
    cases hmove.fate k with
    | kept hsame => exact h.decided k frame d (hsame.symm.trans hk)
    | emptied hnone =>
      rw [hk] at hnone
      cases hnone
    | decided hafter hgate hlockdown hdecisions hothers =>
      cases hafter.symm.trans hk
      exact hgate
    | judged hafter hdecisions hothers => cases hafter.symm.trans hk
    | announced hbefore hafter hverdict hposted => cases hafter.symm.trans hk
  announced := by
    intro k frame d hk
    cases hmove.fate k with
    | kept hsame =>
      obtain ⟨hgate,hverdict,hposted⟩ := h.announced k frame d (hsame.symm.trans hk)
      refine ⟨hgate,hverdict,hposted.imp hmove.stopped ?_⟩
      rintro ⟨e,he,hd⟩
      exact ⟨e,hmove.mem_log he,hd⟩
    | emptied hnone =>
      rw [hk] at hnone
      cases hnone
    | decided hafter hgate hlockdown hdecisions hothers => cases hafter.symm.trans hk
    | judged hafter hdecisions hothers => cases hafter.symm.trans hk
    | announced hbefore hafter hverdict hposted =>
      cases hafter.symm.trans hk
      exact ⟨h.decided k frame d hbefore,hverdict,hposted⟩

end Tracked

/-- Every automatic command has its own decision before it on the bus, and nobody holds that
decision any more. -/
structure Warranted (s : Services) : Prop where
  caused : ∀ e ∈ s.log, ∀ c, e.AutoOpen c → ∃ e' ∈ s.log, e'.eventId < e.eventId ∧
    ∃ d, e'.event = .decision d ∧ Warrants d c
  spent : ∀ e ∈ s.log, ∀ c, e.AutoOpen c → ∀ k d, (s.call k).awaits = some d →
    c.actor ≠ autoActor d.decisionId
  distinct : s.log.Pairwise fun e e' => ∀ c c', e.AutoOpen c → e'.AutoOpen c' → c.actor ≠ c'.actor

/-- The only automatic commands are those of announced decisions. -/
theorem Posts.autoOpen {e : Posted} (h : Posts s t e) {c : GateCommand} (hauto : e.AutoOpen c) :
    ∃ k frame d, s.call k = .announced frame d ∧ (t.call k).awaits = none ∧
      c.gateId = frame.gateId ∧ c.actor = autoActor d.decisionId := by
  obtain ⟨hhandler,hevent,_⟩ := hauto
  cases h with
  | decision hdecision hk => cases hdecision.symm.trans hevent
  | @command k frame d uuid now hcommand hk hempty =>
    cases hcommand.symm.trans hevent
    exact ⟨k,frame,d,hk,hempty,rfl,rfl⟩
  | issued hissued _ => exact absurd hissued hhandler

/-- An automatic command names a decision on record. -/
theorem Warranted.named (h : Warranted s) (ht : Tracked s) {e : Posted} (he : e ∈ s.log)
    {c : GateCommand} (hauto : e.AutoOpen c) :
    ∃ d ∈ s.decisions, d.verdict = .authorized ∧ c.actor = autoActor d.decisionId := by
  obtain ⟨e',he',_,d,hd,hverdict,_,hactor⟩ := h.caused e he c hauto
  exact ⟨d,ht.posted e' he' d hd,hverdict,hactor⟩

theorem Warranted.spent_step (h : Warranted s) (ht : Tracked s) (hmove : Move s a t)
    (hids : (t.decisions.map AuthDecision.decisionId).Nodup) {e : Posted} (he : e ∈ t.log)
    {c : GateCommand} (hauto : e.AutoOpen c) (k : ℕ) (d : AuthDecision)
    (hk : (t.call k).awaits = some d) : c.actor ≠ autoActor d.decisionId := by
  intro hactor
  have ht' := ht.step hmove hids
  have hold : e ∈ s.log → False := by
    intro he
    rcases hmove.awaits hk with hs | ⟨hdecisions,_⟩
    · exact h.spent e he c hauto k d hs hactor
    · -- The command names an older decision, and the new one has an id of its own.
      obtain ⟨d',hd',_,hactor'⟩ := h.named ht he hauto
      have hid := autoActor_injective (hactor.symm.trans hactor')
      rw [hdecisions, List.map_append] at hids
      exact (List.nodup_append.mp hids).2.2 d'.decisionId (List.mem_map_of_mem hd') d.decisionId
        List.mem_cons_self hid.symm
  rcases hmove.log with ⟨hlog,_⟩ | ⟨e',hlog,_,_,_,hposts⟩
  · exact hold (hlog ▸ he)
  · rw [hlog] at he
    rcases List.mem_append.mp he with he | he
    · exact hold he
    · rw [List.mem_singleton.mp he] at hauto
      obtain ⟨j,frame,d',hj,hempty,_,hactor'⟩ := hposts.autoOpen hauto
      have hawaits : (s.call j).awaits = some d' := by rw [hj]; rfl
      have hid := autoActor_injective (hactor.symm.trans hactor')
      have hsame := eq_of_decisionId hids (ht'.awaited k d hk)
        (hmove.mem_decisions (ht.awaited j d' hawaits)) hid
      subst hsame
      rcases hmove.awaits hk with hs | ⟨_,hothers⟩
      · rw [ht.sole k j d hs hawaits, hempty] at hk
        cases hk
      · by_cases hjk : j = k
        · rw [hjk, hk] at hempty
          cases hempty
        · rw [hothers j hjk, hawaits] at hempty
          cases hempty

theorem Warranted.step (h : Warranted s) (ht : Tracked s) (hmove : Move s a t)
    (hids : (t.decisions.map AuthDecision.decisionId).Nodup) : Warranted t where
  caused := by
    intro e he c hauto
    have hold : e ∈ s.log → ∃ e' ∈ t.log, e'.eventId < e.eventId ∧
        ∃ d, e'.event = .decision d ∧ Warrants d c := by
      intro he
      obtain ⟨e',he',hlt,hd⟩ := h.caused e he c hauto
      exact ⟨e',hmove.mem_log he',hlt,hd⟩
    rcases hmove.log with ⟨hlog,_⟩ | ⟨new,hlog,hid,_,hrunning,hposts⟩
    · exact hold (hlog ▸ he)
    · rw [hlog] at he
      rcases List.mem_append.mp he with he | he
      · exact hold he
      · rw [List.mem_singleton.mp he] at hauto ⊢
        obtain ⟨k,frame,d,hk,_,hgate,hactor⟩ := hposts.autoOpen hauto
        obtain ⟨hframe,hverdict,hposted⟩ := ht.announced k frame d hk
        rcases hposted with hstopped | ⟨e',he',hd⟩
        · exact absurd (hrunning.symm.trans hstopped) Bool.false_ne_true
        · refine ⟨e',hmove.mem_log he',?_,d,hd,hverdict,hframe.trans hgate.symm,hactor⟩
          rw [hid]
          exact ht.below e' he'
  spent := fun _ he _ hauto => h.spent_step ht hmove hids he hauto
  distinct := by
    rcases hmove.log with ⟨hlog,_⟩ | ⟨new,hlog,_,_,_,hposts⟩
    · rw [hlog]
      exact h.distinct
    · rw [hlog]
      refine List.pairwise_append.mpr ⟨h.distinct,List.pairwise_singleton _ _,?_⟩
      intro e he e' he' c c' hauto hauto'
      rw [List.mem_singleton.mp he'] at hauto'
      obtain ⟨k,frame,d,hk,_,_,hactor⟩ := hposts.autoOpen hauto'
      rw [hactor]
      exact h.spent e he c hauto k d (by rw [hk]; rfl)

theorem Tracked.boot (fusion : FusionEngine) (defaultSiteId : Text) :
    Tracked (boot fusion defaultSiteId) where
  below := fun _ he => absurd he List.not_mem_nil
  awaited := fun _ _ h => by cases h
  sole := fun _ _ _ h => by cases h
  posted := fun _ he => absurd he List.not_mem_nil
  decided := fun _ _ _ h => by cases h
  announced := fun _ _ _ h => by cases h

theorem Warranted.boot (fusion : FusionEngine) (defaultSiteId : Text) :
    Warranted (boot fusion defaultSiteId) where
  caused := fun _ he => absurd he List.not_mem_nil
  spent := fun _ he => absurd he List.not_mem_nil
  distinct := List.Pairwise.nil

theorem decisions_sublist (s : Services) (as : List Input) :
    s.decisions.Sublist (exec step s as).decisions := by
  induction as generalizing s with
  | nil => exact List.Sublist.refl _
  | cons a as ih =>
    refine List.Sublist.trans ?_ (ih (s.step a))
    rcases (step_move s a).decisions with hsame | ⟨d,hnew⟩
    · rw [hsame]
    · rw [hnew]
      exact List.sublist_append_left _ _

theorem warranted_exec {s : Services} (ht : Tracked s) (h : Warranted s) (as : List Input)
    (hids : ((exec step s as).decisions.map AuthDecision.decisionId).Nodup) :
    Tracked (exec step s as) ∧ Warranted (exec step s as) := by
  induction as generalizing s with
  | nil => exact ⟨ht,h⟩
  | cons a as ih =>
    have hnodup : ((s.step a).decisions.map AuthDecision.decisionId).Nodup :=
      hids.sublist ((decisions_sublist (s.step a) as).map _)
    have hmove := step_move s a
    exact ih (ht.step hmove hnodup) (h.step ht hmove hnodup) hids

/-- In every run in which the generated decision ids are distinct, every `OPEN_GATE` command
on the bus that `IssueCommand` has not published stands behind an authorized decision for its
gate, which its actor names; two such commands name different decisions; and no decision on
the bus with another verdict is named. -/
theorem auto_commands_traceable (fusion : FusionEngine) (defaultSiteId : Text) (as : List Input)
    {s : Services} (hs : exec step (boot fusion defaultSiteId) as = s)
    (hids : (s.decisions.map AuthDecision.decisionId).Nodup) :
    (∀ e ∈ s.log, ∀ c, e.AutoOpen c → ∃ e' ∈ s.log, e'.eventId < e.eventId ∧
      ∃ d, e'.event = .decision d ∧ Warrants d c) ∧
    (s.log.Pairwise fun e e' => ∀ c c', e.AutoOpen c → e'.AutoOpen c' → c.actor ≠ c'.actor) ∧
    (∀ e ∈ s.log, ∀ d, e.event = .decision d → d.verdict ≠ .authorized →
      ∀ e' ∈ s.log, ∀ c, e'.AutoOpen c → c.actor ≠ autoActor d.decisionId) := by
  have hrun : Tracked s ∧ Warranted s := by
    rw [← hs] at hids ⊢
    exact warranted_exec (.boot fusion defaultSiteId) (.boot fusion defaultSiteId) as hids
  obtain ⟨ht,h⟩ := hrun
  refine ⟨h.caused,h.distinct,?_⟩
  intro e he d hd hverdict e' he' c hauto hactor
  obtain ⟨d',hd',hverdict',hactor'⟩ := h.named ht he' hauto
  have hid := autoActor_injective (hactor.symm.trans hactor')
  rw [eq_of_decisionId hids (ht.posted e he d hd) hd' hid] at hverdict
  exact hverdict hverdict'

/-- The detection of an allowlisted plate at gate `g`. -/
def plateAtGate : DetectionFrame where
  gateId := ascii "g"
  plates := [⟨ascii "ab 1",1,1⟩]
  vehicles := [⟨.sedan,1⟩]

/-- Two detections side by side, each with its decision and its command. -/
theorem traceable_of_two_detections :
    let as : List Input :=
      [.store (.upsert [] [{ plateText := ascii "AB1" }]), .submitDetection 0 plateAtGate,
        .submitDetection 1 plateAtGate, .decide 0 [1] 0 ⟨0,0,0⟩, .decide 1 [2] 0 ⟨0,0,0⟩,
        .publishDecision 0, .publishDecision 1, .publishCommand 1 [3] 0, .publishCommand 0 [4] 0]
    let s := exec step (boot {} []) as
    s.log.map (fun e => match e.event with | .command c => c.actor | _ => []) =
        [[], [], autoActor [2], autoActor [1]] ∧
      ∀ e ∈ s.log, ∀ c, e.AutoOpen c → ∃ e' ∈ s.log, e'.eventId < e.eventId ∧
        ∃ d, e'.event = .decision d ∧ Warrants d c :=
  ⟨by decide +kernel,(auto_commands_traceable {} [] _ rfl (by decide +kernel)).1⟩

end Services
end AlprGate.ServerRpc
