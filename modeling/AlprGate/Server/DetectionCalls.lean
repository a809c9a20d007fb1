import AlprGate.Library.Tally
import AlprGate.Server.Dispatch

/-! # The calls for detections at one gate

Every call for a detection publishes at most one `OPEN_GATE` command: exactly one, on a running bus,
if it returns an authorized decision. So the commands on the bus that detections at a gate have
caused are counted by going over the calls for them.
-/
namespace AlprGate.ServerRpc
open Auth Fusion

/-- An `OPEN_GATE` command for the gate that a detection has caused. -/
def DashboardEvent.opens (handler : Handler) (g : Text) : DashboardEvent → Bool
  | .command c => handler = .submitDetection && c.kind = .openGate && c.gateId = g
  | _ => false

/-- The frame of a detection that the server is working on. -/
def Call.detection : Call → Option DetectionFrame
  | .submitted frame => some frame
  | .decided frame _ => some frame
  | .announced frame _ => some frame
  | _ => none

def Call.opened : Call → Bool
  | .returned (.decision d) => d.verdict = .authorized
  | _ => false

/-- A call for a detection at the gate, or one that has returned. -/
def Call.Serving (g : Text) (c : Call) : Prop :=
  (∃ frame, c.detection = some frame ∧ frame.gateId = g) ∨ ∃ reply, c = .returned reply

namespace Services

/-- The commands that detections at the gate have put on the bus. -/
def opens (s : Services) (g : Text) : ℕ := s.log.countP fun e => e.event.opens e.handler g

section Publish
variable (s : Services) (handler : Handler) (siteId gateId : Text) (event : DashboardEvent) (k : ℕ)
  (c : Call) (g : Text)

@[simp] theorem opens_setCall : (s.setCall k c).opens g = s.opens g := rfl

theorem opens_publish : (s.publish handler siteId gateId event).opens g =
    s.opens g + if s.stopped = false ∧ event.opens handler g = true then 1 else 0 := by
  unfold publish
  cases hstopped : s.stopped with
  | true =>
    rw [if_pos rfl, if_neg fun h => Bool.noConfusion h.1]
    rfl
  | false =>
    rw [if_neg Bool.noConfusion, opens, opens, List.countP_append, List.countP_singleton]
    simp

end Publish

/-- What a step means for the detections: a call for one begins or moves on, or nothing happens to
them. -/
inductive Turn (s : Services) : Input → Services → Prop
  | aside {a : Input} {t : Services}
      (hcall : ∀ k, t.call k = s.call k ∨ ((s.call k).detection = none ∧
        (∀ reply, s.call k ≠ .returned reply) ∧ (t.call k).detection = none))
      (hopens : ∀ g, t.opens g = s.opens g) (hstopped : t.stopped = false → s.stopped = false) :
      Turn s a t
  | enter {k : ℕ} {req : DetectionFrame} (h : s.call k = .idle) :
      Turn s (.submitDetection k req) (s.setCall k (submitDetection req))
  | decide {a : Input} {k : ℕ} {frame : DetectionFrame} {d : AuthDecision}
      (h : s.call k = .submitted frame) : Turn s a (s.takeDecision k d (.decided frame d))
  | announce {a : Input} {k : ℕ} {frame : DetectionFrame} {d : AuthDecision}
      (h : s.call k = .decided frame d) :
      Turn s a
        ((s.publishDecision .submitDetection s.defaultSiteId d).setCall k (afterDecision frame d))
  | dispatch {a : Input} {k : ℕ} {frame : DetectionFrame} {d : AuthDecision} {uuid : Text} {now : ℤ}
      (h : s.call k = .announced frame d) :
      Turn s a ((s.publishCommand .submitDetection s.defaultSiteId
        (openCommand frame d uuid now)).setCall k (.returned (.decision d)))

variable {s t : Services} {a : Input}

theorem Turn.refl (s : Services) (a : Input) : Turn s a s :=
  .aside (fun _ => Or.inl rfl) (fun _ => rfl) id

section Aside
variable {k : ℕ} {c d : Call} (hc : s.call k = c) (hbefore : c.detection = none)
  (hopen : ∀ reply, c ≠ .returned reply) (hafter : d.detection = none)
include hc hbefore hopen hafter

/-- A call that serves no detection goes on. -/
theorem Turn.update (hcall : t.call = Function.update s.call k d)
    (hopens : ∀ g, t.opens g = s.opens g) (hstopped : t.stopped = false → s.stopped = false) :
    Turn s a t := by
  refine .aside (fun j => ?_) hopens hstopped
  by_cases hj : j = k
  · subst hj
    rw [hcall, Function.update_self, hc]
    exact Or.inr ⟨hbefore,hopen,hafter⟩
  · exact Or.inl (by rw [hcall, Function.update_of_ne hj])

/-- The same with an event published that opens nothing. -/
theorem Turn.publish {handler : Handler} {siteId gateId : Text} {event : DashboardEvent}
    (hevent : ∀ g, event.opens handler g = false) :
    Turn s a ((s.publish handler siteId gateId event).setCall k d) := by
  obtain ⟨-,hstopped,hcall,-⟩ := publish_frame s handler siteId gateId event
  refine .update hc hbefore hopen hafter (by rw [setCall, hcall]) (fun g => ?_) ?_
  · rw [opens_setCall, opens_publish, hevent g, if_neg fun h => Bool.noConfusion h.2, Nat.add_zero]
  · intro h
    exact hstopped.symm.trans h

end Aside

theorem Turn.start {k : ℕ} {c : Call} (hafter : c.detection = none) : Turn s a (s.start k c) := by
  unfold Services.start
  split
  · rename_i hidle
    exact .update hidle rfl (fun _ => Call.noConfusion) hafter rfl (fun _ => rfl) id
  · exact .refl s a

theorem opens_setOverride (s : Services) (c : GateCommand) (g : Text) :
    (s.setOverride c).opens g = s.opens g :=
  congrArg (List.countP _) (s.setOverride_frame c).1

theorem step_turn (s : Services) (a : Input) : Turn s a (s.step a) := by
  cases a with
  | submitDetection k req =>
    rw [step, Services.start]
    split
    · rename_i hidle
      exact .enter hidle
    · exact .refl s _
  | authorize k req =>
    refine .start ?_
    rw [authorize]
    split_ifs <;> rfl
  | issueCommand k req uuid now =>
    refine .start ?_
    rw [issueCommand]
    split_ifs <;> rfl
  | decide k uuid nowUnix nowLocal =>
    rw [step, Services.decide]
    split
    · rename_i h
      exact .decide h
    · rename_i req h
      exact .update (d:=.judged req _) h rfl (fun _ => Call.noConfusion) rfl rfl (fun _ => rfl) id
    · exact .refl s _
  | updateOverride k =>
    rw [step, Services.updateOverride]
    split
    · rename_i c h
      obtain ⟨-,-,-,hstopped,hcall⟩ := s.setOverride_frame c
      exact .update (d:=.latched c) h rfl (fun _ => Call.noConfusion) rfl (by rw [setCall, hcall])
        (fun g => s.opens_setOverride c g) fun hrun => hstopped.symm.trans hrun
    · exact .refl s _
  | publishDecision k =>
    rw [step, Services.announce]
    split
    · rename_i h
      exact .announce h
    · rename_i h
      exact .publish h rfl (fun _ => Call.noConfusion) rfl fun _ => rfl
    · exact .refl s _
  | publishCommand k uuid now =>
    rw [step, Services.dispatch]
    split
    · rename_i h
      exact .dispatch h
    · rename_i h
      exact .publish h rfl (fun _ => Call.noConfusion) rfl fun _ => rfl
    · exact .refl s _
  | publishAck k now =>
    rw [step, Services.acknowledge]
    split
    · rename_i h
      exact .publish h rfl (fun _ => Call.noConfusion) rfl fun _ => rfl
    · exact .refl s _
  | store op => exact .aside (fun _ => Or.inl rfl) (fun _ => rfl) id
  | stop => exact .aside (fun _ => Or.inl rfl) (fun _ => rfl) fun h => Bool.noConfusion h

/-- What has been returned stays. -/
theorem Turn.returned (h : Turn s a t) {k : ℕ} {reply : Reply} (hk : s.call k = .returned reply) :
    t.call k = .returned reply := by
  have hother : ∀ {j : ℕ} {c d : Call}, s.call j = c → c ≠ .returned reply →
      Function.update s.call j d k = .returned reply := by
    intro j c d hj hne
    rw [Function.update_of_ne, hk]
    rintro rfl
    exact hne (hj.symm.trans hk)
  cases h with
  | aside hcall =>
    rcases hcall k with hsame | ⟨-,hopen,-⟩
    · exact hsame.trans hk
    · exact absurd hk (hopen reply)
  | enter hj => exact hother hj Call.noConfusion
  | decide hj => exact hother hj Call.noConfusion
  | @announce _ j frame d hj =>
    rw [setCall, publishDecision, (publish_frame ..).2.2.1]
    exact hother hj Call.noConfusion
  | @dispatch _ j frame d uuid now hj =>
    rw [setCall, publishCommand, (publish_frame ..).2.2.1]
    exact hother hj Call.noConfusion

/-- The calls `ks` are the ones for detections at the gate, and the commands on the bus are accounted
for by them. -/
structure Served (g : Text) (ks : List ℕ) (s : Services) : Prop where
  nodup : ks.Nodup
  serving : ∀ k ∈ ks, (s.call k).Serving g
  foreign : ∀ k ∉ ks, ∀ frame, (s.call k).detection = some frame → frame.gateId ≠ g
  announced : ∀ k frame d, s.call k = .announced frame d → d.verdict = .authorized
  opens_le : s.opens g ≤ ks.countP fun k => (s.call k).opened
  opens_eq : s.stopped = false → s.opens g = ks.countP fun k => (s.call k).opened

variable {g : Text} {ks : List ℕ}

theorem opened_of_detection {c : Call} {frame : DetectionFrame} (h : c.detection = some frame) :
    c.opened = false := by
  cases c with
  | returned reply => cases h
  | _ => rfl

/-- The call for a detection moves on, and publishes its command if it returns as opened. -/
theorem Served.move (h : Served g ks s) {k : ℕ} {c₀ c : Call} {frame : DetectionFrame}
    (hk₀ : s.call k = c₀) (hframe : c₀.detection = some frame)
    (hcall : t.call = Function.update s.call k c) (hstopped : t.stopped = s.stopped)
    (hopens : t.opens g = s.opens g +
      if s.stopped = false ∧ c.opened = true ∧ frame.gateId = g then 1 else 0)
    (hc : c.detection = some frame ∨ ∃ reply, c = .returned reply)
    (hannounced : ∀ frame d, c = .announced frame d → d.verdict = .authorized) :
    Served g ks t := by
  have hk : (s.call k).detection = some frame := by rw [hk₀, hframe]
  have hself : t.call k = c := by rw [hcall, Function.update_self]
  have hother : ∀ {j : ℕ}, j ≠ k → t.call j = s.call j := by
    intro j hj
    rw [hcall, Function.update_of_ne hj]
  have hcount : (ks.countP fun j => (t.call j).opened) = (ks.countP fun j => (s.call j).opened) +
      if k ∈ ks ∧ c.opened = true then 1 else 0 := by
    by_cases hmem : k ∈ ks
    · rw [Tally.countP_update (p:=fun j => (s.call j).opened) h.nodup hmem
        (fun j _ hj => congrArg Call.opened (hother hj)) (opened_of_detection hk)]
      rw [hself]
      simp [hmem]
    · rw [if_neg fun hin => hmem hin.1, Nat.add_zero]
      refine List.countP_congr fun j hj => ?_
      rw [hother (ne_of_mem_of_not_mem hj hmem)]
  have hgate : k ∈ ks ↔ frame.gateId = g := by
    constructor
    · intro hmem
      obtain ⟨own,hown,hg⟩ | ⟨reply,hreply⟩ := h.serving k hmem
      · rw [Option.some.inj (hk.symm.trans hown)]
        exact hg
      · rw [hreply] at hk
        cases hk
    · intro hg
      by_contra hmem
      exact h.foreign k hmem frame hk hg
  refine ⟨h.nodup,?_,?_,?_,?_,?_⟩
  · intro j hj
    by_cases hjk : j = k
    · subst hjk
      rw [hself]
      exact hc.imp (fun hd => ⟨frame,hd,hgate.mp hj⟩) id
    · rw [hother hjk]
      exact h.serving j hj
  · intro j hj own hown
    by_cases hjk : j = k
    · subst hjk
      rw [hself] at hown
      rcases hc with hd | ⟨reply,rfl⟩
      · rw [← Option.some.inj (hd.symm.trans hown)]
        exact fun hg => hj (hgate.mpr hg)
      · cases hown
    · rw [hother hjk] at hown
      exact h.foreign j hj own hown
  · intro j own d hj
    by_cases hjk : j = k
    · subst hjk
      rw [hself] at hj
      exact hannounced own d hj
    · rw [hother hjk] at hj
      exact h.announced j own d hj
  · rw [hopens, hcount]
    refine Nat.add_le_add h.opens_le ?_
    split_ifs with hin hmem
    · exact le_refl 1
    · exact absurd ⟨hgate.mpr hin.2.2,hin.2.1⟩ hmem
    · exact Nat.zero_le 1
    · exact le_refl 0
  · intro hrun
    rw [hstopped] at hrun
    rw [hopens, hcount, h.opens_eq hrun]
    simp [hrun, hgate, and_comm]

section Entry
variable {req frame : DetectionFrame}

theorem detection_submitDetection (h : (submitDetection req).detection = some frame) :
    req = frame := by
  unfold submitDetection at h
  split at h
  · cases h
  · exact Option.some.inj h

theorem submitDetection_ne_announced (req frame : DetectionFrame) (d : AuthDecision) :
    submitDetection req ≠ .announced frame d := by
  unfold submitDetection
  split
  · exact Call.noConfusion
  · exact Call.noConfusion

theorem opened_submitDetection (req : DetectionFrame) : (submitDetection req).opened = false := by
  unfold submitDetection
  split
  · rfl
  · rfl

theorem serving_submitDetection (req : DetectionFrame) :
    (submitDetection req).Serving req.gateId := by
  unfold submitDetection
  split
  · exact Or.inr ⟨_,rfl⟩
  · exact Or.inl ⟨req,rfl,rfl⟩

end Entry

theorem Served.ne_of_idle (h : Served g ks s) {k : ℕ} (hidle : s.call k = .idle) : k ∉ ks := by
  intro hk
  obtain ⟨frame,hframe,-⟩ | ⟨reply,hreply⟩ := h.serving k hk
  · rw [hidle] at hframe
    cases hframe
  · rw [hidle] at hreply
    cases hreply

/-- A detection for another gate. -/
theorem Served.enterOther (h : Served g ks s) {k : ℕ} {req : DetectionFrame}
    (hidle : s.call k = .idle) (hreq : req.gateId ≠ g) :
    Served g ks (s.setCall k (submitDetection req)) := by
  have hsame : ∀ j ∈ ks, (s.setCall k (submitDetection req)).call j = s.call j := by
    intro j hj
    exact setCall_other (ne_of_mem_of_not_mem hj (h.ne_of_idle hidle))
  have hcount : (ks.countP fun j => ((s.setCall k (submitDetection req)).call j).opened) =
      ks.countP fun j => (s.call j).opened := by
    refine List.countP_congr fun j hj => ?_
    rw [hsame j hj]
  refine ⟨h.nodup,fun j hj => hsame j hj ▸ h.serving j hj,?_,?_,?_,?_⟩
  · intro j hj frame hframe
    by_cases hjk : j = k
    · subst hjk
      rw [setCall_self] at hframe
      rw [← detection_submitDetection hframe]
      exact hreq
    · rw [setCall_other hjk] at hframe
      exact h.foreign j hj frame hframe
  · intro j frame d hj
    by_cases hjk : j = k
    · subst hjk
      rw [setCall_self] at hj
      exact absurd hj (submitDetection_ne_announced req frame d)
    · rw [setCall_other hjk] at hj
      exact h.announced j frame d hj
  · rw [hcount]
    exact h.opens_le
  · rw [hcount]
    exact h.opens_eq

/-- A detection at the gate. -/
theorem Served.enter (h : Served g ks s) {k : ℕ} {req : DetectionFrame} (hidle : s.call k = .idle)
    (hreq : req.gateId = g) : Served g (ks ++ [k]) (s.setCall k (submitDetection req)) := by
  have hnew := h.ne_of_idle hidle
  have hsame : ∀ j ∈ ks, (s.setCall k (submitDetection req)).call j = s.call j := by
    intro j hj
    exact setCall_other (ne_of_mem_of_not_mem hj hnew)
  have hcount : ((ks ++ [k]).countP fun j =>
      ((s.setCall k (submitDetection req)).call j).opened) =
        ks.countP fun j => (s.call j).opened := by
    rw [List.countP_append, List.countP_singleton, setCall_self, opened_submitDetection,
      if_neg Bool.false_ne_true, Nat.add_zero]
    refine List.countP_congr fun j hj => ?_
    rw [hsame j hj]
  refine ⟨?_,?_,?_,?_,?_,?_⟩
  · exact h.nodup.append (List.nodup_singleton k) (List.disjoint_singleton.mpr hnew)
  · intro j hj
    rcases List.mem_append.mp hj with hj | hj
    · exact hsame j hj ▸ h.serving j hj
    · rw [List.mem_singleton.mp hj, setCall_self]
      exact hreq ▸ serving_submitDetection req
  · intro j hj frame hframe
    have hjk : j ≠ k := by
      rintro rfl
      exact hj (List.mem_append_right _ List.mem_cons_self)
    rw [setCall_other hjk] at hframe
    exact h.foreign j (fun hin => hj (List.mem_append_left _ hin)) frame hframe
  · intro j frame d hj
    by_cases hjk : j = k
    · subst hjk
      rw [setCall_self] at hj
      exact absurd hj (submitDetection_ne_announced req frame d)
    · rw [setCall_other hjk] at hj
      exact h.announced j frame d hj
  · rw [hcount]
    exact h.opens_le
  · rw [hcount]
    exact h.opens_eq

theorem afterDecision_cases (frame : DetectionFrame) (d : AuthDecision) :
    ((afterDecision frame d).detection = some frame ∨
      ∃ reply, afterDecision frame d = .returned reply) ∧
    (∀ own d', afterDecision frame d = .announced own d' → d'.verdict = .authorized) ∧
    (afterDecision frame d).opened = false := by
  unfold afterDecision
  split
  · rename_i hverdict
    refine ⟨Or.inl rfl,?_,rfl⟩
    intro own d' h
    cases h
    exact hverdict
  · rename_i hverdict
    exact ⟨Or.inr ⟨_,rfl⟩,fun _ _ => Call.noConfusion,decide_eq_false hverdict⟩

/-- A step that brings no new detection to the gate. -/
theorem Served.turn (h : Served g ks s) (ht : Turn s a t)
    (ha : ∀ k req, a = .submitDetection k req → req.gateId ≠ g) : Served g ks t := by
  cases ht with
  | aside hcall hopens hstopped =>
    have hsame : ∀ k ∈ ks, t.call k = s.call k := by
      intro k hk
      rcases hcall k with hsame | ⟨hnone,hopen,-⟩
      · exact hsame
      · obtain ⟨frame,hframe,-⟩ | ⟨reply,hreply⟩ := h.serving k hk
        · rw [hnone] at hframe
          cases hframe
        · exact absurd hreply (hopen reply)
    have hcount : (ks.countP fun k => (t.call k).opened) = ks.countP fun k => (s.call k).opened := by
      refine List.countP_congr fun k hk => ?_
      rw [hsame k hk]
    refine ⟨h.nodup,fun k hk => hsame k hk ▸ h.serving k hk,?_,?_,?_,?_⟩
    · intro k hk frame hframe
      rcases hcall k with heq | ⟨-,-,hnone⟩
      · exact h.foreign k hk frame (heq ▸ hframe)
      · rw [hnone] at hframe
        cases hframe
    · intro k frame d hk
      rcases hcall k with heq | ⟨-,-,hnone⟩
      · exact h.announced k frame d (heq ▸ hk)
      · rw [hk] at hnone
        cases hnone
    · rw [hopens, hcount]
      exact h.opens_le
    · intro hrun
      rw [hopens, hcount]
      exact h.opens_eq (hstopped hrun)
  | enter hidle => exact h.enterOther hidle (ha _ _ rfl)
  | @decide _ k frame d hk =>
    refine h.move (c:=.decided frame d) hk rfl rfl rfl ?_ (Or.inl rfl)
      fun _ _ => Call.noConfusion
    rw [if_neg fun hopened => Bool.noConfusion hopened.2.1]
    rfl
  | @announce _ k frame d hk =>
    obtain ⟨-,hstopped,hcall,-⟩ :=
      publish_frame s .submitDetection s.defaultSiteId d.gateId (.decision d)
    refine h.move hk rfl (congrArg (Function.update · k _) hcall) hstopped ?_
      (afterDecision_cases frame d).1 (afterDecision_cases frame d).2.1
    rw [opens_setCall, publishDecision, opens_publish, (afterDecision_cases frame d).2.2,
      if_neg fun hopened => Bool.noConfusion hopened.2, if_neg fun hopened =>
        Bool.noConfusion hopened.2.1]
  | @dispatch _ k frame d uuid now hk =>
    obtain ⟨-,hstopped,hcall,-⟩ := publish_frame s .submitDetection s.defaultSiteId frame.gateId
      (.command (openCommand frame d uuid now))
    refine h.move hk rfl (congrArg (Function.update · k _) hcall) hstopped ?_
      (Or.inr ⟨_,rfl⟩) fun _ _ => Call.noConfusion
    have hverdict := h.announced k frame d hk
    rw [opens_setCall, publishCommand, opens_publish]
    by_cases hg : frame.gateId = g
    · simp [DashboardEvent.opens, Call.opened, hverdict, openCommand, hg]
    · simp [DashboardEvent.opens, Call.opened, hverdict, openCommand, hg]

end Services
end AlprGate.ServerRpc
