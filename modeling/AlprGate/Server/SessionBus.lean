import AlprGate.Server.BusMoves
import AlprGate.Server.CommandDelivery
import AlprGate.Server.SessionTurns

/-! # The broadcaster under control sessions

The control sessions and the publishing threads are users of one broadcaster: with the
events on record, each step of the server moves it in one of the six ways.
-/
namespace AlprGate.Dash.Server
open BoundedQueue SnapshotFanout Transition

/-- What a step adds to the record. The writer takes events one by one. -/
def record (s : Server) (a : Input) (l : Ledger) : Ledger :=
  match a with
  | .assign th => l.noteAssign s.bus (s.publisher th)
  | .serve th => l.noteServe (s.publisher th)
  | .writerNext σ =>
    if (s.session σ).writer = .polling then l.noteTake σ ((s.bus.sub σ).queue.take 1) else l
  | _ => l

/-- The broadcaster of the server; its subscribers are the sessions that are past
registration. -/
def view (p : Server × Ledger) : View Thread :=
  ⟨p.1.bus,p.1.publisher,{σ | (p.1.session σ).stage.early = false},p.2⟩

/-- A handler is inside `publish` only while it announces its gate or reports an envelope. -/
def Unoccupied (s : Server) : Prop :=
  ∀ σ, (s.session σ).stage = .announcing ∨ (s.session σ).stage = .reporting ∨
    s.publisher (.handler σ) = .idle

theorem Unoccupied.idle {s : Server} (h : Unoccupied s) {σ : ℕ} {stage : Stage}
    (hstage : (s.session σ).stage = stage) (hannouncing : stage ≠ .announcing)
    (hreporting : stage ≠ .reporting) : s.publisher (.handler σ) = .idle := by
  rcases h σ with h | h | h
  · exact absurd (hstage.symm.trans h) hannouncing
  · exact absurd (hstage.symm.trans h) hreporting
  · exact h

section Quiet
variable {s t : Server} {l : Ledger} {v : View Thread}

/-- A session moves on and does not return to the stages before registration. -/
theorem quiet_setSession {b : Bus} {opened : List ℕ} {σ : ℕ} {x : Session}
    (hb : View.Quiet (view (s,l)) { view (s,l) with bus := b })
    (hx : (s.session σ).stage.early = false → x.stage.early = false) :
    (view (s,l)).Quiet (view ({ s with bus := b, opened := opened }.setSession σ x,l)) := by
  refine { hb with known := ?_ }
  intro τ hτ
  by_cases h : τ = σ
  · subst h
    change ((setSession _ τ x).session τ).stage.early = false
    rw [setSession_self]
    exact hx hτ
  · change ((setSession _ σ x).session τ).stage.early = false
    rw [setSession_other h]
    exact hτ

theorem quiet_beginPublish (h : v.Quiet (view (t,l))) {th : Thread}
    (hidle : t.publisher th = .idle) (siteId gateId : String) (payload : Payload) :
    v.Quiet (view (t.beginPublish th siteId gateId payload,l)) := by
  unfold beginPublish
  split
  · exact h
  · have hjob := job_comp_update t.publisher (t:=th)
      (p:=.checked siteId gateId payload) (by rw [hidle]; rfl)
    exact { h with job := hjob.trans h.job }

theorem openStream_quiet (hfree : Unoccupied s) (σ : ℕ) (first : Option ControlPayload) :
    (view (s,l)).Quiet (view (s.openStream σ first,l)) := by
  unfold openStream
  dsimp only
  split
  · exact .refl _
  · rename_i hstage
    have hunopened := not_not.mp hstage
    have hopen : ∀ x : Session, (view (s,l)).Quiet
        (view ({ s with opened := s.opened ++ [σ] }.setSession σ x,l)) :=
      fun x => quiet_setSession (.refl _) fun h => by rw [hunopened] at h; cases h
    have hidle := hfree.idle hunopened Stage.noConfusion Stage.noConfusion
    split
    · exact hopen _
    · split
      · exact hopen _
      · exact quiet_beginPublish (hopen _) hidle _ _ _
    · exact hopen _

theorem read_quiet (hfree : Unoccupied s) (σ : ℕ) (payload : ControlPayload) :
    (view (s,l)).Quiet (view (s.read σ payload,l)) := by
  unfold Server.read
  dsimp only
  split
  · rename_i hstage
    have hreport : (view (s,l)).Quiet
        (view (s.setSession σ { s.session σ with stage := .reporting },l)) :=
      quiet_setSession (.refl _) fun _ => rfl
    have hidle := hfree.idle hstage Stage.noConfusion Stage.noConfusion
    split
    · exact quiet_beginPublish hreport hidle _ _ _
    · exact quiet_beginPublish hreport hidle _ _ _
    · exact quiet_beginPublish hreport hidle _ _ _
    · exact .refl _
    · exact .refl _
  · exact .refl _

/-- A step of a session that keeps the broadcaster. -/
theorem quiet_session {σ : ℕ} {x : Session}
    (hx : (s.session σ).stage.early = false → x.stage.early = false) :
    (view (s,l)).Quiet (view (s.setSession σ x,l)) :=
  quiet_setSession (.refl _) hx

theorem trySubscribe_quiet (σ : ℕ) : (view (s,l)).Quiet (view (s.trySubscribe σ,l)) := by
  unfold trySubscribe
  dsimp only
  split
  · rename_i h
    have hearly : ∀ x : Session, (s.session σ).stage.early = false → x.stage.early = false := by
      intro x hstage
      rw [h.1] at hstage
      cases hstage
    split
    · exact quiet_session (hearly _)
    · exact quiet_session (hearly _)
  · exact .refl _

theorem resume_quiet (σ : ℕ) : (view (s,l)).Quiet (view (s.resume σ,l)) := by
  unfold Server.resume
  dsimp only
  split
  · exact quiet_session fun _ => rfl
  · exact .refl _

theorem readFails_quiet (σ : ℕ) : (view (s,l)).Quiet (view (s.readFails σ,l)) := by
  unfold Server.readFails
  dsimp only
  split
  · exact quiet_session fun _ => rfl
  · exact .refl _

theorem close_quiet (σ : ℕ) : (view (s,l)).Quiet (view (s.close σ,l)) := by
  unfold Server.close
  dsimp only
  split
  · have hbus : (view (s,l)).Quiet { view (s,l) with bus := s.bus.close σ } :=
      { View.Quiet.refl (view (s,l)) with sub := s.bus.closes_close σ }
    exact quiet_setSession hbus fun _ => rfl
  · exact .refl _

theorem join_quiet (σ : ℕ) : (view (s,l)).Quiet (view (s.join σ,l)) := by
  unfold Server.join
  dsimp only
  split
  · have hbus : (view (s,l)).Quiet { view (s,l) with bus := s.bus.destroy σ } :=
      { View.Quiet.refl (view (s,l)) with sub := s.bus.closes_destroy σ }
    exact quiet_setSession hbus fun _ => rfl
  · exact .refl _

theorem writerTop_quiet (σ : ℕ) : (view (s,l)).Quiet (view (s.writerTop σ,l)) := by
  unfold Server.writerTop
  dsimp only
  split
  · exact quiet_session id
  · exact .refl _

theorem writerStarved_quiet (σ : ℕ) : (view (s,l)).Quiet (view (s.writerStarved σ,l)) := by
  unfold Server.writerStarved
  dsimp only
  split
  · exact quiet_session id
  · exact .refl _

theorem writerWrite_quiet (σ : ℕ) (ok : Bool) :
    (view (s,l)).Quiet (view (s.writerWrite σ ok,l)) := by
  unfold Server.writerWrite
  dsimp only
  split
  · split
    · exact quiet_session id
    · exact quiet_session id
  · exact .refl _

theorem closeAll_quiet : (view (s,l)).Quiet (view ({ s with bus := s.bus.closeAll },l)) :=
  { View.Quiet.refl (view (s,l)) with
    subs := List.nil_sublist _
    sub := s.bus.closes_closeAll }

end Quiet

section Moves
variable (s : Server) (l : Ledger)

theorem assign_view (th : Thread) :
    (view (s,l)).Move none (view (s.assign th,l.noteAssign s.bus (s.publisher th))) := by
  unfold Server.assign
  split
  · rename_i siteId gateId payload h
    rw [h]
    exact .assign (v:=view (s,l)) h
  · rename_i h
    rw [l.noteAssign_of_ne s.bus h]
    exact .quiet (.refl _)

theorem serve_view (th : Thread) :
    ∃ label, (view (s,l)).Move label (view (s.serve th,l.noteServe (s.publisher th))) ∧
      ∀ th', label = some th' → th' = th := by
  unfold Server.serve
  split
  · rename_i env i rest h
    rw [h]
    exact ⟨some th,.serve (v:=view (s,l)) h,fun th' hth => (Option.some.inj hth).symm⟩
  · rename_i env h
    rw [h]
    exact ⟨none,.finish (v:=view (s,l)) h,fun th' hth => by cases hth⟩
  · rename_i h _
    rw [l.noteServe_of_ne h]
    exact ⟨none,.quiet (.refl _),fun th' hth => by cases hth⟩

theorem known_setSession (s : Server) (σ : ℕ) {x : Session} (hx : x.stage.early = false) :
    {τ | ((s.setSession σ x).session τ).stage.early = false} =
      insert σ {τ | (s.session τ).stage.early = false} := by
  ext τ
  by_cases h : τ = σ
  · subst h
    simp [hx]
  · simp [setSession_other h, h]

theorem register_view (σ : ℕ) : (view (s,l)).Move none (view (s.register σ,l)) := by
  unfold Server.register
  dsimp only
  split
  · rename_i hstage
    have hnew : σ ∉ (view (s,l)).known := by
      intro h
      change (s.session σ).stage.early = false at h
      rw [hstage] at h
      cases h
    have hmove := View.Move.register (v:=view (s,l)) (controlFilter (s.session σ).gateId) hnew
    have hknown := known_setSession s σ
      (x:={ s.session σ with stage := .streaming, writer := .top }) rfl
    rwa [show insert σ (view (s,l)).known = _ from hknown.symm] at hmove
  · exact .quiet (.refl _)

/-- The writer takes the head of its queue, and stays where the session is. -/
theorem view_pop {σ : ℕ} {x : Session} (hx : x.stage = (s.session σ).stage) :
    view ({ s with bus := s.bus.pop σ }.setSession σ x,l) =
      { view (s,l) with bus := s.bus.takeFirst σ 1 } := by
  have hknown : {τ | (({ s with bus := s.bus.pop σ }.setSession σ x).session τ).stage.early = false} =
      {τ | (s.session τ).stage.early = false} := by
    ext τ
    by_cases h : τ = σ
    · subst h
      simp [hx]
    · simp [setSession_other h]
  rw [view, hknown, ← Bus.pop_eq_takeFirst]
  rfl

theorem writerNext_view (σ : ℕ) :
    (view (s,l)).Move none (view (observe step record (s,l) (.writerNext σ))) := by
  simp only [observe, step, record, Server.writerNext]
  by_cases hpolling : (s.session σ).writer = .polling
  · simp only [hpolling, if_true]
    have hmove := View.Move.take (v:=view (s,l)) σ 1
    change (view (s,l)).Move none { view (s,l.noteTake σ ((s.bus.sub σ).queue.take 1)) with
      bus := s.bus.takeFirst σ 1 } at hmove
    cases hqueue : (s.bus.sub σ).queue with
    | nil =>
      rw [List.take_nil, l.noteTake_nil]
      exact .quiet (quiet_session id)
    | cons e rest =>
      rw [hqueue] at hmove
      rwa [view_pop]
      rfl
  · simp only [hpolling, if_false]
    exact .quiet (.refl _)

/-- Every input of the server moves its broadcaster in one of the six ways. -/
theorem step_view (hfree : Unoccupied s) (a : Input) :
    ∃ label, (view (s,l)).Move label (view (observe step record (s,l) a)) ∧
      ∀ th, label = some th → a = .serve th := by
  have hunlabelled : ∀ p : Server × Ledger, (view (s,l)).Move none (view p) →
      ∃ label, (view (s,l)).Move label (view p) ∧ ∀ th, label = some th → a = .serve th :=
    fun p h => ⟨none,h,fun th hth => by cases hth⟩
  have hquiet : ∀ t : Server, (view (s,l)).Quiet (view (t,l)) →
      ∃ label, (view (s,l)).Move label (view (t,l)) ∧ ∀ th, label = some th → a = .serve th :=
    fun t h => hunlabelled _ (.quiet h)
  cases a with
  | publish n siteId gateId payload =>
    by_cases h : s.publisher (.client n) = .idle
    · simp only [observe, step, h, if_true, record]
      exact hquiet _ (quiet_beginPublish (.refl _) h siteId gateId payload)
    · simp only [observe, step, h, if_false, record]
      exact hquiet _ (.refl _)
  | assign th => exact hunlabelled _ (assign_view s l th)
  | serve th =>
    obtain ⟨label,hmove,hlabel⟩ := serve_view s l th
    exact ⟨label,hmove,fun th' hth => congrArg _ (hlabel th' hth).symm⟩
  | «open» σ first => exact hquiet _ (openStream_quiet hfree σ first)
  | subscribe σ => exact hquiet _ (trySubscribe_quiet σ)
  | register σ => exact hunlabelled _ (register_view s l σ)
  | read σ payload => exact hquiet _ (read_quiet hfree σ payload)
  | resume σ => exact hquiet _ (resume_quiet σ)
  | readFails σ => exact hquiet _ (readFails_quiet σ)
  | close σ => exact hquiet _ (close_quiet σ)
  | join σ => exact hquiet _ (join_quiet σ)
  | cancel σ => exact hquiet _ (quiet_session id)
  | writerTop σ => exact hquiet _ (writerTop_quiet σ)
  | writerNext σ => exact hunlabelled _ (writerNext_view s l σ)
  | writerStarved σ => exact hquiet _ (writerStarved_quiet σ)
  | writerWrite σ ok => exact hquiet _ (writerWrite_quiet σ ok)
  | stop => exact hquiet _ { View.Quiet.refl (view (s,l)) with }
  | closeAll =>
    by_cases h : s.bus.stopped = true
    · simp only [observe, step, h, if_true, record]
      exact hquiet _ closeAll_quiet
    · simp only [observe, step, h, record]
      exact hquiet _ (.refl _)

end Moves

section Unoccupied
variable {s : Server}

/-- While the publish call of a handler stays as it is, the session leaves the two stages only
if the call is over. -/
theorem Unoccupied.turn (h : Unoccupied s) {σ : ℕ} {a : Input} {x : Session} (hx : Turn s σ a x) :
    x.stage = .announcing ∨ x.stage = .reporting ∨ s.publisher (.handler σ) = .idle := by
  have hidle : ∀ stage, (s.session σ).stage = stage → stage ≠ .announcing → stage ≠ .reporting →
      x.stage = .announcing ∨ x.stage = .reporting ∨ s.publisher (.handler σ) = .idle :=
    fun _ hstage hannouncing hreporting => Or.inr (Or.inr (h.idle hstage hannouncing hreporting))
  cases hx with
  | reject _ hstage => exact hidle _ hstage Stage.noConfusion Stage.noConfusion
  | enter => exact Or.inl rfl
  | refuse _ _ hover => exact Or.inr (Or.inr hover)
  | subscribe _ hover => exact Or.inr (Or.inr hover)
  | register hstage => exact hidle _ hstage Stage.noConfusion Stage.noConfusion
  | report => exact Or.inr (Or.inl rfl)
  | resume _ hover => exact Or.inr (Or.inr hover)
  | readFails hstage => exact hidle _ hstage Stage.noConfusion Stage.noConfusion
  | close hstage => exact hidle _ hstage Stage.noConfusion Stage.noConfusion
  | join hstage => exact hidle _ hstage Stage.noConfusion Stage.noConfusion
  | _ => exact h σ

theorem Unoccupied.step (h : Unoccupied s) (a : Input) : Unoccupied (s.step a) := by
  intro σ
  have hturn := session_turn s a σ
  have hprogress := publisher_progress s a (.handler σ)
  -- a call that is on its way keeps its handler in the stage where it began
  have hbusy : s.publisher (.handler σ) ≠ .idle → ∀ p : Publisher,
      ((s.step a).session σ).stage = .announcing ∨ ((s.step a).session σ).stage = .reporting ∨
        p = .idle := by
    intro hne p
    rcases h.turn hturn with hstage | hstage | hidle
    · exact Or.inl hstage
    · exact Or.inr (Or.inl hstage)
    · exact absurd hidle hne
  generalize (s.step a).publisher (.handler σ) = p at hprogress ⊢
  cases hprogress with
  | same => exact h.turn hturn
  | announce _ _ hafter => exact Or.inl hafter
  | telemetry _ hafter => exact Or.inr (Or.inl hafter)
  | ack _ hafter => exact Or.inr (Or.inl hafter)
  | fault _ hafter => exact Or.inr (Or.inl hafter)
  | assign hchecked => exact hbusy (by rw [hchecked]; exact Publisher.noConfusion) _
  | serve hserving => exact hbusy (by rw [hserving]; exact Publisher.noConfusion) _
  | finish => exact Or.inr (Or.inr rfl)

end Unoccupied

/-- What holds in every state of a run on record. -/
structure Fit (p : Server × Ledger) : Prop where
  unoccupied : Unoccupied p.1
  tidy : (view p).Tidy

theorem Fit.boot (ringCapacity perSubCapacity : ℕ) (defaultSiteId : String) :
    Fit (boot ringCapacity perSubCapacity defaultSiteId, {}) where
  unoccupied := fun _ => Or.inr (Or.inr rfl)
  tidy := {
    ids := rfl
    next := rfl
    ring := List.suffix_rfl
    sound := Sound.initial _
    unknown := fun _ _ => ⟨rfl,rfl⟩ }

theorem Fit.step {p : Server × Ledger} (h : Fit p) (a : Input) :
    Fit (observe Server.step record p a) := by
  obtain ⟨label,hmove,_⟩ := step_view p.1 p.2 h.unoccupied a
  exact ⟨h.unoccupied.step a,h.tidy.move hmove⟩

/-- A run of a server that has just started, on record. -/
def run (ringCapacity perSubCapacity : ℕ) (defaultSiteId : String) (as : List Input) :
    Server × Ledger :=
  exec (observe step record) (boot ringCapacity perSubCapacity defaultSiteId, {}) as

theorem Fit.run (ringCapacity perSubCapacity : ℕ) (defaultSiteId : String) (as : List Input) :
    Fit (run ringCapacity perSubCapacity defaultSiteId as) :=
  exec_invariant (fun _ a h => h.step a) as (Fit.boot ringCapacity perSubCapacity defaultSiteId)

end AlprGate.Dash.Server
