import AlprGate.Server.ControlSessions

/-! # What one step does to the sessions

Most steps serve no queue and write nothing: seen from any session, ids leave its
queue, its subscription closes, and it moves on or ends. The other steps are the
entry of a session, the three steps that hand an id on, and the write itself.
-/
namespace AlprGate.Dash

def Stage.active : Stage → Bool
  | .unopened | .ended _ => false
  | _ => true

/-- The stages before the session's subscription exists. -/
def Stage.early : Stage → Bool
  | .unopened | .announcing | .registering => true
  | _ => false

def Writer.held : Writer → List DashboardEvent
  | .holding e => [e]
  | _ => []

/-- A session and its subscription before and after a step that hands it nothing. -/
structure Fades (x : Session) (p : Subscription) (x' : Session) (p' : Subscription) : Prop where
  gateId : x'.gateId = x.gateId
  active : x'.stage.active = true → x.stage.active = true
  early : x'.stage.early = true → x.stage.early = true
  written : x'.written = x.written
  pending : (x'.writer.held ++ p'.queue).Sublist (x.writer.held ++ p.queue)
  closed : p.closed = true → p'.closed = true
  late : x.stage.early = false → x.stage.active = true →
    x'.stage.active = true ∨ p'.closed = true
  writer : x'.writer ≠ .stopped → x.writer ≠ .stopped ∧
    (x.stage.early = false → x.stage.active = true → x'.stage.active = true)

theorem Fades.refl (x : Session) (p : Subscription) : Fades x p x p where
  gateId := rfl
  active := id
  early := id
  written := rfl
  pending := List.Sublist.refl _
  closed := id
  late := fun _ h => Or.inl h
  writer := fun h => ⟨h,fun _ => id⟩

/-- The stage moves on among the stages of a running session. -/
theorem Fades.of_stage {x : Session} {stage : Stage} (p : Subscription) (shuttingDown : Bool)
    (hactive : x.stage.active = true) (hstage : stage.active = true)
    (hearly : stage.early = true → x.stage.early = true) :
    Fades x p { x with stage := stage, shuttingDown := shuttingDown } p where
  gateId := rfl
  active := fun _ => hactive
  early := hearly
  written := rfl
  pending := List.Sublist.refl _
  closed := id
  late := fun _ _ => Or.inl hstage
  writer := fun h => ⟨h,fun _ _ => hstage⟩

/-- The writer moves on and keeps nothing that it did not hold. -/
theorem Fades.of_writer {x : Session} {w : Writer} (p : Subscription) (hheld : w.held = [])
    (hrunning : x.writer ≠ .stopped) : Fades x p { x with writer := w } p where
  gateId := rfl
  active := id
  early := id
  written := rfl
  pending := by
    rw [hheld]
    exact List.sublist_append_right _ _
  closed := id
  late := fun _ h => Or.inl h
  writer := fun _ => ⟨hrunning,fun _ => id⟩

/-- The call returns: either nothing was registered, or its subscription is closed. -/
theorem Fades.of_finish {x : Session} {p p' : Subscription} (status : Status)
    (hqueue : p'.queue = p.queue) (hclosed : p.closed = true → p'.closed = true)
    (hlate : x.stage.early = true ∨ (p'.closed = true ∧ x.writer = .stopped)) :
    Fades x p (x.finish status) p' where
  gateId := rfl
  active := fun h => absurd h Bool.false_ne_true
  early := fun h => absurd h Bool.false_ne_true
  written := rfl
  pending := by
    rw [hqueue]
    exact List.Sublist.refl _
  closed := hclosed
  late := by
    intro hearly hactive
    rcases hlate with h | h
    · rw [hearly] at h
      exact absurd h Bool.false_ne_true
    · exact Or.inr h.1
  writer := by
    intro hw
    refine ⟨hw,?_⟩
    intro hearly hactive
    rcases hlate with h | h
    · rw [hearly] at h
      exact absurd h Bool.false_ne_true
    · exact absurd h.2 hw

namespace Server

@[simp] theorem setSession_self (s : Server) (σ : ℕ) (x : Session) :
    (s.setSession σ x).session σ = x := Function.update_self ..

theorem setSession_other {s : Server} {σ τ : ℕ} {x : Session} (h : τ ≠ σ) :
    (s.setSession σ x).session τ = s.session τ := Function.update_of_ne h ..

@[simp] theorem setPublisher_self (s : Server) (th : Thread) (p : Publisher) :
    (s.setPublisher th p).publisher th = p := Function.update_self ..

theorem setPublisher_other {s : Server} {th th' : Thread} {p : Publisher} (h : th' ≠ th) :
    (s.setPublisher th p).publisher th' = s.publisher th' := Function.update_of_ne h ..

/-- A step that serves no queue and writes nothing. -/
structure Steady (s t : Server) : Prop where
  nextEventId : t.bus.nextEventId = s.bus.nextEventId
  ring : t.bus.ring = s.bus.ring
  subs : t.bus.subs.Sublist s.bus.subs
  opened : s.opened ⊆ t.opened
  entered : ∀ σ, (t.session σ).stage ≠ .unopened →
    (s.session σ).stage ≠ .unopened ∨ σ ∈ t.opened
  serving : ∀ th env ts, t.publisher th = .serving env ts → s.publisher th = .serving env ts
  fades : ∀ σ, Fades (s.session σ) (s.bus.sub σ) (t.session σ) (t.bus.sub σ)

theorem Steady.refl (s : Server) : Steady s s where
  nextEventId := rfl
  ring := rfl
  subs := List.Sublist.refl _
  opened := List.Subset.refl _
  entered := fun _ h => Or.inl h
  serving := fun _ _ _ h => h
  fades := fun _ => Fades.refl ..

/-- A change to one session and its subscription. -/
theorem Steady.of_session {s : Server} {σ : ℕ} {x : Session} {p : Subscription}
    (hx : Fades (s.session σ) (s.bus.sub σ) x p)
    (hopened : x.stage ≠ .unopened → (s.session σ).stage ≠ .unopened) :
    Steady s ({ s with bus := { s.bus with sub := Function.update s.bus.sub σ p } }.setSession σ x)
    where
  nextEventId := rfl
  ring := rfl
  subs := List.Sublist.refl _
  opened := List.Subset.refl _
  entered := by
    intro τ hτ
    by_cases h : τ = σ
    · subst h
      rw [setSession_self] at hτ
      exact Or.inl (hopened hτ)
    · rw [setSession_other h] at hτ
      exact Or.inl hτ
  serving := fun _ _ _ h => h
  fades := by
    intro τ
    by_cases h : τ = σ
    · subst h
      simpa [setSession] using hx
    · simpa [setSession, Function.update_of_ne h] using Fades.refl (s.session τ) (s.bus.sub τ)

/-- A change to one session only. -/
theorem Steady.of_setSession {s : Server} {σ : ℕ} {x : Session}
    (hx : Fades (s.session σ) (s.bus.sub σ) x (s.bus.sub σ))
    (hopened : x.stage ≠ .unopened → (s.session σ).stage ≠ .unopened) : Steady s (s.setSession σ x) := by
  have hsteady := Steady.of_session hx hopened
  rwa [Function.update_eq_self] at hsteady

/-- A publisher that starts serving nobody changes nothing else. -/
theorem Steady.setPublisher {s t : Server} {th : Thread} {p : Publisher} (h : Steady s t)
    (hp : ∀ env ts, p ≠ .serving env ts) : Steady s (t.setPublisher th p) where
  nextEventId := h.nextEventId
  ring := h.ring
  subs := h.subs
  opened := h.opened
  entered := h.entered
  serving := by
    intro th' env ts hserving
    by_cases hth : th' = th
    · subst hth
      rw [setPublisher_self] at hserving
      exact absurd hserving (hp env ts)
    · rw [setPublisher_other hth] at hserving
      exact h.serving th' env ts hserving
  fades := h.fades

theorem Steady.beginPublish {s t : Server} (h : Steady s t) (th : Thread)
    (siteId gateId : String) (payload : Payload) :
    Steady s (t.beginPublish th siteId gateId payload) := by
  unfold Server.beginPublish
  split
  · exact h
  · exact h.setPublisher (fun env ts hp => by cases hp)

/-- The call fails before its gate is known. -/
theorem Steady.of_reject {s : Server} {σ : ℕ} (hstage : (s.session σ).stage = .unopened)
    (status : Status) :
    Steady s ({ s with opened := s.opened ++ [σ] }.setSession σ ((s.session σ).finish status)) where
  nextEventId := rfl
  ring := rfl
  subs := List.Sublist.refl _
  opened := List.subset_append_left _ _
  entered := by
    intro τ hτ
    by_cases h : τ = σ
    · subst h
      exact Or.inr (List.mem_append_right _ List.mem_cons_self)
    · rw [setSession_other h] at hτ
      exact Or.inl hτ
  serving := fun _ _ _ h => h
  fades := by
    intro τ
    by_cases h : τ = σ
    · subst h
      rw [setSession_self]
      exact Fades.of_finish status rfl id (Or.inl (by rw [hstage]; rfl))
    · rw [setSession_other h]
      exact Fades.refl ..

/-- `stop` closes the registered subscriptions. -/
theorem Steady.of_closeAll (s : Server) : Steady s { s with bus := s.bus.closeAll } where
  nextEventId := rfl
  ring := rfl
  subs := List.nil_sublist _
  opened := List.Subset.refl _
  entered := fun _ h => Or.inl h
  serving := fun _ _ _ h => h
  fades := by
    intro τ
    have hrefl := Fades.refl (s.session τ) (s.bus.sub τ)
    by_cases h : τ ∈ s.bus.live
    · simp only [Bus.closeAll, h, if_true]
      exact { hrefl with closed := fun _ => rfl, late := fun _ _ => Or.inr rfl }
    · simp only [Bus.closeAll, h, if_false]
      exact hrefl

/-- The session has named its gate. -/
def enter (s : Server) (σ : ℕ) (gateId : String) : Server :=
  { s with opened := s.opened ++ [σ] }.setSession σ
    { s.session σ with stage := .announcing, gateId := gateId }

/-- Every way a step can go. -/
inductive Move (s : Server) : Input → Server → Prop
  | steady {a : Input} {t : Server} (h : Steady s t) : Move s a t
  | enter {σ : ℕ} {gateId : String} {t : Server} (hstage : (s.session σ).stage = .unopened)
      (h : Steady (s.enter σ gateId) t) : Move s (.open σ (some (.telemetry gateId))) t
  | assign {th : Thread} {siteId gateId : String} {payload : Payload} :
      Move s (.assign th) ({ s with bus := s.bus.assign siteId gateId payload }.setPublisher th
        (.serving (s.bus.envelope siteId gateId payload) s.bus.live))
  | deliver {th : Thread} {env : EventEnvelope} {i : ℕ} {rest : List ℕ}
      (hserving : s.publisher th = .serving env (i :: rest)) :
      Move s (.serve th)
        ({ s with bus := s.bus.deliver env i }.setPublisher th (.serving env rest))
  | register {σ : ℕ} (hstage : (s.session σ).stage = .registering) :
      Move s (.register σ)
        ({ s with bus := s.bus.subscribe σ (controlFilter (s.session σ).gateId) }.setSession σ
          { s.session σ with stage := .streaming, writer := .top })
  | write {σ : ℕ} {e : DashboardEvent} (hholding : (s.session σ).writer = .holding e) :
      Move s (.writerWrite σ true) (s.setSession σ
        { s.session σ with written := (s.session σ).written ++ [e], writer := .top })

theorem openStream_move (s : Server) (σ : ℕ) (first : Option ControlPayload) :
    Move s (.open σ first) (s.openStream σ first) := by
  unfold openStream
  by_cases hstage : (s.session σ).stage = .unopened
  · rw [if_neg (not_not.mpr hstage)]
    rcases first with _ | payload
    · exact .steady (.of_reject hstage _)
    · cases payload with
      | telemetry gateId =>
        by_cases hgate : gateId = ""
        · simp only [hgate, if_true]
          exact .steady (.of_reject hstage _)
        · simp only [hgate, if_false]
          exact .enter hstage ((Steady.refl _).beginPublish ..)
      | ack => exact .steady (.of_reject hstage _)
      | fault gateId => exact .steady (.of_reject hstage _)
      | command => exact .steady (.of_reject hstage _)
      | notSet => exact .steady (.of_reject hstage _)
  · rw [if_pos hstage]
    exact .steady (.refl s)

/-- The stage of a session advances. -/
theorem Steady.of_stage {s : Server} {σ : ℕ} {stage next : Stage} (shuttingDown : Bool)
    (hstage : (s.session σ).stage = stage) (hactive : stage.active = true)
    (hnext : next.active = true) (hearly : next.early = true → stage.early = true) :
    Steady s (s.setSession σ
      { s.session σ with stage := next, shuttingDown := shuttingDown }) := by
  subst hstage
  refine .of_setSession (.of_stage _ _ hactive hnext hearly) ?_
  intro _ h
  rw [h] at hactive
  exact Bool.false_ne_true hactive

theorem trySubscribe_steady (s : Server) (σ : ℕ) : Steady s (s.trySubscribe σ) := by
  unfold trySubscribe
  dsimp only
  split
  · rename_i h
    split
    · refine .of_setSession (.of_finish _ rfl id (Or.inl (by rw [h.1]; rfl))) ?_
      intro _ hunopened
      rw [h.1] at hunopened
      cases hunopened
    · exact .of_stage _ h.1 rfl rfl fun _ => rfl
  · exact .refl s

theorem read_steady (s : Server) (σ : ℕ) (payload : ControlPayload) :
    Steady s (s.read σ payload) := by
  unfold Server.read
  dsimp only
  split
  · rename_i h
    have hreport : Steady s (s.setSession σ { s.session σ with stage := .reporting }) :=
      .of_stage _ h rfl rfl fun hearly => absurd hearly Bool.false_ne_true
    cases payload with
    | telemetry gateId => exact hreport.beginPublish ..
    | ack => exact hreport.beginPublish ..
    | fault gateId => exact hreport.beginPublish ..
    | command => exact .refl s
    | notSet => exact .refl s
  · exact .refl s

theorem resume_steady (s : Server) (σ : ℕ) : Steady s (s.resume σ) := by
  unfold Server.resume
  dsimp only
  split
  · rename_i h
    exact .of_stage _ h.1 rfl rfl fun hearly => absurd hearly Bool.false_ne_true
  · exact .refl s

theorem readFails_steady (s : Server) (σ : ℕ) : Steady s (s.readFails σ) := by
  unfold Server.readFails
  dsimp only
  split
  · rename_i h
    exact .of_stage _ h rfl rfl fun hearly => absurd hearly Bool.false_ne_true
  · exact .refl s

theorem close_steady (s : Server) (σ : ℕ) : Steady s (s.close σ) := by
  unfold Server.close
  dsimp only
  split
  · rename_i h
    have hstage : Fades (s.session σ) (s.bus.sub σ)
        { s.session σ with stage := .joining } (s.bus.sub σ) :=
      .of_stage _ _ (by rw [h]; rfl) rfl fun hearly => absurd hearly Bool.false_ne_true
    refine .of_session { hstage with closed := fun _ => rfl, late := fun _ _ => Or.inr rfl } ?_
    intro _ hunopened
    rw [h] at hunopened
    cases hunopened
  · exact .refl s

theorem join_steady (s : Server) (σ : ℕ) : Steady s (s.join σ) := by
  unfold Server.join
  dsimp only
  split
  · rename_i h
    refine .of_session (.of_finish _ rfl (fun _ => rfl) (Or.inr ⟨rfl,h.2⟩)) ?_
    intro _ hunopened
    rw [h.1] at hunopened
    cases hunopened
  · exact .refl s

theorem cancel_steady (s : Server) (σ : ℕ) : Steady s (s.cancel σ) :=
  .of_setSession { Fades.refl (s.session σ) (s.bus.sub σ) with gateId := rfl } id

theorem running_of_eq {s : Server} {σ : ℕ} {w : Writer} (h : (s.session σ).writer = w)
    (hw : w ≠ .stopped) : (s.session σ).writer ≠ .stopped := by
  rw [h]
  exact hw

/-- The writer moves on, holding nothing. -/
theorem Steady.of_writer {s : Server} {σ : ℕ} {w : Writer}
    (hrunning : (s.session σ).writer ≠ .stopped) (hheld : w.held = []) :
    Steady s (s.setSession σ { s.session σ with writer := w }) :=
  .of_setSession (.of_writer _ hheld hrunning) id

theorem writerTop_steady (s : Server) (σ : ℕ) : Steady s (s.writerTop σ) := by
  unfold Server.writerTop
  dsimp only
  split
  · rename_i h
    have hrunning := running_of_eq h Writer.noConfusion
    split
    · exact .of_writer hrunning rfl
    · exact .of_writer hrunning rfl
  · exact .refl s

theorem writerStarved_steady (s : Server) (σ : ℕ) : Steady s (s.writerStarved σ) := by
  unfold Server.writerStarved
  dsimp only
  split
  · rename_i h
    have hrunning := running_of_eq h Writer.noConfusion
    split
    · exact .of_writer hrunning rfl
    · exact .of_writer hrunning rfl
  · exact .refl s

/-- Popping moves the head of the queue into the writer's hand, or drops it. -/
theorem writerNext_steady (s : Server) (σ : ℕ) : Steady s (s.writerNext σ) := by
  unfold Server.writerNext
  dsimp only
  split
  · rename_i h
    have hrunning := running_of_eq h Writer.noConfusion
    cases hqueue : (s.bus.sub σ).queue with
    | nil => exact .of_writer hrunning rfl
    | cons e rest =>
      refine .of_session ?_ id
      have hpop : ∀ w : Writer, w.held.Sublist [e] → Fades (s.session σ) (s.bus.sub σ)
          { s.session σ with writer := w }
          { s.bus.sub σ with queue := (s.bus.sub σ).queue.tail } := by
        intro w hw
        refine { Fades.refl (s.session σ) (s.bus.sub σ) with
          pending := ?_, writer := fun _ => ⟨hrunning,fun _ => id⟩ }
        simp only [hqueue, List.tail_cons, h, Writer.held]
        exact hw.append_right rest
      split
      · exact hpop _ (List.Sublist.refl _)
      · exact hpop _ (List.nil_sublist _)
  · exact .refl s

theorem writerWrite_move (s : Server) (σ : ℕ) (ok : Bool) :
    Move s (.writerWrite σ ok) (s.writerWrite σ ok) := by
  unfold Server.writerWrite
  dsimp only
  split
  · rename_i e h
    cases ok with
    | true => exact .write h
    | false =>
      have hrunning := running_of_eq h Writer.noConfusion
      exact .steady (.of_writer hrunning rfl)
  · exact .steady (.refl s)

theorem assign_move (s : Server) (th : Thread) : Move s (.assign th) (s.assign th) := by
  unfold Server.assign
  split
  · exact .assign
  · exact .steady (.refl s)

theorem serve_move (s : Server) (th : Thread) : Move s (.serve th) (s.serve th) := by
  unfold Server.serve
  split
  · rename_i h
    exact .deliver h
  · exact .steady ((Steady.refl s).setPublisher (fun env ts hp => by cases hp))
  · exact .steady (.refl s)

theorem register_move (s : Server) (σ : ℕ) : Move s (.register σ) (s.register σ) := by
  unfold Server.register
  dsimp only
  split
  · rename_i h
    exact .register h
  · exact .steady (.refl s)

/-- What a step can do, said once. -/
theorem step_move (s : Server) (a : Input) : Move s a (s.step a) := by
  cases a with
  | publish n siteId gateId payload =>
    by_cases h : s.publisher (.client n) = .idle
    · rw [Server.step, if_pos h]
      exact .steady ((Steady.refl s).beginPublish ..)
    · rw [Server.step, if_neg h]
      exact .steady (.refl s)
  | assign th => exact assign_move s th
  | serve th => exact serve_move s th
  | «open» σ first => exact openStream_move s σ first
  | subscribe σ => exact .steady (trySubscribe_steady s σ)
  | register σ => exact register_move s σ
  | read σ payload => exact .steady (read_steady s σ payload)
  | resume σ => exact .steady (resume_steady s σ)
  | readFails σ => exact .steady (readFails_steady s σ)
  | close σ => exact .steady (close_steady s σ)
  | join σ => exact .steady (join_steady s σ)
  | cancel σ => exact .steady (cancel_steady s σ)
  | writerTop σ => exact .steady (writerTop_steady s σ)
  | writerNext σ => exact .steady (writerNext_steady s σ)
  | writerStarved σ => exact .steady (writerStarved_steady s σ)
  | writerWrite σ ok => exact writerWrite_move s σ ok
  | stop => exact .steady { Steady.refl s with fades := fun _ => Fades.refl .. }
  | closeAll =>
    by_cases h : s.bus.stopped = true
    · rw [Server.step, if_pos h]
      exact .steady (.of_closeAll s)
    · rw [Server.step, if_neg h]
      exact .steady (.refl s)

end Server
end AlprGate.Dash
