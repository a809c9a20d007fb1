import AlprGate.Server.SessionSteps

/-! # One session and one publish call under a step

What a step can make of a session, and of the publish call of a thread, with the conditions
under which it does.
-/
namespace AlprGate.Dash
namespace Server

/-- What a step makes of one session. -/
inductive Turn (s : Server) (σ : ℕ) : Input → Session → Prop
  | same {a : Input} : Turn s σ a (s.session σ)
  | reject {first : Option ControlPayload} (status : Status)
      (hstage : (s.session σ).stage = .unopened) :
      Turn s σ (.open σ first) ((s.session σ).finish status)
  | enter {gateId : String} (hstage : (s.session σ).stage = .unopened) :
      Turn s σ (.open σ (some (.telemetry gateId)))
        { s.session σ with stage := .announcing, gateId := gateId }
  | refuse (status : Status) (hstage : (s.session σ).stage = .announcing)
      (hidle : s.publisher (.handler σ) = .idle) :
      Turn s σ (.subscribe σ) ((s.session σ).finish status)
  | subscribe (hstage : (s.session σ).stage = .announcing)
      (hidle : s.publisher (.handler σ) = .idle) :
      Turn s σ (.subscribe σ) { s.session σ with stage := .registering }
  | register (hstage : (s.session σ).stage = .registering) :
      Turn s σ (.register σ) { s.session σ with stage := .streaming, writer := .top }
  | report {payload : ControlPayload} (hstage : (s.session σ).stage = .streaming) :
      Turn s σ (.read σ payload) { s.session σ with stage := .reporting }
  | resume (hstage : (s.session σ).stage = .reporting)
      (hidle : s.publisher (.handler σ) = .idle) :
      Turn s σ (.resume σ) { s.session σ with stage := .streaming }
  | readFails (hstage : (s.session σ).stage = .streaming) :
      Turn s σ (.readFails σ) { s.session σ with stage := .closing, shuttingDown := true }
  | close (hstage : (s.session σ).stage = .closing) :
      Turn s σ (.close σ) { s.session σ with stage := .joining }
  | join (hstage : (s.session σ).stage = .joining) (hwriter : (s.session σ).writer = .stopped) :
      Turn s σ (.join σ) ((s.session σ).finish .ok)
  | cancel : Turn s σ (.cancel σ) { s.session σ with cancelled := true }
  | top (w : Writer) (hwriter : (s.session σ).writer = .top) :
      Turn s σ (.writerTop σ) { s.session σ with writer := w }
  | next (w : Writer) (hwriter : (s.session σ).writer = .polling) :
      Turn s σ (.writerNext σ) { s.session σ with writer := w }
  | starved (w : Writer) (hwriter : (s.session σ).writer = .starved) :
      Turn s σ (.writerStarved σ) { s.session σ with writer := w }
  | write {e : DashboardEvent} (hwriter : (s.session σ).writer = .holding e) :
      Turn s σ (.writerWrite σ true)
        { s.session σ with written := (s.session σ).written ++ [e], writer := .top }
  | fail {e : DashboardEvent} (hwriter : (s.session σ).writer = .holding e) :
      Turn s σ (.writerWrite σ false) { s.session σ with writer := .stopped }

theorem session_beginPublish (s : Server) (th : Thread) (siteId gateId : String)
    (payload : Payload) : (s.beginPublish th siteId gateId payload).session = s.session := by
  unfold Server.beginPublish
  split
  · rfl
  · rfl

theorem Turn.update {s t : Server} {a : Input} {σ τ : ℕ} {x : Session}
    (ht : t.session = Function.update s.session τ x) (hx : σ = τ → Turn s σ a x) :
    Turn s σ a (t.session σ) := by
  rw [ht]
  by_cases h : σ = τ
  · rw [h, Function.update_self, ← h]
    exact hx h
  · rw [Function.update_of_ne h]
    exact .same

theorem openStream_turn (s : Server) (σ τ : ℕ) (first : Option ControlPayload) :
    Turn s σ (.open τ first) ((s.openStream τ first).session σ) := by
  unfold openStream
  dsimp only
  split
  · exact .same
  · rename_i hstage
    have hunopened := not_not.mp hstage
    split
    · exact .update rfl (by rintro rfl; exact .reject _ hunopened)
    · split
      · exact .update rfl (by rintro rfl; exact .reject _ hunopened)
      · rw [session_beginPublish]
        exact .update rfl (by rintro rfl; exact .enter hunopened)
    · exact .update rfl (by rintro rfl; exact .reject _ hunopened)

theorem read_turn (s : Server) (σ τ : ℕ) (payload : ControlPayload) :
    Turn s σ (.read τ payload) ((s.read τ payload).session σ) := by
  unfold Server.read
  dsimp only
  split
  · rename_i hstage
    have hreport : Turn s σ (.read τ payload)
        ((s.setSession τ { s.session τ with stage := .reporting }).session σ) :=
      .update rfl (by rintro rfl; exact .report hstage)
    split
    · rwa [session_beginPublish]
    · rwa [session_beginPublish]
    · rwa [session_beginPublish]
    · exact .same
    · exact .same
  · exact .same

/-- The fate of one session under a step, said once. -/
theorem session_turn (s : Server) (a : Input) (σ : ℕ) : Turn s σ a ((s.step a).session σ) := by
  cases a with
  | publish n siteId gateId payload =>
    simp only [Server.step]
    split
    · rw [session_beginPublish]
      exact .same
    · exact .same
  | assign th =>
    simp only [Server.step, Server.assign]
    split
    · exact .same
    · exact .same
  | serve th =>
    simp only [Server.step, Server.serve]
    split
    · exact .same
    · exact .same
    · exact .same
  | «open» τ first => exact openStream_turn s σ τ first
  | subscribe τ =>
    simp only [Server.step, trySubscribe]
    split
    · rename_i h
      split
      · exact .update rfl (by rintro rfl; exact .refuse _ h.1 h.2)
      · exact .update rfl (by rintro rfl; exact .subscribe h.1 h.2)
    · exact .same
  | register τ =>
    simp only [Server.step, Server.register]
    split
    · rename_i h
      exact .update rfl (by rintro rfl; exact .register h)
    · exact .same
  | read τ payload => exact read_turn s σ τ payload
  | resume τ =>
    simp only [Server.step, Server.resume]
    split
    · rename_i h
      exact .update rfl (by rintro rfl; exact .resume h.1 h.2)
    · exact .same
  | readFails τ =>
    simp only [Server.step, Server.readFails]
    split
    · rename_i h
      exact .update rfl (by rintro rfl; exact .readFails h)
    · exact .same
  | close τ =>
    simp only [Server.step, Server.close]
    split
    · rename_i h
      exact .update rfl (by rintro rfl; exact .close h)
    · exact .same
  | join τ =>
    simp only [Server.step, Server.join]
    split
    · rename_i h
      exact .update rfl (by rintro rfl; exact .join h.1 h.2)
    · exact .same
  | cancel τ => exact .update rfl (by rintro rfl; exact .cancel)
  | writerTop τ =>
    simp only [Server.step, Server.writerTop]
    split
    · rename_i h
      exact .update rfl (by rintro rfl; exact .top _ h)
    · exact .same
  | writerNext τ =>
    simp only [Server.step, Server.writerNext]
    split
    · rename_i h
      split
      · exact .update rfl (by rintro rfl; exact .next _ h)
      · exact .update rfl (by rintro rfl; exact .next _ h)
    · exact .same
  | writerStarved τ =>
    simp only [Server.step, Server.writerStarved]
    split
    · rename_i h
      exact .update rfl (by rintro rfl; exact .starved _ h)
    · exact .same
  | writerWrite τ ok =>
    simp only [Server.step, Server.writerWrite]
    split
    · rename_i e h
      cases ok with
      | true => exact .update rfl (by rintro rfl; exact .write h)
      | false => exact .update rfl (by rintro rfl; exact .fail h)
    · exact .same
  | stop => exact .same
  | closeAll =>
    simp only [Server.step]
    split
    · exact .same
    · exact .same

section Progress
variable {s t : Server} {a : Input}

/-- What a step makes of the publish call of one thread. -/
inductive Progress (s : Server) : Thread → Input → Publisher → Prop
  | same {th : Thread} {a : Input} : Progress s th a (s.publisher th)
  | client {n : ℕ} {siteId gateId : String} {payload : Payload} :
      Progress s (.client n) (.publish n siteId gateId payload) (.checked siteId gateId payload)
  | announce {σ : ℕ} {gateId : String} (hstage : (s.session σ).stage = .unopened)
      (hgate : gateId ≠ "")
      (hafter : ((s.step (.open σ (some (.telemetry gateId)))).session σ).stage = .announcing) :
      Progress s (.handler σ) (.open σ (some (.telemetry gateId)))
        (.checked s.defaultSiteId gateId .telemetry)
  | telemetry {σ : ℕ} {gateId : String} (hstage : (s.session σ).stage = .streaming)
      (hafter : ((s.step (.read σ (.telemetry gateId))).session σ).stage = .reporting) :
      Progress s (.handler σ) (.read σ (.telemetry gateId))
        (.checked s.defaultSiteId gateId .telemetry)
  | ack {σ : ℕ} (hstage : (s.session σ).stage = .streaming)
      (hafter : ((s.step (.read σ .ack)).session σ).stage = .reporting) :
      Progress s (.handler σ) (.read σ .ack)
        (.checked s.defaultSiteId (s.session σ).gateId .ack)
  | fault {σ : ℕ} {gateId : String} (hstage : (s.session σ).stage = .streaming)
      (hafter : ((s.step (.read σ (.fault gateId))).session σ).stage = .reporting) :
      Progress s (.handler σ) (.read σ (.fault gateId)) (.checked s.defaultSiteId gateId .fault)
  | assign {th : Thread} {siteId gateId : String} {payload : Payload}
      (h : s.publisher th = .checked siteId gateId payload) :
      Progress s th (.assign th) (.serving (s.bus.envelope siteId gateId payload) s.bus.live)
  | serve {th : Thread} {env : EventEnvelope} {i : ℕ} {rest : List ℕ}
      (h : s.publisher th = .serving env (i :: rest)) :
      Progress s th (.serve th) (.serving env rest)
  | finish {th : Thread} {env : EventEnvelope} (h : s.publisher th = .serving env []) :
      Progress s th (.serve th) .idle

theorem Progress.update {th th' : Thread} {p : Publisher}
    (ht : t.publisher = Function.update s.publisher th' p) (hp : th = th' → Progress s th a p) :
    Progress s th a (t.publisher th) := by
  rw [ht]
  by_cases h : th = th'
  · rw [h, Function.update_self, ← h]
    exact hp h
  · rw [Function.update_of_ne h]
    exact .same

theorem Progress.beginPublish {th th' : Thread} {siteId gateId : String} {payload : Payload}
    (ht : t.publisher = s.publisher)
    (hp : th = th' → Progress s th a (.checked siteId gateId payload)) :
    Progress s th a ((t.beginPublish th' siteId gateId payload).publisher th) := by
  unfold Server.beginPublish
  split
  · rw [ht]
    exact .same
  · refine .update (p:=.checked siteId gateId payload) ?_ hp
    rw [setPublisher, ht]

theorem publisher_progress (s : Server) (a : Input) (th : Thread) :
    Progress s th a ((s.step a).publisher th) := by
  cases a with
  | publish n siteId gateId payload =>
    simp only [Server.step]
    split
    · exact .beginPublish rfl (by rintro rfl; exact .client)
    · exact .same
  | assign th' =>
    simp only [Server.step, Server.assign]
    split
    · rename_i h
      exact .update rfl (by rintro rfl; exact .assign h)
    · exact .same
  | serve th' =>
    simp only [Server.step, Server.serve]
    split
    · rename_i h
      exact .update rfl (by rintro rfl; exact .serve h)
    · rename_i h
      exact .update rfl (by rintro rfl; exact .finish h)
    · exact .same
  | «open» τ first =>
    simp only [Server.step, Server.openStream]
    split
    · exact .same
    · rename_i hstage
      split
      · exact .same
      · split
        · exact .same
        · rename_i hgate
          refine .beginPublish rfl ?_
          rintro rfl
          have hunopened := not_not.mp hstage
          refine .announce hunopened hgate ?_
          simp [Server.step, Server.openStream, hunopened, hgate, session_beginPublish]
      · exact .same
  | subscribe τ =>
    simp only [Server.step, trySubscribe]
    split
    · split
      · exact .same
      · exact .same
    · exact .same
  | register τ =>
    simp only [Server.step, Server.register]
    split
    · exact .same
    · exact .same
  | read τ payload =>
    simp only [Server.step, Server.read]
    split
    · rename_i hstage
      split
      · refine .beginPublish rfl ?_
        rintro rfl
        refine .telemetry hstage ?_
        simp [Server.step, Server.read, hstage, session_beginPublish]
      · refine .beginPublish rfl ?_
        rintro rfl
        refine .ack hstage ?_
        simp [Server.step, Server.read, hstage, session_beginPublish]
      · refine .beginPublish rfl ?_
        rintro rfl
        refine .fault hstage ?_
        simp [Server.step, Server.read, hstage, session_beginPublish]
      · exact .same
      · exact .same
    · exact .same
  | resume τ =>
    simp only [Server.step, Server.resume]
    split
    · exact .same
    · exact .same
  | readFails τ =>
    simp only [Server.step, Server.readFails]
    split
    · exact .same
    · exact .same
  | close τ =>
    simp only [Server.step, Server.close]
    split
    · exact .same
    · exact .same
  | join τ =>
    simp only [Server.step, Server.join]
    split
    · exact .same
    · exact .same
  | cancel τ => exact .same
  | writerTop τ =>
    simp only [Server.step, Server.writerTop]
    split
    · exact .same
    · exact .same
  | writerNext τ =>
    simp only [Server.step, Server.writerNext]
    split
    · split
      · exact .same
      · exact .same
    · exact .same
  | writerStarved τ =>
    simp only [Server.step, Server.writerStarved]
    split
    · exact .same
    · exact .same
  | writerWrite τ ok =>
    simp only [Server.step, Server.writerWrite]
    split
    · split
      · exact .same
      · exact .same
    · exact .same
  | stop => exact .same
  | closeAll =>
    simp only [Server.step]
    split
    · exact .same
    · exact .same

end Progress

end Server
end AlprGate.Dash
