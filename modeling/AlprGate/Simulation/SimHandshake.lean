import AlprGate.Server.ControlSessions
import AlprGate.Simulation.SimAcks

/-! # The first envelope of a session

The server identifies a gate by the first envelope of its stream, which has to be telemetry, and
sends no command before. The simulator sends telemetry in its first iteration, but behind the
verdicts that the gate holds by then. So a session is refused if a tracked command was decided
between the sessions or in the first tick, and these verdicts are lost with it.
-/
namespace AlprGate.Sim
open StateMachine Rpc Transition

/-- What the server sees of an envelope. -/
def SimEnvelope.payload : SimEnvelope → Dash.ControlPayload
  | .telemetry t => .telemetry t.gateId
  | .ack _ => .ack

namespace VirtualGate

/-- Verdicts stay with the gate until they are drained. -/
theorem unmoved_prefix (acks : List Verdict) : Unmoved fun _ held => acks <+: held := by
  intro t held s r transitioned h
  exact h.trans (List.prefix_append _ _)

theorem untimed_prefix (acks : List Verdict) : Untimed fun _ held => acks <+: held := by
  intro t held nowMs h
  exact h.trans (List.prefix_append _ _)

end VirtualGate

/-- The gate that is named by the telemetry which the loop is filling in. -/
def LoopOp.sampled : LoopOp → Option String
  | .readState t | .readLimitOpen t | .readLimitClosed t | .readBeam t => some t.gateId
  | .write (.telemetry t) => some t.gateId
  | _ => none

namespace SimClient

/-- The loop does its next operation. -/
def runsLoop : SimStep → Bool
  | .runLoop _ _ _ => true
  | _ => false

/-- The verdicts that the gate holds when the loop drains it for the first time. -/
def firstDrain (s : SimClient) (a : SimStep) (drained : Option (List Verdict)) :
    Option (List Verdict) :=
  if runsLoop a = true ∧ s.loop.head? = some .drainAcks then drained.or (some s.gate.acks)
  else drained

/-- The first envelope written since `before`. -/
def firstEnvelope (before : List (SimThread × SimEnvelope)) (s : SimClient) : Option SimEnvelope :=
  (s.log.drop before.length).head?.map Prod.snd

def SawTelemetry (before : List (SimThread × SimEnvelope)) (s : SimClient) : Prop :=
  (s.firstEnvelope before).bind SimEnvelope.seq ≠ none

/-- The steps of one session with the server: it is not left, and no command comes before
telemetry has been written. -/
def WithServer (before : List (SimThread × SimEnvelope)) (s : SimClient) : SimStep → Prop
  | .finish => False
  | .read (some _) => s.SawTelemetry before
  | _ => True

instance (before : List (SimThread × SimEnvelope)) (s : SimClient) (a : SimStep) :
    Decidable (s.WithServer before a) :=
  match a with
  | .finish => inferInstanceAs (Decidable False)
  | .read (some _) => inferInstanceAs (Decidable (_ ≠ _))
  | .read none | .connect | .readFails | .loopHead _ | .runReader _ | .runLoop _ _ _ | .offline _
  | .console _ => inferInstanceAs (Decidable True)

/-- How far a session has come: it waits for its first drain, goes on to telemetry, owes a
verdict, or has written its first envelope. -/
inductive Opening (cfg : SimConfig) (before : List (SimThread × SimEnvelope)) (held : List Verdict) :
    SimClient → Option (List Verdict) → Prop
  | waiting {s : SimClient} (hlog : s.log = before) (hreader : s.reader = [])
    (hsince : s.sinceTelemetryMs = cfg.telemetryPeriodMs) (hheld : held <+: s.gate.acks)
    (hloop : s.loop = [] ∨ s.loop = [.advance, .drainAcks, .countTelemetry] ∨
      s.loop = [.drainAcks, .countTelemetry]) : Opening cfg before held s none
  | counting {s : SimClient} (hlog : s.log = before) (hreader : s.reader = [])
    (hsince : s.sinceTelemetryMs = cfg.telemetryPeriodMs) (hheld : held <+: [])
    (hloop : s.loop = [.countTelemetry]) : Opening cfg before held s (some [])
  | sampling {s : SimClient} {o : LoopOp} (hlog : s.log = before) (hreader : s.reader = [])
    (hheld : held <+: []) (hloop : s.loop = [o]) (hop : o.sampled = some cfg.gateId) :
    Opening cfg before held s (some [])
  | owing {s : SimClient} {v : Verdict} {vs : List Verdict} {o : LoopOp} {r : List LoopOp}
    (hlog : s.log = before) (hreader : s.reader = []) (hheld : held <+: v :: vs)
    (hloop : s.loop = o :: r)
    (hop : o = .ackCompleted v ∨ ∃ a, o = .write (.ack a)) :
    Opening cfg before held s (some (v :: vs))
  | identified {s : SimClient} {t : SimTelemetry} {r : List (SimThread × SimEnvelope)}
    (hlog : s.log = before ++ (.loop, .telemetry t) :: r) (hid : t.gateId = cfg.gateId)
    (hheld : held <+: []) : Opening cfg before held s (some [])
  | acked {s : SimClient} {v : Verdict} {vs : List Verdict} {a : SimAck}
    {r : List (SimThread × SimEnvelope)}
    (hlog : s.log = before ++ (.loop, .ack a) :: r) (hheld : held <+: v :: vs) :
    Opening cfg before held s (some (v :: vs))

section Steps
variable {cfg : SimConfig} {s : SimClient} {before : List (SimThread × SimEnvelope)}
  {held : List Verdict} {drained : Option (List Verdict)}

/-- What has been written stays written. -/
theorem log_step (cfg : SimConfig) (s : SimClient) (a : SimStep) : s.log <+: (s.step cfg a).log := by
  cases a with
  | runReader now =>
    rw [step, runReader]
    split
    · exact (runReaderOp_frame ..).2.2.2.2
    · exact List.prefix_refl _
  | runLoop now uptimeSec ok =>
    rw [step, runLoop]
    split
    · exact (runLoopOp_frame ..).2.2.2.2
    · exact List.prefix_refl _
  | connect =>
    rw [step, connect]
    split <;> exact List.prefix_refl _
  | read c =>
    rw [step, read]
    split <;> exact List.prefix_refl _
  | readFails =>
    rw [step, readFails]
    split <;> exact List.prefix_refl _
  | loopHead shutdown =>
    rw [step, loopHead]
    split
    · split <;> exact List.prefix_refl _
    · exact List.prefix_refl _
  | finish =>
    rw [step, finish]
    split <;> exact List.prefix_refl _
  | offline backoffMs =>
    rw [step, offline]
    split <;> exact List.prefix_refl _
  | console line => exact List.prefix_refl _

/-- A step that leaves the first envelope of the session to the loop. -/
structure Idles (s t : SimClient) : Prop where
  log : t.log = s.log
  reader : t.reader = []
  since : t.sinceTelemetryMs = s.sinceTelemetryMs
  acks : s.gate.acks <+: t.gate.acks
  loop : t.loop = s.loop ∨
    (s.loop = [] ∧ t.loop = [.advance, .drainAcks, .countTelemetry])

theorem idles_refl (h : s.reader = []) : Idles s s :=
  ⟨rfl,h,rfl,List.prefix_refl _,Or.inl rfl⟩

/-- While the reader waits, only the loop writes. -/
theorem idles_step (hin : s.inSession = true) (hreader : s.reader = []) {a : SimStep}
    (hloop : ∀ now uptimeSec ok, a ≠ .runLoop now uptimeSec ok)
    (hread : ∀ c, a ≠ .read (some c)) : Idles s (s.step cfg a) := by
  cases a with
  | connect =>
    rw [step, connect, if_pos hin]
    exact idles_refl hreader
  | read c =>
    cases c with
    | some c => exact absurd rfl (hread c)
    | none =>
      rw [step, read]
      split
      · exact ⟨rfl,rfl,rfl,List.prefix_refl _,Or.inl rfl⟩
      · exact idles_refl hreader
  | readFails =>
    rw [step, readFails]
    split
    · exact ⟨rfl,hreader,rfl,List.prefix_refl _,Or.inl rfl⟩
    · exact idles_refl hreader
  | loopHead shutdown =>
    rw [step, loopHead]
    split
    · rename_i hhead
      split
      · exact ⟨rfl,hreader,rfl,List.prefix_refl _,Or.inr ⟨hhead.2,rfl⟩⟩
      · exact ⟨rfl,hreader,rfl,List.prefix_refl _,Or.inl rfl⟩
    · exact idles_refl hreader
  | runReader now =>
    rw [step, runReader, hreader]
    exact idles_refl hreader
  | runLoop now uptimeSec ok => exact absurd rfl (hloop now uptimeSec ok)
  | finish =>
    rw [step, finish]
    split
    · exact ⟨rfl,hreader,rfl,List.prefix_refl _,Or.inl rfl⟩
    · exact idles_refl hreader
  | offline backoffMs =>
    rw [step, offline, if_pos hin]
    exact idles_refl hreader
  | console line =>
    have hacks := (VirtualGate.unmoved_prefix s.gate.acks).console cfg.gate (List.prefix_refl _) line
    exact ⟨rfl,hreader,rfl,hacks,Or.inl rfl⟩

theorem Opening.idles {t : SimClient} (h : Opening cfg before held s drained) (hidles : Idles s t) :
    Opening cfg before held t drained := by
  cases h with
  | waiting hlog hreader hsince hheld hloop =>
    refine .waiting (hidles.log.trans hlog) hidles.reader (hidles.since.trans hsince)
      (hheld.trans hidles.acks) ?_
    rcases hidles.loop with hsame | ⟨-,hstart⟩
    · rw [hsame]
      exact hloop
    · exact Or.inr (Or.inl hstart)
  | counting hlog hreader hsince hheld hloop =>
    rcases hidles.loop with hsame | ⟨hempty,-⟩
    · exact .counting (hidles.log.trans hlog) hidles.reader (hidles.since.trans hsince) hheld
        (hsame.trans hloop)
    · rw [hloop] at hempty
      cases hempty
  | sampling hlog hreader hheld hloop hop =>
    rcases hidles.loop with hsame | ⟨hempty,-⟩
    · exact .sampling (hidles.log.trans hlog) hidles.reader hheld (hsame.trans hloop) hop
    · rw [hloop] at hempty
      cases hempty
  | owing hlog hreader hheld hloop hop =>
    rcases hidles.loop with hsame | ⟨hempty,-⟩
    · exact .owing (hidles.log.trans hlog) hidles.reader hheld (hsame.trans hloop) hop
    · rw [hloop] at hempty
      cases hempty
  | identified hlog hid hheld => exact .identified (hidles.log.trans hlog) hid hheld
  | acked hlog hheld => exact .acked (hidles.log.trans hlog) hheld

theorem runLoop_eq {op : LoopOp} {rest : List LoopOp} (hops : s.loop = op :: rest) (now : ℤ)
    (uptimeSec : BitVec 32) (ok : Bool) :
    s.runLoop cfg now uptimeSec ok = s.runLoopOp cfg rest now uptimeSec ok op := by
  rw [runLoop, hops]

theorem firstDrain_some (a : SimStep) (vs : List Verdict) :
    firstDrain s a (some vs) = some vs := by
  unfold firstDrain
  split
  · rfl
  · rfl

theorem firstDrain_drain (hloop : s.loop = [.drainAcks, .countTelemetry]) (now : ℤ)
    (uptimeSec : BitVec 32) (ok : Bool) :
    firstDrain s (.runLoop now uptimeSec ok) none = some s.gate.acks := by
  rw [firstDrain, if_pos ⟨rfl,by rw [hloop]; rfl⟩]
  rfl

theorem firstDrain_other {a : SimStep}
    (h : ¬ (runsLoop a = true ∧ s.loop.head? = some .drainAcks)) :
    firstDrain s a drained = drained := if_neg h

/-- Once an envelope is written it stays the first one. -/
theorem Opening.extend {vs : List Verdict} {t : SimClient}
    (h : Opening cfg before held s (some vs)) (hlog : s.log ≠ before) (hgrows : s.log <+: t.log) :
    Opening cfg before held t (some vs) := by
  obtain ⟨more,hmore⟩ := hgrows
  cases h with
  | counting h => exact absurd h hlog
  | sampling h => exact absurd h hlog
  | owing h => exact absurd h hlog
  | @identified t rest h hid hheld =>
    refine .identified (r:=rest ++ more) ?_ hid hheld
    rw [← hmore, h, List.append_assoc]
    rfl
  | @acked v vs a rest h hheld =>
    refine .acked (a:=a) (r:=rest ++ more) ?_ hheld
    rw [← hmore, h, List.append_assoc]
    rfl

/-- The loop on its way to the first envelope. -/
theorem Opening.runLoop (h : Opening cfg before held s drained) (now : ℤ) (uptimeSec : BitVec 32)
    (ok : Bool) : Opening cfg before held (s.runLoop cfg now uptimeSec ok)
      (firstDrain s (.runLoop now uptimeSec ok) drained) := by
  cases h with
  | waiting hlog hreader hsince hheld hloop =>
    rcases hloop with hloop | hloop | hloop
    · rw [SimClient.runLoop, firstDrain_other (by rw [hloop]; simp), hloop]
      exact .waiting hlog hreader hsince hheld (Or.inl hloop)
    · rw [runLoop_eq hloop, firstDrain_other (by rw [hloop]; simp)]
      have hacks := (VirtualGate.unmoved_prefix s.gate.acks).advance cfg.gate
        (VirtualGate.untimed_prefix _) (List.prefix_refl _) cfg.tickMs
      exact .waiting hlog hreader hsince (hheld.trans hacks) (Or.inr (Or.inr rfl))
    · rw [runLoop_eq hloop, firstDrain_drain hloop]
      cases hdrained : s.gate.acks with
      | nil =>
        refine .counting hlog hreader hsince (hdrained ▸ hheld) ?_
        rw [runLoopOp, hdrained]
        rfl
      | cons v vs =>
        refine .owing (o:=.ackCompleted v) (r:=vs.map .ackCompleted ++ [.countTelemetry]) hlog
          hreader (hdrained ▸ hheld) ?_ (Or.inl rfl)
        rw [runLoopOp, hdrained]
        rfl
  | counting hlog hreader hsince hheld hloop =>
    have hdue : cfg.telemetryPeriodMs ≤ s.sinceTelemetryMs + cfg.tickMs := by omega
    rw [runLoop_eq hloop, firstDrain_some, runLoopOp, if_pos hdue]
    exact .sampling hlog hreader hheld rfl rfl
  | @sampling op hlog hreader hheld hloop hop =>
    rw [runLoop_eq hloop, firstDrain_some]
    cases op with
    | readState t => exact .sampling hlog hreader hheld rfl hop
    | readLimitOpen t => exact .sampling hlog hreader hheld rfl hop
    | readLimitClosed t => exact .sampling hlog hreader hheld rfl hop
    | readBeam t => exact .sampling hlog hreader hheld rfl hop
    | write e =>
      cases e with
      | telemetry t => exact .identified (r:=[]) (congrArg (· ++ _) hlog) (Option.some.inj hop) hheld
      | ack a => cases hop
    | _ => cases hop
  | owing hlog hreader hheld hloop hop =>
    rw [runLoop_eq hloop, firstDrain_some]
    rcases hop with rfl | ⟨a,rfl⟩
    · exact .owing hlog hreader hheld rfl (Or.inr ⟨_,rfl⟩)
    · exact .acked (r:=[]) (congrArg (· ++ _) hlog) hheld
  | @identified t rest hlog hid hheld =>
    rw [firstDrain_some]
    have hne : s.log ≠ before := by
      rw [hlog]
      simp
    exact (Opening.identified hlog hid hheld).extend hne (log_step cfg s (.runLoop now uptimeSec ok))
  | @acked v vs a rest hlog hheld =>
    rw [firstDrain_some]
    have hne : s.log ≠ before := by
      rw [hlog]
      simp
    exact (Opening.acked hlog hheld).extend hne (log_step cfg s (.runLoop now uptimeSec ok))

/-- A command can only come when the first envelope is out. -/
theorem Opening.step (h : Opening cfg before held s drained) (hin : s.inSession = true) {a : SimStep}
    (ha : WithServer before s a) :
    Opening cfg before held (s.step cfg a) (firstDrain s a drained) := by
  by_cases hloop : ∃ now uptimeSec ok, a = .runLoop now uptimeSec ok
  · obtain ⟨now,uptimeSec,ok,rfl⟩ := hloop
    exact h.runLoop now uptimeSec ok
  push Not at hloop
  have hquiet : runsLoop a = false := by
    cases a with
    | runLoop now uptimeSec ok => exact absurd rfl (hloop now uptimeSec ok)
    | _ => rfl
  rw [firstDrain_other fun h => absurd (hquiet.symm.trans h.1) Bool.noConfusion]
  by_cases hwritten : s.log = before
  · have hreader : s.reader = [] := by
      cases h with
      | waiting _ hreader => exact hreader
      | counting _ hreader => exact hreader
      | sampling _ hreader => exact hreader
      | owing _ hreader => exact hreader
      | identified hlog =>
        rw [hwritten] at hlog
        simp at hlog
      | acked hlog =>
        rw [hwritten] at hlog
        simp at hlog
    refine h.idles (idles_step hin hreader hloop ?_)
    rintro c rfl
    have hsaw : s.SawTelemetry before := ha
    rw [SawTelemetry, firstEnvelope, hwritten, List.drop_length] at hsaw
    exact hsaw rfl
  · cases drained with
    | none =>
      cases h with
      | waiting hlog => exact absurd hlog hwritten
    | some vs => exact h.extend hwritten (log_step cfg s a)

theorem inSession_step (hin : s.inSession = true) {a : SimStep} (ha : a ≠ .finish) :
    (s.step cfg a).inSession = true := by
  cases a with
  | finish => exact absurd rfl ha
  | connect =>
    rw [step, connect, if_pos hin]
    exact hin
  | read c =>
    rw [step, read]
    split <;> exact hin
  | readFails =>
    rw [step, readFails]
    split <;> exact hin
  | loopHead shutdown =>
    rw [step, loopHead]
    split
    · split <;> exact hin
    · exact hin
  | runReader now =>
    rw [step, runReader]
    split
    · exact (runReaderOp_frame ..).1.trans hin
    · exact hin
  | runLoop now uptimeSec ok =>
    rw [step, runLoop]
    split
    · exact (runLoopOp_frame ..).1.trans hin
    · exact hin
  | offline backoffMs =>
    rw [step, offline, if_pos hin]
    exact hin
  | console line => exact hin

end Steps

/-- Between sessions neither thread is on its way. -/
structure Rests (s : SimClient) : Prop where
  reader : s.reading = false → s.reader = []
  session : s.inSession = false → s.reading = false ∧ s.looping = false ∧ s.loop = []

section Rest
variable {cfg : SimConfig} {s : SimClient}

theorem Rests.runReader (h : Rests s) (now : ℤ) : Rests (s.runReader cfg now) := by
  unfold SimClient.runReader
  split
  · rename_i op rest hops
    obtain ⟨hin,hreading,hlooping,hloop,-⟩ := runReaderOp_frame cfg s rest now op
    refine ⟨?_,by rw [hin, hreading, hlooping, hloop]; exact h.session⟩
    rw [hreading]
    intro hdone
    rw [h.reader hdone] at hops
    cases hops
  · exact h

theorem Rests.runLoop (h : Rests s) (now : ℤ) (uptimeSec : BitVec 32) (ok : Bool) :
    Rests (s.runLoop cfg now uptimeSec ok) := by
  unfold SimClient.runLoop
  split
  · rename_i op rest hops
    obtain ⟨hin,hreading,hreader,-,-⟩ := runLoopOp_frame cfg s rest now uptimeSec ok op
    refine ⟨by rw [hreading, hreader]; exact h.reader,?_⟩
    rw [hin]
    intro hout
    rw [(h.session hout).2.2] at hops
    cases hops
  · exact h

theorem Rests.step (h : Rests s) (a : SimStep) : Rests (s.step cfg a) := by
  cases a with
  | connect =>
    rw [SimClient.step, connect]
    split
    · exact h
    · exact ⟨fun hdone => Bool.noConfusion hdone,fun hdone => Bool.noConfusion hdone⟩
  | read c =>
    rw [SimClient.step, read]
    split
    · rename_i hidle
      exact ⟨fun hdone => absurd (hidle.1.symm.trans hdone) Bool.noConfusion,h.session⟩
    · exact h
  | readFails =>
    rw [SimClient.step, readFails]
    split
    · rename_i hidle
      exact ⟨fun _ => hidle.2,fun hout => ⟨rfl,(h.session hout).2⟩⟩
    · exact h
  | loopHead shutdown =>
    rw [SimClient.step, loopHead]
    split
    · rename_i hhead
      split
      · exact ⟨h.reader,fun hout =>
          absurd (hhead.1.symm.trans (h.session hout).2.1) Bool.noConfusion⟩
      · exact ⟨h.reader,fun hout => ⟨(h.session hout).1,rfl,(h.session hout).2.2⟩⟩
    · exact h
  | runReader now => exact h.runReader now
  | runLoop now uptimeSec ok => exact h.runLoop now uptimeSec ok
  | finish =>
    rw [SimClient.step, finish]
    split
    · rename_i hdone
      exact ⟨h.reader,fun _ => hdone⟩
    · exact h
  | offline backoffMs =>
    rw [SimClient.step, offline]
    split
    · exact h
    · exact ⟨h.reader,h.session⟩
  | console line => exact ⟨h.reader,h.session⟩

/-- A session begins with the reader waiting and telemetry due. -/
theorem opening_connect (h : Rests s) (hout : s.inSession = false) :
    Opening cfg s.log s.gate.acks (s.connect cfg) none ∧ (s.connect cfg).inSession = true := by
  obtain ⟨hreading,-,hloop⟩ := h.session hout
  rw [connect, if_neg (by rw [hout]; exact Bool.noConfusion)]
  exact ⟨.waiting rfl (h.reader hreading) rfl (List.prefix_refl _) (Or.inl hloop),rfl⟩

end Rest

theorem opening_run {cfg : SimConfig} {s : SimClient} {before : List (SimThread × SimEnvelope)}
    {held : List Verdict} {drained : Option (List Verdict)} {as : List SimStep}
    (has : AllSteps (step cfg) (WithServer before) s as)
    (h : Opening cfg before held s drained ∧ s.inSession = true) :
    let p := exec (observe (step cfg) firstDrain) (s, drained) as
    Opening cfg before held p.1 p.2 := by
  have hrun := exec_invariant_of
    (C:=fun (p : SimClient × Option (List Verdict)) a => p.1.WithServer before a)
    (I:=fun p => Opening cfg before held p.1 p.2 ∧ p.1.inSession = true)
    (s:=(s, drained)) ?_ (has.observe firstDrain) h
  · exact hrun.1
  · rintro p a ha ⟨hopening,hin⟩
    exact ⟨hopening.step hin ha,inSession_step hin (by rintro rfl; exact ha)⟩

/-- The server takes a session of the simulator exactly if the gate holds no verdict at the first
drain of the session. Otherwise the first envelope is an ack, the server ends the stream with an
error and publishes nothing, and the drained verdicts are gone. What the gate held when the session
began is among them. -/
theorem session_identified_iff (cfg : SimConfig) (hid : cfg.gateId ≠ "") (bs as : List SimStep)
    (hout : (exec (step cfg) (boot cfg) bs).inSession = false)
    (has : AllSteps (step cfg) (WithServer (exec (step cfg) (boot cfg) bs).log)
      ((exec (step cfg) (boot cfg) bs).connect cfg) as) (server : Dash.Server) (σ : ℕ)
    (hnew : (server.session σ).stage = .unopened) :
    let s := exec (step cfg) (boot cfg) bs
    let p := exec (observe (step cfg) firstDrain) (s.connect cfg, none) as
    ∀ e ∈ p.1.firstEnvelope s.log, ∃ vs, p.2 = some vs ∧ s.gate.acks <+: vs ∧
      let opened := server.openStream σ (some e.payload)
      (vs = [] → (opened.session σ).stage = .announcing ∧ (opened.session σ).gateId = cfg.gateId) ∧
      (vs ≠ [] → (opened.session σ).stage =
          .ended (.invalidArgument "first envelope must be Telemetry carrying gate_id") ∧
        opened.bus = server.bus ∧ opened.publisher = server.publisher) := by
  intro s p e he
  have hrests : Rests s := exec_invariant (fun _ a h => h.step a) bs
    ⟨fun _ => rfl,fun _ => ⟨rfl,rfl,rfl⟩⟩
  have hopening : Opening cfg s.log s.gate.acks p.1 p.2 :=
    opening_run has (opening_connect hrests hout)
  have hfirst : ∀ {x : SimEnvelope} {rest : List (SimThread × SimEnvelope)},
      p.1.log = s.log ++ (.loop, x) :: rest → e = x := by
    intro x rest hlog
    rw [Option.mem_def, firstEnvelope, hlog, List.drop_left] at he
    exact (Option.some.inj he).symm
  have hnone : p.1.log ≠ s.log := by
    intro hlog
    rw [Option.mem_def, firstEnvelope, hlog, List.drop_length] at he
    cases he
  generalize p.2 = drained at hopening ⊢
  cases hopening with
  | waiting hlog => exact absurd hlog hnone
  | counting hlog => exact absurd hlog hnone
  | sampling hlog => exact absurd hlog hnone
  | owing hlog => exact absurd hlog hnone
  | @identified t rest hlog hgate hheld =>
    refine ⟨[],rfl,hheld,fun _ => ?_,fun hne => absurd rfl hne⟩
    rw [hfirst hlog]
    have hopened := Dash.Server.openStream_telemetry hnew (hgate.symm ▸ hid)
    exact ⟨hopened.1,hopened.2.trans hgate⟩
  | @acked v vs a rest hlog hheld =>
    refine ⟨v :: vs,rfl,hheld,fun h => absurd h (List.cons_ne_nil _ _),fun _ => ?_⟩
    rw [hfirst hlog]
    exact Dash.Server.openStream_other hnew fun _ => Dash.ControlPayload.noConfusion

/-- A session ends while the gate still moves on an open command, and the command's deadline passes
before the next one. -/
def timedOutOffline : List SimStep :=
  [.connect, .loopHead false] ++ List.replicate 8 (.runLoop 0 0 true) ++
    [.read (some ⟨[1],.openGate⟩), .runReader 0, .runReader 0, .runReader 0, .readFails,
      .loopHead false, .finish, .offline 60000]

/-- The first iteration of a session up to its first envelope. -/
def firstIteration : List SimStep :=
  .loopHead false :: List.replicate 4 (.runLoop 0 0 true)

theorem session_identified_iff_timeout :
    (exec (step {}) (boot {}) timedOutOffline).gate.acks ≠ [] ∧
    ∃ vs, (exec (observe (step {}) firstDrain)
        ((exec (step {}) (boot {}) timedOutOffline).connect {}, none) firstIteration).2 = some vs ∧
      (exec (step {}) (boot {}) timedOutOffline).gate.acks <+: vs ∧
      let opened := Dash.Server.openStream {} 0 (some .ack)
      (vs = [] → (opened.session 0).stage = .announcing ∧
        (opened.session 0).gateId = SimConfig.gateId {}) ∧
      (vs ≠ [] → (opened.session 0).stage =
          .ended (.invalidArgument "first envelope must be Telemetry carrying gate_id") ∧
        opened.bus = Dash.Server.bus {} ∧ opened.publisher = Dash.Server.publisher {}) :=
  ⟨by decide +kernel,session_identified_iff {} (by decide) timedOutOffline firstIteration
    (by decide +kernel) (by decide +kernel) {} 0 rfl
    (.ack ⟨[1],none,some ⟨0,0⟩,true,false,"deadline exceeded awaiting terminal state",.open⟩)
    (by decide +kernel)⟩

end SimClient
end AlprGate.Sim
