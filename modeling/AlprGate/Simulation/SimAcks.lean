import AlprGate.Simulation.SimClient

/-! # Receipts and completions of the simulator

Every command is acked when it is received and completed later. The completions of the motion
commands are the verdicts of the tracker, which go through the gate's list and the loop. What has
been written, what a thread is about to write and what the gate still holds are at all times the
commands received, in their order.
-/
namespace AlprGate.Rpc.CommandTracker
open StateMachine

/-- The id of the command that is not decided yet. -/
def armedIds (t : CommandTracker) : List (List UInt8) := if t.armed = true then [t.id] else []

theorem armedIds_resolve {t : CommandTracker} (h : t.armed = true) (success : Bool)
    (error : String) : (t.resolve success error).2.toList.map Verdict.commandId ++
      armedIds (t.resolve success error).1 = t.armedIds := by
  simp [resolve, armedIds, h]

theorem armedIds_onGateEvent (t : CommandTracker) (s : State) (r : Reason) (transitioned : Bool) :
    (t.onGateEvent s r transitioned).2.toList.map Verdict.commandId ++
      armedIds (t.onGateEvent s r transitioned).1 = t.armedIds := by
  by_cases harmed : t.armed = true
  · rcases t.onGateEvent_cases s r transitioned with h | ⟨success,error,h⟩
    · rw [h]
      rfl
    · rw [h]
      exact armedIds_resolve harmed success error
  · rw [onGateEvent, if_pos (Bool.eq_false_iff.mpr harmed)]
    rfl

theorem armedIds_onTick (t : CommandTracker) (nowMs : BitVec 32) :
    (t.onTick nowMs).2.toList.map Verdict.commandId ++ armedIds (t.onTick nowMs).1 = t.armedIds := by
  unfold onTick
  split
  · rfl
  · rename_i hdue
    have harmed : t.armed = true := by
      by_contra hunarmed
      exact hdue (Or.inl (Bool.eq_false_iff.mpr hunarmed))
    exact armedIds_resolve harmed _ _

/-- A command that is armed over an undecided one comes behind it. -/
theorem armedIds_arm (t : CommandTracker) (commandId : List UInt8) (terminalOk : State)
    (deadlineMs : BitVec 32) :
    (t.arm commandId terminalOk deadlineMs).2.toList.map Verdict.commandId ++
      armedIds (t.arm commandId terminalOk deadlineMs).1 =
      t.armedIds ++ [storedId commandId] := by
  by_cases harmed : t.armed = true
  · simp [arm, armedIds, resolve, harmed]
  · simp [arm, armedIds, harmed]

end AlprGate.Rpc.CommandTracker

namespace AlprGate.Sim
open StateMachine Rpc Transition

namespace VirtualGate

/-- A property of the tracker and the verdicts it has given that no gate event changes. -/
def Unmoved (P : CommandTracker → List Verdict → Prop) : Prop :=
  ∀ t acks s r transitioned, P t acks →
    P (t.onGateEvent s r transitioned).1 (acks ++ (t.onGateEvent s r transitioned).2.toList)

/-- The same for the deadline. -/
def Untimed (P : CommandTracker → List Verdict → Prop) : Prop :=
  ∀ t acks nowMs, P t acks → P (t.onTick nowMs).1 (acks ++ (t.onTick nowMs).2.toList)

section Operations
variable {P : CommandTracker → List Verdict → Prop} (cfg : Config) {g : VirtualGate}

/-- Actions and deadlines are no business of the tracker. -/
theorem tracker_drives (g : VirtualGate) (out : Outputs) :
    ((out.actions.foldl drive g).setDeadlines cfg out).tracker = g.tracker ∧
    ((out.actions.foldl drive g).setDeadlines cfg out).acks = g.acks := by
  have hdrive : ∀ actions : List Action, (actions.foldl drive g).tracker = g.tracker ∧
      (actions.foldl drive g).acks = g.acks := by
    intro actions
    induction actions generalizing g with
    | nil => exact ⟨rfl,rfl⟩
    | cons a actions ih =>
      have hone : (g.drive a).tracker = g.tracker ∧ (g.drive a).acks = g.acks := by
        cases a <;> exact ⟨rfl,rfl⟩
      rw [List.foldl_cons, (ih (g.drive a)).1, (ih (g.drive a)).2]
      exact hone
  unfold setDeadlines
  split
  · exact hdrive out.actions
  · exact hdrive out.actions

theorem Unmoved.absorb (hP : Unmoved P) (h : P g.tracker g.acks) (out : Outputs) :
    P (g.absorb cfg out).tracker (g.absorb cfg out).acks := by
  obtain ⟨htracker,hacks⟩ := tracker_drives cfg g out
  rw [VirtualGate.absorb, report]
  split
  · rw [record, htracker, hacks]
    exact hP g.tracker g.acks _ _ _ h
  · rw [htracker, hacks]
    exact h

theorem Unmoved.applyLocked (hP : Unmoved P) (h : P g.tracker g.acks) (depth : ℕ) (out : Outputs) :
    P (VirtualGate.applyLocked cfg depth g out).tracker
      (VirtualGate.applyLocked cfg depth g out).acks := by
  induction depth generalizing g out with
  | zero => exact h
  | succ depth ih =>
    have habsorb := hP.absorb cfg h out
    rw [VirtualGate.applyLocked]
    dsimp only
    split
    · refine ih ?_ _
      exact habsorb
    · split
      · exact habsorb
      · exact habsorb

theorem Unmoved.stepLocked (hP : Unmoved P) (h : P g.tracker g.acks) (ev : Event) :
    P (g.stepLocked cfg ev).tracker (g.stepLocked cfg ev).acks :=
  hP.applyLocked cfg (g:={ g with machine := (handle g.machine ev).1 }) h kApplyDepth _

theorem Unmoved.resolvePositionLocked (hP : Unmoved P) (h : P g.tracker g.acks) :
    P (g.resolvePositionLocked cfg).tracker (g.resolvePositionLocked cfg).acks :=
  hP.applyLocked cfg
    (g:={ g with machine := (initPosition cfg g.positionMs g.machine).1 }) h kApplyDepth _

theorem Unmoved.advance (hP : Unmoved P) (hT : Untimed P) (h : P g.tracker g.acks) (dtMs : ℕ) :
    P (g.advance cfg dtMs).tracker (g.advance cfg dtMs).acks := by
  have htravel : P ((g.tick dtMs).travel cfg dtMs).tracker ((g.tick dtMs).travel cfg dtMs).acks := by
    have htick : P (g.tick dtMs).tracker (g.tick dtMs).acks := hT g.tracker g.acks _ h
    unfold travel
    split
    · split
      · refine hP.stepLocked cfg ?_ _
        exact htick
      · exact htick
    · split
      · split
        · refine hP.stepLocked cfg ?_ _
          exact htick
        · exact htick
      · exact htick
  have hwatchdog : P (((g.tick dtMs).travel cfg dtMs).checkWatchdog cfg).tracker
      (((g.tick dtMs).travel cfg dtMs).checkWatchdog cfg).acks := by
    unfold checkWatchdog
    split
    · refine hP.stepLocked cfg ?_ _
      exact htravel
    · exact htravel
  unfold VirtualGate.advance checkAutoclose
  split
  · refine hP.stepLocked cfg ?_ _
    exact hwatchdog
  · exact hwatchdog

theorem Unmoved.reboot (hP : Unmoved P) (h : P g.tracker g.acks) :
    P (g.reboot cfg).tracker (g.reboot cfg).acks := by
  refine hP.resolvePositionLocked cfg ?_
  exact h

/-- What the console can do. -/
theorem Unmoved.console (hP : Unmoved P) (h : P g.tracker g.acks) (line : ConsoleLine) :
    P (g.step cfg line.input).tracker (g.step cfg line.input).acks := by
  cases line with
  | «open» => exact hP.stepLocked cfg h _
  | close => exact hP.stepLocked cfg h _
  | stop => exact hP.stepLocked cfg h _
  | trip => exact hP.stepLocked cfg (g:={ g with beamBlocked := true }) h _
  | clear => exact hP.stepLocked cfg (g:={ g with beamBlocked := false }) h _
  | faultClear =>
    change P (g.clearFault cfg).tracker (g.clearFault cfg).acks
    have hcleared := hP.stepLocked cfg h .faultCleared
    rw [clearFault]
    split
    · exact hP.resolvePositionLocked cfg hcleared
    · exact hcleared
  | reboot => exact hP.reboot cfg h

end Operations

/-- The ids of the tracked commands whose verdict has not left the gate. -/
def outstanding (g : VirtualGate) : List (List UInt8) :=
  g.acks.map Verdict.commandId ++ g.tracker.armedIds

section Outstanding
variable (ids : List (List UInt8))

theorem unmoved_outstanding :
    Unmoved fun t acks => acks.map Verdict.commandId ++ t.armedIds = ids := by
  intro t acks s r transitioned h
  rw [List.map_append, List.append_assoc, CommandTracker.armedIds_onGateEvent]
  exact h

theorem untimed_outstanding :
    Untimed fun t acks => acks.map Verdict.commandId ++ t.armedIds = ids := by
  intro t acks nowMs h
  rw [List.map_append, List.append_assoc, CommandTracker.armedIds_onTick]
  exact h

end Outstanding

variable (cfg : Config) (g : VirtualGate)

/-- A tracked command joins the ones outstanding. -/
theorem outstanding_issue (commandId : List UInt8) (c : Motion) :
    (g.issue cfg commandId c).outstanding =
      g.outstanding ++ [storedId commandId] := by
  refine (unmoved_outstanding _).stepLocked cfg ?_ _
  rw [record, List.map_append, List.append_assoc, CommandTracker.armedIds_arm, outstanding,
    List.append_assoc]

theorem outstanding_advance (dtMs : ℕ) : (g.advance cfg dtMs).outstanding = g.outstanding :=
  (unmoved_outstanding _).advance cfg (untimed_outstanding _) rfl dtMs

theorem outstanding_reboot : (g.reboot cfg).outstanding = g.outstanding :=
  (unmoved_outstanding _).reboot cfg rfl

theorem outstanding_console (line : ConsoleLine) :
    (g.step cfg line.input).outstanding = g.outstanding :=
  (unmoved_outstanding _).console cfg rfl line

end VirtualGate

/-- The command whose receipt an envelope acks. -/
def SimEnvelope.receipt : SimEnvelope → Option (List UInt8)
  | .ack a => if a.completed = true then none else some a.commandId
  | .telemetry _ => none

def SimEnvelope.completion : SimEnvelope → Option Verdict
  | .ack a => if a.completed = true then some ⟨a.commandId,a.success,a.errorText⟩ else none
  | .telemetry _ => none

def SimEnvelope.seq : SimEnvelope → Option ℕ
  | .telemetry t => some t.seq
  | .ack _ => none

/-- The id under which the gate tracks a command. -/
def Command.tracked (c : Command) : Option (List UInt8) :=
  if c.answer = none then some (storedId c.commandId) else none

/-- A verdict as it is told: a success has no error text. -/
def told (v : Verdict) : Verdict := ⟨v.commandId,v.success,if v.success = true then "" else v.error⟩

def ReaderOp.receipt : ReaderOp → Option (List UInt8)
  | .ackReceived c => some c.commandId
  | .write a => (SimEnvelope.ack a).receipt
  | _ => none

def ReaderOp.tracked : ReaderOp → Option (List UInt8)
  | .act c => c.tracked
  | _ => none

def ReaderOp.completion : ReaderOp → Option Verdict
  | .act c => c.answer
  | .ackCompleted v => some (told v)
  | .write a => (SimEnvelope.ack a).completion
  | .ackReceived _ => none

def LoopOp.completion : LoopOp → Option Verdict
  | .ackCompleted v => some (told v)
  | .write e => e.completion
  | _ => none

def LoopOp.seq : LoopOp → Option ℕ
  | .write e => e.seq
  | _ => none

theorem answer_told {c : Command} {v : Verdict} (h : c.answer = some v) : told v = v := by
  unfold Command.answer at h
  split at h <;> cases h <;> rfl

/-- What `f` reads off the envelopes that a thread has written. -/
def writtenBy {β : Type*} (t : SimThread) (f : SimEnvelope → Option β)
    (log : List (SimThread × SimEnvelope)) : List β :=
  log.filterMap fun p => if p.1 = t then f p.2 else none

section Log
variable {β : Type*} (f : SimEnvelope → Option β) (log : List (SimThread × SimEnvelope))
  (e : SimEnvelope)

theorem writtenBy_self (t : SimThread) :
    writtenBy t f (log ++ [(t, e)]) = writtenBy t f log ++ (f e).toList := by
  rw [writtenBy, List.filterMap_append]
  cases hf : f e <;> simp [hf, writtenBy]

theorem writtenBy_other {t u : SimThread} (h : u ≠ t) :
    writtenBy t f (log ++ [(u, e)]) = writtenBy t f log := by
  simp [writtenBy, h]

theorem toList_append_filterMap {α : Type*} (g : α → Option β) (a : α) (as : List α) :
    (g a).toList ++ as.filterMap g = (a :: as).filterMap g := by
  rw [List.filterMap_cons]
  cases g a <;> rfl

end Log

namespace SimClient

def receipts (s : SimClient) : List (List UInt8) := writtenBy .reader SimEnvelope.receipt s.log

def answers (s : SimClient) : List Verdict := writtenBy .reader SimEnvelope.completion s.log

def settled (s : SimClient) : List Verdict := writtenBy .loop SimEnvelope.completion s.log

def sentSeqs (s : SimClient) : List ℕ := writtenBy .loop SimEnvelope.seq s.log

/-- Where the loop can be in its iteration. -/
inductive LoopAt : List LoopOp → Prop
  | head : LoopAt []
  | advance : LoopAt [.advance, .drainAcks, .countTelemetry]
  | drain : LoopAt [.drainAcks, .countTelemetry]
  | acks (vs : List Verdict) : LoopAt (vs.map .ackCompleted ++ [.countTelemetry])
  | ack (a : SimAck) (vs : List Verdict) :
    LoopAt (.write (.ack a) :: (vs.map .ackCompleted ++ [.countTelemetry]))
  | readState (t : SimTelemetry) : LoopAt [.readState t]
  | readLimitOpen (t : SimTelemetry) : LoopAt [.readLimitOpen t]
  | readLimitClosed (t : SimTelemetry) : LoopAt [.readLimitClosed t]
  | readBeam (t : SimTelemetry) : LoopAt [.readBeam t]
  | telemetry (t : SimTelemetry) : LoopAt [.write (.telemetry t)]

/-- What has been written, what a thread is about to write and what the gate still holds, put
together, are the commands received. -/
structure Accounts (s : SimClient) : Prop where
  receipts : s.receipts ++ s.reader.filterMap ReaderOp.receipt = s.received.map Command.commandId
  answers : s.answers ++ s.reader.filterMap ReaderOp.completion =
    s.received.filterMap Command.answer
  tracked : (s.settled ++ s.loop.filterMap LoopOp.completion).map Verdict.commandId ++
    s.gate.outstanding ++ s.reader.filterMap ReaderOp.tracked =
    s.received.filterMap Command.tracked
  seqs : s.sentSeqs ++ s.loop.filterMap LoopOp.seq = List.range s.telemetrySeq
  at_loop : LoopAt s.loop

section Steps
variable {cfg : SimConfig} {s : SimClient}

theorem Accounts.gate (h : Accounts s) {g : VirtualGate} (hg : g.outstanding = s.gate.outstanding) :
    Accounts { s with gate := g } where
  receipts := h.receipts
  answers := h.answers
  tracked := hg ▸ h.tracked
  seqs := h.seqs
  at_loop := h.at_loop

/-- The reader replaces its next operation by others that stand for the same. -/
theorem Accounts.reader (h : Accounts s) {op : ReaderOp} {rest : List ReaderOp}
    (hops : s.reader = op :: rest) (ops : List ReaderOp)
    (hreceipt : ops.filterMap ReaderOp.receipt = op.receipt.toList)
    (hcompletion : ops.filterMap ReaderOp.completion = op.completion.toList)
    (htracked : ops.filterMap ReaderOp.tracked = op.tracked.toList) :
    Accounts { s with reader := ops ++ rest } := by
  have hsame : ∀ {β : Type} (f : ReaderOp → Option β), ops.filterMap f = (f op).toList →
      (ops ++ rest).filterMap f = s.reader.filterMap f := by
    intro β f hf
    rw [hops, List.filterMap_append, hf, toList_append_filterMap]
  refine ⟨?_,?_,?_,h.seqs,h.at_loop⟩
  · rw [← h.receipts, ← hsame _ hreceipt]
    rfl
  · rw [← h.answers, ← hsame _ hcompletion]
    rfl
  · rw [← h.tracked, ← hsame _ htracked]
    rfl

/-- A motion command goes from the reader to the gate. -/
theorem Accounts.issue (h : Accounts s) {c : Command} {rest : List ReaderOp}
    (hops : s.reader = .act c :: rest) (hanswer : c.answer = none) (m : Motion) :
    Accounts { s with gate := s.gate.issue cfg.gate c.commandId m, reader := rest } := by
  have htracked : c.tracked = some (storedId c.commandId) := by
    rw [Command.tracked, if_pos hanswer]
  obtain ⟨hreceipts,hanswers,hmotions,hseqs,hloop⟩ := h
  rw [hops] at hreceipts hanswers hmotions
  refine ⟨hreceipts,?_,?_,hseqs,hloop⟩
  · rw [← hanswers, List.filterMap_cons]
    simp only [ReaderOp.completion, hanswer]
    rfl
  · rw [← hmotions, List.filterMap_cons]
    simp only [ReaderOp.tracked, htracked, VirtualGate.outstanding_issue]
    simp [settled]

/-- Any other command is answered by the reader. -/
theorem Accounts.answer (h : Accounts s) {c : Command} {rest : List ReaderOp} {v : Verdict}
    (hops : s.reader = .act c :: rest) (hanswer : c.answer = some v) :
    Accounts { s with reader := .ackCompleted v :: rest } := by
  have htracked : c.tracked = none := by
    rw [Command.tracked, if_neg (by simp [hanswer])]
  refine h.reader hops [.ackCompleted v] rfl ?_ ?_
  · simp [ReaderOp.completion, hanswer, answer_told hanswer]
  · simp [ReaderOp.tracked, htracked]

theorem Accounts.act (h : Accounts s) {c : Command} {rest : List ReaderOp}
    (hops : s.reader = .act c :: rest) : Accounts (s.act cfg rest c) := by
  unfold SimClient.act
  split
  · rename_i hkind
    exact h.issue hops (by rw [Command.answer, hkind]) .open
  · rename_i hkind
    exact h.issue hops (by rw [Command.answer, hkind]) .close
  · rename_i hkind
    exact h.answer hops (by rw [Command.answer, hkind])
  · rename_i hkind
    have hreboot := h.gate (VirtualGate.outstanding_reboot cfg.gate s.gate)
    exact hreboot.answer hops (by rw [Command.answer, hkind])
  · rename_i hkind
    exact h.answer hops (by rw [Command.answer, hkind])
  · rename_i hopen hclose hled hreboot hota
    refine h.answer hops ?_
    unfold Command.answer
    split <;> simp_all

theorem Accounts.runReaderOp (h : Accounts s) {op : ReaderOp} {rest : List ReaderOp}
    (hops : s.reader = op :: rest) (now : ℤ) : Accounts (s.runReaderOp cfg rest now op) := by
  cases op with
  | ackReceived c => exact h.reader hops [.write _] rfl rfl rfl
  | act c => exact h.act hops
  | ackCompleted v => exact h.reader hops [.write _] rfl rfl rfl
  | write a =>
    obtain ⟨hreceipts,hanswers,hmotions,hseqs,hloop⟩ := h
    rw [hops] at hmotions
    rw [hops, ← toList_append_filterMap, ← List.append_assoc] at hreceipts hanswers
    refine ⟨?_,?_,?_,?_,hloop⟩
    · exact (congrArg (· ++ _) (writtenBy_self SimEnvelope.receipt s.log _ _)).trans hreceipts
    · exact (congrArg (· ++ _) (writtenBy_self SimEnvelope.completion s.log _ _)).trans hanswers
    · change (writtenBy .loop SimEnvelope.completion (s.log ++ [(.reader, .ack a)]) ++ _).map _ ++
        s.gate.outstanding ++ rest.filterMap ReaderOp.tracked = _
      rw [writtenBy_other _ _ _ (by decide)]
      exact hmotions
    · change writtenBy .loop SimEnvelope.seq (s.log ++ [(.reader, .ack a)]) ++ _ = _
      rw [writtenBy_other _ _ _ (by decide)]
      exact hseqs

/-- The loop replaces its next operation by others that stand for the same. -/
theorem Accounts.loop (h : Accounts s) {op : LoopOp} {rest : List LoopOp}
    (hops : s.loop = op :: rest) (ops : List LoopOp)
    (hcompletion : ops.filterMap LoopOp.completion = op.completion.toList)
    (hseq : ops.filterMap LoopOp.seq = op.seq.toList) (hat : LoopAt (ops ++ rest)) :
    Accounts { s with loop := ops ++ rest } := by
  have hsame : ∀ {β : Type} (f : LoopOp → Option β), ops.filterMap f = (f op).toList →
      (ops ++ rest).filterMap f = s.loop.filterMap f := by
    intro β f hf
    rw [hops, List.filterMap_append, hf, toList_append_filterMap]
  refine ⟨h.receipts,h.answers,?_,?_,hat⟩
  · rw [← h.tracked, ← hsame _ hcompletion]
    rfl
  · rw [← h.seqs, ← hsame _ hseq]
    rfl

/-- Draining hands the verdicts over in their order. -/
theorem Accounts.drainAcks (h : Accounts s) (hops : s.loop = [.drainAcks, .countTelemetry]) :
    Accounts { s with
      gate := { s.gate with acks := [] }
      loop := s.gate.acks.map .ackCompleted ++ [.countTelemetry] } := by
  obtain ⟨hreceipts,hanswers,hmotions,hseqs,-⟩ := h
  rw [hops] at hmotions hseqs
  refine ⟨hreceipts,hanswers,?_,?_,.acks s.gate.acks⟩
  · rw [← hmotions]
    simp [settled, VirtualGate.outstanding, LoopOp.completion, told, Function.comp_def,
      List.filterMap_cons]
  · rw [← hseqs]
    simp [sentSeqs, LoopOp.seq, Function.comp_def, List.filterMap_cons]

/-- A completion leaves the loop. -/
theorem Accounts.writeAck (h : Accounts s) {a : SimAck} {vs : List Verdict}
    (hops : s.loop = .write (.ack a) :: (vs.map .ackCompleted ++ [.countTelemetry])) :
    Accounts { s with
      loop := vs.map .ackCompleted ++ [.countTelemetry], log := s.log ++ [(.loop, .ack a)] } := by
  obtain ⟨hreceipts,hanswers,hmotions,hseqs,-⟩ := h
  rw [hops] at hseqs
  rw [hops, ← toList_append_filterMap, ← List.append_assoc] at hmotions
  refine ⟨?_,?_,?_,?_,.acks vs⟩
  · exact (congrArg (· ++ _) (writtenBy_other _ _ _ (by decide))).trans hreceipts
  · exact (congrArg (· ++ _) (writtenBy_other _ _ _ (by decide))).trans hanswers
  · change (writtenBy .loop SimEnvelope.completion (s.log ++ [(.loop, .ack a)]) ++ _).map _ ++
      s.gate.outstanding ++ _ = _
    rw [writtenBy_self]
    exact hmotions
  · rw [← hseqs]
    have hself := writtenBy_self SimEnvelope.seq s.log (.ack a) .loop
    exact congrArg (· ++ _) (hself.trans (List.append_nil _))

/-- Telemetry leaves the loop. -/
theorem Accounts.writeTelemetry (h : Accounts s) {t : SimTelemetry}
    (hops : s.loop = [.write (.telemetry t)]) (looping : Bool) :
    Accounts { s with
      loop := [], looping := looping, log := s.log ++ [(.loop, .telemetry t)] } := by
  obtain ⟨hreceipts,hanswers,hmotions,hseqs,-⟩ := h
  rw [hops] at hseqs
  rw [hops, ← toList_append_filterMap, ← List.append_assoc] at hmotions
  refine ⟨?_,?_,?_,?_,.head⟩
  · exact (congrArg (· ++ _) (writtenBy_other _ _ _ (by decide))).trans hreceipts
  · exact (congrArg (· ++ _) (writtenBy_other _ _ _ (by decide))).trans hanswers
  · change (writtenBy .loop SimEnvelope.completion (s.log ++ [(.loop, .telemetry t)]) ++ _).map _ ++
      s.gate.outstanding ++ _ = _
    rw [writtenBy_self]
    exact hmotions
  · rw [← hseqs]
    have hself := writtenBy_self SimEnvelope.seq s.log (.telemetry t) .loop
    exact (congrArg (· ++ _) hself).trans (List.append_nil _)

theorem Accounts.runLoop (h : Accounts s) (now : ℤ) (uptimeSec : BitVec 32) (ok : Bool) :
    Accounts (s.runLoop cfg now uptimeSec ok) := by
  have hat := h.at_loop
  generalize hops : s.loop = ops at hat
  unfold SimClient.runLoop
  cases hat with
  | head =>
    rw [hops]
    exact h
  | advance =>
    rw [hops]
    have hgate := h.gate (VirtualGate.outstanding_advance cfg.gate s.gate cfg.tickMs)
    exact hgate.loop hops [] rfl rfl .drain
  | drain =>
    rw [hops]
    exact h.drainAcks hops
  | acks vs =>
    cases vs with
    | nil =>
      rw [hops]
      change Accounts (s.runLoopOp cfg [] now uptimeSec ok .countTelemetry)
      rw [runLoopOp]
      split
      · have hnext := h.loop hops [.readState (emptyTelemetry cfg now)] rfl rfl (.readState _)
        exact ⟨hnext.receipts,hnext.answers,hnext.tracked,hnext.seqs,hnext.at_loop⟩
      · have hnext := h.loop hops [] rfl rfl .head
        exact ⟨hnext.receipts,hnext.answers,hnext.tracked,hnext.seqs,hnext.at_loop⟩
    | cons v vs =>
      rw [hops]
      exact h.loop hops [.write _] rfl rfl (.ack _ vs)
  | ack a vs =>
    rw [hops]
    exact h.writeAck hops
  | readState t =>
    rw [hops]
    exact h.loop hops [.readLimitOpen _] rfl rfl (.readLimitOpen _)
  | readLimitOpen t =>
    rw [hops]
    exact h.loop hops [.readLimitClosed _] rfl rfl (.readLimitClosed _)
  | readLimitClosed t =>
    rw [hops]
    exact h.loop hops [.readBeam _] rfl rfl (.readBeam _)
  | readBeam t =>
    rw [hops]
    obtain ⟨hreceipts,hanswers,hmotions,hseqs,-⟩ := h
    rw [hops] at hmotions hseqs
    refine ⟨hreceipts,hanswers,hmotions,?_,.telemetry _⟩
    exact (congrArg (· ++ _) ((List.append_nil _).symm.trans hseqs)).trans List.range_succ.symm
  | telemetry t =>
    rw [hops]
    exact h.writeTelemetry hops _

theorem Accounts.read (h : Accounts s) (c : Option Command) : Accounts (s.read c) := by
  unfold SimClient.read
  split
  · rename_i hidle
    obtain ⟨hreceipts,hanswers,hmotions,hseqs,hloop⟩ := h
    rw [hidle.2] at hreceipts hanswers hmotions
    refine ⟨?_,?_,?_,hseqs,hloop⟩
    · rw [List.map_append, ← hreceipts]
      cases c <;> simp [SimClient.receipts, ReaderOp.receipt, List.filterMap_cons]
    · rw [List.filterMap_append, ← hanswers]
      cases c <;> simp [SimClient.answers, ReaderOp.completion, List.filterMap_cons]
    · rw [List.filterMap_append, ← hmotions]
      cases c <;> simp [SimClient.settled, ReaderOp.tracked, List.filterMap_cons]
  · exact h

theorem Accounts.loopHead (h : Accounts s) (shutdown : Bool) : Accounts (s.loopHead shutdown) := by
  unfold SimClient.loopHead
  split
  · rename_i hidle
    split
    · obtain ⟨hreceipts,hanswers,hmotions,hseqs,-⟩ := h
      rw [hidle.2] at hmotions hseqs
      exact ⟨hreceipts,hanswers,hmotions,hseqs,.advance⟩
    · exact ⟨h.receipts,h.answers,h.tracked,h.seqs,h.at_loop⟩
  · exact h

theorem Accounts.step (h : Accounts s) (a : SimStep) : Accounts (s.step cfg a) := by
  cases a with
  | connect =>
    rw [SimClient.step, connect]
    split
    · exact h
    · exact ⟨h.receipts,h.answers,h.tracked,h.seqs,h.at_loop⟩
  | read c => exact h.read c
  | readFails =>
    rw [SimClient.step, readFails]
    split
    · exact ⟨h.receipts,h.answers,h.tracked,h.seqs,h.at_loop⟩
    · exact h
  | loopHead shutdown => exact h.loopHead shutdown
  | runReader now =>
    rw [SimClient.step, runReader]
    split
    · rename_i op rest hops
      exact h.runReaderOp hops now
    · exact h
  | runLoop now uptimeSec ok => exact h.runLoop now uptimeSec ok
  | finish =>
    rw [SimClient.step, finish]
    split
    · exact ⟨h.receipts,h.answers,h.tracked,h.seqs,h.at_loop⟩
    · exact h
  | offline backoffMs =>
    rw [SimClient.step, offline]
    split
    · exact h
    · exact h.gate (VirtualGate.outstanding_advance ..)
  | console line => exact h.gate (VirtualGate.outstanding_console ..)

/-- Where the reader can be with the last command: its receipt is written before anything else
is done. -/
inductive ReaderAt : List Command → List ReaderOp → Prop
  | idle (cs : List Command) : ReaderAt cs []
  | ackReceived (cs : List Command) (c : Command) : ReaderAt (cs ++ [c]) [.ackReceived c, .act c]
  | receipt (cs : List Command) (c : Command) {a : SimAck} (h : a.completed = false) :
    ReaderAt (cs ++ [c]) [.write a, .act c]
  | act (cs : List Command) (c : Command) : ReaderAt (cs ++ [c]) [.act c]
  | ackCompleted (cs : List Command) (v : Verdict) : ReaderAt cs [.ackCompleted v]
  | completion (cs : List Command) {a : SimAck} (h : a.completed = true) : ReaderAt cs [.write a]

theorem ReaderAt.runReader (h : ReaderAt s.received s.reader) (now : ℤ) :
    ReaderAt (s.runReader cfg now).received (s.runReader cfg now).reader := by
  generalize hcs : s.received = cs at h
  generalize hops : s.reader = ops at h
  unfold SimClient.runReader
  rw [hops]
  cases h with
  | idle =>
    rw [hops]
    exact .idle _
  | ackReceived cs c =>
    change ReaderAt s.received _
    rw [hcs]
    exact .receipt cs c rfl
  | receipt cs c h =>
    change ReaderAt s.received _
    rw [hcs]
    exact .act cs c
  | act cs c =>
    change ReaderAt (s.act cfg [] c).received (s.act cfg [] c).reader
    unfold SimClient.act
    split
    · exact .idle _
    · exact .idle _
    · exact .ackCompleted _ _
    · exact .ackCompleted _ _
    · exact .ackCompleted _ _
    · exact .ackCompleted _ _
  | ackCompleted cs v => exact .completion _ rfl
  | completion cs h => exact .idle _

theorem ReaderAt.step (h : ReaderAt s.received s.reader) (a : SimStep) :
    ReaderAt (s.step cfg a).received (s.step cfg a).reader := by
  cases a with
  | connect =>
    rw [SimClient.step, connect]
    split
    · exact h
    · exact h
  | read c =>
    rw [SimClient.step, SimClient.read]
    split
    · cases c with
      | none => exact .idle _
      | some c => exact .ackReceived _ c
    · exact h
  | readFails =>
    rw [SimClient.step, readFails]
    split
    · exact h
    · exact h
  | loopHead shutdown =>
    rw [SimClient.step, SimClient.loopHead]
    split
    · split
      · exact h
      · exact h
    · exact h
  | runReader now => exact h.runReader now
  | runLoop now uptimeSec ok =>
    rw [SimClient.step, SimClient.runLoop]
    split
    · rename_i op rest _
      obtain ⟨-,-,hreader,hreceived,-⟩ := runLoopOp_frame cfg s rest now uptimeSec ok op
      rw [hreader, hreceived]
      exact h
    · exact h
  | finish =>
    rw [SimClient.step, finish]
    split
    · exact h
    · exact h
  | offline backoffMs =>
    rw [SimClient.step, offline]
    split
    · exact h
    · exact h
  | console line => exact h

end Steps

section Ends
variable {s : SimClient}

end Ends

end SimClient
end AlprGate.Sim
