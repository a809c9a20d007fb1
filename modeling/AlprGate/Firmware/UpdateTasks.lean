import AlprGate.Firmware.OtaUpdater

/-! # The tasks that update and restart the firmware

The `gate_rpc` task handles commands one at a time, a `gate_ota` task runs one update, and the
reboot timer restarts the device. They share the running flag of the updater, the buffer with the
id of the pending command and the timer. Each step of a run is one access to these of one task, so
every interleaving is a run. The device does nothing any more once it has restarted, or once a
fatal check on the timer has failed.
-/
namespace AlprGate.Ota
open Rpc Transition

/-- Where the handler of `BEGIN_OTA` is. -/
inductive RpcStage where
  | checkRunning
  | writeId
  | compareExchange
  | setCallbacks
  | createTask
  | clearRunning
  | refuse (error : String)
  deriving DecidableEq, Repr

/-- A `BEGIN_OTA` that is being handled. `tag` is its place among them. -/
structure Handling where
  tag : ℕ
  commandId : List UInt8
  stage : RpcStage
  deriving DecidableEq, Repr

inductive RpcTask where
  | idle
  | reboot
  | ota (h : Handling)
  deriving DecidableEq, Repr

/-- What a `gate_ota` task does after the calls of its run: the done callback completes the
command and starts the timer, and then the flag is cleared. -/
inductive TaskOp where
  | call (c : SlotCall)
  | complete
  | startReboot
  | clearRunning
  deriving DecidableEq, Repr

def taskOps (o : Outcome) : List TaskOp :=
  o.calls.map .call ++ [.complete] ++ (if o.error = none then [.startReboot] else []) ++
    [.clearRunning]

/-- The command that has started an update is known to its task through the shared buffer only;
`tag` and `commandId` are history. -/
structure UpdateTask where
  tag : ℕ
  commandId : List UInt8
  outcome : Outcome
  ops : List TaskOp
  deriving DecidableEq, Repr

/-- What the done callback hears. -/
def Outcome.verdict (o : Outcome) (commandId : List UInt8) : Verdict :=
  ⟨commandId,o.error.isNone,o.error.getD ""⟩

inductive Halt where
  | restart (us : ℕ)
  | abort (us : ℕ)
  deriving DecidableEq, Repr

/-- `rebootAt` is the instant at which a running timer is due. The last three fields are history:
the tasks that have ended, the ids of the `BEGIN_OTA` commands, and their completions with the
tags. -/
structure Updates where
  running : Bool := false
  otaCmdId : List UInt8 := []
  rpc : RpcTask := .idle
  tasks : List UpdateTask := []
  slot : Slot := {}
  rebootAt : Option ℕ := none
  nowUs : ℕ := 0
  halted : Option Halt := none
  ended : List UpdateTask := []
  handled : List (List UInt8) := []
  acks : List (ℕ × Verdict) := []
  deriving DecidableEq, Repr

/-- `created` are the answers that the new task will get, or none when it is not created. -/
inductive UpdateInput where
  | command (commandId : List UInt8) (kind : CommandKind)
  | rpc (created : Option Replies)
  | ota (index : ℕ)
  | tick (us : ℕ)
  | timerFires

def kRebootDelayUs : ℕ := 1500000

namespace Updates

/-- A timer that runs already refuses, and the check of the result is fatal. -/
def startReboot (s : Updates) : Updates :=
  match s.rebootAt with
  | some _ => { s with halted := some (.abort s.nowUs) }
  | none => { s with rebootAt := some (s.nowUs + kRebootDelayUs) }

def takeCommand (s : Updates) (commandId : List UInt8) : CommandKind → Updates
  | .reboot => { s with rpc := .reboot }
  | .beginOta => { s with
      rpc := .ota ⟨s.handled.length,commandId,.checkRunning⟩
      handled := s.handled ++ [commandId] }
  | _ => s

def goto (s : Updates) (h : Handling) (stage : RpcStage) : Updates :=
  { s with rpc := .ota { h with stage := stage } }

section Step
variable (sha : Sha256) (cfg : Config)

def newTask (h : Handling) (r : Replies) : UpdateTask :=
  let o := runInner sha cfg r
  ⟨h.tag,h.commandId,o,taskOps o⟩

/-- The dispatcher's `BEGIN_OTA` branch with `OtaUpdater::begin`, one access at a time. -/
def beginOta (s : Updates) (h : Handling) (created : Option Replies) : Updates :=
  match h.stage with
  | .checkRunning =>
    s.goto h (if s.running = true then .refuse "an OTA update is already running" else .writeId)
  | .writeId =>
    { s with otaCmdId := copyStr kMaxCommandId h.commandId }.goto h .compareExchange
  | .compareExchange =>
    if s.running = true then s.goto h (.refuse "failed to start the OTA task")
    else { s with running := true }.goto h .setCallbacks
  | .setCallbacks => s.goto h .createTask
  | .createTask =>
    match created with
    | some r => { s with tasks := s.tasks ++ [newTask sha cfg h r], rpc := .idle }
    | none => s.goto h .clearRunning
  | .clearRunning => { s with running := false }.goto h (.refuse "failed to start the OTA task")
  | .refuse error =>
    { s with acks := s.acks ++ [(h.tag, ⟨h.commandId,false,error⟩)], rpc := .idle }

def runRpc (s : Updates) (created : Option Replies) : Updates :=
  match s.rpc with
  | .idle => s
  | .reboot => { s with rpc := .idle }.startReboot
  | .ota h => s.beginOta sha cfg h created

/-- A task without further operations is deleted. -/
def setTask (s : Updates) (i : ℕ) (t : UpdateTask) (rest : List TaskOp) : Updates :=
  if rest = [] then
    { s with tasks := s.tasks.eraseIdx i, ended := s.ended ++ [{ t with ops := [] }] }
  else { s with tasks := s.tasks.set i { t with ops := rest } }

def runOp (s : Updates) (t : UpdateTask) : TaskOp → Updates
  | .call c => { s with slot := s.slot.apply c }
  | .complete => { s with acks := s.acks ++ [(t.tag, t.outcome.verdict s.otaCmdId)] }
  | .startReboot => s.startReboot
  | .clearRunning => { s with running := false }

def runTask (s : Updates) (i : ℕ) : Updates :=
  match s.tasks[i]? with
  | none => s
  | some t =>
    match t.ops with
    | [] => s
    | op :: rest => (s.setTask i t rest).runOp t op

def move (s : Updates) : UpdateInput → Updates
  | .command commandId kind => if s.rpc = .idle then s.takeCommand commandId kind else s
  | .rpc created => s.runRpc sha cfg created
  | .ota i => s.runTask i
  | .tick us => { s with nowUs := s.nowUs + us }
  | .timerFires =>
    match s.rebootAt with
    | some due => if due ≤ s.nowUs then { s with halted := some (.restart s.nowUs) } else s
    | none => s

def step (s : Updates) (a : UpdateInput) : Updates :=
  if s.halted = none then s.move sha cfg a else s

end Step

/-- The completions of one `BEGIN_OTA`. -/
def acksOf (s : Updates) (tag : ℕ) : List Verdict :=
  (s.acks.filter fun a => a.1 = tag).map Prod.snd

/-- The next operation of a task. -/
def nextOp (s : Updates) (i : ℕ) : Option TaskOp := s.tasks[i]?.bind fun t => t.ops.head?

end Updates

/-- Everything that one step can do. -/
theorem Updates.step_cases (sha : Sha256) (cfg : Config) (s : Updates) (a : UpdateInput) :
    s.step sha cfg a = s ∨ s.halted = none ∧
      ((∃ commandId kind, a = .command commandId kind ∧ s.rpc = .idle ∧
        s.step sha cfg a = s.takeCommand commandId kind) ∨
      (∃ created, a = .rpc created ∧ s.step sha cfg a = s.runRpc sha cfg created) ∨
      (∃ i, a = .ota i ∧ s.step sha cfg a = s.runTask i) ∨
      (∃ us, a = .tick us ∧ s.step sha cfg a = { s with nowUs := s.nowUs + us }) ∨
      (∃ due, a = .timerFires ∧ s.rebootAt = some due ∧ due ≤ s.nowUs ∧
        s.step sha cfg a = { s with halted := some (.restart s.nowUs) })) := by
  by_cases halive : s.halted = none
  · have hmove : s.step sha cfg a = s.move sha cfg a := if_pos halive
    rw [hmove]
    cases a with
    | command commandId kind =>
      by_cases hidle : s.rpc = .idle
      · exact .inr ⟨halive,.inl ⟨commandId,kind,rfl,hidle,if_pos hidle⟩⟩
      · exact .inl (if_neg hidle)
    | rpc created => exact .inr ⟨halive,.inr (.inl ⟨created,rfl,rfl⟩)⟩
    | ota i => exact .inr ⟨halive,.inr (.inr (.inl ⟨i,rfl,rfl⟩))⟩
    | tick us => exact .inr ⟨halive,.inr (.inr (.inr (.inl ⟨us,rfl,rfl⟩)))⟩
    | timerFires =>
      cases hreboot : s.rebootAt with
      | none => exact .inl (by simp [Updates.move, hreboot])
      | some due =>
        by_cases hdue : due ≤ s.nowUs
        · refine .inr ⟨halive,.inr (.inr (.inr (.inr ⟨due,rfl,rfl,hdue,?_⟩)))⟩
          simp [Updates.move, hreboot, hdue]
        · exact .inl (by simp [Updates.move, hreboot, hdue])
  · exact .inl (if_neg halive)

/-- The handler of `BEGIN_OTA` goes on with the flag and the buffer, hands its command over to a
task, or acks the refusal. -/
theorem Updates.beginOta_cases (sha : Sha256) (cfg : Config) (s : Updates) (g : Handling)
    (created : Option Replies) :
    (∃ running otaCmdId stage, s.beginOta sha cfg g created =
        { s with running := running, otaCmdId := otaCmdId }.goto g stage ∧
      ∀ error, stage = .refuse error →
        error = "an OTA update is already running" ∨ error = "failed to start the OTA task") ∨
    (∃ r, g.stage = .createTask ∧ s.beginOta sha cfg g created =
      { s with tasks := s.tasks ++ [newTask sha cfg g r], rpc := .idle }) ∨
    (∃ error, g.stage = .refuse error ∧ s.beginOta sha cfg g created =
      { s with acks := s.acks ++ [(g.tag, ⟨g.commandId,false,error⟩)], rpc := .idle }) := by
  unfold Updates.beginOta
  cases hstage : g.stage with
  | checkRunning =>
    refine .inl ⟨s.running,s.otaCmdId,_,rfl,fun error herror => ?_⟩
    split at herror
    · cases herror
      exact .inl rfl
    · cases herror
  | writeId => exact .inl ⟨s.running,_,_,rfl,nofun⟩
  | compareExchange =>
    dsimp only
    split
    · refine .inl ⟨s.running,s.otaCmdId,_,rfl,fun error herror => ?_⟩
      cases herror
      exact .inr rfl
    · exact .inl ⟨true,s.otaCmdId,_,rfl,nofun⟩
  | setCallbacks => exact .inl ⟨s.running,s.otaCmdId,_,rfl,nofun⟩
  | createTask =>
    cases created with
    | none => exact .inl ⟨s.running,s.otaCmdId,_,rfl,nofun⟩
    | some r => exact .inr (.inl ⟨r,rfl,rfl⟩)
  | clearRunning =>
    refine .inl ⟨false,s.otaCmdId,_,rfl,fun error herror => ?_⟩
    cases herror
    exact .inr rfl
  | refuse error => exact .inr (.inr ⟨error,rfl,rfl⟩)

/-! ### One update at a time -/

/-- What the handler of `BEGIN_OTA` knows at its stage. -/
def Handling.Knows (s : Updates) (h : Handling) : Prop :=
  match h.stage with
  | .checkRunning | .refuse _ => True
  | .writeId => s.running = false
  | .compareExchange => s.running = false ∧ s.otaCmdId = copyStr kMaxCommandId h.commandId
  | .setCallbacks | .createTask | .clearRunning =>
    s.running = true ∧ s.tasks = [] ∧ s.otaCmdId = copyStr kMaxCommandId h.commandId

/-- A task in the middle of its operations, with its id in the buffer. -/
structure Underway (sha : Sha256) (cfg : Config) (s : Updates) (t : UpdateTask) : Prop where
  ran : ∃ r, t.outcome = runInner sha cfg r
  rest : ∃ done, taskOps t.outcome = done ++ t.ops
  more : t.ops ≠ []
  own : s.otaCmdId = copyStr kMaxCommandId t.commandId

/-- The flag is cleared when nothing runs; while a task runs, or the handler is between its
exchange and the creation of one, there is no other. -/
structure Exclusive (sha : Sha256) (cfg : Config) (s : Updates) : Prop where
  rpc : ∀ h, s.rpc = .ota h → h.Knows s
  free : s.running = false → s.tasks = []
  task : s.tasks = [] ∨ ∃ t, s.tasks = [t] ∧ Underway sha cfg s t

section Exclusive
variable {sha : Sha256} {cfg : Config} {s : Updates}

/-- Everything but the last operation. -/
def bodyOps (o : Outcome) : List TaskOp :=
  o.calls.map .call ++ [.complete] ++ if o.error = none then [.startReboot] else []

theorem taskOps_eq (o : Outcome) : taskOps o = bodyOps o ++ [.clearRunning] := rfl

theorem clearRunning_notMem_bodyOps (o : Outcome) : .clearRunning ∉ bodyOps o := by
  unfold bodyOps
  split <;> simp

/-- The flag is cleared by the last operation of a task, and by no other. -/
theorem rest_eq_nil_iff {o : Outcome} {op : TaskOp} {done rest : List TaskOp}
    (h : taskOps o = done ++ op :: rest) : rest = [] ↔ op = .clearRunning := by
  rw [taskOps_eq] at h
  constructor
  · rintro rfl
    have hlast := List.append_inj_right' h rfl
    simpa using hlast.symm
  · rintro rfl
    rcases List.eq_nil_or_concat rest with hnil | ⟨front,last,rfl⟩
    · exact hnil
    · have hsplit : bodyOps o ++ [.clearRunning] = (done ++ .clearRunning :: front) ++ [last] := by
        rw [h]
        simp
      have hbody := List.append_inj_left' hsplit rfl
      exact absurd (by rw [hbody]; simp) (clearRunning_notMem_bodyOps o)

/-- A step of a task under exclusion: it is the only one, and either goes on or ends. -/
theorem Exclusive.runTask_cases (h : Exclusive sha cfg s) (i : ℕ) :
    s.runTask i = s ∨
    (∃ t, s.tasks = [t] ∧ Underway sha cfg s t ∧ t.ops = [.clearRunning] ∧
      s.nextOp i = some .clearRunning ∧
      s.runTask i = { s with
        tasks := [], ended := s.ended ++ [{ t with ops := [] }], running := false }) ∨
    (∃ t op rest, s.tasks = [t] ∧ Underway sha cfg s t ∧ t.ops = op :: rest ∧ rest ≠ [] ∧
      op ≠ .clearRunning ∧ s.nextOp i = some op ∧
      s.runTask i = { s with tasks := [{ t with ops := rest }] }.runOp t op) := by
  rcases h.task with hnone | ⟨t,htask,hunder⟩
  · left
    simp [Updates.runTask, hnone]
  cases i with
  | succ i =>
    left
    simp [Updates.runTask, htask]
  | zero =>
    right
    cases hops : t.ops with
    | nil => exact absurd hops hunder.more
    | cons op rest =>
      obtain ⟨done,hdone⟩ := hunder.rest
      rw [hops] at hdone
      have hlast := rest_eq_nil_iff hdone
      have hnext : s.nextOp 0 = some op := by
        simp [Updates.nextOp, htask, hops]
      by_cases hrest : rest = []
      · left
        have hop := hlast.mp hrest
        subst hop hrest
        refine ⟨t,htask,hunder,hops,hnext,?_⟩
        simp [Updates.runTask, htask, hops, Updates.setTask, Updates.runOp]
      · right
        refine ⟨t,op,rest,htask,hunder,hops,hrest,fun hop => hrest (hlast.mpr hop),hnext,?_⟩
        simp [Updates.runTask, htask, hops, Updates.setTask, hrest]

/-- The flag, the buffer and the running tasks of two states are the same. -/
structure SameCore (s s' : Updates) : Prop where
  running : s'.running = s.running
  otaCmdId : s'.otaCmdId = s.otaCmdId
  tasks : s'.tasks = s.tasks

theorem SameCore.startReboot (s : Updates) : SameCore s s.startReboot := by
  unfold Updates.startReboot
  split
  · exact ⟨rfl,rfl,rfl⟩
  · exact ⟨rfl,rfl,rfl⟩

theorem startReboot_rpc (s : Updates) : s.startReboot.rpc = s.rpc := by
  unfold Updates.startReboot
  split
  · rfl
  · rfl

theorem Handling.Knows.of_same {s' : Updates} {g : Handling} (h : g.Knows s) (hsame : SameCore s s') :
    g.Knows s' := by
  unfold Handling.Knows at h ⊢
  rw [hsame.running, hsame.otaCmdId, hsame.tasks]
  exact h

/-- A step that leaves the core alone keeps exclusion, if the handler still knows what it has to. -/
theorem Exclusive.of_same {s' : Updates} (h : Exclusive sha cfg s) (hsame : SameCore s s')
    (hrpc : ∀ g, s'.rpc = .ota g → g.Knows s') : Exclusive sha cfg s' := by
  refine ⟨hrpc,?_,?_⟩
  · rw [hsame.running, hsame.tasks]
    exact h.free
  · rw [hsame.tasks]
    rcases h.task with hnone | ⟨t,htask,hunder⟩
    · exact .inl hnone
    · exact .inr ⟨t,htask,hunder.ran,hunder.rest,hunder.more,by rw [hsame.otaCmdId]; exact hunder.own⟩

theorem Exclusive.of_same_rpc {s' : Updates} (h : Exclusive sha cfg s) (hsame : SameCore s s')
    (hrpc : s'.rpc = s.rpc) : Exclusive sha cfg s' := by
  refine h.of_same hsame fun g hg => ?_
  exact (h.rpc g (hrpc.symm.trans hg)).of_same hsame

theorem Exclusive.takeCommand (h : Exclusive sha cfg s) (commandId : List UInt8)
    (kind : CommandKind) : Exclusive sha cfg (s.takeCommand commandId kind) := by
  cases kind with
  | reboot => exact h.of_same ⟨rfl,rfl,rfl⟩ nofun
  | beginOta =>
    refine h.of_same ⟨rfl,rfl,rfl⟩ ?_
    rintro g hg
    cases hg
    exact trivial
  | _ => exact h.of_same_rpc ⟨rfl,rfl,rfl⟩ rfl

/-- The handler moves on without touching the core. -/
theorem Exclusive.goto (h : Exclusive sha cfg s) (g : Handling) (stage : RpcStage)
    (hknows : Handling.Knows s { g with stage := stage }) : Exclusive sha cfg (s.goto g stage) := by
  refine h.of_same ⟨rfl,rfl,rfl⟩ ?_
  intro g' hg'
  cases hg'
  exact hknows

theorem Exclusive.beginOta (h : Exclusive sha cfg s) {g : Handling} (hrpc : s.rpc = .ota g)
    (created : Option Replies) : Exclusive sha cfg (s.beginOta sha cfg g created) := by
  have hknows := h.rpc g hrpc
  rcases g with ⟨tag,commandId,stage⟩
  cases stage with
  | checkRunning =>
    cases hrunning : s.running with
    | true =>
      simp only [Updates.beginOta, hrunning, ↓reduceIte]
      exact h.goto _ _ trivial
    | false =>
      simp only [Updates.beginOta, hrunning, Bool.false_eq_true, ↓reduceIte]
      exact h.goto _ _ hrunning
  | writeId =>
    -- nothing runs, so nobody reads the buffer
    have hrunning : s.running = false := hknows
    refine ⟨?_,h.free,.inl (h.free hrunning)⟩
    intro g' hg'
    cases hg'
    exact ⟨hrunning,rfl⟩
  | compareExchange =>
    obtain ⟨hrunning,hid⟩ := hknows
    have htasks := h.free hrunning
    simp only [Updates.beginOta, hrunning, Bool.false_eq_true, ↓reduceIte]
    refine ⟨?_,nofun,.inl htasks⟩
    intro g' hg'
    cases hg'
    exact ⟨rfl,htasks,hid⟩
  | setCallbacks => exact h.goto _ _ hknows
  | createTask =>
    obtain ⟨hrunning,htasks,hid⟩ := hknows
    cases created with
    | none => exact h.goto _ _ ⟨hrunning,htasks,hid⟩
    | some r =>
      refine ⟨nofun,?_,.inr ⟨Updates.newTask sha cfg ⟨tag,commandId,.createTask⟩ r,?_,
        ⟨⟨r,rfl⟩,⟨[],rfl⟩,?_,hid⟩⟩⟩
      · intro hfree
        exact absurd (hrunning.symm.trans hfree) Bool.noConfusion
      · change s.tasks ++ _ = _
        rw [htasks]
        rfl
      · change taskOps _ ≠ []
        rw [taskOps_eq]
        simp
  | clearRunning =>
    obtain ⟨hrunning,htasks,hid⟩ := hknows
    refine ⟨?_,fun _ => htasks,.inl htasks⟩
    intro g' hg'
    cases hg'
    exact trivial
  | refuse error => exact h.of_same ⟨rfl,rfl,rfl⟩ nofun

theorem Exclusive.runRpc (h : Exclusive sha cfg s) (created : Option Replies) :
    Exclusive sha cfg (s.runRpc sha cfg created) := by
  unfold Updates.runRpc
  split
  · exact h
  · have hidle : Exclusive sha cfg { s with rpc := .idle } := h.of_same ⟨rfl,rfl,rfl⟩ nofun
    exact hidle.of_same_rpc (.startReboot _) (startReboot_rpc _)
  · rename_i g hrpc
    exact h.beginOta hrpc created

/-- The handler does not touch the core while a task runs. -/
theorem Exclusive.waits (h : Exclusive sha cfg s) {t : UpdateTask} (htask : s.tasks = [t])
    {g : Handling} (hrpc : s.rpc = .ota g) :
    g.stage = .checkRunning ∨ ∃ error, g.stage = .refuse error := by
  have hknows := h.rpc g hrpc
  have hbusy : s.tasks ≠ [] := by simp [htask]
  unfold Handling.Knows at hknows
  cases hstage : g.stage with
  | checkRunning => exact .inl rfl
  | refuse error => exact .inr ⟨error,rfl⟩
  | writeId =>
    rw [hstage] at hknows
    exact absurd (h.free hknows) hbusy
  | compareExchange =>
    rw [hstage] at hknows
    exact absurd (h.free hknows.1) hbusy
  | setCallbacks | createTask | clearRunning =>
    rw [hstage] at hknows
    exact absurd hknows.2.1 hbusy

/-- A handler that waits knows nothing. -/
theorem Handling.knows_of_waits {g : Handling}
    (h : g.stage = .checkRunning ∨ ∃ error, g.stage = .refuse error) (s : Updates) : g.Knows s := by
  unfold Handling.Knows
  rcases h with hstage | ⟨error,hstage⟩
  · rw [hstage]
    exact trivial
  · rw [hstage]
    exact trivial

theorem runOp_core (t : UpdateTask) {op : TaskOp} (hop : op ≠ .clearRunning) :
    SameCore s (s.runOp t op) ∧ (s.runOp t op).rpc = s.rpc := by
  cases op with
  | clearRunning => exact absurd rfl hop
  | startReboot => exact ⟨.startReboot s,startReboot_rpc s⟩
  | call c => exact ⟨⟨rfl,rfl,rfl⟩,rfl⟩
  | complete => exact ⟨⟨rfl,rfl,rfl⟩,rfl⟩

theorem Exclusive.runTask (h : Exclusive sha cfg s) (i : ℕ) : Exclusive sha cfg (s.runTask i) := by
  rcases h.runTask_cases i with hsame | ⟨t,htask,hunder,hops,-,hrun⟩ |
    ⟨t,op,rest,htask,hunder,hops,hrest,hop,-,hrun⟩
  · rw [hsame]
    exact h
  · rw [hrun]
    exact ⟨fun g hrpc => Handling.knows_of_waits (h.waits htask hrpc) _,fun _ => rfl,.inl rfl⟩
  · rw [hrun]
    obtain ⟨hcore,hrpc⟩ := runOp_core (s:={ s with tasks := [{ t with ops := rest }] }) t hop
    have hmid : Exclusive sha cfg { s with tasks := [{ t with ops := rest }] } := by
      refine ⟨fun g hg => Handling.knows_of_waits (h.waits htask hg) _,fun hfree => ?_,
        .inr ⟨_,rfl,hunder.ran,?_,hrest,hunder.own⟩⟩
      · exact absurd (h.free hfree) (by simp [htask])
      · obtain ⟨done,hdone⟩ := hunder.rest
        refine ⟨done ++ [op],?_⟩
        rw [hdone, hops]
        simp
    exact hmid.of_same_rpc hcore hrpc

theorem Exclusive.step (s : Updates) (a : UpdateInput) (h : Exclusive sha cfg s) :
    Exclusive sha cfg (s.step sha cfg a) := by
  rcases s.step_cases sha cfg a with hs | ⟨-,⟨commandId,kind,-,-,hs⟩ | ⟨created,-,hs⟩ | ⟨i,-,hs⟩ |
    ⟨us,-,hs⟩ | ⟨due,-,-,-,hs⟩⟩ <;> rw [hs]
  · exact h
  · exact h.takeCommand commandId kind
  · exact h.runRpc created
  · exact h.runTask i
  · exact h.of_same_rpc ⟨rfl,rfl,rfl⟩ rfl
  · exact h.of_same_rpc ⟨rfl,rfl,rfl⟩ rfl

theorem exclusive_initial : Exclusive sha cfg {} := ⟨nofun,fun _ => rfl,.inl rfl⟩

end Exclusive
end AlprGate.Ota
