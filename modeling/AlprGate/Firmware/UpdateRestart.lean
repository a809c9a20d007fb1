import AlprGate.Firmware.UpdateTasks

/-! # From an update to the restart

A `REBOOT` and a successful update start the same one-shot timer without looking at it, and the
flag that keeps updates apart is cleared well before the restart. So a second request within the
delay is fatal, and a `BEGIN_OTA` within the delay writes the slot that is about to boot.
-/
namespace AlprGate.Ota
open Rpc Transition

/-! ### The reboot timer -/

/-- Nobody starts the timer while it runs. -/
def Spaced (s : Updates) : UpdateInput → Prop
  | .rpc _ => s.rpc = .reboot → s.rebootAt = none
  | .ota i => s.nextOp i = some .startReboot → s.rebootAt = none
  | _ => True

section Requests
variable (sha : Sha256) (cfg : Config)

/-- The state after a run from boot. -/
def Updates.after (as : List UpdateInput) : Updates := exec (Updates.step sha cfg) {} as

/-- After `before`, the dispatcher takes up the next command. -/
def Listens (before : List UpdateInput) : Prop :=
  (Updates.after sha cfg before).halted = none ∧ (Updates.after sha cfg before).rpc = .idle

/-- The `REBOOT` that is taken up after `before` has not been worked on since. -/
def Pending (before as : List UpdateInput) : Prop :=
  ∃ commandId between, as = before ++ .command commandId .reboot :: between ∧
    Listens sha cfg before ∧ ∀ created, .rpc created ∉ between

/-- The `BEGIN_OTA` that is taken up after `before` is the one with this tag. -/
def Begun (before as : List UpdateInput) (tag : ℕ) (commandId : List UInt8) : Prop :=
  ∃ between, as = before ++ .command commandId .beginOta :: between ∧ Listens sha cfg before ∧
    tag = (Updates.after sha cfg before).handled.length

/-- The step after `as` serves the command that is taken up after `before`: it works on that
`REBOOT`, or it belongs to the update which that `BEGIN_OTA` has started and which has succeeded. -/
inductive Serves (before as : List UpdateInput) : UpdateInput → Prop where
  | reboot {created : Option Replies} (pending : Pending sha cfg before as) :
    Serves before as (.rpc created)
  | update {i : ℕ} {t : UpdateTask} {r : Replies}
    (task : (Updates.after sha cfg as).tasks[i]? = some t)
    (begun : Begun sha cfg before as t.tag t.commandId)
    (ran : t.outcome = runInner sha cfg r) (succeeded : t.outcome.error = none) :
    Serves before as (.ota i)

/-- The step after `as` starts the timer, for the command that is taken up after `before`. -/
structure Starts (before as : List UpdateInput) (a : UpdateInput) : Prop where
  serves : Serves sha cfg before as a
  stopped : (Updates.after sha cfg as).rebootAt = none
  runs : (Updates.after sha cfg (as ++ [a])).rebootAt =
    some ((Updates.after sha cfg as).nowUs + kRebootDelayUs)

/-- The timer that is due at `due` was started in front of the last labels of the run. -/
def StartedBefore (as last : List UpdateInput) (due : ℕ) : Prop :=
  ∃ before upto a, as = upto ++ a :: last ∧ Starts sha cfg before upto a ∧
    due = (Updates.after sha cfg upto).nowUs + kRebootDelayUs

/-- Every command in work, every task and the timer come from a command of the run `as`. -/
structure Scheduled (as : List UpdateInput) (s : Updates) : Prop where
  alive : ∀ us, s.halted ≠ some (.abort us)
  reboot : s.halted = none → s.rpc = .reboot → ∃ before, Pending sha cfg before as
  handling : ∀ g, s.rpc = .ota g → ∃ before, Begun sha cfg before as g.tag g.commandId
  task : ∀ t ∈ s.tasks, ∃ before, Begun sha cfg before as t.tag t.commandId
  timer : ∀ due, s.rebootAt = some due → ∃ last, StartedBefore sha cfg as last due
  restarted : ∀ us, s.halted = some (.restart us) → ∃ last due, StartedBefore sha cfg as last due ∧
    s.rebootAt = some due ∧ .timerFires ∈ last ∧ due ≤ us

end Requests

section Timer
variable {sha : Sha256} {cfg : Config} {s : Updates} {before as : List UpdateInput} {a : UpdateInput}

theorem after_concat (as : List UpdateInput) (a : UpdateInput) :
    Updates.after sha cfg (as ++ [a]) = (Updates.after sha cfg as).step sha cfg a :=
  exec_append _ _ _ _

theorem Pending.concat (h : Pending sha cfg before as) (ha : ∀ created, a ≠ .rpc created) :
    Pending sha cfg before (as ++ [a]) := by
  obtain ⟨commandId,between,rfl,hlistens,hbetween⟩ := h
  refine ⟨commandId,between ++ [a],by simp,hlistens,fun created hmem => ?_⟩
  rcases List.mem_append.mp hmem with hmem | hmem
  · exact hbetween created hmem
  · exact ha created (List.mem_singleton.mp hmem).symm

theorem Begun.concat {tag : ℕ} {commandId : List UInt8} (h : Begun sha cfg before as tag commandId)
    (a : UpdateInput) : Begun sha cfg before (as ++ [a]) tag commandId := by
  obtain ⟨between,rfl,hlistens,htag⟩ := h
  exact ⟨between ++ [a],by simp,hlistens,htag⟩

theorem StartedBefore.concat {last : List UpdateInput} {due : ℕ}
    (h : StartedBefore sha cfg as last due) (a : UpdateInput) :
    StartedBefore sha cfg (as ++ [a]) (last ++ [a]) due := by
  obtain ⟨before,upto,b,rfl,hstarts,hdue⟩ := h
  exact ⟨before,upto,b,by simp,hstarts,hdue⟩

/-- A step that leaves the timer alone. -/
theorem Scheduled.later {s' : Updates} (h : Scheduled sha cfg as s)
    (hhalted : s'.halted = s.halted) (htimer : s'.rebootAt = s.rebootAt)
    (hreboot : s'.halted = none → s'.rpc = .reboot → ∃ before, Pending sha cfg before (as ++ [a]))
    (hhandling : ∀ g, s'.rpc = .ota g →
      ∃ before, Begun sha cfg before (as ++ [a]) g.tag g.commandId)
    (htask : ∀ t ∈ s'.tasks, ∃ before, Begun sha cfg before (as ++ [a]) t.tag t.commandId) :
    Scheduled sha cfg (as ++ [a]) s' := by
  refine ⟨?_,hreboot,hhandling,htask,?_,?_⟩
  · rw [hhalted]
    exact h.alive
  · intro due hdue
    obtain ⟨last,hstarted⟩ := h.timer due (htimer ▸ hdue)
    exact ⟨_,hstarted.concat a⟩
  · intro us hus
    obtain ⟨last,due,hstarted,hdue,hfires,hle⟩ := h.restarted us (hhalted ▸ hus)
    exact ⟨_,due,hstarted.concat a,htimer.trans hdue,List.mem_append_left _ hfires,hle⟩

theorem Scheduled.task_concat (h : Scheduled sha cfg as s) (a : UpdateInput) :
    ∀ t ∈ s.tasks, ∃ before, Begun sha cfg before (as ++ [a]) t.tag t.commandId := by
  intro t ht
  obtain ⟨before,hbegun⟩ := h.task t ht
  exact ⟨before,hbegun.concat a⟩

theorem Scheduled.handling_concat (h : Scheduled sha cfg as s) (a : UpdateInput) :
    ∀ g, s.rpc = .ota g → ∃ before, Begun sha cfg before (as ++ [a]) g.tag g.commandId := by
  intro g hg
  obtain ⟨before,hbegun⟩ := h.handling g hg
  exact ⟨before,hbegun.concat a⟩

/-- A step of somebody else than the dispatcher that leaves the timer alone. -/
theorem Scheduled.elsewhere {s' : Updates} (h : Scheduled sha cfg as s)
    (ha : ∀ created, a ≠ .rpc created) (hhalted : s'.halted = s.halted)
    (htimer : s'.rebootAt = s.rebootAt) (hrpc : s'.rpc = s.rpc)
    (htask : ∀ t ∈ s'.tasks, ∃ before, Begun sha cfg before (as ++ [a]) t.tag t.commandId) :
    Scheduled sha cfg (as ++ [a]) s' := by
  refine h.later hhalted htimer (fun hlive hreboot => ?_) ?_ htask
  · obtain ⟨before,hpending⟩ := h.reboot (hhalted ▸ hlive) (hrpc ▸ hreboot)
    exact ⟨before,hpending.concat ha⟩
  · rw [hrpc]
    exact h.handling_concat a

theorem startReboot_of_none (h : s.rebootAt = none) :
    s.startReboot = { s with rebootAt := some (s.nowUs + kRebootDelayUs) } := by
  simp [Updates.startReboot, h]

/-- Starting a timer that does not run. -/
theorem Scheduled.startReboot (h : Scheduled sha cfg as s) (hlive : s.halted = none)
    (hfree : s.rebootAt = none) (hstarted : StartedBefore sha cfg as [] (s.nowUs + kRebootDelayUs)) :
    Scheduled sha cfg as s.startReboot := by
  rw [startReboot_of_none hfree]
  refine ⟨h.alive,h.reboot,h.handling,h.task,?_,?_⟩
  · intro due hdue
    cases hdue
    exact ⟨[],hstarted⟩
  · intro us hus
    exact absurd (hlive.symm.trans hus) nofun

theorem Scheduled.takeCommand (hs : s = Updates.after sha cfg as) (hlive : s.halted = none)
    (hidle : s.rpc = .idle) (h : Scheduled sha cfg as s) (commandId : List UInt8)
    (kind : CommandKind) :
    Scheduled sha cfg (as ++ [.command commandId kind]) (s.takeCommand commandId kind) := by
  have hlistens : Listens sha cfg as := by
    unfold Listens
    rw [← hs]
    exact ⟨hlive,hidle⟩
  have hother : ∀ created, UpdateInput.command commandId kind ≠ .rpc created := fun _ => nofun
  cases kind with
  | reboot =>
    refine h.later rfl rfl (fun _ _ => ?_) nofun (h.task_concat _)
    exact ⟨as,commandId,[],rfl,hlistens,fun _ => List.not_mem_nil⟩
  | beginOta =>
    refine h.later rfl rfl nofun (fun g hg => ?_) (h.task_concat _)
    cases hg
    exact ⟨as,[],rfl,hlistens,by rw [hs]⟩
  | _ => exact h.elsewhere hother rfl rfl rfl (h.task_concat _)

/-- The handler of `BEGIN_OTA` leaves the timer alone. -/
theorem Scheduled.beginOta (h : Scheduled sha cfg as s) {g : Handling} (hrpc : s.rpc = .ota g)
    (created : Option Replies) :
    Scheduled sha cfg (as ++ [a]) (s.beginOta sha cfg g created) := by
  obtain ⟨before,hbegun⟩ := h.handling g hrpc
  rcases s.beginOta_cases sha cfg g created with ⟨running,otaCmdId,stage,hs,-⟩ | ⟨r,-,hs⟩ |
    ⟨error,-,hs⟩ <;> rw [hs]
  · refine h.later rfl rfl nofun (fun g' hg' => ?_) (h.task_concat _)
    cases hg'
    exact ⟨before,hbegun.concat a⟩
  · -- the new task has the tag of its command
    refine h.later rfl rfl nofun nofun (fun t ht => ?_)
    rcases List.mem_append.mp ht with ht | ht
    · exact h.task_concat a t ht
    · rw [List.mem_singleton.mp ht]
      exact ⟨before,hbegun.concat a⟩
  · exact h.later rfl rfl nofun nofun (h.task_concat _)

theorem Scheduled.runRpc (hs : s = Updates.after sha cfg as) (hlive : s.halted = none)
    (h : Scheduled sha cfg as s) {created : Option Replies} (hspaced : Spaced s (.rpc created))
    (hstep : s.step sha cfg (.rpc created) = s.runRpc sha cfg created) :
    Scheduled sha cfg (as ++ [.rpc created]) (s.runRpc sha cfg created) := by
  unfold Updates.runRpc at hstep ⊢
  split at hstep
  · rename_i hidle
    refine h.later rfl rfl (fun _ hrpc => ?_) (fun g hg => ?_) (h.task_concat _)
    · exact absurd (hidle.symm.trans hrpc) nofun
    · exact absurd (hidle.symm.trans hg) nofun
  · rename_i hrpc
    have hfree := hspaced hrpc
    obtain ⟨before,hpending⟩ := h.reboot hlive hrpc
    have hidle : Scheduled sha cfg (as ++ [.rpc created]) { s with rpc := .idle } :=
      h.later rfl rfl nofun nofun (h.task_concat _)
    refine hidle.startReboot hlive hfree ⟨before,as,_,rfl,⟨.reboot hpending,hs ▸ hfree,?_⟩,by rw [hs]⟩
    rw [after_concat, ← hs, hstep]
    exact congrArg Updates.rebootAt (startReboot_of_none (s:={ s with rpc := .idle }) hfree)
  · rename_i g hrpc
    exact h.beginOta hrpc created

/-- A task starts the timer only when its update has succeeded. -/
theorem Underway.succeeded {t : UpdateTask} (h : Underway sha cfg s t) {rest : List TaskOp}
    (hops : t.ops = .startReboot :: rest) : t.outcome.error = none := by
  obtain ⟨done,hdone⟩ := h.rest
  have hmem : .startReboot ∈ taskOps t.outcome := by
    rw [hdone, hops]
    simp
  by_contra herror
  simp [taskOps, herror] at hmem

theorem Scheduled.runTask (hs : s = Updates.after sha cfg as) (hlive : s.halted = none)
    (hexcl : Exclusive sha cfg s) (h : Scheduled sha cfg as s) {i : ℕ}
    (hspaced : Spaced s (.ota i)) (hstep : s.step sha cfg (.ota i) = s.runTask i) :
    Scheduled sha cfg (as ++ [.ota i]) (s.runTask i) := by
  have hother : ∀ created, UpdateInput.ota i ≠ .rpc created := fun _ => nofun
  rcases hexcl.runTask_cases i with hsame | ⟨t,-,-,-,-,hrun⟩ |
    ⟨t,op,rest,htask,hunder,hops,-,hop,hnext,hrun⟩
  · rw [hsame]
    exact h.elsewhere hother rfl rfl rfl (h.task_concat _)
  · rw [hrun]
    exact h.elsewhere hother rfl rfl rfl nofun
  · obtain ⟨before,hbegun⟩ := h.task t (by simp [htask])
    have hown : ∀ t' ∈ [{ t with ops := rest }],
        ∃ before, Begun sha cfg before (as ++ [.ota i]) t'.tag t'.commandId := by
      intro t' ht'
      rw [List.mem_singleton.mp ht']
      exact ⟨before,hbegun.concat _⟩
    rw [hrun] at hstep ⊢
    cases op with
    | startReboot =>
      have hfree := hspaced hnext
      have hat : s.tasks[i]? = some t := by
        obtain ⟨t',ht',-⟩ := Option.bind_eq_some_iff.mp hnext
        have hmem := List.mem_of_getElem? ht'
        rw [htask, List.mem_singleton] at hmem
        rw [ht', hmem]
      obtain ⟨r,hran⟩ := hunder.ran
      have hmid : Scheduled sha cfg (as ++ [.ota i]) { s with tasks := [{ t with ops := rest }] } :=
        h.elsewhere hother rfl rfl rfl hown
      refine hmid.startReboot hlive hfree ⟨before,as,_,rfl,⟨.update (hs ▸ hat) hbegun hran
        (hunder.succeeded hops),hs ▸ hfree,?_⟩,by rw [hs]⟩
      rw [after_concat, ← hs, hstep]
      exact congrArg Updates.rebootAt
        (startReboot_of_none (s:={ s with tasks := [{ t with ops := rest }] }) hfree)
    | call c | complete => exact h.elsewhere hother rfl rfl rfl hown
    | clearRunning => exact absurd rfl hop

/-- The handler of a `REBOOT` does not wait. -/
theorem step_rpc_of_reboot (hlive : s.halted = none) (hrpc : s.rpc = .reboot)
    (created : Option Replies) : (s.step sha cfg (.rpc created)).rpc = .idle := by
  have hstep : s.step sha cfg (.rpc created) = { s with rpc := .idle }.startReboot := by
    simp [Updates.step, hlive, Updates.move, Updates.runRpc, hrpc]
  rw [hstep]
  exact startReboot_rpc _

theorem Scheduled.step (hs : s = Updates.after sha cfg as) (hspaced : Spaced s a)
    (hexcl : Exclusive sha cfg s) (h : Scheduled sha cfg as s) :
    Scheduled sha cfg (as ++ [a]) (s.step sha cfg a) := by
  rcases s.step_cases sha cfg a with hstep | ⟨hlive,⟨commandId,kind,rfl,hidle,hstep⟩ |
    ⟨created,rfl,hstep⟩ | ⟨i,rfl,hstep⟩ | ⟨us,rfl,hstep⟩ | ⟨due,rfl,hreboot,hdue,hstep⟩⟩
  · -- a label without effect is not the handler's while a `REBOOT` waits
    rw [hstep]
    refine h.later rfl rfl (fun hlive hrpc => ?_) (h.handling_concat _) (h.task_concat _)
    obtain ⟨before,hpending⟩ := h.reboot hlive hrpc
    refine ⟨before,hpending.concat ?_⟩
    rintro created rfl
    have hidle : (s.step sha cfg (.rpc created)).rpc = .idle :=
      step_rpc_of_reboot hlive hrpc created
    rw [hstep, hrpc] at hidle
    exact RpcTask.noConfusion hidle
  · rw [hstep]
    exact h.takeCommand hs hlive hidle commandId kind
  · rw [hstep]
    exact h.runRpc hs hlive hspaced hstep
  · rw [hstep]
    exact h.runTask hs hlive hexcl hspaced hstep
  · rw [hstep]
    exact h.elsewhere (fun _ => nofun) rfl rfl rfl (h.task_concat _)
  · rw [hstep]
    obtain ⟨last,hstarted⟩ := h.timer due hreboot
    refine ⟨nofun,nofun,h.handling_concat _,h.task_concat _,?_,?_⟩
    · intro due' hdue'
      obtain ⟨last',hstarted'⟩ := h.timer due' hdue'
      exact ⟨_,hstarted'.concat _⟩
    · intro us hus
      cases hus
      exact ⟨_,due,hstarted.concat _,hreboot,by simp,hdue⟩

theorem scheduled_initial : Scheduled sha cfg [] {} := ⟨nofun,nofun,nofun,nofun,nofun,nofun⟩

/-! The clock only goes forward. -/

theorem startReboot_nowUs (s : Updates) : s.startReboot.nowUs = s.nowUs := by
  unfold Updates.startReboot
  split
  · rfl
  · rfl

theorem runRpc_nowUs (s : Updates) (created : Option Replies) :
    (s.runRpc sha cfg created).nowUs = s.nowUs := by
  unfold Updates.runRpc
  split
  · rfl
  · exact startReboot_nowUs _
  · rename_i g _
    rcases s.beginOta_cases sha cfg g created with ⟨_,_,_,hs,-⟩ | ⟨_,-,hs⟩ | ⟨_,-,hs⟩ <;> rw [hs]
    all_goals rfl

theorem runTask_nowUs (s : Updates) (i : ℕ) : (s.runTask i).nowUs = s.nowUs := by
  have hset : ∀ t rest, (s.setTask i t rest).nowUs = s.nowUs := by
    intro t rest
    unfold Updates.setTask
    split
    · rfl
    · rfl
  unfold Updates.runTask
  split
  · rfl
  · rename_i t _
    split
    · rfl
    · rename_i op rest _
      cases op with
      | startReboot => exact (startReboot_nowUs _).trans (hset t rest)
      | _ => exact hset t rest

theorem nowUs_le_step (s : Updates) (a : UpdateInput) : s.nowUs ≤ (s.step sha cfg a).nowUs := by
  rcases s.step_cases sha cfg a with hs | ⟨-,⟨commandId,kind,-,-,hs⟩ | ⟨created,-,hs⟩ | ⟨i,-,hs⟩ |
    ⟨us,-,hs⟩ | ⟨due,-,-,-,hs⟩⟩ <;> rw [hs]
  · cases kind <;> exact le_rfl
  · exact (runRpc_nowUs s created).ge
  · exact (runTask_nowUs s i).ge
  · exact Nat.le_add_right _ _

theorem nowUs_le_after (as bs : List UpdateInput) :
    (Updates.after sha cfg as).nowUs ≤ (Updates.after sha cfg (as ++ bs)).nowUs := by
  unfold Updates.after
  rw [exec_append]
  exact exec_invariant (I:=fun s => (exec (Updates.step sha cfg) {} as).nowUs ≤ s.nowUs)
    (fun s a h => h.trans (nowUs_le_step s a)) bs le_rfl

/-- A command is served after it has been taken up. -/
theorem Serves.nowUs_le (h : Serves sha cfg before as a) :
    (Updates.after sha cfg before).nowUs ≤ (Updates.after sha cfg as).nowUs := by
  cases h with
  | reboot hpending =>
    obtain ⟨commandId,between,rfl,-⟩ := hpending
    exact nowUs_le_after _ _
  | update _ hbegun =>
    obtain ⟨between,rfl,-⟩ := hbegun
    exact nowUs_le_after _ _

end Timer

/-- In every run in which nobody starts the timer while it runs, no check on the timer fails, and
the device restarts only when the timer fires that a `REBOOT`, or the `BEGIN_OTA` whose own update
has succeeded, has started: the delay after that start, which comes after the command. -/
theorem restarts_only_by_timer (sha : Sha256) (cfg : Config) (as : List UpdateInput)
    (h : AllSteps (Updates.step sha cfg) Spaced {} as) :
    let after := Updates.after sha cfg
    (∀ us, (after as).halted ≠ some (.abort us)) ∧
      ∀ us, (after as).halted = some (.restart us) →
        ∃ before upto a last, as = upto ++ a :: last ∧ Starts sha cfg before upto a ∧
          (after as).rebootAt = some ((after upto).nowUs + kRebootDelayUs) ∧
          .timerFires ∈ last ∧ (after before).nowUs ≤ (after upto).nowUs ∧
          (after upto).nowUs + kRebootDelayUs ≤ us := by
  intro after
  have hall : Exclusive sha cfg (after as) ∧ Scheduled sha cfg as (after as) := by
    refine run_invariant_of (J:=fun as => Exclusive sha cfg (after as) ∧
      Scheduled sha cfg as (after as)) ⟨exclusive_initial,scheduled_initial⟩ ?_ h
    rintro as a hspaced ⟨hexcl,hsched⟩
    change Exclusive sha cfg (Updates.after sha cfg _) ∧ Scheduled sha cfg _ (Updates.after sha cfg _)
    rw [after_concat]
    exact ⟨hexcl.step _ a,hsched.step rfl hspaced hexcl⟩
  refine ⟨hall.2.alive,fun us hus => ?_⟩
  obtain ⟨last,due,⟨before,upto,a,has,hstarts,rfl⟩,htimer,hfires,hdue⟩ := hall.2.restarted us hus
  exact ⟨before,upto,a,last,has,hstarts,htimer,hfires,hstarts.serves.nowUs_le,hdue⟩

instance decidableSpaced (s : Updates) : (a : UpdateInput) → Decidable (Spaced s a)
  | .rpc _ => inferInstanceAs (Decidable (s.rpc = .reboot → s.rebootAt = none))
  | .ota i => inferInstanceAs (Decidable (s.nextOp i = some .startReboot → s.rebootAt = none))
  | .command _ _ | .tick _ | .timerFires => .isTrue trivial

/-- One `REBOOT`. -/
theorem restarts_only_by_timer_reboot :
    let as : List UpdateInput := [.tick 7, .command [1] .reboot, .rpc none, .tick 2000000, .timerFires]
    let after := Updates.after firstBytes ⟨[],none⟩
    (after as).halted = some (.restart 2000007) ∧
      ∃ before upto a last, as = upto ++ a :: last ∧ Starts firstBytes ⟨[],none⟩ before upto a ∧
        (after as).rebootAt = some ((after upto).nowUs + kRebootDelayUs) ∧
        .timerFires ∈ last ∧ (after before).nowUs ≤ (after upto).nowUs ∧
        (after upto).nowUs + kRebootDelayUs ≤ 2000007 := by
  intro as after
  have hhalted : (after as).halted = some (.restart 2000007) := by decide +kernel
  exact ⟨hhalted,(restarts_only_by_timer firstBytes ⟨[],none⟩ as (by decide +kernel)).2 _ hhalted⟩

/-- The second of two `REBOOT` commands finds the timer running, and the check aborts. -/
theorem second_reboot_aborts :
    (exec (Updates.step firstBytes ⟨[],none⟩) {}
      [.command [1] .reboot, .rpc none, .tick 1000, .command [2] .reboot, .rpc none]).halted =
        some (.abort 1000) := by decide +kernel

/-! ### The slot that is about to boot -/

/-- A `BEGIN_OTA` that is checked after an update has succeeded still finds the flag set. -/
def Held (s : Updates) : UpdateInput → Prop
  | .rpc _ => ∀ g, s.rpc = .ota g → g.stage = .checkRunning → s.slot.boot = true → s.running = true
  | _ => True

/-- Once the slot is to boot, no task has a `begin` ahead of it and no handler is on its way to
creating one. -/
structure Untouched (s : Updates) : Prop where
  ops : s.slot.boot = true → ∀ t ∈ s.tasks, ∀ opened, .call (.begin opened) ∉ t.ops
  rpc : s.slot.boot = true → ∀ g, s.rpc = .ota g →
    g.stage = .checkRunning ∨ ∃ error, g.stage = .refuse error

section Slot
variable {sha : Sha256} {cfg : Config} {s : Updates}

/-- An update begins with `begin`, if at all. -/
theorem begin_notMem_tail (r : Replies) (opened : Bool) :
    .call (.begin opened) ∉ (taskOps (runInner sha cfg r)).tail := by
  rcases runInner_cases sha cfg r with ⟨err,h⟩ | ⟨err,h⟩ | ⟨n,progress,err,h⟩ |
    ⟨n,progress,err,h,-⟩ <;> rw [h] <;> unfold taskOps
  · simp
  · simp
  · simp
  · by_cases herr : err = none <;> simp [herr]

theorem Underway.begin_notMem_rest {t : UpdateTask} (h : Underway sha cfg s t) {op : TaskOp}
    {rest : List TaskOp} (hops : t.ops = op :: rest) (opened : Bool) :
    .call (.begin opened) ∉ rest := by
  obtain ⟨r,hran⟩ := h.ran
  obtain ⟨done,hdone⟩ := h.rest
  rw [hran, hops] at hdone
  intro hmem
  have htail : .call (.begin opened) ∈ (taskOps (runInner sha cfg r)).tail := by
    rw [hdone]
    cases done with
    | nil => exact hmem
    | cons first done => exact List.mem_append_right _ (List.mem_cons_of_mem _ hmem)
  exact begin_notMem_tail r opened htail

theorem Untouched.of_not_boot (h : s.slot.boot = false) : Untouched s :=
  ⟨fun hboot => absurd (h.symm.trans hboot) Bool.noConfusion,
    fun hboot => absurd (h.symm.trans hboot) Bool.noConfusion⟩

theorem Untouched.takeCommand (h : Untouched s) (commandId : List UInt8) (kind : CommandKind) :
    Untouched (s.takeCommand commandId kind) := by
  cases kind with
  | reboot => exact ⟨h.ops,nofun⟩
  | beginOta =>
    refine ⟨h.ops,fun _ g hg => ?_⟩
    cases hg
    exact .inl rfl
  | _ => exact ⟨h.ops,h.rpc⟩

theorem beginOta_slot (g : Handling) (created : Option Replies) :
    (s.beginOta sha cfg g created).slot = s.slot := by
  rcases s.beginOta_cases sha cfg g created with ⟨running,otaCmdId,stage,hs,-⟩ | ⟨r,-,hs⟩ |
    ⟨error,-,hs⟩
  · exact (congrArg Updates.slot hs).trans rfl
  · exact (congrArg Updates.slot hs).trans rfl
  · exact (congrArg Updates.slot hs).trans rfl

theorem Untouched.beginOta (h : Untouched s) {g : Handling} (hrpc : s.rpc = .ota g)
    {created : Option Replies} (hheld : Held s (.rpc created)) :
    Untouched (s.beginOta sha cfg g created) := by
  cases hboot : s.slot.boot with
  | false => exact .of_not_boot ((beginOta_slot g created).symm ▸ hboot)
  | true =>
    rcases h.rpc hboot g hrpc with hstage | ⟨error,hstage⟩
    · have hrunning := hheld g hrpc hstage hboot
      unfold Updates.beginOta
      simp only [hstage, hrunning, ↓reduceIte]
      refine ⟨h.ops,fun _ g' hg' => ?_⟩
      cases hg'
      exact .inr ⟨_,rfl⟩
    · unfold Updates.beginOta
      simp only [hstage]
      exact ⟨h.ops,nofun⟩

/-- Starting the timer touches neither the slot nor the tasks. -/
theorem Untouched.startReboot (h : Untouched s) : Untouched s.startReboot := by
  unfold Updates.startReboot
  split
  · exact ⟨h.ops,h.rpc⟩
  · exact ⟨h.ops,h.rpc⟩

theorem Untouched.runRpc (h : Untouched s) {created : Option Replies}
    (hheld : Held s (.rpc created)) : Untouched (s.runRpc sha cfg created) := by
  unfold Updates.runRpc
  split
  · exact h
  · have hidle : Untouched { s with rpc := .idle } := ⟨h.ops,nofun⟩
    exact hidle.startReboot
  · rename_i g hrpc
    exact h.beginOta hrpc hheld

theorem Untouched.runTask (hexcl : Exclusive sha cfg s) (h : Untouched s) (i : ℕ) :
    Untouched (s.runTask i) := by
  rcases hexcl.runTask_cases i with hsame | ⟨t,-,-,-,-,hrun⟩ |
    ⟨t,op,rest,htask,hunder,hops,-,hop,-,hrun⟩
  · rw [hsame]
    exact h
  · rw [hrun]
    exact ⟨fun _ => nofun,h.rpc⟩
  · have hrest : ∀ t' ∈ [{ t with ops := rest }], ∀ opened, .call (.begin opened) ∉ t'.ops := by
      intro t' ht'
      rw [List.mem_singleton.mp ht']
      exact hunder.begin_notMem_rest hops
    -- a handler waits while a task runs, so the slot may become the boot slot
    have hwaits := fun g => hexcl.waits htask (g:=g)
    have hmid : Untouched { s with tasks := [{ t with ops := rest }] } :=
      ⟨fun _ => hrest,fun _ => hwaits⟩
    rw [hrun]
    cases op with
    | call c => exact ⟨fun _ => hrest,fun _ => hwaits⟩
    | startReboot => exact hmid.startReboot
    | complete => exact ⟨hmid.ops,hmid.rpc⟩
    | clearRunning => exact absurd rfl hop

theorem Untouched.step {s : Updates} {a : UpdateInput} (hheld : Held s a)
    (hexcl : Exclusive sha cfg s) (h : Untouched s) : Untouched (s.step sha cfg a) := by
  rcases s.step_cases sha cfg a with hs | ⟨-,⟨commandId,kind,-,-,hs⟩ | ⟨created,rfl,hs⟩ |
    ⟨i,rfl,hs⟩ | ⟨us,-,hs⟩ | ⟨due,-,-,-,hs⟩⟩ <;> rw [hs]
  · exact h
  · exact h.takeCommand commandId kind
  · exact h.runRpc hheld
  · exact h.runTask hexcl i
  · exact ⟨h.ops,h.rpc⟩
  · exact ⟨h.ops,h.rpc⟩

end Slot

/-- In every run in which the flag is still set when a `BEGIN_OTA` is checked after an update has
succeeded, no task is about to begin writing the slot that is to boot. -/
theorem boot_slot_stays (sha : Sha256) (cfg : Config) (as : List UpdateInput)
    (h : AllSteps (Updates.step sha cfg) Held {} as) :
    let s := exec (Updates.step sha cfg) {} as
    s.slot.boot = true → ∀ i opened, s.nextOp i ≠ some (.call (.begin opened)) := by
  intro s hboot i opened hnext
  have hs : Exclusive sha cfg s ∧ Untouched s :=
    exec_invariant_of (I:=fun s => Exclusive sha cfg s ∧ Untouched s)
      (fun s a ha hi => ⟨hi.1.step s a,hi.2.step ha hi.1⟩) h ⟨exclusive_initial,.of_not_boot rfl⟩
  obtain ⟨t,ht,hop⟩ := Option.bind_eq_some_iff.mp hnext
  exact hs.2.ops hboot t (List.mem_of_getElem? ht) opened (List.mem_of_head? hop)

instance (s : Updates) : (a : UpdateInput) → Decidable (Held s a)
  | .rpc _ =>
    match hrpc : s.rpc with
    | .ota g =>
      decidable_of_iff (g.stage = .checkRunning → s.slot.boot = true → s.running = true)
        ⟨fun h g' hg' => by
          cases hrpc.symm.trans hg'
          exact h,fun h => h g hrpc⟩
    | .idle => .isTrue fun _ h => absurd (hrpc.symm.trans h) RpcTask.noConfusion
    | .reboot => .isTrue fun _ h => absurd (hrpc.symm.trans h) RpcTask.noConfusion
  | .ota _ | .command _ _ | .tick _ | .timerFires => .isTrue trivial

/-- The first update of a device, up to the end of its task. -/
def firstUpdate : List UpdateInput :=
  [.command [1] .beginOta, .rpc none, .rpc none, .rpc none, .rpc none, .rpc (some smallUpdate),
    .ota 0, .ota 0, .ota 0, .ota 0, .ota 0, .ota 0, .ota 0]

/-- A `BEGIN_OTA` that is checked before the task of the first update ends. -/
theorem boot_slot_stays_refused :
    let as := firstUpdate.take 11 ++ [.command [2] .beginOta, .rpc none, .rpc none, .ota 0, .ota 0]
    let s := exec (Updates.step firstBytes ⟨utf8 "0.1.0",none⟩) {} as
    s.slot.boot = true ∧ ∀ i opened, s.nextOp i ≠ some (.call (.begin opened)) := by
  intro as s
  have hboot : s.slot.boot = true := by decide +kernel
  exact ⟨hboot,boot_slot_stays firstBytes ⟨utf8 "0.1.0",none⟩ as (by decide +kernel) hboot⟩

/-- A `BEGIN_OTA` between the end of the task and the restart: its task begins on the boot slot. -/
theorem boot_slot_rewritten :
    let s := exec (Updates.step firstBytes ⟨utf8 "0.1.0",none⟩) {}
      (firstUpdate ++ [.tick 1000, .command [2] .beginOta, .rpc none, .rpc none, .rpc none,
        .rpc none, .rpc (some smallUpdate)])
    s.slot.boot = true ∧ s.halted = none ∧ s.nextOp 0 = some (.call (.begin true)) := by
  decide +kernel

end AlprGate.Ota
