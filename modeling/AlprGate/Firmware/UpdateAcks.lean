import AlprGate.Firmware.UpdateTasks

/-! # Every update is acked once

A `BEGIN_OTA` is at each moment with the handler, with the task of its update, or refused. Nobody
writes the buffer with the pending id while a task still has to read it, so a task acks the
command that has started it.
-/
namespace AlprGate.Ota
open Rpc Transition

/-- The command that the handler is working on. -/
def RpcTask.tag : RpcTask → List ℕ
  | .ota h => [h.tag]
  | _ => []

/-- The commands that the handler or a task has taken up. -/
def Updates.owners (s : Updates) : List ℕ :=
  s.rpc.tag ++ s.tasks.map UpdateTask.tag ++ s.ended.map UpdateTask.tag

/-- The texts with which the dispatcher refuses an update. -/
def Refusal (error : String) : Prop :=
  ∃ ota, ota ≠ Rpc.Ota.ready ∧ error = (dispatcher ota .beginOta).1.error

theorem refusal_inProgress : Refusal "an OTA update is already running" :=
  ⟨.inProgress,Ota.noConfusion,rfl⟩

theorem refusal_taskFails : Refusal "failed to start the OTA task" :=
  ⟨.taskFails,Ota.noConfusion,rfl⟩

/-- The completion that a task has sent, if it is past it. -/
def UpdateTask.sent (t : UpdateTask) : List Verdict :=
  if .complete ∈ t.ops then [] else [t.outcome.verdict t.commandId]

structure Booked (sha : Sha256) (cfg : Config) (s : Updates) : Prop where
  owners : s.owners.Nodup
  acked : ∀ a ∈ s.acks, a.1 < s.handled.length
  short : ∀ id ∈ s.handled, id.length < kMaxCommandId
  rpc : ∀ h, s.rpc = .ota h → s.handled[h.tag]? = some h.commandId ∧ s.acksOf h.tag = [] ∧
    ∀ error, h.stage = .refuse error → Refusal error
  task : ∀ t ∈ s.tasks ++ s.ended, s.handled[t.tag]? = some t.commandId ∧ s.acksOf t.tag = t.sent
  ran : ∀ t ∈ s.tasks ++ s.ended, ∃ r, t.outcome = runInner sha cfg r
  ended : ∀ t ∈ s.ended, t.ops = []
  refused : ∀ n id, s.handled[n]? = some id → n ∉ s.owners →
    ∃ error, Refusal error ∧ s.acksOf n = [⟨id,false,error⟩]

section Booked
variable {sha : Sha256} {cfg : Config} {s : Updates}

theorem acksOf_append (l : List (ℕ × Verdict)) (k n : ℕ) (v : Verdict) :
    ((l ++ [(k, v)]).filter fun a => a.1 = n).map Prod.snd =
      (l.filter fun a => a.1 = n).map Prod.snd ++ if k = n then [v] else [] := by
  rw [List.filter_append, List.map_append]
  by_cases h : k = n
  · simp [h]
  · simp [h]

/-- The parts of the state that the books are about. -/
structure SameBooks (s s' : Updates) : Prop where
  rpc : s'.rpc = s.rpc
  tasks : s'.tasks = s.tasks
  ended : s'.ended = s.ended
  handled : s'.handled = s.handled
  acks : s'.acks = s.acks

theorem Booked.of_same {s' : Updates} (h : Booked sha cfg s) (hsame : SameBooks s s') : Booked sha cfg s' := by
  rcases s with ⟨running,otaCmdId,rpc,tasks,slot,rebootAt,nowUs,halted,ended,handled,acks⟩
  rcases s' with ⟨running',otaCmdId',rpc',tasks',slot',rebootAt',nowUs',halted',ended',handled',
    acks'⟩
  obtain ⟨rfl,rfl,rfl,rfl,rfl⟩ := hsame
  exact ⟨h.owners,h.acked,h.short,h.rpc,h.task,h.ran,h.ended,h.refused⟩

theorem SameBooks.startReboot (s : Updates) : SameBooks s s.startReboot := by
  unfold Updates.startReboot
  split
  · exact ⟨rfl,rfl,rfl,rfl,rfl⟩
  · exact ⟨rfl,rfl,rfl,rfl,rfl⟩

theorem mem_owners {n : ℕ} : n ∈ s.owners ↔
    (∃ g, s.rpc = .ota g ∧ g.tag = n) ∨ ∃ t ∈ s.tasks ++ s.ended, t.tag = n := by
  have htag : n ∈ s.rpc.tag ↔ ∃ g, s.rpc = .ota g ∧ g.tag = n := by
    cases s.rpc with
    | idle => simp [RpcTask.tag]
    | reboot => simp [RpcTask.tag]
    | ota g => simp [RpcTask.tag, eq_comm]
  unfold Updates.owners
  rw [List.append_assoc, List.mem_append, ← List.map_append, htag, List.mem_map]

/-- A command that is owned has been handled. -/
theorem Booked.owner_lt (h : Booked sha cfg s) {n : ℕ} (hn : n ∈ s.owners) : n < s.handled.length := by
  have hsome : ∃ id, s.handled[n]? = some id := by
    rcases mem_owners.mp hn with ⟨g,hrpc,rfl⟩ | ⟨t,ht,rfl⟩
    · exact ⟨_,(h.rpc g hrpc).1⟩
    · exact ⟨_,(h.task t ht).1⟩
  obtain ⟨id,hid⟩ := hsome
  exact (List.getElem?_eq_some_iff.mp hid).1

theorem acksOf_fresh (h : Booked sha cfg s) : s.acksOf s.handled.length = [] := by
  unfold Updates.acksOf
  rw [List.map_eq_nil_iff, List.filter_eq_nil_iff]
  intro a ha
  have hlt := h.acked a ha
  simp only [decide_eq_true_eq]
  omega

theorem Booked.takeBegin (h : Booked sha cfg s) (hidle : s.rpc = .idle) {commandId : List UInt8}
    (hshort : commandId.length < kMaxCommandId) : Booked sha cfg (s.takeCommand commandId .beginOta) := by
  have howners : (s.takeCommand commandId .beginOta).owners = s.handled.length :: s.owners := by
    simp [Updates.owners, Updates.takeCommand, hidle, RpcTask.tag]
  have hgrow : ∀ (n : ℕ) (id : List UInt8), s.handled[n]? = some id → (s.handled ++ [commandId])[n]? = some id := by
    intro n id hn
    have hlt := (List.getElem?_eq_some_iff.mp hn).1
    rw [List.getElem?_append_left hlt]
    exact hn
  refine ⟨?_,?_,?_,?_,?_,h.ran,h.ended,?_⟩
  · rw [howners, List.nodup_cons]
    exact ⟨fun hmem => Nat.lt_irrefl _ (h.owner_lt hmem),h.owners⟩
  · intro a ha
    have hlt := h.acked a ha
    change a.1 < (s.handled ++ [commandId]).length
    rw [List.length_append]
    omega
  · intro id hid
    rcases List.mem_append.mp hid with hid | hid
    · exact h.short id hid
    · rw [List.mem_singleton.mp hid]
      exact hshort
  · intro g hg
    cases hg
    refine ⟨?_,acksOf_fresh h,nofun⟩
    change (s.handled ++ [commandId])[s.handled.length]? = some commandId
    simp
  · intro t ht
    obtain ⟨hid,hsent⟩ := h.task t ht
    exact ⟨hgrow _ _ hid,hsent⟩
  · intro n id hn hfree
    rw [howners, List.mem_cons, not_or] at hfree
    have hold : s.handled[n]? = some id := by
      change (s.handled ++ [commandId])[n]? = some id at hn
      rw [List.getElem?_append] at hn
      split at hn
      · exact hn
      · rename_i hge
        have hlast : n - s.handled.length ≠ 0 := by omega
        rw [List.getElem?_cons, if_neg hlast] at hn
        cases hn
    exact h.refused n id hold hfree.2

/-- The handler keeps the command that it has, if it has one. -/
theorem Booked.setRpc (h : Booked sha cfg s) {rpc : RpcTask} (htag : rpc.tag = s.rpc.tag)
    (hrpc : ∀ g, rpc = .ota g → s.handled[g.tag]? = some g.commandId ∧ s.acksOf g.tag = [] ∧
      ∀ error, g.stage = .refuse error → Refusal error) : Booked sha cfg { s with rpc := rpc } := by
  have howners : Updates.owners { s with rpc := rpc } = s.owners := by
    simp [Updates.owners, htag]
  refine ⟨howners ▸ h.owners,h.acked,h.short,hrpc,h.task,h.ran,h.ended,?_⟩
  intro n id hn hfree
  exact h.refused n id hn (howners ▸ hfree)

/-- The handler goes on with its command. -/
theorem Booked.goto (h : Booked sha cfg s) {g : Handling} (hrpc : s.rpc = .ota g) (stage : RpcStage)
    (hstage : ∀ error, stage = .refuse error → Refusal error) : Booked sha cfg (s.goto g stage) := by
  obtain ⟨hid,hacks,-⟩ := h.rpc g hrpc
  refine h.setRpc (by rw [hrpc]; rfl) ?_
  intro g' hg'
  cases hg'
  exact ⟨hid,hacks,hstage⟩

/-- A task takes the command over from the handler. -/
theorem Booked.create (h : Booked sha cfg s) {g : Handling} (hrpc : s.rpc = .ota g) (htasks : s.tasks = [])
    (r : Replies) :
    Booked sha cfg { s with tasks := s.tasks ++ [Updates.newTask sha cfg g r], rpc := .idle } := by
  obtain ⟨hid,hacks,-⟩ := h.rpc g hrpc
  have howners : Updates.owners
      { s with tasks := s.tasks ++ [Updates.newTask sha cfg g r], rpc := .idle } = s.owners := by
    simp [Updates.owners, hrpc, htasks, RpcTask.tag, Updates.newTask]
  have hcases : ∀ t ∈ s.tasks ++ [Updates.newTask sha cfg g r] ++ s.ended,
      t = Updates.newTask sha cfg g r ∨ t ∈ s.ended := by
    intro t ht
    simpa [htasks] using ht
  refine ⟨howners ▸ h.owners,h.acked,h.short,nofun,?_,?_,h.ended,?_⟩
  · intro t ht
    rcases hcases t ht with rfl | hended
    · refine ⟨hid,hacks.trans ?_⟩
      simp [UpdateTask.sent, Updates.newTask, taskOps]
    · exact h.task t (List.mem_append_right _ hended)
  · intro t ht
    rcases hcases t ht with rfl | hended
    · exact ⟨r,rfl⟩
    · exact h.ran t (List.mem_append_right _ hended)
  · intro n id hn hfree
    exact h.refused n id hn (howners ▸ hfree)

/-- A refusal is acked by the handler itself. -/
theorem Booked.refuse (h : Booked sha cfg s) {g : Handling} (hrpc : s.rpc = .ota g) {error : String}
    (hstage : g.stage = .refuse error) :
    Booked sha cfg { s with acks := s.acks ++ [(g.tag, ⟨g.commandId,false,error⟩)], rpc := .idle } := by
  obtain ⟨hid,hacks,hrefusal⟩ := h.rpc g hrpc
  have howners : s.owners = g.tag :: (s.tasks ++ s.ended).map UpdateTask.tag := by
    simp [Updates.owners, hrpc, RpcTask.tag]
  have hnodup := h.owners
  rw [howners, List.nodup_cons] at hnodup
  refine ⟨?_,?_,h.short,nofun,?_,h.ran,h.ended,?_⟩
  · simpa [Updates.owners, RpcTask.tag] using hnodup.2
  · intro a ha
    rcases List.mem_append.mp ha with ha | ha
    · exact h.acked a ha
    · rw [List.mem_singleton.mp ha]
      exact (List.getElem?_eq_some_iff.mp hid).1
  · intro t ht
    obtain ⟨htid,hsent⟩ := h.task t ht
    have hother : g.tag ≠ t.tag := fun hsame => hnodup.1 (hsame ▸ List.mem_map_of_mem ht)
    refine ⟨htid,?_⟩
    unfold Updates.acksOf
    rw [acksOf_append, if_neg hother, List.append_nil]
    exact hsent
  · intro n id hn hfree
    unfold Updates.acksOf
    rw [acksOf_append]
    by_cases hown : g.tag = n
    · subst hown
      have hsame : g.commandId = id := Option.some.inj (hid.symm.trans hn)
      refine ⟨error,hrefusal error hstage,?_⟩
      unfold Updates.acksOf at hacks
      rw [hacks, if_pos rfl, hsame]
      rfl
    · rw [if_neg hown, List.append_nil]
      refine h.refused n id hn ?_
      rw [howners, List.mem_cons, not_or]
      refine ⟨fun hsame => hown hsame.symm,?_⟩
      simpa [Updates.owners, RpcTask.tag] using hfree

theorem Booked.beginOta (h : Booked sha cfg s) (hex : Exclusive sha cfg s) {g : Handling}
    (hrpc : s.rpc = .ota g) (created : Option Replies) :
    Booked sha cfg (s.beginOta sha cfg g created) := by
  rcases s.beginOta_cases sha cfg g created with ⟨running,otaCmdId,stage,hs,herrors⟩ |
    ⟨r,hstage,hs⟩ | ⟨error,hstage,hs⟩ <;> rw [hs]
  · have hmarked : Booked sha cfg { s with running := running, otaCmdId := otaCmdId } :=
      h.of_same ⟨rfl,rfl,rfl,rfl,rfl⟩
    refine hmarked.goto hrpc stage fun error herror => ?_
    rcases herrors error herror with rfl | rfl
    · exact refusal_inProgress
    · exact refusal_taskFails
  · have hknows := hex.rpc g hrpc
    unfold Handling.Knows at hknows
    rw [hstage] at hknows
    exact h.create hrpc hknows.2.1 r
  · exact h.refuse hrpc hstage

theorem count_complete (o : Outcome) : (taskOps o).count .complete = 1 := by
  have hcalls : (o.calls.map TaskOp.call).count .complete = 0 := by
    rw [List.count_eq_zero]
    simp
  unfold taskOps
  rw [List.count_append, List.count_append, List.count_append, hcalls]
  split
  · rfl
  · rfl

/-- A task completes its command once. -/
theorem complete_notMem_rest {o : Outcome} {done rest : List TaskOp}
    (h : taskOps o = done ++ .complete :: rest) : .complete ∉ rest := by
  have hcount := count_complete o
  rw [h, List.count_append, List.count_cons_self] at hcount
  rw [← List.count_eq_zero]
  omega

/-- Nobody else has the command of the running task. -/
theorem Booked.others (h : Booked sha cfg s) {t : UpdateTask} (htask : s.tasks = [t]) :
    (∀ g, s.rpc = .ota g → g.tag ≠ t.tag) ∧ ∀ u ∈ s.ended, u.tag ≠ t.tag := by
  have hnodup := h.owners
  simp only [Updates.owners, htask, List.map_cons, List.map_nil, List.append_assoc,
    List.singleton_append, List.nodup_append, List.nodup_cons] at hnodup
  constructor
  · intro g hg
    have htag : g.tag ∈ s.rpc.tag := by simp [hg, RpcTask.tag]
    exact hnodup.2.2 g.tag htag t.tag List.mem_cons_self
  · intro u hu hsame
    exact hnodup.2.1.1 (hsame ▸ List.mem_map_of_mem hu)

/-- The books after a step of the running task: only its own entry may change. -/
theorem Booked.setTask (h : Booked sha cfg s) {t : UpdateTask} (htask : s.tasks = [t])
    (rest : List TaskOp) {acks : List (ℕ × Verdict)}
    (hacked : ∀ a ∈ acks, a.1 < s.handled.length)
    (hothers : ∀ n, n ≠ t.tag →
      (acks.filter fun a => a.1 = n).map Prod.snd = s.acksOf n)
    (hown : (acks.filter fun a => a.1 = t.tag).map Prod.snd =
      UpdateTask.sent { t with ops := rest }) :
    Booked sha cfg { s with tasks := [{ t with ops := rest }], acks := acks } := by
  have howners : Updates.owners { s with tasks := [{ t with ops := rest }], acks := acks } =
      s.owners := by
    simp [Updates.owners, htask]
  have hmem : t ∈ s.tasks ++ s.ended := by simp [htask]
  obtain ⟨hrpcTag,hendedTag⟩ := h.others htask
  refine ⟨howners ▸ h.owners,hacked,h.short,?_,?_,?_,h.ended,?_⟩
  · intro g hg
    obtain ⟨hgid,hgacks,hgstage⟩ := h.rpc g hg
    exact ⟨hgid,(hothers _ (hrpcTag g hg)).trans hgacks,hgstage⟩
  · intro u hu
    rcases List.mem_cons.mp hu with rfl | hu
    · exact ⟨(h.task t hmem).1,hown⟩
    · obtain ⟨huid,husent⟩ := h.task u (List.mem_append_right _ hu)
      exact ⟨huid,(hothers _ (hendedTag u hu)).trans husent⟩
  · intro u hu
    rcases List.mem_cons.mp hu with rfl | hu
    · exact h.ran t hmem
    · exact h.ran u (List.mem_append_right _ hu)
  · intro n id hn hfree
    rw [howners] at hfree
    have hother : n ≠ t.tag := by
      rintro rfl
      exact hfree (by simp [Updates.owners, htask])
    obtain ⟨error,hrefusal,hrefused⟩ := h.refused n id hn hfree
    exact ⟨error,hrefusal,(hothers n hother).trans hrefused⟩

/-- A task that ends leaves its entry behind. -/
theorem Booked.endTask (h : Booked sha cfg s) {t : UpdateTask} (htask : s.tasks = [t])
    (hops : t.ops = [.clearRunning]) :
    Booked sha cfg { s with tasks := [], ended := s.ended ++ [{ t with ops := [] }], running := false } := by
  have howners : (Updates.owners
      { s with tasks := [], ended := s.ended ++ [{ t with ops := [] }], running := false }).Perm
      s.owners := by
    simp only [Updates.owners, htask, List.map_nil, List.append_nil, List.map_append, List.map_cons,
      List.append_assoc]
    exact List.Perm.append_left _ List.perm_append_comm
  have hcases : ∀ u ∈ s.ended ++ [{ t with ops := [] }], u ∈ s.ended ∨ u = { t with ops := [] } := by
    intro u hu
    simpa using hu
  refine ⟨howners.nodup_iff.mpr h.owners,h.acked,h.short,h.rpc,?_,?_,?_,?_⟩
  · intro u hu
    rcases hcases u hu with hu | rfl
    · exact h.task u (List.mem_append_right _ hu)
    · obtain ⟨hid,hsent⟩ := h.task t (by simp [htask])
      refine ⟨hid,hsent.trans ?_⟩
      simp [UpdateTask.sent, hops]
  · intro u hu
    rcases hcases u hu with hu | rfl
    · exact h.ran u (List.mem_append_right _ hu)
    · exact h.ran t (by simp [htask])
  · intro u hu
    rcases hcases u hu with hu | rfl
    · exact h.ended u hu
    · rfl
  · intro n id hn hfree
    exact h.refused n id hn fun hmem => hfree (howners.mem_iff.mpr hmem)

theorem Booked.runTask (h : Booked sha cfg s) (hex : Exclusive sha cfg s) (i : ℕ) :
    Booked sha cfg (s.runTask i) := by
  rcases hex.runTask_cases i with hsame | ⟨t,htask,-,hops,-,hrun⟩ |
    ⟨t,op,rest,htask,hunder,hops,-,hop,-,hrun⟩
  · rw [hsame]
    exact h
  · rw [hrun]
    exact h.endTask htask hops
  rw [hrun]
  have hmem : t ∈ s.tasks ++ s.ended := by simp [htask]
  obtain ⟨hid,hsent⟩ := h.task t hmem
  have hgoes : op ≠ .complete → Booked sha cfg { s with tasks := [{ t with ops := rest }] } := by
    intro hne
    refine h.setTask htask rest h.acked (fun _ _ => rfl) (hsent.trans ?_)
    simp [UpdateTask.sent, hops, hne.symm]
  cases op with
  | clearRunning => exact absurd rfl hop
  | call c => exact (hgoes TaskOp.noConfusion).of_same ⟨rfl,rfl,rfl,rfl,rfl⟩
  | startReboot => exact (hgoes TaskOp.noConfusion).of_same (.startReboot _)
  | complete =>
    obtain ⟨done,hdone⟩ := hunder.rest
    rw [hops] at hdone
    have hlast := complete_notMem_rest hdone
    have hnone : s.acksOf t.tag = [] := by
      rw [hsent]
      simp [UpdateTask.sent, hops]
    -- the buffer holds the id of the task's own command, whole
    have hshort := h.short t.commandId (List.mem_of_getElem? hid)
    have hown : s.otaCmdId = t.commandId := by
      rw [hunder.own, copyStr]
      apply List.take_of_length_le
      omega
    refine h.setTask htask rest ?_ ?_ ?_
    · intro a ha
      rcases List.mem_append.mp ha with ha | ha
      · exact h.acked a ha
      · rw [List.mem_singleton.mp ha]
        exact (List.getElem?_eq_some_iff.mp hid).1
    · intro n hn
      rw [acksOf_append, if_neg hn.symm, List.append_nil]
      rfl
    · unfold Updates.acksOf at hnone
      rw [acksOf_append, hnone, if_pos rfl]
      simp [UpdateTask.sent, hlast, hown]

/-- Ids fit the buffer. -/
def Short (_ : Updates) : UpdateInput → Prop
  | .command commandId _ => commandId.length < kMaxCommandId
  | _ => True

instance (s : Updates) : (a : UpdateInput) → Decidable (Short s a)
  | .command commandId _ => inferInstanceAs (Decidable (commandId.length < kMaxCommandId))
  | .rpc _ | .ota _ | .tick _ | .timerFires => inferInstanceAs (Decidable True)

theorem Booked.step (a : UpdateInput) (ha : Short s a) (hex : Exclusive sha cfg s) (h : Booked sha cfg s) :
    Booked sha cfg (s.step sha cfg a) := by
  rcases s.step_cases sha cfg a with hs | ⟨-,⟨commandId,kind,rfl,hidle,hs⟩ | ⟨created,-,hs⟩ |
    ⟨i,-,hs⟩ | ⟨us,-,hs⟩ | ⟨due,-,-,-,hs⟩⟩ <;> rw [hs]
  · exact h
  · cases kind with
    | beginOta => exact h.takeBegin hidle ha
    | reboot => exact h.setRpc (by rw [hidle]; rfl) nofun
    | _ => exact h
  · unfold Updates.runRpc
    split
    · exact h
    · rename_i us hrpc
      have hidle : Booked sha cfg { s with rpc := .idle } := h.setRpc (by rw [hrpc]; rfl) nofun
      exact hidle.of_same (.startReboot _)
    · rename_i g hrpc
      exact h.beginOta hex hrpc created
  · exact h.runTask hex i
  · exact h.of_same ⟨rfl,rfl,rfl,rfl,rfl⟩
  · exact h.of_same ⟨rfl,rfl,rfl,rfl,rfl⟩

theorem booked_initial : Booked sha cfg {} :=
  ⟨List.nodup_nil,nofun,nofun,nofun,nofun,nofun,nofun,nofun⟩

end Booked

/-- The update of a command has not been decided: the handler is still at it, or its task has not
completed the command yet. -/
def Updates.Pending (s : Updates) (tag : ℕ) : Prop :=
  (∃ h, s.rpc = .ota h ∧ h.tag = tag) ∨ ∃ t ∈ s.tasks, t.tag = tag ∧ .complete ∈ t.ops

/-- At most one update runs. A `BEGIN_OTA` that is not pending is completed exactly once and under
its own id, with the outcome of its own update or with the refusal. -/
theorem each_update_acked_once (sha : Sha256) (cfg : Config) (as : List UpdateInput)
    (hshort : AllSteps (Updates.step sha cfg) Short {} as) :
    let s := exec (Updates.step sha cfg) {} as
    s.tasks.length ≤ 1 ∧ (∀ a ∈ s.acks, a.1 < s.handled.length) ∧
    ∀ n id, s.handled[n]? = some id →
      (s.Pending n ∧ s.acksOf n = []) ∨
      (∃ t ∈ s.tasks ++ s.ended, t.tag = n ∧ (∃ r, t.outcome = runInner sha cfg r) ∧
        .complete ∉ t.ops ∧ s.acksOf n = [t.outcome.verdict id]) ∨
      ((∀ t ∈ s.tasks ++ s.ended, t.tag ≠ n) ∧
        ∃ error, Refusal error ∧ s.acksOf n = [⟨id,false,error⟩]) := by
  intro s
  have h : Exclusive sha cfg s ∧ Booked sha cfg s := by
    refine exec_invariant_of (I:=fun s => Exclusive sha cfg s ∧ Booked sha cfg s) ?_ hshort
      ⟨exclusive_initial,booked_initial⟩
    intro s a ha h
    exact ⟨h.1.step s a,h.2.step a ha h.1⟩
  obtain ⟨hex,hbooked⟩ := h
  refine ⟨?_,hbooked.acked,fun n id hn => ?_⟩
  · rcases hex.task with hnone | ⟨t,htask,-⟩
    · simp [hnone]
    · simp [htask]
  by_cases hrpc : ∃ h, s.rpc = .ota h ∧ h.tag = n
  · left
    obtain ⟨g,hg,rfl⟩ := hrpc
    exact ⟨.inl ⟨g,hg,rfl⟩,(hbooked.rpc g hg).2.1⟩
  by_cases htask : ∃ t ∈ s.tasks ++ s.ended, t.tag = n
  · obtain ⟨t,ht,rfl⟩ := htask
    obtain ⟨hid,hsent⟩ := hbooked.task t ht
    have hsame : t.commandId = id := Option.some.inj (hid.symm.trans hn)
    by_cases hopen : .complete ∈ t.ops
    · left
      have hrunning : t ∈ s.tasks := by
        rcases List.mem_append.mp ht with ht | ht
        · exact ht
        · rw [hbooked.ended t ht] at hopen
          cases hopen
      refine ⟨.inr ⟨t,hrunning,rfl,hopen⟩,hsent.trans ?_⟩
      simp [UpdateTask.sent, hopen]
    · right
      left
      refine ⟨t,ht,rfl,hbooked.ran t ht,hopen,hsent.trans ?_⟩
      simp [UpdateTask.sent, hopen, hsame]
  · right
    right
    have hfree : n ∉ s.owners := by
      rw [mem_owners, not_or]
      exact ⟨hrpc,htask⟩
    exact ⟨fun t ht hsame => htask ⟨t,ht,hsame⟩,hbooked.refused n id hn hfree⟩

/-- A second `BEGIN_OTA` is refused while the update of the first goes on to its end. -/
theorem each_update_acked_once_refused :
    let cfg : Config := ⟨utf8 "0.1.0",none⟩
    let as : List UpdateInput := [.command [1] .beginOta, .rpc none, .rpc none, .rpc none, .rpc none,
      .rpc (some smallUpdate), .ota 0, .command [2] .beginOta, .rpc none, .ota 0, .ota 0, .rpc none,
      .ota 0, .ota 0, .ota 0, .ota 0]
    let s := exec (Updates.step firstBytes cfg) {} as
    s.acks = [(1, ⟨[2],false,"an OTA update is already running"⟩), (0, ⟨[1],true,""⟩)] ∧
      s.tasks.length ≤ 1 := by
  intro cfg as s
  have hacks : s.acks = [(1, ⟨[2],false,"an OTA update is already running"⟩), (0, ⟨[1],true,""⟩)] := by
    decide +kernel
  exact ⟨hacks,(each_update_acked_once firstBytes cfg as (by decide +kernel)).1⟩

end AlprGate.Ota
