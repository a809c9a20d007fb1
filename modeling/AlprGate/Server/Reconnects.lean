import AlprGate.Server.CommandDelivery

/-! # Reconnecting gates

A gate that reconnects opens a new session, and the new subscription replays the ring
from its start. Commands of the gate reach its streams once over all sessions in the
runs in which every command the gate was sent has left the ring before it registers
again; while such a command is still in the ring, the next session writes it again.
-/
namespace AlprGate.Dash.Server
open Transition

def OfGate (g : String) (s : Server) (σ : ℕ) : Prop := (s.session σ).gateId = g

instance (g : String) (s : Server) (σ : ℕ) : Decidable (OfGate g s σ) :=
  inferInstanceAs (Decidable ((s.session σ).gateId = g))

/-- The gate opens a session only after its earlier ones have ended. -/
def OneAtATime (g : String) (s : Server) : Input → Prop
  | .open _ (some (.telemetry gateId)) =>
    gateId = g → ∀ τ ∈ s.opened, OfGate g s τ → (s.session τ).stage.active = false
  | _ => True

instance (g : String) (s : Server) : (a : Input) → Decidable (OneAtATime g s a)
  | .open _ (some (.telemetry gateId)) => inferInstanceAs (Decidable (gateId = g → _))
  | .open _ (some .ack) => isTrue trivial
  | .open _ (some (.fault _)) => isTrue trivial
  | .open _ (some .command) => isTrue trivial
  | .open _ (some .notSet) => isTrue trivial
  | .open _ none => isTrue trivial
  | .publish .. | .assign _ | .serve _ | .subscribe _ | .register _ | .read .. | .resume _
  | .readFails _ | .close _ | .join _ | .cancel _ | .writerTop _ | .writerNext _
  | .writerStarved _ | .writerWrite .. | .stop | .closeAll => isTrue trivial

/-- When a session of the gate registers, no command that was written to the gate is
still in the ring. -/
def NothingToReplay (g : String) (s : Server) : Input → Prop
  | .register σ => (s.session σ).stage = .registering → OfGate g s σ →
    ∀ τ ∈ s.opened, OfGate g s τ → ∀ id ∈ s.writtenIds τ, id ∉ s.bus.ringIds
  | _ => True

instance (g : String) (s : Server) : (a : Input) → Decidable (NothingToReplay g s a)
  | .register σ => inferInstanceAs (Decidable ((s.session σ).stage = .registering → _))
  | .open .. | .publish .. | .assign _ | .serve _ | .subscribe _ | .read .. | .resume _
  | .readFails _ | .close _ | .join _ | .cancel _ | .writerTop _ | .writerNext _
  | .writerStarved _ | .writerWrite .. | .stop | .closeAll => isTrue trivial

/-- No published event is at two places of the streams of the gate's sessions. -/
def WrittenOnce (g : String) (s : Server) : Prop :=
  ∀ σ τ i j id : ℕ, OfGate g s σ → OfGate g s τ → (s.writtenIds σ)[i]? = some id →
    (s.writtenIds τ)[j]? = some id → σ = τ ∧ i = j

/-- What keeps the sessions of one gate apart. -/
structure Apart (g : String) (s : Server) : Prop where
  exclusive : ∀ σ τ, OfGate g s σ → OfGate g s τ → Active s σ → Active s τ → σ = τ
  seen : ∀ σ τ, σ ≠ τ → OfGate g s σ → OfGate g s τ → Active s τ →
    ∀ id ∈ s.seenIds τ, id ∉ s.writtenIds σ
  written : ∀ σ τ, σ ≠ τ → OfGate g s σ → OfGate g s τ →
    ∀ id ∈ s.writtenIds σ, id ∉ s.writtenIds τ
  unserved : ∀ th env ts, s.publisher th = .serving env ts → ∀ τ ∈ ts, ¬ Closed s τ →
    OfGate g s τ → ∀ σ, σ ≠ τ → OfGate g s σ → env.event.eventId ∉ s.writtenIds σ

theorem written_subset_seen (s : Server) (σ : ℕ) : s.writtenIds σ ⊆ s.seenIds σ :=
  List.subset_append_left _ _

section Moves
variable {s t : Server} {a : Input} {g : String}

/-- The id of a held command is among those seen. -/
theorem held_seen {σ : ℕ} {e : DashboardEvent} (h : (s.session σ).writer = .holding e) :
    e.eventId ∈ s.seenIds σ := by
  simp [seenIds, pendingIds, h, Writer.held]

/-- A stream grows by the write of a held command only. -/
theorem Move.written (hmove : Move s a t) (τ : ℕ) :
    t.writtenIds τ = s.writtenIds τ ∨
    ∃ e, a = .writerWrite τ true ∧ (s.session τ).writer = .holding e ∧
      t.writtenIds τ = s.writtenIds τ ++ [e.eventId] := by
  cases hmove with
  | steady hsteady => exact Or.inl hsteady.written
  | enter hstage hsteady => exact Or.inl (hsteady.written.trans (enter_written ..))
  | assign => exact Or.inl rfl
  | deliver => exact Or.inl rfl
  | @register σ hstage =>
    by_cases hτ : τ = σ
    · subst hτ
      exact Or.inl (by rw [writtenIds, setSession_self, writtenIds])
    · exact Or.inl (by rw [writtenIds, setSession_other hτ]; rfl)
  | @write σ e hholding =>
    by_cases hτ : τ = σ
    · subst hτ
      refine Or.inr ⟨e,rfl,hholding,?_⟩
      rw [writtenIds, setSession_self, List.map_append]
      rfl
    · exact Or.inl (by rw [writtenIds, setSession_other hτ]; rfl)

/-- A session of the gate was one before, or it enters now. -/
theorem Move.carried (hmove : Move s a t) {τ : ℕ} (hgate : OfGate g t τ) :
    (OfGate g s τ ∧ (Active t τ → Active s τ)) ∨
    (a = .open τ (some (.telemetry g)) ∧ (s.session τ).stage = .unopened) := by
  cases hmove with
  | steady hsteady =>
    exact Or.inl ⟨(hsteady.fades τ).gateId.symm.trans hgate,(hsteady.fades τ).active⟩
  | @enter σ gateId _ hstage hsteady =>
    have hentered := (hsteady.fades τ).gateId.symm.trans hgate
    rcases enter_session_cases s σ τ gateId with ⟨rfl,hx⟩ | ⟨_,hx⟩
    · rw [hx] at hentered
      obtain rfl : gateId = g := hentered
      exact Or.inr ⟨rfl,hstage⟩
    · have hactive := (hsteady.fades τ).active
      rw [hx] at hentered hactive
      exact Or.inl ⟨hentered,hactive⟩
  | assign => exact Or.inl ⟨hgate,id⟩
  | deliver => exact Or.inl ⟨hgate,id⟩
  | @register σ hstage =>
    by_cases hτ : τ = σ
    · subst hτ
      rw [OfGate, setSession_self] at hgate
      exact Or.inl ⟨hgate,fun _ => by rw [Active, hstage]; rfl⟩
    · rw [OfGate, setSession_other hτ] at hgate
      refine Or.inl ⟨hgate,?_⟩
      rw [Active, setSession_other hτ]
      exact id
  | @write σ e hholding =>
    by_cases hτ : τ = σ
    · subst hτ
      rw [OfGate, setSession_self] at hgate
      refine Or.inl ⟨hgate,?_⟩
      rw [Active, setSession_self]
      exact id
    · rw [OfGate, setSession_other hτ] at hgate
      refine Or.inl ⟨hgate,?_⟩
      rw [Active, setSession_other hτ]
      exact id

/-- A session that enters has seen nothing. -/
theorem Move.entering (hmove : Move s a t) (h : Unrepeated s) {τ : ℕ}
    (ha : a = .open τ (some (.telemetry g))) (hstage : (s.session τ).stage = .unopened) :
    t.seenIds τ = [] := by
  have hearly : Early s τ := early_of_stage hstage rfl
  rcases hmove.seen τ with hseen | ⟨th,env,rest,ha',_⟩ | ⟨ha',_⟩
  · rw [h.freshSeen τ hearly] at hseen
    exact List.sublist_nil.mp hseen
  · rw [ha] at ha'
    cases ha'
  · rw [ha] at ha'
    cases ha'

/-- A session with a stream was a session of the gate before the step. -/
theorem Move.carried_of_mem (hmove : Move s a t) (h : Unrepeated s) {τ id : ℕ}
    (hgate : OfGate g t τ) (hid : id ∈ t.seenIds τ) :
    OfGate g s τ ∧ (Active t τ → Active s τ) := by
  rcases hmove.carried hgate with hs | ⟨ha,hstage⟩
  · exact hs
  · rw [hmove.entering h ha hstage] at hid
    cases hid

theorem Enrolled.mem_opened (hs : Enrolled s) (h : Unrepeated s) {σ id : ℕ}
    (hid : id ∈ s.seenIds σ) : σ ∈ s.opened := by
  apply hs.known σ
  intro hstage
  have hearly : Early s σ := early_of_stage hstage rfl
  rw [h.freshSeen σ hearly] at hid
  cases hid

theorem Enrolled.holding_active (hs : Enrolled s) {σ : ℕ} {e : DashboardEvent}
    (h : (s.session σ).writer = .holding e) : Active s σ := by
  apply hs.running σ
  rw [h]
  exact Writer.noConfusion

theorem Enrolled.active_opened (hs : Enrolled s) {σ : ℕ} (h : Active s σ) : σ ∈ s.opened := by
  apply hs.known σ
  intro hstage
  rw [Active, hstage] at h
  exact Bool.false_ne_true h

theorem Move.exclusive (hmove : Move s a t) (hs : Enrolled s) (h : Apart g s)
    (hone : OneAtATime g s a) {σ τ : ℕ} (hσ : OfGate g t σ) (hτ : OfGate g t τ)
    (hactiveσ : Active t σ) (hactiveτ : Active t τ) : σ = τ := by
  -- Whoever enters finds the other session ended.
  have hended : ∀ {ρ : ℕ}, OfGate g s ρ → Active s ρ →
      ∀ {ρ' : ℕ}, a ≠ .open ρ' (some (.telemetry g)) := by
    rintro ρ hρ hactive ρ' rfl
    have hinactive := hone rfl ρ (hs.active_opened hactive) hρ
    rw [Active, hinactive] at hactive
    exact Bool.false_ne_true hactive
  rcases hmove.carried hσ with ⟨hσ,hbackσ⟩ | ⟨haσ,_⟩
  · rcases hmove.carried hτ with ⟨hτ,hbackτ⟩ | ⟨haτ,_⟩
    · exact h.exclusive σ τ hσ hτ (hbackσ hactiveσ) (hbackτ hactiveτ)
    · exact absurd haτ (hended hσ (hbackσ hactiveσ))
  · rcases hmove.carried hτ with ⟨hτ,hbackτ⟩ | ⟨haτ,_⟩
    · exact absurd haσ (hended hτ (hbackτ hactiveτ))
    · rw [haσ] at haτ
      exact (Input.open.inj haτ).1

theorem Move.seen_apart (hmove : Move s a t) (hs : Enrolled s) (hu : Unrepeated s)
    (h : Apart g s) (hreplay : NothingToReplay g s a) {σ τ id : ℕ} (hne : σ ≠ τ)
    (hσ : OfGate g t σ) (hτ : OfGate g t τ) (hactive : Active t τ) (hid : id ∈ t.seenIds τ) :
    id ∉ t.writtenIds σ := by
  intro hwritten
  obtain ⟨hτ,hback⟩ := hmove.carried_of_mem hu hτ hid
  obtain ⟨hσ,_⟩ := hmove.carried_of_mem hu hσ (written_subset_seen t σ hwritten)
  have hactive := hback hactive
  rcases hmove.written σ with hsame | ⟨e,_,hholding,_⟩
  · rw [hsame] at hwritten
    rcases hmove.seen τ with hseen | ⟨th,env,rest,_,hserving,_,hopen,hseen⟩ |
      ⟨rfl,hstage,_,hseen⟩
    · exact h.seen σ τ hne hσ hτ hactive id (hseen.subset hid) hwritten
    · rcases List.mem_append.mp (hseen.subset hid) with hid | hid
      · exact h.seen σ τ hne hσ hτ hactive id hid hwritten
      · obtain rfl := List.mem_singleton.mp hid
        exact h.unserved th env _ hserving τ List.mem_cons_self hopen hτ σ hne hσ hwritten
    · have hring := (hu.registered hstage hseen).subset hid
      have hopened := hs.mem_opened hu (written_subset_seen s σ hwritten)
      exact hreplay hstage hτ σ hopened hσ id hwritten hring
  · have hactiveσ := hs.holding_active hholding
    exact hne (h.exclusive σ τ hσ hτ hactiveσ hactive)

/-- One session writes; the other streams stay as they are. -/
theorem Apart.not_both_written (hs : Enrolled s) (h : Apart g s) {σ τ id : ℕ}
    {e : DashboardEvent} (hne : σ ≠ τ) (hσ : OfGate g s σ) (hτ : OfGate g s τ)
    (hholding : (s.session σ).writer = .holding e)
    (hid : id ∈ s.writtenIds σ ++ [e.eventId]) : id ∉ s.writtenIds τ := by
  rcases List.mem_append.mp hid with hid | hid
  · exact h.written σ τ hne hσ hτ id hid
  · obtain rfl := List.mem_singleton.mp hid
    have hactiveσ := hs.holding_active hholding
    exact h.seen τ σ hne.symm hτ hσ hactiveσ _ (held_seen hholding)

theorem Move.written_apart (hmove : Move s a t) (hs : Enrolled s) (hu : Unrepeated s)
    (h : Apart g s) {σ τ id : ℕ} (hne : σ ≠ τ) (hσ : OfGate g t σ) (hτ : OfGate g t τ)
    (hidσ : id ∈ t.writtenIds σ) : id ∉ t.writtenIds τ := by
  intro hidτ
  obtain ⟨hσ,_⟩ := hmove.carried_of_mem hu hσ (written_subset_seen t σ hidσ)
  obtain ⟨hτ,_⟩ := hmove.carried_of_mem hu hτ (written_subset_seen t τ hidτ)
  rcases hmove.written σ with hsameσ | ⟨e,ha,hholding,hwroteσ⟩
  · rw [hsameσ] at hidσ
    rcases hmove.written τ with hsameτ | ⟨e,_,hholding,hwroteτ⟩
    · rw [hsameτ] at hidτ
      exact h.written σ τ hne hσ hτ id hidσ hidτ
    · rw [hwroteτ] at hidτ
      exact h.not_both_written hs hne.symm hτ hσ hholding hidτ hidσ
  · rw [hwroteσ] at hidσ
    rcases hmove.written τ with hsameτ | ⟨e',ha',_,_⟩
    · rw [hsameτ] at hidτ
      exact h.not_both_written hs hne hσ hτ hholding hidσ hidτ
    · rw [ha] at ha'
      exact hne (Input.writerWrite.inj ha').1

theorem Move.unserved_apart (hmove : Move s a t) (hs : Enrolled s) (hu : Unrepeated s)
    (h : Apart g s) {th : Thread} {env : EventEnvelope} {ts : List ℕ} {σ τ : ℕ}
    (hserving : t.publisher th = .serving env ts) (hmem : τ ∈ ts) (hopen : ¬ Closed t τ)
    (hτ : OfGate g t τ) (hne : σ ≠ τ) (hσ : OfGate g t σ) :
    env.event.eventId ∉ t.writtenIds σ := by
  intro hid
  obtain ⟨hσ,_⟩ := hmove.carried_of_mem hu hσ (written_subset_seen t σ hid)
  have hbefore : ∀ ts', s.publisher th = .serving env ts' → τ ∈ ts' → False := by
    intro ts' hserving' hmem'
    have htarget : Target s τ := Or.inr ⟨th,env,ts',hserving',hmem'⟩
    have hlate : ¬ Early s τ := fun hearly => hs.freshTarget τ hearly htarget
    have hopen' : ¬ Closed s τ := fun hclosed => hopen (hmove.closed hlate hclosed)
    have hτ' : OfGate g s τ := by
      rcases hmove.carried hτ with ⟨hτ',_⟩ | ⟨_,hstage⟩
      · exact hτ'
      · rw [Early, hstage] at hlate
        exact absurd rfl hlate
    have hunwritten := h.unserved th env ts' hserving' τ hmem' hopen' hτ' σ hne hσ
    rcases hmove.written σ with hsame | ⟨e,_,hholding,_⟩
    · rw [hsame] at hid
      exact hunwritten hid
    · have hactiveσ := hs.holding_active hholding
      have hactive := (hs.attached τ htarget).resolve_right hopen'
      exact hne (h.exclusive σ τ hσ hτ' hactiveσ hactive)
  rcases hmove.serving hserving with hs' | ⟨i,_,hs'⟩ | ⟨ha,hnew,_⟩
  · exact hbefore ts hs' hmem
  · exact hbefore _ hs' (List.mem_cons_of_mem i hmem)
  · rcases hmove.written σ with hsame | ⟨e,ha',_⟩
    · rw [hsame] at hid
      have hlt := hu.seenLt σ _ (written_subset_seen s σ hid)
      omega
    · rw [ha] at ha'
      cases ha'

end Moves

theorem step_apart {g : String} {s : Server} {a : Input} (hs : Enrolled s) (hu : Unrepeated s)
    (h : Apart g s) (hone : OneAtATime g s a) (hreplay : NothingToReplay g s a) :
    Apart g (s.step a) :=
  have hmove := step_move s a
  { exclusive := fun _ _ => hmove.exclusive hs h hone
    seen := fun _ _ hne hσ hτ hactive _ => hmove.seen_apart hs hu h hreplay hne hσ hτ hactive
    written := fun _ _ hne hσ hτ _ => hmove.written_apart hs hu h hne hσ hτ
    unserved := fun _ _ _ hserving _ hmem hopen hτ _ hne hσ =>
      hmove.unserved_apart hs hu h hserving hmem hopen hτ hne hσ }

theorem boot_apart (ringCapacity perSubCapacity : ℕ) (defaultSiteId g : String) :
    Apart g (boot ringCapacity perSubCapacity defaultSiteId) where
  exclusive := fun _ _ _ _ h => absurd h Bool.false_ne_true
  seen := fun _ _ _ _ _ h => absurd h Bool.false_ne_true
  written := fun _ _ _ _ _ _ h => by cases h
  unserved := fun _ _ _ h => by cases h

theorem Apart.writtenOnce {g : String} {s : Server} (h : Apart g s) (hu : Unrepeated s) :
    WrittenOnce g s := by
  intro σ τ i j id hσ hτ hi hj
  by_cases hne : σ = τ
  · subst hne
    have hnodup : (s.writtenIds σ).Nodup := (hu.seenNodup σ).of_append_left
    obtain ⟨hlt,_⟩ := List.getElem?_eq_some_iff.mp hi
    exact ⟨rfl,(List.getElem?_inj hlt hnodup).mp (hi.trans hj.symm)⟩
  · exact absurd (List.mem_of_getElem? hj)
      (h.written σ τ hne hσ hτ id (List.mem_of_getElem? hi))

/-- Over all sessions of a gate, opened one at a time, a command is written at most once
provided that no command the gate was sent is left in the ring when it registers. -/
theorem commands_written_once (ringCapacity perSubCapacity : ℕ) (defaultSiteId g : String)
    (as : List Input)
    (h : AllSteps step (fun s a => OneAtATime g s a ∧ NothingToReplay g s a)
      (boot ringCapacity perSubCapacity defaultSiteId) as) :
    WrittenOnce g (exec step (boot ringCapacity perSubCapacity defaultSiteId) as) := by
  have hrun := exec_invariant_of (I:=fun s => Enrolled s ∧ Unrepeated s ∧ Apart g s)
    (fun s a hC hI => ⟨step_enrolled s a hI.1,step_unrepeated s a hI.1 hI.2.1,
      step_apart hI.1 hI.2.1 hI.2.2 hC.1 hC.2⟩) h
    ⟨boot_enrolled ringCapacity perSubCapacity defaultSiteId,
      boot_unrepeated ringCapacity perSubCapacity defaultSiteId,
      boot_apart ringCapacity perSubCapacity defaultSiteId g⟩
  exact hrun.2.2.writtenOnce hrun.2.1

/-- A session of a gate up to the start of its writer. -/
def connect (σ : ℕ) (g : String) : List Input :=
  [.open σ (some (.telemetry g)), .assign (.handler σ), .serve (.handler σ), .subscribe σ,
    .register σ]

/-- The writer forwards one command. -/
def forward (σ : ℕ) : List Input := [.writerTop σ, .writerNext σ, .writerWrite σ true]

/-- The gate disconnects and the call returns. -/
def disconnect (σ : ℕ) : List Input := [.readFails σ, .close σ, .writerTop σ, .join σ]

/-- A command is published while session 1 is the only subscriber. -/
def command (c : GateCommand) : List Input :=
  [.publish 0 "site" c.gateId (.command c), .assign (.client 0), .serve (.client 0),
    .serve (.client 0)]

/-- A gate gets a command, reconnects, and its writer forwards what it finds. -/
def reconnect : List Input :=
  connect 1 "g" ++ command ⟨"c","g"⟩ ++ forward 1 ++ disconnect 1 ++ connect 2 "g" ++ forward 2

/-- With a ring of one event the announcement of the second session evicts the command,
and the replay is empty. -/
theorem commands_written_once_small_ring :
    WrittenOnce "g" (exec step (boot 1 8 "site") reconnect) ∧
      (exec step (boot 1 8 "site") reconnect).writtenIds 1 = [2] :=
  ⟨commands_written_once 1 8 "site" "g" reconnect (by decide +kernel),by decide +kernel⟩

/-- With a ring that still holds it, the command is written in both sessions. -/
theorem command_written_by_both_sessions :
    AllSteps step (OneAtATime "g") (boot 4096 1024 "site") reconnect ∧
      ¬ WrittenOnce "g" (exec step (boot 4096 1024 "site") reconnect) := by
  refine ⟨by decide +kernel,?_⟩
  intro h
  have hboth := h 1 2 0 0 2 (by decide +kernel) (by decide +kernel) (by decide +kernel)
    (by decide +kernel)
  cases hboth.1

end AlprGate.Dash.Server
