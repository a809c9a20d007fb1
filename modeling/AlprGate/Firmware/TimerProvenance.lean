import AlprGate.Firmware.ControllerTimers

/-! # Which arming a timer event comes from

Stopping a one-shot does not take back an event it has already queued. The history
counts the machine's transitions, notes in which of these epochs each one-shot was
armed last, and shadows the queue with that note. Two events carry the same epoch
exactly if the machine made no transition between them, so an event whose stamp is
the current epoch belongs to the present motion or dwell.
-/
namespace AlprGate.Control
open StateMachine Drivers BoundedQueue PendingWrites Transition

/-- The state the machine enters in a step, if it makes a transition. -/
def entered (s : Controller) (a : Input) : Option State :=
  match handled s a, resolves s a with
  | some ev, _ => if (handle s.sm ev).2.transitioned then some (handle s.sm ev).1.state else none
  | none, some openActive => some (initFrom openActive s.limitClosed.committed s.sm).1.state
  | none, none => none

/-- What a step leaves of a list that runs along the queue. -/
def left {β : Type} (s : Controller) (a : Input) (q : List β) : List β :=
  if a = .receive ∧ (handled s a).isSome then q.tail else q

structure History where
  epoch : ℕ := 0
  watchdog : ℕ := 0
  autoclose : ℕ := 0
  shadow : List (Event × Option ℕ) := []
  deriving DecidableEq, Repr

/-- The epoch in which the one-shot that fires was armed. -/
def History.stamp (h : History) : Input → Option ℕ
  | .watchdogFires => some h.watchdog
  | .autocloseFires => some h.autoclose
  | _ => none

def record (s : Controller) (a : Input) (h : History) : History where
  epoch := if (entered s a).isSome then h.epoch + 1 else h.epoch
  watchdog := if operation s a = some .startWatchdog then h.epoch else h.watchdog
  autoclose := if operation s a = some .startAutoclose then h.epoch else h.autoclose
  shadow := left s a h.shadow ++ (accepted s a).toList.map fun ev => (ev,h.stamp a)

/-! ### Transitions of a step -/

theorem handle_newState (m : Machine) (ev : Event) :
    (handle m ev).2.newState = (handle m ev).1.state := by
  rcases handle_cases m ev with ⟨s,stored,reported,actions,-,hm⟩ | ⟨⟨hopen,-,-⟩,hm⟩ | ⟨-,-,hm⟩
  · rw [hm]
  · rw [hm]
    exact hopen.symm
  · rw [hm]

theorem handle_state_eq {m : Machine} {ev : Event} (h : (handle m ev).2.transitioned = false) :
    (handle m ev).1.state = m.state := by
  rcases handle_cases m ev with ⟨s,stored,reported,actions,-,hm⟩ | ⟨-,hm⟩ | ⟨-,-,hm⟩
  · rw [hm] at h
    cases h
  · rw [hm]
  · rw [hm]

theorem entered_eq_none {s : Controller} {a : Input} (hh : handled s a = none)
    (hr : resolves s a = none) : entered s a = none := by
  simp only [entered, hh, hr]

theorem entered_of_handled {s : Controller} {a : Input} {ev : Event} (h : handled s a = some ev) :
    entered s a =
      if (handle s.sm ev).2.transitioned then some (handle s.sm ev).1.state else none := by
  simp only [entered, h]

theorem entered_resolve {s : Controller} {b : Bool} (hops : s.ops = [])
    (h : s.stage = .resolve b ∨ s.stage = .pumpResolve b) :
    entered s .advance = some (initFrom b s.limitClosed.committed s.sm).1.state := by
  have hh : handled s .advance = none :=
    handled_advance_eq_none fun _ hp => by rcases h with h | h <;> rw [h] at hp <;> cases hp
  simp only [entered, hh, resolves_eq_some hops h]

theorem entered_op {s : Controller} {op : Op} {rest : List Op} (hops : s.ops = op :: rest) :
    entered s .advance = none :=
  entered_eq_none (handled_advance_eq_none fun h => by rw [hops] at h; cases h)
    (resolves_eq_none (Or.inl (by rw [hops]; simp)))

theorem Move.state_of_entered {cfg : Config} {s t : Controller} {a : Input} (hmove : Move cfg s a t)
    (hs : Coherent s) :
    (entered s a = none ∧ t.sm.state = s.sm.state) ∨
    (entered s a = some t.sm.state ∧ accepted s a = none) := by
  cases hmove with
  | quiet hq =>
    exact Or.inl ⟨entered_eq_none hq.calm.handled hq.calm.resolves,by rw [hq.sm]⟩
  | op hops => exact Or.inl ⟨entered_op hops,by rw [runOp_sm]⟩
  | prelatch hops hstage hb =>
    have hi := hs.unresolved (by rw [hstage]; rfl)
    left
    rw [entered_of_handled (handled_prelatch hstage hops hb), handle_tripped_initializing hi]
    rcases hm : s.sm with ⟨state,reason,clear⟩
    rw [hm] at hi
    cases hi
    exact ⟨rfl,rfl⟩
  | resolve hops hnext hstage =>
    right
    refine ⟨entered_resolve hops hstage,?_⟩
    rw [accepted, posted_advance_nil hops, ite_self]
  | @receive ev rest hstage hops hqueue =>
    rw [entered_of_handled (handled_receive hstage hops hqueue)]
    cases ht : (handle s.sm ev).2.transitioned with
    | false => exact Or.inl ⟨rfl,handle_state_eq ht⟩
    | true => exact Or.inr ⟨rfl,by rw [accepted]; exact ite_self _⟩

theorem Move.queue {cfg : Config} {s t : Controller} {a : Input} (hmove : Move cfg s a t) :
    t.queue = left s a s.queue ++ (accepted s a).toList := by
  have hadv : ∀ q : List Event, left s .advance q = q := fun q => if_neg fun h => by cases h.1
  cases hmove with
  | quiet hq =>
    rw [hq.queue, offers_posted, left, if_neg]
    rintro ⟨-,h⟩
    rw [hq.calm.handled] at h
    cases h
  | op hops => rw [runOp_queue, hadv, ← offers_posted, posted_advance_cons hops]
  | prelatch hops hstage hb => rw [hadv, ← offers_posted, posted_advance_nil hops]; rfl
  | resolve hops hnext hstage => rw [hadv, ← offers_posted, posted_advance_nil hops]; rfl
  | receive hstage hops hqueue =>
    have hnone : accepted s .receive = none := by rw [accepted]; exact ite_self _
    rw [left, if_pos ⟨rfl,by rw [handled_receive hstage hops hqueue]; rfl⟩, hqueue, hnone]
    simp

theorem map_left {β γ : Type} (f : β → γ) (s : Controller) (a : Input) (q : List β) :
    (left s a q).map f = left s a (q.map f) := by
  unfold left
  split
  · rw [List.map_tail]
  · rfl

theorem left_subset {β : Type} (s : Controller) (a : Input) (q : List β) : left s a q ⊆ q := by
  unfold left
  split
  · exact (List.tail_sublist q).subset
  · exact List.Subset.refl q

/-! ### Armed one-shots belong to the present epoch -/

structure Armings (s : Controller) (h : History) : Prop where
  watchdog : s.watchdogArmed = true → (h.watchdog = h.epoch ∧ State.moving s.sm.state = true) ∨
    (State.moving s.sm.state = false ∧ .stopWatchdog ∈ s.ops)
  autoclose : s.autocloseArmed = true → (h.autoclose = h.epoch ∧ s.sm.state = .open) ∨
    (s.sm.state = .closing ∧ .stopAutoclose ∈ s.ops)
  startWatchdog : .startWatchdog ∈ s.ops → State.moving s.sm.state = true
  startAutoclose : .startAutoclose ∈ s.ops → s.sm.state = .open

/-- Without pending operations an armed one-shot is the one of the present epoch. -/
theorem Armings.watchdog_of_nil {s : Controller} {h : History} (hs : Armings s h)
    (hops : s.ops = []) (ha : s.watchdogArmed = true) :
    h.watchdog = h.epoch ∧ State.moving s.sm.state = true := by
  refine (hs.watchdog ha).resolve_right fun hp => ?_
  rw [hops] at hp
  cases hp.2

theorem Armings.autoclose_of_nil {s : Controller} {h : History} (hs : Armings s h)
    (hops : s.ops = []) (ha : s.autocloseArmed = true) :
    h.autoclose = h.epoch ∧ s.sm.state = .open := by
  refine (hs.autoclose ha).resolve_right fun hp => ?_
  rw [hops] at hp
  cases hp.2

theorem mem_manageTimers_start {cfg : Config} {out : Outputs} :
    (.startWatchdog ∈ manageTimers cfg out → State.moving out.newState = true) ∧
    (.startAutoclose ∈ manageTimers cfg out → out.newState = .open) := by
  unfold manageTimers
  split
  · exact ⟨fun h => (by cases h),fun h => (by cases h)⟩
  · refine ⟨fun h => ?_,fun h => ?_⟩
    · simp at h
      rcases h.1 with h | h <;> rw [h] <;> rfl
    · simp at h
      exact h.1

theorem mem_manageTimers_stop {cfg : Config} {out : Outputs} (h : out.transitioned = true) :
    .stopWatchdog ∈ manageTimers cfg out ∧ .stopAutoclose ∈ manageTimers cfg out := by
  simp [manageTimers, h]

theorem mem_pumpProgram_start {cfg : Config} {out : Outputs} :
    (.startWatchdog ∈ pumpProgram cfg out → State.moving out.newState = true) ∧
    (.startAutoclose ∈ pumpProgram cfg out → out.newState = .open) := by
  have hlisten : ∀ op ∈ listener out, ∃ s r t, op = .notify s r t := fun op hop => by
    unfold listener at hop
    split at hop
    · exact ⟨_,_,_,List.mem_singleton.mp hop⟩
    · cases hop
  refine ⟨fun h => ?_,fun h => ?_⟩
  · simp only [pumpProgram, List.mem_append] at h
    rcases h with ((h | h) | h) | h
    · exact absurd h (not_mem_execute rfl)
    · exact mem_manageTimers_start.1 h
    · simp [applyPolicies] at h
      split at h <;> simp at h
    · obtain ⟨s,r,t,h⟩ := hlisten _ h
      cases h
  · simp only [pumpProgram, List.mem_append] at h
    rcases h with ((h | h) | h) | h
    · exact absurd h (not_mem_execute rfl)
    · exact mem_manageTimers_start.2 h
    · unfold applyPolicies at h
      split at h
      · simp at h
      · split at h
        · rename_i hc
          exact hc.2.1
        · cases h
    · obtain ⟨s,r,t,h⟩ := hlisten _ h
      cases h

/-- Every motion ends at rest, and the open dwell ends in a closing motion. -/
theorem handle_leaves {m : Machine} {ev : Event} (h : (handle m ev).2.transitioned = true) :
    (State.moving m.state = true → State.moving (handle m ev).1.state = false) ∧
    (m.state = .open → (handle m ev).1.state = .closing) := by
  rcases m with ⟨state,reason,clear⟩
  rcases handle_cases ⟨state,reason,clear⟩ ev with ⟨s,stored,reported,actions,he,hm⟩ | ⟨-,hm⟩ | ⟨-,-,hm⟩
  · rw [hm]
    dsimp only at he ⊢
    cases he with
    | resumeOpen hs | resumeClose hs | timeout hs =>
      rcases hs with rfl | rfl <;> exact ⟨fun h => (by first | rfl | cases h),fun h => (by cases h)⟩
    | _ => exact ⟨fun h => (by first | rfl | cases h),fun h => (by first | rfl | cases h)⟩
  · rw [hm] at h
    cases h
  · rw [hm] at h
    cases h

theorem record_of_calm {s : Controller} {a : Input} (h : Calm s a) (hist : History) :
    (record s a hist).epoch = hist.epoch ∧ (record s a hist).watchdog = hist.watchdog ∧
      (record s a hist).autoclose = hist.autoclose := by
  simp [record, entered_eq_none h.handled h.resolves, h.operation]

theorem record_op {s : Controller} {op : Op} {rest : List Op} (hops : s.ops = op :: rest)
    (h : History) :
    (record s .advance h).epoch = h.epoch ∧
    (record s .advance h).watchdog = (if op = .startWatchdog then h.epoch else h.watchdog) ∧
    (record s .advance h).autoclose = (if op = .startAutoclose then h.epoch else h.autoclose) := by
  simp [record, entered_op hops, operation, hops]

theorem armings_watchdog_op {s : Controller} {h : History} (hs : Armings s h) {op : Op}
    {rest : List Op} (hops : s.ops = op :: rest)
    (harm : (writesWatchdog op).getD s.watchdogArmed = true) :
    ((if op = .startWatchdog then h.epoch else h.watchdog) = h.epoch ∧
      State.moving s.sm.state = true) ∨
    (State.moving s.sm.state = false ∧ .stopWatchdog ∈ rest) := by
  have hstart := hs.startWatchdog
  have hold := hs.watchdog
  rw [hops] at hstart hold
  cases op with
  | startWatchdog => exact Or.inl ⟨rfl,hstart List.mem_cons_self⟩
  | stopWatchdog => cases harm
  | _ =>
    refine (hold harm).imp (fun hk => by simpa using hk) fun hk => ⟨hk.1,?_⟩
    simpa using hk.2

theorem armings_autoclose_op {s : Controller} {h : History} (hs : Armings s h) {op : Op}
    {rest : List Op} (hops : s.ops = op :: rest)
    (harm : (writesAutoclose op).getD s.autocloseArmed = true) :
    ((if op = .startAutoclose then h.epoch else h.autoclose) = h.epoch ∧ s.sm.state = .open) ∨
    (s.sm.state = .closing ∧ .stopAutoclose ∈ rest) := by
  have hstart := hs.startAutoclose
  have hold := hs.autoclose
  rw [hops] at hstart hold
  cases op with
  | startAutoclose => exact Or.inl ⟨rfl,hstart List.mem_cons_self⟩
  | stopAutoclose => cases harm
  | _ =>
    refine (hold harm).imp (fun hk => by simpa using hk) fun hk => ⟨hk.1,?_⟩
    simpa using hk.2

/-- No one-shot is armed while the position is unresolved. -/
theorem Armings.off_of_initializing {s : Controller} {h : History} (hs : Armings s h)
    (hops : s.ops = []) (hi : s.sm.state = .initializing) :
    s.watchdogArmed ≠ true ∧ s.autocloseArmed ≠ true := by
  refine ⟨fun ha => ?_,fun ha => ?_⟩
  · have := (hs.watchdog_of_nil hops ha).2
    rw [hi] at this
    cases this
  · have := (hs.autoclose_of_nil hops ha).2
    rw [hi] at this
    cases this

theorem Move.armings {cfg : Config} {s t : Controller} {a : Input} (hmove : Move cfg s a t)
    (hco : Coherent s) {h : History} (hs : Armings s h) : Armings t (record s a h) := by
  cases hmove with
  | quiet hq =>
    obtain ⟨he,hw,ha⟩ := record_of_calm hq.calm h
    refine ⟨fun harm => ?_,fun harm => ?_,?_,?_⟩
    · rcases hq.watchdog with hkeep | ⟨-,-,hoff⟩
      · rw [he, hw, hq.sm, hq.ops]
        exact hs.watchdog (hkeep ▸ harm)
      · rw [hoff] at harm
        cases harm
    · rcases hq.autoclose with hkeep | ⟨-,-,hoff⟩
      · rw [he, ha, hq.sm, hq.ops]
        exact hs.autoclose (hkeep ▸ harm)
      · rw [hoff] at harm
        cases harm
    · rw [hq.ops, hq.sm]
      exact hs.startWatchdog
    · rw [hq.ops, hq.sm]
      exact hs.startAutoclose
  | op hops =>
    obtain ⟨he,hw,ha⟩ := record_op hops h
    refine ⟨fun harm => ?_,fun harm => ?_,fun hm => ?_,fun hm => ?_⟩
    · rw [he, hw, runOp_sm, runOp_ops]
      exact armings_watchdog_op hs hops (by simpa using harm)
    · rw [he, ha, runOp_sm, runOp_ops]
      exact armings_autoclose_op hs hops (by simpa using harm)
    · rw [runOp_ops] at hm
      rw [runOp_sm]
      exact hs.startWatchdog (by rw [hops]; exact List.mem_cons_of_mem _ hm)
    · rw [runOp_ops] at hm
      rw [runOp_sm]
      exact hs.startAutoclose (by rw [hops]; exact List.mem_cons_of_mem _ hm)
  | prelatch hops hstage hb =>
    have hi := hco.unresolved (by rw [hstage]; rfl)
    obtain ⟨hw,ha⟩ := hs.off_of_initializing hops hi
    refine ⟨fun h => absurd h hw,fun h => absurd h ha,fun hm => ?_,fun hm => ?_⟩
    · rw [hops] at hm
      cases hm
    · rw [hops] at hm
      cases hm
  | resolve hops hnext hstage =>
    have hi : s.sm.state = .initializing :=
      hco.unresolved (by rcases hstage with h | h <;> rw [h] <;> rfl)
    obtain ⟨hw,ha⟩ := hs.off_of_initializing hops hi
    refine ⟨fun h => absurd h hw,fun h => absurd h ha,fun hm => ?_,fun hm => ?_⟩
    · simp only [Controller.resolveBootPosition] at hm ⊢
      rw [← initFrom_newState]
      exact mem_manageTimers_start.1 ((List.mem_append.mp hm).resolve_left (not_mem_execute rfl))
    · simp only [Controller.resolveBootPosition] at hm ⊢
      rw [← initFrom_newState]
      exact mem_manageTimers_start.2 ((List.mem_append.mp hm).resolve_left (not_mem_execute rfl))
  | @receive ev rest hstage hops hqueue =>
    have hen := entered_of_handled (handled_receive hstage hops hqueue)
    have hop : operation s .receive = none := rfl
    refine ⟨fun harm => ?_,fun harm => ?_,fun hm => ?_,fun hm => ?_⟩
    · obtain ⟨hw,hmov⟩ := hs.watchdog_of_nil hops harm
      cases ht : (handle s.sm ev).2.transitioned with
      | false =>
        left
        simp only [record, hen, ht, hop]
        exact ⟨hw,by rw [handle_state_eq ht]; exact hmov⟩
      | true =>
        right
        refine ⟨(handle_leaves ht).1 hmov,?_⟩
        simp only [pumpProgram, List.mem_append]
        exact Or.inl (Or.inl (Or.inr (mem_manageTimers_stop ht).1))
    · obtain ⟨hw,hopen⟩ := hs.autoclose_of_nil hops harm
      cases ht : (handle s.sm ev).2.transitioned with
      | false =>
        left
        simp only [record, hen, ht, hop]
        exact ⟨hw,by rw [handle_state_eq ht]; exact hopen⟩
      | true =>
        right
        refine ⟨(handle_leaves ht).2 hopen,?_⟩
        simp only [pumpProgram, List.mem_append]
        exact Or.inl (Or.inl (Or.inr (mem_manageTimers_stop ht).2))
    · rw [← handle_newState]
      exact mem_pumpProgram_start.1 hm
    · rw [← handle_newState]
      exact mem_pumpProgram_start.2 hm

/-! ### Queued timer events belong to the present epoch -/

/-- States in which a close command starts a motion. -/
def State.closable : State → Bool
  | .open | .stoppedOpen | .stoppedClose => true
  | _ => false

/-- A transition into a motion finds no motor timeout in the rest of the queue, and one
into a state that can close finds no close command posted by the dwell timer. -/
def Drained (p : Controller × History) (a : Input) : Prop :=
  ∀ st ∈ entered p.1 a,
    (State.moving st = true → ∀ x ∈ left p.1 a p.2.shadow, x.1 ≠ .motorTimeout) ∧
    (State.closable st = true → ∀ x ∈ left p.1 a p.2.shadow, x.1 = .commandClose → x.2 = none)

instance (p : Controller × History) (a : Input) : Decidable (Drained p a) :=
  inferInstanceAs (Decidable (∀ st ∈ entered p.1 a, _))

structure Stamped (s : Controller) (h : History) : Prop where
  shadow : h.shadow.map Prod.fst = s.queue
  timeout : State.moving s.sm.state = true →
    ∀ x ∈ h.shadow, x.1 = .motorTimeout → x.2 = some h.epoch
  dwell : State.closable s.sm.state = true →
    ∀ x ∈ h.shadow, x.1 = .commandClose → x.2 = none ∨ (x.2 = some h.epoch ∧ s.sm.state = .open)

/-- Only the watchdog posts a motor timeout. -/
theorem source_motorTimeout {s : Controller} {a : Input} {ev : Event} (hp : PostsFit s.ops)
    (h : Source s a ev) (hev : ev = .motorTimeout) :
    a = .watchdogFires ∧ s.watchdogArmed = true := by
  cases h with
  | policy hops => cases (hp _ (by rw [hops]; exact List.mem_cons_self) _ rfl).symm.trans hev
  | @limitOpen level v _ _ => cases v <;> cases hev
  | @limitClosed level v _ _ => cases v <;> cases hev
  | @beam level v _ _ => cases v <;> cases hev
  | watchdog harm => exact ⟨rfl,harm⟩
  | autoclose => cases hev
  | command c => cases c <;> cases hev

/-- A close command comes from the dwell timer or from a task that asks for it. -/
theorem source_commandClose {s : Controller} {a : Input} {ev : Event} (hp : PostsFit s.ops)
    (h : Source s a ev) (hev : ev = .commandClose) (hist : History) :
    (a = .autocloseFires ∧ s.autocloseArmed = true) ∨ hist.stamp a = none := by
  cases h with
  | policy hops => cases (hp _ (by rw [hops]; exact List.mem_cons_self) _ rfl).symm.trans hev
  | @limitOpen level v _ _ => cases v <;> cases hev
  | @limitClosed level v _ _ => cases v <;> cases hev
  | @beam level v _ _ => cases v <;> cases hev
  | watchdog harm => cases hev
  | autoclose harm => exact Or.inl ⟨rfl,harm⟩
  | command c => exact Or.inr rfl

theorem mem_record_shadow {s : Controller} {a : Input} {h : History} {x : Event × Option ℕ}
    (hx : x ∈ (record s a h).shadow) :
    x ∈ left s a h.shadow ∨ (Source s a x.1 ∧ x.2 = h.stamp a) := by
  rcases List.mem_append.mp hx with hx | hx
  · exact Or.inl hx
  · obtain ⟨ev,hev,rfl⟩ := List.mem_map.mp hx
    exact Or.inr ⟨posted_source (accepted_eq_some (Option.mem_toList.mp hev)),rfl⟩

theorem step_stamped (cfg : Config) {s : Controller} {a : Input} {h : History} (hs : Sound s)
    (harm : Armings s h) (hdrain : Drained (s,h) a) (hst : Stamped s h) :
    Stamped (step cfg s a) (record s a h) := by
  have hmove := step_move cfg s a
  have hshadow : (record s a h).shadow.map Prod.fst = (step cfg s a).queue := by
    simp only [record, List.map_append, map_left, hst.shadow, hmove.queue, List.map_map]
    congr 1
    exact List.map_id _
  rcases hmove.state_of_entered hs.coherent with ⟨hen,hsame⟩ | ⟨hen,hacc⟩
  · -- no transition: old stamps stay right, and a new one is that of an armed one-shot
    have hepoch : (record s a h).epoch = h.epoch := by simp [record, hen]
    refine ⟨hshadow,fun hmov x hx hev => ?_,fun hcl x hx hev => ?_⟩
    · rw [hsame] at hmov
      rw [hepoch]
      rcases mem_record_shadow hx with hx | ⟨hsrc,hstamp⟩
      · exact hst.timeout hmov x (left_subset _ _ _ hx) hev
      · obtain ⟨rfl,hw⟩ := source_motorTimeout hs.posts hsrc hev
        rcases harm.watchdog hw with ⟨he,-⟩ | ⟨hno,-⟩
        · rw [hstamp, ← he]
          rfl
        · rw [hmov] at hno
          cases hno
    · rw [hsame] at hcl
      rw [hepoch, hsame]
      rcases mem_record_shadow hx with hx | ⟨hsrc,hstamp⟩
      · exact hst.dwell hcl x (left_subset _ _ _ hx) hev
      · rcases source_commandClose hs.posts hsrc hev h with ⟨rfl,ha⟩ | hnone
        · rcases harm.autoclose ha with ⟨he,hopen⟩ | ⟨hclosing,-⟩
          · exact Or.inr ⟨by rw [hstamp, ← he]; rfl,hopen⟩
          · rw [hclosing] at hcl
            cases hcl
        · exact Or.inl (hstamp.trans hnone)
  · -- a transition posts nothing, and finds the rest of the queue drained
    have hdrain := hdrain _ hen
    have hleft : (record s a h).shadow = left s a h.shadow := by simp [record, hacc]
    refine ⟨hshadow,fun hmov x hx hev => ?_,fun hcl x hx hev => Or.inl ?_⟩
    · rw [hleft] at hx
      exact absurd hev (hdrain.1 hmov x hx)
    · rw [hleft] at hx
      exact hdrain.2 hcl x hx hev

structure TimersFit (p : Controller × History) : Prop where
  sound : Sound p.1
  armings : Armings p.1 p.2
  stamped : Stamped p.1 p.2

theorem construct_timersFit (lo lc bm : Bool) : TimersFit (construct lo lc bm,{}) where
  sound := construct_sound lo lc bm
  armings := ⟨fun h => (by cases h),fun h => (by cases h),fun h => (by cases h),fun h => (by cases h)⟩
  stamped := ⟨rfl,fun h => (by cases h),fun h => (by cases h)⟩

theorem run_timersFit (cfg : Config) (lo lc bm : Bool) {as : List Input}
    (h : AllSteps (observe (step cfg) record) Drained (construct lo lc bm,{}) as) :
    TimersFit (exec (observe (step cfg) record) (construct lo lc bm,{}) as) := by
  refine exec_invariant_of ?_ h (construct_timersFit lo lc bm)
  rintro ⟨s,h⟩ a hdrain ⟨hs,ha,hst⟩
  exact ⟨step_sound cfg s a hs,(step_move cfg s a).armings hs.coherent ha,
    step_stamped cfg hs ha hdrain hst⟩

/-- A transition of the pump comes from the head of the queue. -/
theorem entered_receive {s : Controller} {st : State} (h : entered s .receive = some st) :
    ∃ ev rest, s.queue = ev :: rest ∧ (handle s.sm ev).2.transitioned = true ∧
      (handle s.sm ev).1.state = st := by
  cases hh : handled s .receive with
  | none =>
    rw [entered_eq_none hh rfl] at h
    cases h
  | some ev =>
    obtain ⟨-,-,rest,hqueue⟩ := of_handled_receive hh
    rw [entered_of_handled hh] at h
    split at h
    · exact ⟨ev,rest,hqueue,‹_›,Option.some.inj h⟩
    · cases h

theorem handle_commandClose_closable {m : Machine}
    (h : (handle m .commandClose).2.transitioned = true) : State.closable m.state = true := by
  rcases m with ⟨state,reason,clear⟩
  cases state <;> first | rfl | cases h

theorem handle_motorTimeout_moving {m : Machine} (h : (handle m .motorTimeout).2.transitioned = true) :
    State.moving m.state = true := by
  rcases m with ⟨state,reason,clear⟩
  cases state <;> first | rfl | cases h

/-- In every run whose transitions find the queue drained of timer events of an earlier
motion or dwell: a motor timeout that faults the gate carries the epoch of the present
motion, and a close command of the dwell timer that starts a closing carries the epoch
of the present dwell. -/
theorem timer_events_act_for_their_arming (cfg : Config) (lo lc bm : Bool) (as : List Input)
    (h : AllSteps (observe (step cfg) record) Drained (construct lo lc bm,{}) as) :
    let p := exec (observe (step cfg) record) (construct lo lc bm,{}) as
    p.2.shadow.map Prod.fst = p.1.queue ∧
    (handled p.1 .receive = some .motorTimeout → entered p.1 .receive = some .faulted →
      p.2.shadow.head? = some (.motorTimeout,some p.2.epoch)) ∧
    (∀ e, p.2.shadow.head? = some (.commandClose,some e) →
      entered p.1 .receive = some .closing → e = p.2.epoch ∧ p.1.sm.state = .open) := by
  intro p
  have hp : TimersFit p := run_timersFit cfg lo lc bm h
  refine ⟨hp.stamped.shadow,fun hev hen => ?_,fun e hhead hen => ?_⟩
  · obtain ⟨ev,rest,hqueue,ht,-⟩ := entered_receive hen
    obtain ⟨-,-,rest',hqueue'⟩ := of_handled_receive hev
    rw [hqueue] at hqueue'
    cases hqueue'
    have hshadow := hp.stamped.shadow
    rw [hqueue] at hshadow
    obtain ⟨x,xs,hx,hev,-⟩ := List.map_eq_cons_iff.mp hshadow
    have hstamp := hp.stamped.timeout (handle_motorTimeout_moving ht) x
      (by rw [hx]; exact List.mem_cons_self) hev
    rw [hx, List.head?_cons, ← hev, ← hstamp]
  · obtain ⟨ev,rest,hqueue,ht,-⟩ := entered_receive hen
    have hmem : (Event.commandClose,some e) ∈ p.2.shadow := List.mem_of_mem_head? hhead
    have hshadow := congrArg List.head? hp.stamped.shadow
    rw [List.head?_map, hhead, hqueue] at hshadow
    cases hshadow
    rcases hp.stamped.dwell (handle_commandClose_closable ht) _ hmem rfl with hno | ⟨he,hopen⟩
    · cases hno
    · exact ⟨Option.some.inj he,hopen⟩

/-- The watchdog fires in the motion it was armed for. -/
def timeoutWhileOpening : List Input := boot ++ .command .open :: pumpOnce ++ [.watchdogFires]

theorem timeout_faults_its_own_motion :
    let p := exec (observe (step {}) record) (construct true false false,{}) timeoutWhileOpening
    handled p.1 .receive = some .motorTimeout ∧ entered p.1 .receive = some .faulted ∧
      p.2.shadow.head? = some (.motorTimeout,some p.2.epoch) :=
  ⟨by decide +kernel,by decide +kernel,
    (timer_events_act_for_their_arming {} true false false timeoutWhileOpening
      (by decide +kernel)).2.1 (by decide +kernel) (by decide +kernel)⟩

/-- The watchdog of the opening fires behind the open limit and a close command. -/
def timeoutOvertaken : List Input :=
  boot ++ .command .open :: pumpOnce ++ List.replicate 5 (.pollLimitOpen false) ++
    [.command .close, .watchdogFires] ++ pumpOnce ++ pumpOnce

/-- The dwell timer fires behind a close and a stop command. -/
def dwellOvertaken : List Input :=
  boot ++ [.command .close, .command .stop, .autocloseFires] ++ pumpOnce ++ pumpOnce

/-- A timeout of the opening faults the closing, and a close of a past dwell moves a gate
that an operator has stopped. -/
theorem stale_timer_events_act :
    let p := exec (observe (step {}) record) (construct true false false,{}) timeoutOvertaken
    let q := exec (observe (step { sm := { autoCloseMs := 5000 } }) record)
      (construct false true false,{}) dwellOvertaken
    (p.1.sm.state = .closing ∧ handled p.1 .receive = some .motorTimeout ∧
      entered p.1 .receive = some .faulted ∧ p.2.epoch = 4 ∧
      p.2.shadow.head? = some (.motorTimeout,some 2)) ∧
    (q.1.sm.state = .stoppedClose ∧ entered q.1 .receive = some .closing ∧ q.2.epoch = 3 ∧
      q.2.shadow.head? = some (.commandClose,some 1)) := by
  decide +kernel

end AlprGate.Control
