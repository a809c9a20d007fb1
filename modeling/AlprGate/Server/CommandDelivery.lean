import Mathlib.Data.List.Nodup
import AlprGate.Server.SessionSteps

/-! # A session sees every event at most once

The ids a session has written, holds and has queued form one list. It loses elements,
and it gains one when a publisher serves the session or when the session registers. A
publisher's snapshot lists a session once, and only sessions whose replay took place
before the id was assigned. So the list never repeats an id.
-/
namespace AlprGate.Dash.Server
open Transition

def Active (s : Server) (σ : ℕ) : Prop := (s.session σ).stage.active = true
def Early (s : Server) (σ : ℕ) : Prop := (s.session σ).stage.early = true
def Closed (s : Server) (σ : ℕ) : Prop := (s.bus.sub σ).closed = true

theorem early_of_stage {s : Server} {σ : ℕ} {stage : Stage} (h : (s.session σ).stage = stage)
    (hearly : stage.early = true) : Early s σ := by
  rw [Early, h]
  exact hearly

/-- A publish call has or will have the session's subscription in its snapshot. -/
def Target (s : Server) (σ : ℕ) : Prop :=
  σ ∈ s.bus.subs ∨ ∃ th env ts, s.publisher th = .serving env ts ∧ σ ∈ ts

section Moves
variable {s t : Server} {a : Input} {τ : ℕ}

theorem Steady.target (h : Steady s t) (ht : Target t τ) : Target s τ := by
  rcases ht with ht | ⟨th,env,ts,hserving,ht⟩
  · exact Or.inl (h.subs.subset ht)
  · exact Or.inr ⟨th,env,ts,h.serving th env ts hserving,ht⟩

theorem enter_session_cases (s : Server) (σ τ : ℕ) (gateId : String) :
    (τ = σ ∧ (s.enter σ gateId).session τ =
      { s.session τ with stage := .announcing, gateId := gateId }) ∨
    (τ ≠ σ ∧ (s.enter σ gateId).session τ = s.session τ) := by
  by_cases h : τ = σ
  · subst h
    exact Or.inl ⟨rfl,setSession_self ..⟩
  · exact Or.inr ⟨h,setSession_other h⟩

/-- Nothing returns to the stages before registration. -/
theorem Move.early (hmove : Move s a t) (h : Early t τ) : Early s τ := by
  cases hmove with
  | steady hsteady => exact (hsteady.fades τ).early h
  | @enter σ gateId _ hstage hsteady =>
    have hentered := (hsteady.fades τ).early h
    rcases enter_session_cases s σ τ gateId with ⟨rfl,hx⟩ | ⟨_,hx⟩
    · rw [Early, hstage]
      rfl
    · rwa [hx] at hentered
  | assign => exact h
  | deliver => exact h
  | @register σ hstage =>
    by_cases hτ : τ = σ
    · subst hτ
      rw [Early, setSession_self] at h
      exact absurd h Bool.false_ne_true
    · rwa [Early, setSession_other hτ] at h
  | @write σ e hholding =>
    by_cases hτ : τ = σ
    · subst hτ
      rwa [Early, setSession_self] at h
    · rwa [Early, setSession_other hτ] at h

/-- Sessions become targets by registering. -/
theorem Move.target (hmove : Move s a t) (h : Target t τ) :
    Target s τ ∨ (a = .register τ ∧ (t.session τ).stage = .streaming) := by
  cases hmove with
  | steady hsteady => exact Or.inl (hsteady.target h)
  | enter hstage hsteady => exact Or.inl (hsteady.target h)
  | @assign th siteId gateId payload =>
    have hlive : s.bus.live ⊆ s.bus.subs := List.filter_subset_self _
    rcases h with h | ⟨th',env,ts,hserving,h⟩
    · exact Or.inl (Or.inl (hlive h))
    · by_cases hth : th' = th
      · subst hth
        rw [setPublisher_self] at hserving
        cases hserving
        exact Or.inl (Or.inl (hlive h))
      · rw [setPublisher_other hth] at hserving
        exact Or.inl (Or.inr ⟨th',env,ts,hserving,h⟩)
  | @deliver th env i rest hdeliver =>
    rcases h with h | ⟨th',env',ts,hserving,h⟩
    · exact Or.inl (Or.inl h)
    · by_cases hth : th' = th
      · subst hth
        rw [setPublisher_self] at hserving
        cases hserving
        exact Or.inl (Or.inr ⟨th',env,_,hdeliver,List.mem_cons_of_mem i h⟩)
      · rw [setPublisher_other hth] at hserving
        exact Or.inl (Or.inr ⟨th',env',ts,hserving,h⟩)
  | @register σ hstage =>
    rcases h with h | h
    · rcases List.mem_append.mp h with h | h
      · exact Or.inl (Or.inl h)
      · obtain rfl := List.mem_singleton.mp h
        exact Or.inr ⟨rfl,by rw [setSession_self]⟩
    · exact Or.inl (Or.inr h)
  | write => exact Or.inl h

/-- Writers start at registration. -/
theorem Move.writer (hmove : Move s a t) (h : (t.session τ).writer ≠ .stopped) :
    (s.session τ).writer ≠ .stopped ∨ (t.session τ).stage = .streaming := by
  cases hmove with
  | steady hsteady => exact Or.inl ((hsteady.fades τ).writer h).1
  | @enter σ gateId _ hstage hsteady =>
    have hentered := ((hsteady.fades τ).writer h).1
    rcases enter_session_cases s σ τ gateId with ⟨_,hx⟩ | ⟨_,hx⟩
    · rw [hx] at hentered
      exact Or.inl hentered
    · rw [hx] at hentered
      exact Or.inl hentered
  | assign => exact Or.inl h
  | deliver => exact Or.inl h
  | @register σ hstage =>
    by_cases hτ : τ = σ
    · subst hτ
      exact Or.inr (by rw [setSession_self])
    · rw [setSession_other hτ] at h
      exact Or.inl h
  | @write σ e hholding =>
    by_cases hτ : τ = σ
    · subst hτ
      exact Or.inl (by rw [hholding]; exact Writer.noConfusion)
    · rw [setSession_other hτ] at h
      exact Or.inl h

/-- A session past registration ends only with its subscription closed and its writer
stopped. -/
theorem Move.active (hmove : Move s a t) (hearly : ¬ Early s τ) (hactive : Active s τ) :
    (Active t τ ∨ Closed t τ) ∧ ((t.session τ).writer ≠ .stopped → Active t τ) := by
  have hearly' : (s.session τ).stage.early = false := Bool.eq_false_iff.mpr hearly
  have hstay : Active t τ → (Active t τ ∨ Closed t τ) ∧
      ((t.session τ).writer ≠ .stopped → Active t τ) := fun h => ⟨Or.inl h,fun _ => h⟩
  cases hmove with
  | steady hsteady =>
    exact ⟨(hsteady.fades τ).late hearly' hactive,
      fun h => ((hsteady.fades τ).writer h).2 hearly' hactive⟩
  | @enter σ gateId _ hstage hsteady =>
    have hx : (s.enter σ gateId).session τ = s.session τ := by
      rcases enter_session_cases s σ τ gateId with ⟨rfl,_⟩ | ⟨_,hx⟩
      · rw [hstage] at hearly'
        cases hearly'
      · exact hx
    have hfades := hsteady.fades τ
    rw [hx] at hfades
    exact ⟨hfades.late hearly' hactive,fun h => (hfades.writer h).2 hearly' hactive⟩
  | assign => exact hstay hactive
  | deliver => exact hstay hactive
  | @register σ hstage =>
    apply hstay
    by_cases hτ : τ = σ
    · subst hτ
      rw [Active, setSession_self]
      rfl
    · rwa [Active, setSession_other hτ]
  | @write σ e hholding =>
    apply hstay
    by_cases hτ : τ = σ
    · subst hτ
      rwa [Active, setSession_self]
    · rwa [Active, setSession_other hτ]

/-- Closing is final for a registered subscription. -/
theorem Move.closed (hmove : Move s a t) (hearly : ¬ Early s τ) (h : Closed s τ) :
    Closed t τ := by
  cases hmove with
  | steady hsteady => exact (hsteady.fades τ).closed h
  | enter hstage hsteady => exact (hsteady.fades τ).closed h
  | assign => exact h
  | @deliver th env i rest hdeliver =>
    by_cases hτ : τ = i
    · subst hτ
      simp only [Closed, setPublisher, Bus.deliver, Function.update_self, offer_closed h]
      exact h
    · simpa only [Closed, setPublisher, Bus.deliver, Function.update_of_ne hτ] using h
  | @register σ hstage =>
    have hτ : τ ≠ σ := by
      rintro rfl
      rw [Early, hstage] at hearly
      exact hearly rfl
    simpa only [Closed, setSession, Bus.subscribe, Function.update_of_ne hτ] using h
  | write => exact h

theorem Move.opened (hmove : Move s a t) : s.opened ⊆ t.opened := by
  cases hmove with
  | steady hsteady => exact hsteady.opened
  | enter hstage hsteady =>
    exact List.Subset.trans (List.subset_append_left _ _) hsteady.opened
  | assign => exact List.Subset.refl _
  | deliver => exact List.Subset.refl _
  | register => exact List.Subset.refl _
  | write => exact List.Subset.refl _

theorem Move.entered (hmove : Move s a t) (h : (t.session τ).stage ≠ .unopened) :
    (s.session τ).stage ≠ .unopened ∨ τ ∈ t.opened := by
  cases hmove with
  | steady hsteady => exact hsteady.entered τ h
  | @enter σ gateId _ hstage hsteady =>
    rcases hsteady.entered τ h with h | h
    · rcases enter_session_cases s σ τ gateId with ⟨rfl,_⟩ | ⟨_,hx⟩
      · exact Or.inr (hsteady.opened (List.mem_append_right _ List.mem_cons_self))
      · rw [hx] at h
        exact Or.inl h
    · exact Or.inr h
  | assign => exact Or.inl h
  | deliver => exact Or.inl h
  | @register σ hstage =>
    by_cases hτ : τ = σ
    · subst hτ
      exact Or.inl (by rw [hstage]; exact Stage.noConfusion)
    · rw [setSession_other hτ] at h
      exact Or.inl h
  | @write σ e hholding =>
    by_cases hτ : τ = σ
    · subst hτ
      rw [setSession_self] at h
      exact Or.inl h
    · rw [setSession_other hτ] at h
      exact Or.inl h

end Moves

/-- Who is served: registered sessions, each once per snapshot. -/
structure Enrolled (s : Server) : Prop where
  freshTarget : ∀ σ, Early s σ → ¬ Target s σ
  freshWriter : ∀ σ, Early s σ → (s.session σ).writer = .stopped
  known : ∀ σ, (s.session σ).stage ≠ .unopened → σ ∈ s.opened
  running : ∀ σ, (s.session σ).writer ≠ .stopped → Active s σ
  attached : ∀ σ, Target s σ → Active s σ ∨ Closed s σ
  subs : s.bus.subs.Nodup
  targets : ∀ th env ts, s.publisher th = .serving env ts → ts.Nodup

theorem Enrolled.late {s : Server} (h : Enrolled s) {σ : ℕ}
    (hw : (s.session σ).writer ≠ .stopped) : ¬ Early s σ := fun he => hw (h.freshWriter σ he)

theorem Move.subs_nodup {s t : Server} {a : Input} (hmove : Move s a t) (h : Enrolled s) :
    t.bus.subs.Nodup := by
  cases hmove with
  | steady hsteady => exact hsteady.subs.nodup h.subs
  | enter hstage hsteady => exact hsteady.subs.nodup h.subs
  | assign => exact h.subs.filter _
  | deliver => exact h.subs
  | @register σ hstage =>
    have hearly : Early s σ := early_of_stage hstage rfl
    have hσ : σ ∉ s.bus.subs := fun hmem => h.freshTarget σ hearly (Or.inl hmem)
    exact List.nodup_append_comm.mp (List.nodup_cons.mpr ⟨hσ,h.subs⟩)
  | write => exact h.subs

theorem Move.targets_nodup {s t : Server} {a : Input} (hmove : Move s a t) (h : Enrolled s)
    {th : Thread} {env : EventEnvelope} {ts : List ℕ}
    (hserving : t.publisher th = .serving env ts) : ts.Nodup := by
  cases hmove with
  | steady hsteady => exact h.targets th env ts (hsteady.serving th env ts hserving)
  | enter hstage hsteady => exact h.targets th env ts (hsteady.serving th env ts hserving)
  | @assign th' siteId gateId payload =>
    by_cases hth : th = th'
    · subst hth
      rw [setPublisher_self] at hserving
      cases hserving
      exact h.subs.filter _
    · rw [setPublisher_other hth] at hserving
      exact h.targets th env ts hserving
  | @deliver th' env' i rest hdeliver =>
    by_cases hth : th = th'
    · subst hth
      rw [setPublisher_self] at hserving
      cases hserving
      exact (List.nodup_cons.mp (h.targets th env _ hdeliver)).2
    · rw [setPublisher_other hth] at hserving
      exact h.targets th env ts hserving
  | register => exact h.targets th env ts hserving
  | write => exact h.targets th env ts hserving

theorem step_enrolled (s : Server) (a : Input) (h : Enrolled s) : Enrolled (s.step a) := by
  have hmove := step_move s a
  refine ⟨?_,?_,?_,?_,?_,hmove.subs_nodup h,fun _ _ _ => hmove.targets_nodup h⟩
  · intro σ hearly htarget
    rcases hmove.target htarget with ht | ⟨_,hstage⟩
    · exact h.freshTarget σ (hmove.early hearly) ht
    · rw [Early, hstage] at hearly
      exact Bool.false_ne_true hearly
  · intro σ hearly
    by_contra hw
    rcases hmove.writer hw with hw | hstage
    · exact h.late hw (hmove.early hearly)
    · rw [Early, hstage] at hearly
      exact Bool.false_ne_true hearly
  · intro σ hstage
    rcases hmove.entered hstage with hs | ht
    · exact hmove.opened (h.known σ hs)
    · exact ht
  · intro σ hw
    rcases hmove.writer hw with hs | hstage
    · exact (hmove.active (h.late hs) (h.running σ hs)).2 hw
    · rw [Active, hstage]
      rfl
  · intro σ htarget
    rcases hmove.target htarget with ht | ⟨_,hstage⟩
    · have hlate : ¬ Early s σ := fun hearly => h.freshTarget σ hearly ht
      rcases h.attached σ ht with hactive | hclosed
      · exact (hmove.active hlate hactive).1
      · exact Or.inr (hmove.closed hlate hclosed)
    · exact Or.inl (by rw [Active, hstage]; rfl)

def writtenIds (s : Server) (σ : ℕ) : List ℕ := (s.session σ).written.map DashboardEvent.eventId

/-- What the writer holds and what is queued behind it. -/
def pendingIds (s : Server) (σ : ℕ) : List ℕ :=
  ((s.session σ).writer.held ++ (s.bus.sub σ).queue).map DashboardEvent.eventId

def seenIds (s : Server) (σ : ℕ) : List ℕ := s.writtenIds σ ++ s.pendingIds σ

section Ids
variable {s t : Server} {a : Input} {τ : ℕ}

theorem seenIds_congr (hx : t.session τ = s.session τ) (hp : t.bus.sub τ = s.bus.sub τ) :
    t.seenIds τ = s.seenIds τ := by
  simp only [seenIds, writtenIds, pendingIds, hx, hp]

theorem seenIds_frame (hx : t.session τ = s.session τ) (hp : t.bus.sub τ = s.bus.sub τ) :
    (t.seenIds τ).Sublist (s.seenIds τ) := by
  rw [seenIds_congr hx hp]

theorem Steady.written (h : Steady s t) : t.writtenIds τ = s.writtenIds τ := by
  rw [writtenIds, (h.fades τ).written, writtenIds]

theorem Steady.seen (h : Steady s t) : (t.seenIds τ).Sublist (s.seenIds τ) := by
  have hpending := ((h.fades τ).pending).map DashboardEvent.eventId
  rw [seenIds, h.written]
  exact hpending.append_left _

theorem enter_written (s : Server) (σ τ : ℕ) (gateId : String) :
    (s.enter σ gateId).writtenIds τ = s.writtenIds τ := by
  rcases enter_session_cases s σ τ gateId with ⟨_,hx⟩ | ⟨_,hx⟩
  · rw [writtenIds, hx, writtenIds]
  · rw [writtenIds, hx, writtenIds]

theorem enter_seen (s : Server) (σ τ : ℕ) (gateId : String) :
    (s.enter σ gateId).seenIds τ = s.seenIds τ := by
  have hheld : ((s.enter σ gateId).session τ).writer = (s.session τ).writer := by
    rcases enter_session_cases s σ τ gateId with ⟨_,hx⟩ | ⟨_,hx⟩
    · rw [hx]
    · rw [hx]
  rw [seenIds, enter_written, pendingIds, hheld]
  rfl

/-- Writing moves the held id to the end of what is written. -/
theorem write_seen {σ : ℕ} {e : DashboardEvent} (hholding : (s.session σ).writer = .holding e) :
    (s.setSession σ { s.session σ with
      written := (s.session σ).written ++ [e], writer := .top }).seenIds τ = s.seenIds τ := by
  by_cases hτ : τ = σ
  · subst hτ
    simp [seenIds, writtenIds, pendingIds, setSession, hholding, Writer.held]
  · exact seenIds_congr (setSession_other hτ) rfl

/-- A session sees a new id when a publisher serves it or when it registers. -/
theorem Move.seen (hmove : Move s a t) (τ : ℕ) :
    (t.seenIds τ).Sublist (s.seenIds τ) ∨
    (∃ th env rest, a = .serve th ∧ s.publisher th = .serving env (τ :: rest) ∧
      t.publisher th = .serving env rest ∧ ¬ Closed s τ ∧
      (t.seenIds τ).Sublist (s.seenIds τ ++ [env.event.eventId])) ∨
    (a = .register τ ∧ (s.session τ).stage = .registering ∧
      (t.session τ).stage = .streaming ∧
      (t.seenIds τ).Sublist (s.writtenIds τ ++ s.bus.ringIds)) := by
  cases hmove with
  | steady hsteady => exact Or.inl hsteady.seen
  | @enter σ gateId _ hstage hsteady =>
    have hseen := hsteady.seen (τ:=τ)
    rw [enter_seen] at hseen
    exact Or.inl hseen
  | assign => exact Or.inl (List.Sublist.refl _)
  | @deliver th env i rest hdeliver =>
    by_cases hτ : τ = i
    · subst hτ
      by_cases hclosed : Closed s τ
      · have hsame : (s.bus.deliver env τ).sub τ = s.bus.sub τ := by
          simp only [Bus.deliver, Function.update_self, offer_closed hclosed]
        exact Or.inl (seenIds_frame rfl hsame)
      · refine Or.inr (Or.inl ⟨th,env,rest,rfl,hdeliver,setPublisher_self ..,hclosed,?_⟩)
        have hqueue := queued_deliver s.bus env τ
        have hpending := hqueue.append_left
          ((s.session τ).writer.held.map DashboardEvent.eventId)
        simp only [seenIds, pendingIds, List.map_append, List.append_assoc]
        exact List.Sublist.append_left hpending _
    · have hsame : (s.bus.deliver env i).sub τ = s.bus.sub τ := Function.update_of_ne hτ ..
      exact Or.inl (seenIds_frame rfl hsame)
  | @register σ hstage =>
    by_cases hτ : τ = σ
    · subst hτ
      refine Or.inr (Or.inr ⟨rfl,hstage,by rw [setSession_self],?_⟩)
      have hqueue := queued_subscribe s.bus τ (controlFilter (s.session τ).gateId)
      simp only [seenIds, writtenIds, pendingIds, setSession_self, Writer.held, List.nil_append]
      exact hqueue.append_left _
    · have hsame : (s.bus.subscribe σ (controlFilter (s.session σ).gateId)).sub τ = s.bus.sub τ :=
        Function.update_of_ne hτ ..
      exact Or.inl (seenIds_frame (setSession_other hτ) hsame)
  | write hholding =>
    rw [write_seen hholding]
    exact Or.inl (List.Sublist.refl _)

theorem Move.nextEventId (hmove : Move s a t) : s.bus.nextEventId ≤ t.bus.nextEventId := by
  cases hmove with
  | steady hsteady => exact Nat.le_of_eq hsteady.nextEventId.symm
  | enter hstage hsteady => exact Nat.le_of_eq hsteady.nextEventId.symm
  | assign => exact Nat.le_succ _
  | deliver => exact Nat.le_refl _
  | register => exact Nat.le_refl _
  | write => exact Nat.le_refl _

/-- A publisher serves what it served before, one target less, or what it has just
numbered. -/
theorem Move.serving (hmove : Move s a t) {th : Thread} {env : EventEnvelope} {ts : List ℕ}
    (h : t.publisher th = .serving env ts) :
    s.publisher th = .serving env ts ∨
    (∃ i, a = .serve th ∧ s.publisher th = .serving env (i :: ts)) ∨
    (a = .assign th ∧ env.event.eventId = s.bus.nextEventId ∧
      t.bus.nextEventId = s.bus.nextEventId + 1) := by
  cases hmove with
  | steady hsteady => exact Or.inl (hsteady.serving th env ts h)
  | enter hstage hsteady => exact Or.inl (hsteady.serving th env ts h)
  | @assign th' siteId gateId payload =>
    by_cases hth : th = th'
    · subst hth
      rw [setPublisher_self] at h
      cases h
      exact Or.inr (Or.inr ⟨rfl,rfl,rfl⟩)
    · rw [setPublisher_other hth] at h
      exact Or.inl h
  | @deliver th' env' i rest hdeliver =>
    by_cases hth : th = th'
    · subst hth
      rw [setPublisher_self] at h
      cases h
      exact Or.inr (Or.inl ⟨i,rfl,hdeliver⟩)
    · rw [setPublisher_other hth] at h
      exact Or.inl h
  | register => exact Or.inl h
  | write => exact Or.inl h

/-- The ring loses its oldest ids and gains the next one. -/
theorem Move.ringIds (hmove : Move s a t) :
    t.bus.ringIds = s.bus.ringIds ∨
    (t.bus.ringIds.Sublist (s.bus.ringIds ++ [s.bus.nextEventId]) ∧
      t.bus.nextEventId = s.bus.nextEventId + 1) := by
  cases hmove with
  | steady hsteady => exact Or.inl (by rw [Bus.ringIds, hsteady.ring, Bus.ringIds])
  | enter hstage hsteady =>
    exact Or.inl (by rw [Bus.ringIds, hsteady.ring, Bus.ringIds]; rfl)
  | @assign th siteId gateId payload =>
    refine Or.inr ⟨?_,rfl⟩
    have hring : (if s.bus.ring.length = s.bus.ringCapacity then s.bus.ring.tail
        else s.bus.ring).Sublist s.bus.ring := by
      split
      · exact List.tail_sublist _
      · exact List.Sublist.refl _
    have hids := (hring.append_right [s.bus.envelope siteId gateId payload]).map
      fun env => env.event.eventId
    have hsplit : (s.bus.ring ++ [s.bus.envelope siteId gateId payload]).map
        (fun env => env.event.eventId) = s.bus.ringIds ++ [s.bus.nextEventId] := List.map_append
    rwa [hsplit] at hids
  | deliver => exact Or.inl rfl
  | register => exact Or.inl rfl
  | write => exact Or.inl rfl

end Ids

/-- Ids are assigned once and reach a session at most once. -/
structure Unrepeated (s : Server) : Prop where
  ringLt : ∀ id ∈ s.bus.ringIds, id < s.bus.nextEventId
  ringNodup : s.bus.ringIds.Nodup
  seenLt : ∀ σ, ∀ id ∈ s.seenIds σ, id < s.bus.nextEventId
  seenNodup : ∀ σ, (s.seenIds σ).Nodup
  freshSeen : ∀ σ, Early s σ → s.seenIds σ = []
  servingLt : ∀ th env ts, s.publisher th = .serving env ts →
    env.event.eventId < s.bus.nextEventId
  servingNe : ∀ th env ts th' env' ts', s.publisher th = .serving env ts →
    s.publisher th' = .serving env' ts' → env.event.eventId = env'.event.eventId → th = th'
  unserved : ∀ th env ts, s.publisher th = .serving env ts → ∀ τ ∈ ts,
    env.event.eventId ∉ s.seenIds τ

section Preservation
variable {s t : Server} {a : Input}

/-- A session that registers has seen nothing, so it sees ids of the ring only. -/
theorem Unrepeated.registered (h : Unrepeated s) {τ : ℕ}
    (hstage : (s.session τ).stage = .registering) {ids : List ℕ}
    (hids : ids.Sublist (s.writtenIds τ ++ s.bus.ringIds)) : ids.Sublist s.bus.ringIds := by
  have hearly : Early s τ := early_of_stage hstage rfl
  have hwritten : s.writtenIds τ = [] := (List.append_eq_nil_iff.mp (h.freshSeen τ hearly)).1
  rwa [hwritten, List.nil_append] at hids

theorem Move.ring_unrepeated (hmove : Move s a t) (h : Unrepeated s) :
    (∀ id ∈ t.bus.ringIds, id < t.bus.nextEventId) ∧ t.bus.ringIds.Nodup := by
  rcases hmove.ringIds with hring | ⟨hring,hnext⟩
  · rw [hring]
    exact ⟨fun id hid => Nat.lt_of_lt_of_le (h.ringLt id hid) hmove.nextEventId,h.ringNodup⟩
  · have hfresh : s.bus.nextEventId ∉ s.bus.ringIds := fun hid =>
      Nat.lt_irrefl _ (h.ringLt _ hid)
    refine ⟨?_,hring.nodup (List.nodup_append_comm.mp (List.nodup_cons.mpr ⟨hfresh,h.ringNodup⟩))⟩
    intro id hid
    rw [hnext]
    rcases List.mem_append.mp (hring.subset hid) with hid | hid
    · exact Nat.lt_succ_of_lt (h.ringLt id hid)
    · rw [List.mem_singleton.mp hid]
      exact Nat.lt_succ_self _

theorem Move.seen_unrepeated (hmove : Move s a t) (h : Unrepeated s) (τ : ℕ) :
    (∀ id ∈ t.seenIds τ, id < t.bus.nextEventId) ∧ (t.seenIds τ).Nodup := by
  have hlift : ∀ {id : ℕ}, id < s.bus.nextEventId → id < t.bus.nextEventId := fun hid =>
    Nat.lt_of_lt_of_le hid hmove.nextEventId
  rcases hmove.seen τ with hseen | ⟨th,env,rest,_,hserving,_,_,hseen⟩ | ⟨_,hstage,_,hseen⟩
  · exact ⟨fun id hid => hlift (h.seenLt τ id (hseen.subset hid)),hseen.nodup (h.seenNodup τ)⟩
  · have hnew := h.unserved th env _ hserving τ List.mem_cons_self
    refine ⟨?_,hseen.nodup
      (List.nodup_append_comm.mp (List.nodup_cons.mpr ⟨hnew,h.seenNodup τ⟩))⟩
    intro id hid
    rcases List.mem_append.mp (hseen.subset hid) with hid | hid
    · exact hlift (h.seenLt τ id hid)
    · rw [List.mem_singleton.mp hid]
      exact hlift (h.servingLt th env _ hserving)
  · have hring := h.registered hstage hseen
    exact ⟨fun id hid => hlift (h.ringLt id (hring.subset hid)),hring.nodup h.ringNodup⟩

theorem Move.fresh_seen (hmove : Move s a t) (hs : Enrolled s) (h : Unrepeated s) {τ : ℕ}
    (hearly : Early t τ) : t.seenIds τ = [] := by
  have hbefore := hmove.early hearly
  have hnil := h.freshSeen τ hbefore
  rcases hmove.seen τ with hseen | ⟨th,env,rest,_,hserving,_,_,_⟩ | ⟨_,_,hstage,_⟩
  · rw [hnil] at hseen
    exact List.sublist_nil.mp hseen
  · exact absurd (Or.inr ⟨th,env,_,hserving,List.mem_cons_self⟩) (hs.freshTarget τ hbefore)
  · rw [Early, hstage] at hearly
    exact absurd hearly Bool.false_ne_true

theorem Move.serving_lt (hmove : Move s a t) (h : Unrepeated s) {th : Thread}
    {env : EventEnvelope} {ts : List ℕ} (hserving : t.publisher th = .serving env ts) :
    env.event.eventId < t.bus.nextEventId := by
  rcases hmove.serving hserving with hs | ⟨i,_,hs⟩ | ⟨_,hid,hnext⟩
  · exact Nat.lt_of_lt_of_le (h.servingLt th env ts hs) hmove.nextEventId
  · exact Nat.lt_of_lt_of_le (h.servingLt th env _ hs) hmove.nextEventId
  · rw [hid, hnext]
    exact Nat.lt_succ_self _

/-- Where an id that is being served comes from: served before, or just assigned. -/
theorem Move.serving_before (hmove : Move s a t) {th : Thread} {env : EventEnvelope}
    {ts : List ℕ} (hserving : t.publisher th = .serving env ts) :
    (∃ ts', s.publisher th = .serving env ts') ∨
      (a = .assign th ∧ env.event.eventId = s.bus.nextEventId) := by
  rcases hmove.serving hserving with hs | ⟨i,_,hs⟩ | ⟨ha,hid,_⟩
  · exact Or.inl ⟨ts,hs⟩
  · exact Or.inl ⟨_,hs⟩
  · exact Or.inr ⟨ha,hid⟩

theorem Move.serving_ne (hmove : Move s a t) (h : Unrepeated s) {th th' : Thread}
    {env env' : EventEnvelope} {ts ts' : List ℕ} (hth : t.publisher th = .serving env ts)
    (hth' : t.publisher th' = .serving env' ts')
    (hid : env.event.eventId = env'.event.eventId) : th = th' := by
  rcases hmove.serving_before hth with ⟨us,hs⟩ | ⟨ha,hnew⟩
  · rcases hmove.serving_before hth' with ⟨us',hs'⟩ | ⟨_,hnew'⟩
    · exact h.servingNe th env us th' env' us' hs hs' hid
    · have hlt := h.servingLt th env us hs
      omega
  · rcases hmove.serving_before hth' with ⟨us',hs'⟩ | ⟨ha',_⟩
    · have hlt := h.servingLt th' env' us' hs'
      omega
    · rw [ha] at ha'
      exact Input.assign.inj ha'

theorem Move.unserved (hmove : Move s a t) (hs : Enrolled s) (h : Unrepeated s) {th : Thread}
    {env : EventEnvelope} {ts : List ℕ} (hserving : t.publisher th = .serving env ts)
    {τ : ℕ} (hτ : τ ∈ ts) : env.event.eventId ∉ t.seenIds τ := by
  intro hid
  rcases hmove.serving hserving with hbefore | ⟨i,ha,hbefore⟩ | ⟨ha,hnew,_⟩
  · have hunseen := h.unserved th env ts hbefore τ hτ
    rcases hmove.seen τ with hseen | ⟨th',env',rest,_,hserving',hafter,_,hseen⟩ | ⟨_,hstage,_,_⟩
    · exact hunseen (hseen.subset hid)
    · rcases List.mem_append.mp (hseen.subset hid) with hid | hid
      · exact hunseen hid
      · -- The id is the one being delivered, so this is the delivering thread, and its
        -- list of targets has become shorter.
        obtain rfl := h.servingNe th env ts th' env' _ hbefore hserving' (List.mem_singleton.mp hid)
        rw [hbefore] at hserving'
        rw [hserving] at hafter
        cases hserving'
        exact List.cons_ne_self _ _ (Publisher.serving.inj hafter).2
    · have hearly : Early s τ := early_of_stage hstage rfl
      exact hs.freshTarget τ hearly (Or.inr ⟨th,env,ts,hbefore,hτ⟩)
  · have hunseen := h.unserved th env _ hbefore τ (List.mem_cons_of_mem i hτ)
    rcases hmove.seen τ with hseen | ⟨th',env',rest,ha',hserving',_,_,_⟩ | ⟨ha',_⟩
    · exact hunseen (hseen.subset hid)
    · rw [ha] at ha'
      cases ha'
      rw [hbefore] at hserving'
      cases hserving'
      exact (List.nodup_cons.mp (hs.targets th env _ hbefore)).1 hτ
    · rw [ha] at ha'
      cases ha'
  · rcases hmove.seen τ with hseen | ⟨th',env',rest,ha',_⟩ | ⟨ha',_⟩
    · have hlt := h.seenLt τ _ (hseen.subset hid)
      omega
    · rw [ha] at ha'
      cases ha'
    · rw [ha] at ha'
      cases ha'

end Preservation

theorem step_unrepeated (s : Server) (a : Input) (hs : Enrolled s) (h : Unrepeated s) :
    Unrepeated (s.step a) :=
  have hmove := step_move s a
  { ringLt := (hmove.ring_unrepeated h).1
    ringNodup := (hmove.ring_unrepeated h).2
    seenLt := fun σ => (hmove.seen_unrepeated h σ).1
    seenNodup := fun σ => (hmove.seen_unrepeated h σ).2
    freshSeen := fun _ => hmove.fresh_seen hs h
    servingLt := fun _ _ _ => hmove.serving_lt h
    servingNe := fun _ _ _ _ _ _ => hmove.serving_ne h
    unserved := fun _ _ _ hserving _ => hmove.unserved hs h hserving }

/-- A broadcaster before its first session. -/
def boot (ringCapacity perSubCapacity : ℕ) (defaultSiteId : String) : Server :=
  { bus := { ringCapacity := ringCapacity, perSubCapacity := perSubCapacity }
    defaultSiteId := defaultSiteId }

section Boot
variable (ringCapacity perSubCapacity : ℕ) (defaultSiteId : String)

theorem boot_enrolled : Enrolled (boot ringCapacity perSubCapacity defaultSiteId) where
  freshTarget := by
    rintro σ _ (h | ⟨_,_,_,h,_⟩)
    · cases h
    · cases h
  freshWriter := fun _ _ => rfl
  known := fun _ h => absurd rfl h
  running := fun _ h => absurd rfl h
  attached := by
    rintro σ (h | ⟨_,_,_,h,_⟩)
    · cases h
    · cases h
  subs := List.nodup_nil
  targets := fun _ _ _ h => by cases h

theorem boot_unrepeated : Unrepeated (boot ringCapacity perSubCapacity defaultSiteId) where
  ringLt := fun _ h => by cases h
  ringNodup := List.nodup_nil
  seenLt := fun _ _ h => by cases h
  seenNodup := fun _ => List.nodup_nil
  freshSeen := fun _ _ => rfl
  servingLt := fun _ _ _ h => by cases h
  servingNe := fun _ _ _ _ _ _ h => by cases h
  unserved := fun _ _ _ h => by cases h

/-- In every run, no session writes an event twice. -/
theorem run_written_nodup (as : List Input) (σ : ℕ) :
    ((exec step (boot ringCapacity perSubCapacity defaultSiteId) as).writtenIds σ).Nodup := by
  have hrun := exec_invariant (I:=fun s => Enrolled s ∧ Unrepeated s)
    (fun s a h => ⟨step_enrolled s a h.1,step_unrepeated s a h.1 h.2⟩) as
    ⟨boot_enrolled ringCapacity perSubCapacity defaultSiteId,
      boot_unrepeated ringCapacity perSubCapacity defaultSiteId⟩
  exact (hrun.2.seenNodup σ).of_append_left

end Boot

end AlprGate.Dash.Server
