import Mathlib.Data.List.Nodup
import Mathlib.Data.List.Perm.Lattice
import Mathlib.Data.Set.Insert
import Mathlib.Logic.Function.Basic
import Mathlib.Tactic.Common

/-! # Fan-out from a snapshot

Items enter a log one at a time. The worker that logs an item takes a snapshot of the
members in the same step and hands the item to each of them later, one by one. Members
join and leave in between, and several workers may be under way. A member receives every
item that is logged after it joined exactly once, whatever the order in which the workers
get to it.
-/
namespace AlprGate.SnapshotFanout
variable {τ ι β : Type*}

/-- `job` holds the item of a worker and the members it has still to serve; `known` are
the members of all times. -/
structure Fanout (τ ι β : Type*) where
  log : List β
  members : List ι
  known : Set ι
  job : τ → Option (β × List ι)
  received : ι → List β

/-- The worker has still to hand the item to the member. -/
def Owes (S : Fanout τ ι β) (t : τ) (i : ι) (x : β) : Prop := ∃ ts, S.job t = some (x, ts) ∧ i ∈ ts

variable {key : β → ℕ} {S T : Fanout τ ι β}

/-- What holds from the start on. No two workers have the same item, and a member to be
served has not seen it. -/
structure Sound (key : β → ℕ) (S : Fanout τ ι β) : Prop where
  ascending : S.log.Pairwise fun x y => key x < key y
  nodup : S.members.Nodup
  known : ∀ i ∈ S.members, i ∈ S.known
  job : ∀ t x ts, S.job t = some (x, ts) →
    x ∈ S.log ∧ ts.Nodup ∧ ∀ i ∈ ts, i ∈ S.known ∧ x ∉ S.received i
  single : ∀ t t' x ts ts', S.job t = some (x, ts) → S.job t' = some (x, ts') → t = t'
  received : ∀ i, (S.received i).Nodup ∧ ∀ x ∈ S.received i, x ∈ S.log ∧ i ∈ S.known

theorem Sound.initial (known : Set ι) :
    Sound key (⟨[],[],known,fun _ => none,fun _ => []⟩ : Fanout τ ι β) where
  ascending := List.Pairwise.nil
  nodup := List.nodup_nil
  known := fun i hi => absurd hi List.not_mem_nil
  job := fun t x ts h => by cases h
  single := fun t t' x ts ts' h => by cases h
  received := fun i => ⟨List.nodup_nil,fun x hx => absurd hx List.not_mem_nil⟩

theorem Sound.log_nodup (h : Sound key S) : S.log.Nodup := by
  refine h.ascending.imp ?_
  rintro x y hlt rfl
  exact lt_irrefl _ hlt

theorem Sound.leave (h : Sound key S) {ms : List ι} {known : Set ι} (hms : ms.Sublist S.members)
    (hknown : S.known ⊆ known) : Sound key { S with members := ms, known := known } where
  ascending := h.ascending
  nodup := h.nodup.sublist hms
  known := fun i hi => hknown (h.known i (hms.subset hi))
  job := by
    intro t x ts hjob
    obtain ⟨hlog,hnodup,hts⟩ := h.job t x ts hjob
    exact ⟨hlog,hnodup,fun j hj => ⟨hknown (hts j hj).1,(hts j hj).2⟩⟩
  single := h.single
  received := by
    intro j
    obtain ⟨hnodup,hmem⟩ := h.received j
    exact ⟨hnodup,fun x hx => ⟨(hmem x hx).1,hknown (hmem x hx).2⟩⟩

theorem Sound.join (h : Sound key S) {i : ι} (hnew : i ∉ S.known) :
    Sound key { S with members := S.members ++ [i], known := insert i S.known } := by
  have hgrown := h.leave (List.Sublist.refl _) (Set.subset_insert i S.known)
  refine { hgrown with nodup := ?_, known := ?_ }
  · refine List.nodup_append.mpr ⟨h.nodup,List.nodup_singleton i,?_⟩
    intro j hj k hk
    rw [List.mem_singleton.mp hk]
    rintro rfl
    exact hnew (h.known j hj)
  · intro j hj
    rcases List.mem_append.mp hj with hj | hj
    · exact hgrown.known j hj
    · rw [List.mem_singleton.mp hj]
      exact Set.mem_insert i S.known

theorem Sound.key_injective (h : Sound key S) {x y : β} (hx : x ∈ S.log) (hy : y ∈ S.log)
    (hkey : key x = key y) : x = y := by
  have hmap : (S.log.map key).Nodup := List.pairwise_map.mpr (h.ascending.imp fun hlt => hlt.ne)
  exact List.inj_on_of_nodup_map hmap hx hy hkey

/-- What holds for a member from the time it joined, when the log had `c` items: it has
received or is owed later items only, and all of them while it stays. -/
structure Since (c : ℕ) (i : ι) (S : Fanout τ ι β) : Prop where
  start : c ≤ S.log.length
  known : i ∈ S.known
  later : ∀ x, (x ∈ S.received i ∨ ∃ t, Owes S t i x) → x ∈ S.log.drop c
  complete : i ∈ S.members → ∀ x ∈ S.log.drop c, x ∈ S.received i ∨ ∃ t, Owes S t i x

theorem Since.joined (h : Sound key S) {i : ι} (hnew : i ∉ S.known) :
    Since S.log.length i { S with members := S.members ++ [i], known := insert i S.known } where
  start := le_rfl
  known := Set.mem_insert i S.known
  later := by
    rintro x (hx | ⟨t,ts,hjob,hi⟩)
    · exact absurd ((h.received i).2 x hx).2 hnew
    · exact absurd ((h.job t x ts hjob).2.2 i hi).1 hnew
  complete := by
    intro _ x hx
    simp at hx

variable {c : ℕ} {i : ι}

/-- Once nobody owes a member anything, it has received exactly the items logged since it
joined, each of them once. -/
theorem Since.received_perm (hsound : Sound key S) (h : Since c i S) (hi : i ∈ S.members)
    (hserved : ∀ t x, ¬ Owes S t i x) : (S.received i).Perm (S.log.drop c) := by
  have hlog : (S.log.drop c).Nodup := hsound.log_nodup.sublist (List.drop_sublist c S.log)
  refine (List.perm_ext_iff_of_nodup (hsound.received i).1 hlog).mpr ?_
  intro x
  constructor
  · intro hx
    exact h.later x (Or.inl hx)
  · intro hx
    rcases h.complete hi x hx with hx | ⟨t,hx⟩
    · exact hx
    · exact absurd hx (hserved t x)

section Workers
variable [DecidableEq τ]

theorem update_some_cases {job : τ → Option (β × List ι)} {t t' : τ} {v w : β × List ι}
    (h : Function.update job t (some v) t' = some w) :
    (t' = t ∧ v = w) ∨ (t' ≠ t ∧ job t' = some w) := by
  by_cases ht : t' = t
  · subst ht
    rw [Function.update_self] at h
    exact Or.inl ⟨rfl,Option.some.inj h⟩
  · rw [Function.update_of_ne ht] at h
    exact Or.inr ⟨ht,h⟩

theorem update_none_some {job : τ → Option (β × List ι)} {t t' : τ} {w : β × List ι}
    (h : Function.update job t none t' = some w) : job t' = some w := by
  by_cases ht : t' = t
  · subst ht
    rw [Function.update_self] at h
    cases h
  · rwa [Function.update_of_ne ht] at h

theorem Sound.assign (h : Sound key S) {t : τ} {x : β} {ms : List ι}
    (hnew : ∀ y ∈ S.log, key y < key x) (hms : ms.Sublist S.members) :
    Sound key { S with
      log := S.log ++ [x], members := ms, job := Function.update S.job t (some (x, ms)) } := by
  have hfresh : x ∉ S.log := fun hx => lt_irrefl _ (hnew x hx)
  refine ⟨?_,h.nodup.sublist hms,fun i hi => h.known i (hms.subset hi),?_,?_,?_⟩
  · refine List.pairwise_append.mpr ⟨h.ascending,List.pairwise_singleton _ x,?_⟩
    intro y hy z hz
    rw [List.mem_singleton.mp hz]
    exact hnew y hy
  · intro t' y ts hjob
    rcases update_some_cases hjob with ⟨_,hv⟩ | ⟨_,hjob⟩
    · cases hv
      refine ⟨List.mem_append_right _ List.mem_cons_self,h.nodup.sublist hms,?_⟩
      intro i hi
      exact ⟨h.known i (hms.subset hi),fun hx => hfresh ((h.received i).2 x hx).1⟩
    · obtain ⟨hlog,hrest⟩ := h.job t' y ts hjob
      exact ⟨List.mem_append_left _ hlog,hrest⟩
  · intro t₁ t₂ y ts₁ ts₂ h₁ h₂
    -- the new item is in no other job
    rcases update_some_cases h₁ with ⟨ht₁,hv₁⟩ | ⟨_,hjob₁⟩
    · rcases update_some_cases h₂ with ⟨ht₂,_⟩ | ⟨_,hjob₂⟩
      · rw [ht₁, ht₂]
      · cases hv₁
        exact absurd (h.job t₂ x ts₂ hjob₂).1 hfresh
    · rcases update_some_cases h₂ with ⟨_,hv₂⟩ | ⟨_,hjob₂⟩
      · cases hv₂
        exact absurd (h.job t₁ x ts₁ hjob₁).1 hfresh
      · exact h.single t₁ t₂ y ts₁ ts₂ hjob₁ hjob₂
  · intro i
    obtain ⟨hnodup,hmem⟩ := h.received i
    exact ⟨hnodup,fun y hy => ⟨List.mem_append_left _ (hmem y hy).1,(hmem y hy).2⟩⟩

theorem Since.assign (h : Since c i S) {t : τ} {x : β} {ms : List ι} (hidle : S.job t = none)
    (hms : ms.Sublist S.members) :
    Since c i { S with
      log := S.log ++ [x], members := ms, job := Function.update S.job t (some (x, ms)) } := by
  have hdrop : (S.log ++ [x]).drop c = S.log.drop c ++ [x] := List.drop_append_of_le_length h.start
  refine ⟨?_,h.known,?_,?_⟩
  · rw [List.length_append]
    exact h.start.trans (Nat.le_add_right _ _)
  · intro y hy
    change y ∈ (S.log ++ [x]).drop c
    rw [hdrop]
    rcases hy with hy | ⟨t',ts,hjob,hi⟩
    · exact List.mem_append_left _ (h.later y (Or.inl hy))
    · rcases update_some_cases hjob with ⟨_,hv⟩ | ⟨_,hjob⟩
      · cases hv
        exact List.mem_append_right _ List.mem_cons_self
      · exact List.mem_append_left _ (h.later y (Or.inr ⟨t',ts,hjob,hi⟩))
  · intro hi y hy
    change y ∈ (S.log ++ [x]).drop c at hy
    rw [hdrop] at hy
    rcases List.mem_append.mp hy with hy | hy
    · rcases h.complete (hms.subset hi) y hy with hy | ⟨t',ts,hjob,hi'⟩
      · exact Or.inl hy
      · have hne : t' ≠ t := by
          rintro rfl
          rw [hidle] at hjob
          cases hjob
        exact Or.inr ⟨t',ts,(Function.update_of_ne hne _ _).trans hjob,hi'⟩
    · rw [List.mem_singleton.mp hy]
      exact Or.inr ⟨t,ms,Function.update_self ..,hi⟩

theorem Sound.finish (h : Sound key S) (t : τ) :
    Sound key { S with job := Function.update S.job t none } :=
  { h with
    job := fun t' x ts hjob => h.job t' x ts (update_none_some hjob)
    single := fun t₁ t₂ x ts₁ ts₂ h₁ h₂ =>
      h.single t₁ t₂ x ts₁ ts₂ (update_none_some h₁) (update_none_some h₂) }

end Workers

variable [DecidableEq τ] [DecidableEq ι]

/-- Items are numbered by a key that grows along the log. -/
inductive Step (key : β → ℕ) (S : Fanout τ ι β) : Fanout τ ι β → Prop
  | join (i : ι) (hnew : i ∉ S.known) :
      Step key S { S with members := S.members ++ [i], known := insert i S.known }
  | leave (ms : List ι) (known : Set ι) (hms : ms.Sublist S.members) (hknown : S.known ⊆ known) :
      Step key S { S with members := ms, known := known }
  | assign (t : τ) (x : β) (ms : List ι) (hidle : S.job t = none)
      (hnew : ∀ y ∈ S.log, key y < key x) (hms : ms.Sublist S.members) :
      Step key S { S with
        log := S.log ++ [x], members := ms, job := Function.update S.job t (some (x, ms)) }
  | serve (t : τ) (x : β) (i : ι) (rest : List ι) (hjob : S.job t = some (x, i :: rest)) :
      Step key S { S with
        job := Function.update S.job t (some (x, rest))
        received := Function.update S.received i (S.received i ++ [x]) }
  | finish (t : τ) (x : β) (hjob : S.job t = some (x, [])) :
      Step key S { S with job := Function.update S.job t none }

theorem Sound.serve (h : Sound key S) {t : τ} {x : β} {i : ι} {rest : List ι}
    (hjob : S.job t = some (x, i :: rest)) :
    Sound key { S with
      job := Function.update S.job t (some (x, rest))
      received := Function.update S.received i (S.received i ++ [x]) } := by
  obtain ⟨hlog,hts,hpending⟩ := h.job t x (i :: rest) hjob
  obtain ⟨hi,hrest⟩ := List.nodup_cons.mp hts
  refine ⟨h.ascending,h.nodup,h.known,?_,?_,?_⟩
  · intro t' y ts hjob'
    rcases update_some_cases hjob' with ⟨_,hv⟩ | ⟨ht,hother⟩
    · cases hv
      refine ⟨hlog,hrest,?_⟩
      intro j hj
      have hne : j ≠ i := fun hji => hi (hji ▸ hj)
      obtain ⟨hknown,hseen⟩ := hpending j (List.mem_cons_of_mem i hj)
      exact ⟨hknown,by simpa [Function.update_of_ne hne] using hseen⟩
    · obtain ⟨hlog',hnodup',hpending'⟩ := h.job t' y ts hother
      refine ⟨hlog',hnodup',?_⟩
      intro j hj
      refine ⟨(hpending' j hj).1,?_⟩
      by_cases hji : j = i
      · subst hji
        have hyx : y ≠ x := by
          rintro rfl
          exact ht (h.single t' t y ts (j :: rest) hother hjob)
        simpa [hyx] using (hpending' j hj).2
      · simpa [Function.update_of_ne hji] using (hpending' j hj).2
  · intro t₁ t₂ y ts₁ ts₂ h₁ h₂
    have hold : ∀ t' ts, Function.update S.job t (some (x, rest)) t' = some (y, ts) →
        ∃ ts', S.job t' = some (y, ts') := by
      intro t' ts ht'
      rcases update_some_cases ht' with ⟨rfl,hv⟩ | ⟨_,hjob'⟩
      · cases hv
        exact ⟨_,hjob⟩
      · exact ⟨_,hjob'⟩
    obtain ⟨ts₁',hjob₁⟩ := hold t₁ ts₁ h₁
    obtain ⟨ts₂',hjob₂⟩ := hold t₂ ts₂ h₂
    exact h.single t₁ t₂ y ts₁' ts₂' hjob₁ hjob₂
  · intro j
    by_cases hji : j = i
    · subst hji
      obtain ⟨hnodup,hmem⟩ := h.received j
      obtain ⟨hknown,hseen⟩ := hpending j List.mem_cons_self
      simp only [Function.update_self]
      refine ⟨List.nodup_append.mpr ⟨hnodup,List.nodup_singleton x,?_⟩,?_⟩
      · intro y hy z hz
        rw [List.mem_singleton.mp hz]
        rintro rfl
        exact hseen hy
      · intro y hy
        rcases List.mem_append.mp hy with hy | hy
        · exact hmem y hy
        · rw [List.mem_singleton.mp hy]
          exact ⟨hlog,hknown⟩
    · simp only [Function.update_of_ne hji]
      exact h.received j

theorem Sound.step (h : Sound key S) (hstep : Step key S T) : Sound key T := by
  cases hstep with
  | join i hnew => exact h.join hnew
  | leave ms known hms hknown => exact h.leave hms hknown
  | assign t x ms hidle hnew hms => exact h.assign hnew hms
  | serve t x i rest hjob => exact h.serve hjob
  | finish t x hjob => exact h.finish t

theorem Since.serve (h : Since c i S) {t : τ} {x : β} {j : ι} {rest : List ι}
    (hjob : S.job t = some (x, j :: rest)) :
    Since c i { S with
      job := Function.update S.job t (some (x, rest))
      received := Function.update S.received j (S.received j ++ [x]) } := by
  refine ⟨h.start,h.known,?_,?_⟩
  · rintro y (hy | ⟨t',ts,hjob',hi⟩)
    · by_cases hij : i = j
      · subst hij
        simp only [Function.update_self, List.mem_append, List.mem_singleton] at hy
        rcases hy with hy | hy
        · exact h.later y (Or.inl hy)
        · rw [hy]
          exact h.later x (Or.inr ⟨t,_,hjob,List.mem_cons_self⟩)
      · simp only [Function.update_of_ne hij] at hy
        exact h.later y (Or.inl hy)
    · rcases update_some_cases hjob' with ⟨_,hv⟩ | ⟨_,hjob'⟩
      · cases hv
        exact h.later x (Or.inr ⟨t,_,hjob,List.mem_cons_of_mem j hi⟩)
      · exact h.later y (Or.inr ⟨t',ts,hjob',hi⟩)
  · intro hi y hy
    rcases h.complete hi y hy with hseen | ⟨t',ts,hjob',hi'⟩
    · left
      by_cases hij : i = j
      · subst hij
        simp [hseen]
      · simpa [Function.update_of_ne hij] using hseen
    · by_cases ht : t' = t
      · subst ht
        rw [hjob] at hjob'
        cases hjob'
        -- the served member moves its item from the debts to the receipts
        rcases List.mem_cons.mp hi' with rfl | hi'
        · left
          simp
        · exact Or.inr ⟨t',rest,Function.update_self ..,hi'⟩
      · exact Or.inr ⟨t',ts,(Function.update_of_ne ht _ _).trans hjob',hi'⟩

theorem Since.step (h : Since c i S) (hstep : Step key S T) : Since c i T := by
  cases hstep with
  | join j hnew =>
    refine ⟨h.start,Set.mem_insert_of_mem j h.known,h.later,?_⟩
    intro hi
    rcases List.mem_append.mp hi with hi | hi
    · exact h.complete hi
    · rw [List.mem_singleton.mp hi] at h
      exact absurd h.known hnew
  | leave ms known hms hknown =>
    exact ⟨h.start,hknown h.known,h.later,fun hi => h.complete (hms.subset hi)⟩
  | assign t x ms hidle hnew hms => exact h.assign hidle hms
  | serve t x j rest hjob => exact h.serve hjob
  | finish t x hjob =>
    have howes : ∀ y, (∃ t', Owes { S with job := Function.update S.job t none } t' i y) ↔
        ∃ t', Owes S t' i y := by
      intro y
      constructor
      · rintro ⟨t',ts,hjob',hi⟩
        exact ⟨t',ts,update_none_some hjob',hi⟩
      · rintro ⟨t',ts,hjob',hi⟩
        have hne : t' ≠ t := by
          rintro rfl
          rw [hjob] at hjob'
          cases hjob'
          exact absurd hi List.not_mem_nil
        exact ⟨t',ts,(Function.update_of_ne hne _ _).trans hjob',hi⟩
    refine ⟨h.start,h.known,?_,?_⟩
    · intro y hy
      rw [howes] at hy
      exact h.later y hy
    · intro hi y hy
      rw [howes]
      exact h.complete hi y hy

end AlprGate.SnapshotFanout
