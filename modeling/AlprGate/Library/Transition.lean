import Mathlib.Data.List.Basic
import Mathlib.Data.List.Forall2
import Mathlib.Tactic.Common

/-! # Runs of deterministic labelled systems

A system is a total step function on states and labels. A label that is not
enabled leaves the state alone, so every list of labels is a run and every
interleaving of several tasks is one such list. Conditions on the scheduler or
the environment are conditions on the steps of a run.
-/
namespace AlprGate.Transition
variable {σ α η : Type*}

/-- The state after a finite run. -/
def exec (step : σ → α → σ) (s : σ) (as : List α) : σ := as.foldl step s

section Basic
variable (step : σ → α → σ)

@[simp] theorem exec_nil (s : σ) : exec step s [] = s := rfl

@[simp] theorem exec_cons (s : σ) (a : α) (as : List α) :
    exec step s (a :: as) = exec step (step s a) as := rfl

@[simp] theorem exec_append (s : σ) (as bs : List α) :
    exec step s (as ++ bs) = exec step (exec step s as) bs := List.foldl_append

/-- Every step of a run meets a condition on the state before it and its label. -/
def AllSteps (C : σ → α → Prop) : σ → List α → Prop
  | _, [] => True
  | s, a :: as => C s a ∧ AllSteps C (step s a) as

instance decidableAllSteps (C : σ → α → Prop) [∀ s a, Decidable (C s a)] :
    (s : σ) → (as : List α) → Decidable (AllSteps step C s as)
  | _, [] => inferInstanceAs (Decidable True)
  | s, a :: as =>
    have := decidableAllSteps C (step s a) as
    inferInstanceAs (Decidable (C s a ∧ _))

/-- Some step of a run meets `P`, and the rest of the run after it meets `Q`. -/
def After (P : σ → α → Prop) (Q : σ → List α → Prop) : σ → List α → Prop
  | _, [] => False
  | s, a :: as => (P s a ∧ Q (step s a) as) ∨ After P Q (step s a) as

/-- The first observation a run makes. -/
def firstSome (obs : σ → α → Option η) : σ → List α → Option η
  | _, [] => none
  | s, a :: as => (obs s a).or (firstSome obs (step s a) as)

end Basic

variable {step : σ → α → σ}

/-- The invariant rule for runs whose steps all meet a condition. -/
theorem exec_invariant_of {C : σ → α → Prop} {I : σ → Prop}
    (hstep : ∀ s a, C s a → I s → I (step s a)) {s : σ} {as : List α}
    (hC : AllSteps step C s as) (hs : I s) : I (exec step s as) := by
  induction as generalizing s with
  | nil => exact hs
  | cons a as ih => exact ih hC.2 (hstep s a hC.1 hs)

/-- The invariant rule for all runs. -/
theorem exec_invariant {I : σ → Prop} (hstep : ∀ s a, I s → I (step s a))
    {s : σ} (as : List α) (hs : I s) : I (exec step s as) := by
  induction as generalizing s with
  | nil => exact hs
  | cons a as ih => exact ih (hstep s a hs)

/-- The invariant rule for what is said of the labels of a run as well as of its end. -/
theorem run_invariant_of {C : σ → α → Prop} {J : List α → Prop} {s : σ} (hnil : J [])
    (hstep : ∀ as a, C (exec step s as) a → J as → J (as ++ [a])) {as : List α}
    (hC : AllSteps step C s as) : J as := by
  have hfrom : ∀ as before, AllSteps step C (exec step s before) as → J before →
      J (before ++ as) := by
    intro as
    induction as with
    | nil =>
      intro before _ hbefore
      rwa [List.append_nil]
    | cons a as ih =>
      intro before hsteps hbefore
      have htail := ih (before ++ [a]) (by rw [exec_append]; exact hsteps.2)
        (hstep before a hsteps.1 hbefore)
      rwa [List.append_assoc] at htail
  exact hfrom as [] hC hnil

/-- A measure that some label of a kind lowers as long as the goal is not reached: a run of
such labels reaches it. -/
theorem exists_exec_of_measure {L : α → Prop} {I D : σ → Prop} (μ : σ → ℕ)
    (hstep : ∀ s, I s → ¬ D s → ∃ a, L a ∧ I (step s a) ∧ μ (step s a) < μ s) {s : σ} (hs : I s) :
    ∃ as, (∀ a ∈ as, L a) ∧ I (exec step s as) ∧ D (exec step s as) := by
  induction hn : μ s using Nat.strongRecOn generalizing s with
  | _ n ih =>
    by_cases hdone : D s
    · exact ⟨[],fun a ha => absurd ha List.not_mem_nil,hs,hdone⟩
    · obtain ⟨a,ha,hinv,hlt⟩ := hstep s hs hdone
      obtain ⟨as,has,hend⟩ := ih (μ (step s a)) (hn ▸ hlt) hinv rfl
      exact ⟨a :: as,List.forall_mem_cons.mpr ⟨ha,has⟩,hend⟩

/-- Simulation along an abstraction function: if every step that meets the condition is
matched, so is every run of such steps. -/
theorem exec_simulation {τ : Type*} {next : τ → α → τ} {f : σ → τ} {C : σ → α → Prop}
    (hstep : ∀ s a, C s a → f (step s a) = next (f s) a) {s : σ} {as : List α}
    (hC : AllSteps step C s as) : f (exec step s as) = exec next (f s) as := by
  induction as generalizing s with
  | nil => rfl
  | cons a as ih =>
    have htail := ih hC.2
    rw [hstep s a hC.1] at htail
    exact htail

/-- An invariant that holds until something is observed, when every observation made
from it is `b`. -/
theorem firstSome_invariant {C : σ → α → Prop} {I : σ → Prop} {obs : σ → α → Option η} {b : η}
    (hstep : ∀ s a, C s a → I s → obs s a = some b ∨ (obs s a = none ∧ I (step s a)))
    {s : σ} {as : List α} (hC : AllSteps step C s as) (hs : I s) :
    firstSome step obs s as = some b ∨
      (firstSome step obs s as = none ∧ I (exec step s as)) := by
  induction as generalizing s with
  | nil => exact Or.inr ⟨rfl,hs⟩
  | cons a as ih =>
    rw [firstSome, exec_cons]
    rcases hstep s a hC.1 hs with h | ⟨h,hs⟩
    · exact Or.inl (by rw [h]; rfl)
    · rw [h, Option.none_or]
      exact ih hC.2 hs

/-- What holds after a later step holds after the earlier one as well. -/
theorem After.right {P R : σ → α → Prop} {Q : σ → List α → Prop} {s : σ} {as : List α}
    (h : After step P (After step R Q) s as) : After step R Q s as := by
  induction as generalizing s with
  | nil => exact h
  | cons a as ih =>
    rcases h with h | h
    · exact Or.inr h.2
    · exact Or.inr (ih h)

/-- The last value that a list of labels writes. -/
def latest (writes : α → Option η) (as : List α) : Option η := as.reverse.findSome? writes

theorem latest_cons (writes : α → Option η) (a : α) (as : List α) :
    latest writes (a :: as) = (latest writes as).or (writes a) := by
  rw [latest, List.reverse_cons, List.findSome?_append]
  simp [latest]

theorem latest_eq_some_iff {writes : α → Option η} {as : List α} {v : η} :
    latest writes as = some v ↔ ∃ before a after, as = before ++ a :: after ∧ writes a = some v ∧
      ∀ b ∈ after, writes b = none := by
  induction as with
  | nil => simp [latest]
  | cons a as ih =>
    rw [latest_cons, Option.or_eq_some_iff, ih]
    constructor
    · rintro (⟨before,b,after,rfl,hb,hafter⟩ | ⟨hnone,ha⟩)
      · exact ⟨a :: before,b,after,rfl,hb,hafter⟩
      · exact ⟨[],a,as,rfl,ha,by simpa [latest] using hnone⟩
    · rintro ⟨before,b,after,heq,hb,hafter⟩
      cases before with
      | nil =>
        cases heq
        exact Or.inr ⟨by simpa [latest] using hafter,hb⟩
      | cons c before =>
        cases heq
        exact Or.inl ⟨before,b,after,rfl,hb,hafter⟩

theorem latest_eq_none_iff {writes : α → Option η} {as : List α} :
    latest writes as = none ↔ ∀ a ∈ as, writes a = none := by
  simp [latest]

/-- When every label that writes at all writes `v`. -/
theorem latest_ite (p : α → Prop) [DecidablePred p] (v : η) (as : List α) :
    latest (fun a => if p a then some v else none) as =
      if ∃ a ∈ as, p a then some v else none := by
  induction as with
  | nil => simp [latest]
  | cons a as ih =>
    rw [latest_cons, ih]
    by_cases htail : ∃ b ∈ as, p b
    · simp [htail]
    · by_cases hhead : p a
      · simp [htail, hhead]
      · simp [htail, hhead]

/-- A part of the state that each label overwrites or leaves alone holds the last value
written in a run. -/
theorem exec_register {g : σ → η} {w : α → Option η}
    (hstep : ∀ s a, g (step s a) = (w a).getD (g s)) (s : σ) (as : List α) :
    g (exec step s as) = (latest w as).getD (g s) := by
  induction as generalizing s with
  | nil => rfl
  | cons a as ih =>
    rw [exec_cons, ih, hstep, latest_cons]
    cases latest w as with
    | none => rfl
    | some x => rfl

/-- A history variable reads each step and is read by none. -/
def observe (step : σ → α → σ) (obs : σ → α → η → η) (p : σ × η) (a : α) : σ × η :=
  (step p.1 a, obs p.1 a p.2)

/-- Observing a run does not change it. -/
@[simp] theorem exec_observe_fst (obs : σ → α → η → η) (p : σ × η) (as : List α) :
    (exec (observe step obs) p as).1 = exec step p.1 as := by
  induction as generalizing p with
  | nil => rfl
  | cons a as ih => exact ih (observe step obs p a)

/-- A condition on the steps of a run is one on the steps of the observed run. -/
theorem AllSteps.observe {C : σ → α → Prop} (obs : σ → α → η → η) {p : σ × η} {as : List α}
    (h : AllSteps step C p.1 as) :
    AllSteps (Transition.observe step obs) (fun p a => C p.1 a) p as := by
  induction as generalizing p with
  | nil => exact trivial
  | cons a as ih => exact ⟨h.1,ih h.2⟩

section Answers
variable {τ : Type*}

/-- The answers that a system gives to a list of calls. -/
def outputs (call : σ → α → η × σ) : σ → List α → List η
  | _, [] => []
  | s, a :: as => (call s a).1 :: outputs call (call s a).2 as

/-- The state after a list of calls. -/
def final (call : σ → α → η × σ) (s : σ) (as : List α) : σ := exec (fun s a => (call s a).2) s as

/-- A system that answers each call as its abstraction does gives the same answers to every
list of calls. -/
theorem outputs_simulation {call : σ → α → η × σ} {next : τ → α → η × τ} {f : σ → τ}
    (hcall : ∀ s a, next (f s) a = ((call s a).1, f (call s a).2)) (s : σ) (as : List α) :
    outputs call s as = outputs next (f s) as ∧ f (final call s as) = final next (f s) as := by
  induction as generalizing s with
  | nil => exact ⟨rfl,rfl⟩
  | cons a as ih =>
    obtain ⟨hout,hfinal⟩ := ih (call s a).2
    have hnext := hcall s a
    refine ⟨?_,?_⟩
    · rw [outputs, outputs, hnext, hout]
    · unfold final at hfinal ⊢
      rw [exec_cons, exec_cons, hnext]
      exact hfinal

/-- The answers to a numbered sequence of calls, from what holds in front of each. -/
theorem outputs_eq_map {call : σ → α → η × σ} {calls : ℕ → α} {expected : ℕ → η}
    {I : ℕ → σ → Prop} (hcall : ∀ k s, I k s →
      (call s (calls k)).1 = expected k ∧ I (k + 1) (call s (calls k)).2)
    {k : ℕ} {s : σ} (hs : I k s) (m : ℕ) :
    outputs call s ((List.range' k m).map calls) = (List.range' k m).map expected := by
  induction m generalizing k s with
  | zero => rfl
  | succ m ih =>
    obtain ⟨hanswer,hnext⟩ := hcall k s hs
    rw [List.range'_succ, List.map_cons, List.map_cons, outputs, hanswer, ih hnext]

/-- Calls that the system cannot tell apart get the same answers, list by list. -/
theorem outputs_congr {call : σ → α → η × σ} {R : α → α → Prop}
    (hcall : ∀ s a b, R a b → call s a = call s b) (s : σ) {as bs : List α}
    (h : List.Forall₂ R as bs) : outputs call s as = outputs call s bs := by
  induction h generalizing s with
  | nil => rfl
  | @cons a b as bs hab _ ih =>
    have htail := ih (call s b).2
    simp only [outputs, hcall s a b hab, htail]

end Answers

end AlprGate.Transition
