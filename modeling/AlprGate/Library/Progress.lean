import AlprGate.Library.Transition

/-! # Progress under any schedule

The environment moves as it likes. Some labels are turns of the process in question, and each turn
brings it closer to where it is done; no other label takes it further away. So it is done after a
bounded number of turns, however they are spread over the run.
-/
namespace AlprGate.Transition
variable {σ α : Type*} {step : σ → α → σ} {C : σ → α → Prop} {I : σ → Prop} {s : σ} {as : List α}

/-- A condition on the labels alone. -/
theorem AllSteps.of_forall {L : α → Prop} (h : ∀ a ∈ as, L a) :
    AllSteps step (fun _ a => L a) s as := by
  induction as generalizing s with
  | nil => exact trivial
  | cons a as ih =>
    obtain ⟨ha,has⟩ := List.forall_mem_cons.mp h
    exact ⟨ha,ih has⟩

/-- Every turn lowers the measure as long as it is positive. -/
theorem exec_measure_le (turn : α → Bool) (μ : σ → ℕ)
    (hstep : ∀ s a, C s a → I s → I (step s a) ∧ μ (step s a) ≤ μ s - (turn a).toNat)
    (hC : AllSteps step C s as) (hs : I s) :
    I (exec step s as) ∧ μ (exec step s as) ≤ μ s - as.countP turn := by
  induction as generalizing s with
  | nil => exact ⟨hs,Nat.le_refl _⟩
  | cons a as ih =>
    obtain ⟨hI,hle⟩ := hstep s a hC.1 hs
    obtain ⟨hend,hmeasure⟩ := ih hC.2 hI
    refine ⟨hend,?_⟩
    rw [exec_cons, List.countP_cons]
    cases hturn : turn a with
    | true =>
      rw [hturn] at hle
      simp only [Bool.toNat_true, if_true] at hle ⊢
      omega
    | false =>
      rw [hturn] at hle
      simp only [Bool.toNat_false, Bool.false_eq_true, if_false] at hle ⊢
      omega

end AlprGate.Transition
