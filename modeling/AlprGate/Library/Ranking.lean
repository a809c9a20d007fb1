import Mathlib.Data.List.Sort
import AlprGate.Library.Selection

/-! # The best of a list

A sort by descending score that says nothing about ties, cut off behind its first `n` elements.
Which elements stay is decided by how many have a better score, up to ties at the cut.
-/
namespace AlprGate.Ranking
variable {β κ : Type*} [LinearOrder κ]

/-- Whatever a sort does with equal scores. -/
structure Descending (score : β → κ) where
  sort : List β → List β
  perm : ∀ l, (sort l).Perm l
  sorted : ∀ l, (sort l).Pairwise fun a b => score b ≤ score a

theorem pairwise_insertionSort_score (score : β → κ) (l : List β) :
    (l.insertionSort fun a b => score b ≤ score a).Pairwise fun a b => score b ≤ score a := by
  have htotal : Std.Total fun a b : β => score b ≤ score a :=
    ⟨fun a b => le_total (score b) (score a)⟩
  have htrans : IsTrans β fun a b => score b ≤ score a := ⟨fun _ _ _ hab hbc => hbc.trans hab⟩
  exact List.pairwise_insertionSort _ l

/-- The sort that keeps the order of equal scores. -/
def Descending.stable (score : β → κ) : Descending score where
  sort := List.insertionSort fun a b => score b ≤ score a
  perm := List.perm_insertionSort _
  sorted := pairwise_insertionSort_score score

/-- What holds of an element and of every one in front of it holds of a first part of the list. -/
theorem filter_eq_take_countP {p : β → Bool} {l : List β}
    (h : l.Pairwise fun a b => p b = true → p a = true) : l.filter p = l.take (l.countP p) := by
  induction l with
  | nil => rfl
  | cons a l ih =>
    obtain ⟨ha,hl⟩ := List.pairwise_cons.mp h
    cases hp : p a with
    | true =>
      rw [List.filter_cons_of_pos hp, List.countP_cons_of_pos hp, List.take_succ_cons, ih hl]
    | false =>
      have hnone : ∀ b ∈ l, ¬ p b = true := by
        intro b hb hpb
        exact Bool.false_ne_true (hp.symm.trans (ha b hb hpb))
      have hnot : ¬ p a = true := by rw [hp]; exact Bool.false_ne_true
      rw [List.filter_cons_of_neg hnot, List.countP_cons_of_neg hnot,
        List.filter_eq_nil_iff.mpr hnone, List.countP_eq_zero.mpr hnone, List.take_zero]

section Best
variable {score : β → κ} (d : Descending score) {l : List β} {x : β} {n : ℕ}

theorem mem_of_mem_take (h : x ∈ (d.sort l).take n) : x ∈ l :=
  (d.perm l).mem_iff.mp (List.mem_of_mem_take h)

/-- An element with at most `n` scores that are not below its own, itself included, stays. -/
theorem mem_take_of_countP_le (hx : x ∈ l) (hn : l.countP (fun y => score x ≤ score y) ≤ n) :
    x ∈ (d.sort l).take n := by
  have hfirst := filter_eq_take_countP (p:=fun y => decide (score x ≤ score y)) (l:=d.sort l)
    ((d.sorted l).imp fun hab hb =>
      decide_eq_true ((of_decide_eq_true hb).trans hab))
  have hmem : x ∈ (d.sort l).filter fun y => decide (score x ≤ score y) :=
    List.mem_filter.mpr ⟨(d.perm l).mem_iff.mpr hx,decide_eq_true le_rfl⟩
  rw [hfirst, (d.perm l).countP_eq] at hmem
  exact List.take_subset_take_left _ hn hmem

/-- An element that stays has less than `n` better ones. -/
theorem countP_lt_of_mem_take (hx : x ∈ (d.sort l).take n) :
    l.countP (fun y => score x < score y) < n := by
  by_contra hn
  have hfirst := filter_eq_take_countP (p:=fun y => decide (score x < score y)) (l:=d.sort l)
    ((d.sorted l).imp fun hab hb =>
      decide_eq_true ((of_decide_eq_true hb).trans_le hab))
  have hmem := List.take_subset_take_left (d.sort l) (not_lt.mp hn) hx
  rw [← (d.perm l).countP_eq, ← hfirst] at hmem
  exact lt_irrefl _ (of_decide_eq_true (List.mem_filter.mp hmem).2)

end Best

/-- In a list of descending scores a scan ends at the first element. -/
theorem firstMax_of_pairwise {score : β → κ} {x : β} {l : List β}
    (h : (x :: l).Pairwise fun a b => score b ≤ score a) : Selection.FirstMax score (x :: l) x := by
  refine ⟨0,rfl,fun j y hj _ => absurd hj (Nat.not_lt_zero j),?_⟩
  intro y hy
  rcases List.mem_cons.mp hy with rfl | hy
  · exact le_rfl
  · exact (List.pairwise_cons.mp h).1 y hy

end AlprGate.Ranking
