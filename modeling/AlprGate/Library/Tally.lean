import Mathlib.Data.List.Basic
import Mathlib.Data.List.Perm.Subperm
import Mathlib.Data.List.Range
import Mathlib.Tactic.Common

/-! # Counting what has happened

Events are counted by going over a list of the places where they can happen, each of which is listed
once. One place changes at a time, and what is known of some of the places bounds what is true of all.
-/
namespace AlprGate.Tally
variable {α : Type*} {p q : α → Bool} {l l₁ l₂ : List α}

/-- One place changes its answer. -/
theorem countP_update [DecidableEq α] {a : α} (hl : l.Nodup) (ha : a ∈ l)
    (hothers : ∀ b ∈ l, b ≠ a → q b = p b) (hp : p a = false) :
    l.countP q = l.countP p + if q a = true then 1 else 0 := by
  have hsplit := List.perm_cons_erase ha
  rw [hsplit.countP_eq q, hsplit.countP_eq p, List.countP_cons, List.countP_cons, hp,
    if_neg Bool.false_ne_true, Nat.add_zero]
  congr 1
  refine List.countP_congr fun b hb => ?_
  have hmem := (hl.mem_erase_iff).mp hb
  rw [hothers b hmem.2 hmem.1]

/-- Of the places that are not known each counts at most once. -/
theorem countP_add_length_le (h : l₁.Subperm l₂) (p : α → Bool) :
    l₂.countP p + l₁.length ≤ l₁.countP p + l₂.length := by
  have hnot := h.countP_le fun a => !p a
  have hall₁ := List.length_eq_countP_add_countP p (l:=l₁)
  have hall₂ := List.length_eq_countP_add_countP p (l:=l₂)
  have hflip : ∀ l : List α, l.countP (fun a => ¬ p a) = l.countP fun a => !p a := by
    intro l
    refine List.countP_congr fun a _ => ?_
    simp
  rw [hflip] at hall₁ hall₂
  omega

/-- Different numbers below a bound are at most as many. -/
theorem length_le_of_nodup {l : List ℕ} {n : ℕ} (hl : l.Nodup) (hlt : ∀ i ∈ l, i < n) :
    l.length ≤ n := by
  have hsub := List.subperm_of_subset hl fun i hi => List.mem_range.mpr (hlt i hi)
  exact hsub.length_le.trans_eq List.length_range

end AlprGate.Tally
