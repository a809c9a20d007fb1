import Mathlib.Data.List.Basic
import Mathlib.Tactic.Common

/-! # Registers written by a pending program

A task that still has a list of operations to run will leave a register with the
value of the last operation that writes it. Stating an invariant about this settled
value makes it hold between any two operations, not only when the program is done.
-/
namespace AlprGate.PendingWrites
variable {ω β : Type*}

/-- The value a register will have once the program has run. -/
def settled (w : ω → Option β) (ops : List ω) (b : β) : β :=
  ops.foldl (fun b op => (w op).getD b) b

@[simp] theorem settled_nil (w : ω → Option β) (b : β) : settled w [] b = b := rfl

@[simp] theorem settled_cons (w : ω → Option β) (op : ω) (ops : List ω) (b : β) :
    settled w (op :: ops) b = settled w ops ((w op).getD b) := rfl

@[simp] theorem settled_append (w : ω → Option β) (xs ys : List ω) (b : β) :
    settled w (xs ++ ys) b = settled w ys (settled w xs b) := List.foldl_append

/-- Operations that do not write the register leave it alone. -/
theorem settled_of_none {w : ω → Option β} {ops : List ω} (h : ∀ op ∈ ops, w op = none) (b : β) :
    settled w ops b = b := by
  induction ops generalizing b with
  | nil => rfl
  | cons op ops ih =>
    rw [settled_cons, h op List.mem_cons_self]
    exact ih (fun o ho => h o (List.mem_cons_of_mem _ ho)) _

/-- A register that does not keep its value has a pending write of the value it
settles to. -/
theorem exists_write_of_settled {w : ω → Option β} {ops : List ω} {b c : β}
    (hc : settled w ops b = c) (h : c ≠ b) : ∃ op ∈ ops, w op = some c := by
  subst hc
  induction ops generalizing b with
  | nil => exact absurd rfl h
  | cons op ops ih =>
    rw [settled_cons] at h ⊢
    by_cases hk : settled w ops ((w op).getD b) = (w op).getD b
    · cases hw : w op with
      | none => rw [hw, Option.getD_none] at h hk; exact absurd hk h
      | some c =>
        rw [hw, Option.getD_some] at hk
        exact ⟨op,List.mem_cons_self,by rw [hw, Option.getD_some, hk]⟩
    · obtain ⟨o,ho,hw⟩ := ih hk
      exact ⟨o,List.mem_cons_of_mem _ ho,hw⟩

/-- Two registers that are never both set, at no point of the program. -/
def NeverBoth (u v : ω → Option Bool) : List ω → Bool → Bool → Prop
  | [], a, b => ¬ (a = true ∧ b = true)
  | op :: ops, a, b =>
    ¬ (a = true ∧ b = true) ∧ NeverBoth u v ops ((u op).getD a) ((v op).getD b)

instance decidableNeverBoth (u v : ω → Option Bool) :
    (ops : List ω) → (a b : Bool) → Decidable (NeverBoth u v ops a b)
  | [], a, b => inferInstanceAs (Decidable (¬ (a = true ∧ b = true)))
  | op :: ops, a, b =>
    have := decidableNeverBoth u v ops ((u op).getD a) ((v op).getD b)
    inferInstanceAs (Decidable (¬ (a = true ∧ b = true) ∧ _))

theorem NeverBoth.now {u v : ω → Option Bool} {ops : List ω} {a b : Bool}
    (h : NeverBoth u v ops a b) : ¬ (a = true ∧ b = true) := by
  cases ops with
  | nil => exact h
  | cons op ops => exact h.1

theorem NeverBoth.append {u v : ω → Option Bool} {xs ys : List ω} {a b : Bool}
    (hx : NeverBoth u v xs a b) (hy : NeverBoth u v ys (settled u xs a) (settled v xs b)) :
    NeverBoth u v (xs ++ ys) a b := by
  induction xs generalizing a b with
  | nil => exact hy
  | cons op xs ih => exact ⟨hx.1,ih hx.2 hy⟩

theorem NeverBoth.of_none {u v : ω → Option Bool} {ops : List ω}
    (hu : ∀ op ∈ ops, u op = none) (hv : ∀ op ∈ ops, v op = none) {a b : Bool}
    (h : ¬ (a = true ∧ b = true)) : NeverBoth u v ops a b := by
  induction ops with
  | nil => exact h
  | cons op ops ih =>
    refine ⟨h,?_⟩
    rw [hu op List.mem_cons_self, hv op List.mem_cons_self]
    exact ih (fun o ho => hu o (List.mem_cons_of_mem _ ho)) (fun o ho => hv o (List.mem_cons_of_mem _ ho))

end AlprGate.PendingWrites
