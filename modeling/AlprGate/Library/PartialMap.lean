import Mathlib.Data.Finset.Card
import Mathlib.Data.Finset.Dedup
import Mathlib.Logic.Function.Basic

/-! # Maps with optional values

A map binds some of its keys. Bindings are stored and erased in batches, and a batch
counts its keys once each, however often they are listed.
-/
namespace AlprGate.PartialMap
variable {κ τ : Type*} [DecidableEq κ]

/-- Store bindings in their order, later ones over earlier ones. -/
def putAll (m : κ → Option τ) (bs : List (κ × τ)) : κ → Option τ :=
  bs.foldl (fun m b => Function.update m b.1 (some b.2)) m

def eraseAll (m : κ → Option τ) (ks : List κ) : κ → Option τ :=
  fun k => if k ∈ ks then none else m k

/-- The number of keys in a list that the map does not bind. -/
def fresh (m : κ → Option τ) (ks : List κ) : ℕ :=
  (ks.toFinset.filter fun k => (m k).isNone).card

/-- The number of keys in a list that the map binds. -/
def present (m : κ → Option τ) (ks : List κ) : ℕ :=
  (ks.toFinset.filter fun k => (m k).isSome).card

/-- Counting one element first and the others after it. -/
theorem card_filter_insert (S : Finset κ) (k : κ) (p : κ → Bool) :
    ((insert k S).filter fun x => p x).card =
      (if p k = true then 1 else 0) + (S.filter fun x => x ≠ k ∧ p x = true).card := by
  have hothers : (S.filter fun x => x ≠ k ∧ p x = true) =
      ((insert k S).filter fun x => p x).erase k := by
    ext x
    simp only [Finset.mem_filter, Finset.mem_erase, Finset.mem_insert]
    tauto
  rw [hothers]
  by_cases hk : p k = true
  · have hmem : k ∈ (insert k S).filter fun x => p x :=
      Finset.mem_filter.mpr ⟨Finset.mem_insert_self k S,hk⟩
    have hcard := Finset.card_erase_add_one hmem
    rw [if_pos hk]
    omega
  · have hnot : k ∉ (insert k S).filter fun x => p x := fun h => hk (Finset.mem_filter.mp h).2
    rw [if_neg hk, Finset.erase_eq_of_notMem hnot, Nat.zero_add]

/-- Counting the keys of a list by what is behind them: the first key is counted once, and then
overwritten by something that does not count. -/
theorem card_filter_cons_update (f : Option τ → Bool) {w : Option τ} (hw : f w = false)
    (m : κ → Option τ) (k : κ) (ks : List κ) :
    ((k :: ks).toFinset.filter fun x => f (m x)).card =
      (if f (m k) = true then 1 else 0) +
        (ks.toFinset.filter fun x => f (Function.update m k w x)).card := by
  rw [List.toFinset_cons, card_filter_insert]
  congr 2
  apply Finset.filter_congr
  intro x _
  by_cases hx : x = k
  · subst hx
    simp [hw]
  · simp [hx]

theorem fresh_cons (m : κ → Option τ) (k : κ) (v : τ) (ks : List κ) :
    fresh m (k :: ks) =
      (if (m k).isNone = true then 1 else 0) + fresh (Function.update m k (some v)) ks :=
  card_filter_cons_update Option.isNone rfl m k ks

theorem present_cons (m : κ → Option τ) (k : κ) (ks : List κ) :
    present m (k :: ks) =
      (if (m k).isSome = true then 1 else 0) + present (Function.update m k none) ks :=
  card_filter_cons_update Option.isSome rfl m k ks

theorem fresh_le_length (m : κ → Option τ) (ks : List κ) : fresh m ks ≤ ks.length :=
  (Finset.card_filter_le _ _).trans (List.toFinset_card_le ks)

theorem eraseAll_cons (m : κ → Option τ) (k : κ) (ks : List κ) :
    eraseAll m (k :: ks) = eraseAll (Function.update m k none) ks := by
  funext x
  unfold eraseAll
  by_cases hx : x = k
  · subst hx
    simp
  · simp [hx]

end AlprGate.PartialMap
