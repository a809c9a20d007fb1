import Mathlib.Data.List.Basic
import Mathlib.Tactic.Common

/-! # Bounded first-in first-out queues

Two policies for a full queue: refuse the element that is offered, or make room for
it by dropping the oldest one. In the second policy capacity zero means no bound.
-/
namespace AlprGate.BoundedQueue
variable {β : Type*}

/-- Append at the tail unless the queue already holds `cap` elements. -/
def offer (cap : ℕ) (q : List β) (x : β) : List β := if q.length < cap then q ++ [x] else q

theorem offer_of_lt {cap : ℕ} {q : List β} (h : q.length < cap) (x : β) :
    offer cap q x = q ++ [x] := if_pos h

theorem subset_offer (cap : ℕ) (q : List β) (x : β) : q ⊆ offer cap q x := by
  intro y hy
  unfold offer
  split
  · exact List.mem_append_left _ hy
  · exact hy

/-- Offer at most one element. -/
def offers (cap : ℕ) (q : List β) : Option β → List β
  | some x => offer cap q x
  | none => q

theorem subset_offers (cap : ℕ) (q : List β) (x : Option β) : q ⊆ offers cap q x := by
  cases x with
  | none => exact List.Subset.refl q
  | some x => exact subset_offer cap q x

/-- With room in the queue the offered element is in it afterwards. -/
theorem mem_offers {cap : ℕ} {q : List β} {x : Option β} {y : β} (hx : x = some y)
    (hq : q.length < cap) : y ∈ offers cap q x := by
  rw [hx, offers, offer_of_lt hq]
  exact List.mem_append_right q List.mem_cons_self

/-- Append at the tail; a full queue loses its head. -/
def pushDrop (cap : ℕ) (q : List β) (x : β) : List β :=
  (if 0 < cap ∧ cap ≤ q.length then q.tail else q) ++ [x]

theorem pushDrop_sublist (cap : ℕ) (q : List β) (x : β) : (pushDrop cap q x).Sublist (q ++ [x]) := by
  unfold pushDrop
  split
  · exact (List.tail_sublist q).append_right [x]
  · exact List.Sublist.refl _

/-- Whatever a run of pushes leaves is a subsequence of what was there and was pushed. -/
theorem foldl_pushDrop_sublist (cap : ℕ) (q xs : List β) :
    (xs.foldl (pushDrop cap) q).Sublist (q ++ xs) := by
  induction xs generalizing q with
  | nil => simp
  | cons x xs ih =>
    have htail := ih (pushDrop cap q x)
    have hhead := (pushDrop_sublist cap q x).append_right xs
    rw [List.append_assoc, List.singleton_append] at hhead
    exact htail.trans hhead

/-- With room nothing is dropped. -/
theorem pushDrop_of_room {cap : ℕ} {q : List β} (h : cap = 0 ∨ q.length < cap) (x : β) :
    pushDrop cap q x = q ++ [x] := by
  rw [pushDrop, if_neg (by omega)]

theorem foldl_pushDrop_of_room {cap : ℕ} {q xs : List β}
    (h : cap = 0 ∨ q.length + xs.length ≤ cap) : xs.foldl (pushDrop cap) q = q ++ xs := by
  induction xs generalizing q with
  | nil => simp
  | cons x xs ih =>
    rw [List.length_cons] at h
    have hroom : cap = 0 ∨ q.length < cap := by omega
    have hlength : (q ++ [x]).length = q.length + 1 := by simp
    rw [List.foldl_cons, pushDrop_of_room hroom, ih (by omega), List.append_assoc]
    rfl

/-- A bounded queue stays within its bound. -/
theorem length_foldl_pushDrop_le {cap : ℕ} (hcap : 0 < cap) {q : List β} (hq : q.length ≤ cap)
    (xs : List β) : (xs.foldl (pushDrop cap) q).length ≤ cap := by
  induction xs generalizing q with
  | nil => exact hq
  | cons x xs ih =>
    refine ih ?_
    unfold pushDrop
    split
    · rw [List.length_append, List.length_tail, List.length_singleton]
      omega
    · rw [List.length_append, List.length_singleton]
      omega

/-- A run of pushes into an empty queue keeps everything exactly if everything fits. -/
theorem sublist_foldl_pushDrop_iff (cap : ℕ) (xs : List β) :
    xs.Sublist (xs.foldl (pushDrop cap) []) ↔ cap = 0 ∨ xs.length ≤ cap := by
  constructor
  · intro hsub
    rcases Nat.eq_zero_or_pos cap with hzero | hpos
    · exact Or.inl hzero
    · have hbound := length_foldl_pushDrop_le hpos (q:=[]) (Nat.zero_le cap) xs
      exact Or.inr (Nat.le_trans hsub.length_le hbound)
  · intro hroom
    have hfits : cap = 0 ∨ ([] : List β).length + xs.length ≤ cap := by simpa using hroom
    have hall := foldl_pushDrop_of_room hfits
    rw [hall, List.nil_append]

/-- What a push takes out of a full queue. -/
def evicted (cap : ℕ) (q : List β) : List β := if 0 < cap ∧ cap ≤ q.length then q.take 1 else []

theorem evicted_append_pushDrop (cap : ℕ) (q : List β) (x : β) :
    evicted cap q ++ pushDrop cap q x = q ++ [x] := by
  unfold evicted pushDrop
  split
  · rw [← List.append_assoc, ← List.drop_one, List.take_append_drop]
  · rfl

theorem length_evicted (cap : ℕ) (q : List β) :
    (evicted cap q).length = if 0 < cap ∧ cap ≤ q.length then 1 else 0 := by
  unfold evicted
  split
  · rename_i h
    rw [List.length_take]
    omega
  · rfl

/-- The books of a queue: what was pushed has been taken, is queued or was dropped, and what
was not dropped is in order. -/
structure Account (pushed taken q lost : List β) : Prop where
  order : (taken ++ q).Sublist pushed
  perm : (taken ++ q ++ lost).Perm pushed

theorem Account.start (q : List β) : Account q [] q [] where
  order := List.Sublist.refl q
  perm := by simp

variable {pushed taken q lost : List β}

open scoped List in
theorem Account.push (h : Account pushed taken q lost) (cap : ℕ) (x : β) :
    Account (pushed ++ [x]) taken (pushDrop cap q x) (lost ++ evicted cap q) where
  order := by
    have hpush := (pushDrop_sublist cap q x).append_left taken
    rw [← List.append_assoc] at hpush
    exact hpush.trans (h.order.append_right [x])
  perm := by
    have hpush : pushDrop cap q x ++ evicted cap q ~ q ++ [x] := by
      rw [← evicted_append_pushDrop cap q x]
      exact List.perm_append_comm
    calc taken ++ pushDrop cap q x ++ (lost ++ evicted cap q)
        ~ taken ++ (pushDrop cap q x ++ evicted cap q) ++ lost := by
          simp only [List.append_assoc]
          exact (List.perm_append_comm.append_left _).append_left _
      _ ~ taken ++ (q ++ [x]) ++ lost := (hpush.append_left taken).append_right lost
      _ ~ taken ++ q ++ lost ++ [x] := by
          simp only [List.append_assoc]
          exact (List.perm_append_comm.append_left _).append_left _
      _ ~ pushed ++ [x] := h.perm.append_right [x]

/-- Taking from the head. -/
theorem Account.take (h : Account pushed taken q lost) (n : ℕ) :
    Account pushed (taken ++ q.take n) (q.drop n) lost := by
  have hsame : taken ++ q.take n ++ q.drop n = taken ++ q := by
    rw [List.append_assoc, List.take_append_drop]
  refine ⟨?_,?_⟩
  · rw [hsame]
    exact h.order
  · rw [hsame]
    exact h.perm

/-- Append at the tail; at its capacity the ring loses its oldest element. -/
def pushRing (cap : ℕ) (q : List β) (x : β) : List β := (if q.length = cap then q.tail else q) ++ [x]

theorem pushRing_suffix (cap : ℕ) {q xs : List β} (h : q <:+ xs) (x : β) :
    pushRing cap q x <:+ xs ++ [x] := by
  have hpush : ∀ r, r <:+ xs → r ++ [x] <:+ xs ++ [x] := by
    rintro r ⟨front,rfl⟩
    exact ⟨front,by rw [List.append_assoc]⟩
  unfold pushRing
  split
  · exact hpush _ ((List.tail_suffix q).trans h)
  · exact hpush _ h

/-- The ring holds the last elements pushed, up to its capacity. -/
theorem pushRing_last {cap : ℕ} (hcap : 0 < cap) (xs : List β) (x : β) :
    pushRing cap (xs.drop (xs.length - cap)) x = (xs ++ [x]).drop ((xs ++ [x]).length - cap) := by
  have hlength : (xs ++ [x]).length = xs.length + 1 := by simp
  have hle : xs.length + 1 - cap ≤ xs.length := by omega
  rw [pushRing, hlength, List.drop_append_of_le_length hle, List.length_drop]
  by_cases hfull : cap ≤ xs.length
  · have hsucc : xs.length + 1 - cap = xs.length - cap + 1 := by omega
    rw [if_pos (by omega), List.tail_drop, hsucc]
  · have hzero : xs.length + 1 - cap = xs.length - cap := by omega
    rw [if_neg (by omega), hzero]

end AlprGate.BoundedQueue
