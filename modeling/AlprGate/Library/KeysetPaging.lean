import Mathlib.Data.Finset.Sort

/-! # Paging by key

A scan reads a set of keys page by page. Every page holds the least keys above a cursor,
and a page that leaves some out moves the cursor to its last key. The set may change
between two pages. Nothing is returned twice, and what is in the set at every page is not
left out.
-/
namespace AlprGate.KeysetPaging
variable {α : Type*} [LinearOrder α]

/-- The keys above a cursor, in ascending order. -/
def above (S : Finset α) (c : α) : List α := (S.filter fun k => c < k).sort (· ≤ ·)

/-- A scan from a cursor: the sets it has met with the pages it has returned, and whether it has
come to its end. -/
inductive Scan (limit : ℕ) : α → List (Finset α × List α) → Bool → Prop
  | pause (c : α) : Scan limit c [] false
  | last {c : α} {S : Finset α} (h : (above S c).length ≤ limit) :
      Scan limit c [(S, above S c)] true
  | more {c c' : α} {S : Finset α} {calls : List (Finset α × List α)} {done : Bool}
      (h : limit < (above S c).length) (hcursor : ((above S c).take limit).getLast? = some c')
      (hrest : Scan limit c' calls done) :
      Scan limit c ((S, (above S c).take limit) :: calls) done

/-- The keys of all pages of a scan. -/
def returned (calls : List (Finset α × List α)) : List α := calls.flatMap Prod.snd

section Above
variable {S : Finset α} {c c' k : α} {n : ℕ}

theorem mem_above : k ∈ above S c ↔ k ∈ S ∧ c < k := by
  rw [above, Finset.mem_sort, Finset.mem_filter]

theorem above_pairwise (S : Finset α) (c : α) : (above S c).Pairwise (· < ·) :=
  (Finset.sortedLT_sort _).pairwise

/-- The cursor is the greatest key of its page. -/
theorem le_of_mem_take (hcursor : ((above S c).take n).getLast? = some c')
    (hk : k ∈ (above S c).take n) : k ≤ c' := by
  obtain ⟨front,hfront⟩ := List.getLast?_eq_some_iff.mp hcursor
  have hsorted := (above_pairwise S c).sublist (List.take_sublist n _)
  rw [hfront] at hk hsorted
  rcases List.mem_append.mp hk with hk | hk
  · exact le_of_lt ((List.pairwise_append.mp hsorted).2.2 k hk c' List.mem_cons_self)
  · exact le_of_eq (List.mem_singleton.mp hk)

/-- What a page leaves out is above its cursor. -/
theorem mem_take_or_lt (hcursor : ((above S c).take n).getLast? = some c') (hk : k ∈ above S c) :
    k ∈ (above S c).take n ∨ c' < k := by
  have hsorted := above_pairwise S c
  rw [← List.take_append_drop n (above S c)] at hk hsorted
  rcases List.mem_append.mp hk with hk | hk
  · exact Or.inl hk
  · have hlast : c' ∈ (above S c).take n := List.mem_of_getLast? hcursor
    exact Or.inr ((List.pairwise_append.mp hsorted).2.2 c' hlast k hk)

end Above

namespace Scan
variable {limit : ℕ} {c k : α} {calls : List (Finset α × List α)} {done : Bool}

/-- Every key is above the ones returned before it, and above the cursor. -/
theorem ascending (h : Scan limit c calls done) :
    (returned calls).Pairwise (· < ·) ∧ ∀ k ∈ returned calls, c < k := by
  induction h with
  | pause c => exact ⟨List.Pairwise.nil,fun k hk => by cases hk⟩
  | @last c S h =>
    have hall : returned [(S, above S c)] = above S c := List.append_nil _
    rw [hall]
    exact ⟨above_pairwise S c,fun k hk => (mem_above.mp hk).2⟩
  | @more c c' S calls done h hcursor hrest ih =>
    obtain ⟨hsorted,habove⟩ := ih
    have hpage : ∀ k ∈ (above S c).take limit, c < k := fun k hk =>
      (mem_above.mp (List.mem_of_mem_take hk)).2
    have hall : returned ((S, (above S c).take limit) :: calls) =
        (above S c).take limit ++ returned calls := rfl
    rw [hall]
    refine ⟨List.pairwise_append.mpr ⟨?_,hsorted,?_⟩,?_⟩
    · exact (above_pairwise S c).sublist (List.take_sublist limit _)
    · intro a ha b hb
      exact lt_of_le_of_lt (le_of_mem_take hcursor ha) (habove b hb)
    · intro k hk
      rcases List.mem_append.mp hk with hk | hk
      · exact hpage k hk
      · exact lt_trans (hpage c' (List.mem_of_getLast? hcursor)) (habove k hk)

theorem page_length_le (h : Scan limit c calls done) : ∀ p ∈ calls, p.2.length ≤ limit := by
  induction h with
  | pause c =>
    intro p hp
    cases hp
  | last h =>
    intro p hp
    rw [List.mem_singleton.mp hp]
    exact h
  | more h hcursor hrest ih =>
    intro p hp
    rcases List.mem_cons.mp hp with rfl | hp
    · exact List.length_take_le _ _
    · exact ih p hp

/-- A complete scan returns every key that it could meet at each page. -/
theorem complete (h : Scan limit c calls true) (hk : c < k) (hall : ∀ p ∈ calls, k ∈ p.1) :
    k ∈ returned calls := by
  generalize hdone : true = done at h
  induction h with
  | pause c => cases hdone
  | @last c S h =>
    have hmem : k ∈ above S c := mem_above.mpr ⟨hall _ List.mem_cons_self,hk⟩
    exact List.mem_append_left _ hmem
  | @more c c' S calls done h hcursor hrest ih =>
    have hmem : k ∈ above S c := mem_above.mpr ⟨hall _ List.mem_cons_self,hk⟩
    rcases mem_take_or_lt hcursor hmem with hpage | hlater
    · exact List.mem_append_left _ hpage
    · exact List.mem_append_right _
        (ih hlater (fun p hp => hall p (List.mem_cons_of_mem _ hp)) hdone)

/-- Pages hold keys of the sets they were read from. -/
theorem mem_set (h : Scan limit c calls done) : ∀ p ∈ calls, ∀ k ∈ p.2, k ∈ p.1 := by
  induction h with
  | pause c =>
    intro p hp
    cases hp
  | last h =>
    intro p hp k hk
    rw [List.mem_singleton.mp hp] at hk ⊢
    exact (mem_above.mp hk).1
  | more h hcursor hrest ih =>
    intro p hp
    rcases List.mem_cons.mp hp with rfl | hp
    · exact fun k hk => (mem_above.mp (List.mem_of_mem_take hk)).1
    · exact ih p hp

theorem length_returned (h : Scan limit c calls false) :
    (returned calls).length = calls.length * limit := by
  generalize hdone : false = done at h
  induction h with
  | pause c => simp [returned]
  | last h => cases hdone
  | @more c c' S calls done h hcursor hrest ih =>
    have hpage : ((above S c).take limit).length = limit := List.length_take_of_le (le_of_lt h)
    have hall : returned ((S, (above S c).take limit) :: calls) =
        (above S c).take limit ++ returned calls := rfl
    rw [hall, List.length_append, hpage, ih hdone, List.length_cons, Nat.succ_mul, Nat.add_comm]

/-- A scan of a set that does not change is at its end after one page more than the set has
keys. -/
theorem length_le_card (h : Scan limit c calls false) (hlimit : 0 < limit) {S : Finset α}
    (hS : ∀ p ∈ calls, p.1 = S) : calls.length ≤ S.card := by
  have hnodup : (returned calls).Nodup := h.ascending.1.imp ne_of_lt
  have hsub : (returned calls).toFinset ⊆ S := by
    intro k hk
    obtain ⟨p,hp,hkp⟩ := List.mem_flatMap.mp (List.mem_toFinset.mp hk)
    rw [← hS p hp]
    exact h.mem_set p hp k hkp
  calc calls.length ≤ calls.length * limit := Nat.le_mul_of_pos_right _ hlimit
    _ = (returned calls).length := h.length_returned.symm
    _ = (returned calls).toFinset.card := (List.toFinset_card_of_nodup hnodup).symm
    _ ≤ S.card := Finset.card_le_card hsub

end Scan
end AlprGate.KeysetPaging
