import Mathlib.Data.List.SplitBy
import Mathlib.Tactic.Common

/-! # Maximal runs

A list falls into maximal runs of items with one key. Taking the first item of each run is what a
single pass does that compares each key with the key before it. Where one key is dropped from the
result, its items separate: what is in front of such an item and what is behind it are collapsed
independently.
-/
namespace AlprGate.Runs
variable {α κ : Type*} [DecidableEq κ] (key : α → κ)

/-- The first items of the maximal runs of items with one key. -/
def runHeads (as : List α) : List α := (as.splitBy fun a b => key a == key b).filterMap List.head?

/-- The items with another key than the item before. -/
def changes : Option κ → List α → List α
  | _, [] => []
  | before, a :: as =>
    if before = some (key a) then changes before as else a :: changes (some (key a)) as

theorem changes_cons_of_eq {before : Option κ} {a : α} (h : before = some (key a)) (as : List α) :
    changes key before (a :: as) = changes key before as := if_pos h

theorem changes_cons_of_ne {before : Option κ} {a : α} (h : before ≠ some (key a)) (as : List α) :
    changes key before (a :: as) = a :: changes key (some (key a)) as := if_neg h

section SplitBy
variable {key}

theorem splitBy_cons_cons_of_ne {a b : α} (h : key a ≠ key b) (as : List α) :
    (a :: b :: as).splitBy (fun a b => key a == key b) =
      [a] :: (b :: as).splitBy fun a b => key a == key b :=
  List.splitBy_append_cons (l:=[a]) as (by simpa using h)

/-- An item with the key of its successor joins the first run. -/
theorem splitBy_cons_cons_of_eq {a b : α} (h : key a = key b) {as run : List α}
    {runs : List (List α)}
    (hruns : (b :: as).splitBy (fun a b => key a == key b) = run :: runs) :
    (a :: b :: as).splitBy (fun a b => key a == key b) = (a :: run) :: runs := by
  obtain ⟨hflatten,hnil,hchains,hborders⟩ := List.splitBy_eq_iff.mp hruns
  cases run with
  | nil => exact absurd List.mem_cons_self hnil
  | cons c run =>
    obtain ⟨rfl,_⟩ := List.cons.inj hflatten
    refine List.splitBy_eq_iff.mpr ⟨?_,?_,?_,?_⟩
    · rw [hflatten]
      rfl
    · intro hmem
      rcases List.mem_cons.mp hmem with hhead | htail
      · cases hhead
      · exact hnil (List.mem_cons_of_mem _ htail)
    · refine List.forall_mem_cons.mpr ⟨?_,fun m hm => hchains m (List.mem_cons_of_mem _ hm)⟩
      exact List.isChain_cons_cons.mpr ⟨by simpa using h,hchains _ List.mem_cons_self⟩
    · cases runs with
      | nil => exact List.isChain_singleton _
      | cons next runs =>
        obtain ⟨⟨hne,hne',hborder⟩,hrest⟩ := List.isChain_cons_cons.mp hborders
        refine List.isChain_cons_cons.mpr ⟨⟨List.cons_ne_nil _ _,hne',?_⟩,hrest⟩
        rw [List.getLast_cons hne]
        exact hborder

end SplitBy

/-- The heads of the runs are found in one pass. -/
theorem runHeads_cons (a : α) (as : List α) :
    runHeads key (a :: as) = a :: changes key (some (key a)) as := by
  induction as generalizing a with
  | nil => rfl
  | cons b as ih =>
    unfold runHeads at ih ⊢
    by_cases hkey : key a = key b
    · rw [changes_cons_of_eq key (congrArg some hkey), hkey]
      have hb := ih b
      cases hruns : (b :: as).splitBy (fun a b => key a == key b) with
      | nil => exact absurd hruns (by simp)
      | cons run runs =>
        rw [splitBy_cons_cons_of_eq hkey hruns]
        rw [hruns] at hb
        cases run with
        | nil =>
          have hmem : [] ∈ (b :: as).splitBy (fun a b => key a == key b) := by
            rw [hruns]
            exact List.mem_cons_self
          exact absurd hmem (List.nil_notMem_splitBy _ _)
        | cons c run =>
          obtain ⟨_,hrest⟩ := List.cons.inj hb
          rw [← hrest]
          rfl
    · rw [changes_cons_of_ne key fun hsame => hkey (Option.some.inj hsame),
        splitBy_cons_cons_of_ne hkey, ← ih b]
      rfl

theorem runHeads_eq (as : List α) : runHeads key as = changes key none as := by
  cases as with
  | nil => rfl
  | cons a as => exact runHeads_cons key a as

/-- The key that the pass compares with behind a list. -/
def lastKey (before : Option κ) (as : List α) : Option κ := (as.getLast?.map key).or before

theorem changes_append (before : Option κ) (as bs : List α) :
    changes key before (as ++ bs) =
      changes key before as ++ changes key (lastKey key before as) bs := by
  induction as generalizing before with
  | nil => rfl
  | cons a as ih =>
    have hlast : lastKey key (some (key a)) as = lastKey key before (a :: as) := by
      cases as with
      | nil => rfl
      | cons b as => simp [lastKey, List.getLast?_cons]
    rw [List.cons_append]
    by_cases hsame : before = some (key a)
    · rw [changes_cons_of_eq key hsame, changes_cons_of_eq key hsame, ih, ← hlast, hsame]
    · rw [changes_cons_of_ne key hsame, changes_cons_of_ne key hsame, ih, hlast]
      rfl

/-- The last run has the key of the last item. -/
theorem getLast?_runHeads (as : List α) :
    (runHeads key as).getLast?.map key = as.getLast?.map key := by
  induction as using List.reverseRecOn with
  | nil => rfl
  | append_singleton as a ih =>
    rw [runHeads_eq, changes_append, ← runHeads_eq]
    by_cases hsame : lastKey key none as = some (key a)
    · have hlast : as.getLast?.map key = some (key a) := by simpa [lastKey] using hsame
      have hnothing : changes key (lastKey key none as) [a] = [] := changes_cons_of_eq key hsame []
      rw [hnothing, List.append_nil, ih, hlast]
      simp
    · rw [changes_cons_of_ne key hsame]
      simp [changes]

section Separator
variable (blank : κ)

/-- The heads of the runs without one key. -/
def kept (as : List α) : List α := (runHeads key as).filter fun a => key a ≠ blank

theorem filter_changes (as : List α) :
    (changes key (some blank) as).filter (fun a => key a ≠ blank) = kept key blank as := by
  unfold kept
  rw [runHeads_eq]
  cases as with
  | nil => rfl
  | cons a as =>
    rw [changes_cons_of_ne key (by simp : none ≠ some (key a))]
    by_cases hblank : key a = blank
    · rw [changes_cons_of_eq key (congrArg some hblank.symm), hblank]
      simp [hblank]
    · rw [changes_cons_of_ne key fun hsame => hblank (Option.some.inj hsame).symm]

/-- An item that is dropped separates. -/
theorem kept_append_cons {z : α} (hz : key z = blank) (as bs : List α) :
    kept key blank (as ++ z :: bs) = kept key blank as ++ kept key blank bs := by
  have hrest : (changes key (lastKey key none as) (z :: bs)).filter (fun a => key a ≠ blank) =
      kept key blank bs := by
    by_cases hsame : lastKey key none as = some (key z)
    · rw [changes_cons_of_eq key hsame, hsame, hz, filter_changes]
    · rw [changes_cons_of_ne key hsame, List.filter_cons_of_neg (by simp [hz]), hz, filter_changes]
  rw [kept, runHeads_eq, changes_append, List.filter_append, hrest, ← runHeads_eq]
  rfl

/-- Two items with one key are both kept if a dropped item is between them. -/
theorem kept_separated {a b z : α} (hz : key z = blank) (hsame : key a = key b)
    (hkept : key b ≠ blank) (as bs : List α) :
    ∃ front a' back, kept key blank (as ++ a :: z :: b :: bs) = front ++ a' :: b :: back ∧
      key a' = key b := by
  have hsplit : as ++ a :: z :: b :: bs = (as ++ [a]) ++ z :: (b :: bs) := by simp
  rw [hsplit, kept_append_cons key blank hz]
  have hlast := getLast?_runHeads key (as ++ [a])
  rw [List.getLast?_concat, Option.map_some] at hlast
  obtain ⟨a',ha',hkey⟩ := Option.map_eq_some_iff.mp hlast
  obtain ⟨front,hfront⟩ := List.getLast?_eq_some_iff.mp ha'
  have hkeep : key a' ≠ blank := by rwa [hkey, hsame]
  refine ⟨front.filter fun a => key a ≠ blank,a',
    (changes key (some (key b)) bs).filter fun a => key a ≠ blank,?_,hkey.trans hsame⟩
  rw [kept, kept, hfront, runHeads_cons, List.filter_append,
    List.filter_cons_of_pos (by simpa using hkeep), List.filter_cons_of_pos (by simpa using hkept)]
  simp

end Separator

end AlprGate.Runs
