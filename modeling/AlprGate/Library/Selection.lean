import Mathlib.Order.Lattice
import Mathlib.Data.List.Basic
import Mathlib.Data.List.Forall2
import Mathlib.Tactic.Common

/-! # Selecting the first best element

A scan that keeps the best index so far and replaces it on a strictly better score
finds the first element of maximal score, provided some score is above the floor that
the scan starts from.
-/
namespace AlprGate.Selection
variable {β κ : Type*} (score : β → κ)

/-- The index of the best element so far and its score, from the `i`-th element on. -/
def scan [LT κ] [DecidableLT κ] : List β → ℕ → Option ℕ → κ → Option ℕ
  | [], _, best, _ => best
  | x :: xs, i, best, bestScore =>
    if bestScore < score x then scan xs (i + 1) (some i) (score x)
    else scan xs (i + 1) best bestScore

variable [LinearOrder κ]

/-- The element is at a place where every earlier score is smaller and no score is
larger. -/
def FirstMax (xs : List β) (x : β) : Prop :=
  ∃ i : ℕ, xs[i]? = some x ∧ (∀ j y, j < i → xs[j]? = some y → score y < score x) ∧
    ∀ y ∈ xs, score y ≤ score x

/-- The scan reads the scores and nothing else of its elements. -/
theorem scan_congr {xs ys : List β} (h : List.Forall₂ (fun x y => score x = score y) xs ys) (i : ℕ)
    (best : Option ℕ) (bestScore : κ) : scan score xs i best bestScore = scan score ys i best bestScore := by
  induction h generalizing i best bestScore with
  | nil => rfl
  | cons hscore _ ih =>
    rw [scan, scan, hscore]
    split
    · exact ih _ _ _
    · exact ih _ _ _

/-- What the scan knows after the elements `xs`. -/
def Leads (floor : κ) (xs : List β) (best : Option ℕ) (bestScore : κ) : Prop :=
  (best = none ∧ bestScore = floor ∧ ∀ y ∈ xs, score y ≤ floor) ∨
  ∃ i x, best = some i ∧ bestScore = score x ∧ floor < score x ∧ xs[i]? = some x ∧
    (∀ j y, j < i → xs[j]? = some y → score y < score x) ∧ ∀ y ∈ xs, score y ≤ score x

variable {score} {floor bestScore : κ} {xs : List β} {best : Option ℕ} {x : β}

theorem Leads.le (h : Leads score floor xs best bestScore) :
    floor ≤ bestScore ∧ ∀ y ∈ xs, score y ≤ bestScore := by
  rcases h with ⟨_,hfloor,hle⟩ | ⟨i,x,_,hscore,hfloor,_,_,hle⟩
  · rw [hfloor]
    exact ⟨le_rfl,hle⟩
  · rw [hscore]
    exact ⟨hfloor.le,hle⟩

/-- A strictly better element takes the lead. -/
theorem Leads.better (h : Leads score floor xs best bestScore) (hx : bestScore < score x) :
    Leads score floor (xs ++ [x]) (some xs.length) (score x) := by
  obtain ⟨hfloor,hle⟩ := h.le
  refine Or.inr ⟨xs.length,x,rfl,rfl,hfloor.trans_lt hx,List.getElem?_concat_length,?_,?_⟩
  · intro j y hj hy
    rw [List.getElem?_append_left hj] at hy
    exact (hle y (List.mem_of_getElem? hy)).trans_lt hx
  · intro y hy
    rcases List.mem_append.mp hy with hy | hy
    · exact ((hle y hy).trans_lt hx).le
    · rw [List.mem_singleton.mp hy]

/-- Any other element leaves the lead where it is. -/
theorem Leads.keep (h : Leads score floor xs best bestScore) (hx : ¬ bestScore < score x) :
    Leads score floor (xs ++ [x]) best bestScore := by
  have hx := not_lt.mp hx
  rcases h with ⟨hbest,hfloor,hle⟩ | ⟨i,x₀,hbest,hscore,hfloor,hi,hbefore,hle⟩
  · refine Or.inl ⟨hbest,hfloor,?_⟩
    intro y hy
    rcases List.mem_append.mp hy with hy | hy
    · exact hle y hy
    · rw [List.mem_singleton.mp hy, ← hfloor]
      exact hx
  · obtain ⟨hlt,_⟩ := List.getElem?_eq_some_iff.mp hi
    refine Or.inr ⟨i,x₀,hbest,hscore,hfloor,?_,?_,?_⟩
    · rw [List.getElem?_append_left hlt]
      exact hi
    · intro j y hj hy
      rw [List.getElem?_append_left (Nat.lt_trans hj hlt)] at hy
      exact hbefore j y hj hy
    · intro y hy
      rcases List.mem_append.mp hy with hy | hy
      · exact hle y hy
      · rw [List.mem_singleton.mp hy, ← hscore]
        exact hx

/-- The loop invariant, carried to the end of the list. -/
theorem Leads.scan (h : Leads score floor xs best bestScore) (ys : List β) :
    ∃ bestScore', Leads score floor (xs ++ ys) (scan score ys xs.length best bestScore)
      bestScore' := by
  induction ys generalizing xs best bestScore with
  | nil => exact ⟨bestScore,by simpa [Selection.scan] using h⟩
  | cons y ys ih =>
    have hsplit : xs ++ y :: ys = (xs ++ [y]) ++ ys := by simp
    rw [hsplit, Selection.scan]
    split
    · rename_i hy
      simpa using ih (h.better hy)
    · rename_i hy
      simpa using ih (h.keep hy)

variable (score floor xs)

/-- A scan from the floor finds the first maximal element above it, or there is none. -/
theorem scan_spec :
    (Selection.scan score xs 0 none floor = none ∧ ∀ y ∈ xs, score y ≤ floor) ∨
    ∃ i x, Selection.scan score xs 0 none floor = some i ∧ xs[i]? = some x ∧
      floor < score x ∧ FirstMax score xs x := by
  have hstart : Leads score floor [] none floor := Or.inl ⟨rfl,rfl,fun _ h => by cases h⟩
  obtain ⟨bestScore',hend⟩ := hstart.scan xs
  rw [List.nil_append, List.length_nil] at hend
  rcases hend with ⟨hbest,_,hle⟩ | ⟨i,x,hbest,_,hfloor,hi,hbefore,hle⟩
  · exact Or.inl ⟨hbest,hle⟩
  · exact Or.inr ⟨i,x,hbest,hi,hfloor,i,hi,hbefore,hle⟩

/-- The element the scan has found. -/
theorem best_spec :
    ((Selection.scan score xs 0 none floor).bind (fun i => xs[i]?) = none ∧
      ∀ y ∈ xs, score y ≤ floor) ∨
    ∃ x, (Selection.scan score xs 0 none floor).bind (fun i => xs[i]?) = some x ∧
      floor < score x ∧ FirstMax score xs x := by
  rcases scan_spec score floor xs with ⟨hscan,hle⟩ | ⟨i,x,hscan,hi,hfloor,hmax⟩
  · rw [hscan]
    exact Or.inl ⟨rfl,hle⟩
  · rw [hscan]
    exact Or.inr ⟨x,hi,hfloor,hmax⟩

variable {score xs}

theorem FirstMax.mem {x : β} (h : FirstMax score xs x) : x ∈ xs := by
  obtain ⟨i,hi,_⟩ := h
  exact List.mem_of_getElem? hi

/-- At most one element is first and maximal. -/
theorem FirstMax.unique {x y : β} (hx : FirstMax score xs x) (hy : FirstMax score xs y) :
    x = y := by
  obtain ⟨i,hi,hbeforei,hlei⟩ := hx
  obtain ⟨j,hj,hbeforej,hlej⟩ := hy
  rcases Nat.lt_trichotomy i j with h | h | h
  · exact absurd (hbeforej i x h hi) (not_lt.mpr (hlei y (List.mem_of_getElem? hj)))
  · rw [h, hj] at hi
    exact (Option.some.inj hi).symm
  · exact absurd (hbeforei j y h hj) (not_lt.mpr (hlej x (List.mem_of_getElem? hi)))

end AlprGate.Selection
