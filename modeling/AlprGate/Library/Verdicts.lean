import Mathlib.Data.List.Forall2
import Mathlib.Tactic.Common
import AlprGate.Library.JsonValue

/-! # Verdicts on the fields of an input

A reader goes through the fields of an input and stops at the first one it cannot read. Each field
has a verdict of its own: it is read as what it says, it is read as something else, it is rejected
in the way callers are told to expect, or something else is thrown. How the reader ends, and whether
its result is what the input says, follows from the list of verdicts in reading order.
-/
namespace AlprGate.Verdicts
open JsonValue

inductive Verdict where
  | fits
  | altered
  | rejected
  | escapes
  deriving DecidableEq, Repr

def Verdict.stops : Verdict → Bool
  | .rejected | .escapes => true
  | .fits | .altered => false

/-- The reading stops at a rejection, or no field stops it or is altered. -/
def FailClosed (vs : List Verdict) : Prop :=
  vs.find? Verdict.stops = some .rejected ∨ ∀ v ∈ vs, v = .fits

instance (vs : List Verdict) : Decidable (FailClosed vs) := inferInstanceAs (Decidable (_ ∨ _))

section Readers
variable {ε : Type} {α β δ : Type} (handled : ε → Prop)

/-- A reader ends as the first verdict that stops it says, or reads to the end. -/
def Ends (vs : List Verdict) (r : Except ε α) : Prop :=
  match vs.find? Verdict.stops with
  | none => ∃ a, r = .ok a
  | some v => ∃ e, r = .error e ∧ (handled e ↔ v = .rejected)

/-- A reader ends as the verdicts say, and what it has read is right if none of them is
`altered`. -/
structure Judged (vs : List Verdict) (r : Except ε α) (C : α → Prop) : Prop where
  ends : Ends handled vs r
  carried : ∀ a, r = .ok a → (C a ↔ .altered ∉ vs)

variable {handled}

theorem Ends.of_ok {vs : List Verdict} {a : α} (h : ∀ v ∈ vs, v.stops = false) :
    Ends handled vs (.ok a : Except ε α) := by
  have hnone : vs.find? Verdict.stops = none := by
    rw [List.find?_eq_none]
    intro v hv
    rw [h v hv]
    exact Bool.false_ne_true
  unfold Ends
  rw [hnone]
  exact ⟨a,rfl⟩

theorem Ends.bind {vs ws : List Verdict} {x : Except ε α} {f : α → Except ε β}
    (hx : Ends handled vs x) (hf : ∀ a, Ends handled ws (f a)) :
    Ends handled (vs ++ ws) (x >>= f) := by
  unfold Ends at hx ⊢
  rw [List.find?_append]
  cases hfirst : vs.find? Verdict.stops with
  | some v =>
    rw [hfirst] at hx
    obtain ⟨e,rfl,he⟩ := hx
    exact ⟨e,rfl,he⟩
  | none =>
    rw [hfirst] at hx
    obtain ⟨a,rfl⟩ := hx
    exact hf a

/-- What is made of the values read does not matter. -/
theorem Ends.map {vs : List Verdict} {x : Except ε α} (hx : Ends handled vs x) (g : α → β) :
    Ends handled vs (x >>= fun a => .ok (g a)) := by
  have hdone := hx.bind fun a => (Ends.of_ok fun v hv => absurd hv List.not_mem_nil :
    Ends handled [] (.ok (g a) : Except ε β))
  rw [List.append_nil] at hdone
  exact hdone

/-- A field in front of the rest. -/
theorem Ends.cons {v : Verdict} {vs : List Verdict} {x : Except ε α} {f : α → Except ε β}
    (hx : Ends handled [v] x) (hf : ∀ a, Ends handled vs (f a)) :
    Ends handled (v :: vs) (x >>= f) := Ends.bind hx hf

theorem altered_notMem_append {vs ws : List Verdict} :
    .altered ∉ vs ++ ws ↔ .altered ∉ vs ∧ .altered ∉ ws := by
  rw [List.mem_append, not_or]

theorem Judged.of_ok {v : Verdict} {a : α} {C : α → Prop} (hstops : v.stops = false)
    (hC : C a ↔ v ≠ .altered) : Judged handled [v] (.ok a) C where
  ends := Ends.of_ok (by simpa using hstops)
  carried := by
    intro b hb
    cases hb
    rw [hC]
    simp [eq_comm]

theorem Judged.of_error {v : Verdict} {vs : List Verdict} {e : ε} {C : α → Prop}
    (hstops : v.stops = true) (he : handled e ↔ v = .rejected) :
    Judged handled (v :: vs) (.error e) C where
  ends := by
    unfold Ends
    rw [List.find?_cons_of_pos hstops]
    exact ⟨e,rfl,he⟩
  carried := by
    intro a ha
    cases ha

/-- The rule: a reader with verdicts either fails as expected or reads what the input says,
exactly if its verdicts say so. -/
theorem Judged.failClosed_iff {vs : List Verdict} {r : Except ε α} {C : α → Prop}
    (h : Judged handled vs r C) :
    ((∃ e, r = .error e ∧ handled e) ∨ ∃ a, r = .ok a ∧ C a) ↔ FailClosed vs := by
  have hends := h.ends
  unfold Ends at hends
  unfold FailClosed
  cases hfirst : vs.find? Verdict.stops with
  | some v =>
    rw [hfirst] at hends
    obtain ⟨e,rfl,he⟩ := hends
    have hstops : v.stops = true := List.find?_some hfirst
    have hnot : ¬ ∀ w ∈ vs, w = Verdict.fits := by
      intro hall
      rw [hall v (List.mem_of_find?_eq_some hfirst)] at hstops
      cases hstops
    constructor
    · rintro (⟨e',he',hhandled⟩ | ⟨a,ha,_⟩)
      · cases he'
        exact Or.inl (congrArg some (he.mp hhandled))
      · cases ha
    · rintro (hrejected | hall)
      · exact Or.inl ⟨e,rfl,he.mpr (Option.some.inj hrejected)⟩
      · exact absurd hall hnot
  | none =>
    rw [hfirst] at hends
    obtain ⟨a,rfl⟩ := hends
    have hcarried := h.carried a rfl
    have hall : (∀ v ∈ vs, v = Verdict.fits) ↔ Verdict.altered ∉ vs := by
      constructor
      · intro hfits hmem
        cases hfits _ hmem
      · intro hnot v hv
        have hstops := List.find?_eq_none.mp hfirst v hv
        cases v with
        | fits => rfl
        | altered => exact absurd hv hnot
        | rejected => exact absurd rfl hstops
        | escapes => exact absurd rfl hstops
    constructor
    · rintro (⟨e,he,_⟩ | ⟨a',ha,hC⟩)
      · cases he
      · cases ha
        exact Or.inr (hall.mpr (hcarried.mp hC))
    · rintro (hrejected | hfits)
      · cases hrejected
      · exact Or.inr ⟨a,rfl,hcarried.mpr (hall.mp hfits)⟩

/-- A loop over the items of an array, with the index of each. -/
def readItems (read : ℕ → δ → Except ε α) : ℕ → List δ → Except ε (List α)
  | _, [] => .ok []
  | i, d :: ds => do
    let a ← read i d
    let as ← readItems read (i + 1) ds
    .ok (a :: as)

theorem judged_readItems {read : ℕ → δ → Except ε α} {verdicts : δ → List Verdict}
    {C : δ → α → Prop} (hread : ∀ i d, Judged handled (verdicts d) (read i d) (C d))
    (i : ℕ) (ds : List δ) :
    Judged handled (ds.flatMap verdicts) (readItems read i ds) (List.Forall₂ C ds) := by
  induction ds generalizing i with
  | nil =>
    constructor
    · exact Ends.of_ok fun v hv => absurd hv List.not_mem_nil
    · intro as h
      cases h
      exact iff_of_true List.Forall₂.nil List.not_mem_nil
  | cons d ds ih =>
    rw [List.flatMap_cons]
    constructor
    · exact (hread i d).ends.bind fun a => (ih (i + 1)).ends.map (a :: ·)
    · intro out hout
      obtain ⟨a,ha,hout⟩ := bind_eq_ok.mp hout
      obtain ⟨as,has,hout⟩ := bind_eq_ok.mp hout
      cases hout
      rw [List.forall₂_cons, altered_notMem_append, (hread i d).carried a ha,
        (ih (i + 1)).carried as has]

end Readers

end AlprGate.Verdicts
