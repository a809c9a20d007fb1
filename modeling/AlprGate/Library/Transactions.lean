import Mathlib.Data.List.Basic
import Mathlib.Tactic.Common

/-! # Scripts of statements that may fail

A call on a database carries out statements that its arguments determine, one after the other,
and ends with an exception at the first failure that it notices. A statement that fails changes
nothing. The last part of a script may be guarded: its exceptions roll the database back to where
that part began, unless the rollback fails as well.
-/
namespace AlprGate.Transactions
variable {τ σ ε : Type*}

/-- What statements do to the state, and the exceptions they end a call with; both depend on
whether the statement failed. -/
structure Engine (τ σ ε : Type*) where
  apply : τ → Bool → σ → σ
  raises : τ → Bool → Option ε
  rollbackFailed : ε

/-- `guarded` is the part inside the handler. -/
structure Script (τ : Type*) where
  opening : List τ
  guarded : List τ

def Script.statements (c : Script τ) : List τ := c.opening ++ c.guarded

namespace Engine
variable (E : Engine τ σ ε) (fails : ℕ → Bool)

/-- The exception that ends the run, the state there, and the number of the next statement. -/
def run : ℕ → σ → List τ → Option ε × σ × ℕ
  | k, s, [] => (none, s, k)
  | k, s, t :: ts =>
    match E.raises t (fails k) with
    | some e => (some e, s, k + 1)
    | none => run (k + 1) (E.apply t (fails k) s) ts

/-- A call; the state after it is what the tables hold then. -/
def call (s : σ) (c : Script τ) : Option ε × σ :=
  match E.run fails 0 s c.opening with
  | (some e, s', _) => (some e, s')
  | (none, s₁, k) =>
    match E.run fails k s₁ c.guarded with
    | (none, s', _) => (none, s')
    | (some e, s', k') => if fails k' = true then (some E.rollbackFailed, s') else (some e, s₁)

/-- Where the first exception is, and which. -/
def firstFailure : ℕ → List τ → Option (ℕ × ε)
  | _, [] => none
  | k, t :: ts =>
    match E.raises t (fails k) with
    | some e => some (0, e)
    | none => (firstFailure (k + 1) ts).map fun p => (p.1 + 1, p.2)

/-- The statements without their exceptions. -/
def replay : ℕ → σ → List τ → σ
  | _, s, [] => s
  | k, s, t :: ts => replay (k + 1) (E.apply t (fails k) s) ts

variable {E fails}

/-- A run is the statements before its first failure. -/
theorem run_eq (k : ℕ) (s : σ) (ts : List τ) :
    E.run fails k s ts =
      match E.firstFailure fails k ts with
      | none => (none, E.replay fails k s ts, k + ts.length)
      | some (i, e) => (some e, E.replay fails k s (ts.take i), k + i + 1) := by
  induction ts generalizing k s with
  | nil => rfl
  | cons t ts ih =>
    rw [run, firstFailure]
    cases hraises : E.raises t (fails k) with
    | some e => rfl
    | none =>
      dsimp only
      rw [ih]
      cases E.firstFailure fails (k + 1) ts with
      | none =>
        have hlength : k + 1 + ts.length = k + (t :: ts).length := by
          rw [List.length_cons]
          omega
        simp only [Option.map_none, replay, hlength]
      | some p =>
        have hnext : k + 1 + p.1 + 1 = k + (p.1 + 1) + 1 := by omega
        simp only [Option.map_some, List.take_succ_cons, replay, hnext]

/-- Statements without a failure hand their state on to those that follow. -/
theorem run_append {k : ℕ} {ts : List τ} (h : E.firstFailure fails k ts = none) (s : σ)
    (us : List τ) :
    E.run fails k s (ts ++ us) = E.run fails (k + ts.length) (E.replay fails k s ts) us := by
  induction ts generalizing k s with
  | nil => rfl
  | cons t ts ih =>
    rw [firstFailure] at h
    rw [List.cons_append, run]
    cases hraises : E.raises t (fails k) with
    | some e =>
      rw [hraises] at h
      cases h
    | none =>
      rw [hraises] at h
      dsimp only
      rw [ih (Option.map_eq_none_iff.mp h), replay, List.length_cons, Nat.add_assoc,
        Nat.add_comm 1]

/-- Which statement the first failure is at. -/
theorem firstFailure_eq_some_iff {k : ℕ} {ts : List τ} {i : ℕ} {e : ε} :
    E.firstFailure fails k ts = some (i, e) ↔
      (∃ t, ts[i]? = some t ∧ E.raises t (fails (k + i)) = some e) ∧
        ∀ j t, j < i → ts[j]? = some t → E.raises t (fails (k + j)) = none := by
  induction ts generalizing k i with
  | nil => simp [firstFailure]
  | cons u ts ih =>
    rw [firstFailure]
    cases hraises : E.raises u (fails k) with
    | some e' =>
      constructor
      · intro h
        cases h
        exact ⟨⟨u,rfl,hraises⟩,fun j t hj => absurd hj (Nat.not_lt_zero j)⟩
      · rintro ⟨⟨t,ht,he⟩,hbefore⟩
        cases i with
        | zero =>
          cases ht
          exact congrArg (fun e => some (0, e)) (Option.some.inj (hraises.symm.trans he))
        | succ i =>
          have hnone := hbefore 0 u (Nat.succ_pos i) rfl
          cases hraises.symm.trans hnone
    | none =>
      have hshift : ∀ j, k + 1 + j = k + (j + 1) := by
        intro j
        omega
      cases i with
      | zero =>
        constructor
        · intro h
          obtain ⟨p,_,hp⟩ := Option.map_eq_some_iff.mp h
          cases hp
        · rintro ⟨⟨t,ht,he⟩,_⟩
          cases ht
          cases hraises.symm.trans he
      | succ i =>
        have htail : (E.firstFailure fails (k + 1) ts).map (fun p => (p.1 + 1, p.2)) =
            some (i + 1, e) ↔ E.firstFailure fails (k + 1) ts = some (i, e) := by
          constructor
          · intro h
            obtain ⟨⟨j,e'⟩,hj,hp⟩ := Option.map_eq_some_iff.mp h
            cases hp
            exact hj
          · intro h
            rw [h]
            rfl
        dsimp only
        rw [htail, ih, hshift]
        constructor
        · rintro ⟨hfail,hbefore⟩
          refine ⟨hfail,?_⟩
          intro j t hj ht
          cases j with
          | zero =>
            cases ht
            exact hraises
          | succ j =>
            rw [← hshift]
            exact hbefore j t (Nat.lt_of_succ_lt_succ hj) ht
        · rintro ⟨hfail,hbefore⟩
          refine ⟨hfail,?_⟩
          intro j t hj ht
          rw [hshift]
          exact hbefore (j + 1) t (Nat.succ_lt_succ hj) ht

theorem firstFailure_append (k : ℕ) (ts us : List τ) :
    E.firstFailure fails k (ts ++ us) =
      match E.firstFailure fails k ts with
      | some p => some p
      | none => (E.firstFailure fails (k + ts.length) us).map fun p => (ts.length + p.1, p.2) := by
  induction ts generalizing k with
  | nil => simp [firstFailure]
  | cons t ts ih =>
    rw [List.cons_append, firstFailure, firstFailure]
    cases hraises : E.raises t (fails k) with
    | some e => rfl
    | none =>
      dsimp only
      rw [ih]
      cases E.firstFailure fails (k + 1) ts with
      | some p => rfl
      | none =>
        rw [List.length_cons, Nat.add_assoc, Nat.add_comm 1]
        simp only [Option.map_none, Option.map_map]
        congr 1
        funext p
        simp only [Function.comp_apply, Prod.mk.injEq, and_true]
        omega

theorem firstFailure_lt {k : ℕ} {ts : List τ} {i : ℕ} {e : ε}
    (h : E.firstFailure fails k ts = some (i, e)) : i < ts.length := by
  obtain ⟨⟨t,ht,_⟩,_⟩ := firstFailure_eq_some_iff.mp h
  exact (List.getElem?_eq_some_iff.mp ht).1

theorem replay_append (k : ℕ) (s : σ) (ts us : List τ) :
    E.replay fails k s (ts ++ us) = E.replay fails (k + ts.length) (E.replay fails k s ts) us := by
  induction ts generalizing k s with
  | nil => rfl
  | cons t ts ih =>
    rw [List.cons_append, replay, replay, ih, List.length_cons, Nat.add_assoc, Nat.add_comm 1]

/-- A property of the state that every statement keeps. -/
theorem replay_invariant {I : σ → Prop} {ts : List τ}
    (h : ∀ t ∈ ts, ∀ failed s, I s → I (E.apply t failed s)) (k : ℕ) {s : σ} (hs : I s) :
    I (E.replay fails k s ts) := by
  induction ts generalizing k s with
  | nil => exact hs
  | cons t ts ih =>
    exact ih (fun u hu => h u (List.mem_cons_of_mem t hu)) (k + 1)
      (h t List.mem_cons_self (fails k) s hs)

variable (E fails)

/-- A call that ends with an exception leaves the state related to the one before it exactly if
the exception is rolled back, or the statements before it have left it so. -/
theorem call_atomic_iff {R : σ → σ → Prop} (s : σ) (c : Script τ)
    (hopening : c.guarded ≠ [] → R (E.replay fails 0 s c.opening) s) :
    ((E.call fails s c).1 ≠ none → R (E.call fails s c).2 s) ↔
      ∀ i e, E.firstFailure fails 0 c.statements = some (i, e) →
        (c.opening.length ≤ i ∧ fails (i + 1) = false) ∨
          R (E.replay fails 0 s (c.statements.take i)) s := by
  unfold call Script.statements
  rw [run_eq, firstFailure_append, Nat.zero_add]
  cases hfirst : E.firstFailure fails 0 c.opening with
  | some p =>
    obtain ⟨i,e⟩ := p
    have hi := firstFailure_lt hfirst
    have htake : (c.opening ++ c.guarded).take i = c.opening.take i :=
      List.take_append_of_le_length (Nat.le_of_lt hi)
    constructor
    · intro hatomic j e' hj
      cases hj
      rw [htake]
      exact Or.inr (hatomic (Option.some_ne_none e))
    · intro hcond _
      rcases hcond i e rfl with hrolled | hsame
      · exact absurd hrolled.1 (Nat.not_le_of_lt hi)
      · rwa [htake] at hsame
  | none =>
    dsimp only
    rw [run_eq]
    cases hsecond : E.firstFailure fails c.opening.length c.guarded with
    | none =>
      constructor
      · intro _ i e hfail
        cases hfail
      · intro _ hthrown
        exact absurd rfl hthrown
    | some p =>
      obtain ⟨i,e⟩ := p
      have hi := firstFailure_lt hsecond
      have htake : E.replay fails 0 s ((c.opening ++ c.guarded).take (c.opening.length + i)) =
          E.replay fails c.opening.length (E.replay fails 0 s c.opening) (c.guarded.take i) := by
        rw [List.take_length_add_append, replay_append, Nat.zero_add]
      have hbefore := hopening (List.ne_nil_of_length_pos (Nat.zero_lt_of_lt hi))
      dsimp only
      cases hrollback : fails (c.opening.length + i + 1) with
      | true =>
        constructor
        · intro hatomic j e' hj
          cases hj
          rw [htake]
          exact Or.inr (hatomic (Option.some_ne_none _))
        · intro hcond _
          rcases hcond _ e rfl with hrolled | hsame
          · exact absurd (hrollback.symm.trans hrolled.2) Bool.noConfusion
          · rwa [htake] at hsame
      | false =>
        constructor
        · intro _ j e' hj
          cases hj
          exact Or.inl ⟨Nat.le_add_right _ _,hrollback⟩
        · intro _ _
          exact hbefore

end Engine
end AlprGate.Transactions
