import Mathlib.Data.List.Nodup
import Mathlib.Tactic.Common

/-! # Keyed tables

A table is a list of rows no two of which share their key. Storing a row replaces the
row with its key. What is behind a key is changed by storing and erasing under that
key only.
-/
namespace AlprGate
variable {ρ κ : Type*} [DecidableEq κ]

/-- Rows with a primary key. -/
structure Table (ρ : Type*) {κ : Type*} (key : ρ → κ) where
  rows : List ρ
  unique : (rows.map key).Nodup

namespace Table
variable {key : ρ → κ}

def empty : Table ρ key := ⟨[],List.nodup_nil⟩

/-- The row behind a key. -/
def get? (t : Table ρ key) (k : κ) : Option ρ := t.rows.find? fun r => key r = k

/-- Delete the rows that meet a test. -/
def eraseWhere (t : Table ρ key) (p : ρ → Bool) : Table ρ key where
  rows := t.rows.filter fun r => !p r
  unique := (List.filter_sublist.map key).nodup t.unique

def erase (t : Table ρ key) (k : κ) : Table ρ key := t.eraseWhere fun r => key r = k

theorem key_notMem_erase (t : Table ρ key) (k : κ) : k ∉ (t.erase k).rows.map key := by
  intro h
  obtain ⟨r,hr,hk⟩ := List.mem_map.mp h
  have hp := (List.mem_filter.mp hr).2
  simp [hk] at hp

/-- Insert a row, or replace the row that has its key. -/
def upsert (t : Table ρ key) (r : ρ) : Table ρ key where
  rows := (t.erase (key r)).rows ++ [r]
  unique := by
    rw [List.map_append]
    have hnew := t.key_notMem_erase (key r)
    exact List.nodup_append_comm.mp (List.nodup_cons.mpr ⟨hnew,(t.erase (key r)).unique⟩)

/-- Insert a row unless its key is taken. -/
def insertIgnore (t : Table ρ key) (r : ρ) : Table ρ key :=
  if h : key r ∈ t.rows.map key then t
  else
    { rows := t.rows ++ [r]
      unique := by
        rw [List.map_append]
        exact List.nodup_append_comm.mp (List.nodup_cons.mpr ⟨h,t.unique⟩) }

theorem get?_eraseWhere_of_forall {t : Table ρ key} {p : ρ → Bool} {k : κ}
    (h : ∀ r, key r = k → p r = false) : (t.eraseWhere p).get? k = t.get? k := by
  unfold get? eraseWhere
  rw [List.find?_filter]
  congr 1
  funext r
  by_cases hk : key r = k
  · simp [hk, h r hk]
  · simp [hk]

theorem get?_erase_self (t : Table ρ key) (k : κ) : (t.erase k).get? k = none := by
  refine List.find?_eq_none.mpr ?_
  intro r hr hk
  have hmem : key r ∈ (t.erase k).rows.map key := List.mem_map_of_mem hr
  rw [of_decide_eq_true hk] at hmem
  exact t.key_notMem_erase k hmem

theorem get?_erase_other {t : Table ρ key} {k k' : κ} (h : k' ≠ k) :
    (t.erase k).get? k' = t.get? k' := by
  refine get?_eraseWhere_of_forall ?_
  intro r hr
  rw [hr]
  exact decide_eq_false h

@[simp] theorem get?_upsert_self (t : Table ρ key) (r : ρ) : (t.upsert r).get? (key r) = some r := by
  have hnone := t.get?_erase_self (key r)
  unfold get? at hnone ⊢
  rw [upsert, List.find?_append, hnone]
  simp

theorem get?_upsert_other {t : Table ρ key} {r : ρ} {k : κ} (h : k ≠ key r) :
    (t.upsert r).get? k = t.get? k := by
  have hsame := get?_erase_other (t:=t) h
  unfold get? at hsame ⊢
  rw [upsert, List.find?_append, hsame]
  have hr : List.find? (fun r' => decide (key r' = k)) [r] = none := by
    simp [h.symm]
  rw [hr, Option.or_none]

theorem mem_of_get? {t : Table ρ key} {k : κ} {r : ρ} (h : t.get? k = some r) :
    r ∈ t.rows ∧ key r = k := by
  have htest := List.find?_some h
  exact ⟨List.mem_of_find?_eq_some h,of_decide_eq_true htest⟩

/-- A row of the table is what its key finds. -/
theorem get?_of_mem {t : Table ρ key} {r : ρ} (h : r ∈ t.rows) : t.get? (key r) = some r := by
  cases hget : t.get? (key r) with
  | none =>
    have hnone := List.find?_eq_none.mp hget r h
    simp at hnone
  | some r' =>
    obtain ⟨hmem,hkey⟩ := mem_of_get? hget
    rw [List.inj_on_of_nodup_map t.unique hmem h hkey]

theorem mem_insertIgnore (hkey : Function.Injective key) (t : Table ρ key) (r r' : ρ) :
    r' ∈ (t.insertIgnore r).rows ↔ r' ∈ t.rows ∨ r' = r := by
  unfold insertIgnore
  split
  · rename_i h
    obtain ⟨r₀,hr₀,hk⟩ := List.mem_map.mp h
    rw [hkey hk] at hr₀
    constructor
    · exact Or.inl
    · rintro (h | rfl)
      · exact h
      · exact hr₀
  · simp

/-- A table whose key is the whole row is a set of rows. -/
theorem mem_foldl_insertIgnore (hkey : Function.Injective key) (t : Table ρ key) (rs : List ρ)
    (r' : ρ) : r' ∈ (rs.foldl insertIgnore t).rows ↔ r' ∈ t.rows ∨ r' ∈ rs := by
  induction rs generalizing t with
  | nil => simp
  | cons r rs ih =>
    rw [List.foldl_cons, ih, mem_insertIgnore hkey, List.mem_cons, or_assoc]

end Table
end AlprGate
