import Mathlib.Data.Set.Finite.Basic
import AlprGate.Library.PartialMap
import AlprGate.Server.AllowlistHistory

/-! # The store is a map

Three tables and their cascades behave as one map from sites and normalized plates to the
terms of an entry. The counts that the calls return are those of the map, and no row of a
class or a window outlives the entry it was written for.
-/
namespace AlprGate.Auth
open Transition PartialMap

/-- Terms by site and normalized plate. -/
abbrev Registry := Text × Text → Option Terms

inductive StoreCall where
  | upsert (siteId : Text) (entries : List Allowlistentry)
  | remove (siteId : Text) (plateTexts : List Text)
  | lookup (siteId plateText : Text)
  deriving DecidableEq, Repr

inductive Answer where
  | upserted (r : Except String UpsertStats)
  | removed (count : ℕ)
  | found (t : Option Terms)

/-- The key under which a plate is stored. -/
def plateKey (siteId raw : Text) : Text × Text := (siteId, normalizePlate raw)

def Allowlistentry.binding (siteId : Text) (e : Allowlistentry) : (Text × Text) × Terms :=
  (plateKey siteId e.plateText, e.terms)

namespace Registry

/-- One entry without a plate fails the batch. Otherwise the keys that are new are inserted, and
all other entries update. -/
def upsert (m : Registry) (siteId : Text) (entries : List Allowlistentry) :
    Except String UpsertStats × Registry :=
  if Accepted entries then
    let new := fresh m (entries.map fun e => plateKey siteId e.plateText)
    (.ok ⟨new,entries.length - new⟩, putAll m (entries.map (Allowlistentry.binding siteId)))
  else (.error "upsert: plate_text is empty after normalization", m)

def call (m : Registry) : StoreCall → Answer × Registry
  | .upsert siteId entries => (.upserted (m.upsert siteId entries).1, (m.upsert siteId entries).2)
  | .remove siteId plateTexts =>
    (.removed (present m (plateTexts.map (plateKey siteId))),
      eraseAll m (plateTexts.map (plateKey siteId)))
  | .lookup siteId plateText => (.found (m (plateKey siteId plateText)), m)

end Registry

namespace AllowlistStore

def call (s : AllowlistStore) : StoreCall → Answer × AllowlistStore
  | .upsert siteId entries => (.upserted (s.upsert siteId entries).1, (s.upsert siteId entries).2)
  | .remove siteId plateTexts =>
    (.removed (s.remove siteId plateTexts).1, (s.remove siteId plateTexts).2)
  | .lookup siteId plateText =>
    (.found ((s.lookup siteId plateText).map Allowlistentry.terms), s)

/-- The map that the tables stand for. -/
def registry (s : AllowlistStore) : Registry := fun k => s.behind k.1 k.2

theorem registry_isSome (s : AllowlistStore) (k : Text × Text) :
    (s.registry k).isSome = (s.allowlist.get? k).isSome :=
  Option.isSome_map

theorem registry_upsertEntry (s : AllowlistStore) (siteId : Text) (e : Allowlistentry) :
    (s.upsertEntry siteId e).registry =
      Function.update s.registry (plateKey siteId e.plateText) (some e.terms) := by
  funext k
  obtain ⟨siteId',plate'⟩ := k
  by_cases hkey : siteId' = siteId ∧ plate' = normalizePlate e.plateText
  · obtain ⟨rfl,rfl⟩ := hkey
    have hself := Function.update_self (plateKey siteId' e.plateText) (some e.terms) s.registry
    exact (upsertEntry_self s siteId' e).trans hself.symm
  · have hne : (siteId', plate') ≠ plateKey siteId e.plateText := by
      intro h
      cases h
      exact hkey ⟨rfl,rfl⟩
    rw [Function.update_of_ne hne]
    exact upsertEntry_other s e hkey

theorem upsertLoop_registry (siteId : Text) (s : AllowlistStore) (stats : UpsertStats)
    {entries : List Allowlistentry} (h : Accepted entries) :
    ∃ s', upsertLoop siteId s stats entries =
        .ok (⟨stats.inserted + fresh s.registry (entries.map fun e => plateKey siteId e.plateText),
          stats.updated + (entries.length -
            fresh s.registry (entries.map fun e => plateKey siteId e.plateText))⟩, s') ∧
      s'.registry = putAll s.registry (entries.map (Allowlistentry.binding siteId)) := by
  -- the map changes entry by entry, so a plate that the batch repeats is no longer new
  induction entries generalizing s stats with
  | nil => exact ⟨s,rfl,rfl⟩
  | cons e entries ih =>
    have hplate := h e List.mem_cons_self
    have hrest : Accepted entries := fun e' he' => h e' (List.mem_cons_of_mem e he')
    rw [upsertLoop, if_neg hplate, List.map_cons, fresh_cons s.registry _ e.terms,
      ← registry_upsertEntry]
    have hbound := fresh_le_length (s.upsertEntry siteId e).registry
      (entries.map fun e => plateKey siteId e.plateText)
    rw [List.length_map] at hbound
    have hexisted := s.registry_isSome (plateKey siteId e.plateText)
    change _ = (s.allowlist.get? (siteId, normalizePlate e.plateText)).isSome at hexisted
    obtain ⟨s',hloop,hregistry⟩ := ih (s.upsertEntry siteId e)
      (if (s.registry (plateKey siteId e.plateText)).isSome = true then
        { stats with updated := stats.updated + 1 }
      else { stats with inserted := stats.inserted + 1 }) hrest
    refine ⟨s',?_,?_⟩
    · dsimp only
      rw [← hexisted, hloop, ← Option.not_isSome]
      cases (s.registry (plateKey siteId e.plateText)).isSome with
      | true =>
        simp only [if_true, Bool.not_true, Bool.false_eq_true, if_false, List.length_cons]
        congr 3
        · omega
        · omega
      | false =>
        simp only [if_true, Bool.not_false, Bool.false_eq_true, if_false, List.length_cons]
        congr 3
        · omega
        · omega
    · rw [hregistry, registry_upsertEntry]
      rfl

theorem upsert_registry (s : AllowlistStore) (siteId : Text) (entries : List Allowlistentry) :
    s.registry.upsert siteId entries =
      ((s.upsert siteId entries).1, (s.upsert siteId entries).2.registry) := by
  unfold Registry.upsert upsert
  by_cases h : Accepted entries
  · obtain ⟨s',hloop,hregistry⟩ := upsertLoop_registry siteId s {} h
    rw [if_pos h, hloop]
    simp only [Nat.zero_add, hregistry]
  · rw [if_neg h, upsertLoop_rejected siteId s {} h]

theorem removePlate_registry (siteId : Text) (p : ℕ × AllowlistStore) (raw : Text) :
    (removePlate siteId p raw).1 =
        p.1 + (if (p.2.registry (plateKey siteId raw)).isSome = true then 1 else 0) ∧
      (removePlate siteId p raw).2.registry =
        Function.update p.2.registry (plateKey siteId raw) none := by
  obtain ⟨removed,s⟩ := p
  constructor
  · rw [registry_isSome, removePlate]
    change _ = removed + if (s.allowlist.get? (siteId, normalizePlate raw)).isSome = true then 1 else 0
    cases s.allowlist.get? (siteId, normalizePlate raw) with
    | none => rfl
    | some r => rfl
  · funext k
    obtain ⟨siteId',plate'⟩ := k
    refine (removePlate_behind siteId siteId' plate' (removed,s) raw).trans ?_
    by_cases hkey : siteId = siteId' ∧ normalizePlate raw = plate'
    · obtain ⟨rfl,rfl⟩ := hkey
      rw [if_pos ⟨rfl,rfl⟩]
      exact (Function.update_self (plateKey siteId raw) none s.registry).symm
    · have hne : (siteId', plate') ≠ plateKey siteId raw := by
        intro h
        cases h
        exact hkey ⟨rfl,rfl⟩
      rw [if_neg hkey, Function.update_of_ne hne]
      rfl

theorem foldl_removePlate_registry (siteId : Text) (p : ℕ × AllowlistStore)
    (plateTexts : List Text) :
    (plateTexts.foldl (removePlate siteId) p).1 =
        p.1 + present p.2.registry (plateTexts.map (plateKey siteId)) ∧
      (plateTexts.foldl (removePlate siteId) p).2.registry =
        eraseAll p.2.registry (plateTexts.map (plateKey siteId)) := by
  induction plateTexts generalizing p with
  | nil => exact ⟨rfl,rfl⟩
  | cons raw plateTexts ih =>
    obtain ⟨hcount,hregistry⟩ := removePlate_registry siteId p raw
    obtain ⟨hcounts,hregistries⟩ := ih (removePlate siteId p raw)
    rw [List.foldl_cons, List.map_cons, present_cons, eraseAll_cons, hcounts, hregistries, hcount,
      hregistry]
    exact ⟨Nat.add_assoc _ _ _,rfl⟩

/-- Every call of the store is the call of the map. -/
theorem call_registry (s : AllowlistStore) (c : StoreCall) :
    s.registry.call c = ((s.call c).1, (s.call c).2.registry) := by
  cases c with
  | upsert siteId entries =>
    rw [Registry.call, upsert_registry]
    rfl
  | remove siteId plateTexts =>
    obtain ⟨hcount,hregistry⟩ := foldl_removePlate_registry siteId (0,s) plateTexts
    rw [Nat.zero_add] at hcount
    rw [Registry.call, call, remove, hcount, hregistry]
  | lookup siteId plateText =>
    rw [Registry.call, call, lookup_terms]
    rfl

/-- Every row of a class or a window belongs to a main row. -/
structure Anchored (s : AllowlistStore) : Prop where
  classes : ∀ r ∈ s.classes.rows, (s.allowlist.get? (r.siteId, r.plateText)).isSome
  windows : ∀ r ∈ s.windows, (s.allowlist.get? (r.siteId, r.plateText)).isSome

variable {s : AllowlistStore}

theorem Anchored.upsertEntry (h : Anchored s) (siteId : Text) (e : Allowlistentry) :
    Anchored (s.upsertEntry siteId e) := by
  have hself : (s.upsertEntry siteId e).allowlist.get? (siteId, normalizePlate e.plateText) =
      some (e.toRow siteId (normalizePlate e.plateText)) := Table.get?_upsert_self ..
  have hother : ∀ siteId' plate', (s.allowlist.get? (siteId', plate')).isSome →
      ((s.upsertEntry siteId e).allowlist.get? (siteId', plate')).isSome := by
    intro siteId' plate' hrow
    by_cases hkey : (siteId', plate') = (siteId, normalizePlate e.plateText)
    · rw [hkey, hself]
      rfl
    · have hsame : (s.upsertEntry siteId e).allowlist.get? (siteId', plate') =
          s.allowlist.get? (siteId', plate') := Table.get?_upsert_other hkey
      rw [hsame]
      exact hrow
  constructor
  · intro r hr
    rcases (Table.mem_foldl_insertIgnore ClassRow.key_injective _ _ r).mp hr with hr | hr
    · exact hother _ _ (h.classes r (List.mem_filter.mp hr).1)
    · obtain ⟨c,-,rfl⟩ := List.mem_map.mp hr
      rw [hself]
      rfl
  · intro r hr
    rcases List.mem_append.mp hr with hr | hr
    · exact hother _ _ (h.windows r (List.mem_filter.mp hr).1)
    · obtain ⟨w,-,rfl⟩ := List.mem_map.mp hr
      change ((s.upsertEntry siteId e).allowlist.get? (siteId, normalizePlate e.plateText)).isSome
      rw [hself]
      rfl

/-- A removal takes the rows of the plate along, and the main rows of the others stay. -/
theorem Anchored.removePlate (h : Anchored s) (siteId : Text) (removed : ℕ) (raw : Text) :
    Anchored (removePlate siteId (removed,s) raw).2 := by
  rw [AllowlistStore.removePlate]
  cases s.allowlist.get? (siteId, normalizePlate raw) with
  | none => exact h
  | some row =>
    have hother : ∀ siteId' plate', ¬(siteId' = siteId ∧ plate' = normalizePlate raw) →
        (s.allowlist.get? (siteId', plate')).isSome →
        ((s.allowlist.erase (siteId, normalizePlate raw)).get? (siteId', plate')).isSome := by
      intro siteId' plate' hkey hrow
      rw [Table.get?_erase_other]
      · exact hrow
      · intro heq
        exact hkey (Prod.mk.injEq .. ▸ heq)
    constructor
    · intro r hr
      obtain ⟨hmem,htest⟩ := List.mem_filter.mp hr
      exact hother _ _ (not_and_or.mpr (by simpa using htest)) (h.classes r hmem)
    · intro r hr
      obtain ⟨hmem,htest⟩ := List.mem_filter.mp hr
      exact hother _ _ (not_and_or.mpr (by simpa using htest)) (h.windows r hmem)

theorem Anchored.call (h : Anchored s) (c : StoreCall) : Anchored (s.call c).2 := by
  cases c with
  | upsert siteId entries =>
    rw [AllowlistStore.call, upsert_state]
    split
    · exact exec_invariant (I:=Anchored) (fun _ e ht => ht.upsertEntry siteId e) entries h
    · exact h
  | remove siteId plateTexts =>
    refine exec_invariant (I:=fun p : ℕ × AllowlistStore => Anchored p.2) ?_ plateTexts h
    rintro ⟨removed,t⟩ raw ht
    exact ht.removePlate siteId removed raw
  | lookup siteId plateText => exact h

theorem Anchored.class_row (h : Anchored s) {r : ClassRow} (hr : r ∈ s.classes.rows) :
    ∃ t, s.registry (r.siteId, r.plateText) = some t ∧ ⟨r.vehicleClass⟩ ∈ t.classes := by
  obtain ⟨row,hrow⟩ := Option.isSome_iff_exists.mp (h.classes r hr)
  refine ⟨_,by rw [registry, behind, hrow]; rfl,?_⟩
  exact List.mem_toFinset.mpr ((s.mem_classesOf r.siteId r.plateText ⟨r.vehicleClass⟩).mpr hr)

theorem Anchored.window_row (h : Anchored s) {r : WindowRow} (hr : r ∈ s.windows) :
    ∃ t, s.registry (r.siteId, r.plateText) = some t ∧ r.toWindow ∈ t.windows := by
  obtain ⟨row,hrow⟩ := Option.isSome_iff_exists.mp (h.windows r hr)
  refine ⟨_,by rw [registry, behind, hrow]; rfl,?_⟩
  change r.toWindow ∈ (s.windowsOf r.siteId r.plateText : Multiset TimeWindow)
  rw [coe_windowsOf]
  exact List.mem_map_of_mem (List.mem_filter.mpr ⟨hr,by simp⟩)

theorem finite_registry (s : AllowlistStore) : {k | (s.registry k).isSome}.Finite := by
  refine (s.allowlist.rows.map AllowlistRow.key).finite_toSet.subset ?_
  intro k hk
  change (s.registry k).isSome = true at hk
  rw [registry_isSome] at hk
  obtain ⟨r,hr⟩ := Option.isSome_iff_exists.mp hk
  obtain ⟨hmem,hkey⟩ := Table.mem_of_get? hr
  exact List.mem_map.mpr ⟨r,hmem,hkey⟩

theorem upsert_counts {siteId : Text} {entries : List Allowlistentry} {stats : UpsertStats}
    (h : (s.upsert siteId entries).1 = .ok stats) :
    stats.inserted + stats.updated = entries.length := by
  have hregistry := congrArg Prod.fst (s.upsert_registry siteId entries)
  rw [h, Registry.upsert] at hregistry
  split at hregistry
  · cases hregistry
    have hbound := fresh_le_length s.registry (entries.map fun e => plateKey siteId e.plateText)
    rw [List.length_map] at hbound
    exact Nat.add_sub_cancel' hbound
  · cases hregistry

theorem lookup_plateText {siteId plateText : Text} {e : Allowlistentry}
    (h : s.lookup siteId plateText = some e) : e.plateText = normalizePlate plateText := by
  obtain ⟨r,hr,rfl⟩ := Option.map_eq_some_iff.mp h
  obtain ⟨-,hkey⟩ := Table.mem_of_get? hr
  exact congrArg Prod.snd hkey

/-- The store answers every sequence of calls as a finite map does. The rows of classes and
windows are those of the terms that are stored now, a batch is counted entry by entry, and a
batch that fails leaves every table as it was. -/
theorem store_answers_as_map (calls : List StoreCall) :
    let s := final AllowlistStore.call {} calls
    let m := final Registry.call (fun _ => none) calls
    outputs AllowlistStore.call {} calls = outputs Registry.call (fun _ => none) calls ∧
    {k | (m k).isSome}.Finite ∧
    (∀ r ∈ s.classes.rows, ∃ t, m (r.siteId, r.plateText) = some t ∧
      ⟨r.vehicleClass⟩ ∈ t.classes) ∧
    (∀ r ∈ s.windows, ∃ t, m (r.siteId, r.plateText) = some t ∧ r.toWindow ∈ t.windows) ∧
    (∀ siteId entries stats, (s.upsert siteId entries).1 = .ok stats →
      stats.inserted + stats.updated = entries.length) ∧
    (∀ siteId entries, (∃ e ∈ entries, normalizePlate e.plateText = []) →
      s.upsert siteId entries = (.error "upsert: plate_text is empty after normalization", s)) ∧
    (∀ siteId plateText e, s.lookup siteId plateText = some e →
      e.plateText = normalizePlate plateText) := by
  intro s m
  obtain ⟨houtputs,hfinal⟩ := outputs_simulation call_registry {} calls
  have hm : s.registry = m := hfinal
  have hanchored : Anchored s := by
    refine exec_invariant (I:=Anchored) (fun _ c h => h.call c) calls ⟨?_,?_⟩
    · intro r hr
      cases hr
    · intro r hr
      cases hr
  refine ⟨houtputs,?_,?_,?_,?_,?_,?_⟩
  · rw [← hm]
    exact s.finite_registry
  · rw [← hm]
    exact fun r hr => hanchored.class_row hr
  · rw [← hm]
    exact fun r hr => hanchored.window_row hr
  · intro siteId entries stats h
    exact upsert_counts h
  · rintro siteId entries ⟨e,he,hplate⟩
    rw [upsert, upsertLoop_rejected siteId s {} fun h => h e he hplate]
  · intro siteId plateText e h
    exact lookup_plateText h

/-- A batch that repeats a plate, a batch that fails, and a removal that repeats a plate; after
them a batch with a blank plate changes nothing. -/
theorem store_answers_three_calls :
    let calls : List StoreCall := [.upsert [0x73] [{ plateText := [0x61] }, { plateText := [0x41] }],
      .upsert [0x73] [{ plateText := [0x42] }, { plateText := [0x20] }],
      .remove [0x73] [[0x41], [0x42], [0x2d, 0x61]]]
    let s := final AllowlistStore.call {} calls
    outputs Registry.call (fun _ => none) calls = [.upserted (.ok ⟨1,1⟩),
      .upserted (.error "upsert: plate_text is empty after normalization"), .removed 1] ∧
    s.upsert [0x73] [{ plateText := [0x20] }] =
      (.error "upsert: plate_text is empty after normalization", s) := by
  intro calls s
  obtain ⟨houtputs,-,-,-,-,hfails,-⟩ := store_answers_as_map calls
  exact ⟨houtputs.symm,hfails [0x73] [{ plateText := [0x20] }] (by decide)⟩

end AllowlistStore
end AlprGate.Auth
