import Mathlib.Data.Finset.Dedup
import AlprGate.Library.Transition
import AlprGate.Server.Allowlist

/-! # What the store remembers

The terms of an entry are its scalar fields, the set of its classes and the multiset
of its windows. Behind every site and plate the store holds the terms of the last
accepted upsert that no removal has followed, and the blocklist holds the plates whose
last blocklist operation added them.
-/
namespace AlprGate.Auth
open Transition

/-- What an entry says, whatever order its classes and windows are listed in. -/
structure Terms where
  plateText : Text
  ownerName : Text
  ownerUnit : Text
  validFrom : Option ℤ
  validUntil : Option ℤ
  notes : Text
  addedBy : Text
  addedTs : Option ℤ
  classes : Finset VehicleClass
  windows : Multiset TimeWindow

/-- The terms under the normalized plate. Timestamps that are not positive say nothing. -/
def Allowlistentry.terms (e : Allowlistentry) : Terms where
  plateText := normalizePlate e.plateText
  ownerName := e.ownerName
  ownerUnit := e.ownerUnit
  validFrom := e.validFrom.bind positive
  validUntil := e.validUntil.bind positive
  notes := e.notes
  addedBy := e.addedBy
  addedTs := e.addedTs.bind positive
  classes := e.allowedClasses.toFinset
  windows := e.timeWindows

theorem normalizePlate_cons_of_fixed {u : UInt8} (raw : Text)
    (hsep : ¬ (u = 0x20 ∨ u = 0x09 ∨ u = 0x2d ∨ u = 0x5f)) (hlower : ¬ (0x61 ≤ u ∧ u ≤ 0x7a)) :
    normalizePlate (u :: raw) = u :: normalizePlate raw := by
  rw [normalizePlate, if_neg hsep, if_neg hlower]

/-- A capital is neither a separator nor a small letter. -/
theorem capital_fixed {u : UInt8} (h : 0x61 ≤ u ∧ u ≤ 0x7a) :
    ¬ (u - 0x20 = 0x20 ∨ u - 0x20 = 0x09 ∨ u - 0x20 = 0x2d ∨ u - 0x20 = 0x5f) ∧
      ¬ (0x61 ≤ u - 0x20 ∧ u - 0x20 ≤ 0x7a) := by
  have hle : (0x20 : UInt8) ≤ u := UInt8.le_trans (by decide) h.1
  have hsub := UInt8.toNat_sub_of_le u 0x20 hle
  simp only [UInt8.le_iff_toNat_le, ← UInt8.toNat_inj, hsub] at h ⊢
  have h20 : (0x20 : UInt8).toNat = 32 := rfl
  have h09 : (0x09 : UInt8).toNat = 9 := rfl
  have h2d : (0x2d : UInt8).toNat = 45 := rfl
  have h5f : (0x5f : UInt8).toNat = 95 := rfl
  have h61 : (0x61 : UInt8).toNat = 97 := rfl
  have h7a : (0x7a : UInt8).toNat = 122 := rfl
  omega

/-- Normalizing twice is normalizing once. -/
theorem normalizePlate_idem (raw : Text) :
    normalizePlate (normalizePlate raw) = normalizePlate raw := by
  induction raw with
  | nil => rfl
  | cons u raw ih =>
    rw [normalizePlate]
    split
    · exact ih
    · rename_i hsep
      split
      · rename_i hlower
        obtain ⟨hsep',hlower'⟩ := capital_fixed hlower
        rw [normalizePlate_cons_of_fixed _ hsep' hlower', ih]
      · rename_i hlower
        rw [normalizePlate_cons_of_fixed _ hsep hlower, ih]

theorem toWindow_toRow (w : TimeWindow) (siteId plate : Text) :
    (w.toRow siteId plate).toWindow = w := by
  simp [TimeWindow.toRow, WindowRow.toWindow]

theorem positive_getD (ts : Option ℤ) : positive (ts.getD 0) = ts.bind positive := by
  cases ts with
  | none => rfl
  | some seconds => rfl

theorem bind_positive_positive (seconds : ℤ) : (positive seconds).bind positive = positive seconds := by
  unfold positive
  split
  · rename_i h
    simp [h]
  · rfl

theorem ClassRow.key_injective : Function.Injective ClassRow.key := by
  rintro ⟨siteId,plate,cls⟩ ⟨siteId',plate',cls'⟩ h
  simp only [ClassRow.key, Prod.mk.injEq] at h
  obtain ⟨rfl,rfl,rfl⟩ := h
  rfl

namespace AllowlistStore

theorem mem_classesOf (s : AllowlistStore) (siteId plate : Text) (c : VehicleClass) :
    c ∈ s.classesOf siteId plate ↔ ⟨siteId,plate,c.number⟩ ∈ s.classes.rows := by
  simp only [classesOf, List.mem_map, List.mem_insertionSort, List.mem_filter,
    decide_eq_true_eq]
  constructor
  · rintro ⟨⟨siteId',plate',cls⟩,⟨hmem,rfl,rfl⟩,rfl⟩
    exact hmem
  · intro h
    exact ⟨_,⟨h,rfl,rfl⟩,rfl⟩

/-- The windows of a plate, without their order. -/
theorem coe_windowsOf (s : AllowlistStore) (siteId plate : Text) :
    (s.windowsOf siteId plate : Multiset TimeWindow) =
      ((s.windows.filter fun r => r.siteId = siteId ∧ r.plateText = plate).map
        WindowRow.toWindow : List TimeWindow) :=
  Multiset.coe_eq_coe.mpr ((List.perm_insertionSort _ _).map _)

section Upsert
variable (s : AllowlistStore) (siteId : Text) (e : Allowlistentry)

theorem upsertEntry_classes_self (c : VehicleClass) :
    c ∈ (s.upsertEntry siteId e).classesOf siteId (normalizePlate e.plateText) ↔
      c ∈ e.allowedClasses := by
  rw [mem_classesOf, upsertEntry, Table.mem_foldl_insertIgnore ClassRow.key_injective]
  simp only [Table.eraseWhere, List.mem_filter, List.mem_map]
  constructor
  · rintro (⟨_,h⟩ | ⟨c',hc',heq⟩)
    · simp at h
    · cases c
      cases c'
      cases heq
      exact hc'
  · intro h
    exact Or.inr ⟨c,h,rfl⟩

theorem upsertEntry_windows_self :
    ((s.upsertEntry siteId e).windowsOf siteId (normalizePlate e.plateText) :
      Multiset TimeWindow) = e.timeWindows := by
  rw [coe_windowsOf, upsertEntry]
  have hold : (s.windows.filter fun r => ¬ (r.siteId = siteId ∧
      r.plateText = normalizePlate e.plateText)).filter (fun r => r.siteId = siteId ∧
      r.plateText = normalizePlate e.plateText) = [] := by
    simp [List.filter_filter, List.filter_eq_nil_iff]
  have hnew : (e.timeWindows.map fun w => w.toRow siteId (normalizePlate e.plateText)).filter
      (fun r => r.siteId = siteId ∧ r.plateText = normalizePlate e.plateText) =
      e.timeWindows.map fun w => w.toRow siteId (normalizePlate e.plateText) := by
    refine List.filter_eq_self.mpr ?_
    intro r hr
    obtain ⟨w,_,rfl⟩ := List.mem_map.mp hr
    simp [TimeWindow.toRow]
  rw [List.filter_append, hold, hnew, List.nil_append, List.map_map]
  congr 1
  exact List.map_id'' (fun w => toWindow_toRow w _ _) _

end Upsert

/-- The terms behind a site and a normalized plate. -/
def behind (s : AllowlistStore) (siteId plate : Text) : Option Terms :=
  (s.allowlist.get? (siteId, plate)).map fun r =>
    ({ r.scalars with
      allowedClasses := s.classesOf siteId plate
      timeWindows := s.windowsOf siteId plate } : Allowlistentry).terms

theorem lookup_terms (s : AllowlistStore) (siteId plateText : Text) :
    (s.lookup siteId plateText).map Allowlistentry.terms =
      s.behind siteId (normalizePlate plateText) := by
  rw [lookup, Option.map_map, behind]
  rfl

theorem behind_congr {s t : AllowlistStore} {siteId plate : Text}
    (hrow : t.allowlist.get? (siteId, plate) = s.allowlist.get? (siteId, plate))
    (hclasses : ∀ c, c ∈ t.classesOf siteId plate ↔ c ∈ s.classesOf siteId plate)
    (hwindows : (t.windowsOf siteId plate : Multiset TimeWindow) = s.windowsOf siteId plate) :
    t.behind siteId plate = s.behind siteId plate := by
  have hset : (t.classesOf siteId plate).toFinset = (s.classesOf siteId plate).toFinset := by
    ext c
    rw [List.mem_toFinset, List.mem_toFinset, hclasses]
  simp only [behind, hrow, Allowlistentry.terms, hset, hwindows]

theorem upsertEntry_self (s : AllowlistStore) (siteId : Text) (e : Allowlistentry) :
    (s.upsertEntry siteId e).behind siteId (normalizePlate e.plateText) = some e.terms := by
  have hrow : (s.upsertEntry siteId e).allowlist.get? (siteId, normalizePlate e.plateText) =
      some (e.toRow siteId (normalizePlate e.plateText)) := Table.get?_upsert_self ..
  have hset : ((s.upsertEntry siteId e).classesOf siteId (normalizePlate e.plateText)).toFinset =
      e.allowedClasses.toFinset := by
    ext c
    rw [List.mem_toFinset, List.mem_toFinset, upsertEntry_classes_self]
  simp only [behind, hrow, Option.map_some, Allowlistentry.terms, AllowlistRow.scalars,
    Allowlistentry.toRow, hset, upsertEntry_windows_self, normalizePlate_idem, positive_getD,
    bind_positive_positive]

/-- Rows of another plate are not touched. -/
theorem filter_other {siteId plate siteId' plate' : Text}
    (h : ¬ (siteId' = siteId ∧ plate' = plate)) (rows : List WindowRow) :
    (rows.filter fun r => ¬ (r.siteId = siteId ∧ r.plateText = plate)).filter
      (fun r => r.siteId = siteId' ∧ r.plateText = plate') =
      rows.filter fun r => r.siteId = siteId' ∧ r.plateText = plate' := by
  rw [List.filter_filter]
  congr 1
  funext r
  by_cases hr : r.siteId = siteId' ∧ r.plateText = plate'
  · simpa [hr] using not_and_or.mp h
  · simp [hr]

theorem upsertEntry_other (s : AllowlistStore) (e : Allowlistentry) {siteId siteId' plate' : Text}
    (h : ¬ (siteId' = siteId ∧ plate' = normalizePlate e.plateText)) :
    (s.upsertEntry siteId e).behind siteId' plate' = s.behind siteId' plate' := by
  refine behind_congr ?_ ?_ ?_
  · refine Table.get?_upsert_other ?_
    intro hkey
    exact h (Prod.mk.injEq .. ▸ hkey)
  · intro c
    rw [mem_classesOf, mem_classesOf, upsertEntry,
      Table.mem_foldl_insertIgnore ClassRow.key_injective]
    simp only [Table.eraseWhere, List.mem_filter, List.mem_map, ClassRow.mk.injEq]
    constructor
    · rintro (⟨hmem,_⟩ | ⟨c',_,hsite,hplate,_⟩)
      · exact hmem
      · exact absurd ⟨hsite.symm,hplate.symm⟩ h
    · intro hmem
      exact Or.inl ⟨hmem,by simpa using not_and_or.mp h⟩
  · rw [coe_windowsOf, coe_windowsOf, upsertEntry]
    have hnew : (e.timeWindows.map fun w => w.toRow siteId (normalizePlate e.plateText)).filter
        (fun r => r.siteId = siteId' ∧ r.plateText = plate') = [] := by
      refine List.filter_eq_nil_iff.mpr ?_
      intro r hr
      obtain ⟨w,_,rfl⟩ := List.mem_map.mp hr
      intro hw
      obtain ⟨hsite,hplate⟩ := of_decide_eq_true hw
      exact h ⟨hsite.symm,hplate.symm⟩
    rw [List.filter_append, hnew, List.append_nil, filter_other h]

end AllowlistStore

/-- What an upserted entry says about a plate of its site. -/
def Allowlistentry.stated (plate : Text) (e : Allowlistentry) : Option (Option Terms) :=
  if normalizePlate e.plateText = plate then some (some e.terms) else none

/-- The entries an upsert accepts; one bad entry fails the whole call. -/
def Accepted (entries : List Allowlistentry) : Prop :=
  ∀ e ∈ entries, normalizePlate e.plateText ≠ []

instance (entries : List Allowlistentry) : Decidable (Accepted entries) :=
  inferInstanceAs (Decidable (∀ e ∈ entries, _))

/-- The operations that change the database. -/
inductive StoreOp where
  | upsert (siteId : Text) (entries : List Allowlistentry)
  | remove (siteId : Text) (plateTexts : List Text)
  | blocklistUpsert (siteId plateText reason : Text) (now : ℤ)
  | blocklistRemove (siteId : Text) (plateTexts : List Text)
  deriving DecidableEq, Repr

namespace StoreOp

/-- What an operation says about a plate: its terms, that it is off the list, or
nothing. -/
def stated (siteId plate : Text) : StoreOp → Option (Option Terms)
  | .upsert siteId' entries =>
    if siteId' = siteId ∧ Accepted entries then latest (Allowlistentry.stated plate) entries
    else none
  | .remove siteId' plateTexts =>
    if ∃ raw ∈ plateTexts, siteId' = siteId ∧ normalizePlate raw = plate then some none else none
  | _ => none

/-- Whether an operation puts a plate on the blocklist or takes it off. -/
def blocks (siteId plate : Text) : StoreOp → Option Bool
  | .blocklistUpsert siteId' plateText _ _ =>
    if siteId' = siteId ∧ normalizePlate plateText = plate ∧ plate ≠ [] then some true else none
  | .blocklistRemove siteId' plateTexts =>
    if ∃ raw ∈ plateTexts, siteId' = siteId ∧ normalizePlate raw = plate then some false else none
  | _ => none

end StoreOp

/-- The terms of the latest upsert of a plate, unless a removal has followed it. -/
def currentTerms (history : List StoreOp) (siteId plate : Text) : Option Terms :=
  (latest (StoreOp.stated siteId plate) history).getD none

/-- The plate's last blocklist operation put it there. -/
def currentlyBlocked (history : List StoreOp) (siteId plate : Text) : Bool :=
  (latest (StoreOp.blocks siteId plate) history).getD false

namespace AllowlistStore

/-- A failed operation leaves the database as it was. -/
def apply (s : AllowlistStore) : StoreOp → AllowlistStore
  | .upsert siteId entries => (s.upsert siteId entries).2
  | .remove siteId plateTexts => (s.remove siteId plateTexts).2
  | .blocklistUpsert siteId plateText reason now =>
    (s.blocklistUpsert siteId plateText reason now).2
  | .blocklistRemove siteId plateTexts => (s.blocklistRemove siteId plateTexts).2

theorem upsertLoop_accepted (siteId : Text) (s : AllowlistStore) (stats : UpsertStats)
    {entries : List Allowlistentry} (h : Accepted entries) :
    ∃ stats', upsertLoop siteId s stats entries =
      .ok (stats', exec (fun s e => s.upsertEntry siteId e) s entries) := by
  induction entries generalizing s stats with
  | nil => exact ⟨stats,rfl⟩
  | cons e entries ih =>
    have hplate := h e List.mem_cons_self
    rw [upsertLoop, exec_cons, if_neg hplate]
    exact ih _ _ fun e' he' => h e' (List.mem_cons_of_mem e he')

theorem upsertLoop_rejected (siteId : Text) (s : AllowlistStore) (stats : UpsertStats)
    {entries : List Allowlistentry} (h : ¬ Accepted entries) :
    upsertLoop siteId s stats entries =
      .error "upsert: plate_text is empty after normalization" := by
  induction entries generalizing s stats with
  | nil => exact absurd (fun _ he => by cases he) h
  | cons e entries ih =>
    rw [upsertLoop]
    by_cases hplate : normalizePlate e.plateText = []
    · rw [if_pos hplate]
    · rw [if_neg hplate]
      refine ih _ _ ?_
      intro hrest
      refine h ?_
      intro e' he'
      rcases List.mem_cons.mp he' with rfl | he'
      · exact hplate
      · exact hrest e' he'

theorem upsert_state (s : AllowlistStore) (siteId : Text) (entries : List Allowlistentry) :
    (s.upsert siteId entries).2 =
      if Accepted entries then exec (fun s e => s.upsertEntry siteId e) s entries else s := by
  by_cases h : Accepted entries
  · obtain ⟨stats,hloop⟩ := upsertLoop_accepted siteId s {} h
    rw [upsert, hloop, if_pos h]
  · rw [upsert, upsertLoop_rejected siteId s {} h, if_neg h]

theorem upsert_behind (s : AllowlistStore) (siteId : Text) (entries : List Allowlistentry)
    (siteId' plate : Text) :
    (s.upsert siteId entries).2.behind siteId' plate =
      (StoreOp.stated siteId' plate (.upsert siteId entries)).getD (s.behind siteId' plate) := by
  rw [upsert_state, StoreOp.stated]
  by_cases hsite : siteId = siteId'
  · subst hsite
    by_cases h : Accepted entries
    · rw [if_pos h, if_pos ⟨rfl,h⟩]
      refine exec_register (g:=fun s : AllowlistStore => s.behind siteId plate) ?_ s entries
      intro s e
      rw [Allowlistentry.stated]
      by_cases hplate : normalizePlate e.plateText = plate
      · subst hplate
        rw [upsertEntry_self, if_pos rfl]
        rfl
      · rw [upsertEntry_other s e (fun hkey => hplate hkey.2.symm), if_neg hplate]
        rfl
    · rw [if_neg h, if_neg (fun hboth => h hboth.2)]
      rfl
  · have hsilent : ¬ (siteId = siteId' ∧ Accepted entries) := fun hboth => hsite hboth.1
    rw [if_neg hsilent, Option.getD_none]
    by_cases h : Accepted entries
    · rw [if_pos h]
      refine exec_invariant (I:=fun t : AllowlistStore => t.behind siteId' plate =
        s.behind siteId' plate) ?_ entries rfl
      intro t e ht
      rw [upsertEntry_other t e (fun hkey => hsite hkey.1.symm), ht]
    · rw [if_neg h]

theorem removePlate_behind (siteId siteId' plate : Text) (p : ℕ × AllowlistStore) (raw : Text) :
    (removePlate siteId p raw).2.behind siteId' plate =
      (if siteId = siteId' ∧ normalizePlate raw = plate then some none else none).getD
        (p.2.behind siteId' plate) := by
  obtain ⟨removed,s⟩ := p
  by_cases hkey : siteId = siteId' ∧ normalizePlate raw = plate
  · obtain ⟨rfl,rfl⟩ := hkey
    rw [if_pos ⟨rfl,rfl⟩, Option.getD_some, removePlate, behind]
    cases hrow : s.allowlist.get? (siteId, normalizePlate raw) with
    | none => simp [hrow]
    | some r => simp [Table.get?_erase_self]
  · rw [if_neg hkey, Option.getD_none, removePlate]
    have hkey' : ¬ (siteId' = siteId ∧ plate = normalizePlate raw) := fun h =>
      hkey ⟨h.1.symm,h.2.symm⟩
    cases s.allowlist.get? (siteId, normalizePlate raw) with
    | none => rfl
    | some r =>
      refine behind_congr ?_ ?_ ?_
      · refine Table.get?_erase_other ?_
        intro h
        exact hkey' (Prod.mk.injEq .. ▸ h)
      · intro c
        rw [mem_classesOf, mem_classesOf]
        simp only [Table.eraseWhere, List.mem_filter]
        exact ⟨fun h => h.1,fun h => ⟨h,by simpa using not_and_or.mp hkey'⟩⟩
      · rw [coe_windowsOf, coe_windowsOf, filter_other hkey']

theorem remove_behind (s : AllowlistStore) (siteId : Text) (plateTexts : List Text)
    (siteId' plate : Text) :
    (s.remove siteId plateTexts).2.behind siteId' plate =
      (StoreOp.stated siteId' plate (.remove siteId plateTexts)).getD (s.behind siteId' plate) := by
  have hrun := exec_register (g:=fun p : ℕ × AllowlistStore => p.2.behind siteId' plate)
    (removePlate_behind siteId siteId' plate) (0,s) plateTexts
  rw [latest_ite] at hrun
  exact hrun

theorem blocklist_frame {s t : AllowlistStore} (hallow : t.allowlist = s.allowlist)
    (hclasses : t.classes = s.classes) (hwindows : t.windows = s.windows) (siteId plate : Text) :
    t.behind siteId plate = s.behind siteId plate := by
  simp only [behind, classesOf, windowsOf, hallow, hclasses, hwindows]

theorem blocklistUpsert_behind (s : AllowlistStore) (siteId plateText reason : Text) (now : ℤ)
    (siteId' plate : Text) :
    (s.blocklistUpsert siteId plateText reason now).2.behind siteId' plate =
      s.behind siteId' plate := by
  rw [blocklistUpsert]
  by_cases h : normalizePlate plateText = []
  · rw [if_pos h]
  · rw [if_neg h]
    exact blocklist_frame rfl rfl rfl siteId' plate

theorem blocklistRemove_behind (s : AllowlistStore) (siteId : Text) (plateTexts : List Text)
    (siteId' plate : Text) :
    (s.blocklistRemove siteId plateTexts).2.behind siteId' plate = s.behind siteId' plate := by
  refine exec_invariant (I:=fun p : ℕ × AllowlistStore => p.2.behind siteId' plate =
    s.behind siteId' plate) ?_ plateTexts rfl
  rintro ⟨removed,t⟩ raw ht
  rw [blocklistRemovePlate]
  cases t.blocklist.get? (siteId, normalizePlate raw) with
  | none => exact ht
  | some r => exact (blocklist_frame (s:=t) rfl rfl rfl siteId' plate).trans ht

/-- Each operation overwrites what is behind a plate, or leaves it alone. -/
theorem apply_behind (s : AllowlistStore) (op : StoreOp) (siteId plate : Text) :
    (s.apply op).behind siteId plate =
      (StoreOp.stated siteId plate op).getD (s.behind siteId plate) := by
  cases op with
  | upsert siteId' entries => exact upsert_behind s siteId' entries siteId plate
  | remove siteId' plateTexts => exact remove_behind s siteId' plateTexts siteId plate
  | blocklistUpsert siteId' plateText reason now =>
    exact blocklistUpsert_behind s siteId' plateText reason now siteId plate
  | blocklistRemove siteId' plateTexts =>
    exact blocklistRemove_behind s siteId' plateTexts siteId plate

/-- After any history `lookup` returns the terms of the latest upsert of the plate that no
removal has followed. -/
theorem lookup_after (history : List StoreOp) (siteId plateText : Text) :
    ((exec apply {} history).lookup siteId plateText).map Allowlistentry.terms =
      currentTerms history siteId (normalizePlate plateText) := by
  have hrun := exec_register (g:=fun s : AllowlistStore => s.behind siteId (normalizePlate plateText))
    (fun s op => apply_behind s op siteId (normalizePlate plateText)) {} history
  rw [lookup_terms]
  exact hrun

/-- Whether a site and a normalized plate are on the blocklist. -/
def listed (s : AllowlistStore) (siteId plate : Text) : Bool :=
  (s.blocklist.get? (siteId, plate)).isSome

theorem blocklistUpsert_listed (s : AllowlistStore) (siteId plateText reason : Text) (now : ℤ)
    (siteId' plate : Text) :
    (s.blocklistUpsert siteId plateText reason now).2.listed siteId' plate =
      (StoreOp.blocks siteId' plate (.blocklistUpsert siteId plateText reason now)).getD
        (s.listed siteId' plate) := by
  rw [blocklistUpsert, StoreOp.blocks]
  by_cases hempty : normalizePlate plateText = []
  · have hsilent : ¬ (siteId = siteId' ∧ normalizePlate plateText = plate ∧ plate ≠ []) := by
      rintro ⟨_,hplate,hne⟩
      exact hne (hplate.symm.trans hempty)
    rw [if_pos hempty, if_neg hsilent]
    rfl
  · rw [if_neg hempty]
    by_cases hkey : siteId = siteId' ∧ normalizePlate plateText = plate
    · obtain ⟨rfl,rfl⟩ := hkey
      rw [if_pos ⟨rfl,rfl,hempty⟩]
      have hget := Table.get?_upsert_self s.blocklist
        ⟨siteId,normalizePlate plateText,reason,now⟩
      exact congrArg Option.isSome hget
    · rw [if_neg fun h => hkey ⟨h.1,h.2.1⟩]
      have hne : (siteId', plate) ≠ (siteId, normalizePlate plateText) := by
        intro h
        cases h
        exact hkey ⟨rfl,rfl⟩
      exact congrArg Option.isSome (Table.get?_upsert_other (t:=s.blocklist)
        (r:=⟨siteId,normalizePlate plateText,reason,now⟩) hne)

theorem blocklistRemovePlate_listed (siteId siteId' plate : Text) (p : ℕ × AllowlistStore)
    (raw : Text) :
    (blocklistRemovePlate siteId p raw).2.listed siteId' plate =
      (if siteId = siteId' ∧ normalizePlate raw = plate then some false else none).getD
        (p.2.listed siteId' plate) := by
  obtain ⟨removed,s⟩ := p
  rw [blocklistRemovePlate]
  by_cases hkey : siteId = siteId' ∧ normalizePlate raw = plate
  · obtain ⟨rfl,rfl⟩ := hkey
    rw [if_pos ⟨rfl,rfl⟩, Option.getD_some]
    cases hrow : s.blocklist.get? (siteId, normalizePlate raw) with
    | none => simp [listed, hrow]
    | some r => simp [listed, Table.get?_erase_self]
  · rw [if_neg hkey, Option.getD_none]
    have hne : (siteId', plate) ≠ (siteId, normalizePlate raw) := by
      intro h
      cases h
      exact hkey ⟨rfl,rfl⟩
    cases s.blocklist.get? (siteId, normalizePlate raw) with
    | none => rfl
    | some r => exact congrArg Option.isSome (Table.get?_erase_other hne)

theorem blocklistRemove_listed (s : AllowlistStore) (siteId : Text) (plateTexts : List Text)
    (siteId' plate : Text) :
    (s.blocklistRemove siteId plateTexts).2.listed siteId' plate =
      (StoreOp.blocks siteId' plate (.blocklistRemove siteId plateTexts)).getD
        (s.listed siteId' plate) := by
  have hrun := exec_register (g:=fun p : ℕ × AllowlistStore => p.2.listed siteId' plate)
    (blocklistRemovePlate_listed siteId siteId' plate) (0,s) plateTexts
  rw [latest_ite] at hrun
  exact hrun

theorem upsert_blocklist (s : AllowlistStore) (siteId : Text) (entries : List Allowlistentry) :
    (s.upsert siteId entries).2.blocklist = s.blocklist := by
  rw [upsert_state]
  split
  · refine exec_invariant (I:=fun t : AllowlistStore => t.blocklist = s.blocklist) ?_ entries rfl
    intro t e ht
    exact ht
  · rfl

theorem remove_blocklist (s : AllowlistStore) (siteId : Text) (plateTexts : List Text) :
    (s.remove siteId plateTexts).2.blocklist = s.blocklist := by
  refine exec_invariant (I:=fun p : ℕ × AllowlistStore => p.2.blocklist = s.blocklist) ?_
    plateTexts rfl
  rintro ⟨removed,t⟩ raw ht
  rw [removePlate]
  cases t.allowlist.get? (siteId, normalizePlate raw) with
  | none => exact ht
  | some r => exact ht

theorem apply_listed (s : AllowlistStore) (op : StoreOp) (siteId plate : Text) :
    (s.apply op).listed siteId plate =
      (StoreOp.blocks siteId plate op).getD (s.listed siteId plate) := by
  cases op with
  | upsert siteId' entries =>
    rw [listed, apply, upsert_blocklist]
    rfl
  | remove siteId' plateTexts =>
    rw [listed, apply, remove_blocklist]
    rfl
  | blocklistUpsert siteId' plateText reason now =>
    exact blocklistUpsert_listed s siteId' plateText reason now siteId plate
  | blocklistRemove siteId' plateTexts =>
    exact blocklistRemove_listed s siteId' plateTexts siteId plate

/-- After any history the blocklist holds the plates whose last blocklist operation put
them there. -/
theorem isBlocklisted_after (history : List StoreOp) (siteId plateText : Text) :
    (exec apply {} history).isBlocklisted siteId plateText =
      currentlyBlocked history siteId (normalizePlate plateText) :=
  exec_register (g:=fun s : AllowlistStore => s.listed siteId (normalizePlate plateText))
    (fun s op => apply_listed s op siteId (normalizePlate plateText)) {} history

end AllowlistStore
end AlprGate.Auth
