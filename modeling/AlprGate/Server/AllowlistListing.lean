import AlprGate.Server.AllowlistHistory

/-! # Listing and looking up

`list` reads the main rows of a page and then fills in their classes and windows, but
a page that is continued is returned before that. An entry of a page therefore agrees
with `lookup` when the page is the last one, and on every earlier page exactly when the
plate has no classes and no windows.
-/
namespace AlprGate.Auth
open Transition

/-- Same scalar fields, same set of classes, same multiset of windows. -/
structure SameEntry (e e' : Allowlistentry) : Prop where
  plateText : e.plateText = e'.plateText
  ownerName : e.ownerName = e'.ownerName
  ownerUnit : e.ownerUnit = e'.ownerUnit
  validFrom : e.validFrom = e'.validFrom
  validUntil : e.validUntil = e'.validUntil
  notes : e.notes = e'.notes
  addedBy : e.addedBy = e'.addedBy
  addedTs : e.addedTs = e'.addedTs
  classes : ∀ c, c ∈ e.allowedClasses ↔ c ∈ e'.allowedClasses
  windows : e.timeWindows.Perm e'.timeWindows

/-- Rows with other classes and windows than an entry. -/
theorem SameEntry.of_scalars {r : AllowlistRow} {cs cs' : List VehicleClass}
    {ws ws' : List TimeWindow} (hclasses : ∀ c, c ∈ cs ↔ c ∈ cs') (hwindows : ws.Perm ws') :
    SameEntry { r.scalars with allowedClasses := cs, timeWindows := ws }
      { r.scalars with allowedClasses := cs', timeWindows := ws' } :=
  ⟨rfl,rfl,rfl,rfl,rfl,rfl,rfl,rfl,hclasses,hwindows⟩

section Collect
variable (limit : ℕ)

/-- Everything fits: the loop runs to its end. -/
theorem collect_fits (rows : List AllowlistRow) (entries : List Allowlistentry)
    (h : entries.length + rows.length ≤ limit) :
    collect limit rows entries = (entries ++ rows.map AllowlistRow.scalars, none) := by
  induction rows generalizing entries with
  | nil => simp [collect]
  | cons r rows ih =>
    rw [List.length_cons] at h
    have hroom : entries.length ≠ limit := by omega
    rw [collect, if_neg hroom, ih]
    · simp
    · rw [List.length_append, List.length_singleton]
      omega

/-- One row too many: the page is what came before it, and its last plate continues it. -/
theorem collect_overflows (rows : List AllowlistRow) (entries : List Allowlistentry)
    (hle : entries.length ≤ limit) (h : limit < entries.length + rows.length) :
    collect limit rows entries = ((entries ++ rows.map AllowlistRow.scalars).take limit,
      ((entries ++ rows.map AllowlistRow.scalars).take limit).getLast?.map
        Allowlistentry.plateText) := by
  induction rows generalizing entries with
  | nil =>
    rw [List.length_nil] at h
    omega
  | cons r rows ih =>
    rw [collect]
    by_cases hfull : entries.length = limit
    · rw [if_pos hfull, List.take_append_of_le_length hfull.ge, List.take_of_length_le hfull.le]
    · rw [if_neg hfull]
      rw [List.length_cons] at h
      have hpage := ih (entries ++ [r.scalars])
        (by rw [List.length_append, List.length_singleton]; omega)
        (by rw [List.length_append, List.length_singleton]; omega)
      rw [hpage, List.append_assoc]
      rfl

end Collect

section Hydrate

theorem updateFirst_of_notMem {plate : Text} {f : Allowlistentry → Allowlistentry}
    {es : List Allowlistentry} (h : plate ∉ es.map Allowlistentry.plateText) :
    updateFirst plate f es = es := by
  induction es with
  | nil => rfl
  | cons e es ih =>
    rw [List.map_cons, List.mem_cons, not_or] at h
    rw [updateFirst, if_neg fun heq => h.1 heq.symm, ih h.2]

/-- With distinct plates the first match is the only one. -/
theorem updateFirst_eq_map {plate : Text} {f : Allowlistentry → Allowlistentry}
    {es : List Allowlistentry} (h : (es.map Allowlistentry.plateText).Nodup) :
    updateFirst plate f es = es.map fun e => if e.plateText = plate then f e else e := by
  induction es with
  | nil => rfl
  | cons e es ih =>
    rw [List.map_cons, List.nodup_cons] at h
    rw [updateFirst, List.map_cons]
    by_cases heq : e.plateText = plate
    · rw [if_pos heq, if_pos heq]
      have hrest : plate ∉ es.map Allowlistentry.plateText := heq ▸ h.1
      rw [← ih h.2, updateFirst_of_notMem hrest]
    · rw [if_neg heq, if_neg heq, ih h.2]

variable {ρ : Type*} (plate : ρ → Text) (f : ρ → Allowlistentry → Allowlistentry)

/-- What a list of rows does to one entry. -/
def attach (rows : List ρ) (e : Allowlistentry) : Allowlistentry :=
  rows.foldl (fun e r => if e.plateText = plate r then f r e else e) e

/-- Filling in a page entry by entry. -/
theorem foldl_updateFirst (hplate : ∀ r e, (f r e).plateText = e.plateText) (rows : List ρ)
    {es : List Allowlistentry} (h : (es.map Allowlistentry.plateText).Nodup) :
    rows.foldl (fun es r => updateFirst (plate r) (f r) es) es = es.map (attach plate f rows) := by
  induction rows generalizing es with
  | nil => exact (List.map_id'' (fun _ => rfl) es).symm
  | cons r rows ih =>
    rw [List.foldl_cons, updateFirst_eq_map h]
    have hplates : (es.map fun e => if e.plateText = plate r then f r e else e).map
        Allowlistentry.plateText = es.map Allowlistentry.plateText := by
      rw [List.map_map]
      refine List.map_congr_left ?_
      intro e _
      rw [Function.comp_apply]
      split
      · exact hplate r e
      · rfl
    rw [ih (by rw [hplates]; exact h), List.map_map]
    rfl

variable {plate f}

/-- Only the rows of the entry's plate matter to it. -/
theorem attach_eq (hplate : ∀ r e, (f r e).plateText = e.plateText) (rows : List ρ)
    (e : Allowlistentry) :
    attach plate f rows e =
      (rows.filter fun r => e.plateText = plate r).foldl (fun e r => f r e) e := by
  induction rows generalizing e with
  | nil => rfl
  | cons r rows ih =>
    by_cases h : e.plateText = plate r
    · have htail := ih (f r e)
      rw [hplate r e] at htail
      rw [List.filter_cons_of_pos (by simp [h]), List.foldl_cons, ← htail]
      simp [attach, h]
    · rw [List.filter_cons_of_neg (by simp [h]), ← ih e]
      simp [attach, h]

end Hydrate

theorem foldl_addClass (rows : List ClassRow) (e : Allowlistentry) :
    rows.foldl (fun e r => e.addClass ⟨r.vehicleClass⟩) e =
      { e with allowedClasses := e.allowedClasses ++ rows.map fun r => ⟨r.vehicleClass⟩ } := by
  induction rows generalizing e with
  | nil => simp
  | cons r rows ih =>
    rw [List.foldl_cons, ih]
    simp [Allowlistentry.addClass]

theorem foldl_addWindow (rows : List WindowRow) (e : Allowlistentry) :
    rows.foldl (fun e r => e.addWindow r.toWindow) e =
      { e with timeWindows := e.timeWindows ++ rows.map WindowRow.toWindow } := by
  induction rows generalizing e with
  | nil => simp
  | cons r rows ih =>
    rw [List.foldl_cons, ih]
    simp [Allowlistentry.addWindow]

theorem attach_classes (rows : List ClassRow) (e : Allowlistentry) :
    attach ClassRow.plateText (fun r => Allowlistentry.addClass ⟨r.vehicleClass⟩) rows e =
      { e with allowedClasses := e.allowedClasses ++
          (rows.filter fun r => e.plateText = r.plateText).map fun r => ⟨r.vehicleClass⟩ } := by
  rw [attach_eq, foldl_addClass]
  exact fun _ _ => rfl

theorem attach_windows (rows : List WindowRow) (e : Allowlistentry) :
    attach WindowRow.plateText (fun r => Allowlistentry.addWindow r.toWindow) rows e =
      { e with timeWindows := e.timeWindows ++
          (rows.filter fun r => e.plateText = r.plateText).map WindowRow.toWindow } := by
  rw [attach_eq, foldl_addWindow]
  exact fun _ _ => rfl

namespace AllowlistStore
variable (s : AllowlistStore) (siteId : Text)

theorem mem_rowsAfter {pageToken : Text} {r : AllowlistRow}
    (h : r ∈ s.rowsAfter siteId pageToken) : r ∈ s.allowlist.rows ∧ r.siteId = siteId := by
  rw [rowsAfter, List.mem_insertionSort] at h
  obtain ⟨hmem,htest⟩ := List.mem_filter.mp h
  exact ⟨hmem,(of_decide_eq_true htest).1⟩

/-- On one site the plates are the keys. -/
theorem rowsAfter_plates_nodup (pageToken : Text) :
    ((s.rowsAfter siteId pageToken).map AllowlistRow.plateText).Nodup := by
  have hperm := List.perm_insertionSort
    (fun a b : AllowlistRow => a.plateText ≤ b.plateText)
    (s.allowlist.rows.filter fun r => r.siteId = siteId ∧ pageToken < r.plateText)
  have hfilter := ((List.filter_sublist (p:=fun r : AllowlistRow =>
    decide (r.siteId = siteId ∧ pageToken < r.plateText))).map AllowlistRow.key).nodup
      s.allowlist.unique
  have hkeys : ((s.rowsAfter siteId pageToken).map AllowlistRow.key).Nodup :=
    (hperm.map _).nodup_iff.mpr hfilter
  have hsite : (s.rowsAfter siteId pageToken).map AllowlistRow.key =
      ((s.rowsAfter siteId pageToken).map AllowlistRow.plateText).map (Prod.mk siteId) := by
    rw [List.map_map]
    refine List.map_congr_left ?_
    intro r hr
    have hr := (s.mem_rowsAfter siteId hr).2
    rw [AllowlistRow.key, hr]
    rfl
  rw [hsite] at hkeys
  exact hkeys.of_map _

/-- The entry that a row, its classes and its windows make up. -/
def entryOf (r : AllowlistRow) : Allowlistentry :=
  { r.scalars with
    allowedClasses := s.classesOf r.siteId r.plateText
    timeWindows := s.windowsOf r.siteId r.plateText }

theorem lookup_row {r : AllowlistRow} (hmem : r ∈ s.allowlist.rows)
    (hplate : normalizePlate r.plateText = r.plateText) :
    s.lookup r.siteId r.plateText = some (s.entryOf r) := by
  have hget : s.allowlist.get? (r.siteId, r.plateText) = some r := Table.get?_of_mem hmem
  simp only [lookup, hplate, hget, Option.map_some]
  rfl

/-- What `hydrate` makes of the entry of a row on the page. -/
def hydrated (plates : List Text) (r : AllowlistRow) : Allowlistentry :=
  { r.scalars with
    allowedClasses := ((s.pageClasses siteId plates).filter fun c =>
      r.plateText = c.plateText).map fun c => ⟨c.vehicleClass⟩
    timeWindows := ((s.pageWindows siteId plates).filter fun w =>
      r.plateText = w.plateText).map WindowRow.toWindow }

theorem hydrate_scalars {rows : List AllowlistRow}
    (h : (rows.map AllowlistRow.plateText).Nodup) :
    s.hydrate siteId (rows.map AllowlistRow.scalars) =
      rows.map (s.hydrated siteId (rows.map AllowlistRow.plateText)) := by
  have hplates : (rows.map AllowlistRow.scalars).map Allowlistentry.plateText =
      rows.map AllowlistRow.plateText := by
    rw [List.map_map]
    rfl
  have hclasses := foldl_updateFirst ClassRow.plateText
    (fun r => Allowlistentry.addClass ⟨r.vehicleClass⟩) (fun _ _ => rfl)
    (s.pageClasses siteId (rows.map AllowlistRow.plateText)) (hplates ▸ h)
  -- Classes do not change the plates, so the windows find the same entries.
  have hsame : ((rows.map AllowlistRow.scalars).map (attach ClassRow.plateText
      (fun r => Allowlistentry.addClass ⟨r.vehicleClass⟩)
      (s.pageClasses siteId (rows.map AllowlistRow.plateText)))).map Allowlistentry.plateText =
      rows.map AllowlistRow.plateText := by
    rw [List.map_map, List.map_map]
    refine List.map_congr_left ?_
    intro r _
    rw [Function.comp_apply, Function.comp_apply, attach_classes]
    rfl
  have hwindows := foldl_updateFirst WindowRow.plateText
    (fun r => Allowlistentry.addWindow r.toWindow) (fun _ _ => rfl)
    (s.pageWindows siteId (rows.map AllowlistRow.plateText)) (hsame ▸ h)
  rw [hydrate, hplates, hclasses, hwindows, List.map_map, List.map_map]
  refine List.map_congr_left ?_
  intro r _
  rw [Function.comp_apply, Function.comp_apply, attach_classes, attach_windows]
  rfl

theorem mem_hydrated_classes {plates : List Text} {r : AllowlistRow} (hr : r.plateText ∈ plates)
    (c : VehicleClass) : c ∈ (s.hydrated siteId plates r).allowedClasses ↔
      c ∈ s.classesOf siteId r.plateText := by
  rw [mem_classesOf]
  simp only [hydrated, pageClasses, List.mem_map, List.mem_filter, List.mem_insertionSort,
    decide_eq_true_eq]
  constructor
  · rintro ⟨⟨siteId',plate,cls⟩,⟨⟨hmem,rfl,_⟩,rfl⟩,rfl⟩
    exact hmem
  · intro hmem
    exact ⟨_,⟨⟨hmem,rfl,hr⟩,rfl⟩,rfl⟩

theorem hydrated_windows_perm {plates : List Text} {r : AllowlistRow}
    (hr : r.plateText ∈ plates) :
    (s.hydrated siteId plates r).timeWindows.Perm (s.windowsOf siteId r.plateText) := by
  have hpage := ((List.perm_insertionSort (fun a b : WindowRow => a.plateText < b.plateText ∨
    (a.plateText = b.plateText ∧ a.startMinuteOfDay ≤ b.startMinuteOfDay))
    (s.windows.filter fun w => w.siteId = siteId ∧ w.plateText ∈ plates)).filter
      fun w => r.plateText = w.plateText).map WindowRow.toWindow
  have hplate := ((List.perm_insertionSort (fun a b : WindowRow =>
    a.startMinuteOfDay ≤ b.startMinuteOfDay)
    (s.windows.filter fun w => w.siteId = siteId ∧ w.plateText = r.plateText))).map
      WindowRow.toWindow
  have hfilter : (s.windows.filter fun w => w.siteId = siteId ∧ w.plateText ∈ plates).filter
      (fun w => r.plateText = w.plateText) =
      s.windows.filter fun w => w.siteId = siteId ∧ w.plateText = r.plateText := by
    rw [List.filter_filter]
    refine List.filter_congr ?_
    intro w _
    by_cases hw : r.plateText = w.plateText
    · simp [← hw, hr]
    · simp [hw, Ne.symm hw]
  rw [hfilter] at hpage
  exact hpage.trans hplate.symm

/-- Every main row is stored under a normalized plate. -/
def Normalized (s : AllowlistStore) : Prop :=
  ∀ r ∈ s.allowlist.rows, normalizePlate r.plateText = r.plateText

variable {s}

section Rows
variable {P : AllowlistRow → Prop}

theorem forall_rows_upsertEntries {siteId : Text} {entries : List Allowlistentry}
    (hnew : ∀ e ∈ entries, P (e.toRow siteId (normalizePlate e.plateText)))
    (h : ∀ r ∈ s.allowlist.rows, P r) :
    ∀ r ∈ (exec (fun s e => upsertEntry s siteId e) s entries).allowlist.rows, P r := by
  induction entries generalizing s with
  | nil => exact h
  | cons e entries ih =>
    refine ih (fun e' he' => hnew e' (List.mem_cons_of_mem e he')) ?_
    intro r hr
    rcases List.mem_append.mp hr with hr | hr
    · exact h r (List.mem_filter.mp hr).1
    · rw [List.mem_singleton.mp hr]
      exact hnew e List.mem_cons_self

/-- The main rows after an operation are old ones and those of accepted entries. -/
theorem forall_rows_apply
    (hnew : ∀ (siteId : Text) (e : Allowlistentry), normalizePlate e.plateText ≠ [] →
      P (e.toRow siteId (normalizePlate e.plateText)))
    (op : StoreOp) (h : ∀ r ∈ s.allowlist.rows, P r) : ∀ r ∈ (s.apply op).allowlist.rows, P r := by
  cases op with
  | upsert siteId entries =>
    rw [AllowlistStore.apply, upsert_state]
    split
    · rename_i haccepted
      exact forall_rows_upsertEntries (fun e he => hnew siteId e (haccepted e he)) h
    · exact h
  | remove siteId plateTexts =>
    refine exec_invariant (I:=fun p : ℕ × AllowlistStore => ∀ r ∈ p.2.allowlist.rows, P r) ?_
      plateTexts h
    rintro ⟨removed,t⟩ raw ht
    rw [removePlate]
    cases t.allowlist.get? (siteId, normalizePlate raw) with
    | none => exact ht
    | some _ => exact fun r hr => ht r (List.mem_filter.mp hr).1
  | blocklistUpsert siteId plateText reason now =>
    rw [AllowlistStore.apply, blocklistUpsert]
    by_cases hempty : normalizePlate plateText = []
    · rw [if_pos hempty]
      exact h
    · rw [if_neg hempty]
      exact h
  | blocklistRemove siteId plateTexts =>
    refine exec_invariant (I:=fun p : ℕ × AllowlistStore => ∀ r ∈ p.2.allowlist.rows, P r) ?_
      plateTexts h
    rintro ⟨removed,t⟩ raw ht
    rw [blocklistRemovePlate]
    cases t.blocklist.get? (siteId, normalizePlate raw) with
    | none => exact ht
    | some _ => exact ht

end Rows

/-- The content of a store is what some history left. -/
theorem normalized_after (history : List StoreOp) :
    Normalized (exec AllowlistStore.apply {} history) :=
  exec_invariant (I:=Normalized)
    (fun _ op h => forall_rows_apply (fun _ e _ => normalizePlate_idem e.plateText) op h) history
    fun _ hr => by cases hr

variable (s)

/-- No more rows than the page holds are behind the token. -/
def LastPage (siteId : Text) (pageSize : ℕ) (pageToken : Text) : Prop :=
  (s.rowsAfter siteId pageToken).length ≤ pageLimit pageSize

/-- The plate has neither classes nor windows. -/
def Bare (siteId plate : Text) : Prop :=
  s.classesOf siteId plate = [] ∧ s.windowsOf siteId plate = []

/-- What `lookup` returns for the same site and plate. -/
def AgreesWithLookup (siteId : Text) (e : Allowlistentry) : Prop :=
  ∃ e', s.lookup siteId e.plateText = some e' ∧ SameEntry e e'

theorem pageLimit_pos (pageSize : ℕ) : 0 < pageLimit pageSize := by
  rw [pageLimit]
  omega

variable {siteId : Text} {pageSize : ℕ} {pageToken : Text}

theorem list_last (h : s.LastPage siteId pageSize pageToken) :
    s.list siteId pageSize pageToken =
      { entries := (s.rowsAfter siteId pageToken).map
          (s.hydrated siteId ((s.rowsAfter siteId pageToken).map AllowlistRow.plateText)) } := by
  have hall : (s.rowsAfter siteId pageToken).take (pageLimit pageSize + 1) =
      s.rowsAfter siteId pageToken := List.take_of_length_le (Nat.le_succ_of_le h)
  have hcollect := collect_fits (pageLimit pageSize) (s.rowsAfter siteId pageToken) []
    (by rw [List.length_nil, Nat.zero_add]; exact h)
  rw [list, hall, hcollect, List.nil_append]
  dsimp only
  rw [s.hydrate_scalars siteId (s.rowsAfter_plates_nodup siteId pageToken)]

/-- A page that is continued has bare scalars, and its token is its last plate. -/
theorem list_continued (h : ¬ s.LastPage siteId pageSize pageToken) :
    s.list siteId pageSize pageToken =
      { entries := ((s.rowsAfter siteId pageToken).take (pageLimit pageSize)).map
          AllowlistRow.scalars
        nextToken := (((s.rowsAfter siteId pageToken).take (pageLimit pageSize)).map
          AllowlistRow.plateText).getLast?.getD [] } := by
  have hmore := not_le.mp h
  have hlength : ((s.rowsAfter siteId pageToken).take (pageLimit pageSize + 1)).length =
      pageLimit pageSize + 1 := List.length_take_of_le hmore
  have hcollect := collect_overflows (pageLimit pageSize)
    ((s.rowsAfter siteId pageToken).take (pageLimit pageSize + 1)) [] (Nat.zero_le _)
    (by rw [List.length_nil, hlength]; omega)
  rw [List.nil_append, List.map_take, List.take_take, Nat.min_eq_left (Nat.le_succ _),
    ← List.map_take] at hcollect
  have hpage : ((s.rowsAfter siteId pageToken).take (pageLimit pageSize)).length =
      pageLimit pageSize := List.length_take_of_le (le_of_lt hmore)
  have hpos := pageLimit_pos pageSize
  rw [list, hcollect, List.getLast?_map, List.getLast?_map]
  cases hlast : ((s.rowsAfter siteId pageToken).take (pageLimit pageSize)).getLast? with
  | none =>
    have hnil := congrArg List.length (List.getLast?_eq_none_iff.mp hlast)
    rw [hpage, List.length_nil] at hnil
    omega
  | some r => rfl

theorem agrees_hydrated {plates : List Text} {r : AllowlistRow} (hnorm : Normalized s)
    (hmem : r ∈ s.allowlist.rows) (hsite : r.siteId = siteId) (hplate : r.plateText ∈ plates) :
    s.AgreesWithLookup siteId (s.hydrated siteId plates r) := by
  subst hsite
  refine ⟨s.entryOf r,s.lookup_row hmem (hnorm r hmem),?_⟩
  exact SameEntry.of_scalars (s.mem_hydrated_classes r.siteId hplate)
    (s.hydrated_windows_perm r.siteId hplate)

theorem agrees_scalars_iff {r : AllowlistRow} (hnorm : Normalized s)
    (hmem : r ∈ s.allowlist.rows) (hsite : r.siteId = siteId) :
    s.AgreesWithLookup siteId r.scalars ↔ s.Bare siteId r.plateText := by
  subst hsite
  have hlookup : s.lookup r.siteId r.scalars.plateText = some (s.entryOf r) :=
    s.lookup_row hmem (hnorm r hmem)
  constructor
  · rintro ⟨e',he',hsame⟩
    rw [hlookup] at he'
    cases he'
    refine ⟨List.eq_nil_iff_forall_not_mem.mpr ?_,List.nil_perm.mp hsame.windows⟩
    intro c hc
    cases (hsame.classes c).mpr hc
  · rintro ⟨hclasses,hwindows⟩
    refine ⟨s.entryOf r,hlookup,SameEntry.of_scalars ?_ ?_⟩
    · intro c
      rw [hclasses]
    · rw [hwindows]

variable {s}

/-- Every entry of a page agrees with `lookup` exactly when the page is the last one or none
of its plates has classes or windows. -/
theorem list_agrees_with_lookup_iff (history : List StoreOp) (siteId : Text) (pageSize : ℕ)
    (pageToken : Text) :
    (∀ e ∈ ((exec AllowlistStore.apply {} history).list siteId pageSize pageToken).entries,
      (exec AllowlistStore.apply {} history).AgreesWithLookup siteId e) ↔
    (exec AllowlistStore.apply {} history).LastPage siteId pageSize pageToken ∨
      ∀ r ∈ ((exec AllowlistStore.apply {} history).rowsAfter siteId pageToken).take
        (pageLimit pageSize), (exec AllowlistStore.apply {} history).Bare siteId r.plateText := by
  have hnorm := normalized_after history
  generalize exec AllowlistStore.apply {} history = s at hnorm ⊢
  by_cases hlast : s.LastPage siteId pageSize pageToken
  · refine ⟨fun _ => Or.inl hlast,?_⟩
    intro _ e he
    rw [s.list_last hlast] at he
    obtain ⟨r,hr,rfl⟩ := List.mem_map.mp he
    obtain ⟨hmem,hsite⟩ := s.mem_rowsAfter siteId hr
    exact s.agrees_hydrated hnorm hmem hsite (List.mem_map_of_mem hr)
  · rw [s.list_continued hlast]
    have hrow : ∀ r ∈ (s.rowsAfter siteId pageToken).take (pageLimit pageSize),
        (s.AgreesWithLookup siteId r.scalars ↔ s.Bare siteId r.plateText) := by
      intro r hr
      obtain ⟨hmem,hsite⟩ := s.mem_rowsAfter siteId (List.mem_of_mem_take hr)
      exact s.agrees_scalars_iff hnorm hmem hsite
    constructor
    · intro hagree
      refine Or.inr ?_
      intro r hr
      exact (hrow r hr).mp (hagree r.scalars (List.mem_map_of_mem hr))
    · intro hcondition e he
      have hbare := hcondition.resolve_left hlast
      obtain ⟨r,hr,rfl⟩ := List.mem_map.mp he
      exact (hrow r hr).mpr (hbare r hr)

/-- Two plates that only sedans may use. -/
def twoSedans : List StoreOp :=
  [.upsert [0x73] [{ plateText := [0x41], allowedClasses := [.sedan] },
    { plateText := [0x42], allowedClasses := [.sedan] }]]

/-- On the first page the entry reads as open to any class. -/
theorem first_page_entry_is_unrestricted :
    ({ plateText := [0x41] } : Allowlistentry) ∈
        ((exec AllowlistStore.apply {} twoSedans).list [0x73] 1 []).entries ∧
      ¬ (exec AllowlistStore.apply {} twoSedans).AgreesWithLookup [0x73]
        { plateText := [0x41] } := by
  refine ⟨by decide +kernel,?_⟩
  rintro ⟨e,he,hsame⟩
  have hlookup : (exec AllowlistStore.apply {} twoSedans).lookup [0x73] [0x41] =
      some { plateText := [0x41], allowedClasses := [.sedan] } := by decide +kernel
  rw [hlookup] at he
  cases he
  cases (hsame.classes .sedan).mpr List.mem_cons_self

end AllowlistStore
end AlprGate.Auth
