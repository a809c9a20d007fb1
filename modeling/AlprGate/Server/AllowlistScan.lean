import AlprGate.Library.KeysetPaging
import AlprGate.Server.AllowlistListing

/-! # Scanning a site

A client reads a site page by page and hands each token back, while others edit the list
between its calls. The plates of a page are the least ones above the token, so the scan is
a paging by key over the plates that the site has at each call.
-/
namespace AlprGate.Auth
open Transition KeysetPaging

namespace AllowlistStore

/-- The calls of a scan, each with the store it met. Every call comes after a list of edits; an
empty token ends the scan. -/
def scan (siteId : Text) (pageSize : ℕ) :
    AllowlistStore → Text → List (List StoreOp) → List (AllowlistStore × Page)
  | _, _, [] => []
  | s, token, ops :: edits =>
    let s' := exec apply s ops
    let page := s'.list siteId pageSize token
    (s', page) :: if page.nextToken = [] then [] else scan siteId pageSize s' page.nextToken edits

def plates (s : AllowlistStore) (siteId : Text) : Finset Text :=
  ((s.allowlist.rows.filter fun r => r.siteId = siteId).map AllowlistRow.plateText).toFinset

theorem mem_plates {s : AllowlistStore} {siteId plate : Text} :
    plate ∈ s.plates siteId ↔ ∃ r ∈ s.allowlist.rows, r.siteId = siteId ∧ r.plateText = plate := by
  simp only [plates, List.mem_toFinset, List.mem_map, List.mem_filter, decide_eq_true_eq, and_assoc]

/-- Every stored plate has a character. -/
def Named (s : AllowlistStore) : Prop := ∀ r ∈ s.allowlist.rows, r.plateText ≠ []

theorem Named.exec {s : AllowlistStore} (h : Named s) (ops : List StoreOp) :
    Named (exec apply s ops) :=
  exec_invariant (I:=Named) (fun _ op hs => forall_rows_apply (fun _ _ he => he) op hs) ops h

/-- The order of the column: byte by byte. -/
local instance textOrder : LinearOrder Text where
  le_refl := List.le_refl
  le_trans _ _ _ := List.le_trans
  le_antisymm _ _ := List.le_antisymm
  le_total := List.le_total
  lt_iff_le_not_ge a b := by
    constructor
    · intro h
      exact ⟨List.le_of_lt h,List.not_le.mpr h⟩
    · intro h
      exact List.not_le.mp h.2
  toDecidableLE := inferInstance
  toDecidableLT := inferInstance
  toDecidableEq := inferInstance
  toOrd := ⟨fun a b => compareOfLessAndEq a b⟩
  compare_eq_compareOfLessAndEq _ _ := rfl

section Pages
variable (s : AllowlistStore) (siteId : Text) (pageToken : Text)

/-- The rows behind a token are the plates above it. -/
theorem above_plates :
    above (s.plates siteId) pageToken = (s.rowsAfter siteId pageToken).map AllowlistRow.plateText := by
  have hset : ((s.plates siteId).filter fun plate => pageToken < plate) =
      ((s.rowsAfter siteId pageToken).map AllowlistRow.plateText).toFinset := by
    ext plate
    rw [Finset.mem_filter, mem_plates, List.mem_toFinset, List.mem_map]
    simp only [rowsAfter, List.mem_insertionSort, List.mem_filter, decide_eq_true_eq]
    constructor
    · rintro ⟨⟨r,hmem,hsite,rfl⟩,hlt⟩
      exact ⟨r,⟨hmem,hsite,hlt⟩,rfl⟩
    · rintro ⟨r,⟨hmem,hsite,hlt⟩,rfl⟩
      exact ⟨⟨r,hmem,hsite,rfl⟩,hlt⟩
  have hsorted : ((s.rowsAfter siteId pageToken).map AllowlistRow.plateText).Pairwise (· ≤ ·) := by
    rw [List.pairwise_map]
    have : Std.Total fun a b : AllowlistRow => a.plateText ≤ b.plateText :=
      ⟨fun a b => le_total a.plateText b.plateText⟩
    have : IsTrans AllowlistRow fun a b => a.plateText ≤ b.plateText :=
      ⟨fun _ _ _ hab hbc => le_trans hab hbc⟩
    exact List.pairwise_insertionSort _ _
  rw [above, hset]
  exact (List.toFinset_sort (· ≤ ·) (s.rowsAfter_plates_nodup siteId pageToken)).mpr hsorted

variable {s siteId pageToken} {pageSize : ℕ}

/-- A page without a token holds all plates above its own token. -/
theorem page_last (h : s.LastPage siteId pageSize pageToken) :
    (above (s.plates siteId) pageToken).length ≤ pageLimit pageSize ∧
    (s.list siteId pageSize pageToken).entries.map Allowlistentry.plateText =
      above (s.plates siteId) pageToken ∧
    (s.list siteId pageSize pageToken).nextToken = [] := by
  rw [s.list_last h, above_plates, List.length_map, List.map_map]
  exact ⟨h,rfl,rfl⟩

/-- A page with a token holds the least of them, and the token is the last of these. -/
theorem page_continued (hnamed : Named s) (h : ¬ s.LastPage siteId pageSize pageToken) :
    pageLimit pageSize < (above (s.plates siteId) pageToken).length ∧
    (s.list siteId pageSize pageToken).entries.map Allowlistentry.plateText =
      (above (s.plates siteId) pageToken).take (pageLimit pageSize) ∧
    ((above (s.plates siteId) pageToken).take (pageLimit pageSize)).getLast? =
      some (s.list siteId pageSize pageToken).nextToken ∧
    (s.list siteId pageSize pageToken).nextToken ≠ [] := by
  have hmore := not_le.mp h
  have hpos := pageLimit_pos pageSize
  rw [s.list_continued h, above_plates, List.length_map, List.map_map, ← List.map_take]
  cases hlast : (((s.rowsAfter siteId pageToken).take (pageLimit pageSize)).map
      AllowlistRow.plateText).getLast? with
  | none =>
    have hnil := congrArg List.length (List.getLast?_eq_none_iff.mp hlast)
    rw [List.length_map, List.length_take_of_le (le_of_lt hmore), List.length_nil] at hnil
    omega
  | some plate =>
    refine ⟨hmore,rfl,rfl,?_⟩
    obtain ⟨r,hr,rfl⟩ := List.mem_map.mp (List.mem_of_getLast? hlast)
    exact hnamed r (s.mem_rowsAfter siteId (List.mem_of_mem_take hr)).1

/-- A call as the scan of a set sees it. -/
def seen (siteId : Text) (c : AllowlistStore × Page) : Finset Text × List Text :=
  (c.1.plates siteId, c.2.entries.map Allowlistentry.plateText)

/-- The calls of a scan page through the plates by key. -/
theorem scan_seen (hnamed : Named s) (siteId pageToken : Text) (pageSize : ℕ)
    (edits : List (List StoreOp)) :
    ∃ done, Scan (pageLimit pageSize) pageToken
        ((s.scan siteId pageSize pageToken edits).map (seen siteId)) done ∧
      (done = true ↔ ∃ c ∈ s.scan siteId pageSize pageToken edits, c.2.nextToken = []) ∧
      (done = false → (s.scan siteId pageSize pageToken edits).length = edits.length) := by
  induction edits generalizing s pageToken with
  | nil => exact ⟨false,.pause pageToken,by simp [scan],fun _ => rfl⟩
  | cons ops edits ih =>
    have hnamed' := hnamed.exec ops
    rw [scan]
    by_cases hlast : (exec apply s ops).LastPage siteId pageSize pageToken
    · obtain ⟨hfits,hplates,htoken⟩ := page_last hlast
      rw [if_pos htoken]
      refine ⟨true,?_,⟨fun _ => ⟨_,List.mem_cons_self,htoken⟩,fun _ => rfl⟩,Bool.noConfusion⟩
      rw [List.map_singleton, seen, hplates]
      exact .last hfits
    · -- the token is a stored plate and not empty, so the scan goes on from it
      obtain ⟨hmore,hplates,hcursor,htoken⟩ := page_continued hnamed' hlast
      obtain ⟨done,hscan,hdone,hlength⟩ := ih hnamed'
        ((exec apply s ops).list siteId pageSize pageToken).nextToken
      rw [if_neg htoken]
      refine ⟨done,?_,?_,?_⟩
      · rw [List.map_cons, seen, hplates]
        exact .more hmore hcursor hscan
      · rw [hdone, List.exists_mem_cons_iff]
        exact ⟨Or.inr,fun h => h.resolve_left htoken⟩
      · intro hpaused
        rw [List.length_cons, List.length_cons, hlength hpaused]

/-- What the edits keep holds of every store that a scan meets. -/
theorem scan_invariant {I : AllowlistStore → Prop} {edits : List (List StoreOp)}
    (hedit : ∀ ops ∈ edits, ∀ t, I t → I (exec apply t ops)) (hs : I s) (siteId pageToken : Text)
    (pageSize : ℕ) : ∀ c ∈ s.scan siteId pageSize pageToken edits, I c.1 := by
  induction edits generalizing s pageToken with
  | nil =>
    intro c hc
    cases hc
  | cons ops edits ih =>
    have hs' : I (exec apply s ops) := hedit ops List.mem_cons_self s hs
    intro c hc
    rw [scan] at hc
    rcases List.mem_cons.mp hc with rfl | hc
    · exact hs'
    · split at hc
      · cases hc
      · exact ih (fun ops' hops' => hedit ops' (List.mem_cons_of_mem ops hops')) hs' _ c hc

theorem returned_seen (siteId : Text) (calls : List (AllowlistStore × Page)) :
    returned (calls.map (seen siteId)) =
      calls.flatMap fun c => c.2.entries.map Allowlistentry.plateText := by
  rw [returned, List.flatMap_map]
  rfl

theorem mem_plates_of_lookup {plateText : Text} (h : (s.lookup siteId plateText).isSome) :
    normalizePlate plateText ∈ s.plates siteId := by
  rw [lookup, Option.isSome_map] at h
  obtain ⟨r,hr⟩ := Option.isSome_iff_exists.mp h
  obtain ⟨hmem,hkey⟩ := Table.mem_of_get? hr
  exact mem_plates.mpr ⟨r,hmem,congrArg Prod.fst hkey,congrArg Prod.snd hkey⟩

theorem nil_lt_of_ne_nil {plate : Text} (h : plate ≠ []) : [] < plate := by
  cases plate with
  | nil => exact absurd rfl h
  | cons u plate => exact List.nil_lt_cons u plate

end Pages

end AllowlistStore

namespace AllowlistStore

/-- Whatever is edited between its calls, a scan returns plates in ascending order and in pages
of the clamped size; when it has come to its end, every plate that was there at each call has
been returned once; and it comes to its end when nothing is edited. -/
theorem scan_returns_lasting_plates (history : List StoreOp) (siteId : Text) (pageSize : ℕ)
    (edits : List (List StoreOp)) :
    let s := exec apply {} history
    let calls := s.scan siteId pageSize [] edits
    let plates := calls.flatMap fun c => c.2.entries.map Allowlistentry.plateText
    plates.Pairwise (· < ·) ∧
    (∀ c ∈ calls, c.2.entries.length ≤ max 1 (min pageSize 1000)) ∧
    ((∃ c ∈ calls, c.2.nextToken = []) → ∀ plateText,
      (∀ c ∈ calls, (c.1.lookup siteId plateText).isSome) →
      plates.count (normalizePlate plateText) = 1) ∧
    ∃ n, ∃ c ∈ s.scan siteId pageSize [] (List.replicate n []), c.2.nextToken = [] := by
  intro s calls plates
  let _ : LinearOrder Text := textOrder
  have hnamed : Named s := by
    have hempty : Named {} := fun r hr => by cases hr
    exact hempty.exec history
  obtain ⟨done,hscan,hdone,-⟩ := scan_seen hnamed siteId [] pageSize edits
  have hplates : returned (calls.map (seen siteId)) = plates := returned_seen siteId calls
  have hascending : plates.Pairwise (· < ·) := by
    rw [← hplates]
    exact hscan.ascending.1
  refine ⟨hascending,?_,?_,?_⟩
  · intro c hc
    have hpage := hscan.page_length_le (seen siteId c) (List.mem_map_of_mem hc)
    rw [seen, List.length_map] at hpage
    exact hpage
  · intro hend plateText hthere
    have hnodup : plates.Nodup := by
      refine hascending.imp ?_
      rintro a _ hlt rfl
      exact List.lt_irrefl a hlt
    have hnonempty : normalizePlate plateText ≠ [] := by
      obtain ⟨c,hc,-⟩ := hend
      obtain ⟨r,hr,-,hplate⟩ := mem_plates.mp (mem_plates_of_lookup (hthere c hc))
      rw [← hplate]
      have hnamed' : Named c.1 :=
        scan_invariant (I:=Named) (fun ops _ _ ht => ht.exec ops) hnamed siteId [] pageSize c hc
      exact hnamed' r hr
    have hmem : normalizePlate plateText ∈ plates := by
      rw [← hplates]
      rw [hdone.mpr hend] at hscan
      refine hscan.complete (nil_lt_of_ne_nil hnonempty) ?_
      intro p hp
      obtain ⟨c,hc,rfl⟩ := List.mem_map.mp hp
      exact mem_plates_of_lookup (hthere c hc)
    exact List.count_eq_one_of_mem hnodup hmem
  · -- an unfinished scan would have more calls than there are plates
    obtain ⟨done',hscan',hdone',hlength⟩ := scan_seen hnamed siteId [] pageSize
      (List.replicate ((s.plates siteId).card + 1) [])
    refine ⟨(s.plates siteId).card + 1,hdone'.mp ?_⟩
    cases done' with
    | true => rfl
    | false =>
      have hsame : ∀ ops ∈ List.replicate ((s.plates siteId).card + 1) ([] : List StoreOp), ∀ t,
          t = s → exec apply t ops = s := by
        intro ops hops t ht
        rw [List.eq_of_mem_replicate hops, exec_nil, ht]
      have hbound := hscan'.length_le_card (pageLimit_pos pageSize) (S:=s.plates siteId) (by
        intro p hp
        obtain ⟨c,hc,rfl⟩ := List.mem_map.mp hp
        rw [seen, scan_invariant (I:=fun t => t = s) hsame rfl siteId [] pageSize c hc])
      rw [List.length_map, hlength rfl, List.length_replicate] at hbound
      omega

/-- Three plates in pages of one; between the first call and the second the plate behind the
cursor and the cursor's own plate are removed. -/
theorem scan_past_removed_cursor :
    let history : List StoreOp := [.upsert [0x73] [{ plateText := [0x43] }, { plateText := [0x41] },
      { plateText := [0x42] }]]
    let calls := (exec apply {} history).scan [0x73] 1 []
      [[], [.remove [0x73] [[0x41], [0x42]]], []]
    (calls.map fun c => c.2.nextToken) = [[0x41], []] ∧
    (calls.flatMap fun c => c.2.entries.map Allowlistentry.plateText).count [0x43] = 1 :=
  ⟨by decide +kernel,
    (scan_returns_lasting_plates [.upsert [0x73] [{ plateText := [0x43] }, { plateText := [0x41] },
      { plateText := [0x42] }]] [0x73] 1 [[], [.remove [0x73] [[0x41], [0x42]]], []]).2.2.1
        (by decide +kernel) [0x43] (by decide +kernel)⟩

end AllowlistStore
end AlprGate.Auth
