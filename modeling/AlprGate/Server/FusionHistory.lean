import AlprGate.Server.Fusion
import AlprGate.Server.AllowlistHistory
import AlprGate.Server.TimeWindows

/-! # The engine after a history

The policy function is read on the terms of an entry: its dates, its classes as a set,
its windows as a multiset. A history is made of store operations and overrides; the two
do not disturb each other.
-/
namespace AlprGate.Auth

/-- The days of the mask, and the minutes from start to end, around midnight if need be. -/
def TimeWindow.Covers (w : TimeWindow) (tm : Tm) : Prop :=
  w.daysOfWeekMask.getLsbD tm.isoBit = true ∧
    ((w.startMinuteOfDay.toInt ≤ tm.minuteOfDay ∧ tm.minuteOfDay < w.endMinuteOfDay.toInt) ∨
      (w.endMinuteOfDay.toInt < w.startMinuteOfDay.toInt ∧
        (w.startMinuteOfDay.toInt ≤ tm.minuteOfDay ∨ tm.minuteOfDay < w.endMinuteOfDay.toInt)))

/-- No class restriction, or the class is in the set. -/
def Terms.AdmitsClass (t : Terms) (cls : VehicleClass) : Prop := t.classes = ∅ ∨ cls ∈ t.classes

/-- Inside the validity dates and, where there are windows, inside one of them. -/
def Terms.AdmitsInstant (t : Terms) (nowUnix : ℤ) (nowLocal : Tm) : Prop :=
  (∀ seconds, t.validFrom = some seconds → seconds ≤ nowUnix) ∧
  (∀ seconds, t.validUntil = some seconds → nowUnix < seconds) ∧
  (t.windows = 0 ∨ ∃ w ∈ t.windows, w.Covers nowLocal)

theorem windowContains_iff (w : TimeWindow) (tm : Tm) :
    windowContains w tm.minuteOfDay tm.isoBit = true ↔ w.Covers tm := by
  have hmask := mask_bit_eq_zero w.daysOfWeekMask tm.isoBit_lt
  rw [windowContains, TimeWindow.Covers]
  by_cases hzero : w.daysOfWeekMask &&& (1#32 <<< tm.isoBit) = 0#32
  · rw [if_pos hzero, hmask.mp hzero]
    simp
  · have hbit := Bool.eq_true_of_not_eq_false (fun h => hzero (hmask.mpr h))
    rw [if_neg hzero, hbit]
    dsimp only
    split
    · simp only [decide_eq_true_eq, true_and]
      omega
    · simp only [decide_eq_true_eq, true_and]
      omega

theorem classAllowed_iff (e : Allowlistentry) (cls : VehicleClass) :
    classAllowed e cls = true ↔ e.terms.AdmitsClass cls := by
  simp [classAllowed, Terms.AdmitsClass, Allowlistentry.terms, List.isEmpty_iff]

/-- A timestamp that is not positive excludes nothing. -/
theorem excludedBy_eq_false_iff (ts : Option ℤ) (test : ℤ → Bool) :
    excludedBy ts test = false ↔ ∀ seconds, ts.bind positive = some seconds → test seconds = false := by
  cases ts with
  | none => simp [excludedBy]
  | some seconds =>
    by_cases hpos : 0 < seconds
    · simp [excludedBy, positive, hpos]
    · simp [excludedBy, positive, hpos]

theorem windows_iff (e : Allowlistentry) (tm : Tm) :
    (e.timeWindows.isEmpty = true ∨
      (e.timeWindows.any fun w => windowContains w tm.minuteOfDay tm.isoBit) = true) ↔
      (e.terms.windows = 0 ∨ ∃ w ∈ e.terms.windows, w.Covers tm) := by
  simp only [List.isEmpty_iff, List.any_eq_true, windowContains_iff, Allowlistentry.terms,
    Multiset.coe_eq_zero, Multiset.mem_coe]

/-- The policy function admits an entry exactly when its terms admit class and instant. -/
theorem isAllowedNow_iff (e : Allowlistentry) (cls : VehicleClass) (nowUnix : ℤ) (nowLocal : Tm) :
    isAllowedNow e cls nowUnix nowLocal = true ↔
      e.terms.AdmitsClass cls ∧ e.terms.AdmitsInstant nowUnix nowLocal := by
  have hfrom := excludedBy_eq_false_iff e.validFrom fun seconds => nowUnix < seconds
  have huntil := excludedBy_eq_false_iff e.validUntil fun seconds => seconds ≤ nowUnix
  simp only [decide_eq_false_iff_not, not_lt, not_le] at hfrom huntil
  rw [isAllowedNow, Terms.AdmitsInstant, ← classAllowed_iff, ← windows_iff]
  by_cases h1 : excludedBy e.validFrom (fun seconds => nowUnix < seconds) = true
  · rw [if_pos h1]
    have hnot : ¬ ∀ seconds, e.terms.validFrom = some seconds → seconds ≤ nowUnix := fun h =>
      Bool.false_ne_true ((hfrom.mpr h).symm.trans h1)
    exact ⟨fun h => absurd h Bool.false_ne_true,fun h => absurd h.2.1 hnot⟩
  · rw [if_neg h1]
    have h1' := hfrom.mp (Bool.eq_false_iff.mpr h1)
    by_cases h2 : excludedBy e.validUntil (fun seconds => seconds ≤ nowUnix) = true
    · rw [if_pos h2]
      have hnot : ¬ ∀ seconds, e.terms.validUntil = some seconds → nowUnix < seconds := fun h =>
        Bool.false_ne_true ((huntil.mpr h).symm.trans h2)
      exact ⟨fun h => absurd h Bool.false_ne_true,fun h => absurd h.2.2.1 hnot⟩
    · rw [if_neg h2]
      have h2' := huntil.mp (Bool.eq_false_iff.mpr h2)
      cases hclass : classAllowed e cls with
      | false => simp
      | true =>
        have hdates : ∀ P : Prop, (true = true ∧
            (∀ seconds, e.terms.validFrom = some seconds → seconds ≤ nowUnix) ∧
            (∀ seconds, e.terms.validUntil = some seconds → nowUnix < seconds) ∧ P) ↔ P := fun P =>
          ⟨fun h => h.2.2.2,fun h => ⟨rfl,h1',h2',h⟩⟩
        rw [hdates]
        cases hempty : e.timeWindows.isEmpty with
        | false => simp
        | true => simp

/-- The policy function reads an entry through its terms only. -/
theorem isAllowedNow_congr {e e' : Allowlistentry} (h : e'.terms = e.terms) (cls : VehicleClass)
    (nowUnix : ℤ) (nowLocal : Tm) :
    isAllowedNow e' cls nowUnix nowLocal = isAllowedNow e cls nowUnix nowLocal := by
  rw [Bool.eq_iff_iff, isAllowedNow_iff, isAllowedNow_iff, h]

/-- Storing an entry and reading it back does not change whom it admits, and when. -/
theorem stored_entry_admits_alike (s : AllowlistStore) (siteId : Text) (e : Allowlistentry)
    (h : normalizePlate e.plateText ≠ []) :
    ∃ e', (s.upsert siteId [e]).2.lookup siteId e.plateText = some e' ∧
      ∀ cls nowUnix nowLocal,
        isAllowedNow e' cls nowUnix nowLocal = isAllowedNow e cls nowUnix nowLocal := by
  have haccepted : Accepted [e] := by
    intro e' he'
    rw [List.mem_singleton.mp he']
    exact h
  have hterms : ((s.upsert siteId [e]).2.lookup siteId e.plateText).map Allowlistentry.terms =
      some e.terms := by
    rw [AllowlistStore.lookup_terms, AllowlistStore.upsert_state, if_pos haccepted]
    exact s.upsertEntry_self siteId e
  obtain ⟨e',hlookup,he'⟩ := Option.map_eq_some_iff.mp hterms
  exact ⟨e',hlookup,isAllowedNow_congr he'⟩

/-- An entry with an absent, a negative and two equal parts. -/
theorem stored_sedan_admits_alike :
    let e : Allowlistentry :=
      { plateText := [0x61, 0x20]
        allowedClasses := [.suv, .sedan, .suv]
        timeWindows := [⟨1320,120,127⟩, ⟨0,60,1⟩]
        validFrom := some (-5) }
    normalizePlate e.plateText ≠ [] ∧
    ∃ e', (({} : AllowlistStore).upsert [0x73] [e]).2.lookup [0x73] e.plateText = some e' ∧
      ∀ cls nowUnix nowLocal,
        isAllowedNow e' cls nowUnix nowLocal = isAllowedNow e cls nowUnix nowLocal :=
  ⟨by decide,stored_entry_admits_alike {} [0x73] _ (by decide)⟩

end AlprGate.Auth

namespace AlprGate.Fusion
open Auth Selection Transition

/-- What a history is made of. -/
inductive EngineOp where
  | store (op : StoreOp)
  | setOverride (gateId : Text) (state : OverrideState)
  deriving DecidableEq, Repr

def EngineOp.storeOp : EngineOp → Option StoreOp
  | .store op => some op
  | .setOverride _ _ => none

def EngineOp.overrides (gateId : Text) : EngineOp → Option OverrideState
  | .store _ => none
  | .setOverride gateId' state => if gateId' = gateId then some state else none

namespace FusionEngine

def apply (f : FusionEngine) : EngineOp → FusionEngine
  | .store op => { f with store := f.store.apply op }
  | .setOverride gateId state => f.setOverride gateId state

/-- The engine after a history that starts from an empty database. -/
def after (cfg : FusionConfig) (history : List EngineOp) : FusionEngine :=
  exec apply { cfg := cfg } history

theorem setOverride_frame (f : FusionEngine) (gateId : Text) (state : OverrideState) :
    (f.setOverride gateId state).store = f.store ∧ (f.setOverride gateId state).cfg = f.cfg := by
  unfold setOverride
  split
  · exact ⟨rfl,rfl⟩
  · exact ⟨rfl,rfl⟩

theorem exec_cfg (f : FusionEngine) (history : List EngineOp) :
    (exec apply f history).cfg = f.cfg := by
  refine exec_invariant (I:=fun f' : FusionEngine => f'.cfg = f.cfg) ?_ history rfl
  intro f' op h
  cases op with
  | store op => exact h
  | setOverride gateId state => exact ((f'.setOverride_frame gateId state).2).trans h

/-- Overrides do not touch the store. -/
theorem exec_store (f : FusionEngine) (history : List EngineOp) :
    (exec apply f history).store =
      exec AllowlistStore.apply f.store (history.filterMap EngineOp.storeOp) := by
  induction history generalizing f with
  | nil => rfl
  | cons op history ih =>
    rw [exec_cons, ih]
    cases op with
    | store op => rfl
    | setOverride gateId state =>
      rw [apply, (f.setOverride_frame gateId state).1]
      rfl

theorem setOverride_overrideFor (f : FusionEngine) (gateId gateId' : Text)
    (state : OverrideState) :
    (f.setOverride gateId' state).overrideFor gateId =
      (if gateId' = gateId then some state else none).getD (f.overrideFor gateId) := by
  by_cases hgate : gateId' = gateId
  · subst hgate
    rw [if_pos rfl, Option.getD_some, setOverride]
    by_cases hstate : state = .none
    · rw [if_pos hstate, overrideFor, hstate]
      simp only [Table.get?_erase_self]
    · rw [if_neg hstate, overrideFor]
      have hget := Table.get?_upsert_self f.overrides (gateId', state)
      simp only [hget]
  · rw [if_neg hgate, Option.getD_none, setOverride]
    have hne : gateId ≠ gateId' := fun h => hgate h.symm
    by_cases hstate : state = .none
    · rw [if_pos hstate, overrideFor, overrideFor]
      simp only [Table.get?_erase_other hne]
    · rw [if_neg hstate, overrideFor, overrideFor]
      have hget := Table.get?_upsert_other (t:=f.overrides) (r:=(gateId', state)) hne
      simp only [hget]

end FusionEngine

/-- The gate's last override. -/
def currentOverride (history : List EngineOp) (gateId : Text) : OverrideState :=
  (latest (EngineOp.overrides gateId) history).getD .none

theorem overrideFor_after (cfg : FusionConfig) (history : List EngineOp) (gateId : Text) :
    (FusionEngine.after cfg history).overrideFor gateId = currentOverride history gateId := by
  refine exec_register (g:=fun f : FusionEngine => f.overrideFor gateId) ?_ { cfg := cfg } history
  intro f op
  cases op with
  | store op => rfl
  | setOverride gateId' state => exact f.setOverride_overrideFor gateId gateId' state

end AlprGate.Fusion
