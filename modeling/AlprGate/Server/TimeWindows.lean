import AlprGate.Server.Allowlist

/-! # Time windows over the days of a week

A window that ends before it starts goes on past midnight. It is meant to belong to the day on
which it begins; the day gate of the code looks at the current day instead. The two agree until
the part after midnight is reached, and there on the days whose bit is that of the day before.
-/
namespace AlprGate.Auth

/-- The window begins on this day of the week. -/
def TimeWindow.onDay (w : TimeWindow) (day : ℕ) : Bool := w.daysOfWeekMask.getLsbD day

/-- The day before; Sunday comes before Monday. -/
def Tm.isoBitBefore (tm : Tm) : ℕ := (tm.isoBit + 6) % 7

/-- From the start on a day of the mask, or up to the end on the day after one. -/
def TimeWindow.Spans (w : TimeWindow) (tm : Tm) : Prop :=
  (w.startMinuteOfDay.toNat ≤ tm.minuteOfDay ∧ w.onDay tm.isoBit = true) ∨
  (tm.minuteOfDay < w.endMinuteOfDay.toNat ∧ w.onDay tm.isoBitBefore = true)

instance (w : TimeWindow) (tm : Tm) : Decidable (w.Spans tm) :=
  inferInstanceAs (Decidable (_ ∨ _))

theorem Tm.isoBit_lt (tm : Tm) : tm.isoBit < 32 :=
  (Nat.mod_lt _ (by decide)).trans (by decide : 7 < 32)

theorem Tm.exists_minuteOfDay {m : ℕ} (h : m < 1440) :
    ∃ tm : Tm, tm.minuteOfDay = m ∧ tm.wday = 0 := by
  refine ⟨⟨⟨m / 60,by omega⟩,⟨m % 60,by omega⟩,0⟩,?_,rfl⟩
  simp only [Tm.minuteOfDay]
  omega

/-- The gate of the code tests one bit of the mask. -/
theorem mask_bit_eq_zero (mask : BitVec 32) {day : ℕ} (h : day < 32) :
    mask &&& (1#32 <<< day) = 0#32 ↔ mask.getLsbD day = false := by
  have hbit : ∀ i, (mask &&& (1#32 <<< day)).getLsbD i = (mask.getLsbD i && decide (i = day)) := by
    intro i
    rw [BitVec.getLsbD_and, ← BitVec.twoPow_eq, BitVec.getLsbD_twoPow]
    by_cases hi : day = i
    · subst hi
      simp [h]
    · simp [hi, Ne.symm hi]
  constructor
  · intro hzero
    have hday := hbit day
    rw [hzero] at hday
    simpa using hday.symm
  · intro hoff
    apply BitVec.eq_of_getLsbD_eq
    intro i hi
    rw [hbit, BitVec.getLsbD_zero]
    by_cases heq : i = day
    · rw [heq, hoff, Bool.false_and]
    · rw [decide_eq_false heq, Bool.and_false]

/-- A minute of the day is read as itself. -/
theorem toInt_of_minute {n : BitVec 32} (h : n.toNat ≤ 1439) : n.toInt = n.toNat :=
  BitVec.toInt_eq_toNat_of_lt (by omega)

section Contains
variable {w : TimeWindow} {minute : ℤ} {day : ℕ}

theorem windowContains_of_le (hday : day < 32) (hend : w.endMinuteOfDay.toNat ≤ 1439)
    (h : w.startMinuteOfDay.toNat ≤ w.endMinuteOfDay.toNat) :
    windowContains w minute day = true ↔
      w.onDay day = true ∧ w.startMinuteOfDay.toNat ≤ minute ∧ minute < w.endMinuteOfDay.toNat := by
  have hstart := toInt_of_minute (h.trans hend)
  simp only [windowContains, mask_bit_eq_zero _ hday, hstart, toInt_of_minute hend,
    TimeWindow.onDay]
  rw [if_pos (Int.ofNat_le.mpr h)]
  cases w.daysOfWeekMask.getLsbD day with
  | false => simp
  | true => simp

theorem windowContains_of_lt (hday : day < 32) (hstart : w.startMinuteOfDay.toNat ≤ 1439)
    (h : w.endMinuteOfDay.toNat < w.startMinuteOfDay.toNat) :
    windowContains w minute day = true ↔
      w.onDay day = true ∧ (w.startMinuteOfDay.toNat ≤ minute ∨ minute < w.endMinuteOfDay.toNat) := by
  have hend := toInt_of_minute (h.le.trans hstart)
  simp only [windowContains, mask_bit_eq_zero _ hday, hend, toInt_of_minute hstart,
    TimeWindow.onDay]
  rw [if_neg (not_le.mpr (Int.ofNat_lt.mpr h))]
  cases w.daysOfWeekMask.getLsbD day with
  | false => simp
  | true => simp

end Contains

/-- Nothing but one window restricts the entry. -/
structure OnlyWindow (e : Allowlistentry) (w : TimeWindow) : Prop where
  timeWindows : e.timeWindows = [w]
  allowedClasses : e.allowedClasses = []
  validFrom : e.validFrom.bind positive = none
  validUntil : e.validUntil.bind positive = none

theorem excludedBy_of_not_positive {ts : Option ℤ} (h : ts.bind positive = none)
    (test : ℤ → Bool) : excludedBy ts test = false := by
  cases ts with
  | none => rfl
  | some seconds =>
    have hneg : ¬ 0 < seconds := by
      intro hpos
      rw [Option.bind_some, positive, if_pos hpos] at h
      cases h
    simp [excludedBy, hneg]

/-- The window alone decides. -/
theorem OnlyWindow.isAllowedNow_eq {e : Allowlistentry} {w : TimeWindow} (h : OnlyWindow e w)
    (cls : VehicleClass) (nowUnix : ℤ) (tm : Tm) :
    isAllowedNow e cls nowUnix tm = windowContains w tm.minuteOfDay tm.isoBit := by
  have hclass : classAllowed e cls = true := by simp [classAllowed, h.allowedClasses]
  simp [isAllowedNow, excludedBy_of_not_positive h.validFrom,
    excludedBy_of_not_positive h.validUntil, hclass, h.timeWindows]

/-- A window past midnight is taken for a window of the day it began on exactly outside of its
morning part, and where today's bit is yesterday's. -/
theorem wrapped_window_follows_days_iff (e : Allowlistentry) (w : TimeWindow) (h : OnlyWindow e w)
    (hstart : w.startMinuteOfDay.toNat ≤ 1439)
    (hwrap : w.endMinuteOfDay.toNat < w.startMinuteOfDay.toNat) (cls : VehicleClass) (nowUnix : ℤ)
    (tm : Tm) :
    (isAllowedNow e cls nowUnix tm = true ↔ w.Spans tm) ↔
      (w.endMinuteOfDay.toNat ≤ tm.minuteOfDay ∨ w.onDay tm.isoBit = w.onDay tm.isoBitBefore) := by
  rw [h.isAllowedNow_eq, windowContains_of_lt tm.isoBit_lt hstart hwrap, TimeWindow.Spans]
  by_cases hmorning : tm.minuteOfDay < w.endMinuteOfDay.toNat
  · have hevening : ¬ (w.startMinuteOfDay.toNat : ℤ) ≤ tm.minuteOfDay := by omega
    have hlate : ¬ (w.endMinuteOfDay.toNat : ℤ) ≤ tm.minuteOfDay := not_le.mpr hmorning
    simp only [hmorning, hevening, hlate, or_true, and_true, false_and, true_and, false_or]
    exact Bool.eq_iff_iff.symm
  · have hlate : (w.endMinuteOfDay.toNat : ℤ) ≤ tm.minuteOfDay := not_lt.mp hmorning
    simp only [hmorning, hlate, or_false, false_and, true_or, iff_true]
    exact and_comm

/-- With every day in the mask the night from Sunday to Monday is in the window. -/
theorem wrapped_window_follows_every_day :
    let w : TimeWindow := ⟨1320,120,0x7F⟩
    isAllowedNow { plateText := [0x4b], timeWindows := [w] } .sedan 0 ⟨1,0,1⟩ = true ↔
      w.Spans ⟨1,0,1⟩ :=
  (wrapped_window_follows_days_iff { plateText := [0x4b], timeWindows := [⟨1320,120,0x7F⟩] }
    ⟨1320,120,0x7F⟩ ⟨rfl,rfl,rfl,rfl⟩ (by decide) (by decide) .sedan 0 ⟨1,0,1⟩).mpr
    (Or.inr (by decide))

/-- A window from ten in the evening to two in the morning, on Mondays. The night of Monday is
cut at midnight, and the small hours of Monday, which no window has begun before, are let in. -/
theorem wrapped_window_cut_at_midnight :
    let w : TimeWindow := ⟨1320,120,1⟩
    let e : Allowlistentry := { plateText := [0x4b], timeWindows := [w] }
    let monday : Tm := ⟨1,0,1⟩
    let tuesday : Tm := ⟨1,0,2⟩
    OnlyWindow e w ∧
    (w.Spans tuesday ∧ isAllowedNow e .sedan 0 tuesday = false) ∧
    (¬ w.Spans monday ∧ isAllowedNow e .sedan 0 monday = true) :=
  ⟨⟨rfl,rfl,rfl,rfl⟩,by decide,by decide⟩

end AlprGate.Auth
