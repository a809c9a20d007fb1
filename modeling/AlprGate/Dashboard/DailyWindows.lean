import AlprGate.Server.TimeWindows
import AlprGate.Dashboard.JsonMapping

/-! # Daily intervals through the dashboard

The reader of entries bounds both ends of a window by the last minute of the day, and the store
takes windows as half open, with an end before the start for midnight in between. An interval up
to midnight is therefore written with the end zero. The whole day has no window; an entry without
windows is one that is open all day.
-/
namespace AlprGate.DashApi
open Auth JsonValue

/-- A window of every day. -/
def everyDay (start stop : ℕ) : TimeWindow := ⟨BitVec.ofNat 32 start,BitVec.ofNat 32 stop,0x7F#32⟩

section EveryDay
variable {start stop : ℕ}

theorem toNat_minute {n : ℕ} (h : n ≤ 1439) : (BitVec.ofNat 32 n).toNat = n := by
  rw [BitVec.toNat_ofNat]
  exact Nat.mod_eq_of_lt (by omega)

theorem everyDay_onDay (start stop : ℕ) (tm : Tm) : (everyDay start stop).onDay tm.isoBit = true := by
  have hweek : ∀ day : Fin 7, (0x7F#32).getLsbD day.val = true := by decide
  exact hweek ⟨tm.isoBit,Nat.mod_lt _ (by decide)⟩

theorem minuteOfDay_nonneg (tm : Tm) : 0 ≤ tm.minuteOfDay ∧ tm.minuteOfDay < 1440 := by
  have hhour := tm.hour.isLt
  have hmin := tm.min.isLt
  unfold Tm.minuteOfDay
  omega

theorem everyDay_contains_of_le (h : start ≤ stop) (hstop : stop ≤ 1439) (tm : Tm) :
    windowContains (everyDay start stop) tm.minuteOfDay tm.isoBit = true ↔
      start ≤ tm.minuteOfDay ∧ tm.minuteOfDay < stop := by
  have hs : (everyDay start stop).startMinuteOfDay.toNat = start := toNat_minute (h.trans hstop)
  have he : (everyDay start stop).endMinuteOfDay.toNat = stop := toNat_minute hstop
  rw [windowContains_of_le tm.isoBit_lt (by rw [he]; exact hstop) (by rw [hs, he]; exact h), hs, he]
  simp [everyDay_onDay]

/-- The end zero is midnight. -/
theorem everyDay_contains_midnight (h : 0 < start) (hstart : start ≤ 1439) (tm : Tm) :
    windowContains (everyDay start 0) tm.minuteOfDay tm.isoBit = true ↔ start ≤ tm.minuteOfDay := by
  have hs : (everyDay start 0).startMinuteOfDay.toNat = start := toNat_minute hstart
  have he : (everyDay start 0).endMinuteOfDay.toNat = 0 := rfl
  have hday := (minuteOfDay_nonneg tm).1
  rw [windowContains_of_lt tm.isoBit_lt (by rw [hs]; exact hstart) (by rw [hs, he]; exact h), hs, he]
  simp [everyDay_onDay, not_lt.mpr hday]

end EveryDay

/-- A body with a plate and one window is accepted, and says just that. -/
theorem accepted_of_window {ρ : Type} (D : Doubles ρ) {start stop : ℕ} (hstart : start ≤ 1439)
    (hstop : stop ≤ 1439) :
    ∃ (v : Value ρ) (e : Allowlistentry), allowlistEntryFromJson D v { plateText := [] } = .ok e ∧
      OnlyWindow e (everyDay start stop) := by
  have hle : ∀ {n : ℕ}, n ≤ 1439 → BitVec.ofNat 32 n ≤ 1439#32 := by
    intro n hn
    rw [BitVec.le_def, toNat_minute hn]
    exact hn
  have he : Expressible { plateText := [0x4b], timeWindows := [everyDay start stop] } :=
    ⟨List.cons_ne_nil _ _,fun c hc => absurd hc List.not_mem_nil,fun w hw => by
      rw [List.mem_singleton.mp hw]
      exact ⟨hle hstart,hle hstop,BitVec.and_self⟩,rfl,rfl⟩
  exact ⟨_,_,fromJson_toJson D (fun _ _ => []) he,⟨rfl,rfl,rfl,rfl⟩⟩

/-- No window that the reader accepts holds at every minute: one that does not wrap misses the
last minute, and one that wraps misses its end. -/
theorem not_all_day {w : TimeWindow} (hstart : w.startMinuteOfDay.toNat ≤ 1439)
    (hend : w.endMinuteOfDay.toNat ≤ 1439) :
    ∃ tm : Tm, windowContains w tm.minuteOfDay tm.isoBit = false := by
  rcases le_or_gt w.startMinuteOfDay.toNat w.endMinuteOfDay.toNat with hle | hlt
  · obtain ⟨tm,hminute,-⟩ := Tm.exists_minuteOfDay (m:=1439) (by decide)
    refine ⟨tm,Bool.eq_false_of_not_eq_true fun hin => ?_⟩
    obtain ⟨-,-,hbefore⟩ := (windowContains_of_le tm.isoBit_lt hend hle).mp hin
    omega
  · obtain ⟨tm,hminute,-⟩ := Tm.exists_minuteOfDay (m:=w.endMinuteOfDay.toNat) (by omega)
    refine ⟨tm,Bool.eq_false_of_not_eq_true fun hin => ?_⟩
    obtain ⟨-,hafter | hbefore⟩ := (windowContains_of_lt tm.isoBit_lt hstart hlt).mp hin
    · omega
    · omega

/-- An accepted body whose entry is admitted exactly in the interval, on every day. -/
def DailyInterval {ρ : Type} (D : Doubles ρ) (a b : ℕ) : Prop :=
  ∃ (v : Value ρ) (e : Allowlistentry) (w : TimeWindow),
    allowlistEntryFromJson D v { plateText := [] } = .ok e ∧ OnlyWindow e w ∧
    w.daysOfWeekMask = 0x7F#32 ∧
    ∀ cls nowUnix tm, isAllowedNow e cls nowUnix tm = true ↔
      a ≤ tm.minuteOfDay ∧ tm.minuteOfDay < b

theorem not_dailyInterval_wholeDay {ρ : Type} (D : Doubles ρ) : ¬ DailyInterval D 0 1440 := by
  rintro ⟨v,e,w,haccepted,honly,-,hexact⟩
  have hrange := (expressible_of_fromJson haccepted).windows w
    (by rw [honly.timeWindows]; exact List.mem_singleton_self w)
  obtain ⟨tm,hout⟩ := not_all_day (w:=w) (BitVec.le_def.mp hrange.1) (BitVec.le_def.mp hrange.2.1)
  have hday := minuteOfDay_nonneg tm
  have hin := (hexact .unknown 0 tm).mpr ⟨by exact_mod_cast hday.1,by exact_mod_cast hday.2⟩
  rw [honly.isAllowedNow_eq, hout] at hin
  cases hin

/-- Every daily interval but the whole day is one window that the dashboard accepts. -/
theorem daily_interval_expressible_iff {ρ : Type} (D : Doubles ρ) (a b : ℕ) (hab : a < b)
    (hb : b ≤ 1440) : DailyInterval D a b ↔ ¬ (a = 0 ∧ b = 1440) := by
  constructor
  · rintro hwindow ⟨rfl,rfl⟩
    exact not_dailyInterval_wholeDay D hwindow
  · intro hpart
    rcases Nat.lt_or_ge b 1440 with hbefore | hmidnight
    · have hstart : a ≤ 1439 := by omega
      have hstop : b ≤ 1439 := by omega
      obtain ⟨v,e,haccepted,honly⟩ := accepted_of_window D hstart hstop
      refine ⟨v,e,_,haccepted,honly,rfl,fun cls nowUnix tm => ?_⟩
      rw [honly.isAllowedNow_eq]
      exact everyDay_contains_of_le hab.le (by omega) tm
    · have hlast : b = 1440 := Nat.le_antisymm hb hmidnight
      have hstart : a ≤ 1439 := by omega
      obtain ⟨v,e,haccepted,honly⟩ := accepted_of_window D hstart (Nat.zero_le 1439)
      refine ⟨v,e,_,haccepted,honly,rfl,fun cls nowUnix tm => ?_⟩
      have hday := (minuteOfDay_nonneg tm).2
      rw [honly.isAllowedNow_eq, everyDay_contains_midnight (by omega) (by omega) tm, hlast]
      exact (and_iff_left (by exact_mod_cast hday)).symm

theorem daily_interval_until_midnight : DailyInterval noDoubles 1320 1440 :=
  (daily_interval_expressible_iff noDoubles 1320 1440 (by decide) (by decide)).mpr (by decide)

/-- The whole day cannot be written as a window: every window that the reader accepts leaves
out a minute. -/
theorem whole_day_not_expressible : ¬ DailyInterval noDoubles 0 1440 :=
  not_dailyInterval_wholeDay noDoubles

end AlprGate.DashApi
