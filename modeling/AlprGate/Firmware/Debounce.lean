import Mathlib.Data.List.Chain
import AlprGate.Firmware.Drivers

/-! # Debouncing as a sliding window

The drivers keep a counter, the last sample and the committed value. What they compute is a window
over the samples: a new value is committed at the poll at which enough samples in a row have it,
two at least, since the first sample after a change only starts the counter.
-/
namespace AlprGate.Drivers

/-- A debounced input with its polarity. -/
inductive Sensor where
  | limitSwitch (normallyOpen : Bool)
  | safetyBeam (activeHighWhenBlocked : Bool)
  deriving DecidableEq, Repr

/-- The sample that a GPIO level is read as. -/
def Sensor.read : Sensor → Bool → Bool
  | .limitSwitch normallyOpen, level => LimitSwitch.readActive normallyOpen level
  | .safetyBeam activeHighWhenBlocked, level => SafetyBeam.readBlocked activeHighWhenBlocked level

/-- A driver behind its construction at a level, with a callback. -/
def Sensor.start (x : Sensor) (samplesToCommit : ℕ) (level : Bool) : Debouncer :=
  { committed := x.read level, lastSample := x.read level, samplesToCommit, hasCallback := true }

theorem Sensor.start_eq_init (x : Sensor) (debounceMs pollPeriodMs : ℕ) (level : Bool) :
    x.start (samplesToCommit debounceMs pollPeriodMs) level =
      (Debouncer.init debounceMs pollPeriodMs (x.read level)).setCallback := rfl

section Polling
variable (d : Debouncer) (samples : ℕ → Bool)

/-- The state after the first polls of a sequence. -/
def Debouncer.polled : ℕ → Debouncer
  | 0 => d
  | k + 1 => ((Debouncer.polled k).onPoll (samples k)).1

/-- The call of the callback at a poll, if there is one. -/
def Debouncer.called (k : ℕ) : Option Bool :=
  if (d.polled samples k).hasCallback = true then ((d.polled samples k).onPoll (samples k)).2
  else none

/-- The values that the callback gets in the first polls. -/
def Debouncer.calls : ℕ → List Bool
  | 0 => []
  | k + 1 => Debouncer.calls k ++ (d.called samples k).toList

/-- The committed value changes to `v` at a poll. -/
def Debouncer.ChangesTo (v : Bool) (k : ℕ) : Prop :=
  (d.polled samples k).committed ≠ v ∧ (d.polled samples (k + 1)).committed = v

end Polling

/-- Of the first `k` samples, the last `n` are all `v`. -/
def LastAll (samples : ℕ → Bool) (v : Bool) (n k : ℕ) : Prop :=
  n ≤ k ∧ ∀ j, k - n ≤ j → j < k → samples j = v

/-- How many of the first `k` samples, from the last one back, are `v`. -/
def runLength (samples : ℕ → Bool) (v : Bool) : ℕ → ℕ
  | 0 => 0
  | k + 1 => if samples k = v then runLength samples v k + 1 else 0

section Window
variable {samples : ℕ → Bool} {v : Bool}

theorem lastAll_iff (n k : ℕ) : LastAll samples v n k ↔ n ≤ runLength samples v k := by
  unfold LastAll
  induction k generalizing n with
  | zero =>
    rw [runLength]
    exact ⟨fun h => h.1,fun h => ⟨h,fun j _ hj => absurd hj (Nat.not_lt_zero j)⟩⟩
  | succ k ih =>
    rw [runLength]
    cases n with
    | zero => exact iff_of_true ⟨Nat.zero_le _,fun j hle hlt => by omega⟩ (Nat.zero_le _)
    | succ n =>
      by_cases hlast : samples k = v
      · rw [if_pos hlast]
        constructor
        · rintro ⟨hle,hall⟩
          have hrest := (ih n).mp ⟨by omega,fun j hlow hlt => hall j (by omega) (by omega)⟩
          omega
        · intro hle
          obtain ⟨hle,hall⟩ := (ih n).mpr (by omega)
          refine ⟨by omega,fun j hlow hlt => ?_⟩
          obtain rfl | hlt := Nat.eq_or_lt_of_le (Nat.le_of_lt_succ hlt)
          · exact hlast
          · exact hall j (by omega) hlt
      · rw [if_neg hlast]
        refine iff_of_false ?_ (Nat.not_succ_le_zero n)
        rintro ⟨_,hall⟩
        exact hlast (hall k (by omega) (Nat.lt_succ_self k))

/-- A run is not longer than the part of the samples behind a different one. -/
theorem runLength_le {a k : ℕ} (hak : a ≤ k) (h : a = 0 ∨ samples (a - 1) ≠ v) :
    runLength samples v k ≤ k - a := by
  rw [← Nat.not_lt]
  intro hlong
  obtain ⟨hle,hall⟩ := (lastAll_iff (k - a + 1) k).mpr hlong
  rcases h with rfl | hother
  · omega
  · exact hother (hall (a - 1) (by omega) (by omega))

end Window

/-! ### The counter -/

section Counter
variable {samples : ℕ → Bool}

/-- As long as the last sample is the committed value, no sample in a row differs from it;
otherwise the counter counts those that do. -/
structure Debouncer.Counted (s : Debouncer) (samples : ℕ → Bool) (k : ℕ) : Prop where
  same : s.lastSample = s.committed → runLength samples (!s.committed) k = 0
  differs : s.lastSample ≠ s.committed → runLength samples (!s.committed) k = s.stableSamples ∧
    1 ≤ s.stableSamples ∧ s.stableSamples < max 2 s.samplesToCommit

/-- A poll that commits nothing, or the one that completes a window. -/
inductive Debouncer.Poll (s : Debouncer) (run : ℕ) : Debouncer × Option Bool → Prop where
  | quiet {s' : Debouncer} (hrun : run < max 2 s.samplesToCommit)
      (hcommitted : s'.committed = s.committed) : Poll s run (s',none)
  | commit {s' : Debouncer} (hrun : max 2 s.samplesToCommit ≤ run)
      (hcommitted : s'.committed = !s.committed) : Poll s run (s',some (!s.committed))

/-- What a poll does, by the run of samples that differ from the committed value. -/
theorem Debouncer.Counted.onPoll {s : Debouncer} {k : ℕ} (h : s.Counted samples k) :
    (s.onPoll (samples k)).1.Counted samples (k + 1) ∧
      Poll s (runLength samples (!s.committed) (k + 1)) (s.onPoll (samples k)) := by
  have htwo : 2 ≤ max 2 s.samplesToCommit := le_max_left _ _
  have hle : s.samplesToCommit ≤ max 2 s.samplesToCommit := le_max_right _ _
  unfold Debouncer.onPoll
  by_cases hsame : samples k = s.committed
  · -- the sample is the committed value: no run, whatever the counter says
    have hrun : runLength samples (!s.committed) (k + 1) = 0 := by
      rw [runLength, if_neg (by simp [hsame])]
    rw [hrun]
    split
    · exact ⟨⟨fun _ => hrun,fun hne => absurd hsame hne⟩,.quiet (by omega) rfl⟩
    · rename_i hlast
      have hlast : samples k = s.lastSample := not_not.mp hlast
      exact ⟨⟨fun _ => hrun,fun hne => absurd (hlast.symm.trans hsame) hne⟩,.quiet (by omega) rfl⟩
  · have hnew : samples k = !s.committed := Bool.eq_not.mpr hsame
    have hrun : runLength samples (!s.committed) (k + 1) =
        runLength samples (!s.committed) k + 1 := by
      rw [runLength, if_pos hnew]
    rw [hrun]
    split
    · -- the first sample of a run
      rename_i hlast
      have hold : s.lastSample = s.committed := by
        rw [hnew] at hlast
        exact (Bool.not_not_eq.mp hlast).symm
      rw [h.same hold] at hrun ⊢
      exact ⟨⟨fun heq => absurd heq hsame,fun _ => ⟨hrun,le_rfl,htwo⟩⟩,.quiet htwo rfl⟩
    · rename_i hlast
      have hlast : samples k = s.lastSample := not_not.mp hlast
      obtain ⟨hcount,hpos,hlt⟩ := h.differs fun heq => hsame (hlast.trans heq)
      rw [hcount] at hrun ⊢
      split
      · rename_i hfew
        exact ⟨⟨fun heq => absurd (hlast.trans heq) hsame,fun _ => ⟨hrun,Nat.le_add_left _ _,
          hfew.trans_le hle⟩⟩,.quiet (hfew.trans_le hle) rfl⟩
      · rename_i henough
        rw [hnew]
        refine ⟨⟨fun _ => ?_,fun hne => absurd (hlast.symm.trans hnew) hne⟩,.commit ?_ rfl⟩
        · dsimp only
          rw [runLength, if_neg (by simp [hnew])]
        · exact max_le (by omega) (by omega)

@[simp] theorem Debouncer.onPoll_samplesToCommit (s : Debouncer) (sample : Bool) :
    (s.onPoll sample).1.samplesToCommit = s.samplesToCommit := by
  unfold onPoll
  split
  · rfl
  · split
    · rfl
    · split <;> rfl

end Counter

/-! ### Sequences of polls -/

section Sequence
variable (x : Sensor) (n : ℕ) (level : Bool) (samples : ℕ → Bool)

theorem polled_samplesToCommit (k : ℕ) :
    ((x.start n level).polled samples k).samplesToCommit = n := by
  induction k with
  | zero => rfl
  | succ k ih => rw [Debouncer.polled, Debouncer.onPoll_samplesToCommit, ih]

theorem polled_hasCallback (k : ℕ) :
    ((x.start n level).polled samples k).hasCallback = true := by
  induction k with
  | zero => rfl
  | succ k ih => rw [Debouncer.polled, Debouncer.onPoll_hasCallback, ih]

theorem polled_counted (k : ℕ) : ((x.start n level).polled samples k).Counted samples k := by
  induction k with
  | zero => exact ⟨fun _ => rfl,fun hne => absurd rfl hne⟩
  | succ k ih => exact ih.onPoll.1

/-- A poll of a new driver after `k` others. -/
theorem poll_cases (k : ℕ) :
    let s := (x.start n level).polled samples k
    let s' := (x.start n level).polled samples (k + 1)
    (runLength samples (!s.committed) (k + 1) < max 2 n ∧ s'.committed = s.committed ∧
        (x.start n level).called samples k = none) ∨
      (max 2 n ≤ runLength samples (!s.committed) (k + 1) ∧ s'.committed = !s.committed ∧
        (x.start n level).called samples k = some (!s.committed)) := by
  intro s s'
  have hpoll := (polled_counted x n level samples k).onPoll.2
  have hcalled : (x.start n level).called samples k = (s.onPoll (samples k)).2 :=
    if_pos (polled_hasCallback x n level samples k)
  have hs' : s' = (s.onPoll (samples k)).1 := rfl
  rw [hcalled, hs']
  generalize hresult : s.onPoll (samples k) = result at hpoll ⊢
  cases hpoll with
  | quiet hrun hcommitted =>
    rw [polled_samplesToCommit] at hrun
    exact Or.inl ⟨hrun,hcommitted,rfl⟩
  | commit hrun hcommitted =>
    rw [polled_samplesToCommit] at hrun
    exact Or.inr ⟨hrun,hcommitted,rfl⟩

theorem changesTo_iff (v : Bool) (k : ℕ) :
    (x.start n level).ChangesTo samples v k ↔
      v ≠ ((x.start n level).polled samples k).committed ∧ LastAll samples v (max 2 n) (k + 1) := by
  unfold Debouncer.ChangesTo
  rw [lastAll_iff]
  rcases poll_cases x n level samples k with ⟨hrun,hcommitted,_⟩ | ⟨hrun,hcommitted,_⟩
  · refine iff_of_false ?_ ?_
    · rintro ⟨hne,hnew⟩
      exact hne (hcommitted.symm.trans hnew)
    · rintro ⟨hne,henough⟩
      rw [Bool.eq_not.mpr hne] at henough
      omega
  · rw [hcommitted]
    constructor
    · rintro ⟨hne,rfl⟩
      exact ⟨Ne.symm hne,hrun⟩
    · rintro ⟨hne,_⟩
      exact ⟨Ne.symm hne,(Bool.eq_not.mpr hne).symm⟩

theorem called_eq_some_iff (v : Bool) (k : ℕ) :
    (x.start n level).called samples k = some v ↔ (x.start n level).ChangesTo samples v k := by
  unfold Debouncer.ChangesTo
  rcases poll_cases x n level samples k with ⟨_,hcommitted,hcalled⟩ | ⟨_,hcommitted,hcalled⟩
  · rw [hcalled, hcommitted]
    refine iff_of_false (by simp) ?_
    rintro ⟨hne,hnew⟩
    exact hne hnew
  · rw [hcalled, hcommitted]
    constructor
    · intro h
      cases h
      exact ⟨by simp,rfl⟩
    · rintro ⟨_,rfl⟩
      rfl

/-- Each call negates the one before, and the last one has the committed value. -/
theorem calls_alternate (k : ℕ) :
    List.IsChain (· ≠ ·) (x.read level :: (x.start n level).calls samples k) ∧
      (x.read level :: (x.start n level).calls samples k).getLast? =
        some ((x.start n level).polled samples k).committed := by
  induction k with
  | zero => exact ⟨List.isChain_singleton _,rfl⟩
  | succ k ih =>
    obtain ⟨hchain,hlast⟩ := ih
    rw [Debouncer.calls]
    rcases poll_cases x n level samples k with ⟨_,hcommitted,hcalled⟩ | ⟨_,hcommitted,hcalled⟩
    · rw [hcalled, hcommitted, Option.toList_none, List.append_nil]
      exact ⟨hchain,hlast⟩
    · rw [hcalled, hcommitted, Option.toList_some, ← List.cons_append]
      refine ⟨List.isChain_append.mpr ⟨hchain,List.isChain_singleton _,?_⟩,List.getLast?_concat ..⟩
      intro a ha b hb
      rw [hlast] at ha
      cases ha
      cases hb
      simp

end Sequence

/-- The committed value changes to a value exactly at the polls at which the last samples, two at
least, all have it. The callback is called at exactly these polls, so that its values alternate,
and a shorter run of samples changes nothing. -/
theorem debounce_is_window (x : Sensor) (n : ℕ) (level : Bool) (levels : ℕ → Bool) :
    let samples k := x.read (levels k)
    let d := x.start n level
    (∀ k v, d.ChangesTo samples v k ↔
      v ≠ (d.polled samples k).committed ∧ LastAll samples v (max 2 n) (k + 1)) ∧
    (∀ k v, d.called samples k = some v ↔ d.ChangesTo samples v k) ∧
    (∀ k, List.IsChain (· ≠ ·) (x.read level :: d.calls samples k)) ∧
    ∀ a b v, (∀ j, a ≤ j → j < b → samples j = v) → (a = 0 ∨ samples (a - 1) ≠ v) →
      b - a < max 2 n → ∀ k, a ≤ k → k < b →
        (d.polled samples (k + 1)).committed = (d.polled samples k).committed := by
  intro samples d
  refine ⟨fun k v => changesTo_iff x n level samples v k,
    fun k v => called_eq_some_iff x n level samples v k,
    fun k => (calls_alternate x n level samples k).1,?_⟩
  intro a b v hrun hbefore hshort k hak hkb
  rcases poll_cases x n level samples k with ⟨_,hcommitted,_⟩ | ⟨henough,_,_⟩
  · exact hcommitted
  · -- the run that would have to be long enough starts at `a`
    exfalso
    have hlast := (lastAll_iff (max 2 n) (k + 1)).mpr henough
    have htwo : 2 ≤ max 2 n := le_max_left _ _
    have hv := hlast.2 k (by omega) (Nat.lt_succ_self k)
    rw [hrun k hak hkb] at hv
    rw [← hv] at henough
    have hle := runLength_le (k:=k + 1) (by omega) hbefore
    omega

end AlprGate.Drivers
