import AlprGate.Library.Transition
import AlprGate.Server.ScenarioDocument

/-! # The replay of a scenario

The state of a replay is a function of the number of calls: the event, the iteration, and the clock
reading with which the iteration began. The iterations are counted up to a 32-bit number, while the
document is checked for a 64-bit one.
-/
namespace AlprGate.Vision
open JsonDocument Verdicts JsonValue Transition

/-- The answer to the `k`-th call of a replay with so many iterations. -/
def scheduled (loops : ℕ) (events : List ScenarioEvent) (clock : ℕ → Reading) (k : ℕ) :
    Option Emission :=
  if k < loops * events.length then
    (events[k % events.length]?).map fun ev =>
      ev.emit (clock (k / events.length * events.length)).now (clock k).wallNow
  else none

/-- Whatever the clock says, the calls are answered as for so many iterations. -/
def ReplaysAs (loops : ℕ) (source : ScenarioSource) : Prop :=
  ∀ (clock : ℕ → Reading) (m : ℕ), outputs ScenarioSource.next source ((List.range m).map clock) =
    (List.range m).map (scheduled loops source.events clock)

/-- The loop value of a document, 1 if it has none. -/
def LoopValue (root : Json) (loops : ℕ) : Prop :=
  (root.find "loop" = none ∧ loops = 1) ∨ root.find "loop" = some (.number (.integer loops))

section Run
variable (events : List ScenarioEvent) (loops : BitVec 32) (clock : ℕ → Reading)

/-- The state in front of the `k`-th call, as long as events are left. -/
structure Playing (k : ℕ) (s : ScenarioSource) : Prop where
  events_eq : s.events = events
  loops_eq : s.loops = loops
  index_eq : s.index = k % events.length
  iteration_eq : s.iteration.toNat = k / events.length
  epoch_eq : s.epochSet = true → s.epoch = (clock (k / events.length * events.length)).now
  epochSet_iff : s.epochSet = false ↔ k % events.length = 0

def Done (s : ScenarioSource) : Prop := s.loops ≤ s.iteration

/-- The state in front of the `k`-th call. -/
def Reached (k : ℕ) (s : ScenarioSource) : Prop :=
  (k < loops.toNat * events.length ∧ Playing events loops clock k s) ∨
    (loops.toNat * events.length ≤ k ∧ Done s)

end Run

section Step
variable {events : List ScenarioEvent} {loops : BitVec 32} {clock : ℕ → Reading} {k : ℕ}
  {s : ScenarioSource}

theorem next_of_done (h : Done s) (c : Reading) : s.next c = (none,s) := if_pos h

/-- The epoch that a call uses is the reading of the first call of the iteration. -/
theorem Playing.epoch_used (h : Playing events loops clock k s) :
    (if s.epochSet = true then s.epoch else (clock k).now) =
      (clock (k / events.length * events.length)).now := by
  cases hset : s.epochSet with
  | true =>
    rw [if_pos rfl]
    exact h.epoch_eq hset
  | false =>
    have hfirst : k / events.length * events.length = k :=
      Nat.div_mul_cancel (Nat.dvd_of_mod_eq_zero (h.epochSet_iff.mp hset))
    rw [if_neg Bool.false_ne_true, hfirst]

/-- The position behind an event that is not the last one of the iteration. -/
theorem succ_of_within {n : ℕ} (h : k % n + 1 < n) :
    (k + 1) / n = k / n ∧ (k + 1) % n = k % n + 1 := by
  have hsplit : k + 1 = n * (k / n) + (k % n + 1) := by
    rw [← Nat.add_assoc, Nat.div_add_mod]
  rw [hsplit, Nat.mul_add_div (by omega), Nat.mul_add_mod, Nat.div_eq_of_lt h, Nat.mod_eq_of_lt h]
  exact ⟨rfl,rfl⟩

/-- The position behind the last event of the iteration. -/
theorem succ_of_last {n : ℕ} (h : k % n + 1 = n) :
    (k + 1) / n = k / n + 1 ∧ (k + 1) % n = 0 := by
  have hpos : 0 < n := by omega
  have hsplit : k + 1 = n * (k / n + 1) := by
    rw [Nat.mul_succ]
    nth_rewrite 3 [← h]
    rw [← Nat.add_assoc, Nat.div_add_mod]
  rw [hsplit, Nat.mul_div_cancel_left _ hpos, Nat.mul_mod_right]
  exact ⟨rfl,rfl⟩

theorem Playing.advance (h : Playing events loops clock k s) (hk : k / events.length < loops.toNat) :
    Playing events loops clock (k + 1)
      (s.advance (clock (k / events.length * events.length)).now) := by
  have hlength : s.events.length = events.length := congrArg List.length h.events_eq
  have hindex := s.index_lt
  rw [h.index_eq, hlength] at hindex
  unfold ScenarioSource.advance
  split
  · rename_i hlast
    rw [h.index_eq, hlength] at hlast
    obtain ⟨hdiv,hmod⟩ := succ_of_last hlast
    refine ⟨h.events_eq,h.loops_eq,hmod.symm,?_,?_,?_⟩
    · have hsucc : s.iteration.toNat + 1 < 2 ^ 32 := by
        rw [h.iteration_eq]
        omega
      have hone : (1 : BitVec 32).toNat = 1 := rfl
      rw [hdiv, ← h.iteration_eq, BitVec.toNat_add, hone]
      exact Nat.mod_eq_of_lt hsucc
    · intro hset
      cases hset
    · exact iff_of_true rfl hmod
  · rename_i hmore
    rw [h.index_eq, hlength] at hmore
    obtain ⟨hdiv,hmod⟩ := succ_of_within (by omega : k % events.length + 1 < events.length)
    refine ⟨h.events_eq,h.loops_eq,?_,?_,?_,?_⟩
    · rw [hmod, ← h.index_eq]
    · rw [hdiv]
      exact h.iteration_eq
    · intro _
      rw [hdiv]
    · rw [hmod]
      exact iff_of_false Bool.true_eq_false_eq_False (Nat.succ_ne_zero _)

theorem Playing.done (h : Playing events loops clock k s)
    (hk : loops.toNat * events.length ≤ k) : Done s := by
  have hpos : 0 < events.length := by
    rw [← h.events_eq]
    exact (Nat.zero_le _).trans_lt s.index_lt
  rw [Done, BitVec.le_def, h.loops_eq, h.iteration_eq]
  exact (Nat.le_div_iff_mul_le hpos).mpr hk

/-- One call: it is answered as scheduled, and moves on by one. -/
theorem Reached.next (h : Reached events loops clock k s) :
    (s.next (clock k)).1 = scheduled loops.toNat events clock k ∧
      Reached events loops clock (k + 1) (s.next (clock k)).2 := by
  rcases h with ⟨hk,h⟩ | ⟨hk,h⟩
  · have hiteration : k / events.length < loops.toNat := Nat.div_lt_of_lt_mul (by
      rw [Nat.mul_comm]
      exact hk)
    have hplaying : ¬ s.loops ≤ s.iteration := by
      rw [BitVec.le_def, h.loops_eq, h.iteration_eq]
      omega
    have hnext : s.next (clock k) =
        (some ((s.events.get ⟨s.index,s.index_lt⟩).emit
          (clock (k / events.length * events.length)).now (clock k).wallNow),
          s.advance (clock (k / events.length * events.length)).now) := by
      rw [ScenarioSource.next, if_neg hplaying, h.epoch_used]
    rw [hnext]
    constructor
    · have hevent : events[k % events.length]? = some (s.events.get ⟨s.index,s.index_lt⟩) := by
        rw [← h.index_eq, ← h.events_eq, List.getElem?_eq_getElem s.index_lt]
        rfl
      rw [scheduled, if_pos hk, hevent]
      rfl
    · have hadvanced := h.advance hiteration
      rcases Nat.lt_or_ge (k + 1) (loops.toNat * events.length) with hleft | hover
      · exact Or.inl ⟨hleft,hadvanced⟩
      · exact Or.inr ⟨hover,hadvanced.done hover⟩
  · rw [next_of_done h, scheduled, if_neg hk.not_gt]
    exact ⟨rfl,Or.inr ⟨hk.trans (Nat.le_succ k),h⟩⟩

end Step

/-- A replay that has not begun plays the iterations that it counts to. -/
theorem replaysAs_loops {source : ScenarioSource} (hindex : source.index = 0)
    (hiteration : source.iteration = 0) (hset : source.epochSet = false) :
    ReplaysAs source.loops.toNat source := by
  intro clock m
  have hplaying : Playing source.events source.loops clock 0 source := by
    refine ⟨rfl,rfl,?_,?_,?_,?_⟩
    · rw [hindex, Nat.zero_mod]
    · rw [hiteration, Nat.zero_div]
      rfl
    · intro h
      rw [hset] at h
      cases h
    · exact iff_of_true hset (Nat.zero_mod _)
  have hstart : Reached source.events source.loops clock 0 source := by
    rcases Nat.eq_zero_or_pos (source.loops.toNat * source.events.length) with hnone | hsome
    · exact Or.inr ⟨hnone.le,hplaying.done hnone.le⟩
    · exact Or.inl ⟨hsome,hplaying⟩
  rw [List.range_eq_range']
  exact outputs_eq_map (fun k s hs => hs.next) hstart m

/-- A replay tells how many iterations it has. -/
theorem ReplaysAs.unique {source : ScenarioSource} {a b : ℕ} (ha : ReplaysAs a source)
    (hb : ReplaysAs b source) : ¬ a < b := by
  intro hlt
  have hpos : 0 < source.events.length := (Nat.zero_le _).trans_lt source.index_lt
  let clock : ℕ → Reading := fun _ => ⟨0,0⟩
  have hsame := (ha clock (a * source.events.length + 1)).symm.trans (hb clock _)
  have hlast := List.map_inj_left.mp hsame (a * source.events.length)
    (List.mem_range.mpr (Nat.lt_succ_self _))
  have hmore : a * source.events.length < b * source.events.length :=
    Nat.mul_lt_mul_of_pos_right hlt hpos
  have hevent := List.getElem?_eq_getElem (Nat.mod_lt (a * source.events.length) hpos)
  rw [scheduled, scheduled, if_neg (lt_irrefl _), if_pos hmore, hevent] at hlast
  cases hlast

/-- A loop value that is accepted is cut to 32 bits. -/
theorem parseLoop_eq_ok {lib : JsonLibrary} {root v : Json} {loops : BitVec 32}
    (h : parseLoop lib root = .ok loops) (hv : root.find "loop" = some v) :
    ∃ n, v = .number (.integer n) ∧ loops = BitVec.ofInt 32 n := by
  rw [parseLoop, hv] at h
  dsimp only at h
  cases hstored : v.storedInteger with
  | none =>
    rw [hstored] at h
    cases h
  | some n =>
    rw [hstored] at h
    obtain ⟨hn,hlow,hhigh⟩ := storedInteger_eq_some hstored
    have hvalue := toInt_ofInt_of_stored hlow hhigh
    dsimp only at h
    split at h
    · cases h
    · have hsmall : n < 2 ^ 63 := by
        by_contra hlarge
        rw [if_neg hlarge] at hvalue
        omega
      rw [hvalue, if_pos hsmall] at h
      cases h
      exact ⟨n,hn,rfl⟩

theorem toNat_of_parseLoop {lib : JsonLibrary} {root : Json} {loops : BitVec 32} {L : ℕ}
    (h : parseLoop lib root = .ok loops) (hL : LoopValue root L) : loops.toNat = L % 2 ^ 32 := by
  rcases hL with ⟨hnone,rfl⟩ | hsome
  · rw [parseLoop, hnone] at h
    cases h
    decide
  · obtain ⟨n,hn,rfl⟩ := parseLoop_eq_ok h hsome
    cases hn
    rw [BitVec.ofInt_natCast, BitVec.toNat_ofNat]

/-- A document that is accepted is replayed as often as it says exactly if its loop value fits
32 bits. -/
theorem replay_exact_iff (lib : JsonLibrary) (text : List UInt8) {root : Json}
    {source : ScenarioSource} {L : ℕ} (hparse : lib.parse text = .document root)
    (h : fromJson lib text = .ok source) (hL : LoopValue root L) :
    ReplaysAs L source ↔ L < 2 ^ 32 := by
  have hroot : fromDocument lib root = .ok source := by
    rw [fromJson, hparse] at h
    exact h
  unfold fromDocument at hroot
  split at hroot
  · cases hroot
  obtain ⟨loops,hloops,hevents⟩ := bind_eq_ok.mp hroot
  obtain ⟨hcount,hindex,hiteration,hset⟩ := requireEvents_eq_ok lib hevents
  have hnat : source.loops.toNat = L % 2 ^ 32 := by
    rw [hcount]
    exact toNat_of_parseLoop hloops hL
  have hplays := replaysAs_loops hindex hiteration hset
  rw [hnat] at hplays
  constructor
  · intro hexact
    have hnot := hplays.unique hexact
    omega
  · intro hsmall
    rwa [Nat.mod_eq_of_lt hsmall] at hplays

/-- A script of one event without observations. -/
def loopScript (loops : ℕ) : Json :=
  .object [("loop",.number (.integer loops)),
    ("events",.array [.object [("offset_ms",.number (.integer 5))]])]

def loopSource (loops : BitVec 32) : ScenarioSource where
  events := [⟨5,[],[]⟩]
  loops := loops
  index_lt := Nat.zero_lt_one

theorem find_loopScript (loops : ℕ) :
    (loopScript loops).find "loop" = some (.number (.integer loops)) := by
  simp [loopScript]

/-- Over integers: for the cast of a natural number the kernel would evaluate the bounds. -/
theorem parseLoop_of_find {root : Json} {n : ℤ} (lib : JsonLibrary)
    (hfind : root.find "loop" = some (.number (.integer n))) (hpos : 1 ≤ n) (hlt : n < 2 ^ 63) :
    parseLoop lib root = .ok (BitVec.ofInt 32 n) := by
  have hlow : -2 ^ 63 ≤ n := by omega
  have hhigh : n < 2 ^ 64 := by omega
  have hstored : (Json.number (.integer n)).storedInteger = some n := if_pos ⟨hlow,hhigh⟩
  have hvalue := toInt_ofInt_of_stored hlow hhigh
  rw [if_pos hlt] at hvalue
  rw [parseLoop, hfind]
  dsimp only
  rw [hstored]
  dsimp only
  rw [hvalue, if_neg (by omega)]

theorem fromParsed_loopScript (lib : JsonLibrary) {loops : ℕ} (hpos : 1 ≤ loops)
    (hlt : loops < 2 ^ 63) :
    fromParsed lib (.document (loopScript loops)) = .ok (loopSource (BitVec.ofNat 32 loops)) := by
  have hoffset : ∀ path, parseOffset lib (.number (.integer 5)) path = .ok 5 := fun path => rfl
  have hloop : parseLoop lib (loopScript loops) = .ok (BitVec.ofNat 32 loops) := by
    rw [parseLoop_of_find lib (find_loopScript loops) (by omega) (by omega), BitVec.ofInt_natCast]
  rw [fromParsed, fromDocument, hloop]
  simp only [loopScript, Json.isObject, Json.find_object_cons, Json.find_object_nil, requireEvents,
    require, parseEvents, parseEvent, optionalItems, parseItems, readItems, hoffset, bind,
    Except.bind, Bool.true_eq_false, if_false, if_true, String.reduceEq, Option.none_or,
    Option.or_none]
  rfl

/-- A document with two iterations. -/
theorem two_iterations_replayed :
    fromJson (.reading (.document (loopScript 2))) [] = .ok (loopSource 2) ∧
      LoopValue (loopScript 2) 2 ∧ (ReplaysAs 2 (loopSource 2) ↔ 2 < 2 ^ 32) := by
  have haccepted : fromJson (.reading (.document (loopScript 2))) [] = .ok (loopSource 2) :=
    fromParsed_loopScript _ (by decide) (by decide)
  have hvalue : LoopValue (loopScript 2) 2 := Or.inr (find_loopScript 2)
  exact ⟨haccepted,hvalue,replay_exact_iff _ [] rfl haccepted hvalue⟩

/-- A document with 2^32 iterations is accepted, and nothing of it is replayed. -/
theorem large_loop_replays_nothing :
    fromJson (.reading (.document (loopScript (2 ^ 32)))) [] = .ok (loopSource 0) ∧
      ∀ c, (loopSource 0).next c = (none,loopSource 0) := by
  refine ⟨?_,fun c => rfl⟩
  have hcut : BitVec.ofNat 32 (2 ^ 32) = 0 := by decide
  rw [← hcut]
  exact fromParsed_loopScript _ (by decide) (by decide)

end AlprGate.Vision
