import Mathlib.Algebra.Order.Ring.Rat
import Mathlib.Data.List.MinMax
import AlprGate.Library.Runs
import AlprGate.Server.Allowlist

/-! # Greedy CTC decoding

The recognizer's output is a tensor of T rows with the probabilities of C classes, one of them the
blank. One pass over the rows takes the most probable class of each, skips blanks and repetitions
and adds up the text and the confidences. Probabilities are exact here.
-/
namespace AlprGate.Inference
open Auth Runs

structure CtcResult where
  text : Text := []
  meanConfidence : ℚ := 0
  deriving DecidableEq, Repr

/-- The inner loop from class `c` on. -/
def bestFrom (c : ℕ) (best : ℕ × ℚ) : List ℚ → ℕ × ℚ
  | [] => best
  | p :: row => bestFrom (c + 1) (if best.2 < p then (c,p) else best) row

/-- The first class with the largest probability of a row, and that probability. -/
def best : List ℚ → ℕ × ℚ
  | [] => (0,0)
  | p :: row => bestFrom 1 (0,p) row

/-- The variables of the outer loop. -/
structure CtcState where
  text : Text := []
  confSum : ℚ := 0
  kept : ℕ := 0
  prevIdx : ℤ := -1

/-- One row, by its class and probability. A class without an entry in the dictionary adds no
text. -/
def ctcStep (dictionary : List Text) (s : CtcState) (best : ℕ × ℚ) : CtcState :=
  if best.1 = 0 ∨ best.1 = s.prevIdx then { s with prevIdx := best.1 }
  else
    { text := s.text ++ dictionary.getD (best.1 - 1) []
      confSum := s.confSum + best.2
      kept := s.kept + 1
      prevIdx := best.1 }

def rowAt (logits : List ℚ) (numClasses t : ℕ) : List ℚ :=
  (logits.drop (t * numClasses)).take numClasses

def ctcGreedyDecode (logits : List ℚ) (seqLen numClasses : ℤ) (dictionary : List Text) :
    CtcResult :=
  if seqLen ≤ 0 ∨ numClasses ≤ 0 then {}
  else
    let s := (List.range seqLen.toNat).foldl
      (fun s t => ctcStep dictionary s (best (rowAt logits numClasses.toNat t))) {}
    { text := s.text, meanConfidence := if 0 < s.kept then s.confSum / s.kept else 0 }

/-! ### What is decoded -/

section Spec
variable {T n : ℕ}

/-- A tensor in the order of its memory. -/
def flat {C : ℕ} (tensor : Fin T → Fin C → ℚ) : List ℚ :=
  (List.ofFn fun t => List.ofFn (tensor t)).flatten

/-- The first of the most probable classes. -/
def firstMax (row : Fin (n + 1) → ℚ) : Fin (n + 1) := ((List.finRange (n + 1)).argmax row).getD 0

/-- The class of each row, with its probability. -/
def picks (tensor : Fin T → Fin (n + 1) → ℚ) : List (Fin (n + 1) × ℚ) :=
  List.ofFn fun t => (firstMax (tensor t),tensor t (firstMax (tensor t)))

/-- The picks that survive: the first of each run, without blanks. -/
def survivors (picks : List (Fin (n + 1) × ℚ)) : List (Fin (n + 1) × ℚ) := kept Prod.fst 0 picks

end Spec

/-- The text of a class. Class 0 is the blank. -/
def letter (dictionary : List Text) (c : Fin (dictionary.length + 1)) : Text :=
  Fin.cases [] dictionary.get c

/-! ### A row -/

section Row
variable {n : ℕ} (row : Fin (n + 1) → ℚ)

theorem argmax_finRange : (List.finRange (n + 1)).argmax row = some (firstMax row) := by
  unfold firstMax
  cases h : (List.finRange (n + 1)).argmax row with
  | none =>
    have hnil := List.argmax_eq_none.mp h
    cases List.finRange_eq_nil_iff.mp hnil
  | some c => rfl

/-- The inner loop goes through the classes as `argmax` does. -/
theorem bestFrom_eq {cs : List (Fin (n + 1))} {k : ℕ} (hcs : cs.map Fin.val = List.range' k cs.length)
    (c : Fin (n + 1)) {m : Fin (n + 1)}
    (hm : cs.foldl (List.argAux fun b c => row c < row b) (some c) = some m) :
    bestFrom k (c.val,row c) (cs.map row) = (m.val,row m) := by
  induction cs generalizing k c with
  | nil =>
    cases hm
    rfl
  | cons b cs ih =>
    rw [List.map_cons, List.length_cons, List.range'_succ] at hcs
    obtain ⟨rfl,hrest⟩ := List.cons.inj hcs
    rw [List.map_cons, bestFrom]
    rw [List.foldl_cons] at hm
    by_cases hlt : row c < row b
    · rw [if_pos hlt]
      exact ih hrest b (by simpa [List.argAux, hlt] using hm)
    · rw [if_neg hlt]
      exact ih hrest c (by simpa [List.argAux, hlt] using hm)

theorem best_ofFn : best (List.ofFn row) = ((firstMax row).val,row (firstMax row)) := by
  have hargmax := argmax_finRange row
  rw [List.argmax, List.finRange_succ, List.foldl_cons] at hargmax
  have hcs : ((List.finRange n).map Fin.succ).map Fin.val =
      List.range' 1 ((List.finRange n).map Fin.succ).length := by
    apply List.ext_getElem
    · simp
    · intro i hi hi'
      simp [Nat.add_comm]
  have hbest := bestFrom_eq row hcs 0 hargmax
  rw [List.ofFn_succ, best, List.ofFn_eq_map]
  rw [List.map_map] at hbest
  exact hbest

end Row

/-! ### The rows of the tensor -/

section Rows
variable {T n : ℕ}

/-- Rows of one length lie in memory one after the other. -/
theorem rowAt_flatten {C : ℕ} {rows : List (List ℚ)} (hlength : ∀ row ∈ rows, row.length = C) {t : ℕ}
    (ht : t < rows.length) : rowAt rows.flatten C t = rows[t] := by
  unfold rowAt
  induction rows generalizing t with
  | nil => exact absurd ht (Nat.not_lt_zero t)
  | cons row rows ih =>
    have hrow := hlength row List.mem_cons_self
    cases t with
    | zero =>
      rw [Nat.zero_mul, List.drop_zero, List.flatten_cons, ← hrow, List.take_left]
      rfl
    | succ t =>
      have hrest := ih (fun row hr => hlength row (List.mem_cons_of_mem _ hr))
        (Nat.lt_of_succ_lt_succ ht)
      have hdrop : (row ++ rows.flatten).drop C = rows.flatten := by rw [← hrow, List.drop_left]
      rw [List.flatten_cons, Nat.succ_mul, Nat.add_comm, ← List.drop_drop, hdrop, hrest]
      rfl

theorem map_rowAt_flat (tensor : Fin T → Fin (n + 1) → ℚ) :
    (List.range T).map (rowAt (flat tensor) (n + 1)) = List.ofFn fun t => List.ofFn (tensor t) := by
  have hlength : ∀ row ∈ List.ofFn fun t => List.ofFn (tensor t), row.length = n + 1 := by
    intro row hrow
    obtain ⟨t,rfl⟩ := List.mem_ofFn.mp hrow
    exact List.length_ofFn
  apply List.ext_getElem
  · simp
  · intro t ht ht'
    rw [List.getElem_map, List.getElem_range]
    exact rowAt_flatten hlength ht'

theorem map_best_rows (tensor : Fin T → Fin (n + 1) → ℚ) :
    (List.ofFn fun t => List.ofFn (tensor t)).map best =
      (picks tensor).map fun p => (p.1.val,p.2) := by
  rw [picks, List.map_ofFn, List.map_ofFn]
  congr 1
  funext t
  exact best_ofFn (tensor t)

end Rows

/-! ### The pass -/

section Pass
variable {dictionary : List Text}

theorem letter_eq {c : Fin (dictionary.length + 1)} (h : c ≠ 0) :
    dictionary.getD (c.val - 1) [] = letter dictionary c := by
  obtain ⟨i,rfl⟩ := Fin.exists_succ_eq.mpr h
  simp [letter]

/-- The loop's index of the previous class. -/
def indexOf : Option (Fin (dictionary.length + 1)) → ℤ
  | none => -1
  | some c => c.val

theorem indexOf_eq_iff {before : Option (Fin (dictionary.length + 1))}
    {c : Fin (dictionary.length + 1)} : (c.val : ℤ) = indexOf before ↔ before = some c := by
  cases before with
  | none =>
    simp only [indexOf, reduceCtorEq]
  | some b =>
    simp only [indexOf, Nat.cast_inj, Option.some.injEq]
    exact ⟨fun h => (Fin.ext h).symm,fun h => congrArg Fin.val h.symm⟩

/-- The pass keeps the items with another class than the one before, without the blanks. -/
theorem foldl_ctcStep (ps : List (Fin (dictionary.length + 1) × ℚ)) (s : CtcState)
    {before : Option (Fin (dictionary.length + 1))} (hbefore : s.prevIdx = indexOf before) :
    let s' := (ps.map fun p => (p.1.val,p.2)).foldl (ctcStep dictionary) s
    let new := (changes Prod.fst before ps).filter fun p => p.1 ≠ 0
    s'.text = s.text ++ new.flatMap (fun p => letter dictionary p.1) ∧
      s'.confSum = s.confSum + (new.map Prod.snd).sum ∧ s'.kept = s.kept + new.length := by
  induction ps generalizing s before with
  | nil => simp [changes]
  | cons p ps ih =>
    obtain ⟨c,q⟩ := p
    rw [List.map_cons, List.foldl_cons, changes]
    have hprev : (c.val : ℤ) = s.prevIdx ↔ before = some c := by rw [hbefore, indexOf_eq_iff]
    by_cases hsame : before = some c
    · -- a repetition
      rw [if_pos hsame]
      have hstep : ctcStep dictionary s (c.val,q) = { s with prevIdx := c.val } :=
        if_pos (Or.inr (hprev.mpr hsame))
      rw [hstep]
      exact ih { s with prevIdx := c.val } (by rw [hsame]; rfl)
    · rw [if_neg hsame]
      by_cases hblank : c = 0
      · have hstep : ctcStep dictionary s (c.val,q) = { s with prevIdx := c.val } :=
          if_pos (Or.inl (by rw [hblank]; rfl))
        rw [hstep, List.filter_cons_of_neg (by simpa using hblank)]
        exact ih { s with prevIdx := c.val } rfl
      · have hstep : ctcStep dictionary s (c.val,q) =
            ⟨s.text ++ letter dictionary c,s.confSum + q,s.kept + 1,c.val⟩ := by
          rw [← letter_eq hblank]
          refine if_neg ?_
          rintro (hzero | hrepeat)
          · exact hblank (Fin.ext hzero)
          · exact hsame (hprev.mp hrepeat)
        have hnext : (c.val : ℤ) = indexOf (some c) := rfl
        obtain ⟨htext,hsum,hkept⟩ :=
          ih ⟨s.text ++ letter dictionary c,s.confSum + q,s.kept + 1,c.val⟩ hnext
        rw [hstep, List.filter_cons_of_pos (by simpa using hblank)]
        refine ⟨htext.trans ?_,hsum.trans ?_,hkept.trans ?_⟩
        · simp
        · simp [add_assoc]
        · simp [Nat.add_assoc, Nat.add_comm]

end Pass

/-- The result in terms of what survives. -/
theorem ctcGreedyDecode_flat {T : ℕ} (dictionary : List Text)
    (tensor : Fin T → Fin (dictionary.length + 1) → ℚ) :
    let left := survivors (picks tensor)
    ctcGreedyDecode (flat tensor) T (dictionary.length + 1) dictionary =
      ⟨left.flatMap (fun p => letter dictionary p.1),
        if 0 < left.length then (left.map Prod.snd).sum / left.length else 0⟩ := by
  intro left
  cases T with
  | zero => rfl
  | succ T =>
    have hnumber : ((dictionary.length : ℤ) + 1).toNat = dictionary.length + 1 := rfl
    have hfold : (List.range (T + 1)).foldl (fun s t => ctcStep dictionary s
        (best (rowAt (flat tensor) (dictionary.length + 1) t))) {} =
        ((picks tensor).map fun p => (p.1.val,p.2)).foldl (ctcStep dictionary) {} := by
      rw [← map_best_rows, ← map_rowAt_flat, List.map_map, List.foldl_map]
      rfl
    have hstart : ({} : CtcState).prevIdx =
        indexOf (none : Option (Fin (dictionary.length + 1))) := rfl
    obtain ⟨htext,hsum,hkept⟩ := foldl_ctcStep (picks tensor) {} hstart
    have hleft : left = (changes Prod.fst none (picks tensor)).filter fun p => p.1 ≠ 0 := by
      rw [← runHeads_eq]
      rfl
    rw [← hleft] at htext hsum hkept
    unfold ctcGreedyDecode
    rw [if_neg (by omega), hnumber, Int.toNat_natCast]
    dsimp only
    rw [hfold, htext, hsum, hkept]
    simp

/-- Decoding gives the letters of the first row of each run of equal classes, without the blanks,
and the mean of the probabilities there. Equal letters with a blank between them are both kept. -/
theorem ctc_decode_collapses (dictionary : List Text) {T : ℕ}
    (tensor : Fin T → Fin (dictionary.length + 1) → ℚ) :
    let result := ctcGreedyDecode (flat tensor) T (dictionary.length + 1) dictionary
    let left := survivors (picks tensor)
    result.text = left.flatMap (fun p => letter dictionary p.1) ∧
    result.meanConfidence = (if left = [] then 0 else (left.map Prod.snd).sum / left.length) ∧
    ∀ front back c p q z, picks tensor = front ++ (c,p) :: z :: (c,q) :: back → c ≠ 0 → z.1 = 0 →
      ∃ front' p' back', left = front' ++ (c,p') :: (c,q) :: back' := by
  intro result left
  have hresult := ctcGreedyDecode_flat dictionary tensor
  refine ⟨congrArg CtcResult.text hresult,(congrArg CtcResult.meanConfidence hresult).trans ?_,?_⟩
  · dsimp only
    by_cases hnone : left = []
    · rw [if_pos hnone, if_neg (by rw [show survivors (picks tensor) = [] from hnone]; simp)]
    · rw [if_neg hnone, if_pos (List.length_pos_of_ne_nil hnone)]
  · intro front back c p q z hpicks hc hz
    obtain ⟨front',a,back',hleft,hkey⟩ := kept_separated Prod.fst (0 : Fin (dictionary.length + 1))
      (a:=(c,p)) (b:=(c,q)) hz rfl hc front back
    refine ⟨front',a.2,back',?_⟩
    have hsame : a = (c,a.2) := Prod.ext hkey rfl
    rw [← hsame, ← hleft, ← hpicks]
    rfl

end AlprGate.Inference
