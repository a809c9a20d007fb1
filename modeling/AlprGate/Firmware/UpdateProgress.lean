import AlprGate.Firmware.OtaUpdater

/-! # Download progress

`run_inner` reports a percentage for every new decile of what has been received, relative to the
size in the manifest. What the server sends may be longer than that: the quotient is not capped,
and it is cut to 8 bits.
-/
namespace AlprGate.Ota

/-- Reports in 0..100, strictly increasing, and no two of them in one decile. -/
structure InOrder (reports : List (BitVec 8)) : Prop where
  bounded : ∀ p ∈ reports, p.toNat ≤ 100
  increasing : reports.Pairwise fun a b => a.toNat < b.toNat
  deciles : reports.Pairwise fun a b => a.toNat / 10 ≠ b.toNat / 10

/-! ### One report -/

section Percent
variable {imageSize : BitVec 32}

/-- The quotient, as far as it fits 8 bits. Lengths are of type `int`. -/
theorem toNat_percent {got : ℕ} (h : got < 2 ^ 31) :
    (percent imageSize got).toNat = got * 100 / imageSize.toNat % 256 := by
  have hgot : (BitVec.ofInt 64 (got : ℤ) * 100).toNat = got * 100 := by
    rw [BitVec.toNat_mul, BitVec.ofInt_natCast, BitVec.toNat_ofNat]
    have hself : got % 2 ^ 64 = got := Nat.mod_eq_of_lt (by omega)
    have hhundred : (100 : BitVec 64).toNat = 100 := rfl
    rw [hself, hhundred]
    exact Nat.mod_eq_of_lt (by omega)
  have hsize : (imageSize.setWidth 64).toNat = imageSize.toNat := by
    rw [BitVec.toNat_setWidth]
    exact Nat.mod_eq_of_lt (by omega)
  rw [percent, BitVec.toNat_setWidth, BitVec.toNat_udiv, hgot, hsize]

theorem toNat_decile (p : BitVec 8) : (p / 10).toNat = p.toNat / 10 := BitVec.toNat_udiv

/-- Below 101 percent of the size nothing is cut off. -/
theorem toNat_percent_of_lt {got : ℕ} (hint : got < 2 ^ 31)
    (h : got * 100 < 101 * imageSize.toNat) :
    (percent imageSize got).toNat = got * 100 / imageSize.toNat ∧
      got * 100 / imageSize.toNat ≤ 100 := by
  have hle : got * 100 / imageSize.toNat ≤ 100 :=
    Nat.le_of_lt_succ (Nat.div_lt_of_lt_mul (by omega))
  rw [toNat_percent hint]
  exact ⟨Nat.mod_eq_of_lt (by omega),hle⟩

/-- The first length that is 101 percent of the size or more is reported as such. -/
theorem exists_percent_gt (hsize : imageSize ≠ 0) {bound : ℕ} (hbound : bound < 2 ^ 31)
    (h : 101 * imageSize.toNat ≤ bound * 100) :
    ∃ got ≤ bound, 100 < (percent imageSize got).toNat := by
  have hpos : 0 < imageSize.toNat := by
    refine Nat.pos_of_ne_zero ?_
    intro hzero
    exact hsize (BitVec.eq_of_toNat_eq hzero)
  generalize hn : imageSize.toNat = size at h hpos
  -- rounding up to a whole byte adds less than 100 percent, so the quotient fits 8 bits
  refine ⟨(101 * size + 99) / 100,by omega,?_⟩
  have hint : (101 * size + 99) / 100 < 2 ^ 31 := by omega
  have hlow : 101 ≤ (101 * size + 99) / 100 * 100 / size := by
    rw [Nat.le_div_iff_mul_le hpos]
    omega
  have hhigh : (101 * size + 99) / 100 * 100 / size < 201 := by
    rw [Nat.div_lt_iff_lt_mul hpos]
    omega
  rw [toNat_percent hint, hn]
  omega

end Percent

/-! ### All reports -/

section Reports
variable {imageSize : BitVec 32}

/-- Lengths that do not decrease and stay below 101 percent: each report is in a later decile than
the one before. -/
theorem progressReports_later {lens : List ℕ} {lastDecile : BitVec 8}
    (hsorted : lens.Pairwise (· ≤ ·)) (hint : ∀ got ∈ lens, got < 2 ^ 31)
    (hlt : ∀ got ∈ lens, got * 100 < 101 * imageSize.toNat)
    (hlast : ∀ got ∈ lens, lastDecile.toNat ≤ got * 100 / imageSize.toNat / 10) :
    let reports := progressReports imageSize lastDecile (lens.map Nat.cast)
    (∀ p ∈ reports, p.toNat ≤ 100 ∧ lastDecile.toNat < p.toNat / 10) ∧
      reports.Pairwise fun a b => a.toNat / 10 < b.toNat / 10 := by
  induction lens generalizing lastDecile with
  | nil => simp [progressReports]
  | cons got lens ih =>
    obtain ⟨hfirst,hsorted⟩ := List.pairwise_cons.mp hsorted
    have hint' := fun g hg => hint g (List.mem_cons_of_mem _ hg)
    have hlt' := fun g hg => hlt g (List.mem_cons_of_mem _ hg)
    obtain ⟨hpercent,hle⟩ := toNat_percent_of_lt (hint got List.mem_cons_self)
      (hlt got List.mem_cons_self)
    have hdecile := toNat_decile (percent imageSize got)
    rw [hpercent] at hdecile
    rw [List.map_cons, progressReports]
    dsimp only
    by_cases hnew : percent imageSize got / 10 ≠ lastDecile
    · rw [if_pos hnew]
      have hmore : ∀ g ∈ lens, (percent imageSize got / 10).toNat ≤
          g * 100 / imageSize.toNat / 10 := by
        intro g hg
        rw [hdecile]
        have hmono := hfirst g hg
        exact Nat.div_le_div_right (Nat.div_le_div_right (Nat.mul_le_mul_right 100 hmono))
      have hlater : lastDecile.toNat < got * 100 / imageSize.toNat / 10 := by
        refine Nat.lt_of_le_of_ne (hlast got List.mem_cons_self) ?_
        rintro hsame
        exact hnew (BitVec.eq_of_toNat_eq (hdecile.trans hsame.symm))
      obtain ⟨hall,hpairs⟩ := ih hsorted hint' hlt' hmore
      refine ⟨List.forall_mem_cons.mpr ⟨⟨by omega,by omega⟩,?_⟩,List.pairwise_cons.mpr ⟨?_,hpairs⟩⟩
      · intro p hp
        have hp := hall p hp
        omega
      · intro p hp
        have hp := hall p hp
        omega
    · rw [if_neg hnew]
      exact ih hsorted hint' hlt' fun g hg => hlast g (List.mem_cons_of_mem _ hg)

theorem progressReports_inOrder {lens : List ℕ} (hsorted : lens.Pairwise (· ≤ ·))
    (hint : ∀ got ∈ lens, got < 2 ^ 31) (hlt : ∀ got ∈ lens, got * 100 < 101 * imageSize.toNat) :
    InOrder (progressReports imageSize 0 (lens.map Nat.cast)) := by
  have hlast : ∀ got ∈ lens, (0 : BitVec 8).toNat ≤ got * 100 / imageSize.toNat / 10 :=
    fun got _ => Nat.zero_le _
  obtain ⟨hall,hpairs⟩ := progressReports_later hsorted hint hlt hlast
  refine ⟨fun p hp => (hall p hp).1,hpairs.imp fun {a b} hab => ?_,hpairs.imp fun {a b} hab => ?_⟩
  · omega
  · omega

end Reports

/-! ### Runs -/

section Runs
variable {sha : Sha256} {cfg : Config} {r : Replies} {m : Manifest}

/-- The reports of a run are those of its download. -/
theorem progress_runInner (hm : Accepted cfg r m) (hbegun : r.begun = true) :
    (runInner sha cfg r).progress = progressReports m.imageSize 0 r.imageLenRead := by
  obtain ⟨⟨json,hfetch,hparse⟩,size,hpassive,hvalid⟩ := hm
  simp only [runInner, hfetch, hparse, hpassive, hvalid, install]
  rw [if_neg (by simp [hbegun])]
  cases verifyImage sha cfg r m with
  | none => rfl
  | some err => rfl

theorem imageSize_ne_zero (hm : Accepted cfg r m) : m.imageSize ≠ 0 := by
  obtain ⟨_,size,_,hvalid⟩ := hm
  intro hzero
  unfold validate at hvalid
  rw [hzero] at hvalid
  split at hvalid
  · cases hvalid
  split at hvalid
  · cases hvalid
  split at hvalid
  · cases hvalid
  simp at hvalid

end Runs

/-- The reports of a download are in order for all lengths up to a bound exactly if the bound is
below 101 percent of the size in the manifest. -/
theorem progress_in_order_iff (sha : Sha256) (cfg : Config) (r : Replies) {m : Manifest}
    (hm : Accepted cfg r m) (hbegun : r.begun = true) {bound : ℕ} (hbound : bound < 2 ^ 31) :
    (∀ lens : List ℕ, lens.Pairwise (· ≤ ·) → (∀ got ∈ lens, got ≤ bound) →
      InOrder (runInner sha cfg { r with imageLenRead := lens.map Nat.cast }).progress) ↔
    bound * 100 < 101 * m.imageSize.toNat := by
  have hprogress : ∀ lens : List ℕ,
      (runInner sha cfg { r with imageLenRead := lens.map Nat.cast }).progress =
        progressReports m.imageSize 0 (lens.map Nat.cast) := fun lens =>
    progress_runInner (r:={ r with imageLenRead := lens.map Nat.cast })
      ⟨hm.parsed,hm.valid⟩ hbegun
  constructor
  · intro h
    refine Nat.lt_of_not_le ?_
    intro hle
    obtain ⟨got,hgot,hlarge⟩ := exists_percent_gt (imageSize_ne_zero hm) hbound hle
    have horder := h [got] (List.pairwise_singleton _ _) (by simpa using hgot)
    rw [hprogress] at horder
    have hreported : percent m.imageSize got ∈ progressReports m.imageSize 0 [(got : ℤ)] := by
      rw [progressReports, if_pos]
      · exact List.mem_cons_self
      · intro hzero
        have hdecile := toNat_decile (percent m.imageSize got)
        rw [hzero] at hdecile
        have hzero' : (0 : BitVec 8).toNat = 0 := rfl
        omega
    have hle := horder.bounded _ hreported
    omega
  · intro hlt lens hsorted hall
    rw [hprogress]
    refine progressReports_inOrder hsorted (fun got hgot => ?_) fun got hgot => ?_
    · have hle := hall got hgot
      omega
    · have hle := hall got hgot
      omega

theorem accepted_smallUpdate :
    ∃ m, Accepted ⟨Rpc.utf8 "0.1.0",none⟩ smallUpdate m ∧ m.imageSize = 2 := by
  refine ⟨_,⟨⟨_,rfl,rfl⟩,_,rfl,?_⟩,?_⟩
  · decide +kernel
  · decide +kernel

/-- Two bytes are announced: a response of two bytes is reported in order. -/
theorem progress_in_order_small :
    ∃ m, Accepted ⟨Rpc.utf8 "0.1.0",none⟩ smallUpdate m ∧
      InOrder (runInner firstBytes ⟨Rpc.utf8 "0.1.0",none⟩
        { smallUpdate with imageLenRead := [1, 2] }).progress := by
  obtain ⟨m,hm,hsize⟩ := accepted_smallUpdate
  have hlt : 2 * 100 < 101 * m.imageSize.toNat := by
    rw [hsize]
    decide
  exact ⟨m,hm,(progress_in_order_iff firstBytes _ smallUpdate hm rfl (by decide)).mpr hlt [1, 2]
    (by decide) (by decide)⟩

/-- Two bytes are announced: of three, 150 percent are reported, and behind six the percentage
goes back. -/
theorem progress_out_of_order :
    let run lens := (runInner firstBytes ⟨Rpc.utf8 "0.1.0",none⟩
      { smallUpdate with imageLenRead := lens }).progress
    (run [1, 3] = [50, 150] ∧ ¬ InOrder (run [1, 3])) ∧
      run [1, 6] = [50, 44] ∧ ¬ InOrder (run [1, 6]) := by
  intro run
  have hcapped : run [1, 3] = [50, 150] := by decide +kernel
  have hwrapped : run [1, 6] = [50, 44] := by decide +kernel
  refine ⟨⟨hcapped,?_⟩,hwrapped,?_⟩
  · intro h
    have hle := h.bounded 150 (by rw [hcapped]; simp)
    exact absurd hle (by decide)
  · intro h
    have hpairs := h.increasing
    rw [hwrapped] at hpairs
    exact absurd hpairs (by decide)

end AlprGate.Ota
