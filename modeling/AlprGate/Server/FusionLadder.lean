import AlprGate.Server.FusionHistory

/-! # The verdict ladder

The ladder is stated over the history of store operations and overrides, not over the
tables. Each rung says when it fails; a decision is an authorization when none fails,
and otherwise the outcome of the first that does. The engine's decision after any
history is the one the ladder prescribes.
-/
namespace AlprGate.Fusion
open Auth Selection Transition

/-- A request, the instant of the decision, and everything that happened before it. -/
structure Question where
  history : List EngineOp
  cfg : FusionConfig
  req : AuthorizeRequest
  nowUnix : ℤ
  nowLocal : Tm

inductive Rung where
  | forceClose | noPlate | lowAlpr | lowLidar | blocklisted | notOnAllowlist | classMismatch
  | outsideWindow
  deriving DecidableEq, Repr

/-- The place on the ladder; the two low-confidence rungs exclude each other. -/
def Rung.rank : Rung → ℕ
  | .forceClose => 0
  | .noPlate => 1
  | .lowAlpr => 2
  | .lowLidar => 3
  | .blocklisted => 4
  | .notOnAllowlist => 5
  | .classMismatch => 6
  | .outsideWindow => 7

def Rung.verdict : Rung → AuthVerdict
  | .lowAlpr | .lowLidar => .lowConfidence
  | .classMismatch => .manualReview
  | _ => .denied

def Rung.denyReason : Rung → DenyReason
  | .forceClose => .forceClose
  | .noPlate => .noPlateFound
  | .lowAlpr => .lowAlprConf
  | .lowLidar => .lowLidarConf
  | .blocklisted => .blocklisted
  | .notOnAllowlist => .notOnAllowlist
  | .classMismatch => .classMismatch
  | .outsideWindow => .outsideWindow

namespace Question
variable (q : Question)

def override : OverrideState := currentOverride q.history q.req.frame.gateId

def stores : List StoreOp := q.history.filterMap EngineOp.storeOp

def blocked (p : PlateDetection) : Bool :=
  currentlyBlocked q.stores q.req.siteId (normalizePlate p.plateText)

def terms (p : PlateDetection) : Option Terms :=
  currentTerms q.stores q.req.siteId (normalizePlate p.plateText)

/-- The first plate of maximal detection confidence. -/
def Plate (p : PlateDetection) : Prop :=
  FirstMax PlateDetection.detectionConf q.req.frame.plates p

/-- The first vehicle of maximal confidence when some vehicle is above the floor of the
scan; otherwise the configured substitute and no known class. -/
def Vehicle (conf : ℚ) (cls : VehicleClass) : Prop :=
  (∃ v, FirstMax VehicleDetection.classConf q.req.frame.vehicles v ∧ -1 < v.classConf ∧
    conf = v.classConf ∧ cls = v.vehicleClass) ∨
  ((∀ v ∈ q.req.frame.vehicles, v.classConf ≤ -1) ∧ conf = q.cfg.lidarMissingConfidence ∧
    cls = .unknown)

/-- The first vehicle of maximal confidence, however low it is. -/
def AnyVehicle (conf : ℚ) (cls : VehicleClass) : Prop :=
  (∃ v, FirstMax VehicleDetection.classConf q.req.frame.vehicles v ∧ conf = v.classConf ∧
    cls = v.vehicleClass) ∨
  (q.req.frame.vehicles = [] ∧ conf = q.cfg.lidarMissingConfidence ∧ cls = .unknown)

def blend (p : PlateDetection) (lidar : ℚ) : ℚ :=
  q.cfg.alprWeight * foldAlprConfidence p + q.cfg.lidarWeight * lidar

variable (side : ℚ → VehicleClass → Prop)

/-- When each rung fails. A force-open override passes every rung below the plate, a
guard's override the rungs of the allowlist. -/
def Fails : Rung → Prop
  | .forceClose => q.override = .forceClose
  | .noPlate => ∀ p ∈ q.req.frame.plates, p.detectionConf ≤ -1
  | .lowAlpr => q.override ≠ .forceOpen ∧ ∃ p conf cls, q.Plate p ∧ side conf cls ∧
      q.blend p conf < q.cfg.minCombinedThreshold ∧ foldAlprConfidence p ≤ conf
  | .lowLidar => q.override ≠ .forceOpen ∧ ∃ p conf cls, q.Plate p ∧ side conf cls ∧
      q.blend p conf < q.cfg.minCombinedThreshold ∧ conf < foldAlprConfidence p
  | .blocklisted => q.override ≠ .forceOpen ∧ ∃ p, q.Plate p ∧ q.blocked p = true
  | .notOnAllowlist => q.override ≠ .forceOpen ∧ q.req.overrideAllowlist = false ∧
      ∃ p, q.Plate p ∧ q.terms p = none
  | .classMismatch => q.override ≠ .forceOpen ∧ q.req.overrideAllowlist = false ∧
      ∃ p conf cls t, q.Plate p ∧ side conf cls ∧ q.terms p = some t ∧ ¬ t.AdmitsClass cls
  | .outsideWindow => q.override ≠ .forceOpen ∧ q.req.overrideAllowlist = false ∧
      ∃ p t, q.Plate p ∧ q.terms p = some t ∧ ¬ t.AdmitsInstant q.nowUnix q.nowLocal

def FirstFails (r : Rung) : Prop :=
  q.Fails side r ∧ ∀ r' : Rung, r'.rank < r.rank → ¬ q.Fails side r'

def Authorized : Prop :=
  q.override ≠ .forceClose ∧ (∃ p ∈ q.req.frame.plates, -1 < p.detectionConf) ∧
  (q.override = .forceOpen ∨
    ∃ p conf cls, q.Plate p ∧ side conf cls ∧ q.cfg.minCombinedThreshold ≤ q.blend p conf ∧
      q.blocked p = false ∧
      (q.req.overrideAllowlist = true ∨ ∃ t, q.terms p = some t ∧ t.AdmitsClass cls ∧
        t.AdmitsInstant q.nowUnix q.nowLocal))

/-- The decision is the one the ladder prescribes. -/
def Follows (d : AuthDecision) : Prop :=
  (d.verdict = .authorized ↔ q.Authorized side) ∧
  (¬ q.Authorized side → ∃ r, q.FirstFails side r ∧ d.verdict = r.verdict ∧
    d.denyReason = r.denyReason) ∧
  (d.denyReason = .none ↔ d.verdict = .authorized)

variable {q side}

theorem follows_of_authorized {d : AuthDecision} (h : q.Authorized side)
    (hverdict : d.verdict = .authorized) (hreason : d.denyReason = .none) : q.Follows side d :=
  ⟨⟨fun _ => h,fun _ => hverdict⟩,fun hnot => absurd h hnot,⟨fun _ => hverdict,fun _ => hreason⟩⟩

theorem follows_of_firstFails {d : AuthDecision} {r : Rung} (h : q.FirstFails side r)
    (hnot : ¬ q.Authorized side) (hverdict : d.verdict = r.verdict)
    (hreason : d.denyReason = r.denyReason) : q.Follows side d := by
  have hdenied : d.verdict ≠ .authorized := by
    rw [hverdict]
    cases r <;> exact AuthVerdict.noConfusion
  have hnamed : d.denyReason ≠ .none := by
    rw [hreason]
    cases r <;> exact DenyReason.noConfusion
  exact ⟨⟨fun hv => absurd hv hdenied,fun ha => absurd ha hnot⟩,
    fun _ => ⟨r,h,hverdict,hreason⟩,⟨fun hr => absurd hr hnamed,fun hv => absurd hv hdenied⟩⟩

/-- The plate and the vehicle side that a frame determines. -/
structure Reading (q : Question) (side : ℚ → VehicleClass → Prop) (p : PlateDetection)
    (conf : ℚ) (cls : VehicleClass) : Prop where
  plate : q.Plate p
  present : ∃ p ∈ q.req.frame.plates, -1 < p.detectionConf
  vehicle : side conf cls
  unique : ∀ conf' cls', side conf' cls' → conf' = conf ∧ cls' = cls

section Reading
variable {p : PlateDetection} {conf : ℚ} {cls : VehicleClass}

theorem Reading.plate_eq (h : Reading q side p conf cls) {p' : PlateDetection}
    (hp : q.Plate p') : p' = p := hp.unique h.plate

theorem Reading.not_noPlate (h : Reading q side p conf cls) : ¬ q.Fails side .noPlate := by
  intro hnone
  obtain ⟨p',hmem,hconf⟩ := h.present
  exact absurd hconf (not_lt.mpr (hnone p' hmem))

theorem Reading.lowAlpr_iff (h : Reading q side p conf cls) : q.Fails side .lowAlpr ↔
    q.override ≠ .forceOpen ∧ q.blend p conf < q.cfg.minCombinedThreshold ∧
      foldAlprConfidence p ≤ conf := by
  constructor
  · rintro ⟨ho,p',conf',cls',hp,hs,hlow,hle⟩
    obtain rfl := h.plate_eq hp
    obtain ⟨rfl,rfl⟩ := h.unique conf' cls' hs
    exact ⟨ho,hlow,hle⟩
  · rintro ⟨ho,hlow,hle⟩
    exact ⟨ho,p,conf,cls,h.plate,h.vehicle,hlow,hle⟩

theorem Reading.lowLidar_iff (h : Reading q side p conf cls) : q.Fails side .lowLidar ↔
    q.override ≠ .forceOpen ∧ q.blend p conf < q.cfg.minCombinedThreshold ∧
      conf < foldAlprConfidence p := by
  constructor
  · rintro ⟨ho,p',conf',cls',hp,hs,hlow,hlt⟩
    obtain rfl := h.plate_eq hp
    obtain ⟨rfl,rfl⟩ := h.unique conf' cls' hs
    exact ⟨ho,hlow,hlt⟩
  · rintro ⟨ho,hlow,hlt⟩
    exact ⟨ho,p,conf,cls,h.plate,h.vehicle,hlow,hlt⟩

theorem Reading.blocklisted_iff (h : Reading q side p conf cls) : q.Fails side .blocklisted ↔
    q.override ≠ .forceOpen ∧ q.blocked p = true := by
  constructor
  · rintro ⟨ho,p',hp,hb⟩
    obtain rfl := h.plate_eq hp
    exact ⟨ho,hb⟩
  · rintro ⟨ho,hb⟩
    exact ⟨ho,p,h.plate,hb⟩

theorem Reading.notOnAllowlist_iff (h : Reading q side p conf cls) :
    q.Fails side .notOnAllowlist ↔
      q.override ≠ .forceOpen ∧ q.req.overrideAllowlist = false ∧ q.terms p = none := by
  constructor
  · rintro ⟨ho,hg,p',hp,ht⟩
    obtain rfl := h.plate_eq hp
    exact ⟨ho,hg,ht⟩
  · rintro ⟨ho,hg,ht⟩
    exact ⟨ho,hg,p,h.plate,ht⟩

theorem Reading.classMismatch_iff (h : Reading q side p conf cls) :
    q.Fails side .classMismatch ↔ q.override ≠ .forceOpen ∧ q.req.overrideAllowlist = false ∧
      ∃ t, q.terms p = some t ∧ ¬ t.AdmitsClass cls := by
  constructor
  · rintro ⟨ho,hg,p',conf',cls',t,hp,hs,ht,hnot⟩
    obtain rfl := h.plate_eq hp
    obtain ⟨rfl,rfl⟩ := h.unique conf' cls' hs
    exact ⟨ho,hg,t,ht,hnot⟩
  · rintro ⟨ho,hg,t,ht,hnot⟩
    exact ⟨ho,hg,p,conf,cls,t,h.plate,h.vehicle,ht,hnot⟩

theorem Reading.outsideWindow_iff (h : Reading q side p conf cls) :
    q.Fails side .outsideWindow ↔ q.override ≠ .forceOpen ∧ q.req.overrideAllowlist = false ∧
      ∃ t, q.terms p = some t ∧ ¬ t.AdmitsInstant q.nowUnix q.nowLocal := by
  constructor
  · rintro ⟨ho,hg,p',t,hp,ht,hnot⟩
    obtain rfl := h.plate_eq hp
    exact ⟨ho,hg,t,ht,hnot⟩
  · rintro ⟨ho,hg,t,ht,hnot⟩
    exact ⟨ho,hg,p,t,h.plate,ht,hnot⟩

theorem Reading.authorized_iff (h : Reading q side p conf cls) : q.Authorized side ↔
    q.override ≠ .forceClose ∧ (q.override = .forceOpen ∨
      (q.cfg.minCombinedThreshold ≤ q.blend p conf ∧ q.blocked p = false ∧
      (q.req.overrideAllowlist = true ∨ ∃ t, q.terms p = some t ∧ t.AdmitsClass cls ∧
        t.AdmitsInstant q.nowUnix q.nowLocal))) := by
  constructor
  · rintro ⟨hc,_,ho | ⟨p',conf',cls',hp,hs,hrest⟩⟩
    · exact ⟨hc,Or.inl ho⟩
    · obtain rfl := h.plate_eq hp
      obtain ⟨rfl,rfl⟩ := h.unique conf' cls' hs
      exact ⟨hc,Or.inr hrest⟩
  · rintro ⟨hc,ho | hrest⟩
    · exact ⟨hc,h.present,Or.inl ho⟩
    · exact ⟨hc,h.present,Or.inr ⟨p,conf,cls,h.plate,h.vehicle,hrest⟩⟩

end Reading

/-- The rungs below a place on the ladder hold. -/
def Passed (q : Question) (side : ℚ → VehicleClass → Prop) (n : ℕ) : Prop :=
  ∀ r : Rung, r.rank < n → ¬ q.Fails side r

theorem rank_injective : Function.Injective Rung.rank := by
  intro r r' h
  cases r <;> cases r' <;> first | rfl | cases h

theorem Passed.next {r : Rung} (h : q.Passed side r.rank) (hr : ¬ q.Fails side r) :
    q.Passed side (r.rank + 1) := by
  intro r' hr'
  rcases Nat.lt_succ_iff_lt_or_eq.mp hr' with hlt | heq
  · exact h r' hlt
  · rw [rank_injective heq]
    exact hr

theorem passed_zero : q.Passed side 0 := fun _ hr => absurd hr (Nat.not_lt_zero _)

/-- The rungs of the frame itself hold, and no override decides. -/
theorem Reading.passed_frame {p : PlateDetection} {conf : ℚ} {cls : VehicleClass}
    (h : Reading q side p conf cls) (hclose : q.override ≠ .forceClose) : q.Passed side 2 :=
  Passed.next (r:=.noPlate) (Passed.next (r:=.forceClose) passed_zero hclose) h.not_noPlate

theorem Reading.passed_confidence {p : PlateDetection} {conf : ℚ} {cls : VehicleClass}
    (h : Reading q side p conf cls) (hclose : q.override ≠ .forceClose)
    (hblend : ¬ q.blend p conf < q.cfg.minCombinedThreshold) : q.Passed side 4 := by
  have halpr : ¬ q.Fails side .lowAlpr := fun hf => hblend (h.lowAlpr_iff.mp hf).2.1
  have hlidar : ¬ q.Fails side .lowLidar := fun hf => hblend (h.lowLidar_iff.mp hf).2.1
  exact Passed.next (r:=.lowLidar) (Passed.next (r:=.lowAlpr) (h.passed_frame hclose) halpr) hlidar

section Engine
variable {p : PlateDetection} {conf : ℚ} {cls : VehicleClass} {out : AuthDecision}

theorem blocked_after (q : Question) (p : PlateDetection) :
    (FusionEngine.after q.cfg q.history).store.isBlocklisted q.req.siteId
      (normalizePlate p.plateText) = q.blocked p := by
  have hafter := AllowlistStore.isBlocklisted_after q.stores q.req.siteId
    (normalizePlate p.plateText)
  rw [normalizePlate_idem] at hafter
  rw [FusionEngine.after, FusionEngine.exec_store]
  exact hafter

theorem terms_after (q : Question) (p : PlateDetection) :
    ((FusionEngine.after q.cfg q.history).store.lookup q.req.siteId
      (normalizePlate p.plateText)).map Allowlistentry.terms = q.terms p := by
  have hafter := AllowlistStore.lookup_after q.stores q.req.siteId (normalizePlate p.plateText)
  rw [normalizePlate_idem] at hafter
  rw [FusionEngine.after, FusionEngine.exec_store]
  exact hafter

theorem classInAllowlist_iff (e : Allowlistentry) (cls : VehicleClass) :
    classInAllowlist e cls = true ↔ e.terms.AdmitsClass cls := classAllowed_iff e cls

theorem Reading.follows_forceOpen (h : Reading q side p conf cls) {d : AuthDecision}
    (hopen : q.override = .forceOpen) (hverdict : d.verdict = .authorized)
    (hreason : d.denyReason = .none) : q.Follows side d := by
  have hclose : q.override ≠ .forceClose := by
    rw [hopen]
    exact OverrideState.noConfusion
  exact follows_of_authorized (h.authorized_iff.mpr ⟨hclose,Or.inl hopen⟩) hverdict hreason

/-- Below the override rungs only the scored rungs can authorize. -/
theorem Reading.scored (h : Reading q side p conf cls) (hopen : q.override ≠ .forceOpen)
    (ha : q.Authorized side) : q.cfg.minCombinedThreshold ≤ q.blend p conf ∧
      q.blocked p = false ∧ (q.req.overrideAllowlist = true ∨ ∃ t, q.terms p = some t ∧
        t.AdmitsClass cls ∧ t.AdmitsInstant q.nowUnix q.nowLocal) :=
  (h.authorized_iff.mp ha).2.resolve_left hopen

theorem Reading.follows_low (h : Reading q side p conf cls) (hclose : q.override ≠ .forceClose)
    (hopen : q.override ≠ .forceOpen) (hblend : q.blend p conf < q.cfg.minCombinedThreshold)
    {d : AuthDecision} (hverdict : d.verdict = .lowConfidence)
    (hreason : d.denyReason =
      if foldAlprConfidence p ≤ conf then .lowAlprConf else .lowLidarConf) :
    q.Follows side d := by
  have hnot : ¬ q.Authorized side := fun ha => absurd hblend (not_lt.mpr (h.scored hopen ha).1)
  have hframe := h.passed_frame hclose
  by_cases hside : foldAlprConfidence p ≤ conf
  · rw [if_pos hside] at hreason
    have hfails := h.lowAlpr_iff.mpr ⟨hopen,hblend,hside⟩
    exact follows_of_firstFails (r:=.lowAlpr) ⟨hfails,hframe⟩ hnot hverdict hreason
  · rw [if_neg hside] at hreason
    have hfails := h.lowLidar_iff.mpr ⟨hopen,hblend,not_le.mp hside⟩
    have halpr : ¬ q.Fails side .lowAlpr := fun hf => hside (h.lowAlpr_iff.mp hf).2.2
    exact follows_of_firstFails (r:=.lowLidar) ⟨hfails,Passed.next (r:=.lowAlpr) hframe halpr⟩
      hnot hverdict hreason

theorem Reading.follows_blocklisted (h : Reading q side p conf cls)
    (hclose : q.override ≠ .forceClose) (hopen : q.override ≠ .forceOpen)
    (hblend : ¬ q.blend p conf < q.cfg.minCombinedThreshold) (hblocked : q.blocked p = true)
    {d : AuthDecision} (hverdict : d.verdict = .denied) (hreason : d.denyReason = .blocklisted) :
    q.Follows side d := by
  have hfails := h.blocklisted_iff.mpr ⟨hopen,hblocked⟩
  have hnot : ¬ q.Authorized side := by
    intro ha
    have hfree := (h.scored hopen ha).2.1
    rw [hblocked] at hfree
    exact Bool.false_ne_true hfree.symm
  exact follows_of_firstFails (r:=.blocklisted) ⟨hfails,h.passed_confidence hclose hblend⟩
    hnot hverdict hreason

/-- Confidence and blocklist hold and no override is in force. -/
structure Scored (q : Question) (side : ℚ → VehicleClass → Prop) (p : PlateDetection)
    (conf : ℚ) (cls : VehicleClass) : Prop extends Reading q side p conf cls where
  close : q.override ≠ .forceClose
  opened : q.override ≠ .forceOpen
  blend : ¬ q.blend p conf < q.cfg.minCombinedThreshold
  unblocked : q.blocked p = false

theorem Scored.passed (h : Scored q side p conf cls) : q.Passed side 5 := by
  have hunblocked : ¬ q.Fails side .blocklisted := by
    intro hf
    have hb := (h.toReading.blocklisted_iff.mp hf).2
    rw [h.unblocked] at hb
    exact Bool.false_ne_true hb
  exact Passed.next (r:=.blocklisted) (h.toReading.passed_confidence h.close h.blend) hunblocked

theorem Scored.follows_guard (h : Scored q side p conf cls) {d : AuthDecision}
    (hguard : q.req.overrideAllowlist = true) (hverdict : d.verdict = .authorized)
    (hreason : d.denyReason = .none) : q.Follows side d := by
  have ha := h.toReading.authorized_iff.mpr
    ⟨h.close,Or.inr ⟨not_lt.mp h.blend,h.unblocked,Or.inl hguard⟩⟩
  exact follows_of_authorized ha hverdict hreason

/-- Without a guard the entry decides. -/
theorem Scored.authorized_iff (h : Scored q side p conf cls)
    (hguard : q.req.overrideAllowlist = false) : q.Authorized side ↔
      ∃ t, q.terms p = some t ∧ t.AdmitsClass cls ∧ t.AdmitsInstant q.nowUnix q.nowLocal := by
  constructor
  · intro ha
    rcases (h.toReading.scored h.opened ha).2.2 with hg | hentry
    · rw [hguard] at hg
      exact absurd hg Bool.false_ne_true
    · exact hentry
  · intro hentry
    exact h.toReading.authorized_iff.mpr
      ⟨h.close,Or.inr ⟨not_lt.mp h.blend,h.unblocked,Or.inr hentry⟩⟩

theorem Scored.follows_absent (h : Scored q side p conf cls)
    (hguard : q.req.overrideAllowlist = false) (habsent : q.terms p = none) {d : AuthDecision}
    (hverdict : d.verdict = .denied) (hreason : d.denyReason = .notOnAllowlist) :
    q.Follows side d := by
  have hfails := h.toReading.notOnAllowlist_iff.mpr ⟨h.opened,hguard,habsent⟩
  have hnot : ¬ q.Authorized side := by
    intro ha
    obtain ⟨t,ht,_⟩ := (h.authorized_iff hguard).mp ha
    rw [habsent] at ht
    cases ht
  exact follows_of_firstFails (r:=.notOnAllowlist) ⟨hfails,h.passed⟩ hnot hverdict hreason

section Entry
variable {t : Terms}

theorem Scored.authorized_iff_of_entry (h : Scored q side p conf cls)
    (hguard : q.req.overrideAllowlist = false) (hentry : q.terms p = some t) :
    q.Authorized side ↔ t.AdmitsClass cls ∧ t.AdmitsInstant q.nowUnix q.nowLocal := by
  rw [h.authorized_iff hguard]
  constructor
  · rintro ⟨t',ht',hadmits⟩
    rw [hentry] at ht'
    cases ht'
    exact hadmits
  · intro hadmits
    exact ⟨t,hentry,hadmits⟩

theorem Scored.passed_entry (h : Scored q side p conf cls) (hentry : q.terms p = some t) :
    q.Passed side 6 := by
  have hpresent : ¬ q.Fails side .notOnAllowlist := by
    intro hf
    have hnone := (h.toReading.notOnAllowlist_iff.mp hf).2.2
    rw [hentry] at hnone
    cases hnone
  exact Passed.next (r:=.notOnAllowlist) h.passed hpresent

theorem Scored.follows_classMismatch (h : Scored q side p conf cls)
    (hguard : q.req.overrideAllowlist = false) (hentry : q.terms p = some t)
    (hclass : ¬ t.AdmitsClass cls) {d : AuthDecision} (hverdict : d.verdict = .manualReview)
    (hreason : d.denyReason = .classMismatch) : q.Follows side d := by
  have hfails := h.toReading.classMismatch_iff.mpr ⟨h.opened,hguard,t,hentry,hclass⟩
  have hnot : ¬ q.Authorized side := fun ha =>
    hclass ((h.authorized_iff_of_entry hguard hentry).mp ha).1
  exact follows_of_firstFails (r:=.classMismatch) ⟨hfails,h.passed_entry hentry⟩ hnot
    hverdict hreason

theorem Scored.follows_outsideWindow (h : Scored q side p conf cls)
    (hguard : q.req.overrideAllowlist = false) (hentry : q.terms p = some t)
    (hclass : t.AdmitsClass cls) (hinstant : ¬ t.AdmitsInstant q.nowUnix q.nowLocal)
    {d : AuthDecision} (hverdict : d.verdict = .denied)
    (hreason : d.denyReason = .outsideWindow) : q.Follows side d := by
  have hfails := h.toReading.outsideWindow_iff.mpr ⟨h.opened,hguard,t,hentry,hinstant⟩
  have hnot : ¬ q.Authorized side := fun ha =>
    hinstant ((h.authorized_iff_of_entry hguard hentry).mp ha).2
  have hmatch : ¬ q.Fails side .classMismatch := by
    intro hf
    obtain ⟨_,_,t',ht',hclass'⟩ := h.toReading.classMismatch_iff.mp hf
    rw [hentry] at ht'
    cases ht'
    exact hclass' hclass
  exact follows_of_firstFails (r:=.outsideWindow)
    ⟨hfails,Passed.next (r:=.classMismatch) (h.passed_entry hentry) hmatch⟩ hnot hverdict hreason

end Entry

/-- The rungs of the allowlist, read off the entry that `lookup` returned. -/
theorem Scored.follows_entry (h : Scored q side p conf cls)
    (hguard : q.req.overrideAllowlist = false) {e : Allowlistentry}
    (hentry : q.terms p = some e.terms) (hreason : out.denyReason = .none) :
    q.Follows side
      (if isAllowedNow e cls q.nowUnix q.nowLocal = false then
        if classInAllowlist e cls = false then
          { out with
            verdict := .manualReview, denyReason := .classMismatch
            reasonText := "plate match but vehicle class not permitted" }
        else
          { out with
            verdict := .denied, denyReason := .outsideWindow
            reasonText := "plate match but outside allowed time window" }
      else { out with verdict := .authorized, reasonText := "plate + class match" }) := by
  have hpolicy := isAllowedNow_iff e cls q.nowUnix q.nowLocal
  have hcopy := classInAllowlist_iff e cls
  by_cases hclass : e.terms.AdmitsClass cls
  · have hcopy' := hcopy.mpr hclass
    by_cases hinstant : e.terms.AdmitsInstant q.nowUnix q.nowLocal
    · rw [if_neg (by rw [hpolicy.mpr ⟨hclass,hinstant⟩]; exact Bool.noConfusion)]
      exact follows_of_authorized
        ((h.authorized_iff_of_entry hguard hentry).mpr ⟨hclass,hinstant⟩) rfl hreason
    · have hdenied := Bool.eq_false_iff.mpr fun hp => hinstant (hpolicy.mp hp).2
      rw [if_pos hdenied, if_neg (by rw [hcopy']; exact Bool.noConfusion)]
      exact h.follows_outsideWindow hguard hentry hclass hinstant rfl rfl
  · have hdenied := Bool.eq_false_iff.mpr fun hp => hclass (hpolicy.mp hp).1
    have hcopy' := Bool.eq_false_iff.mpr fun hp => hclass (hcopy.mp hp)
    rw [if_pos hdenied, if_pos hcopy']
    exact h.follows_classMismatch hguard hentry hclass rfl rfl

theorem Reading.decideScored_follows (h : Reading q side p conf cls)
    (hclose : q.override ≠ .forceClose) (hopen : q.override ≠ .forceOpen)
    (hreason : out.denyReason = .none) :
    q.Follows side ((FusionEngine.after q.cfg q.history).decideScored out q.req
      (normalizePlate p.plateText) cls (foldAlprConfidence p) conf (q.blend p conf)
      q.nowUnix q.nowLocal) := by
  have hcfg : (FusionEngine.after q.cfg q.history).cfg = q.cfg := FusionEngine.exec_cfg ..
  rw [FusionEngine.decideScored, hcfg, Rat.cast_id, blocked_after]
  by_cases hblend : q.blend p conf < q.cfg.minCombinedThreshold
  · rw [if_pos hblend]
    exact h.follows_low hclose hopen hblend rfl rfl
  · rw [if_neg hblend]
    cases hblocked : q.blocked p with
    | true =>
      rw [if_pos rfl]
      exact h.follows_blocklisted hclose hopen hblend hblocked rfl rfl
    | false =>
      rw [if_neg Bool.false_ne_true]
      have hscored : Scored q side p conf cls := ⟨h,hclose,hopen,hblend,hblocked⟩
      cases hguard : q.req.overrideAllowlist with
      | true =>
        rw [if_pos rfl]
        exact hscored.follows_guard hguard rfl hreason
      | false =>
        rw [if_neg Bool.false_ne_true]
        have hterms := terms_after q p
        cases hlookup : (FusionEngine.after q.cfg q.history).store.lookup q.req.siteId
            (normalizePlate p.plateText) with
        | none =>
          rw [hlookup] at hterms
          exact hscored.follows_absent hguard hterms.symm rfl rfl
        | some e =>
          rw [hlookup] at hterms
          exact hscored.follows_entry hguard hterms.symm hreason

end Engine

/-- A frame determines its vehicle side. -/
theorem vehicle_unique {conf conf' : ℚ} {cls cls' : VehicleClass} (h : q.Vehicle conf cls)
    (h' : q.Vehicle conf' cls') : conf' = conf ∧ cls' = cls := by
  rcases h with ⟨v,hmax,hfloor,rfl,rfl⟩ | ⟨hle,rfl,rfl⟩
  · rcases h' with ⟨v',hmax',_,rfl,rfl⟩ | ⟨hle',_,_⟩
    · rw [hmax'.unique hmax]
      exact ⟨rfl,rfl⟩
    · exact absurd hfloor (not_lt.mpr (hle' v hmax.mem))
  · rcases h' with ⟨v',hmax',hfloor',_,_⟩ | ⟨_,rfl,rfl⟩
    · exact absurd hfloor' (not_lt.mpr (hle v' hmax'.mem))
    · exact ⟨rfl,rfl⟩

theorem reading_of_bestPlate {p : PlateDetection} (hconf : -1 < p.detectionConf)
    (hmax : q.Plate p) {conf : ℚ} {cls : VehicleClass} (hside : q.Vehicle conf cls) :
    Reading q q.Vehicle p conf cls where
  plate := hmax
  present := ⟨p,hmax.mem,hconf⟩
  vehicle := hside
  unique := fun _ _ h => vehicle_unique hside h

/-- The rungs above the confidence floor, once the frame has been read. -/
theorem Reading.decide_follows {p : PlateDetection} {conf : ℚ} {cls : VehicleClass}
    (h : Reading q side p conf cls) (hclose : q.override ≠ .forceClose) {out : AuthDecision}
    (hreason : out.denyReason = .none) :
    q.Follows side
      (if q.override = .forceOpen then
        { out with verdict := .authorized, reasonText := "force-open override active" }
      else (FusionEngine.after q.cfg q.history).decideScored out q.req
        (normalizePlate p.plateText) cls (foldAlprConfidence p) conf (q.blend p conf)
        q.nowUnix q.nowLocal) := by
  by_cases hopen : q.override = .forceOpen
  · rw [if_pos hopen]
    exact h.follows_forceOpen hopen rfl hreason
  · rw [if_neg hopen]
    exact h.decideScored_follows hclose hopen hreason

/-- After every history the engine decides as the ladder prescribes. -/
theorem decideAt_follows_ladder (q : Question) (decisionId : Text) :
    q.Follows q.Vehicle ((FusionEngine.after q.cfg q.history).decideAt decisionId q.req
      q.nowUnix q.nowLocal) := by
  have hoverride : (FusionEngine.after q.cfg q.history).overrideFor q.req.frame.gateId =
      q.override := overrideFor_after ..
  have hcfg : (FusionEngine.after q.cfg q.history).cfg = q.cfg := FusionEngine.exec_cfg ..
  simp only [FusionEngine.decideAt, hoverride, hcfg]
  by_cases hclose : q.override = .forceClose
  · rw [if_pos hclose]
    exact follows_of_firstFails (r:=.forceClose) ⟨hclose,passed_zero⟩ (fun ha => ha.1 hclose) rfl rfl
  · rw [if_neg hclose]
    rcases best_spec PlateDetection.detectionConf (-1) q.req.frame.plates with
      ⟨hscan,hle⟩ | ⟨p,hscan,hconf,hmax⟩
    · have hbest : bestPlate q.req = none := hscan
      rw [hbest]
      have hnot : ¬ q.Authorized q.Vehicle := by
        rintro ⟨_,⟨p,hmem,hconf⟩,_⟩
        exact absurd hconf (not_lt.mpr (hle p hmem))
      exact follows_of_firstFails (r:=.noPlate)
        ⟨hle,Passed.next (r:=.forceClose) passed_zero hclose⟩ hnot rfl rfl
    · have hbest : bestPlate q.req = some p := hscan
      rw [hbest]
      rcases best_spec VehicleDetection.classConf (-1) q.req.frame.vehicles with
        ⟨hscanv,hlow⟩ | ⟨v,hscanv,hfloor,hmaxv⟩
      · have hvehicle : bestVehicle q.req = none := hscanv
        have hside : q.Vehicle q.cfg.lidarMissingConfidence .unknown := Or.inr ⟨hlow,rfl,rfl⟩
        simp only [matchedClass, Fusion.blend, lidarConf, hvehicle, Rat.cast_id]
        exact (reading_of_bestPlate hconf hmax hside).decide_follows hclose rfl
      · have hvehicle : bestVehicle q.req = some v := hscanv
        have hside : q.Vehicle v.classConf v.vehicleClass := Or.inl ⟨v,hmaxv,hfloor,rfl,rfl⟩
        simp only [matchedClass, Fusion.blend, lidarConf, hvehicle, Rat.cast_id]
        exact (reading_of_bestPlate hconf hmax hside).decide_follows hclose rfl

/-- One plate, on the list for sedans, and a sedan whose confidence is exactly the floor of
the scan. -/
def sedanAtFloor : Question where
  history := [.store (.upsert [0x73] [{ plateText := [0x41], allowedClasses := [.sedan] }])]
  cfg := { alprWeight := 1, lidarWeight := 0 }
  req :=
    { frame := { gateId := [0x67], plates := [⟨[0x41],1,1⟩], vehicles := [⟨.sedan,-1⟩] }
      siteId := [0x73] }
  nowUnix := 0
  nowLocal := ⟨12,0,1⟩

/-- With the most confident vehicle taken whatever its confidence, the request is to be
authorized; the engine passes over the sedan and asks for a manual review. -/
theorem vehicle_at_floor_is_passed_over :
    sedanAtFloor.Authorized sedanAtFloor.AnyVehicle ∧
      ((FusionEngine.after sedanAtFloor.cfg sedanAtFloor.history).decideAt [] sedanAtFloor.req
        sedanAtFloor.nowUnix sedanAtFloor.nowLocal).verdict = .manualReview := by
  have hplate : sedanAtFloor.Plate ⟨[0x41],1,1⟩ := by
    refine ⟨0,rfl,fun j _ hj => absurd hj (Nat.not_lt_zero j),?_⟩
    intro p hp
    rw [List.mem_singleton.mp hp]
  have hvehicle : sedanAtFloor.AnyVehicle (-1) .sedan := by
    refine Or.inl ⟨⟨.sedan,-1⟩,⟨0,rfl,fun j _ hj => absurd hj (Nat.not_lt_zero j),?_⟩,rfl,rfl⟩
    intro v hv
    rw [List.mem_singleton.mp hv]
  refine ⟨⟨by decide,⟨_,List.mem_cons_self,by decide +kernel⟩,Or.inr
    ⟨_,_,_,hplate,hvehicle,by decide +kernel,by decide +kernel,Or.inr ⟨_,rfl,?_,?_⟩⟩⟩,
    by decide +kernel⟩
  · exact Or.inr (List.mem_toFinset.mpr List.mem_cons_self)
  · exact ⟨fun _ h => (by cases h),fun _ h => (by cases h),Or.inl rfl⟩

end Question
end AlprGate.Fusion
