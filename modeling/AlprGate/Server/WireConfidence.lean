import AlprGate.Library.FloatValue
import AlprGate.Server.AllowlistScan
import AlprGate.Server.FusionHistory

/-! # Confidences as they arrive

A frame comes from the network, and each confidence in it is any value of the wire's
float type. The engine then decides with the comparisons and the arithmetic of that type, and
with its constants rounded to it.
-/
namespace AlprGate.Fusion
open Auth Transition

section Ladder
variable {κ : Type} [RatCast κ] [LT κ] [DecidableLT κ] [LE κ] [DecidableLE κ] [Printed κ]

/-- The rungs from the confidence floor on authorize a request that passes the floor and the
lists. -/
theorem FusionEngine.decideScored_authorized_iff (f : FusionEngine) (out : AuthDecision κ)
    (req : AuthorizeRequest κ) (normalized : Text) (vehicleClass : VehicleClass)
    (alprConf lidarConf combined : κ) (nowUnix : ℤ) (nowLocal : Tm) :
    (f.decideScored out req normalized vehicleClass alprConf lidarConf combined nowUnix
        nowLocal).verdict = .authorized ↔
      ¬ combined < f.cfg.minCombinedThreshold ∧
      f.store.isBlocklisted req.siteId normalized = false ∧ (req.overrideAllowlist = true ∨
        ∃ entry ∈ f.store.lookup req.siteId normalized,
          isAllowedNow entry vehicleClass nowUnix nowLocal = true) := by
  rw [decideScored]
  by_cases hfloor : combined < f.cfg.minCombinedThreshold
  · simp [hfloor]
  rw [if_neg hfloor]
  cases f.store.isBlocklisted req.siteId normalized with
  | true => simp
  | false =>
    cases req.overrideAllowlist with
    | true => simp [hfloor]
    | false =>
      cases f.store.lookup req.siteId normalized with
      | none => simp
      | some entry =>
        cases hallowed : isAllowedNow entry vehicleClass nowUnix nowLocal with
        | true => simp [hallowed, hfloor]
        | false =>
          cases hclass : classInAllowlist entry vehicleClass with
          | true => simp [hallowed, hclass]
          | false => simp [hallowed, hclass]

/-- Without a force-open override an authorization has passed the floor and the lists. -/
theorem FusionEngine.decideAt_authorized_iff [Max κ] [Add κ] [Mul κ] {f : FusionEngine}
    {req : AuthorizeRequest κ} (hopen : f.overrideFor req.frame.gateId ≠ .forceOpen)
    (decisionId : Text) (nowUnix : ℤ) (nowLocal : Tm) :
    (f.decideAt decisionId req nowUnix nowLocal).verdict = .authorized ↔
      f.overrideFor req.frame.gateId ≠ .forceClose ∧ ∃ plate ∈ bestPlate req,
        ¬ blend f.cfg req plate < f.cfg.minCombinedThreshold ∧
        f.store.isBlocklisted req.siteId (normalizePlate plate.plateText) = false ∧
        (req.overrideAllowlist = true ∨
          ∃ entry ∈ f.store.lookup req.siteId (normalizePlate plate.plateText),
            isAllowedNow entry (matchedClass req) nowUnix nowLocal = true) := by
  simp only [decideAt]
  by_cases hclose : f.overrideFor req.frame.gateId = .forceClose
  · simp [hclose]
  rw [if_neg hclose]
  cases bestPlate req with
  | none => simp
  | some plate =>
    dsimp only
    rw [if_neg hopen, decideScored_authorized_iff]
    simp [hclose]

end Ladder

namespace Wire

/-- What `%.3f` prints. -/
def printed : FloatValue → String
  | .finite q => fixed3 q
  | .inf negative => if negative = true then "-inf" else "inf"
  | .nan => "nan"

instance printedValue (f : FloatFormat) : Printed f.Value := ⟨printed⟩

/-! ## What an authorization says about the confidences -/

section Trust
variable (cfg : FusionConfig) (req : AuthorizeRequest binary32.Value)

/-- The selected confidences are numbers between zero and one. -/
def InRange (plate : PlateDetection binary32.Value) : Prop :=
  plate.detectionConf.toFloatValue.Within 0 1 ∧ plate.ocrConf.toFloatValue.Within 0 1 ∧
    ∀ vd ∈ bestVehicle req, vd.classConf.toFloatValue.Within 0 1

/-- A plate is selected, its confidences and those of the vehicle are in range, and their
blend reaches the threshold. -/
def Trusted : Prop :=
  ∃ plate ∈ bestPlate req, InRange req plate ∧
    (cfg.minCombinedThreshold : binary32.Value) ≤ blend cfg req plate

/-- The requests that cannot pass on confidences out of range: the plate has no text that
the allowlist could hold, the blend compares below the threshold, or all is in range. -/
def Screened : Prop :=
  ∀ plate ∈ bestPlate req, (req.overrideAllowlist = false ∧ normalizePlate plate.plateText = []) ∨
    blend cfg req plate < (cfg.minCombinedThreshold : binary32.Value) ∨ InRange req plate

instance decidableInRange (plate : PlateDetection binary32.Value) :
    Decidable (InRange req plate) :=
  inferInstanceAs (Decidable (_ ∧ _ ∧ ∀ vd ∈ bestVehicle req, _))

instance decidableTrusted : Decidable (Trusted cfg req) :=
  inferInstanceAs (Decidable (∃ plate ∈ bestPlate req, _))

instance decidableScreened : Decidable (Screened cfg req) :=
  inferInstanceAs (Decidable (∀ plate ∈ bestPlate req, _))

end Trust

/-- No history leaves an entry without a plate. -/
theorem lookup_nameless (history : List EngineOp) (cfg : FusionConfig) (siteId : Text)
    {plate : Text} (h : normalizePlate plate = []) :
    (FusionEngine.after cfg history).store.lookup siteId plate = none := by
  have hnamed : (FusionEngine.after cfg history).store.Named := by
    rw [FusionEngine.after, FusionEngine.exec_store]
    exact AllowlistStore.Named.exec (fun _ hr => by cases hr) _
  rw [AllowlistStore.lookup, h, Option.map_eq_none_iff]
  by_contra hrow
  obtain ⟨r,hr⟩ := Option.ne_none_iff_exists'.mp hrow
  obtain ⟨hmem,hkey⟩ := Table.mem_of_get? hr
  exact hnamed r hmem (congrArg Prod.snd hkey)

/-- An entry without restrictions for one plate of one site. -/
def welcoming (siteId plate : Text) : List EngineOp :=
  [.store (.upsert siteId [{ plateText := plate }])]

theorem welcoming_store (cfg : FusionConfig) (siteId plate : Text) :
    (FusionEngine.after cfg (welcoming siteId plate)).store =
      (({} : AllowlistStore).upsert siteId [{ plateText := plate }]).2 := rfl

theorem welcoming_override (siteId plate gateId : Text) :
    currentOverride (welcoming siteId plate) gateId = .none := rfl

theorem welcoming_unblocked (cfg : FusionConfig) (siteId plate normalized : Text) :
    (FusionEngine.after cfg (welcoming siteId plate)).store.isBlocklisted siteId normalized =
      false := by
  rw [welcoming_store, AllowlistStore.isBlocklisted, AllowlistStore.upsert_blocklist]
  rfl

theorem welcoming_admits {siteId plate : Text} (h : normalizePlate plate ≠ []) (cfg : FusionConfig)
    (vehicleClass : VehicleClass) (nowUnix : ℤ) (nowLocal : Tm) :
    ∃ entry ∈ (FusionEngine.after cfg (welcoming siteId plate)).store.lookup siteId
        (normalizePlate plate),
      isAllowedNow entry vehicleClass nowUnix nowLocal = true := by
  have haccepted : Accepted [{ plateText := plate }] := fun e he => by
    rw [List.mem_singleton.mp he]
    exact h
  have hterms : ((FusionEngine.after cfg (welcoming siteId plate)).store.lookup siteId
      (normalizePlate plate)).map Allowlistentry.terms =
        some ({ plateText := plate } : Allowlistentry).terms := by
    rw [welcoming_store, AllowlistStore.upsert_state, if_pos haccepted,
      AllowlistStore.lookup_terms, normalizePlate_idem]
    exact AllowlistStore.upsertEntry_self {} siteId { plateText := plate }
  obtain ⟨entry,hlookup,hentry⟩ := Option.map_eq_some_iff.mp hterms
  refine ⟨entry,hlookup,(isAllowedNow_iff entry vehicleClass nowUnix nowLocal).mpr ?_⟩
  rw [hentry]
  simp [Terms.AdmitsClass, Terms.AdmitsInstant, Allowlistentry.terms]

/-- A plate that could be listed and passes the floor is authorized after some history. -/
theorem authorized_welcoming {cfg : FusionConfig} {req : AuthorizeRequest binary32.Value}
    {plate : PlateDetection binary32.Value} (hplate : plate ∈ bestPlate req)
    (hname : ¬ (req.overrideAllowlist = false ∧ normalizePlate plate.plateText = []))
    (hfloor : ¬ blend cfg req plate < (cfg.minCombinedThreshold : binary32.Value))
    (decisionId : Text) (nowUnix : ℤ) (nowLocal : Tm) :
    ((FusionEngine.after cfg (welcoming req.siteId plate.plateText)).decideAt decisionId req
      nowUnix nowLocal).verdict = .authorized := by
  have hnone := (overrideFor_after cfg (welcoming req.siteId plate.plateText)
    req.frame.gateId).trans (welcoming_override ..)
  refine (FusionEngine.decideAt_authorized_iff (by rw [hnone]; decide) decisionId nowUnix
    nowLocal).mpr ⟨by rw [hnone]; decide,plate,hplate,hfloor,welcoming_unblocked ..,?_⟩
  cases hguard : req.overrideAllowlist with
  | true => exact Or.inl rfl
  | false =>
    exact Or.inr (welcoming_admits (fun hempty => hname ⟨hguard,hempty⟩) cfg _ nowUnix nowLocal)

theorem round_half : binary32.round (1 / 2) = .finite (1 / 2) := by decide +kernel

theorem round_zero : binary32.round 0 = .finite 0 := by decide +kernel

/-- Confidences in range blend to a number. -/
theorem blend_nonNeg {req : AuthorizeRequest binary32.Value} {plate : PlateDetection binary32.Value}
    (h : InRange req plate) : (blend {} req plate).toFloatValue.NonNeg := by
  have hround : ∀ q, 0 ≤ q → (binary32.round q).NonNeg := fun q => binary32.round_nonNeg
  have hhalf : ∀ {x : FloatValue}, x.NonNeg →
      (FloatValue.mul binary32.round (binary32.round (1 / 2)) x).NonNeg := by
    intro x hx
    rw [round_half]
    exact hx.mul hround (by decide +kernel)
  obtain ⟨hdet,hocr,hvehicle⟩ := h
  have hclamp : ∀ {x : FloatValue}, x.NonNeg → (x.max (binary32.round 0)).NonNeg := by
    intro x hx
    rw [round_zero]
    exact hx.max_zero
  have halpr : (foldAlprConfidence plate).toFloatValue.NonNeg :=
    (hhalf (hclamp (hdet.nonNeg le_rfl))).add hround (hhalf (hclamp (hocr.nonNeg le_rfl)))
  have hlidar : (lidarConf {} req).toFloatValue.NonNeg := by
    rw [lidarConf]
    cases hbest : bestVehicle req with
    | none => exact hround 0 le_rfl
    | some vd => exact (hvehicle vd hbest).nonNeg le_rfl
  exact (hhalf halpr).add hround (hhalf hlidar)

/-- With the default configuration, an authorization without a force-open override vouches
for the confidences exactly on the screened requests. -/
theorem authorization_trusted_iff (req : AuthorizeRequest binary32.Value) :
    (∀ (history : List EngineOp) (decisionId : Text) (nowUnix : ℤ) (nowLocal : Tm),
      currentOverride history req.frame.gateId ≠ .forceOpen →
      ((FusionEngine.after {} history).decideAt decisionId req nowUnix nowLocal).verdict =
        .authorized → Trusted {} req) ↔
      Screened {} req := by
  have hcfg : ∀ history, (FusionEngine.after {} history).cfg = {} := fun history =>
    FusionEngine.exec_cfg _ history
  constructor
  · intro hall plate hplate
    by_cases hname : req.overrideAllowlist = false ∧ normalizePlate plate.plateText = []
    · exact Or.inl hname
    by_cases hfloor : blend {} req plate <
        (({} : FusionConfig).minCombinedThreshold : binary32.Value)
    · exact Or.inr (Or.inl hfloor)
    · have hverdict := authorized_welcoming hplate hname hfloor [] 0 ⟨0,0,0⟩
      obtain ⟨plate',hplate',hinRange,_⟩ :=
        hall _ [] 0 ⟨0,0,0⟩ (by rw [welcoming_override]; decide) hverdict
      rw [Option.mem_unique hplate hplate']
      exact Or.inr (Or.inr hinRange)
  · intro hscreened history decisionId nowUnix nowLocal hopen hverdict
    rw [← overrideFor_after {}] at hopen
    obtain ⟨_,plate,hplate,hfloor,_,hlisted⟩ :=
      (FusionEngine.decideAt_authorized_iff hopen decisionId nowUnix nowLocal).mp hverdict
    rw [hcfg] at hfloor
    have hinRange : InRange req plate := by
      rcases hscreened plate hplate with ⟨hguard,hname⟩ | hlow | hinRange
      · obtain hguard' | ⟨entry,hentry,_⟩ := hlisted
        · exact absurd (hguard.symm.trans hguard') Bool.false_ne_true
        · rw [lookup_nameless history {} req.siteId (by rw [normalizePlate_idem, hname])] at hentry
          cases hentry
      · exact absurd hlow hfloor
      · exact hinRange
    have hthreshold := binary32.round_nonNeg (q:=7 / 10) (by decide +kernel)
    exact ⟨plate,hplate,hinRange,FloatValue.le_of_not_lt (blend_nonNeg hinRange).ne_nan
      hthreshold.ne_nan (Bool.eq_false_of_not_eq_true hfloor)⟩

/-- A plate read well and a sedan seen well: whatever happened before, an authorization of
this frame vouches for them, and the plate's own entry gives one. -/
theorem authorization_trusted_sedan :
    let req : AuthorizeRequest binary32.Value :=
      { frame :=
          { gateId := [0x67]
            plates := [⟨[0x61],.finite (15 / 16),.finite (13 / 16)⟩]
            vehicles := [⟨.sedan,.finite (3 / 4)⟩] }
        siteId := [0x73] }
    ((FusionEngine.after {} (welcoming [0x73] [0x61])).decideAt [] req 0 ⟨0,0,0⟩).verdict =
      .authorized ∧
    Trusted {} req := by
  intro req
  have hverdict : ((FusionEngine.after {} (welcoming [0x73] [0x61])).decideAt [] req 0
      ⟨0,0,0⟩).verdict = .authorized := by decide +kernel
  have hscreened : Screened {} req := by decide +kernel
  exact ⟨hverdict,(authorization_trusted_iff req).mpr hscreened _ [] 0 ⟨0,0,0⟩ (by decide) hverdict⟩

/-- A reading that is no number passes the floor, a negative one counts as zero, and a
detection above one makes up for a missing vehicle. -/
theorem doubtful_readings_authorized :
    let history := welcoming [0x73] [0x61]
    let request (plate : PlateDetection binary32.Value)
        (vehicles : List (VehicleDetection binary32.Value)) : AuthorizeRequest binary32.Value :=
      { frame := { gateId := [0x67], plates := [plate], vehicles := vehicles }, siteId := [0x73] }
    let verdict (req : AuthorizeRequest binary32.Value) : AuthVerdict :=
      ((FusionEngine.after {} history).decideAt [] req 0 ⟨0,0,0⟩).verdict
    let unread := request ⟨[0x61],.finite 1,.nan⟩ [⟨.sedan,.finite 1⟩]
    let negative := request ⟨[0x61],.finite 1,.finite (-1 / 2)⟩ [⟨.sedan,.finite 1⟩]
    let excessive := request ⟨[0x61],.finite 2,.finite 1⟩ []
    currentOverride history [0x67] ≠ .forceOpen ∧
      (verdict unread = .authorized ∧ ¬ Trusted {} unread) ∧
      (verdict negative = .authorized ∧ ¬ Trusted {} negative) ∧
      verdict excessive = .authorized ∧ ¬ Trusted {} excessive := by
  decide +kernel

end Wire
end AlprGate.Fusion
