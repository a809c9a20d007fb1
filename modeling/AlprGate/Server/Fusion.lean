import Mathlib.Algebra.Order.Ring.Rat
import AlprGate.Library.Selection
import AlprGate.Server.Allowlist

/-! # The fusion engine

One frame and the time of day in, one decision out. The engine reads the overrides of
the gate and the tables of the store. It is written over any type of confidences with the
comparisons and the arithmetic that it uses; where none is named, confidences are rationals.
Weights and thresholds are given as rationals and converted to that type.
-/
namespace AlprGate.Fusion
open Auth

inductive AuthVerdict where
  | unspecified | authorized | denied | lowConfidence | manualReview
  deriving DecidableEq, Repr

inductive DenyReason where
  | none | blocklisted | notOnAllowlist | outsideWindow | forceClose | lowAlprConf | lowLidarConf
  | classMismatch | noPlateFound | duplicateEntry
  deriving DecidableEq, Repr

inductive OverrideState where
  | none | forceOpen | forceClose
  deriving DecidableEq, Repr

structure PlateDetection (κ : Type := ℚ) where
  plateText : Text
  detectionConf : κ
  ocrConf : κ
  deriving DecidableEq, Repr

structure VehicleDetection (κ : Type := ℚ) where
  vehicleClass : VehicleClass
  classConf : κ
  deriving DecidableEq, Repr

structure DetectionFrame (κ : Type := ℚ) where
  frameId : ℕ := 0
  gateId : Text
  plates : List (PlateDetection κ) := []
  vehicles : List (VehicleDetection κ) := []
  deriving DecidableEq, Repr

structure AuthorizeRequest (κ : Type := ℚ) where
  frame : DetectionFrame κ
  siteId : Text
  overrideAllowlist : Bool := false
  actor : Text := []
  deriving DecidableEq, Repr

structure AuthDecision (κ : Type := ℚ) where
  decisionId : Text
  decisionTs : ℤ
  gateId : Text
  verdict : AuthVerdict := .unspecified
  denyReason : DenyReason := .none
  matchedPlate : Text := []
  matchedClass : VehicleClass := .unknown
  combinedConf : κ
  reasonText : String := ""
  frameId : ℕ
  actor : Text
  deriving DecidableEq, Repr

structure FusionConfig where
  alprWeight : ℚ := 1 / 2
  lidarWeight : ℚ := 1 / 2
  minCombinedThreshold : ℚ := 7 / 10
  lidarMissingConfidence : ℚ := 0
  deriving DecidableEq, Repr

/-- Overrides are kept for the gates that have one. -/
structure FusionEngine where
  store : AllowlistStore := {}
  cfg : FusionConfig := {}
  overrides : Table (Text × OverrideState) Prod.fst := .empty

/-- The engine's own copy of the class test. -/
def classInAllowlist (e : Allowlistentry) (cls : VehicleClass) : Bool :=
  e.allowedClasses.isEmpty || e.allowedClasses.any fun c => c = cls

/-- Three decimals, ties to even. -/
def thousandths (q : ℚ) : ℕ :=
  let n := q.num.natAbs * 1000
  let k := n / q.den
  let r := n % q.den
  if 2 * r < q.den then k
  else if q.den < 2 * r then k + 1
  else if k % 2 = 0 then k else k + 1

def fixed3 (q : ℚ) : String :=
  let k := thousandths q
  let f := k % 1000
  (if q < 0 then "-" else "") ++ toString (k / 1000) ++ "." ++
    (if f < 10 then "00" else if f < 100 then "0" else "") ++ toString f

/-- What `%.3f` prints of a confidence. -/
class Printed (κ : Type) where
  printed : κ → String

instance printedRat : Printed ℚ := ⟨fixed3⟩

namespace FusionEngine

def setOverride (f : FusionEngine) (gateId : Text) (state : OverrideState) : FusionEngine :=
  if state = .none then { f with overrides := f.overrides.erase gateId }
  else { f with overrides := f.overrides.upsert (gateId, state) }

def overrideFor (f : FusionEngine) (gateId : Text) : OverrideState :=
  match f.overrides.get? gateId with
  | some (_, state) => state
  | none => .none

end FusionEngine

section Confidences
variable {κ : Type} [RatCast κ] [LT κ] [DecidableLT κ]

def pickBestPlate (req : AuthorizeRequest κ) : Option ℕ :=
  Selection.scan PlateDetection.detectionConf req.frame.plates 0 none ((-1 : ℚ) : κ)

def pickBestVehicle (req : AuthorizeRequest κ) : Option ℕ :=
  Selection.scan VehicleDetection.classConf req.frame.vehicles 0 none ((-1 : ℚ) : κ)

def bestPlate (req : AuthorizeRequest κ) : Option (PlateDetection κ) :=
  (pickBestPlate req).bind fun i => req.frame.plates[i]?

def bestVehicle (req : AuthorizeRequest κ) : Option (VehicleDetection κ) :=
  (pickBestVehicle req).bind fun i => req.frame.vehicles[i]?

def matchedClass (req : AuthorizeRequest κ) : VehicleClass :=
  match bestVehicle req with
  | some vd => vd.vehicleClass
  | none => .unknown

/-- The most confident vehicle's score, or the configured substitute. -/
def lidarConf (cfg : FusionConfig) (req : AuthorizeRequest κ) : κ :=
  match bestVehicle req with
  | some vd => vd.classConf
  | none => cfg.lidarMissingConfidence

section Blend
variable [Max κ] [Add κ] [Mul κ]

/-- The mean of the two plate confidences, negative ones counted as zero. -/
def foldAlprConfidence (p : PlateDetection κ) : κ :=
  ((1 / 2 : ℚ) : κ) * max p.detectionConf ((0 : ℚ) : κ) +
    ((1 / 2 : ℚ) : κ) * max p.ocrConf ((0 : ℚ) : κ)

/-- The combined confidence. -/
def blend (cfg : FusionConfig) (req : AuthorizeRequest κ) (plate : PlateDetection κ) : κ :=
  cfg.alprWeight * foldAlprConfidence plate + cfg.lidarWeight * lidarConf cfg req

end Blend

variable [LE κ] [DecidableLE κ] [Printed κ]

/-- The buffer holds 127 characters. -/
def lowConfidenceText (combined threshold alpr lidar : κ) : String :=
  String.ofList (("combined confidence " ++ Printed.printed combined ++ " below threshold " ++
    Printed.printed threshold ++ " (alpr=" ++ Printed.printed alpr ++ ", lidar=" ++
    Printed.printed lidar ++ ")").toList.take 127)

namespace FusionEngine

/-- The rungs from the confidence floor on. -/
def decideScored (f : FusionEngine) (out : AuthDecision κ) (req : AuthorizeRequest κ)
    (normalized : Text) (vehicleClass : VehicleClass) (alprConf lidarConf combined : κ)
    (nowUnix : ℤ) (nowLocal : Tm) : AuthDecision κ :=
  if combined < f.cfg.minCombinedThreshold then
    { out with
      verdict := .lowConfidence
      denyReason := if alprConf ≤ lidarConf then .lowAlprConf else .lowLidarConf
      reasonText := lowConfidenceText combined f.cfg.minCombinedThreshold alprConf lidarConf }
  else if f.store.isBlocklisted req.siteId normalized = true then
    { out with
      verdict := .denied, denyReason := .blocklisted, reasonText := "plate is blocklisted" }
  else if req.overrideAllowlist = true then
    { out with
      verdict := .authorized, reasonText := "guard manual override (allowlist bypassed)" }
  else match f.store.lookup req.siteId normalized with
    | none => { out with
        verdict := .denied, denyReason := .notOnAllowlist, reasonText := "plate not on allowlist" }
    | some entry =>
      if isAllowedNow entry vehicleClass nowUnix nowLocal = false then
        if classInAllowlist entry vehicleClass = false then
          { out with
            verdict := .manualReview, denyReason := .classMismatch
            reasonText := "plate match but vehicle class not permitted" }
        else
          { out with
            verdict := .denied, denyReason := .outsideWindow
            reasonText := "plate match but outside allowed time window" }
      else { out with verdict := .authorized, reasonText := "plate + class match" }

def decideAt [Max κ] [Add κ] [Mul κ] (f : FusionEngine) (decisionId : Text)
    (req : AuthorizeRequest κ) (nowUnix : ℤ) (nowLocal : Tm) : AuthDecision κ :=
  let out : AuthDecision κ :=
    { decisionId := decisionId, decisionTs := nowUnix, gateId := req.frame.gateId,
      combinedConf := ((0 : ℚ) : κ), frameId := req.frame.frameId, actor := req.actor }
  let overrideState := f.overrideFor req.frame.gateId
  if overrideState = .forceClose then
    { out with
      verdict := .denied, denyReason := .forceClose, reasonText := "force-close lockdown active" }
  else match bestPlate req with
    | none => { out with
        verdict := .denied, denyReason := .noPlateFound
        reasonText := "no plate detected in frame" }
    | some plate =>
      let normalized := normalizePlate plate.plateText
      let vehicleClass := matchedClass req
      let combined := blend f.cfg req plate
      let out := { out with
        matchedPlate := normalized, matchedClass := vehicleClass, combinedConf := combined }
      if overrideState = .forceOpen then
        { out with verdict := .authorized, reasonText := "force-open override active" }
      else f.decideScored out req normalized vehicleClass (foldAlprConfidence plate)
        (lidarConf f.cfg req) combined nowUnix nowLocal

end FusionEngine
end Confidences
end AlprGate.Fusion
