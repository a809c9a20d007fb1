import AlprGate.Server.ScenarioSource

/-! # What a scenario says and what is replayed

A scenario is to be refused with a `std::runtime_error` or replayed as it is written. Here every
field gets its verdict, in the order of reading. The fields that the source checks itself are read
as they are or rejected. The optional numbers and texts can let an exception of the library out, and
the optional numbers and the loop count can be read as another number.
-/
namespace AlprGate.Vision
open JsonDocument Verdicts JsonValue

/-! ### Values that are carried over -/

def CarriesUInt : Option Json → BitVec 32 → Prop
  | none, x => x = 0
  | some (.number l), x => (x.toNat : ℚ) = l.value
  | some _, _ => False

/-- Up to the conversion to float, which has to stay in range. -/
def CarriesFloat : Option Json → FloatValue → Prop
  | none, x => x = .finite 0
  | some (.number l), x => x = l.toFloat ∧ ∃ q, x = .finite q
  | some _, _ => False

def CarriesText : Option Json → String → Prop
  | none, s => s = ""
  | some (.string t), s => s = t
  | some _, _ => False

def CarriesConfidence : Option Json → FloatValue → Prop
  | some (.number l), f => f = l.toFloat ∧ f.Within 0 1
  | _, _ => False

def CarriesPlateText : Option Json → String → Prop
  | some (.string t), s => s = t ∧ s ≠ ""
  | _, _ => False

def VehicleClass.name : VehicleClass → String
  | .unknown => "unknown"
  | .pedestrian => "pedestrian"
  | .bicycle => "bicycle"
  | .motorcycle => "motorcycle"
  | .sedan => "sedan"
  | .suv => "suv"
  | .pickup => "pickup"
  | .van => "van"
  | .truck => "truck"

def CarriesClass : Option Json → VehicleClass → Prop
  | some (.string t), c => t = c.name
  | _, _ => False

def CarriesOffset : Option Json → Int64 → Prop
  | some (.number (.integer n)), ms => ms.toInt = n ∧ 0 ≤ n
  | _, _ => False

def CarriesLoop : Option Json → BitVec 32 → Prop
  | none, loops => loops = 1
  | some (.number (.integer n)), loops => (loops.toNat : ℤ) = n ∧ 1 ≤ n
  | some _, _ => False

def CarriesBox {β : Type} (C : Json → β → Prop) (default : β) : Option Json → β → Prop
  | none, b => b = default
  | some box, b => box.isObject = true ∧ C box b

def CarriesItems {α : Type} (C : Json → α → Prop) : Option Json → List α → Prop
  | none, as => as = []
  | some (.array items), as => List.Forall₂ C items as
  | some _, _ => False

@[mk_iff]
structure CarriesPixelBox (box : Json) (b : PixelBox) : Prop where
  x : CarriesUInt (box.find "x") b.x
  y : CarriesUInt (box.find "y") b.y
  width : CarriesUInt (box.find "width") b.width
  height : CarriesUInt (box.find "height") b.height

@[mk_iff]
structure CarriesOrientedBox (box : Json) (b : OrientedBox3D) : Prop where
  centerX : CarriesFloat (box.find "center_x") b.centerX
  centerY : CarriesFloat (box.find "center_y") b.centerY
  centerZ : CarriesFloat (box.find "center_z") b.centerZ
  length : CarriesFloat (box.find "length") b.length
  width : CarriesFloat (box.find "width") b.width
  height : CarriesFloat (box.find "height") b.height
  yawRadians : CarriesFloat (box.find "yaw_radians") b.yawRadians

@[mk_iff]
structure CarriesPlate (p : Json) (out : PlateObservation) : Prop where
  text : CarriesPlateText (p.find "text") out.text
  detectionConf : CarriesConfidence (p.find "detection_conf") out.detectionConf
  ocrConf : CarriesConfidence (p.find "ocr_conf") out.ocrConf
  box : CarriesBox CarriesPixelBox {} (p.find "box") out.box
  countryHint : CarriesText (p.find "country_hint") out.countryHint
  rawOcr : CarriesText (p.find "raw_ocr") out.rawOcr

@[mk_iff]
structure CarriesVehicle (v : Json) (out : VehicleObservation) : Prop where
  vehicleClass : CarriesClass (v.find "class") out.vehicleClass
  confidence : CarriesConfidence (v.find "confidence") out.confidence
  box : CarriesBox CarriesOrientedBox {} (v.find "box") out.box
  trackId : CarriesUInt (v.find "track_id") out.trackId
  pointCount : CarriesUInt (v.find "point_count") out.pointCount

@[mk_iff]
structure CarriesEvent (e : Json) (out : ScenarioEvent) : Prop where
  offset : CarriesOffset (e.find "offset_ms") out.offset
  plates : CarriesItems CarriesPlate (e.find "plates") out.plates
  vehicles : CarriesItems CarriesVehicle (e.find "vehicles") out.vehicles

/-- The source replays the document as it is written. -/
@[mk_iff]
structure CarriesDocument (root : Json) (source : ScenarioSource) : Prop where
  loop : CarriesLoop (root.find "loop") source.loops
  events : CarriesItems CarriesEvent (root.find "events") source.events

/-! ### Verdicts -/

def uintVerdict : Option Json → Verdict
  | none => .fits
  | some (.number l) => if l.IsUInt then .fits else .altered
  | some (.boolean _) => .altered
  | some _ => .escapes

def floatVerdict : Option Json → Verdict
  | none => .fits
  | some (.number l) =>
    match l.toFloat with
    | .finite _ => .fits
    | _ => .altered
  | some (.boolean _) => .altered
  | some _ => .escapes

def textVerdict : Option Json → Verdict
  | none | some (.string _) => .fits
  | some _ => .escapes

def confidenceVerdict : Option Json → Verdict
  | some (.number l) => if l.toFloat.Within 0 1 then .fits else .rejected
  | _ => .rejected

def plateTextVerdict : Option Json → Verdict
  | some (.string t) => if t = "" then .rejected else .fits
  | _ => .rejected

def classVerdict : Option Json → Verdict
  | some (.string t) => if (vehicleClasses.lookup t).isSome = true then .fits else .rejected
  | _ => .rejected

def offsetVerdict : Option Json → Verdict
  | some (.number (.integer n)) => if 0 ≤ n ∧ n < 2 ^ 63 then .fits else .rejected
  | _ => .rejected

def loopVerdict : Option Json → Verdict
  | none => .fits
  | some (.number (.integer n)) =>
    if 1 ≤ n ∧ n < 2 ^ 63 then if n < 2 ^ 32 then .fits else .altered else .rejected
  | some _ => .rejected

def boxVerdicts (fields : Json → List Verdict) : Option Json → List Verdict
  | none => []
  | some box => if box.isObject = true then fields box else [.rejected]

def itemsVerdicts (item : Json → List Verdict) : Option Json → List Verdict
  | none => []
  | some (.array items) => items.flatMap item
  | some _ => [.rejected]

def pixelBoxVerdicts (box : Json) : List Verdict :=
  [uintVerdict (box.find "x"), uintVerdict (box.find "y"), uintVerdict (box.find "width"),
    uintVerdict (box.find "height")]

def orientedBoxVerdicts (box : Json) : List Verdict :=
  [floatVerdict (box.find "center_x"), floatVerdict (box.find "center_y"),
    floatVerdict (box.find "center_z"), floatVerdict (box.find "length"),
    floatVerdict (box.find "width"), floatVerdict (box.find "height"),
    floatVerdict (box.find "yaw_radians")]

def plateVerdicts (p : Json) : List Verdict :=
  if p.isObject = false then [.rejected]
  else
    plateTextVerdict (p.find "text") :: confidenceVerdict (p.find "detection_conf") ::
      confidenceVerdict (p.find "ocr_conf") :: (boxVerdicts pixelBoxVerdicts (p.find "box") ++
        [textVerdict (p.find "country_hint"), textVerdict (p.find "raw_ocr")])

def vehicleVerdicts (v : Json) : List Verdict :=
  if v.isObject = false then [.rejected]
  else
    classVerdict (v.find "class") :: confidenceVerdict (v.find "confidence") ::
      (boxVerdicts orientedBoxVerdicts (v.find "box") ++
        [uintVerdict (v.find "track_id"), uintVerdict (v.find "point_count")])

def eventVerdicts (e : Json) : List Verdict :=
  if e.isObject = false then [.rejected]
  else
    offsetVerdict (e.find "offset_ms") :: (itemsVerdicts plateVerdicts (e.find "plates") ++
      itemsVerdicts vehicleVerdicts (e.find "vehicles"))

def eventsVerdicts : Option Json → List Verdict
  | some (.array (v :: vs)) => (v :: vs).flatMap eventVerdicts
  | _ => [.rejected]

def documentVerdicts (root : Json) : List Verdict :=
  if root.isObject = false then [.rejected]
  else loopVerdict (root.find "loop") :: eventsVerdicts (root.find "events")

def parsedVerdicts : Parsed → List Verdict
  | .parseError _ => [.rejected]
  | .outOfRange => [.escapes]
  | .document root => documentVerdicts root

/-- The exception that callers are told of. -/
def IsRuntimeError (e : Exception) : Prop := ∃ what, e = .runtimeError what

/-! ### The fields -/

section Fields
variable {α : Type} {C : α → Prop} {vs : List Verdict}

theorem judged_fail (path what : String) :
    Judged IsRuntimeError (.rejected :: vs) (fail path what : Except Exception α) C :=
  Judged.of_error rfl (iff_of_true ⟨_,rfl⟩ rfl)

theorem judged_typeError :
    Judged IsRuntimeError (.escapes :: vs) (.error .typeError : Except Exception α) C := by
  refine Judged.of_error rfl (iff_of_false ?_ (by decide))
  rintro ⟨what,h⟩
  cases h

/-- A value that fits. -/
theorem judged_fits {a : α} (h : C a) :
    Judged IsRuntimeError [.fits] (.ok a : Except Exception α) C :=
  Judged.of_ok rfl (iff_of_true h (by decide))

/-- An optional part that is absent. -/
theorem judged_absent {a : α} (h : C a) :
    Judged IsRuntimeError [] (.ok a : Except Exception α) C where
  ends := Ends.of_ok fun v hv => absurd hv List.not_mem_nil
  carried := by
    intro b hb
    cases hb
    exact iff_of_true h List.not_mem_nil

theorem judged_altered {a : α} (h : ¬ C a) :
    Judged IsRuntimeError [.altered] (.ok a : Except Exception α) C :=
  Judged.of_ok rfl (iff_of_false h (by decide))

/-- A required field is rejected where it is absent. -/
theorem judged_require (verdict : Option Json → Verdict) (C : Option Json → α → Prop)
    {parse : Json → Except Exception α} (hnone : verdict none = .rejected)
    (hparse : ∀ v, Judged IsRuntimeError [verdict (some v)] (parse v) (C (some v)))
    (obj : Json) (key path : String) :
    Judged IsRuntimeError [verdict (obj.find key)] (require obj key path >>= parse)
      (C (obj.find key)) := by
  unfold require
  cases obj.find key with
  | none =>
    rw [hnone]
    exact judged_fail _ _
  | some v => exact hparse v

/-- An optional field that is converted by the library. -/
theorem judged_value (verdict : Option Json → Verdict) (C : Option Json → α → Prop)
    {get : Json → Option α} {default : α} (hnone : verdict none = .fits) (hdefault : C none default)
    (hget : ∀ v, Judged IsRuntimeError [verdict (some v)]
      ((get v).elim (.error .typeError) Except.ok) (C (some v))) (obj : Json) (key : String) :
    Judged IsRuntimeError [verdict (obj.find key)] (value obj key get default)
      (C (obj.find key)) := by
  unfold value
  cases obj.find key with
  | none =>
    rw [hnone]
    exact judged_fits hdefault
  | some v =>
    have hv := hget v
    dsimp only
    cases hread : get v with
    | none =>
      rw [hread] at hv
      exact hv
    | some a =>
      rw [hread] at hv
      exact hv

theorem judged_uint (undefined : FloatValue → BitVec 32) (obj : Json) (key : String) :
    Judged IsRuntimeError [uintVerdict (obj.find key)]
      (value obj key (Json.getUInt undefined) 0) (CarriesUInt (obj.find key)) := by
  refine judged_value uintVerdict CarriesUInt rfl rfl ?_ obj key
  intro v
  cases v with
  | number l =>
    have hvalue := l.toUInt_eq_value_iff undefined
    by_cases hfits : l.IsUInt
    · rw [uintVerdict, if_pos hfits]
      exact judged_fits (hvalue.mpr hfits)
    · rw [uintVerdict, if_neg hfits]
      exact judged_altered fun h => hfits (hvalue.mp h)
  | boolean b => exact judged_altered id
  | _ => exact judged_typeError

theorem judged_float (obj : Json) (key : String) :
    Judged IsRuntimeError [floatVerdict (obj.find key)]
      (value obj key Json.getFloat (.finite 0)) (CarriesFloat (obj.find key)) := by
  refine judged_value floatVerdict CarriesFloat rfl rfl ?_ obj key
  intro v
  cases v with
  | number l =>
    rw [floatVerdict]
    cases hfloat : l.toFloat with
    | finite q => exact judged_fits ⟨rfl,q,hfloat⟩
    | inf negative =>
      refine judged_altered ?_
      rintro ⟨_,q,hq⟩
      exact absurd (hfloat.symm.trans hq) (by simp)
    | nan => exact absurd hfloat l.toFloat_ne_nan
  | boolean b => exact judged_altered id
  | _ => exact judged_typeError

theorem judged_text (obj : Json) (key : String) :
    Judged IsRuntimeError [textVerdict (obj.find key)] (value obj key Json.getString "")
      (CarriesText (obj.find key)) := by
  refine judged_value textVerdict CarriesText rfl rfl ?_ obj key
  intro v
  cases v with
  | string s => exact judged_fits rfl
  | _ => exact judged_typeError

/-- The check of a confidence, for a value that is a number at all. -/
theorem within_iff {x : FloatValue} (hx : x ≠ .nan) :
    ¬ (x.lt (.finite 0) = true ∨ FloatValue.lt (.finite 1) x = true) ↔ x.Within 0 1 := by
  cases x with
  | nan => exact absurd rfl hx
  | finite q => simp [FloatValue.lt, FloatValue.Within]
  | inf negative => simp [FloatValue.lt, FloatValue.Within]

theorem judged_confidence (lib : JsonLibrary) (obj : Json) (key path : String) :
    Judged IsRuntimeError [confidenceVerdict (obj.find key)]
      (requireConfidence lib obj key path) (CarriesConfidence (obj.find key)) := by
  refine judged_require confidenceVerdict CarriesConfidence rfl ?_ obj key path
  intro v
  cases v with
  | number l =>
    have hcheck := within_iff l.toFloat_ne_nan
    by_cases hwithin : l.toFloat.Within 0 1
    · dsimp only
      rw [confidenceVerdict, if_pos hwithin, if_neg (hcheck.mpr hwithin)]
      exact judged_fits ⟨rfl,hwithin⟩
    · dsimp only
      rw [confidenceVerdict, if_neg hwithin, if_pos (not_not.mp (hcheck.not.mpr hwithin))]
      exact judged_fail _ _
  | _ => exact judged_fail _ _

theorem judged_plateText (obj : Json) (key path path' : String) :
    Judged IsRuntimeError [plateTextVerdict (obj.find key)]
      (require obj key path >>= fun v => parseText v path') (CarriesPlateText (obj.find key)) := by
  refine judged_require plateTextVerdict CarriesPlateText rfl ?_ obj key path
  intro v
  cases v with
  | string t =>
    by_cases hempty : t = ""
    · rw [plateTextVerdict, if_pos hempty, parseText, if_pos hempty]
      exact judged_fail _ _
    · rw [plateTextVerdict, if_neg hempty, parseText, if_neg hempty]
      exact judged_fits ⟨rfl,hempty⟩
  | _ => exact judged_fail _ _

theorem lookup_vehicleClasses {t : String} {c : VehicleClass}
    (h : vehicleClasses.lookup t = some c) : t = c.name := by
  have hall : ∀ p ∈ vehicleClasses, p.1 = p.2.name := by decide
  obtain ⟨before,after,hsplit,_⟩ := List.lookup_eq_some_iff.mp h
  have hmem : (t,c) ∈ vehicleClasses := by
    rw [hsplit]
    exact List.mem_append_right _ List.mem_cons_self
  exact hall (t,c) hmem

theorem judged_class (obj : Json) (key path path' : String) :
    Judged IsRuntimeError [classVerdict (obj.find key)]
      (require obj key path >>= fun v => parseVehicleClass v path')
      (CarriesClass (obj.find key)) := by
  refine judged_require classVerdict CarriesClass rfl ?_ obj key path
  intro v
  cases v with
  | string t =>
    cases hlookup : vehicleClasses.lookup t with
    | none =>
      simp only [classVerdict, parseVehicleClass, hlookup, Option.isSome_none,
        Bool.false_eq_true, if_false]
      exact judged_fail _ _
    | some c =>
      simp only [classVerdict, parseVehicleClass, hlookup, Option.isSome_some, if_true]
      exact judged_fits (lookup_vehicleClasses hlookup)
  | _ => exact judged_fail _ _

/-- The 64-bit value of an integer that is stored with or without a sign. -/
theorem toInt_ofInt_of_stored {n : ℤ} (hlow : -2 ^ 63 ≤ n) (hhigh : n < 2 ^ 64) :
    (Int64.ofInt n).toInt = if n < 2 ^ 63 then n else n - 2 ^ 64 := by
  have hsize : (Int64.size : ℤ) = 2 ^ 64 := rfl
  rw [Int64.toInt_ofInt, Int.bmod, hsize]
  by_cases hsmall : n < 2 ^ 63
  · rw [if_pos hsmall]
    split
    · omega
    · omega
  · rw [if_neg hsmall]
    split
    · omega
    · omega

theorem storedInteger_eq_some {v : Json} {n : ℤ} (h : v.storedInteger = some n) :
    v = .number (.integer n) ∧ -2 ^ 63 ≤ n ∧ n < 2 ^ 64 := by
  cases v with
  | number l =>
    obtain ⟨rfl,hrange⟩ := Literal.stored_eq_some h
    exact ⟨rfl,hrange⟩
  | _ => cases h

/-- An integer that is not stored as one is no integer of 63 bits. -/
theorem storedInteger_eq_none {n : ℤ} (h : (Json.number (.integer n)).storedInteger = none) :
    ¬ (0 ≤ n ∧ n < 2 ^ 63) := by
  intro hrange
  rw [Json.storedInteger, Literal.stored, if_pos ⟨by omega,by omega⟩] at h
  cases h

theorem judged_offset (lib : JsonLibrary) (obj : Json) (key path path' : String) :
    Judged IsRuntimeError [offsetVerdict (obj.find key)]
      (require obj key path >>= fun v => parseOffset lib v path')
      (CarriesOffset (obj.find key)) := by
  refine judged_require offsetVerdict CarriesOffset rfl ?_ obj key path
  intro v
  unfold parseOffset
  cases hstored : v.storedInteger with
  | none =>
    have hrejected : offsetVerdict (some v) = .rejected := by
      unfold offsetVerdict
      split
      · rename_i n hn
        cases hn
        exact if_neg (storedInteger_eq_none hstored)
      · rfl
    rw [hrejected]
    exact judged_fail _ _
  | some n =>
    obtain ⟨rfl,hlow,hhigh⟩ := storedInteger_eq_some hstored
    have hms := toInt_ofInt_of_stored hlow hhigh
    by_cases hrange : 0 ≤ n ∧ n < 2 ^ 63
    · rw [if_pos hrange.2] at hms
      dsimp only
      rw [offsetVerdict, if_pos hrange, if_neg (by omega)]
      exact judged_fits ⟨hms,hrange.1⟩
    · have hneg : (Int64.ofInt n).toInt < 0 := by
        rw [hms]
        split
        · omega
        · omega
      dsimp only
      rw [offsetVerdict, if_neg hrange, if_pos hneg]
      exact judged_fail _ _

theorem judged_loop (lib : JsonLibrary) (root : Json) :
    Judged IsRuntimeError [loopVerdict (root.find "loop")] (parseLoop lib root)
      (CarriesLoop (root.find "loop")) := by
  unfold parseLoop
  cases root.find "loop" with
  | none => exact judged_fits rfl
  | some v =>
    dsimp only
    cases hstored : v.storedInteger with
    | none =>
      have hrejected : loopVerdict (some v) = .rejected := by
        unfold loopVerdict
        split
        · rename_i h
          cases h
        · rename_i n hn
          cases hn
          have hout := storedInteger_eq_none hstored
          exact if_neg (by omega)
        · rfl
      rw [hrejected]
      exact judged_fail _ _
    | some n =>
      obtain ⟨rfl,hlow,hhigh⟩ := storedInteger_eq_some hstored
      have hloops := toInt_ofInt_of_stored hlow hhigh
      by_cases hrange : 1 ≤ n ∧ n < 2 ^ 63
      · rw [if_pos hrange.2] at hloops
        have hnat : ((BitVec.ofInt 32 n).toNat : ℤ) = n % 2 ^ 32 := by
          rw [BitVec.toNat_ofInt]
          omega
        have hnot : ¬ n < 1 := by omega
        dsimp only
        rw [loopVerdict, if_pos hrange, hloops, if_neg hnot]
        by_cases hsmall : n < 2 ^ 32
        · rw [if_pos hsmall]
          exact judged_fits ⟨by omega,hrange.1⟩
        · rw [if_neg hsmall]
          refine judged_altered ?_
          rintro ⟨hsame,_⟩
          omega
      · have hbelow : (Int64.ofInt n).toInt < 1 := by
          rw [hloops]
          split
          · omega
          · omega
        dsimp only
        rw [loopVerdict, if_neg hrange, if_pos hbelow]
        exact judged_fail _ _

/-! ### Boxes and arrays -/

theorem judged_box {fields : Json → List Verdict} {C : Json → α → Prop}
    {read : Json → Except Exception α}
    (hread : ∀ box, Judged IsRuntimeError (fields box) (read box) (C box)) (obj : Json)
    (path : String) (default : α) :
    Judged IsRuntimeError (boxVerdicts fields (obj.find "box")) (optionalBox obj path read default)
      (CarriesBox C default (obj.find "box")) := by
  unfold optionalBox
  cases obj.find "box" with
  | none => exact judged_absent rfl
  | some box =>
    cases hobject : box.isObject with
    | false =>
      simp only [boxVerdicts, hobject, Bool.false_eq_true, if_false, if_true]
      exact judged_fail _ _
    | true =>
      have hcarries : CarriesBox C default (some box) = C box := by
        funext b
        simp [CarriesBox, hobject]
      simp only [boxVerdicts, hobject, Bool.true_eq_false, if_false, if_true]
      rw [hcarries]
      exact hread box

theorem judged_items {verdicts : Json → List Verdict} {C : Json → α → Prop}
    {parse : Json → String → Except Exception α}
    (hparse : ∀ v path, Judged IsRuntimeError (verdicts v) (parse v path) (C v)) (obj : Json)
    (key path : String) :
    Judged IsRuntimeError (itemsVerdicts verdicts (obj.find key)) (optionalItems obj key path parse)
      (CarriesItems C (obj.find key)) := by
  unfold optionalItems
  cases obj.find key with
  | none => exact judged_absent rfl
  | some v =>
    cases v with
    | array items => exact judged_readItems (fun i v => hparse v _) 0 items
    | _ => exact judged_fail _ _

end Fields

/-! ### Observations and events -/

section Parts
variable (lib : JsonLibrary)

theorem judged_pixelBox (box : Json) :
    Judged IsRuntimeError (pixelBoxVerdicts box) (parsePixelBox lib box) (CarriesPixelBox box) := by
  have hfield := judged_uint lib.undefined box
  constructor
  · exact (hfield "x").ends.cons fun _ => (hfield "y").ends.cons fun _ =>
      (hfield "width").ends.cons fun _ => (hfield "height").ends.map _
  · intro b h
    obtain ⟨x,hx,h⟩ := bind_eq_ok.mp h
    obtain ⟨y,hy,h⟩ := bind_eq_ok.mp h
    obtain ⟨width,hwidth,h⟩ := bind_eq_ok.mp h
    obtain ⟨height,hheight,h⟩ := bind_eq_ok.mp h
    cases h
    rw [carriesPixelBox_iff, (hfield _).carried x hx, (hfield _).carried y hy,
      (hfield _).carried width hwidth, (hfield _).carried height hheight]
    simp only [pixelBoxVerdicts, List.mem_cons, List.not_mem_nil, or_false, not_or]

theorem judged_orientedBox (box : Json) :
    Judged IsRuntimeError (orientedBoxVerdicts box) (parseOrientedBox box)
      (CarriesOrientedBox box) := by
  have hfield := judged_float box
  constructor
  · exact (hfield "center_x").ends.cons fun _ => (hfield "center_y").ends.cons fun _ =>
      (hfield "center_z").ends.cons fun _ => (hfield "length").ends.cons fun _ =>
      (hfield "width").ends.cons fun _ => (hfield "height").ends.cons fun _ =>
      (hfield "yaw_radians").ends.map _
  · intro b h
    obtain ⟨centerX,hcenterX,h⟩ := bind_eq_ok.mp h
    obtain ⟨centerY,hcenterY,h⟩ := bind_eq_ok.mp h
    obtain ⟨centerZ,hcenterZ,h⟩ := bind_eq_ok.mp h
    obtain ⟨length,hlength,h⟩ := bind_eq_ok.mp h
    obtain ⟨width,hwidth,h⟩ := bind_eq_ok.mp h
    obtain ⟨height,hheight,h⟩ := bind_eq_ok.mp h
    obtain ⟨yawRadians,hyawRadians,h⟩ := bind_eq_ok.mp h
    cases h
    rw [carriesOrientedBox_iff, (hfield _).carried centerX hcenterX,
      (hfield _).carried centerY hcenterY, (hfield _).carried centerZ hcenterZ,
      (hfield _).carried length hlength, (hfield _).carried width hwidth,
      (hfield _).carried height hheight, (hfield _).carried yawRadians hyawRadians]
    simp only [orientedBoxVerdicts, List.mem_cons, List.not_mem_nil, or_false, not_or]

theorem judged_plate (p : Json) (path : String) :
    Judged IsRuntimeError (plateVerdicts p) (parsePlate lib p path) (CarriesPlate p) := by
  unfold plateVerdicts parsePlate
  split
  · exact judged_fail _ _
  have htext := judged_plateText p "text" path (path ++ ".text")
  have hconf := fun key => judged_confidence lib p key path
  have hbox := judged_box (judged_pixelBox lib) p path {}
  have hoptional := judged_text p
  constructor
  · exact htext.ends.cons fun _ => (hconf "detection_conf").ends.cons fun _ =>
      (hconf "ocr_conf").ends.cons fun _ => hbox.ends.bind fun _ =>
      (hoptional "country_hint").ends.cons fun _ => (hoptional "raw_ocr").ends.map _
  · intro out h
    obtain ⟨text,hread,h⟩ := bind_eq_ok.mp h
    obtain ⟨detectionConf,hdetection,h⟩ := bind_eq_ok.mp h
    obtain ⟨ocrConf,hocr,h⟩ := bind_eq_ok.mp h
    obtain ⟨box,hpixels,h⟩ := bind_eq_ok.mp h
    obtain ⟨countryHint,hhint,h⟩ := bind_eq_ok.mp h
    obtain ⟨rawOcr,hraw,h⟩ := bind_eq_ok.mp h
    cases h
    rw [carriesPlate_iff, htext.carried text hread, (hconf _).carried detectionConf hdetection,
      (hconf _).carried ocrConf hocr, hbox.carried box hpixels,
      (hoptional _).carried countryHint hhint, (hoptional _).carried rawOcr hraw]
    simp only [List.mem_cons, List.mem_append, List.not_mem_nil, or_false, not_or]

theorem judged_vehicle (v : Json) (path : String) :
    Judged IsRuntimeError (vehicleVerdicts v) (parseVehicle lib v path) (CarriesVehicle v) := by
  unfold vehicleVerdicts parseVehicle
  split
  · exact judged_fail _ _
  have hclass := judged_class v "class" path (path ++ ".class")
  have hconf := judged_confidence lib v "confidence" path
  have hbox := judged_box judged_orientedBox v path {}
  have hnumber := judged_uint lib.undefined v
  constructor
  · exact hclass.ends.cons fun _ => hconf.ends.cons fun _ => hbox.ends.bind fun _ =>
      (hnumber "track_id").ends.cons fun _ => (hnumber "point_count").ends.map _
  · intro out h
    obtain ⟨vehicleClass,hread,h⟩ := bind_eq_ok.mp h
    obtain ⟨confidence,hconfidence,h⟩ := bind_eq_ok.mp h
    obtain ⟨box,horiented,h⟩ := bind_eq_ok.mp h
    obtain ⟨trackId,htrack,h⟩ := bind_eq_ok.mp h
    obtain ⟨pointCount,hpoints,h⟩ := bind_eq_ok.mp h
    cases h
    rw [carriesVehicle_iff, hclass.carried vehicleClass hread, hconf.carried confidence hconfidence,
      hbox.carried box horiented, (hnumber _).carried trackId htrack,
      (hnumber _).carried pointCount hpoints]
    simp only [List.mem_cons, List.mem_append, List.not_mem_nil, or_false, not_or]

theorem judged_event (e : Json) (path : String) :
    Judged IsRuntimeError (eventVerdicts e) (parseEvent lib e path) (CarriesEvent e) := by
  unfold eventVerdicts parseEvent
  split
  · exact judged_fail _ _
  have hoffset := judged_offset lib e "offset_ms" path (path ++ ".offset_ms")
  have hplates := judged_items (judged_plate lib) e "plates" path
  have hvehicles := judged_items (judged_vehicle lib) e "vehicles" path
  constructor
  · exact hoffset.ends.cons fun _ => hplates.ends.bind fun _ => hvehicles.ends.map _
  · intro out h
    obtain ⟨offset,hread,h⟩ := bind_eq_ok.mp h
    obtain ⟨plates,hp,h⟩ := bind_eq_ok.mp h
    obtain ⟨vehicles,hv,h⟩ := bind_eq_ok.mp h
    cases h
    rw [carriesEvent_iff, hoffset.carried offset hread, hplates.carried plates hp,
      hvehicles.carried vehicles hv]
    simp only [List.mem_cons, List.mem_append, List.not_mem_nil, or_false, not_or]

/-! ### Documents -/

/-- The events of a document, behind the loop count. -/
theorem judged_parseEvents (loops : BitVec 32) (v : Json) (vs : List Json) :
    Judged IsRuntimeError ((v :: vs).flatMap eventVerdicts) (parseEvents lib loops v vs)
      fun source => List.Forall₂ CarriesEvent (v :: vs) source.events := by
  have hitems := judged_readItems fun i v => judged_event lib v (itemPath "events" i)
  have hfirst := judged_event lib v (itemPath "events" 0)
  constructor
  · rw [List.flatMap_cons]
    exact hfirst.ends.bind fun _ => (hitems 1 vs).ends.map _
  · intro source h
    obtain ⟨event,hevent,h⟩ := bind_eq_ok.mp h
    obtain ⟨events,hevents,h⟩ := bind_eq_ok.mp h
    cases h
    refine (hitems 0 (v :: vs)).carried (event :: events) ?_
    exact bind_eq_ok.mpr ⟨event,hevent,bind_eq_ok.mpr ⟨events,hevents,rfl⟩⟩

theorem judged_requireEvents (loops : BitVec 32) (root : Json) :
    Judged IsRuntimeError (eventsVerdicts (root.find "events")) (requireEvents lib loops root)
      fun source => CarriesItems CarriesEvent (root.find "events") source.events := by
  unfold requireEvents require
  cases root.find "events" with
  | none => exact judged_fail _ _
  | some v =>
    cases v with
    | array items =>
      cases items with
      | nil => exact judged_fail _ _
      | cons v vs => exact judged_parseEvents lib loops v vs
    | _ => exact judged_fail _ _

/-- What `from_json` makes of the events: the script, at the start of its replay. -/
theorem requireEvents_eq_ok {loops : BitVec 32} {root : Json} {source : ScenarioSource}
    (h : requireEvents lib loops root = .ok source) :
    source.loops = loops ∧ source.index = 0 ∧ source.iteration = 0 ∧ source.epochSet = false := by
  obtain ⟨v,_,h⟩ := bind_eq_ok.mp h
  split at h
  · obtain ⟨event,_,h⟩ := bind_eq_ok.mp h
    obtain ⟨events,_,h⟩ := bind_eq_ok.mp h
    cases h
    exact ⟨rfl,rfl,rfl,rfl⟩
  · cases h

theorem judged_document (root : Json) :
    Judged IsRuntimeError (documentVerdicts root) (fromDocument lib root)
      (CarriesDocument root) := by
  unfold documentVerdicts fromDocument
  split
  · exact judged_fail _ _
  have hloop := judged_loop lib root
  have hevents := fun loops => judged_requireEvents lib loops root
  constructor
  · exact hloop.ends.cons fun loops => (hevents loops).ends
  · intro source h
    obtain ⟨loops,hloops,h⟩ := bind_eq_ok.mp h
    obtain ⟨hsame,_⟩ := requireEvents_eq_ok lib h
    rw [carriesDocument_iff, hsame, hloop.carried loops hloops, (hevents loops).carried source h]
    simp only [List.mem_cons, List.not_mem_nil, or_false, not_or]

theorem judged_fromParsed (parsed : Parsed) :
    Judged IsRuntimeError (parsedVerdicts parsed) (fromParsed lib parsed)
      fun source => ∃ root, parsed = .document root ∧ CarriesDocument root source := by
  cases parsed with
  | parseError what => exact judged_fail _ _
  | outOfRange =>
    refine Judged.of_error rfl (iff_of_false ?_ (by decide))
    rintro ⟨what,h⟩
    cases h
  | document root =>
    have hroot := judged_document lib root
    refine ⟨hroot.ends,fun source h => ?_⟩
    refine Iff.trans ?_ (hroot.carried source h)
    constructor
    · rintro ⟨root',hsame,hcarries⟩
      cases hsame
      exact hcarries
    · intro hcarries
      exact ⟨root,rfl,hcarries⟩

end Parts

/-- A text is refused with a `std::runtime_error` or replayed as it is written exactly if the first
field that stops the reading is one that is checked, or no field stops it and each fits. -/
theorem scenario_fail_closed_iff (lib : JsonLibrary) (text : List UInt8) :
    ((∃ what, fromJson lib text = .error (.runtimeError what)) ∨
      ∃ source root, fromJson lib text = .ok source ∧ lib.parse text = .document root ∧
        CarriesDocument root source) ↔
      FailClosed (parsedVerdicts (lib.parse text)) := by
  rw [← (judged_fromParsed lib (lib.parse text)).failClosed_iff]
  constructor
  · rintro (⟨what,h⟩ | ⟨source,root,h,hparse,hcarries⟩)
    · exact Or.inl ⟨_,h,what,rfl⟩
    · exact Or.inr ⟨source,h,root,hparse,hcarries⟩
  · rintro (⟨e,h,what,rfl⟩ | ⟨source,h,root,hparse,hcarries⟩)
    · exact Or.inl ⟨what,h⟩
    · exact Or.inr ⟨source,root,h,hparse,hcarries⟩

/-- A script of one event, with one vehicle that has the given track. -/
def trackScript (track : Json) : Json :=
  .object [("events",.array [.object [("offset_ms",.number (.integer 0)),
    ("vehicles",.array [.object [("class",.string "sedan"), ("confidence",.number (.integer 1)),
      ("track_id",track)]])]])]

def trackSource (trackId : BitVec 32) : ScenarioSource where
  events := [⟨0,[],[⟨.sedan,.finite 1,{},trackId,0⟩]⟩]
  loops := 1
  index_lt := Nat.zero_lt_one

/-- Everything but the track is read as it is written. -/
theorem fromParsed_trackScript (lib : JsonLibrary) (track : Json) :
    fromParsed lib (.document (trackScript track)) =
      (track.getUInt lib.undefined).elim (.error .typeError) fun id => .ok (trackSource id) := by
  have hone : (Literal.integer 1).toFloat = .finite 1 := by
    have hround := binary32.round_natCast (n:=1) (by decide) (by decide) (by decide)
    exact_mod_cast hround
  have hwithin : ¬ ((FloatValue.finite 1).lt (.finite 0) = true ∨
      (FloatValue.finite 1).lt (.finite 1) = true) := by decide
  have hoffset : ∀ path, parseOffset lib (.number (.integer 0)) path = .ok 0 := fun path => rfl
  have hclass : vehicleClasses.lookup "sedan" = some .sedan := by decide
  simp only [fromParsed, fromDocument, trackScript, Json.isObject, parseLoop, Json.find_object_cons,
    Json.find_object_nil, requireEvents, require, parseEvents, parseEvent, optionalItems,
    parseItems, readItems, parseVehicle, hoffset, requireConfidence, parseVehicleClass, optionalBox,
    value, hclass, hone, if_neg hwithin, bind, Except.bind, Bool.true_eq_false, if_false, if_true,
    String.reduceEq, Option.none_or, Option.or_none]
  cases track.getUInt lib.undefined with
  | none => rfl
  | some id => rfl

/-- The source carries the script over only if it carries the track over. -/
theorem carriesUInt_of_trackScript {track : Json} {id : BitVec 32}
    (h : CarriesDocument (trackScript track) (trackSource id)) : CarriesUInt (some track) id := by
  have hevents := h.events
  simp only [trackScript, trackSource, Json.find_object_cons, Json.find_object_nil, if_true,
    Option.none_or, CarriesItems, List.forall₂_cons] at hevents
  have hvehicles := hevents.1.vehicles
  simp only [Json.find_object_cons, Json.find_object_nil, String.reduceEq, if_true, if_false,
    Option.none_or, Option.or_none, CarriesItems, List.forall₂_cons] at hvehicles
  have htrack := hvehicles.1.trackId
  simpa using htrack

/-- A library that makes the same of every text. -/
def JsonLibrary.reading (parsed : Parsed) : JsonLibrary where
  parse := fun _ => parsed
  dump := fun _ => ""
  undefined := fun _ => 0

/-- A text for a track lets an exception of the library out, as does a number beyond the doubles
anywhere, and the track -1 is read as 4294967295. -/
theorem scenario_not_fail_closed :
    let textual := trackScript (.string "7")
    let negative := trackScript (.number (.integer (-1)))
    fromJson (.reading (.document textual)) [] = .error .typeError ∧
      fromJson (.reading .outOfRange) [] = .error .outOfRange ∧
      fromJson (.reading (.document negative)) [] = .ok (trackSource 4294967295) ∧
      ¬ CarriesDocument negative (trackSource 4294967295) := by
  intro textual negative
  refine ⟨fromParsed_trackScript _ _,rfl,fromParsed_trackScript _ _,?_⟩
  intro h
  have htrack : (4294967295 : ℚ) = ((-1 : ℤ) : ℚ) := carriesUInt_of_trackScript h
  norm_num at htrack

end AlprGate.Vision
