import AlprGate.Library.JsonValue
import AlprGate.Server.Allowlist

/-! # Allowlist entries as JSON

The dashboard shows an entry with the names of its vehicle classes, its time windows and its
dates as objects, and reads an entry from a body with dates in milliseconds. The two sides agree
on every key but those of the dates.
-/
namespace AlprGate.DashApi
open Auth JsonValue

/-- The names of the enumeration. -/
def vehicleClassNames : List (Text × VehicleClass) :=
  [(ascii "VEHICLE_CLASS_UNKNOWN",.unknown),(ascii "VEHICLE_CLASS_PEDESTRIAN",.pedestrian),
    (ascii "VEHICLE_CLASS_BICYCLE",.bicycle),(ascii "VEHICLE_CLASS_MOTORCYCLE",.motorcycle),
    (ascii "VEHICLE_CLASS_SEDAN",.sedan),(ascii "VEHICLE_CLASS_SUV",.suv),
    (ascii "VEHICLE_CLASS_PICKUP",.pickup),(ascii "VEHICLE_CLASS_VAN",.van),
    (ascii "VEHICLE_CLASS_TRUCK",.truck)]

/-- The name of an unknown number is empty. -/
def vehicleClassName (c : VehicleClass) : Text :=
  ((vehicleClassNames.find? fun p => p.2 = c).map Prod.fst).getD []

def vehicleClassParse (name : Text) : Option VehicleClass :=
  (vehicleClassNames.find? fun p => p.1 = name).map Prod.snd

/-- A name without what its enumeration starts every name with; unnamed values are shown as
numbers. -/
def shortName (full start : Text) (raw : ℤ) : Text :=
  if full = [] then decimal raw
  else if start.isPrefixOf full = true then full.drop start.length
  else full

section ToJson
variable {ρ : Type} (iso8601Utc : ℤ → ℤ → Text)

def timestampToJson (seconds nanos : ℤ) : Value ρ :=
  .object [("ts",.string (iso8601Utc seconds nanos)),
    ("tsMs",.int (Int64.ofInt (seconds * 1000 + nanos.tdiv 1000000)))]

def classToJson (c : VehicleClass) : Value ρ :=
  .string (shortName (vehicleClassName c) (ascii "VEHICLE_CLASS_") c.number)

def windowToJson (w : TimeWindow) : Value ρ :=
  .object [("startMinute",.ofUInt w.startMinuteOfDay),("endMinute",.ofUInt w.endMinuteOfDay),
    ("daysMask",.ofUInt w.daysOfWeekMask)]

/-- A member that is written when the timestamp is present. -/
def dateMember (key : String) (ts : Option ℤ) : List (String × Value ρ) :=
  match ts with
  | none => []
  -- entries carry whole seconds
  | some seconds => [(key,timestampToJson iso8601Utc seconds 0)]

def allowlistEntryToJson (e : Allowlistentry) : Value ρ :=
  .object (
    [("plate",.string e.plateText),
      ("allowedClasses",.array (e.allowedClasses.map classToJson)),
      ("timeWindows",.array (e.timeWindows.map windowToJson)),
      ("ownerName",.string e.ownerName),
      ("ownerUnit",.string e.ownerUnit)] ++
    dateMember iso8601Utc "validFrom" e.validFrom ++
    dateMember iso8601Utc "validUntil" e.validUntil ++
    [("notes",.string e.notes),("addedBy",.string e.addedBy)] ++
    dateMember iso8601Utc "added" e.addedTs)

end ToJson

section FromJson
variable {ρ : Type} (D : Doubles ρ)

def plateRequired : Failure := .rejected "entry requires a non-empty string 'plate'"

def readPlate (v : Value ρ) : Except Failure Text :=
  if v.isObject = false then .error plateRequired
  else do
    let plate ← orThrow (v.item "plate")
    if plate.isString = false then .error plateRequired
    else do
      let text ← orThrow (plate.asString D)
      if text = [] then .error plateRequired else .ok text

def appendClass (out : Allowlistentry) (cls : Value ρ) : Except Failure Allowlistentry :=
  if cls.isString = false then .error (.rejected "unknown vehicle class in 'allowedClasses'")
  else do
    let name ← orThrow (cls.asString D)
    match vehicleClassParse (ascii "VEHICLE_CLASS_" ++ name) with
    | none => .error (.rejected "unknown vehicle class in 'allowedClasses'")
    | some parsed => .ok { out with allowedClasses := out.allowedClasses ++ [parsed] }

def appendWindow (out : Allowlistentry) (wv : Value ρ) : Except Failure Allowlistentry := do
  let start ← orThrow (wv.item "startMinute" >>= Value.asUInt D)
  let stop ← orThrow (wv.item "endMinute" >>= Value.asUInt D)
  if 1439#32 < start ∨ 1439#32 < stop then
    .error (.rejected "time window minutes must be 0..1439")
  else do
    let mask ← orThrow (wv.item "daysMask" >>= Value.asUInt D)
    .ok { out with timeWindows := out.timeWindows ++ [⟨start,stop,mask &&& 0x7F#32⟩] }

/-- An optional array, read item by item. -/
def readArray (v : Value ρ) (key : String) (wrongType : String)
    (append : Allowlistentry → Value ρ → Except Failure Allowlistentry) (out : Allowlistentry) :
    Except Failure Allowlistentry := do
  if (← orThrow (v.isMember key)) = true then
    match ← orThrow (v.item key) with
    | .array items => items.foldlM append out
    | _ => .error (.rejected wrongType)
  else .ok out

def readText (v : Value ρ) (key : String) : Except Failure Text :=
  orThrow (v.get key (.string []) >>= Value.asString D)

/-- Milliseconds are cut to seconds toward zero. -/
def readSeconds (v : Value ρ) (key : String) (current : Option ℤ) :
    Except Failure (Option ℤ) := do
  if (← orThrow (v.isMember key)) = true then
    let ms ← orThrow (v.item key >>= Value.asInt64 D)
    .ok (some (ms.toInt.tdiv 1000))
  else .ok current

def allowlistEntryFromJson (v : Value ρ) (out : Allowlistentry) :
    Except Failure Allowlistentry := do
  let plate ← readPlate D v
  let out ← readArray v "allowedClasses" "'allowedClasses' must be an array of class names"
    (appendClass D) { out with plateText := plate }
  let out ← readArray v "timeWindows" "'timeWindows' must be an array" (appendWindow D) out
  let ownerName ← readText D v "ownerName"
  let ownerUnit ← readText D v "ownerUnit"
  let notes ← readText D v "notes"
  let validFrom ← readSeconds D v "validFromMs" out.validFrom
  let validUntil ← readSeconds D v "validUntilMs" out.validUntil
  .ok { out with ownerName, ownerUnit, notes, validFrom, validUntil }

end FromJson

/-- What the entries read from a body have in common. -/
structure Expressible (e : Allowlistentry) : Prop where
  plate : e.plateText ≠ []
  classes : ∀ c ∈ e.allowedClasses, c ∈ vehicleClassNames.map Prod.snd
  windows : ∀ w ∈ e.timeWindows, w.startMinuteOfDay ≤ 1439#32 ∧ w.endMinuteOfDay ≤ 1439#32 ∧
    w.daysOfWeekMask &&& 0x7F#32 = w.daysOfWeekMask
  addedBy : e.addedBy = []
  addedTs : e.addedTs = none

section Accepted
variable {ρ : Type} {D : Doubles ρ} {v : Value ρ} {e e' : Allowlistentry}

theorem readPlate_ne_nil {text : Text} (h : readPlate D v = .ok text) : text ≠ [] := by
  unfold readPlate at h
  split at h
  · cases h
  · obtain ⟨plate,_,h⟩ := bind_eq_ok.mp h
    split at h
    · cases h
    · obtain ⟨text',_,h⟩ := bind_eq_ok.mp h
      split at h
      · cases h
      · rename_i hne
        cases h
        exact hne

theorem readArray_invariant {key wrongType : String}
    {append : Allowlistentry → Value ρ → Except Failure Allowlistentry}
    {I : Allowlistentry → Prop} (hstep : ∀ out x out', append out x = .ok out' → I out → I out')
    (h : readArray v key wrongType append e = .ok e') (he : I e) : I e' := by
  unfold readArray at h
  obtain ⟨member,_,h⟩ := bind_eq_ok.mp h
  split at h
  · obtain ⟨x,_,h⟩ := bind_eq_ok.mp h
    split at h
    · exact foldlM_invariant hstep h he
    · cases h
  · cases h
    exact he

theorem Expressible.appendClass (he : Expressible e) (h : appendClass D e v = .ok e') :
    Expressible e' := by
  unfold DashApi.appendClass at h
  split at h
  · cases h
  · obtain ⟨name,_,h⟩ := bind_eq_ok.mp h
    split at h
    · cases h
    · rename_i parsed hparse
      cases h
      obtain ⟨p,hp,rfl⟩ := Option.map_eq_some_iff.mp hparse
      exact { he with
        classes := fun c hc => by
          rcases List.mem_append.mp hc with hc | hc
          · exact he.classes c hc
          · rw [List.mem_singleton.mp hc]
            exact List.mem_map_of_mem (List.mem_of_find?_eq_some hp) }

theorem Expressible.appendWindow (he : Expressible e) (h : appendWindow D e v = .ok e') :
    Expressible e' := by
  unfold DashApi.appendWindow at h
  obtain ⟨start,_,h⟩ := bind_eq_ok.mp h
  obtain ⟨stop,_,h⟩ := bind_eq_ok.mp h
  split at h
  · cases h
  · rename_i hrange
    obtain ⟨mask,_,h⟩ := bind_eq_ok.mp h
    cases h
    rw [not_or, BitVec.not_lt, BitVec.not_lt] at hrange
    exact { he with
      windows := fun w hw => by
        rcases List.mem_append.mp hw with hw | hw
        · exact he.windows w hw
        · rw [List.mem_singleton.mp hw]
          exact ⟨hrange.1,hrange.2,by rw [BitVec.and_assoc, BitVec.and_self]⟩ }

theorem expressible_of_fromJson (h : allowlistEntryFromJson D v { plateText := [] } = .ok e) :
    Expressible e := by
  unfold allowlistEntryFromJson at h
  obtain ⟨plate,hplate,h⟩ := bind_eq_ok.mp h
  obtain ⟨e₁,hclasses,h⟩ := bind_eq_ok.mp h
  obtain ⟨e₂,hwindows,h⟩ := bind_eq_ok.mp h
  have hstart : Expressible { plateText := plate } :=
    ⟨readPlate_ne_nil hplate,fun c hc => absurd hc List.not_mem_nil,
      fun w hw => absurd hw List.not_mem_nil,rfl,rfl⟩
  have he₁ := readArray_invariant (fun _ _ _ h he => Expressible.appendClass he h) hclasses hstart
  have he₂ := readArray_invariant (fun _ _ _ h he => Expressible.appendWindow he h) hwindows he₁
  obtain ⟨ownerName,_,h⟩ := bind_eq_ok.mp h
  obtain ⟨ownerUnit,_,h⟩ := bind_eq_ok.mp h
  obtain ⟨notes,_,h⟩ := bind_eq_ok.mp h
  obtain ⟨validFrom,_,h⟩ := bind_eq_ok.mp h
  obtain ⟨validUntil,_,h⟩ := bind_eq_ok.mp h
  cases h
  exact ⟨he₂.plate,he₂.classes,he₂.windows,he₂.addedBy,he₂.addedTs⟩

end Accepted

section Reading
variable {ρ : Type} (D : Doubles ρ) {members : List (String × Value ρ)} {key : String}

theorem readArray_of_array {items : List (Value ρ)} (h : members.lookup key = some (.array items))
    (wrongType : String) (append : Allowlistentry → Value ρ → Except Failure Allowlistentry)
    (out : Allowlistentry) :
    readArray (.object members) key wrongType append out = items.foldlM append out := by
  simp only [readArray, Value.isMember, Value.item, Value.find, h]
  rfl

theorem readText_of_string {s : Text} (h : members.lookup key = some (.string s)) :
    readText D (.object members) key = .ok s := by
  simp only [readText, Value.get, Value.find, h]
  rfl

theorem readSeconds_of_absent (h : members.lookup key = none) (current : Option ℤ) :
    readSeconds D (.object members) key current = .ok current := by
  simp only [readSeconds, Value.isMember, Value.find, h]
  rfl

theorem readPlate_of_string {s : Text} (h : members.lookup "plate" = some (.string s))
    (hs : s ≠ []) : readPlate D (.object members) = .ok s := by
  simp only [readPlate, Value.isObject, Value.item, Value.find, h]
  exact if_neg hs

/-- Every class of the enumeration is read back from its short name. -/
theorem appendClass_classToJson {c : VehicleClass} (hc : c ∈ vehicleClassNames.map Prod.snd)
    (out : Allowlistentry) :
    appendClass D out (classToJson c) = .ok { out with allowedClasses := out.allowedClasses ++ [c] } := by
  have hparse : ∀ c ∈ vehicleClassNames.map Prod.snd, vehicleClassParse (ascii "VEHICLE_CLASS_" ++
      shortName (vehicleClassName c) (ascii "VEHICLE_CLASS_") c.number) = some c := by
    decide +kernel
  change (match vehicleClassParse (ascii "VEHICLE_CLASS_" ++
      shortName (vehicleClassName c) (ascii "VEHICLE_CLASS_") c.number) with
    | none => _
    | some parsed => _) = _
  rw [hparse c hc]

theorem appendWindow_windowToJson {w : TimeWindow} (hstart : w.startMinuteOfDay ≤ 1439#32)
    (hend : w.endMinuteOfDay ≤ 1439#32) (hmask : w.daysOfWeekMask &&& 0x7F#32 = w.daysOfWeekMask)
    (out : Allowlistentry) :
    appendWindow D out (windowToJson w) = .ok { out with timeWindows := out.timeWindows ++ [w] } := by
  have hitem : ∀ (key : String) (n : BitVec 32),
      (windowToJson w : Value ρ).item key = some (.ofUInt n) →
      (orThrow ((windowToJson w : Value ρ).item key >>= Value.asUInt D) : Except Failure _) =
        .ok n := by
    intro key n h
    rw [h, orThrow_eq_ok]
    exact Value.asUInt_ofUInt D n
  have hrange : ¬ (1439#32 < w.startMinuteOfDay ∨ 1439#32 < w.endMinuteOfDay) := by
    rw [not_or, BitVec.not_lt, BitVec.not_lt]
    exact ⟨hstart,hend⟩
  rw [appendWindow, hitem "startMinute" w.startMinuteOfDay rfl,
    hitem "endMinute" w.endMinuteOfDay rfl, hitem "daysMask" w.daysOfWeekMask rfl]
  change (if _ then _ else _) = _
  rw [if_neg hrange]
  change Except.ok { out with timeWindows := out.timeWindows ++
    [{ w with daysOfWeekMask := w.daysOfWeekMask &&& 0x7F#32 }] } = _
  rw [hmask]

variable (iso8601Utc : ℤ → ℤ → Text)

theorem lookup_dateMember {key' : String} (h : key' ≠ key) (ts : Option ℤ) :
    (dateMember iso8601Utc key ts : List (String × Value ρ)).lookup key' = none := by
  cases ts with
  | none => rfl
  | some seconds => simp [dateMember, List.lookup_cons, beq_eq_false_iff_ne.mpr h]

/-- The members that a reader of entries asks for. -/
theorem toJson_members (e : Allowlistentry) :
    ∃ members : List (String × Value ρ), allowlistEntryToJson iso8601Utc e = .object members ∧
      members.lookup "plate" = some (.string e.plateText) ∧
      members.lookup "allowedClasses" = some (.array (e.allowedClasses.map classToJson)) ∧
      members.lookup "timeWindows" = some (.array (e.timeWindows.map windowToJson)) ∧
      members.lookup "ownerName" = some (.string e.ownerName) ∧
      members.lookup "ownerUnit" = some (.string e.ownerUnit) ∧
      members.lookup "notes" = some (.string e.notes) ∧
      members.lookup "validFromMs" = none ∧ members.lookup "validUntilMs" = none := by
  refine ⟨_,rfl,rfl,rfl,rfl,rfl,rfl,?_,?_,?_⟩
  all_goals simp [List.lookup_append, List.lookup_cons, lookup_dateMember]

/-- Everything but the dates is read back. -/
theorem fromJson_toJson {e : Allowlistentry} (he : Expressible e) :
    allowlistEntryFromJson D (allowlistEntryToJson iso8601Utc e) { plateText := [] } =
      .ok { e with validFrom := none, validUntil := none } := by
  obtain ⟨members,hmembers,hplate,hclasses,hwindows,hname,hunit,hnotes,hfrom,huntil⟩ :=
    toJson_members (ρ:=ρ) iso8601Utc e
  have hreadClasses : (e.allowedClasses.map classToJson).foldlM (appendClass D)
      { plateText := e.plateText } =
      .ok { plateText := e.plateText, allowedClasses := e.allowedClasses } :=
    foldlM_map_eq_ok (fun out cs => { out with allowedClasses := out.allowedClasses ++ cs })
      (fun out => by simp)
      (fun out c hc => ⟨_,appendClass_classToJson D (he.classes c hc) out,fun cs => by simp⟩) _
  have hreadWindows : (e.timeWindows.map windowToJson).foldlM (appendWindow D)
      { plateText := e.plateText, allowedClasses := e.allowedClasses } =
      .ok { plateText := e.plateText, allowedClasses := e.allowedClasses,
            timeWindows := e.timeWindows } :=
    foldlM_map_eq_ok (fun out ws => { out with timeWindows := out.timeWindows ++ ws })
      (fun out => by simp)
      (fun out w hw => ⟨_,appendWindow_windowToJson D (he.windows w hw).1 (he.windows w hw).2.1
        (he.windows w hw).2.2 out,fun ws => by simp⟩) _
  rw [hmembers]
  simp only [allowlistEntryFromJson, readPlate_of_string D hplate he.plate,
    readArray_of_array hclasses, readArray_of_array hwindows, hreadClasses, hreadWindows,
    readText_of_string D hname, readText_of_string D hunit, readText_of_string D hnotes,
    readSeconds_of_absent D hfrom, readSeconds_of_absent D huntil, bind, Except.bind]
  rw [← he.addedBy, ← he.addedTs]

end Reading

/-- The same entry up to who added it when. -/
def SameContent (e e' : Allowlistentry) : Prop :=
  e'.plateText = e.plateText ∧ e'.allowedClasses = e.allowedClasses ∧
  e'.timeWindows = e.timeWindows ∧ e'.ownerName = e.ownerName ∧ e'.ownerUnit = e.ownerUnit ∧
  e'.notes = e.notes

/-- An entry that was read from a body is accepted when it is posted back. Everything but its
dates is kept, and the dates are kept exactly if it has none. -/
theorem round_trip_keeps_dates_iff {ρ : Type} (D : Doubles ρ) (iso8601Utc : ℤ → ℤ → Text)
    (v : Value ρ) (e : Allowlistentry)
    (h : allowlistEntryFromJson D v { plateText := [] } = .ok e) :
    ∃ e', allowlistEntryFromJson D (allowlistEntryToJson iso8601Utc e) { plateText := [] } = .ok e' ∧
      SameContent e e' ∧
      (e'.validFrom = e.validFrom ∧ e'.validUntil = e.validUntil ↔
        e.validFrom = none ∧ e.validUntil = none) := by
  refine ⟨_,fromJson_toJson D iso8601Utc (expressible_of_fromJson h),
    ⟨rfl,rfl,rfl,rfl,rfl,rfl⟩,?_⟩
  constructor
  · exact fun hsame => ⟨hsame.1.symm,hsame.2.symm⟩
  · exact fun hnone => ⟨hnone.1.symm,hnone.2.symm⟩

/-- A body without dates: a plate, a class and a window. -/
theorem round_trip_without_dates :
    let D : Doubles Empty := ⟨Empty.elim,Empty.elim,Empty.elim⟩
    let e : Allowlistentry :=
      { plateText := ascii "KDA123X", allowedClasses := [.sedan], timeWindows := [⟨360,1080,31⟩] }
    ∃ e', allowlistEntryFromJson D (allowlistEntryToJson (fun _ _ => []) e) { plateText := [] } =
        .ok e' ∧
      SameContent e e' ∧
      (e'.validFrom = e.validFrom ∧ e'.validUntil = e.validUntil ↔
        e.validFrom = none ∧ e.validUntil = none) :=
  round_trip_keeps_dates_iff _ _
    (.object [("plate",.string (ascii "KDA123X")),
      ("allowedClasses",.array [.string (ascii "SEDAN")]),
      ("timeWindows",.array [.object [("startMinute",.int 360),("endMinute",.int 1080),
        ("daysMask",.int 31)]])]) _ rfl

/-- An entry that is not valid yet is read from a body. Posted back it is accepted without its
date, and the vehicle is let in. -/
theorem round_trip_drops_validFrom :
    let D : Doubles Empty := ⟨Empty.elim,Empty.elim,Empty.elim⟩
    let v : Value Empty := .object [("plate",.string (ascii "KDA123X")),("validFromMs",.int 2000000)]
    let e : Allowlistentry := { plateText := ascii "KDA123X", validFrom := some 2000 }
    let e' : Allowlistentry := { plateText := ascii "KDA123X" }
    allowlistEntryFromJson D v { plateText := [] } = .ok e ∧
    allowlistEntryFromJson D (allowlistEntryToJson (fun _ _ => []) e) { plateText := [] } = .ok e' ∧
    isAllowedNow e .sedan 1000 ⟨0,0,0⟩ = false ∧ isAllowedNow e' .sedan 1000 ⟨0,0,0⟩ = true :=
  ⟨rfl,rfl,rfl,rfl⟩

end AlprGate.DashApi
