import AlprGate.Library.JsonDocument
import AlprGate.Library.Verdicts

/-! # Scripted scenarios

A source of observations that replays a JSON scenario. Reading the document is fail-closed where
the source checks a field itself; optional numbers and texts go through the library's converting
access instead. The library is a parameter: its parser, its serialization in messages, and the
result of number conversions that the language leaves undefined.
-/
namespace AlprGate.Vision
open JsonDocument Verdicts

/-! ### Observations -/

inductive VehicleClass where
  | unknown
  | pedestrian
  | bicycle
  | motorcycle
  | sedan
  | suv
  | pickup
  | van
  | truck
  deriving DecidableEq, Repr

structure PixelBox where
  x : BitVec 32 := 0
  y : BitVec 32 := 0
  width : BitVec 32 := 0
  height : BitVec 32 := 0
  deriving DecidableEq, Repr

structure OrientedBox3D where
  centerX : FloatValue := .finite 0
  centerY : FloatValue := .finite 0
  centerZ : FloatValue := .finite 0
  length : FloatValue := .finite 0
  width : FloatValue := .finite 0
  height : FloatValue := .finite 0
  yawRadians : FloatValue := .finite 0
  deriving DecidableEq, Repr

structure PlateObservation where
  text : String
  detectionConf : FloatValue
  ocrConf : FloatValue
  box : PixelBox
  countryHint : String
  rawOcr : String
  deriving DecidableEq, Repr

structure VehicleObservation where
  vehicleClass : VehicleClass
  confidence : FloatValue
  box : OrientedBox3D
  trackId : BitVec 32
  pointCount : BitVec 32
  deriving DecidableEq, Repr

structure ObservationSet where
  captureTs : ℤ
  plates : List PlateObservation
  vehicles : List VehicleObservation
  deriving DecidableEq, Repr

/-- The offset is in milliseconds. -/
structure ScenarioEvent where
  offset : Int64
  plates : List PlateObservation
  vehicles : List VehicleObservation
  deriving DecidableEq, Repr

/-- The parsed script and the state of its replay. -/
structure ScenarioSource where
  events : List ScenarioEvent
  loops : BitVec 32
  index : ℕ := 0
  iteration : BitVec 32 := 0
  epochSet : Bool := false
  epoch : ℤ := 0
  index_lt : index < events.length
  deriving DecidableEq, Repr

/-! ### Reading a document -/

structure JsonLibrary where
  parse : List UInt8 → Parsed
  dump : Json → String
  undefined : FloatValue → BitVec 32

/-- What `from_json` can throw: `std::runtime_error`, or one of the library's exceptions. -/
inductive Exception where
  | runtimeError (what : String)
  | outOfRange
  | typeError
  deriving DecidableEq, Repr

def fail {α : Type} (path what : String) : Except Exception α :=
  .error (.runtimeError ("scenario: " ++ path ++ ": " ++ what))

def require (obj : Json) (key path : String) : Except Exception Json :=
  match obj.find key with
  | none => fail path ("missing required field '" ++ key ++ "'")
  | some v => .ok v

/-- The library's `value` on an object: a default for an absent member, a conversion that can
throw for any other. -/
def value {α : Type} (obj : Json) (key : String) (get : Json → Option α) (default : α) :
    Except Exception α :=
  match obj.find key with
  | none => .ok default
  | some v =>
    match get v with
    | some a => .ok a
    | none => .error .typeError

section Reading
variable (lib : JsonLibrary)

def requireConfidence (obj : Json) (key path : String) : Except Exception FloatValue := do
  match ← require obj key path with
  | .number l =>
    let f := l.toFloat
    if f.lt (.finite 0) = true ∨ FloatValue.lt (.finite 1) f = true then
      fail (path ++ "." ++ key) ("confidence must be in [0, 1], got " ++ lib.dump (.number l))
    else .ok f
  | _ => fail (path ++ "." ++ key) "must be a number"

def vehicleClasses : List (String × VehicleClass) :=
  [("unknown",.unknown), ("pedestrian",.pedestrian), ("bicycle",.bicycle),
    ("motorcycle",.motorcycle), ("sedan",.sedan), ("suv",.suv), ("pickup",.pickup), ("van",.van),
    ("truck",.truck)]

def parseVehicleClass (v : Json) (path : String) : Except Exception VehicleClass :=
  match v with
  | .string s =>
    match vehicleClasses.lookup s with
    | some c => .ok c
    | none => fail path ("unknown vehicle class '" ++ s ++ "'")
  | _ => fail path "must be a string"

/-- The text of a plate. -/
def parseText (v : Json) (path : String) : Except Exception String :=
  match v with
  | .string s => if s = "" then fail path "must be a non-empty string" else .ok s
  | _ => fail path "must be a non-empty string"

/-- The optional box of an observation. -/
def optionalBox {β : Type} (obj : Json) (path : String) (read : Json → Except Exception β)
    (default : β) : Except Exception β :=
  match obj.find "box" with
  | none => .ok default
  | some box => if box.isObject = false then fail (path ++ ".box") "must be an object" else read box

def parsePixelBox (box : Json) : Except Exception PixelBox := do
  let x ← value box "x" (Json.getUInt lib.undefined) 0
  let y ← value box "y" (Json.getUInt lib.undefined) 0
  let width ← value box "width" (Json.getUInt lib.undefined) 0
  let height ← value box "height" (Json.getUInt lib.undefined) 0
  .ok ⟨x,y,width,height⟩

def parsePlate (p : Json) (path : String) : Except Exception PlateObservation :=
  if p.isObject = false then fail path "must be an object"
  else do
    let text ← require p "text" path >>= fun v => parseText v (path ++ ".text")
    let detectionConf ← requireConfidence lib p "detection_conf" path
    let ocrConf ← requireConfidence lib p "ocr_conf" path
    let box ← optionalBox p path (parsePixelBox lib) {}
    let countryHint ← value p "country_hint" Json.getString ""
    let rawOcr ← value p "raw_ocr" Json.getString ""
    .ok ⟨text,detectionConf,ocrConf,box,countryHint,rawOcr⟩

def parseOrientedBox (box : Json) : Except Exception OrientedBox3D := do
  let centerX ← value box "center_x" Json.getFloat (.finite 0)
  let centerY ← value box "center_y" Json.getFloat (.finite 0)
  let centerZ ← value box "center_z" Json.getFloat (.finite 0)
  let length ← value box "length" Json.getFloat (.finite 0)
  let width ← value box "width" Json.getFloat (.finite 0)
  let height ← value box "height" Json.getFloat (.finite 0)
  let yawRadians ← value box "yaw_radians" Json.getFloat (.finite 0)
  .ok ⟨centerX,centerY,centerZ,length,width,height,yawRadians⟩

def parseVehicle (v : Json) (path : String) : Except Exception VehicleObservation :=
  if v.isObject = false then fail path "must be an object"
  else do
    let vehicleClass ← require v "class" path >>= fun c => parseVehicleClass c (path ++ ".class")
    let confidence ← requireConfidence lib v "confidence" path
    let box ← optionalBox v path parseOrientedBox {}
    let trackId ← value v "track_id" (Json.getUInt lib.undefined) 0
    let pointCount ← value v "point_count" (Json.getUInt lib.undefined) 0
    .ok ⟨vehicleClass,confidence,box,trackId,pointCount⟩

/-- The path of an item of an array. -/
def itemPath (path : String) (i : ℕ) : String := path ++ "[" ++ toString i ++ "]"

def parseItems {α : Type} (parse : Json → String → Except Exception α) (path : String) :
    ℕ → List Json → Except Exception (List α) :=
  readItems fun i v => parse v (itemPath path i)

/-- The optional arrays of an event. -/
def optionalItems {α : Type} (obj : Json) (key path : String)
    (parse : Json → String → Except Exception α) : Except Exception (List α) :=
  match obj.find key with
  | none => .ok []
  | some (.array items) => parseItems parse (path ++ "." ++ key) 0 items
  | some _ => fail (path ++ "." ++ key) "must be an array"

def parseOffset (v : Json) (path : String) : Except Exception Int64 :=
  match v.storedInteger with
  | none => fail path "must be an integer"
  | some n =>
    let ms := Int64.ofInt n
    if ms.toInt < 0 then fail path ("must be >= 0, got " ++ lib.dump v) else .ok ms

def parseEvent (e : Json) (path : String) : Except Exception ScenarioEvent :=
  if e.isObject = false then fail path "must be an object"
  else do
    let offset ← require e "offset_ms" path >>= fun v => parseOffset lib v (path ++ ".offset_ms")
    let plates ← optionalItems e "plates" path (parsePlate lib)
    let vehicles ← optionalItems e "vehicles" path (parseVehicle lib)
    .ok ⟨offset,plates,vehicles⟩

/-- The number of iterations. The check is made in 64 bits, the result has 32. -/
def parseLoop (root : Json) : Except Exception (BitVec 32) :=
  match root.find "loop" with
  | none => .ok 1
  | some v =>
    match v.storedInteger with
    | some n =>
      if (Int64.ofInt n).toInt < 1 then fail "loop" ("must be an integer >= 1, got " ++ lib.dump v)
      else .ok (BitVec.ofInt 32 (Int64.ofInt n).toInt)
    | none => fail "loop" ("must be an integer >= 1, got " ++ lib.dump v)

/-- The loop over the events, which are not empty. -/
def parseEvents (loops : BitVec 32) (v : Json) (vs : List Json) :
    Except Exception ScenarioSource := do
  let event ← parseEvent lib v (itemPath "events" 0)
  let events ← parseItems (parseEvent lib) "events" 1 vs
  .ok { events := event :: events, loops := loops, index_lt := Nat.zero_lt_succ _ }

def requireEvents (loops : BitVec 32) (root : Json) : Except Exception ScenarioSource := do
  match ← require root "events" "(document)" with
  | .array (v :: vs) => parseEvents lib loops v vs
  | _ => fail "events" "must be a non-empty array"

/-- `from_json` from the parsed document on. -/
def fromDocument (root : Json) : Except Exception ScenarioSource :=
  if root.isObject = false then fail "(document)" "top level must be an object"
  else do
    let loops ← parseLoop lib root
    requireEvents lib loops root

def fromParsed : Parsed → Except Exception ScenarioSource
  | .parseError what => fail "(document)" ("malformed JSON — " ++ what)
  | .outOfRange => .error .outOfRange
  | .document root => fromDocument lib root

def fromJson (text : List UInt8) : Except Exception ScenarioSource := fromParsed lib (lib.parse text)

end Reading

/-! ### The replay -/

/-- What the clock says during a call, in nanoseconds. -/
structure Reading where
  now : ℤ
  wallNow : ℤ
  deriving DecidableEq, Repr

/-- An observation set, and until when the call has slept. -/
structure Emission where
  sleptUntil : ℤ
  set : ObservationSet
  deriving DecidableEq, Repr

def nanoseconds (offset : Int64) : ℤ := offset.toInt * 1000000

/-- The emission for an event, in an iteration that began at `epoch`. -/
def ScenarioEvent.emit (ev : ScenarioEvent) (epoch wallNow : ℤ) : Emission :=
  ⟨epoch + nanoseconds ev.offset,⟨wallNow,ev.plates,ev.vehicles⟩⟩

/-- Behind an event: the next one, or the first one of the next iteration. -/
def ScenarioSource.advance (s : ScenarioSource) (epoch : ℤ) : ScenarioSource :=
  if h : s.index + 1 = s.events.length then
    { s with
      index := 0
      iteration := s.iteration + 1
      epochSet := false
      epoch := epoch
      index_lt := (Nat.zero_le _).trans_lt s.index_lt }
  else
    { s with
      index := s.index + 1
      epochSet := true
      epoch := epoch
      index_lt := Nat.lt_of_le_of_ne s.index_lt h }

def ScenarioSource.next (s : ScenarioSource) (c : Reading) : Option Emission × ScenarioSource :=
  if s.loops ≤ s.iteration then (none,s)
  else
    let epoch := if s.epochSet = true then s.epoch else c.now
    let ev := s.events.get ⟨s.index,s.index_lt⟩
    (some (ev.emit epoch c.wallNow),s.advance epoch)

end AlprGate.Vision
