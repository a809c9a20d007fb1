import Mathlib.Data.List.Sort
import Mathlib.Data.UInt
import AlprGate.Library.KeyedTable

/-! # The allowlist store

Four tables: one row per plate and site, its vehicle classes, its time windows, and
the blocklist. Integers that go through a signed column come back as the unsigned
values they were. Text is the bytes of the source's strings, so that normalization and
the column order are those of the source.
-/
namespace AlprGate.Auth

abbrev Text := List UInt8

/-- The vehicle classes are an open enumeration: unknown numbers are kept. -/
structure VehicleClass where
  number : ℤ
  deriving DecidableEq, Repr

namespace VehicleClass

def unknown : VehicleClass := ⟨0⟩
def pedestrian : VehicleClass := ⟨1⟩
def bicycle : VehicleClass := ⟨2⟩
def motorcycle : VehicleClass := ⟨3⟩
def sedan : VehicleClass := ⟨4⟩
def suv : VehicleClass := ⟨5⟩
def pickup : VehicleClass := ⟨6⟩
def van : VehicleClass := ⟨7⟩
def truck : VehicleClass := ⟨8⟩

end VehicleClass

structure TimeWindow where
  startMinuteOfDay : BitVec 32
  endMinuteOfDay : BitVec 32
  daysOfWeekMask : BitVec 32
  deriving DecidableEq, Repr

/-- Timestamps are read at the resolution of seconds; an absent one is `none`. -/
structure Allowlistentry where
  plateText : Text
  allowedClasses : List VehicleClass := []
  timeWindows : List TimeWindow := []
  ownerName : Text := []
  ownerUnit : Text := []
  validFrom : Option ℤ := none
  validUntil : Option ℤ := none
  notes : Text := []
  addedBy : Text := []
  addedTs : Option ℤ := none
  deriving DecidableEq, Repr

/-- Local time as `is_allowed_now` reads it; Sunday is day 0. -/
structure Tm where
  hour : Fin 24
  min : Fin 60
  wday : Fin 7
  deriving DecidableEq, Repr

/-- Drop blanks, tabs, dashes and underscores; letters become capitals. -/
def normalizePlate : Text → Text
  | [] => []
  | u :: raw =>
    if u = 0x20 ∨ u = 0x09 ∨ u = 0x2d ∨ u = 0x5f then normalizePlate raw
    else if 0x61 ≤ u ∧ u ≤ 0x7a then (u - 0x20) :: normalizePlate raw
    else u :: normalizePlate raw

/-- Half-open windows; one that ends before it starts wraps around midnight. -/
def windowContains (w : TimeWindow) (minuteOfDay : ℤ) (isoDowBit : ℕ) : Bool :=
  if w.daysOfWeekMask &&& (1#32 <<< isoDowBit) = 0#32 then false
  else
    let start := w.startMinuteOfDay.toInt
    let stop := w.endMinuteOfDay.toInt
    if start ≤ stop then decide (start ≤ minuteOfDay ∧ minuteOfDay < stop)
    else decide (start ≤ minuteOfDay ∨ minuteOfDay < stop)

def classAllowed (e : Allowlistentry) (cls : VehicleClass) : Bool :=
  e.allowedClasses.isEmpty || e.allowedClasses.any fun c => c = cls

def Tm.minuteOfDay (tm : Tm) : ℤ := tm.hour.val * 60 + tm.min.val

/-- Monday is bit 0. -/
def Tm.isoBit (tm : Tm) : ℕ := (tm.wday.val + 6) % 7

/-- A timestamp that is present and positive excludes the instants that meet the test. -/
def excludedBy (ts : Option ℤ) (test : ℤ → Bool) : Bool :=
  match ts with
  | some seconds => decide (0 < seconds) && test seconds
  | none => false

def isAllowedNow (e : Allowlistentry) (cls : VehicleClass) (nowUnix : ℤ) (nowLocal : Tm) : Bool :=
  if excludedBy e.validFrom (fun seconds => nowUnix < seconds) = true then false
  else if excludedBy e.validUntil (fun seconds => seconds ≤ nowUnix) = true then false
  else if classAllowed e cls = false then false
  else if e.timeWindows.isEmpty = true then true
  else e.timeWindows.any fun w => windowContains w nowLocal.minuteOfDay nowLocal.isoBit

structure AllowlistRow where
  siteId : Text
  plateText : Text
  ownerName : Text
  ownerUnit : Text
  validFrom : ℤ
  validUntil : ℤ
  notes : Text
  addedBy : Text
  addedTs : ℤ
  deriving DecidableEq, Repr

def AllowlistRow.key (r : AllowlistRow) : Text × Text := (r.siteId, r.plateText)

structure ClassRow where
  siteId : Text
  plateText : Text
  vehicleClass : ℤ
  deriving DecidableEq, Repr

def ClassRow.key (r : ClassRow) : Text × Text × ℤ := (r.siteId, r.plateText, r.vehicleClass)

structure WindowRow where
  siteId : Text
  plateText : Text
  startMinuteOfDay : ℤ
  endMinuteOfDay : ℤ
  daysOfWeekMask : ℤ
  deriving DecidableEq, Repr

structure BlocklistRow where
  siteId : Text
  plateText : Text
  reason : Text
  addedTs : ℤ
  deriving DecidableEq, Repr

def BlocklistRow.key (r : BlocklistRow) : Text × Text := (r.siteId, r.plateText)

/-- The database. The windows have no key of their own. -/
structure AllowlistStore where
  allowlist : Table AllowlistRow AllowlistRow.key := .empty
  classes : Table ClassRow ClassRow.key := .empty
  windows : List WindowRow := []
  blocklist : Table BlocklistRow BlocklistRow.key := .empty

structure UpsertStats where
  inserted : ℕ := 0
  updated : ℕ := 0
  deriving DecidableEq, Repr

/-- The columns of the main row. -/
def Allowlistentry.toRow (e : Allowlistentry) (siteId plate : Text) : AllowlistRow where
  siteId := siteId
  plateText := plate
  ownerName := e.ownerName
  ownerUnit := e.ownerUnit
  validFrom := e.validFrom.getD 0
  validUntil := e.validUntil.getD 0
  notes := e.notes
  addedBy := e.addedBy
  addedTs := e.addedTs.getD 0

def TimeWindow.toRow (w : TimeWindow) (siteId plate : Text) : WindowRow where
  siteId := siteId
  plateText := plate
  startMinuteOfDay := w.startMinuteOfDay.toInt
  endMinuteOfDay := w.endMinuteOfDay.toInt
  daysOfWeekMask := w.daysOfWeekMask.toNat

def WindowRow.toWindow (r : WindowRow) : TimeWindow where
  startMinuteOfDay := BitVec.ofInt 32 r.startMinuteOfDay
  endMinuteOfDay := BitVec.ofInt 32 r.endMinuteOfDay
  daysOfWeekMask := BitVec.ofInt 32 r.daysOfWeekMask

/-- A zero or negative column reads back as an absent timestamp. -/
def positive (seconds : ℤ) : Option ℤ := if 0 < seconds then some seconds else none

/-- The scalar fields as `lookup` and `list` read them. -/
def AllowlistRow.scalars (r : AllowlistRow) : Allowlistentry where
  plateText := r.plateText
  ownerName := r.ownerName
  ownerUnit := r.ownerUnit
  validFrom := positive r.validFrom
  validUntil := positive r.validUntil
  notes := r.notes
  addedBy := r.addedBy
  addedTs := positive r.addedTs

namespace AllowlistStore

/-- One entry of an upsert: the main row is replaced, classes and windows are wiped and
rewritten. -/
def upsertEntry (s : AllowlistStore) (siteId : Text) (e : Allowlistentry) : AllowlistStore :=
  let plate := normalizePlate e.plateText
  { s with
    allowlist := s.allowlist.upsert (e.toRow siteId plate)
    classes := (e.allowedClasses.map fun c => ⟨siteId,plate,c.number⟩).foldl Table.insertIgnore
      (s.classes.eraseWhere fun r => r.siteId = siteId ∧ r.plateText = plate)
    windows := (s.windows.filter fun r => ¬ (r.siteId = siteId ∧ r.plateText = plate)) ++
      e.timeWindows.map fun w => w.toRow siteId plate }

def upsertLoop (siteId : Text) :
    AllowlistStore → UpsertStats → List Allowlistentry → Except String (UpsertStats × AllowlistStore)
  | s, stats, [] => .ok (stats, s)
  | s, stats, e :: es =>
    let plate := normalizePlate e.plateText
    if plate = [] then .error "upsert: plate_text is empty after normalization"
    else
      let existed := (s.allowlist.get? (siteId, plate)).isSome
      upsertLoop siteId (s.upsertEntry siteId e)
        (if existed = true then { stats with updated := stats.updated + 1 }
          else { stats with inserted := stats.inserted + 1 }) es

/-- A failed upsert rolls back. -/
def upsert (s : AllowlistStore) (siteId : Text) (entries : List Allowlistentry) :
    Except String UpsertStats × AllowlistStore :=
  match upsertLoop siteId s {} entries with
  | .ok (stats, s') => (.ok stats, s')
  | .error message => (.error message, s)

/-- Deleting a main row takes its classes and windows with it. -/
def removePlate (siteId : Text) (p : ℕ × AllowlistStore) (raw : Text) : ℕ × AllowlistStore :=
  let plate := normalizePlate raw
  let (removed, s) := p
  match s.allowlist.get? (siteId, plate) with
  | none => (removed, s)
  | some _ => (removed + 1, { s with
      allowlist := s.allowlist.erase (siteId, plate)
      classes := s.classes.eraseWhere fun r => r.siteId = siteId ∧ r.plateText = plate
      windows := s.windows.filter fun r => ¬ (r.siteId = siteId ∧ r.plateText = plate) })

def remove (s : AllowlistStore) (siteId : Text) (plateTexts : List Text) : ℕ × AllowlistStore :=
  plateTexts.foldl (removePlate siteId) (0, s)

/-- The classes of a plate in the order of their numbers. -/
def classesOf (s : AllowlistStore) (siteId plate : Text) : List VehicleClass :=
  ((s.classes.rows.filter fun r => r.siteId = siteId ∧ r.plateText = plate).insertionSort
    fun a b => a.vehicleClass ≤ b.vehicleClass).map fun r => ⟨r.vehicleClass⟩

def windowsOf (s : AllowlistStore) (siteId plate : Text) : List TimeWindow :=
  ((s.windows.filter fun r => r.siteId = siteId ∧ r.plateText = plate).insertionSort
    fun a b => a.startMinuteOfDay ≤ b.startMinuteOfDay).map WindowRow.toWindow

def lookup (s : AllowlistStore) (siteId plateText : Text) : Option Allowlistentry :=
  let plate := normalizePlate plateText
  (s.allowlist.get? (siteId, plate)).map fun r =>
    { r.scalars with
      allowedClasses := s.classesOf siteId plate
      timeWindows := s.windowsOf siteId plate }

def isBlocklisted (s : AllowlistStore) (siteId plateText : Text) : Bool :=
  (s.blocklist.get? (siteId, normalizePlate plateText)).isSome

def blocklistUpsert (s : AllowlistStore) (siteId plateText reason : Text) (now : ℤ) :
    Except String ℕ × AllowlistStore :=
  let plate := normalizePlate plateText
  if plate = [] then (.error "blocklist_upsert: plate_text is empty after normalization", s)
  else (.ok 1, { s with blocklist := s.blocklist.upsert ⟨siteId,plate,reason,now⟩ })

def blocklistRemovePlate (siteId : Text) (p : ℕ × AllowlistStore) (raw : Text) :
    ℕ × AllowlistStore :=
  let key := (siteId, normalizePlate raw)
  let (removed, s) := p
  match s.blocklist.get? key with
  | none => (removed, s)
  | some _ => (removed + 1, { s with blocklist := s.blocklist.erase key })

def blocklistRemove (s : AllowlistStore) (siteId : Text) (plateTexts : List Text) :
    ℕ × AllowlistStore :=
  plateTexts.foldl (blocklistRemovePlate siteId) (0, s)

end AllowlistStore

structure Page where
  entries : List Allowlistentry := []
  nextToken : Text := []
  deriving DecidableEq, Repr

/-- The loop over the main rows. One row more than the page holds ends the call: the page
comes with the token that continues it. -/
def collect (limit : ℕ) : List AllowlistRow → List Allowlistentry → List Allowlistentry × Option Text
  | [], entries => (entries, none)
  | r :: rows, entries =>
    if entries.length = limit then (entries, entries.getLast?.map Allowlistentry.plateText)
    else collect limit rows (entries ++ [r.scalars])

/-- Change the first entry of the page that has the plate. -/
def updateFirst (plate : Text) (f : Allowlistentry → Allowlistentry) :
    List Allowlistentry → List Allowlistentry
  | [] => []
  | e :: es => if e.plateText = plate then f e :: es else e :: updateFirst plate f es

def Allowlistentry.addClass (c : VehicleClass) (e : Allowlistentry) : Allowlistentry :=
  { e with allowedClasses := e.allowedClasses ++ [c] }

def Allowlistentry.addWindow (w : TimeWindow) (e : Allowlistentry) : Allowlistentry :=
  { e with timeWindows := e.timeWindows ++ [w] }

namespace AllowlistStore

/-- The main rows behind the token, in the order of their plates. -/
def rowsAfter (s : AllowlistStore) (siteId pageToken : Text) : List AllowlistRow :=
  (s.allowlist.rows.filter fun r => r.siteId = siteId ∧ pageToken < r.plateText).insertionSort
    fun a b => a.plateText ≤ b.plateText

def pageClasses (s : AllowlistStore) (siteId : Text) (plates : List Text) : List ClassRow :=
  (s.classes.rows.filter fun r => r.siteId = siteId ∧ r.plateText ∈ plates).insertionSort
    fun a b => a.plateText < b.plateText ∨
      (a.plateText = b.plateText ∧ a.vehicleClass ≤ b.vehicleClass)

def pageWindows (s : AllowlistStore) (siteId : Text) (plates : List Text) : List WindowRow :=
  (s.windows.filter fun r => r.siteId = siteId ∧ r.plateText ∈ plates).insertionSort
    fun a b => a.plateText < b.plateText ∨
      (a.plateText = b.plateText ∧ a.startMinuteOfDay ≤ b.startMinuteOfDay)

/-- Classes and windows for a whole page. -/
def hydrate (s : AllowlistStore) (siteId : Text) (entries : List Allowlistentry) :
    List Allowlistentry :=
  let plates := entries.map Allowlistentry.plateText
  let withClasses := (s.pageClasses siteId plates).foldl
    (fun es r => updateFirst r.plateText (Allowlistentry.addClass ⟨r.vehicleClass⟩) es) entries
  (s.pageWindows siteId plates).foldl
    (fun es r => updateFirst r.plateText (Allowlistentry.addWindow r.toWindow) es) withClasses

def pageLimit (pageSize : ℕ) : ℕ := max 1 (min pageSize 1000)

def list (s : AllowlistStore) (siteId : Text) (pageSize : ℕ) (pageToken : Text) : Page :=
  let limit := pageLimit pageSize
  match collect limit ((s.rowsAfter siteId pageToken).take (limit + 1)) [] with
  | (entries, some token) => { entries := entries, nextToken := token }
  | (entries, none) => { entries := s.hydrate siteId entries }

end AllowlistStore
end AlprGate.Auth
