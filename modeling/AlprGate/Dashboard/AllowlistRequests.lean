import AlprGate.Dashboard.JsonMapping

/-! # Posting to the allowlist

The handler of `POST /api/allowlist`: it reads one entry or a batch from the body, and either
answers 400 with a reason or hands one request to the bridge. A body that makes the JSON library
throw gets neither: the exception leaves the handler. Which bodies do is said here in terms of the
body.
-/
namespace AlprGate.DashApi
open Auth JsonValue

structure UpsertAllowlistRequest where
  siteId : Text := []
  entries : List Allowlistentry := []
  deriving DecidableEq, Repr

inductive GrpcCode where
  | ok
  | invalidArgument
  | notFound
  | alreadyExists
  | permissionDenied
  | unauthenticated
  | deadlineExceeded
  | unavailable
  | unimplemented
  | other (number : ℕ)
  deriving DecidableEq, Repr

def httpStatus : GrpcCode → ℕ
  | .ok => 200
  | .invalidArgument => 400
  | .notFound => 404
  | .alreadyExists => 409
  | .permissionDenied | .unauthenticated => 403
  | .deadlineExceeded => 504
  | .unavailable => 503
  | .unimplemented => 501
  | .other _ => 502

/-- The upstream's answer to an upsert. -/
structure UpsertResult where
  code : GrpcCode
  message : String := ""
  inserted : BitVec 32 := 0
  updated : BitVec 32 := 0
  deriving DecidableEq, Repr

inductive HttpReply where
  | jsonError (status : ℕ) (message : String)
  | upserted (inserted updated : BitVec 32)
  deriving DecidableEq, Repr

/-- The bridge: its configuration, the clock, and what the upstream answers. -/
structure GrpcBridge where
  siteId : Text
  actor : Text
  now : ℤ
  upstream : UpsertAllowlistRequest → UpsertResult

namespace GrpcBridge

def stampEntry (b : GrpcBridge) (e : Allowlistentry) : Allowlistentry :=
  { e with
    addedBy := if e.addedBy = [] then b.actor else e.addedBy
    addedTs := match e.addedTs with
      | none => some b.now
      | some ts => some ts }

/-- The request as `upsert_allowlist` sends it. -/
def stamp (b : GrpcBridge) (req : UpsertAllowlistRequest) : UpsertAllowlistRequest where
  siteId := if req.siteId = [] then b.siteId else req.siteId
  entries := req.entries.map b.stampEntry

end GrpcBridge

section Handler
variable {ρ : Type} (D : Doubles ρ)

/-- One more entry of a batch. -/
def appendEntry (entries : List Allowlistentry) (ev : Value ρ) :
    Except Failure (List Allowlistentry) := do
  let e ← allowlistEntryFromJson D ev { plateText := [] }
  .ok (entries ++ [e])

def readEntries (body : Value ρ) : Except Failure (List Allowlistentry) := do
  if (← orThrow (body.isMember "entries")) = true then
    match ← orThrow (body.item "entries") with
    | .array (ev :: evs) => (ev :: evs).foldlM (appendEntry D) []
    | _ => .error (.rejected "'entries' must be a non-empty array")
  else appendEntry D [] body

/-- What a request leads to: what is sent upstream, and the reply unless an exception leaves the
handler. -/
structure Handled where
  sent : List UpsertAllowlistRequest := []
  reply : Option HttpReply
  deriving DecidableEq, Repr

/-- The handler from the wired bridge on. A body that is no JSON is `none`. -/
def upsert (b : GrpcBridge) (body : Option (Value ρ)) : Handled :=
  match body with
  | none => { reply := some (.jsonError 400 "body must be JSON") }
  | some v =>
    match readEntries D v with
    | .error .threw => { reply := none }
    | .error (.rejected error) => { reply := some (.jsonError 400 error) }
    | .ok entries =>
      let req := b.stamp { entries := entries }
      let result := b.upstream req
      { sent := [req]
        reply := some (if result.code = .ok then .upserted result.inserted result.updated
          else .jsonError (httpStatus result.code) result.message) }

/-! ### Bodies that throw -/

/-- A number of a time window, as far as the library converts it. -/
def windowNumber (wv : Value ρ) (key : String) : Option (BitVec 32) := wv.item key >>= Value.asUInt D

def MinutesFit (wv : Value ρ) : Prop :=
  ∃ start stop, windowNumber D wv "startMinute" = some start ∧
    windowNumber D wv "endMinute" = some stop ∧ start ≤ 1439#32 ∧ stop ≤ 1439#32

def WindowFits (wv : Value ρ) : Prop :=
  MinutesFit D wv ∧ windowNumber D wv "daysMask" ≠ none

/-- A minute that is no number, or a mask that is none behind minutes that fit. -/
def WindowThrows (wv : Value ρ) : Prop :=
  windowNumber D wv "startMinute" = none ∨ windowNumber D wv "endMinute" = none ∨
    (MinutesFit D wv ∧ windowNumber D wv "daysMask" = none)

def ClassFits (cls : Value ρ) : Prop :=
  ∃ name, cls = .string name ∧ vehicleClassParse (ascii "VEHICLE_CLASS_" ++ name) ≠ none

/-- An optional array all items of which fit. -/
def ArrayFits (members : List (String × Value ρ)) (key : String) (fits : Value ρ → Prop) : Prop :=
  members.lookup key = none ∨
    ∃ items, members.lookup key = some (.array items) ∧ ∀ x ∈ items, fits x

/-- A member that is there and cannot be converted. -/
def Inconvertible {α : Type} (members : List (String × Value ρ)) (key : String)
    (convert : Value ρ → Option α) : Prop :=
  ∃ x, members.lookup key = some x ∧ convert x = none

/-- Plate and classes fit, and then a window throws behind windows that fit, or behind all of
them a text or a date does. -/
def EntryThrows (v : Value ρ) : Prop :=
  ∃ members, v = .object members ∧
    (∃ plate, members.lookup "plate" = some (.string plate) ∧ plate ≠ []) ∧
    ArrayFits members "allowedClasses" ClassFits ∧
    ((∃ before wv after, members.lookup "timeWindows" = some (.array (before ++ wv :: after)) ∧
        (∀ w ∈ before, WindowFits D w) ∧ WindowThrows D wv) ∨
      ArrayFits members "timeWindows" (WindowFits D) ∧
        (Inconvertible members "ownerName" (Value.asString D) ∨
          Inconvertible members "ownerUnit" (Value.asString D) ∨
          Inconvertible members "notes" (Value.asString D) ∨
          Inconvertible members "validFromMs" (Value.asInt64 D) ∨
          Inconvertible members "validUntilMs" (Value.asInt64 D)))

/-- `allowlist_entry_from_json` returns true. -/
def EntryAccepted (v : Value ρ) : Prop :=
  ∃ e, allowlistEntryFromJson D v { plateText := [] } = .ok e

/-- The body is neither an object nor null, or an entry throws behind entries that are accepted. -/
def BodyThrows (body : Value ρ) : Prop :=
  body.find "entries" = none ∨
    (body.find "entries" = some none ∧ EntryThrows D body) ∨
    ∃ before ev after, body.find "entries" = some (some (.array (before ++ ev :: after))) ∧
      (∀ x ∈ before, EntryAccepted D x) ∧ EntryThrows D ev

end Handler

section Throws
variable {ρ : Type} {D : Doubles ρ} {members : List (String × Value ρ)}

theorem readPlate_ne_threw (v : Value ρ) : readPlate D v ≠ .error .threw := by
  intro h
  cases v with
  | object members =>
    simp only [readPlate, Value.isObject, Value.item, Value.find, Bool.true_eq_false, ↓reduceIte,
      bind_eq_error, orThrow_eq_error, orThrow_eq_ok, Option.map_some, reduceCtorEq, false_and,
      Option.some.injEq, exists_eq_left', false_or] at h
    cases hplate : (members.lookup "plate").getD .null with
    | string s =>
      rw [hplate] at h
      simp only [Value.isString, Value.asString, Bool.true_eq_false, ↓reduceIte, bind_eq_error,
        orThrow_eq_error, orThrow_eq_ok, reduceCtorEq, false_and, Option.some.injEq,
        exists_eq_left', false_or] at h
      split at h
      · cases h
      · cases h
    | _ =>
      rw [hplate] at h
      cases h
  | _ => cases h

theorem readPlate_isOk_iff : (∃ text, readPlate D (.object members) = .ok text) ↔
    ∃ plate, members.lookup "plate" = some (.string plate) ∧ plate ≠ [] := by
  constructor
  · rintro ⟨text,h⟩
    rw [readPlate, if_neg (by simp [Value.isObject])] at h
    obtain ⟨plate,hitem,h⟩ := bind_eq_ok.mp h
    rw [orThrow_eq_ok, Value.item, Value.find] at hitem
    cases hlookup : members.lookup "plate" with
    | none =>
      rw [hlookup] at hitem
      cases hitem
      cases h
    | some x =>
      rw [hlookup] at hitem
      cases hitem
      cases x with
      | string s =>
        refine ⟨s,rfl,?_⟩
        rintro rfl
        cases h
      | _ => cases h
  · rintro ⟨plate,hplate,hne⟩
    exact ⟨plate,readPlate_of_string D hplate hne⟩

section Arrays
variable {key wrongType : String} {out : Allowlistentry}
  {append : Allowlistentry → Value ρ → Except Failure Allowlistentry}

theorem readArray_of_absent (h : members.lookup key = none) :
    readArray (.object members) key wrongType append out = .ok out := by
  simp only [readArray, Value.isMember, Value.find, h]
  rfl

theorem readArray_of_other {x : Value ρ} (h : members.lookup key = some x)
    (hx : ∀ items, x ≠ .array items) :
    readArray (.object members) key wrongType append out = .error (.rejected wrongType) := by
  simp only [readArray, Value.isMember, Value.item, Value.find, h]
  cases x with
  | array items => exact absurd rfl (hx items)
  | _ => rfl

theorem readArray_eq_threw_iff :
    readArray (.object members) key wrongType append out = .error .threw ↔
      ∃ items, members.lookup key = some (.array items) ∧
        items.foldlM append out = .error .threw := by
  constructor
  · intro h
    cases hlookup : members.lookup key with
    | none =>
      rw [readArray_of_absent hlookup] at h
      cases h
    | some x =>
      by_cases hx : ∃ items, x = .array items
      · obtain ⟨items,rfl⟩ := hx
        rw [readArray_of_array hlookup] at h
        exact ⟨items,rfl,h⟩
      · rw [readArray_of_other hlookup fun items hitems => hx ⟨items,hitems⟩] at h
        cases h
  · rintro ⟨items,hlookup,h⟩
    rw [readArray_of_array hlookup]
    exact h

/-- An array is read if its items are, whatever stands before them. -/
theorem readArray_isOk_iff {fits : Value ρ → Prop}
    (hstep : ∀ out x, (∃ out', append out x = .ok out') ↔ fits x) :
    (∃ e, readArray (.object members) key wrongType append out = .ok e) ↔
      ArrayFits members key fits := by
  constructor
  · rintro ⟨e,h⟩
    cases hlookup : members.lookup key with
    | none => exact Or.inl hlookup
    | some x =>
      by_cases hx : ∃ items, x = .array items
      · obtain ⟨items,rfl⟩ := hx
        rw [readArray_of_array hlookup] at h
        exact Or.inr ⟨items,hlookup,(foldlM_isOk_iff hstep out items).mp ⟨e,h⟩⟩
      · rw [readArray_of_other hlookup fun items hitems => hx ⟨items,hitems⟩] at h
        cases h
  · rintro (hlookup | ⟨items,hlookup,hfits⟩)
    · exact ⟨out,readArray_of_absent hlookup⟩
    · rw [readArray_of_array hlookup]
      exact (foldlM_isOk_iff hstep out items).mpr hfits

end Arrays

theorem appendClass_string (out : Allowlistentry) (name : Text) :
    appendClass D out (.string name) =
      (vehicleClassParse (ascii "VEHICLE_CLASS_" ++ name)).elim
        (.error (.rejected "unknown vehicle class in 'allowedClasses'"))
        fun parsed => .ok { out with allowedClasses := out.allowedClasses ++ [parsed] } := by
  have hname : (orThrow ((Value.string name).asString D) : Except Failure _) = .ok name := rfl
  rw [appendClass, if_neg (by simp [Value.isString]), hname]
  dsimp only [bind, Except.bind]
  cases vehicleClassParse (ascii "VEHICLE_CLASS_" ++ name) with
  | none => rfl
  | some parsed => rfl

theorem appendClass_ne_threw (out : Allowlistentry) (cls : Value ρ) :
    appendClass D out cls ≠ .error .threw := by
  intro h
  cases cls with
  | string name =>
    rw [appendClass_string] at h
    cases hparse : vehicleClassParse (ascii "VEHICLE_CLASS_" ++ name) with
    | none =>
      rw [hparse] at h
      cases h
    | some parsed =>
      rw [hparse] at h
      cases h
  | _ => cases h

theorem appendClass_isOk_iff (out : Allowlistentry) (cls : Value ρ) :
    (∃ out', appendClass D out cls = .ok out') ↔ ClassFits cls := by
  cases cls with
  | string name =>
    rw [appendClass_string]
    cases hparse : vehicleClassParse (ascii "VEHICLE_CLASS_" ++ name) with
    | none =>
      constructor
      · rintro ⟨out',h⟩
        cases h
      · rintro ⟨name',hname,hfits⟩
        cases hname
        exact absurd hparse hfits
    | some parsed =>
      refine iff_of_true ⟨_,rfl⟩ ⟨name,rfl,?_⟩
      rw [hparse]
      exact Option.some_ne_none parsed
  | _ =>
    constructor
    · rintro ⟨out',h⟩
      cases h
    · rintro ⟨name,hname,_⟩
      cases hname

/-- The reader of a window, by what the library converts. -/
theorem appendWindow_eq (out : Allowlistentry) (wv : Value ρ) :
    appendWindow D out wv =
      match windowNumber D wv "startMinute", windowNumber D wv "endMinute",
          windowNumber D wv "daysMask" with
      | some start, some stop, mask =>
        if 1439#32 < start ∨ 1439#32 < stop then
          .error (.rejected "time window minutes must be 0..1439")
        else match mask with
          | some mask => .ok { out with
              timeWindows := out.timeWindows ++ [⟨start,stop,mask &&& 0x7F#32⟩] }
          | none => .error .threw
      | _, _, _ => .error .threw := by
  unfold appendWindow
  change ((orThrow (windowNumber D wv "startMinute") : Except Failure _) >>= fun start =>
    orThrow (windowNumber D wv "endMinute") >>= fun stop =>
    if 1439#32 < start ∨ 1439#32 < stop then
      .error (.rejected "time window minutes must be 0..1439")
    else orThrow (windowNumber D wv "daysMask") >>= fun mask => _) = _
  cases windowNumber D wv "startMinute" with
  | none => rfl
  | some start =>
    cases windowNumber D wv "endMinute" with
    | none => rfl
    | some stop =>
      cases windowNumber D wv "daysMask" with
      | none => rfl
      | some mask => rfl

theorem minutesFit_iff {wv : Value ρ} {start stop : BitVec 32}
    (hstart : windowNumber D wv "startMinute" = some start)
    (hstop : windowNumber D wv "endMinute" = some stop) :
    MinutesFit D wv ↔ ¬ (1439#32 < start ∨ 1439#32 < stop) := by
  rw [not_or, BitVec.not_lt, BitVec.not_lt]
  constructor
  · rintro ⟨start',stop',hstart',hstop',hfits⟩
    cases hstart.symm.trans hstart'
    cases hstop.symm.trans hstop'
    exact hfits
  · intro hfits
    exact ⟨start,stop,hstart,hstop,hfits⟩

/-- A window throws, fits or is rejected, and what is read of it says which. -/
theorem appendWindow_cases (out : Allowlistentry) (wv : Value ρ) :
    (appendWindow D out wv = .error .threw ∧ WindowThrows D wv ∧ ¬ WindowFits D wv) ∨
    (∃ out', appendWindow D out wv = .ok out' ∧ ¬ WindowThrows D wv ∧ WindowFits D wv) ∨
    ∃ error, appendWindow D out wv = .error (.rejected error) ∧ ¬ WindowThrows D wv ∧
      ¬ WindowFits D wv := by
  rw [appendWindow_eq, WindowThrows, WindowFits]
  cases hstart : windowNumber D wv "startMinute" with
  | none => simp [MinutesFit, hstart]
  | some start =>
    cases hstop : windowNumber D wv "endMinute" with
    | none => simp [MinutesFit, hstop]
    | some stop =>
      rw [minutesFit_iff hstart hstop]
      by_cases hrange : 1439#32 < start ∨ 1439#32 < stop
      · simp [hrange]
      · cases windowNumber D wv "daysMask" with
        | none => simp [hrange]
        | some mask => simp [hrange]

theorem appendWindow_eq_threw_iff (out : Allowlistentry) (wv : Value ρ) :
    appendWindow D out wv = .error .threw ↔ WindowThrows D wv := by
  rcases appendWindow_cases (D:=D) out wv with ⟨h,hthrows,_⟩ | ⟨out',h,hthrows,_⟩ |
    ⟨error,h,hthrows,_⟩
  · exact iff_of_true h hthrows
  · exact iff_of_false (by simp [h]) hthrows
  · exact iff_of_false (by simp [h]) hthrows

theorem appendWindow_isOk_iff (out : Allowlistentry) (wv : Value ρ) :
    (∃ out', appendWindow D out wv = .ok out') ↔ WindowFits D wv := by
  rcases appendWindow_cases (D:=D) out wv with ⟨h,_,hfits⟩ | ⟨out',h,_,hfits⟩ | ⟨error,h,_,hfits⟩
  · exact iff_of_false (by simp [h]) hfits
  · exact iff_of_true ⟨out',h⟩ hfits
  · exact iff_of_false (by simp [h]) hfits

theorem readText_eq_threw_iff (key : String) :
    readText D (.object members) key = .error .threw ↔
      Inconvertible members key (Value.asString D) := by
  unfold readText Inconvertible
  simp only [Value.get, Value.find, orThrow_eq_error, and_true]
  cases members.lookup key with
  | none => simp [Value.asString]
  | some x => simp

theorem readText_isOk_iff (key : String) :
    (∃ text, readText D (.object members) key = .ok text) ↔
      ¬ Inconvertible members key (Value.asString D) := by
  rw [← readText_eq_threw_iff]
  exact orThrow_isOk_iff

theorem readSeconds_eq (key : String) (current : Option ℤ) :
    readSeconds D (.object members) key current =
      orThrow (match members.lookup key with
        | none => some current
        | some x => (x.asInt64 D).map fun ms => some (ms.toInt.tdiv 1000)) := by
  cases hlookup : members.lookup key with
  | none => exact readSeconds_of_absent D hlookup current
  | some x =>
    simp only [readSeconds, Value.isMember, Value.item, Value.find, hlookup]
    change (orThrow (x.asInt64 D) >>= fun ms => .ok (some (ms.toInt.tdiv 1000))) = _
    cases x.asInt64 D with
    | none => rfl
    | some ms => rfl

theorem readSeconds_eq_threw_iff (key : String) (current : Option ℤ) :
    readSeconds D (.object members) key current = .error .threw ↔
      Inconvertible members key (Value.asInt64 D) := by
  rw [readSeconds_eq, orThrow_eq_error, Inconvertible]
  cases members.lookup key with
  | none => simp
  | some x => simp

theorem readSeconds_isOk_iff (key : String) (current : Option ℤ) :
    (∃ ts, readSeconds D (.object members) key current = .ok ts) ↔
      ¬ Inconvertible members key (Value.asInt64 D) := by
  rw [← readSeconds_eq_threw_iff key current, readSeconds_eq]
  exact orThrow_isOk_iff

theorem readClasses_ne_threw (out : Allowlistentry) (wrongType : String) :
    readArray (.object members) "allowedClasses" wrongType (appendClass D) out ≠ .error .threw := by
  intro h
  obtain ⟨items,_,hfold⟩ := readArray_eq_threw_iff.mp h
  obtain ⟨before,cls,after,out',_,_,hcls⟩ := foldlM_eq_error_iff.mp hfold
  exact appendClass_ne_threw out' cls hcls

/-- Reading windows stops at the first that does not fit, and throws if it is one that throws. -/
theorem readWindows_eq_threw_iff (out : Allowlistentry) (wrongType : String) :
    readArray (.object members) "timeWindows" wrongType (appendWindow D) out = .error .threw ↔
      ∃ before wv after, members.lookup "timeWindows" = some (.array (before ++ wv :: after)) ∧
        (∀ w ∈ before, WindowFits D w) ∧ WindowThrows D wv := by
  rw [readArray_eq_threw_iff]
  constructor
  · rintro ⟨items,hlookup,hfold⟩
    obtain ⟨before,wv,after,out',rfl,hbefore,hwv⟩ := foldlM_eq_error_iff.mp hfold
    have hfits := (foldlM_isOk_iff appendWindow_isOk_iff out before).mp ⟨out',hbefore⟩
    exact ⟨before,wv,after,hlookup,hfits,(appendWindow_eq_threw_iff out' wv).mp hwv⟩
  · rintro ⟨before,wv,after,hlookup,hfits,hthrows⟩
    obtain ⟨out',hbefore⟩ := (foldlM_isOk_iff appendWindow_isOk_iff out before).mpr hfits
    exact ⟨_,hlookup,foldlM_eq_error_iff.mpr ⟨before,wv,after,out',rfl,hbefore,
      (appendWindow_eq_threw_iff out' wv).mpr hthrows⟩⟩

/-- Which entries throw, whatever they are read into. -/
theorem fromJson_eq_threw_iff (v : Value ρ) (out : Allowlistentry) :
    allowlistEntryFromJson D v out = .error .threw ↔ EntryThrows D v := by
  cases v with
  | object members =>
    -- reader by reader, in the order of the source
    have hentry : allowlistEntryFromJson D (.object members) out = .error .threw ↔ _ :=
      bind_eq_error_iff (iff_false_intro (readPlate_ne_threw _)) readPlate_isOk_iff fun _ =>
      bind_eq_error_iff (iff_false_intro (readClasses_ne_threw _ _))
        (readArray_isOk_iff appendClass_isOk_iff) fun _ =>
      bind_eq_error_iff (readWindows_eq_threw_iff _ _)
        (readArray_isOk_iff appendWindow_isOk_iff) fun _ =>
      bind_eq_error_iff_or (readText_eq_threw_iff "ownerName") (readText_isOk_iff _) fun _ =>
      bind_eq_error_iff_or (readText_eq_threw_iff "ownerUnit") (readText_isOk_iff _) fun _ =>
      bind_eq_error_iff_or (readText_eq_threw_iff "notes") (readText_isOk_iff _) fun _ =>
      bind_eq_error_iff_or (readSeconds_eq_threw_iff "validFromMs" _)
        (readSeconds_isOk_iff _ _) fun _ =>
      bind_eq_error_iff_or (R:=False) (readSeconds_eq_threw_iff "validUntilMs" _)
        (readSeconds_isOk_iff _ _) fun _ => by simp
    rw [hentry]
    simp only [false_or, or_false]
    constructor
    · intro h
      exact ⟨members,rfl,h⟩
    · rintro ⟨members',hmembers,h⟩
      cases hmembers
      exact h
  | _ =>
    constructor
    · intro h
      cases h
    · rintro ⟨members,hmembers,_⟩
      cases hmembers

theorem appendEntry_eq_threw_iff (entries : List Allowlistentry) (ev : Value ρ) :
    appendEntry D entries ev = .error .threw ↔ EntryThrows D ev := by
  unfold appendEntry
  rw [bind_eq_error, fromJson_eq_threw_iff]
  simp

theorem appendEntry_isOk_iff (entries : List Allowlistentry) (ev : Value ρ) :
    (∃ entries', appendEntry D entries ev = .ok entries') ↔ EntryAccepted D ev := by
  unfold appendEntry EntryAccepted
  constructor
  · rintro ⟨entries',h⟩
    obtain ⟨e,he,_⟩ := bind_eq_ok.mp h
    exact ⟨e,he⟩
  · rintro ⟨e,he⟩
    exact ⟨entries ++ [e],bind_eq_ok.mpr ⟨e,he,rfl⟩⟩

/-- The three ways through the body. -/
theorem readEntries_eq (body : Value ρ) :
    readEntries D body =
      match body.find "entries" with
      | none => .error .threw
      | some none => appendEntry D [] body
      | some (some (.array (ev :: evs))) => (ev :: evs).foldlM (appendEntry D) []
      | some (some _) => .error (.rejected "'entries' must be a non-empty array") := by
  unfold readEntries Value.isMember Value.item
  cases body.find "entries" with
  | none => rfl
  | some member =>
    cases member with
    | none => rfl
    | some x =>
      cases x with
      | array items =>
        cases items with
        | nil => rfl
        | cons ev evs => rfl
      | _ => rfl

theorem readEntries_eq_threw_iff (body : Value ρ) :
    readEntries D body = .error .threw ↔ BodyThrows D body := by
  rw [readEntries_eq, BodyThrows]
  cases body.find "entries" with
  | none => simp
  | some member =>
    cases member with
    | none => simp [appendEntry_eq_threw_iff]
    | some x =>
      cases x with
      | array items =>
        cases items with
        | nil => simp
        | cons ev evs =>
          dsimp only
          rw [foldlM_eq_error_iff]
          constructor
          · rintro ⟨before,ev',after,entries,hitems,hbefore,hev⟩
            have haccepted := (foldlM_isOk_iff appendEntry_isOk_iff [] before).mp ⟨entries,hbefore⟩
            exact Or.inr (Or.inr ⟨before,ev',after,by rw [hitems],haccepted,
              (appendEntry_eq_threw_iff entries ev').mp hev⟩)
          · rintro (h | ⟨h,_⟩ | ⟨before,ev',after,hitems,haccepted,hthrows⟩)
            · cases h
            · cases h
            · obtain ⟨entries,hbefore⟩ :=
                (foldlM_isOk_iff appendEntry_isOk_iff [] before).mpr haccepted
              injection hitems with hitems
              injection hitems with hitems
              injection hitems with hitems
              exact ⟨before,ev',after,entries,hitems,hbefore,
                (appendEntry_eq_threw_iff entries ev').mpr hthrows⟩
      | _ => simp

end Throws

/-! ### Reasons -/

/-- A rejection says why. -/
def Reasoned {α : Type} (x : Except Failure α) : Prop :=
  ∀ error, x = .error (.rejected error) → error ≠ ""

section Reasons
variable {ρ α β : Type}

theorem Reasoned.ok (a : α) : Reasoned (.ok a) := by
  intro error h
  cases h

theorem Reasoned.reject {error : String} (h : error ≠ "") :
    Reasoned (.error (.rejected error) : Except Failure α) := by
  intro error' heq
  cases heq
  exact h

theorem Reasoned.orThrow (x : Option α) : Reasoned (orThrow x) := by
  intro error h
  cases x with
  | none => cases h
  | some a => cases h

theorem Reasoned.bind {x : Except Failure α} {f : α → Except Failure β} (hx : Reasoned x)
    (hf : ∀ a, Reasoned (f a)) : Reasoned (x >>= f) := by
  intro error h
  rcases bind_eq_error.mp h with h | ⟨a,_,h⟩
  · exact hx error h
  · exact hf a error h

theorem Reasoned.foldlM {f : β → α → Except Failure β} (hf : ∀ b a, Reasoned (f b a)) (b : β)
    (as : List α) : Reasoned (as.foldlM f b) := by
  intro error h
  obtain ⟨before,a,after,b',_,_,ha⟩ := foldlM_eq_error_iff.mp h
  exact hf b' a error ha

theorem Reasoned.readArray {v : Value ρ} {key wrongType : String}
    {append : Allowlistentry → Value ρ → Except Failure Allowlistentry} (hwrong : wrongType ≠ "")
    (happend : ∀ out x, Reasoned (append out x)) (out : Allowlistentry) :
    Reasoned (readArray v key wrongType append out) := by
  refine Reasoned.bind (.orThrow _) fun member => ?_
  split
  · refine Reasoned.bind (.orThrow _) fun x => ?_
    split
    · exact Reasoned.foldlM happend _ _
    · exact Reasoned.reject hwrong
  · exact Reasoned.ok _

variable (D : Doubles ρ)

theorem reasoned_readPlate (v : Value ρ) : Reasoned (readPlate D v) := by
  have hrequired : Reasoned (.error plateRequired : Except Failure Text) :=
    Reasoned.reject (by decide)
  unfold readPlate
  split
  · exact hrequired
  · refine Reasoned.bind (.orThrow _) fun plate => ?_
    split
    · exact hrequired
    · refine Reasoned.bind (.orThrow _) fun text => ?_
      split
      · exact hrequired
      · exact Reasoned.ok _

theorem reasoned_appendClass (out : Allowlistentry) (cls : Value ρ) :
    Reasoned (appendClass D out cls) := by
  unfold appendClass
  split
  · exact Reasoned.reject (by decide)
  · refine Reasoned.bind (.orThrow _) fun name => ?_
    split
    · exact Reasoned.reject (by decide)
    · exact Reasoned.ok _

theorem reasoned_appendWindow (out : Allowlistentry) (wv : Value ρ) :
    Reasoned (appendWindow D out wv) := by
  refine Reasoned.bind (.orThrow _) fun start => Reasoned.bind (.orThrow _) fun stop => ?_
  split
  · exact Reasoned.reject (by decide)
  · exact Reasoned.bind (.orThrow _) fun mask => Reasoned.ok _

theorem reasoned_readSeconds (v : Value ρ) (key : String) (current : Option ℤ) :
    Reasoned (readSeconds D v key current) := by
  refine Reasoned.bind (.orThrow _) fun member => ?_
  split
  · exact Reasoned.bind (.orThrow _) fun ms => Reasoned.ok _
  · exact Reasoned.ok _

theorem reasoned_fromJson (v : Value ρ) (out : Allowlistentry) :
    Reasoned (allowlistEntryFromJson D v out) :=
  Reasoned.bind (reasoned_readPlate D v) fun _ =>
  Reasoned.bind (Reasoned.readArray (by decide) (reasoned_appendClass D) _) fun _ =>
  Reasoned.bind (Reasoned.readArray (by decide) (reasoned_appendWindow D) _) fun _ =>
  Reasoned.bind (.orThrow _) fun _ => Reasoned.bind (.orThrow _) fun _ =>
  Reasoned.bind (.orThrow _) fun _ =>
  Reasoned.bind (reasoned_readSeconds D v _ _) fun _ =>
  Reasoned.bind (reasoned_readSeconds D v _ _) fun _ => Reasoned.ok _

theorem reasoned_appendEntry (entries : List Allowlistentry) (ev : Value ρ) :
    Reasoned (appendEntry D entries ev) :=
  Reasoned.bind (reasoned_fromJson D ev _) fun _ => Reasoned.ok _

theorem reasoned_readEntries (body : Value ρ) : Reasoned (readEntries D body) := by
  refine Reasoned.bind (.orThrow _) fun member => ?_
  split
  · refine Reasoned.bind (.orThrow _) fun x => ?_
    split
    · exact Reasoned.foldlM (reasoned_appendEntry D) _ _
    · exact Reasoned.reject (by decide)
  · exact reasoned_appendEntry D _ _

end Reasons

/-! ### What the handler does -/

section Outcome
variable {ρ : Type} (D : Doubles ρ)

/-- The values that are entries of the body: those of the batch, or the body itself. -/
def entriesOf (body : Value ρ) : List (Value ρ) :=
  match body.find "entries" with
  | some (some (.array items)) => items
  | some none => [body]
  | _ => []

/-- Every entry is accepted and one request with these entries is sent; or the reply is 400 with
a reason, and nothing is sent. -/
def Settles (b : GrpcBridge) (body : Option (Value ρ)) (h : Handled) : Prop :=
  (∃ v entries, body = some v ∧ entries ≠ [] ∧
    List.Forall₂ (fun ev e => allowlistEntryFromJson D ev { plateText := [] } = .ok e)
      (entriesOf v) entries ∧
    h.sent = [b.stamp { entries := entries }] ∧ h.reply ≠ none) ∨
  ∃ reason, reason ≠ "" ∧ h.reply = some (.jsonError 400 reason) ∧ h.sent = []

variable {D}

theorem appendEntry_ok {entries entries' : List Allowlistentry} {ev : Value ρ}
    (h : appendEntry D entries ev = .ok entries') :
    ∃ e, allowlistEntryFromJson D ev { plateText := [] } = .ok e ∧ entries' = entries ++ [e] := by
  obtain ⟨e,he,h⟩ := bind_eq_ok.mp h
  cases h
  exact ⟨e,he,rfl⟩

theorem foldlM_appendEntry_ok {evs : List (Value ρ)} {entries entries' : List Allowlistentry}
    (h : evs.foldlM (appendEntry D) entries = .ok entries') :
    ∃ es, entries' = entries ++ es ∧
      List.Forall₂ (fun ev e => allowlistEntryFromJson D ev { plateText := [] } = .ok e) evs es := by
  induction evs generalizing entries with
  | nil =>
    cases h
    exact ⟨[],(List.append_nil _).symm,.nil⟩
  | cons ev evs ih =>
    rw [List.foldlM_cons] at h
    obtain ⟨entries₁,hfirst,hrest⟩ := bind_eq_ok.mp h
    obtain ⟨e,he,rfl⟩ := appendEntry_ok hfirst
    obtain ⟨es,rfl,hes⟩ := ih hrest
    exact ⟨e :: es,by simp,.cons he hes⟩

theorem readEntries_ok {body : Value ρ} {entries : List Allowlistentry}
    (h : readEntries D body = .ok entries) :
    entries ≠ [] ∧ List.Forall₂
      (fun ev e => allowlistEntryFromJson D ev { plateText := [] } = .ok e)
      (entriesOf body) entries := by
  rw [readEntries_eq] at h
  unfold entriesOf
  cases hfind : body.find "entries" with
  | none =>
    rw [hfind] at h
    cases h
  | some member =>
    rw [hfind] at h
    cases member with
    | none =>
      obtain ⟨e,he,rfl⟩ := appendEntry_ok h
      exact ⟨List.cons_ne_nil _ _,.cons he .nil⟩
    | some x =>
      cases x with
      | array items =>
        cases items with
        | nil => cases h
        | cons ev evs =>
          obtain ⟨es,rfl,hes⟩ := foldlM_appendEntry_ok h
          refine ⟨?_,hes⟩
          cases hes with
          | cons _ _ => exact List.cons_ne_nil _ _
      | _ => cases h

/-- Every body is settled but those that throw. -/
theorem upsert_settles_iff (D : Doubles ρ) (b : GrpcBridge) (body : Option (Value ρ)) :
    Settles D b body (upsert D b body) ↔ ∀ v, body = some v → ¬ BodyThrows D v := by
  cases body with
  | none =>
    refine iff_of_true (Or.inr ⟨"body must be JSON",by decide,rfl,rfl⟩) ?_
    intro v hv
    cases hv
  | some v =>
    have hthrows : (∀ v', some v = some v' → ¬ BodyThrows D v') ↔
        readEntries D v ≠ .error .threw := by
      rw [ne_eq, readEntries_eq_threw_iff]
      constructor
      · intro h
        exact h v rfl
      · rintro h v' hv
        cases hv
        exact h
    rw [hthrows]
    unfold upsert
    dsimp only
    cases hread : readEntries D v with
    | ok entries =>
      obtain ⟨hne,haccepted⟩ := readEntries_ok hread
      exact iff_of_true (Or.inl ⟨v,entries,rfl,hne,haccepted,rfl,Option.some_ne_none _⟩) (by simp)
    | error failure =>
      cases failure with
      | threw =>
        refine iff_of_false ?_ (fun h => h rfl)
        rintro (⟨_,_,_,_,_,_,hreply⟩ | ⟨_,_,hreply,_⟩)
        · exact hreply rfl
        · cases hreply
      | rejected error =>
        have hreason := reasoned_readEntries D v error hread
        exact iff_of_true (Or.inr ⟨error,hreason,rfl,rfl⟩) (by simp)

/-- Bodies that make the handler throw: an array; a window that is a number; a start minute that
is a text; an owner that is an array. -/
theorem upsert_throws_on_malformed_bodies :
    let D : Doubles Empty := ⟨Empty.elim,Empty.elim,Empty.elim⟩
    let b : GrpcBridge := ⟨ascii "site",ascii "dash",0,fun _ => { code := .ok }⟩
    let plate : String × Value Empty := ("plate",.string (ascii "KDA123X"))
    let array : Value Empty := .array [.int 1]
    let window : Value Empty := .object [plate, ("timeWindows",.array [.int 1])]
    let minute : Value Empty := .object [plate,
      ("timeWindows",.array [.object [("startMinute",.string (ascii "x"))]])]
    let owner : Value Empty := .object [plate, ("ownerName",.array [])]
    ((upsert D b (some array)).reply = none ∧ ¬ Settles D b (some array) (upsert D b (some array))) ∧
    ((upsert D b (some window)).reply = none ∧
      ¬ Settles D b (some window) (upsert D b (some window))) ∧
    ((upsert D b (some minute)).reply = none ∧
      ¬ Settles D b (some minute) (upsert D b (some minute))) ∧
    (upsert D b (some owner)).reply = none ∧
      ¬ Settles D b (some owner) (upsert D b (some owner)) := by
  intro D b plate array window minute owner
  have hunsettled : ∀ {body : Option (Value Empty)}, (upsert D b body).reply = none →
      ¬ Settles D b body (upsert D b body) := by
    rintro body hnone (⟨_,_,_,_,_,_,hreply⟩ | ⟨_,_,hreply,_⟩)
    · exact hreply hnone
    · cases hnone.symm.trans hreply
  have harray : (upsert D b (some array)).reply = none := rfl
  have hwindow : (upsert D b (some window)).reply = none := rfl
  have hminute : (upsert D b (some minute)).reply = none := rfl
  have howner : (upsert D b (some owner)).reply = none := rfl
  exact ⟨⟨harray,hunsettled harray⟩,⟨hwindow,hunsettled hwindow⟩,⟨hminute,hunsettled hminute⟩,
    howner,hunsettled howner⟩

end Outcome

end AlprGate.DashApi
