import AlprGate.Library.ProtoWire

/-! # A command on the wire and in the firmware

The server holds a `GateCommand` with texts of any length, numbers of any value and the fields it
does not know. The firmware decodes the same message into arrays of the sizes in
`gate_service.options`, and a field that does not fit fails the whole envelope.
-/
namespace AlprGate.Wire
open ProtoWire

/-! ### Timestamps and durations -/

structure DecodedSpan where
  seconds : BitVec 64 := 0
  nanos : BitVec 32 := 0
  deriving DecidableEq, Repr

/-- `Timestamp` and `Duration` have the same two fields. -/
def spanSchema : Schema DecodedSpan where
  declared
    | 1 | 2 => some 0
    | _ => none
  store t
    | 1, .varint n => some { t with seconds := BitVec.ofNat 64 n }
    | 2, .varint n => some { t with nanos := BitVec.ofNat 32 n }
    | _, _ => none

structure TimeSpan where
  seconds : BitVec 64 := 0
  nanos : BitVec 32 := 0
  unknown : List Field := []
  unknown_ok : ∀ f ∈ unknown, spanSchema.Unknown f := by simp
  deriving DecidableEq, Repr

namespace TimeSpan

def known (t : TimeSpan) : List Field := varintField 1 t.seconds.toNat ++ varintField 2 (int32 t.nanos)

def fields (t : TimeSpan) : List Field := t.known ++ t.unknown

def received (t : TimeSpan) : Option DecodedSpan :=
  if ∀ f ∈ t.unknown, spanSchema.Skipped f then some ⟨t.seconds,t.nanos⟩ else none

theorem simple_known (t : TimeSpan) : ∀ f ∈ t.known, f.Simple :=
  List.forall_mem_append.mpr
    ⟨simple_varintField (by decide) (by decide) t.seconds.isLt,
      simple_varintField (by decide) (by decide) (int32_lt t.nanos)⟩

theorem foldlM_known (t : TimeSpan) :
    t.known.foldlM spanSchema.decodeField {} = some ⟨t.seconds,t.nanos⟩ := by
  have hseconds : (varintField 1 t.seconds.toNat).foldlM spanSchema.decodeField {} =
      some { seconds := t.seconds } := by
    refine Schema.foldlM_ite (fun hzero => ?_) ?_
    · have hdefault : t.seconds = 0 := BitVec.eq_of_toNat_eq hzero
      rw [hdefault]
    · change some (⟨BitVec.ofNat 64 t.seconds.toNat,0⟩ : DecodedSpan) = _
      rw [BitVec.ofNat_toNat, BitVec.setWidth_eq]
  have hnanos : (varintField 2 (int32 t.nanos)).foldlM spanSchema.decodeField { seconds := t.seconds } =
      some ⟨t.seconds,t.nanos⟩ := by
    refine Schema.foldlM_ite (fun hzero => ?_) ?_
    · rw [int32_eq_zero hzero]
    · change some (⟨t.seconds,BitVec.ofNat 32 (int32 t.nanos)⟩ : DecodedSpan) = _
      rw [ofNat_int32]
  rw [known, List.foldlM_append, hseconds]
  exact hnanos

theorem decode_fields {t : TimeSpan} (h : (encodeFields t.fields).length < 2 ^ 64) :
    spanSchema.decode {} (encodeFields t.fields) = t.received := by
  have hvalid : ∀ f ∈ t.known, f.Valid := fun f hf =>
    (t.simple_known f hf).valid (List.mem_append_left _ hf) h
  rw [fields, Schema.decode_encodeFields hvalid (fun f hf => (t.simple_known f hf).plain) t.unknown_ok,
    foldlM_known]
  rfl

end TimeSpan

/-! ### The command -/

/-- The content of an array that holds at most `cap` bytes. -/
def Bounded (cap : ℕ) : Type := { content : List UInt8 // content.length ≤ cap }

instance (cap : ℕ) : DecidableEq (Bounded cap) := inferInstanceAs (DecidableEq { _content // _ })

def bounded (cap : ℕ) (content : List UInt8) : Option (Bounded cap) :=
  if h : content.length ≤ cap then some ⟨content,h⟩ else none

def Bounded.empty {cap : ℕ} : Bounded cap := ⟨[],Nat.zero_le cap⟩

/-- A number that does not fit is an error. -/
def narrow (n : ℕ) : Option (BitVec 32) := if n < 2 ^ 32 then some (BitVec.ofNat 32 n) else none

/-- The generated structure. A text keeps one byte of its array for the terminator. -/
structure DecodedCommand where
  commandId : Bounded 39 := .empty
  issuedTs : Option DecodedSpan := none
  gateId : Bounded 31 := .empty
  kind : BitVec 32 := 0
  duration : Option DecodedSpan := none
  ledPattern : BitVec 32 := 0
  relayIndex : BitVec 32 := 0
  actor : Bounded 47 := .empty
  signature : Bounded 64 := .empty
  deriving DecidableEq

/-- The two enumerations are decoded as unsigned numbers. -/
def commandSchema : Schema DecodedCommand where
  declared
    | 1 | 2 | 3 | 5 | 8 | 9 => some 2
    | 4 | 6 | 7 => some 0
    | _ => none
  store d
    | 1, .bytes b => (bounded 39 b).map fun v => { d with commandId := v }
    | 2, .bytes b => (spanSchema.decode (d.issuedTs.getD {}) b).map fun t => { d with issuedTs := some t }
    | 3, .bytes b => (bounded 31 b).map fun v => { d with gateId := v }
    | 4, .varint n => (narrow n).map fun v => { d with kind := v }
    | 5, .bytes b => (spanSchema.decode (d.duration.getD {}) b).map fun t => { d with duration := some t }
    | 6, .varint n => (narrow n).map fun v => { d with ledPattern := v }
    | 7, .varint n => (narrow n).map fun v => { d with relayIndex := v }
    | 8, .bytes b => (bounded 47 b).map fun v => { d with actor := v }
    | 9, .bytes b => (bounded 64 b).map fun v => { d with signature := v }
    | _, _ => none

structure GateCommand where
  commandId : List UInt8 := []
  issuedTs : Option TimeSpan := none
  gateId : List UInt8 := []
  kind : BitVec 32 := 0
  duration : Option TimeSpan := none
  ledPattern : BitVec 32 := 0
  relayIndex : BitVec 32 := 0
  actor : List UInt8 := []
  signature : List UInt8 := []
  unknown : List Field := []
  unknown_ok : ∀ f ∈ unknown, commandSchema.Unknown f := by simp
  deriving DecidableEq, Repr

/-- An optional message that is decoded if it is there. -/
def receivedSpan : Option TimeSpan → Option (Option DecodedSpan)
  | none => some none
  | some t => t.received.map some

/-- An enumerator is decoded unless it is negative. -/
def enumerator (v : BitVec 32) : Option (BitVec 32) := if v.msb = true then none else some v

namespace GateCommand

/-- The declared fields in the order in which they are written. -/
def known (c : GateCommand) : List Field :=
  bytesField 1 c.commandId ++ messageField 2 (c.issuedTs.map TimeSpan.fields) ++
    bytesField 3 c.gateId ++ varintField 4 (int32 c.kind) ++
    messageField 5 (c.duration.map TimeSpan.fields) ++ varintField 6 (int32 c.ledPattern) ++
    varintField 7 c.relayIndex.toNat ++ bytesField 8 c.actor ++ bytesField 9 c.signature

def fields (c : GateCommand) : List Field := c.known ++ c.unknown

/-- The envelope that the writer of the control stream sends. -/
def envelope (c : GateCommand) : List UInt8 := encodeFields [⟨4,.bytes (encodeFields c.fields)⟩]

/-- What the firmware gets of the declared fields, field by field. -/
def received (c : GateCommand) : Option DecodedCommand := do
  let commandId ← bounded 39 c.commandId
  let issuedTs ← receivedSpan c.issuedTs
  let gateId ← bounded 31 c.gateId
  let kind ← enumerator c.kind
  let duration ← receivedSpan c.duration
  let ledPattern ← enumerator c.ledPattern
  let actor ← bounded 47 c.actor
  let signature ← bounded 64 c.signature
  return ⟨commandId,issuedTs,gateId,kind,duration,ledPattern,c.relayIndex,actor,signature⟩

theorem simple_known (c : GateCommand) : ∀ f ∈ c.known, f.Simple := by
  have hrelay : c.relayIndex.toNat < 2 ^ 64 := c.relayIndex.isLt.trans (by decide)
  simp only [known, List.forall_mem_append]
  exact ⟨⟨⟨⟨⟨⟨⟨⟨simple_bytesField (by decide) (by decide) _,
    simple_messageField (by decide) (by decide) _⟩,
    simple_bytesField (by decide) (by decide) _⟩,
    simple_varintField (by decide) (by decide) (int32_lt c.kind)⟩,
    simple_messageField (by decide) (by decide) _⟩,
    simple_varintField (by decide) (by decide) (int32_lt c.ledPattern)⟩,
    simple_varintField (by decide) (by decide) hrelay⟩,
    simple_bytesField (by decide) (by decide) _⟩,
    simple_bytesField (by decide) (by decide) _⟩

end GateCommand

/-! ### Field by field -/

section Segments
variable {d : DecodedCommand}

theorem narrow_int32 (v : BitVec 32) : narrow (int32 v) = enumerator v := by
  unfold narrow enumerator
  cases hsign : v.msb with
  | true =>
    have hbig : ¬ int32 v < 2 ^ 32 := fun h => by
      rw [(int32_lt_iff v).mp h] at hsign
      cases hsign
    rw [if_neg hbig, if_pos rfl]
  | false =>
    rw [if_pos ((int32_lt_iff v).mpr hsign), ofNat_int32]
    rfl

theorem narrow_toNat (v : BitVec 32) : narrow v.toNat = some v := by
  unfold narrow
  rw [if_pos v.isLt, BitVec.ofNat_toNat, BitVec.setWidth_eq]

/-- A text or bytes. The array is empty before. -/
theorem foldlM_bytesField {number cap : ℕ} {content : List UInt8}
    {set : Bounded cap → DecodedCommand}
    (hstore : commandSchema.decodeField d ⟨number,.bytes content⟩ = (bounded cap content).map set)
    (hempty : d = set .empty) :
    (bytesField number content).foldlM commandSchema.decodeField d = (bounded cap content).map set := by
  refine Schema.foldlM_ite (fun hnil => ?_) hstore
  rw [hnil, hempty]
  rfl

theorem foldlM_enumField {number : ℕ} {v : BitVec 32} {set : BitVec 32 → DecodedCommand}
    (hstore : ∀ n, commandSchema.decodeField d ⟨number,.varint n⟩ = (narrow n).map set)
    (hempty : d = set 0) :
    (varintField number (int32 v)).foldlM commandSchema.decodeField d = (enumerator v).map set := by
  refine Schema.foldlM_ite (fun hzero => ?_) ?_
  · rw [int32_eq_zero hzero, hempty]
    rfl
  · rw [hstore, narrow_int32]

theorem foldlM_messageField {number : ℕ} {span : Option TimeSpan}
    {set : Option DecodedSpan → DecodedCommand}
    (hstore : ∀ t ∈ span, commandSchema.decodeField d ⟨number,.bytes (encodeFields t.fields)⟩ =
      t.received.map fun v => set (some v)) (hempty : d = set none) :
    (messageField number (span.map TimeSpan.fields)).foldlM commandSchema.decodeField d =
      (receivedSpan span).map set := by
  cases span with
  | none =>
    rw [hempty]
    rfl
  | some t =>
    have hone := hstore t rfl
    refine (Option.bind_fun_some _).trans (hone.trans ?_)
    rw [receivedSpan, Option.map_map]
    rfl

end Segments

namespace GateCommand
variable (c : GateCommand)

/-- The messages inside are not too long to be valid. -/
theorem length_span_lt (h : (encodeFields c.fields).length < 2 ^ 64) (number : ℕ) {t : TimeSpan}
    (hmem : ⟨number,.bytes (encodeFields t.fields)⟩ ∈ c.known) :
    (encodeFields t.fields).length < 2 ^ 64 := by
  have hfield := length_encode_le (List.mem_append_left c.unknown hmem)
  have hcontent := length_content_le number (encodeFields t.fields)
  exact lt_of_le_of_lt (hcontent.trans hfield) h

theorem foldlM_known (h : (encodeFields c.fields).length < 2 ^ 64) :
    c.known.foldlM commandSchema.decodeField {} = c.received := by
  have hissued : ∀ t ∈ c.issuedTs, spanSchema.decode {} (encodeFields t.fields) = t.received := by
    intro t ht
    refine TimeSpan.decode_fields (c.length_span_lt h 2 ?_)
    simp [known, Option.mem_def.mp ht, messageField]
  have hduration : ∀ t ∈ c.duration, spanSchema.decode {} (encodeFields t.fields) = t.received := by
    intro t ht
    refine TimeSpan.decode_fields (c.length_span_lt h 5 ?_)
    simp [known, Option.mem_def.mp ht, messageField]
  -- each field is stored into a structure that holds the fields before it
  have h₁ : (bytesField 1 c.commandId).foldlM commandSchema.decodeField {} =
      (bounded 39 c.commandId).map fun v => { commandId := v } := foldlM_bytesField rfl rfl
  have h₂ : ∀ v₁, (messageField 2 (c.issuedTs.map TimeSpan.fields)).foldlM
      commandSchema.decodeField { commandId := v₁ } =
        (receivedSpan c.issuedTs).map fun v => ⟨v₁,v,.empty,0,none,0,0,.empty,.empty⟩ := by
    intro v₁
    refine foldlM_messageField (fun t ht => ?_) rfl
    rw [← hissued t ht]
    rfl
  have h₃ : ∀ v₁ v₂, (bytesField 3 c.gateId).foldlM commandSchema.decodeField
      ⟨v₁,v₂,.empty,0,none,0,0,.empty,.empty⟩ =
        (bounded 31 c.gateId).map fun v => ⟨v₁,v₂,v,0,none,0,0,.empty,.empty⟩ :=
    fun v₁ v₂ => foldlM_bytesField rfl rfl
  have h₄ : ∀ v₁ v₂ v₃, (varintField 4 (int32 c.kind)).foldlM commandSchema.decodeField
      ⟨v₁,v₂,v₃,0,none,0,0,.empty,.empty⟩ =
        (enumerator c.kind).map fun v => ⟨v₁,v₂,v₃,v,none,0,0,.empty,.empty⟩ :=
    fun v₁ v₂ v₃ => foldlM_enumField (fun v => rfl) rfl
  have h₅ : ∀ v₁ v₂ v₃ v₄, (messageField 5 (c.duration.map TimeSpan.fields)).foldlM
      commandSchema.decodeField ⟨v₁,v₂,v₃,v₄,none,0,0,.empty,.empty⟩ =
        (receivedSpan c.duration).map fun v => ⟨v₁,v₂,v₃,v₄,v,0,0,.empty,.empty⟩ := by
    intro v₁ v₂ v₃ v₄
    refine foldlM_messageField (fun t ht => ?_) rfl
    rw [← hduration t ht]
    rfl
  have h₆ : ∀ v₁ v₂ v₃ v₄ v₅, (varintField 6 (int32 c.ledPattern)).foldlM
      commandSchema.decodeField ⟨v₁,v₂,v₃,v₄,v₅,0,0,.empty,.empty⟩ =
        (enumerator c.ledPattern).map fun v => ⟨v₁,v₂,v₃,v₄,v₅,v,0,.empty,.empty⟩ :=
    fun v₁ v₂ v₃ v₄ v₅ => foldlM_enumField (fun v => rfl) rfl
  have h₇ : ∀ v₁ v₂ v₃ v₄ v₅ v₆, (varintField 7 c.relayIndex.toNat).foldlM
      commandSchema.decodeField ⟨v₁,v₂,v₃,v₄,v₅,v₆,0,.empty,.empty⟩ =
        (some c.relayIndex).map fun v => ⟨v₁,v₂,v₃,v₄,v₅,v₆,v,.empty,.empty⟩ := by
    intro v₁ v₂ v₃ v₄ v₅ v₆
    refine Schema.foldlM_ite (fun hzero => ?_) ?_
    · have hdefault : c.relayIndex = 0 := BitVec.eq_of_toNat_eq hzero
      rw [hdefault]
      rfl
    · change (narrow c.relayIndex.toNat).map _ = _
      rw [narrow_toNat]
  have h₈ : ∀ v₁ v₂ v₃ v₄ v₅ v₆ v₇, (bytesField 8 c.actor).foldlM commandSchema.decodeField
      ⟨v₁,v₂,v₃,v₄,v₅,v₆,v₇,.empty,.empty⟩ =
        (bounded 47 c.actor).map fun v => ⟨v₁,v₂,v₃,v₄,v₅,v₆,v₇,v,.empty⟩ :=
    fun v₁ v₂ v₃ v₄ v₅ v₆ v₇ => foldlM_bytesField rfl rfl
  have h₉ : ∀ v₁ v₂ v₃ v₄ v₅ v₆ v₇ v₈, (bytesField 9 c.signature).foldlM
      commandSchema.decodeField ⟨v₁,v₂,v₃,v₄,v₅,v₆,v₇,v₈,.empty⟩ =
        (bounded 64 c.signature).map fun v => ⟨v₁,v₂,v₃,v₄,v₅,v₆,v₇,v₈,v⟩ :=
    fun v₁ v₂ v₃ v₄ v₅ v₆ v₇ v₈ => foldlM_bytesField rfl rfl
  simp only [known, List.append_assoc]
  refine (Schema.foldlM_append_map h₁ _).trans (Option.bind_congr fun v₁ _ => ?_)
  refine (Schema.foldlM_append_map (h₂ v₁) _).trans (Option.bind_congr fun v₂ _ => ?_)
  refine (Schema.foldlM_append_map (h₃ v₁ v₂) _).trans (Option.bind_congr fun v₃ _ => ?_)
  refine (Schema.foldlM_append_map (h₄ v₁ v₂ v₃) _).trans (Option.bind_congr fun v₄ _ => ?_)
  refine (Schema.foldlM_append_map (h₅ v₁ v₂ v₃ v₄) _).trans (Option.bind_congr fun v₅ _ => ?_)
  refine (Schema.foldlM_append_map (h₆ v₁ v₂ v₃ v₄ v₅) _).trans (Option.bind_congr fun v₆ _ => ?_)
  refine (Schema.foldlM_append_map (h₇ v₁ v₂ v₃ v₄ v₅ v₆) _).trans ?_
  refine (Schema.foldlM_append_map (h₈ v₁ v₂ v₃ v₄ v₅ v₆ c.relayIndex) _).trans
    (Option.bind_congr fun v₈ _ => ?_)
  exact (h₉ v₁ v₂ v₃ v₄ v₅ v₆ c.relayIndex v₈).trans Option.map_eq_bind

/-- The firmware decodes the command, or it does not decode the envelope. -/
theorem decode_fields (h : (encodeFields c.fields).length < 2 ^ 64) :
    commandSchema.decode {} (encodeFields c.fields) =
      if ∀ f ∈ c.unknown, commandSchema.Skipped f then c.received else none := by
  have hvalid : ∀ f ∈ c.known, f.Valid := fun f hf =>
    (c.simple_known f hf).valid (List.mem_append_left _ hf) h
  rw [fields, Schema.decode_encodeFields hvalid (fun f hf => (c.simple_known f hf).plain) c.unknown_ok,
    c.foldlM_known h]

/-- Everything fits the generated structure. -/
structure Decodable (c : GateCommand) : Prop where
  commandId : c.commandId.length ≤ 39
  gateId : c.gateId.length ≤ 31
  actor : c.actor.length ≤ 47
  signature : c.signature.length ≤ 64
  kind : c.kind.msb = false
  ledPattern : c.ledPattern.msb = false
  issuedTs : ∀ t ∈ c.issuedTs, ∀ f ∈ t.unknown, spanSchema.Skipped f
  duration : ∀ t ∈ c.duration, ∀ f ∈ t.unknown, spanSchema.Skipped f
  unknown : ∀ f ∈ c.unknown, commandSchema.Skipped f

end GateCommand

def TimeSpan.decoded (t : TimeSpan) : DecodedSpan := ⟨t.seconds,t.nanos⟩

/-- The structure holds the declared fields of the command. -/
structure DecodedCommand.Carries (d : DecodedCommand) (c : GateCommand) : Prop where
  commandId : d.commandId.val = c.commandId
  issuedTs : d.issuedTs = c.issuedTs.map TimeSpan.decoded
  gateId : d.gateId.val = c.gateId
  kind : d.kind = c.kind
  duration : d.duration = c.duration.map TimeSpan.decoded
  ledPattern : d.ledPattern = c.ledPattern
  relayIndex : d.relayIndex = c.relayIndex
  actor : d.actor.val = c.actor
  signature : d.signature.val = c.signature

theorem bounded_of_le {cap : ℕ} {content : List UInt8} (h : content.length ≤ cap) :
    bounded cap content = some ⟨content,h⟩ := dif_pos h

theorem of_bounded {cap : ℕ} {content : List UInt8} {v : Bounded cap}
    (h : bounded cap content = some v) : content.length ≤ cap ∧ v.val = content := by
  unfold bounded at h
  split at h
  · cases h
    exact ⟨‹_›,rfl⟩
  · cases h

theorem enumerator_of_nonneg {v : BitVec 32} (h : v.msb = false) : enumerator v = some v := by
  simp [enumerator, h]

theorem of_enumerator {v w : BitVec 32} (h : enumerator v = some w) : v.msb = false ∧ w = v := by
  unfold enumerator at h
  split at h
  · cases h
  · rename_i hsign
    cases h
    exact ⟨Bool.eq_false_iff.mpr hsign,rfl⟩

theorem receivedSpan_of_skipped {span : Option TimeSpan}
    (h : ∀ t ∈ span, ∀ f ∈ t.unknown, spanSchema.Skipped f) :
    receivedSpan span = some (span.map TimeSpan.decoded) := by
  cases span with
  | none => rfl
  | some t =>
    rw [receivedSpan, TimeSpan.received, if_pos (h t rfl)]
    rfl

theorem of_receivedSpan {span : Option TimeSpan} {r : Option DecodedSpan}
    (h : receivedSpan span = some r) :
    (∀ t ∈ span, ∀ f ∈ t.unknown, spanSchema.Skipped f) ∧ r = span.map TimeSpan.decoded := by
  cases span with
  | none =>
    cases h
    exact ⟨nofun,rfl⟩
  | some t =>
    rw [receivedSpan, TimeSpan.received] at h
    split at h
    · rename_i hskipped
      cases h
      refine ⟨fun t' ht' => ?_,rfl⟩
      cases ht'
      exact hskipped
    · cases h

namespace GateCommand
variable {c : GateCommand}

theorem Decodable.received (h : c.Decodable) : ∃ d, c.received = some d ∧ d.Carries c := by
  refine ⟨⟨⟨c.commandId,h.commandId⟩,c.issuedTs.map TimeSpan.decoded,⟨c.gateId,h.gateId⟩,c.kind,
    c.duration.map TimeSpan.decoded,c.ledPattern,c.relayIndex,⟨c.actor,h.actor⟩,
    ⟨c.signature,h.signature⟩⟩,?_,⟨rfl,rfl,rfl,rfl,rfl,rfl,rfl,rfl,rfl⟩⟩
  rw [GateCommand.received, bounded_of_le h.commandId, receivedSpan_of_skipped h.issuedTs,
    bounded_of_le h.gateId, enumerator_of_nonneg h.kind, receivedSpan_of_skipped h.duration,
    enumerator_of_nonneg h.ledPattern, bounded_of_le h.actor, bounded_of_le h.signature]
  rfl

theorem decodable_of_received {d : DecodedCommand}
    (hunknown : ∀ f ∈ c.unknown, commandSchema.Skipped f) (h : c.received = some d) :
    c.Decodable := by
  obtain ⟨_,hid,h⟩ := Option.bind_eq_some_iff.mp h
  obtain ⟨_,hissued,h⟩ := Option.bind_eq_some_iff.mp h
  obtain ⟨_,hgate,h⟩ := Option.bind_eq_some_iff.mp h
  obtain ⟨_,hkind,h⟩ := Option.bind_eq_some_iff.mp h
  obtain ⟨_,hduration,h⟩ := Option.bind_eq_some_iff.mp h
  obtain ⟨_,hled,h⟩ := Option.bind_eq_some_iff.mp h
  obtain ⟨_,hactor,h⟩ := Option.bind_eq_some_iff.mp h
  obtain ⟨_,hsignature,-⟩ := Option.bind_eq_some_iff.mp h
  exact ⟨(of_bounded hid).1,(of_bounded hgate).1,(of_bounded hactor).1,(of_bounded hsignature).1,
    (of_enumerator hkind).1,(of_enumerator hled).1,(of_receivedSpan hissued).1,
    (of_receivedSpan hduration).1,hunknown⟩

end GateCommand

/-! ### The envelope -/

/-- The payloads that only the firmware sends are left undecoded. -/
inductive Payload where
  | notSet
  | other
  | command (c : DecodedCommand)
  deriving DecidableEq

def envelopeSchema : Schema Payload where
  declared
    | 1 | 2 | 3 | 4 => some 2
    | _ => none
  store _
    | 4, .bytes b => (commandSchema.decode {} b).map .command
    | _, _ => some .other

/-- The command that `handle_message` hands to `handle_command`. -/
def handleMessage (data : List UInt8) : Option DecodedCommand :=
  match envelopeSchema.decode .notSet data with
  | some (.command c) => some c
  | _ => none

namespace GateCommand
variable {c : GateCommand}

theorem length_fields_le (c : GateCommand) : (encodeFields c.fields).length ≤ c.envelope.length :=
  (length_content_le 4 _).trans (length_encode_le List.mem_cons_self)

theorem handleMessage_envelope (h : c.envelope.length < 2 ^ 64) :
    handleMessage c.envelope =
      if ∀ f ∈ c.unknown, commandSchema.Skipped f then c.received else none := by
  have hlength := lt_of_le_of_lt c.length_fields_le h
  have hvalid : ∀ f ∈ [⟨4,.bytes (encodeFields c.fields)⟩], Field.Valid f := by
    intro f hf
    rw [List.mem_singleton.mp hf]
    exact ⟨(by decide : 0 < 4),(by decide : 4 < 2 ^ 29),hlength⟩
  have hplain : ∀ f ∈ [⟨4,.bytes (encodeFields c.fields)⟩], Value.Plain (Field.value f) := by
    intro f hf
    rw [List.mem_singleton.mp hf]
    exact trivial
  have hdecode : envelopeSchema.decode .notSet c.envelope =
      (commandSchema.decode {} (encodeFields c.fields)).map .command := by
    have hfields : envelopeSchema.decode .notSet
        (encodeFields ([⟨4,.bytes (encodeFields c.fields)⟩] ++ [])) = _ :=
      Schema.decode_encodeFields hvalid hplain nofun
    have hstore : envelopeSchema.decodeField .notSet ⟨4,.bytes (encodeFields c.fields)⟩ =
        (commandSchema.decode {} (encodeFields c.fields)).map .command := by
      simp only [Schema.decodeField, envelopeSchema, Value.wireType, ↓reduceIte]
    rw [if_pos nofun, List.append_nil, List.foldlM_cons, hstore] at hfields
    exact hfields.trans (Option.bind_fun_some _)
  rw [handleMessage, hdecode, c.decode_fields hlength]
  generalize (if ∀ f ∈ c.unknown, commandSchema.Skipped f then c.received else none) = r
  cases r with
  | none => rfl
  | some d => rfl

/-- The command arrives as it was sent exactly when everything fits. -/
theorem handleMessage_iff (h : c.envelope.length < 2 ^ 64) :
    (∃ d, handleMessage c.envelope = some d ∧ d.Carries c) ↔ c.Decodable := by
  rw [handleMessage_envelope h]
  constructor
  · rintro ⟨d,hd,-⟩
    split at hd
    · exact decodable_of_received ‹_› hd
    · cases hd
  · intro hfits
    rw [if_pos hfits.unknown]
    exact hfits.received

/-- Without unknown fields a command that fits is far below the limits of a message. -/
theorem length_envelope_le (h : c.Decodable) (hunknown : c.unknown = [])
    (hissued : ∀ t ∈ c.issuedTs, t.unknown = []) (hduration : ∀ t ∈ c.duration, t.unknown = []) :
    c.envelope.length ≤ 1000 := by
  have hspan : ∀ t : TimeSpan, t.unknown = [] → (encodeFields t.fields).length ≤ 40 := by
    intro t ht
    have h₁ := length_varintField_le 1 t.seconds.toNat
    have h₂ := length_varintField_le 2 (int32 t.nanos)
    rw [TimeSpan.fields, ht, List.append_nil, TimeSpan.known, encodeFields_append, List.length_append]
    omega
  have hspans : ∀ span : Option TimeSpan, (∀ t ∈ span, t.unknown = []) →
      ∀ fs ∈ span.map TimeSpan.fields, (encodeFields fs).length ≤ 40 := by
    intro span hnone fs hfs
    obtain ⟨t,ht,rfl⟩ := Option.mem_map.mp hfs
    exact hspan t (hnone t ht)
  have h₁ := length_bytesField_le 1 c.commandId
  have h₂ := length_messageField_le 2 (hspans c.issuedTs hissued)
  have h₃ := length_bytesField_le 3 c.gateId
  have h₄ := length_varintField_le 4 (int32 c.kind)
  have h₅ := length_messageField_le 5 (hspans c.duration hduration)
  have h₆ := length_varintField_le 6 (int32 c.ledPattern)
  have h₇ := length_varintField_le 7 c.relayIndex.toNat
  have h₈ := length_bytesField_le 8 c.actor
  have h₉ := length_bytesField_le 9 c.signature
  have hfields : (encodeFields c.fields).length ≤ 441 := by
    have hid := h.commandId
    have hgate := h.gateId
    have hactor := h.actor
    have hsignature := h.signature
    rw [fields, hunknown, List.append_nil]
    simp only [known, encodeFields_append, List.length_append]
    omega
  have hone : ∀ fs ∈ some c.fields, (encodeFields fs).length ≤ 441 := by
    intro fs hfs
    cases hfs
    exact hfields
  have henvelope := length_messageField_le 4 hone
  change (encodeFields (messageField 4 (some c.fields))).length ≤ 1000
  omega

end GateCommand
end AlprGate.Wire
