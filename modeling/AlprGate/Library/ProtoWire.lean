import Mathlib.Data.UInt
import Mathlib.Tactic.Common

/-! # The protobuf wire format

A message is a list of fields, each a tag and a value. Numbers are written seven bits at a time,
least significant first. A reader that does not know groups refuses a message with one; any other
message it reads back field by field.
-/
namespace AlprGate.ProtoWire

/-! ### Numbers -/

/-- At most `fuel` groups of seven bits. -/
def groups : ℕ → ℕ → List UInt8
  | 0, _ => []
  | fuel + 1, n =>
    if n < 128 then [UInt8.ofNat n] else UInt8.ofNat (n % 128 + 128) :: groups fuel (n / 128)

def readGroups : ℕ → List UInt8 → Option (ℕ × List UInt8)
  | 0, _ => none
  | _ + 1, [] => none
  | fuel + 1, b :: rest =>
    if b.toNat < 128 then some (b.toNat, rest)
    else (readGroups fuel rest).map fun r => (b.toNat - 128 + 128 * r.1, r.2)

def varint (n : ℕ) : List UInt8 := groups 10 n

def readVarint (bs : List UInt8) : Option (ℕ × List UInt8) := readGroups 10 bs

theorem length_groups_le (fuel n : ℕ) : (groups fuel n).length ≤ fuel := by
  induction fuel generalizing n with
  | zero => exact le_rfl
  | succ fuel ih =>
    rw [groups]
    split
    · simp
    · have hrest := ih (n / 128)
      simp only [List.length_cons]
      omega

theorem toNat_ofNat_byte {n : ℕ} (h : n < 256) : (UInt8.ofNat n).toNat = n :=
  UInt8.toNat_ofNat_of_lt' h

theorem readGroups_groups (fuel : ℕ) {n : ℕ} (h : n < 128 ^ (fuel + 1)) (rest : List UInt8) :
    readGroups (fuel + 1) (groups (fuel + 1) n ++ rest) = some (n, rest) := by
  induction fuel generalizing n with
  | zero =>
    have hn : n < 128 := by simpa using h
    have hbyte : (UInt8.ofNat n).toNat = n := toNat_ofNat_byte (by omega)
    simp [groups, readGroups, hn, hbyte]
  | succ fuel ih =>
    by_cases hn : n < 128
    · have hbyte : (UInt8.ofNat n).toNat = n := toNat_ofNat_byte (by omega)
      simp [groups, readGroups, hn, hbyte]
    · have hbyte : (UInt8.ofNat (n % 128 + 128)).toNat = n % 128 + 128 :=
        toNat_ofNat_byte (by omega)
      have hquot : n / 128 < 128 ^ (fuel + 1) := by
        rw [Nat.div_lt_iff_lt_mul (by decide), ← Nat.pow_succ]
        exact h
      have hrest := ih hquot
      have hcons : groups (fuel + 2) n =
          UInt8.ofNat (n % 128 + 128) :: groups (fuel + 1) (n / 128) := by
        rw [groups, if_neg hn]
      have hbig : ¬ (UInt8.ofNat (n % 128 + 128)).toNat < 128 := by omega
      have hsplit : n % 128 + 128 - 128 + 128 * (n / 128) = n := by omega
      rw [hcons, List.cons_append, readGroups, if_neg hbig, hrest, hbyte, Option.map_some, hsplit]

theorem readVarint_varint {n : ℕ} (h : n < 2 ^ 64) (rest : List UInt8) :
    readVarint (varint n ++ rest) = some (n, rest) :=
  readGroups_groups 9 (h.trans (by decide)) rest

theorem length_varint_le (n : ℕ) : (varint n).length ≤ 10 := length_groups_le 10 n

theorem varint_ne_nil (n : ℕ) : varint n ≠ [] := by
  unfold varint
  rw [groups]
  split <;> simp

/-! ### Fields -/

/-- The value of a field by its wire type. A group is kept as it stands between its two tags. -/
inductive Value where
  | varint (n : ℕ)
  | fixed64 (content : List UInt8)
  | bytes (content : List UInt8)
  | group (content : List UInt8)
  | fixed32 (content : List UInt8)
  deriving DecidableEq, Repr

structure Field where
  number : ℕ
  value : Value
  deriving DecidableEq, Repr

def Value.wireType : Value → ℕ
  | .varint _ => 0
  | .fixed64 _ => 1
  | .bytes _ => 2
  | .group _ => 3
  | .fixed32 _ => 5

def Value.encode (number : ℕ) : Value → List UInt8
  | .varint n => ProtoWire.varint n
  | .fixed64 content => content
  | .bytes content => ProtoWire.varint content.length ++ content
  | .group content => content ++ ProtoWire.varint (8 * number + 4)
  | .fixed32 content => content

def Field.encode (f : Field) : List UInt8 :=
  varint (8 * f.number + f.value.wireType) ++ f.value.encode f.number

def encodeFields (fs : List Field) : List UInt8 := fs.flatMap Field.encode

/-- A value that its wire type can hold. -/
def Value.Valid : Value → Prop
  | .varint n => n < 2 ^ 64
  | .fixed64 content => content.length = 8
  | .bytes content => content.length < 2 ^ 64
  | .group _ => True
  | .fixed32 content => content.length = 4

structure Field.Valid (f : Field) : Prop where
  positive : 0 < f.number
  number : f.number < 2 ^ 29
  value : f.value.Valid

def Value.Plain : Value → Prop
  | .group _ => False
  | _ => True

instance : (v : Value) → Decidable v.Plain
  | .varint _ | .fixed64 _ | .bytes _ | .fixed32 _ => inferInstanceAs (Decidable True)
  | .group _ => inferInstanceAs (Decidable False)

/-! ### Reading -/

def readExactly (n : ℕ) (bs : List UInt8) : Option (List UInt8 × List UInt8) :=
  if bs.length < n then none else some (bs.take n, bs.drop n)

def readValue (wireType : ℕ) (bs : List UInt8) : Option (Value × List UInt8) :=
  match wireType with
  | 0 => (readVarint bs).map fun r => (.varint r.1, r.2)
  | 1 => (readExactly 8 bs).map fun r => (.fixed64 r.1, r.2)
  | 2 => (readVarint bs).bind fun r => (readExactly r.1 r.2).map fun q => (.bytes q.1, q.2)
  | 5 => (readExactly 4 bs).map fun r => (.fixed32 r.1, r.2)
  | _ => none

/-- A tag has thirty-two bits and no field has the number zero. -/
def readField (bs : List UInt8) : Option (Field × List UInt8) :=
  (readVarint bs).bind fun tag =>
    if tag.1 / 8 = 0 ∨ 2 ^ 32 ≤ tag.1 then none
    else (readValue (tag.1 % 8) tag.2).map fun r => (⟨tag.1 / 8,r.1⟩, r.2)

/-- Every field takes at least one byte, so the length bounds the number of turns. -/
def readFields : ℕ → List UInt8 → Option (List Field)
  | _, [] => some []
  | 0, _ :: _ => none
  | fuel + 1, b :: bs =>
    (readField (b :: bs)).bind fun r => (readFields fuel r.2).map fun fs => r.1 :: fs

def parse (bs : List UInt8) : Option (List Field) := readFields bs.length bs

section Reading
variable {f : Field} {fs : List Field} (rest : List UInt8)

theorem readExactly_append (content : List UInt8) :
    readExactly content.length (content ++ rest) = some (content, rest) := by
  simp [readExactly]

theorem readValue_encode {v : Value} (number : ℕ) (hvalid : v.Valid) (hplain : v.Plain) :
    readValue v.wireType (v.encode number ++ rest) = some (v, rest) := by
  cases v with
  | varint n =>
    have hread := readVarint_varint hvalid rest
    simp [readValue, Value.wireType, Value.encode, hread]
  | fixed64 content =>
    have hlength : content.length = 8 := hvalid
    have hread := readExactly_append rest content
    rw [hlength] at hread
    simp [readValue, Value.wireType, Value.encode, hread]
  | bytes content =>
    have hread := readVarint_varint hvalid (content ++ rest)
    simp [readValue, Value.wireType, Value.encode, hread, readExactly_append]
  | group content => exact hplain.elim
  | fixed32 content =>
    have hlength : content.length = 4 := hvalid
    have hread := readExactly_append rest content
    rw [hlength] at hread
    simp [readValue, Value.wireType, Value.encode, hread]

theorem Value.wireType_lt (v : Value) : v.wireType < 8 := by
  cases v <;> simp [wireType]

/-- What is left to read behind the tag. -/
theorem readField_encode_append (hvalid : f.Valid) :
    readField (f.encode ++ rest) =
      (readValue f.value.wireType (f.value.encode f.number ++ rest)).map fun r => (⟨f.number,r.1⟩, r.2) := by
  have htype := f.value.wireType_lt
  have hpos := hvalid.positive
  have hnumber := hvalid.number
  have hread := readVarint_varint (n:=8 * f.number + f.value.wireType) (by omega)
    (f.value.encode f.number ++ rest)
  have hdiv : (8 * f.number + f.value.wireType) / 8 = f.number := by omega
  have hmod : (8 * f.number + f.value.wireType) % 8 = f.value.wireType := by omega
  have hgood : ¬ (f.number = 0 ∨ 2 ^ 32 ≤ 8 * f.number + f.value.wireType) := by omega
  rw [readField, Field.encode, List.append_assoc, hread, Option.bind_some]
  dsimp only
  rw [hdiv, hmod, if_neg hgood]

theorem readField_encode (hvalid : f.Valid) (hplain : f.value.Plain) :
    readField (f.encode ++ rest) = some (f, rest) := by
  rw [readField_encode_append rest hvalid, readValue_encode rest f.number hvalid.value hplain]
  rfl

/-- A group stops the reader. -/
theorem readField_group (hvalid : f.Valid) (hgroup : ¬ f.value.Plain) :
    readField (f.encode ++ rest) = none := by
  rw [readField_encode_append rest hvalid]
  cases hvalue : f.value with
  | group content => rfl
  | _ =>
    rw [hvalue] at hgroup
    exact absurd trivial hgroup

theorem Field.encode_ne_nil (f : Field) : f.encode ≠ [] := by
  unfold Field.encode
  simp [varint_ne_nil]

theorem encodeFields_cons (f : Field) (fs : List Field) :
    encodeFields (f :: fs) = f.encode ++ encodeFields fs := List.flatMap_cons

theorem readFields_succ (fuel : ℕ) {bs : List UInt8} (h : bs ≠ []) :
    readFields (fuel + 1) bs =
      (readField bs).bind fun r => (readFields fuel r.2).map fun fs => r.1 :: fs := by
  cases bs with
  | nil => exact absurd rfl h
  | cons b bs => rfl

/-- The first group decides, and without one every field is read back. -/
theorem readFields_encodeFields (hvalid : ∀ f ∈ fs, f.Valid) {fuel : ℕ}
    (hfuel : (encodeFields fs).length ≤ fuel) :
    readFields fuel (encodeFields fs) = if ∀ f ∈ fs, f.value.Plain then some fs else none := by
  induction fs generalizing fuel with
  | nil =>
    rw [if_pos nofun]
    cases fuel <;> rfl
  | cons f fs ih =>
    obtain ⟨hf,hfs⟩ := List.forall_mem_cons.mp hvalid
    have hne := f.encode_ne_nil
    have hlength : 0 < f.encode.length := List.length_pos_iff.mpr hne
    have hcons : (∀ g ∈ f :: fs, g.value.Plain) ↔ f.value.Plain ∧ ∀ g ∈ fs, g.value.Plain :=
      List.forall_mem_cons
    rw [encodeFields_cons, List.length_append] at hfuel
    obtain ⟨turns,rfl⟩ : ∃ turns, fuel = turns + 1 := ⟨fuel - 1,by omega⟩
    rw [encodeFields_cons, readFields_succ turns (by simp [hne])]
    by_cases hplain : f.value.Plain
    · have hturns : (encodeFields fs).length ≤ turns := by omega
      have hrest := ih hfs hturns
      rw [readField_encode _ hf hplain, Option.bind_some]
      dsimp only
      rw [hrest]
      by_cases hall : ∀ g ∈ fs, g.value.Plain
      · rw [if_pos hall, if_pos (hcons.mpr ⟨hplain,hall⟩)]
        rfl
      · rw [if_neg hall, if_neg fun h => hall (hcons.mp h).2]
        rfl
    · rw [readField_group _ hf hplain, if_neg fun h => hplain (hcons.mp h).1]
      rfl

theorem parse_encodeFields (hvalid : ∀ f ∈ fs, f.Valid) :
    parse (encodeFields fs) = if ∀ f ∈ fs, f.value.Plain then some fs else none :=
  readFields_encodeFields hvalid le_rfl

end Reading

/-! ### Messages -/

/-- A field at its default is not written. -/
def bytesField (number : ℕ) (content : List UInt8) : List Field :=
  if content = [] then [] else [⟨number,.bytes content⟩]

def varintField (number n : ℕ) : List Field := if n = 0 then [] else [⟨number,.varint n⟩]

def messageField (number : ℕ) (message : Option (List Field)) : List Field :=
  match message with
  | none => []
  | some fs => [⟨number,.bytes (encodeFields fs)⟩]

/-- A negative number is extended to sixty-four bits. -/
def int32 (v : BitVec 32) : ℕ := if v.msb = true then v.toNat + (2 ^ 64 - 2 ^ 32) else v.toNat

theorem int32_lt (v : BitVec 32) : int32 v < 2 ^ 64 := by
  have hv := v.isLt
  unfold int32
  split <;> omega

theorem ofNat_int32 (v : BitVec 32) : BitVec.ofNat 32 (int32 v) = v := by
  apply BitVec.eq_of_toNat_eq
  have hv := v.isLt
  rw [BitVec.toNat_ofNat]
  unfold int32
  split <;> omega

theorem int32_eq_zero {v : BitVec 32} (h : int32 v = 0) : v = 0 := by
  rw [← ofNat_int32 v, h]
  rfl

theorem int32_lt_iff (v : BitVec 32) : int32 v < 2 ^ 32 ↔ v.msb = false := by
  have hv := v.isLt
  unfold int32
  cases v.msb with
  | true =>
    constructor
    · intro h
      rw [if_pos rfl] at h
      omega
    · exact nofun
  | false =>
    constructor
    · exact fun _ => rfl
    · exact fun _ => hv

section Encoded
variable {f : Field} {fs : List Field} {number : ℕ}

theorem encodeFields_append (xs ys : List Field) :
    encodeFields (xs ++ ys) = encodeFields xs ++ encodeFields ys := List.flatMap_append

theorem length_encode_le (h : f ∈ fs) : f.encode.length ≤ (encodeFields fs).length := by
  induction fs with
  | nil => cases h
  | cons g fs ih =>
    rw [encodeFields_cons, List.length_append]
    rcases List.mem_cons.mp h with rfl | h
    · omega
    · have hrest := ih h
      omega

theorem length_content_le (number : ℕ) (content : List UInt8) :
    content.length ≤ (Field.encode ⟨number,.bytes content⟩).length := by
  simp only [Field.encode, Value.encode, List.length_append]
  omega

theorem length_bytesField_le (number : ℕ) (content : List UInt8) :
    (encodeFields (bytesField number content)).length ≤ 20 + content.length := by
  unfold bytesField
  split
  · simp [encodeFields]
  · have htag := length_varint_le (8 * number + 2)
    have hlength := length_varint_le content.length
    simp only [encodeFields, List.flatMap_cons, List.flatMap_nil, List.append_nil, Field.encode,
      Value.wireType, Value.encode, List.length_append]
    omega

theorem length_varintField_le (number n : ℕ) : (encodeFields (varintField number n)).length ≤ 20 := by
  unfold varintField
  split
  · simp [encodeFields]
  · have htag := length_varint_le (8 * number + 0)
    have hvalue := length_varint_le n
    simp only [encodeFields, List.flatMap_cons, List.flatMap_nil, List.append_nil, Field.encode,
      Value.wireType, Value.encode, List.length_append]
    omega

theorem length_messageField_le (number : ℕ) {cap : ℕ} {message : Option (List Field)}
    (h : ∀ fs ∈ message, (encodeFields fs).length ≤ cap) :
    (encodeFields (messageField number message)).length ≤ 20 + cap := by
  cases message with
  | none => simp [messageField, encodeFields]
  | some fs =>
    have hcontent := h fs rfl
    have htag := length_varint_le (8 * number + 2)
    have hlength := length_varint_le (encodeFields fs).length
    have hone : encodeFields (messageField number (some fs)) =
        varint (8 * number + 2) ++ (varint (encodeFields fs).length ++ encodeFields fs) :=
      List.append_nil _
    rw [hone]
    simp only [List.length_append]
    omega

/-- A number or bytes under a small field number, as all declared fields here are. -/
structure Field.Simple (f : Field) : Prop where
  positive : 0 < f.number
  small : f.number < 16
  value : (∃ n, n < 2 ^ 64 ∧ f.value = .varint n) ∨ ∃ content, f.value = .bytes content

theorem Field.Simple.plain (h : f.Simple) : f.value.Plain := by
  rcases h.value with ⟨n,-,hvalue⟩ | ⟨content,hvalue⟩
  · rw [hvalue]
    exact trivial
  · rw [hvalue]
    exact trivial

/-- Bytes are valid if the message is not too long. -/
theorem Field.Simple.valid (h : f.Simple) (hmem : f ∈ fs)
    (hlength : (encodeFields fs).length < 2 ^ 64) : f.Valid := by
  have hsmall := h.small
  refine ⟨h.positive,by omega,?_⟩
  rcases h.value with ⟨n,hn,hvalue⟩ | ⟨content,hvalue⟩
  · rw [hvalue]
    exact hn
  · have hfield := length_encode_le hmem
    have hcontent := length_content_le f.number content
    have hf : f = ⟨f.number,.bytes content⟩ := by rw [← hvalue]
    rw [hf] at hfield
    rw [hvalue]
    exact lt_of_le_of_lt (hcontent.trans hfield) hlength

theorem simple_bytesField (hpos : 0 < number) (hsmall : number < 16) (content : List UInt8) :
    ∀ f ∈ bytesField number content, f.Simple := by
  unfold bytesField
  split
  · exact nofun
  · intro f hf
    rw [List.mem_singleton.mp hf]
    exact ⟨hpos,hsmall,.inr ⟨content,rfl⟩⟩

theorem simple_varintField (hpos : 0 < number) (hsmall : number < 16) {n : ℕ} (hn : n < 2 ^ 64) :
    ∀ f ∈ varintField number n, f.Simple := by
  unfold varintField
  split
  · exact nofun
  · intro f hf
    rw [List.mem_singleton.mp hf]
    exact ⟨hpos,hsmall,.inl ⟨n,hn,rfl⟩⟩

theorem simple_messageField (hpos : 0 < number) (hsmall : number < 16)
    (message : Option (List Field)) : ∀ f ∈ messageField number message, f.Simple := by
  cases message with
  | none => exact nofun
  | some fs =>
    intro f hf
    rw [List.mem_singleton.mp hf]
    exact ⟨hpos,hsmall,.inr ⟨encodeFields fs,rfl⟩⟩

end Encoded

/-- The wire types of the fields that a message declares, and how a decoder stores a field. -/
structure Schema (σ : Type) where
  declared : ℕ → Option ℕ
  store : σ → ℕ → Value → Option σ

namespace Schema
variable {σ : Type} (S : Schema σ)

/-- A field that is not declared is skipped, one of another wire type is an error. -/
def decodeField (m : σ) (f : Field) : Option σ :=
  match S.declared f.number with
  | none => some m
  | some wireType => if f.value.wireType = wireType then S.store m f.number f.value else none

def decode (m : σ) (bs : List UInt8) : Option σ :=
  (parse bs).bind fun fs => fs.foldlM S.decodeField m

/-- A field that another parser of the message keeps without storing it. -/
structure Unknown (f : Field) : Prop where
  valid : f.Valid
  undeclared : S.declared f.number ≠ some f.value.wireType

/-- An unknown field that a decoder steps over. -/
def Skipped (f : Field) : Prop := f.value.Plain ∧ S.declared f.number = none

instance (f : Field) : Decidable (S.Skipped f) := inferInstanceAs (Decidable (_ ∧ _))

variable {S} {m : σ}

theorem foldlM_unknown {fs : List Field} (h : ∀ f ∈ fs, S.Unknown f) :
    fs.foldlM S.decodeField m =
      if ∀ f ∈ fs, S.declared f.number = none then some m else none := by
  induction fs with
  | nil =>
    rw [if_pos nofun]
    rfl
  | cons f fs ih =>
    obtain ⟨hf,hfs⟩ := List.forall_mem_cons.mp h
    have hcons : (∀ g ∈ f :: fs, S.declared g.number = none) ↔
        S.declared f.number = none ∧ ∀ g ∈ fs, S.declared g.number = none := List.forall_mem_cons
    rw [List.foldlM_cons]
    cases hdeclared : S.declared f.number with
    | none =>
      have hskip : S.decodeField m f = some m := by
        simp only [decodeField, hdeclared]
      rw [hskip]
      change fs.foldlM S.decodeField m = _
      rw [ih hfs]
      by_cases hall : ∀ g ∈ fs, S.declared g.number = none
      · rw [if_pos hall, if_pos (hcons.mpr ⟨hdeclared,hall⟩)]
      · rw [if_neg hall, if_neg fun hnone => hall (hcons.mp hnone).2]
    | some wireType =>
      have hwrong : f.value.wireType ≠ wireType := by
        rintro rfl
        exact hf.undeclared hdeclared
      have hfail : S.decodeField m f = none := by
        simp only [decodeField, hdeclared, if_neg hwrong]
      have hnot : ¬ ∀ g ∈ f :: fs, S.declared g.number = none := by
        intro hnone
        rw [(hcons.mp hnone).1] at hdeclared
        cases hdeclared
      rw [hfail, if_neg hnot]
      rfl

/-- A message with its unknown fields behind the declared ones is decoded as the declared ones
are, as long as all others are skipped. -/
theorem decode_encodeFields {known unknown : List Field} (hvalid : ∀ f ∈ known, f.Valid)
    (hplain : ∀ f ∈ known, f.value.Plain) (hunknown : ∀ f ∈ unknown, S.Unknown f) :
    S.decode m (encodeFields (known ++ unknown)) =
      if ∀ f ∈ unknown, S.Skipped f then known.foldlM S.decodeField m else none := by
  have hall : ∀ f ∈ known ++ unknown, f.Valid := by
    intro f hf
    rcases List.mem_append.mp hf with hf | hf
    · exact hvalid f hf
    · exact (hunknown f hf).valid
  rw [decode, parse_encodeFields hall]
  by_cases hskipped : ∀ f ∈ unknown, S.Skipped f
  · have hread : ∀ f ∈ known ++ unknown, f.value.Plain := by
      intro f hf
      rcases List.mem_append.mp hf with hf | hf
      · exact hplain f hf
      · exact (hskipped f hf).1
    have hnone : ∀ f ∈ unknown, S.declared f.number = none := fun f hf => (hskipped f hf).2
    rw [if_pos hread, if_pos hskipped, Option.bind_some, List.foldlM_append]
    simp only [foldlM_unknown hunknown, if_pos hnone]
    exact Option.bind_fun_some _
  · rw [if_neg hskipped]
    split
    · rename_i hread
      have hnot : ¬ ∀ f ∈ unknown, S.declared f.number = none := fun hnone =>
        hskipped fun f hf => ⟨hread f (List.mem_append_right _ hf),hnone f hf⟩
      rw [Option.bind_some, List.foldlM_append]
      simp only [foldlM_unknown hunknown, if_neg hnot]
      exact Option.bind_fun_none _
    · rfl

/-- Decoding goes on with what the fields before have stored. -/
theorem foldlM_append_map {α : Type*} {xs : List Field} {d : σ} {stored : Option α} {set : α → σ}
    (h : xs.foldlM S.decodeField d = stored.map set) (ys : List Field) :
    (xs ++ ys).foldlM S.decodeField d = stored.bind fun v => ys.foldlM S.decodeField (set v) := by
  rw [List.foldlM_append, h]
  exact Option.bind_map

/-- A field that is written unless it is at its default. -/
theorem foldlM_ite {absent : Prop} [Decidable absent] {f : Field} {out : Option σ}
    (habsent : absent → some m = out) (hpresent : S.decodeField m f = out) :
    (if absent then [] else [f]).foldlM S.decodeField m = out := by
  split
  · exact habsent ‹absent›
  · exact (Option.bind_fun_some _).trans hpresent

end Schema
end AlprGate.ProtoWire
