import Mathlib.Data.List.TakeWhile
import AlprGate.Firmware.OtaManifest

/-! # What the manifest says and what is validated

The rules are applied to the extracted struct. On the way there strings end at their first zero
byte and are cut to the size of an array, numbers become doubles and then 32-bit integers, and a
value of another type counts as missing. An accepted document keeps the rules itself exactly if
this has not altered what the rules are about.
-/
namespace AlprGate.Ota
open Rpc

/-- A value as the document has it. -/
inductive DocValue where
  | string (bytes : List UInt8)
  | number (q : ℚ)
  | other
  deriving DecidableEq, Repr

/-- The members of the root, by name. -/
abbrev Document := String → Option DocValue

/-- The item that the JSON library makes of a value: a C string, the nearest double. -/
def DocValue.item : DocValue → JsonItem
  | .string bytes => .string (bytes.takeWhile fun c => c ≠ 0)
  | .number q => .number (binary64.round q)
  | .other => .other

def itemsOf (doc : Document) : JsonDocument := fun key => (doc key).map DocValue.item

def IsHttp (url : List UInt8) : Prop := url.take 7 = utf8 "http://" ∨ url.take 8 = utf8 "https://"

def IsHex (digits : ℕ) (hex : List UInt8) : Prop :=
  hex.length = digits ∧ ∀ c ∈ hex, (hexNibble c).isSome = true

/-- The rules, about the document's own values and the URL that is fetched. -/
structure DocumentRules (doc : Document) (runningVersion : List UInt8)
    (partitionSize uptimeSec : BitVec 32) (fetched : List UInt8) : Prop where
  targetVersion : ∃ version, doc "target_version" = some (.string version) ∧ version ≠ [] ∧
    version ≠ runningVersion
  imageUrl : doc "image_url" = some (.string fetched) ∧ IsHttp fetched
  imageSize : ∃ n : ℕ, doc "image_size" = some (.number n) ∧ 0 < n ∧ n ≤ partitionSize.toNat
  imageSha256 : ∃ hex, doc "image_sha256" = some (.string hex) ∧ IsHex 64 hex
  signature : ∃ hex, doc "ed25519_signature" = some (.string hex) ∧ IsHex 128 hex
  minUptimeSec : ∀ v, doc "min_uptime_sec" = some v → ∃ q : ℚ, v = .number q ∧ q ≤ uptimeSec.toNat

/-- What an array of `cap` bytes holds of a string. -/
def kept (cap : ℕ) (bytes : List UInt8) : List UInt8 := copyStr cap (bytes.takeWhile fun c => c ≠ 0)

/-- The document passes as far as the firmware looks. -/
structure Admitted (undefined : FloatValue → BitVec 32) (doc : Document)
    (runningVersion : List UInt8) (partitionSize uptimeSec : BitVec 32) : Prop where
  targetVersion : ∃ version, doc "target_version" = some (.string version) ∧
    kept kMaxTargetVersion version ≠ [] ∧ kept kMaxTargetVersion version ≠ runningVersion
  imageUrl : ∃ url, doc "image_url" = some (.string url) ∧ IsHttp (kept kMaxImageUrl url)
  imageSize : ∃ q, doc "image_size" = some (.number q) ∧
    imageSizeOf undefined (some (.number (binary64.round q))) ≠ 0 ∧
    imageSizeOf undefined (some (.number (binary64.round q))) ≤ partitionSize
  imageSha256 : ∃ hex, doc "image_sha256" = some (.string hex) ∧
    IsHex 64 (hex.takeWhile fun c => c ≠ 0)
  signature : ∃ hex, doc "ed25519_signature" = some (.string hex) ∧
    IsHex 128 (hex.takeWhile fun c => c ≠ 0)
  minUptimeSec : minUptimeSecOf undefined ((doc "min_uptime_sec").map DocValue.item) ≤ uptimeSec

/-- Nothing that the rules are about is lost in the extraction: a running version that does not fit
the array is not asked for, strings fit and have no zero byte, and numbers that decide are integers
of 32 bits. -/
structure Unaltered (doc : Document) (runningVersion : List UInt8) (uptimeSec : BitVec 32) :
    Prop where
  targetVersion : 0 ∈ runningVersion ∨ kMaxTargetVersion ≤ runningVersion.length →
    doc "target_version" ≠ some (.string runningVersion)
  imageUrl : ∀ url, doc "image_url" = some (.string url) → 0 ∉ url ∧ url.length < kMaxImageUrl
  imageSize : ∀ q, doc "image_size" = some (.number q) → ∃ n : ℕ, q = n ∧ n < 2 ^ 32
  imageSha256 : ∀ hex, doc "image_sha256" = some (.string hex) → 0 ∉ hex
  signature : ∀ hex, doc "ed25519_signature" = some (.string hex) → 0 ∉ hex
  minUptimeSec : ∀ v, doc "min_uptime_sec" = some v → ∃ q : ℚ, v = .number q ∧
    (uptimeSec.toNat < q → ∃ n : ℕ, q = n ∧ n < 2 ^ 32)

/-! ### The parts of the extraction -/

theorem takeWhile_ne_zero_eq_self_iff {bytes : List UInt8} :
    (bytes.takeWhile fun c => c ≠ 0) = bytes ↔ 0 ∉ bytes := by
  rw [List.takeWhile_eq_self_iff]
  constructor
  · intro h hmem
    simpa using h 0 hmem
  · intro h c hc
    exact decide_eq_true (ne_of_mem_of_not_mem hc h)

theorem kept_eq_self_iff {cap : ℕ} (hcap : 0 < cap) {bytes : List UInt8} :
    kept cap bytes = bytes ↔ 0 ∉ bytes ∧ bytes.length < cap := by
  constructor
  · intro h
    have hlength : (kept cap bytes).length < cap := length_copyStr hcap _
    have hall : (bytes.takeWhile fun c => c ≠ 0) = bytes := by
      have hle := congrArg List.length h
      rw [kept, copyStr, List.length_take] at hle
      exact (List.takeWhile_prefix _).eq_of_length_le (by omega)
    rw [h] at hlength
    exact ⟨takeWhile_ne_zero_eq_self_iff.mp hall,hlength⟩
  · rintro ⟨hzero,hlength⟩
    rw [kept, takeWhile_ne_zero_eq_self_iff.mpr hzero, copyStr]
    exact List.take_of_length_le (by omega)

theorem hexDecode_iff (hex out : List UInt8) :
    (hexDecode hex out).1 = true ↔ IsHex (2 * out.length) hex := by
  unfold IsHex
  fun_induction hexDecode hex out with
  | case1 hex =>
    rw [List.isEmpty_iff]
    constructor
    · rintro rfl
      simp
    · intro h
      exact List.length_eq_zero_iff.mp h.1
  | case2 hi lo hex byte out h l hhi hlo r ih =>
    rw [ih]
    simp [hhi, hlo, Nat.mul_succ]
  | case3 hi lo hex byte out hbad =>
    constructor
    · intro h
      cases h
    · rintro ⟨_,hall⟩
      obtain ⟨h,hh⟩ := Option.isSome_iff_exists.mp (hall hi (by simp))
      obtain ⟨l,hl⟩ := Option.isSome_iff_exists.mp (hall lo (by simp))
      exact (hbad h l hh hl).elim
  | case4 hex out hnil hcons =>
    constructor
    · intro h
      cases h
    · rintro ⟨hlength,_⟩
      cases out with
      | nil => exact (hnil rfl).elim
      | cons byte out =>
        rw [List.length_cons] at hlength
        cases hex with
        | nil => simp at hlength
        | cons hi hex =>
          cases hex with
          | nil =>
            rw [List.length_singleton] at hlength
            omega
          | cons lo hex => exact (hcons hi lo hex byte out rfl rfl).elim

theorem IsHex.zero_notMem {digits : ℕ} {hex : List UInt8} (h : IsHex digits hex) : 0 ∉ hex := by
  intro hmem
  have hdigit := h.2 0 hmem
  revert hdigit
  decide

theorem copyJsonStr_item (cap : ℕ) (v : Option DocValue) :
    copyJsonStr cap (v.map DocValue.item) =
      match v with
      | some (.string bytes) => kept cap bytes
      | _ => [] := by
  cases v with
  | none => rfl
  | some v => cases v <;> rfl

theorem decodeJsonHex_item_iff (n : ℕ) (v : Option DocValue) :
    (decodeJsonHex n (v.map DocValue.item)).1 = true ↔
      ∃ hex, v = some (.string hex) ∧ IsHex (2 * n) (hex.takeWhile fun c => c ≠ 0) := by
  cases v with
  | none => simp [decodeJsonHex]
  | some v =>
    cases v with
    | string hex =>
      have hdecode := hexDecode_iff (hex.takeWhile fun c => c ≠ 0) (List.replicate n 0)
      rw [List.length_replicate] at hdecode
      simpa [decodeJsonHex, DocValue.item] using hdecode
    | number q => simp [decodeJsonHex, DocValue.item]
    | other => simp [decodeJsonHex, DocValue.item]

theorem imageSizeOf_item_ne_zero {undefined : FloatValue → BitVec 32} {v : Option DocValue}
    (h : imageSizeOf undefined (v.map DocValue.item) ≠ 0) : ∃ q, v = some (.number q) := by
  cases v with
  | none => exact absurd rfl h
  | some v =>
    cases v with
    | number q => exact ⟨q,rfl⟩
    | string bytes => exact absurd rfl h
    | other => exact absurd rfl h

/-- Natural numbers below 2^32 come through. -/
theorem castU32_natCast (undefined : FloatValue → BitVec 32) {n : ℕ} (h : n < 2 ^ 32) :
    binary64.round n = .finite n ∧ castU32 undefined (.finite n) = BitVec.ofNat 32 n := by
  have hrange : (-1 : ℚ) < n ∧ (n : ℚ) < 2 ^ 32 := by
    refine ⟨lt_of_lt_of_le (by norm_num) (Nat.cast_nonneg n),?_⟩
    exact_mod_cast h
  refine ⟨binary64.round_natCast (Nat.lt_of_lt_of_le h (by decide)) (by decide) (by decide),?_⟩
  rw [castU32, if_pos hrange, Int.floor_natCast, Int.toNat_natCast]

theorem imageSizeOf_natCast (undefined : FloatValue → BitVec 32) {n : ℕ} (h : n < 2 ^ 32) :
    imageSizeOf undefined (some (.number (binary64.round n))) = BitVec.ofNat 32 n := by
  obtain ⟨hround,hcast⟩ := castU32_natCast undefined h
  rw [hround, imageSizeOf, hcast]
  obtain rfl | hpos := Nat.eq_zero_or_pos n
  · simp [FloatValue.lt]
  · simp [FloatValue.lt, hpos]

theorem minUptimeSecOf_natCast (undefined : FloatValue → BitVec 32) {n : ℕ} (h : n < 2 ^ 32) :
    minUptimeSecOf undefined (some (.number (binary64.round n))) = BitVec.ofNat 32 n := by
  obtain ⟨hround,hcast⟩ := castU32_natCast undefined h
  rw [hround, minUptimeSecOf, hcast]
  simp [FloatValue.le, FloatValue.lt]

/-! ### Acceptance -/

theorem validate_eq_none_iff (m : Manifest) (runningVersion : List UInt8)
    (partitionSize uptimeSec : BitVec 32) :
    validate m runningVersion partitionSize uptimeSec = none ↔
      m.targetVersion ≠ [] ∧ m.targetVersion ≠ runningVersion ∧ IsHttp m.imageUrl ∧
        m.imageSize ≠ 0 ∧ m.imageSize ≤ partitionSize ∧ m.hasSha256 = true ∧
        m.hasSignature = true ∧ m.minUptimeSec ≤ uptimeSec := by
  unfold validate IsHttp
  simp only [ite_eq_right_iff, reduceCtorEq, imp_false, ite_eq_iff, and_false, false_or,
    not_and_or, not_not, Bool.not_eq_false, BitVec.not_lt, ne_eq]

theorem accepts_iff_admitted (undefined : FloatValue → BitVec 32) (doc : Document)
    (runningVersion : List UInt8) (partitionSize uptimeSec : BitVec 32) :
    validate (extractManifest undefined (itemsOf doc)) runningVersion partitionSize uptimeSec =
      none ↔ Admitted undefined doc runningVersion partitionSize uptimeSec := by
  rw [validate_eq_none_iff]
  dsimp only [extractManifest, itemsOf]
  rw [decodeJsonHex_item_iff, decodeJsonHex_item_iff, copyJsonStr_item, copyJsonStr_item]
  constructor
  · rintro ⟨hversion,hother,hurl,hsize,hfits,hsha,hsignature,huptime⟩
    obtain ⟨q,hq⟩ := imageSizeOf_item_ne_zero hsize
    rw [hq] at hsize hfits
    refine ⟨?_,?_,⟨q,hq,hsize,hfits⟩,hsha,hsignature,huptime⟩
    · split at hversion
      · rename_i version hdoc
        rw [hdoc] at hother
        exact ⟨version,hdoc,hversion,hother⟩
      · exact absurd rfl hversion
    · split at hurl
      · rename_i url hdoc
        exact ⟨url,hdoc,hurl⟩
      · rcases hurl with h | h
        · exact absurd h (by decide)
        · exact absurd h (by decide)
  · rintro ⟨⟨version,hdoc,hversion,hother⟩,⟨url,hurl,hhttp⟩,⟨q,hq,hsize,hfits⟩,hsha,hsignature,
      huptime⟩
    rw [hdoc, hurl, hq]
    exact ⟨hversion,hother,hhttp,hsize,hfits,hsha,hsignature,huptime⟩

/-! ### Field by field -/

section Fields
variable {v : Option DocValue}

/-- A running version that fits the array is told apart by what is kept. -/
theorem version_iff {cap : ℕ} (hcap : 0 < cap) {version runningVersion : List UInt8}
    (hv : v = some (.string version)) (hne : version ≠ [])
    (hkept : kept cap version ≠ runningVersion) :
    (∃ version', v = some (.string version') ∧ version' ≠ [] ∧ version' ≠ runningVersion) ↔
      (0 ∈ runningVersion ∨ cap ≤ runningVersion.length → v ≠ some (.string runningVersion)) := by
  subst hv
  constructor
  · rintro ⟨version',hversion,_,hother⟩ _ hsame
    rw [hsame] at hversion
    cases hversion
    exact hother rfl
  · intro h
    refine ⟨version,rfl,hne,?_⟩
    rintro rfl
    have hlost := mt (kept_eq_self_iff hcap).mpr hkept
    rw [not_and_or, not_not, not_lt] at hlost
    exact h hlost rfl

/-- What is kept of a string is the string. -/
theorem kept_iff {cap : ℕ} (hcap : 0 < cap) {bytes : List UInt8} (hv : v = some (.string bytes)) :
    v = some (.string (kept cap bytes)) ↔
      ∀ bytes', v = some (.string bytes') → 0 ∉ bytes' ∧ bytes'.length < cap := by
  subst hv
  have hsame : some (DocValue.string bytes) = some (.string (kept cap bytes)) ↔
      kept cap bytes = bytes := by
    simp [eq_comm]
  rw [hsame, kept_eq_self_iff hcap]
  simp

theorem size_iff {undefined : FloatValue → BitVec 32} {partitionSize : BitVec 32} {q : ℚ}
    (hv : v = some (.number q))
    (hsize : imageSizeOf undefined (some (.number (binary64.round q))) ≠ 0)
    (hfits : imageSizeOf undefined (some (.number (binary64.round q))) ≤ partitionSize) :
    (∃ n : ℕ, v = some (.number n) ∧ 0 < n ∧ n ≤ partitionSize.toNat) ↔
      ∀ q', v = some (.number q') → ∃ n : ℕ, q' = n ∧ n < 2 ^ 32 := by
  subst hv
  constructor
  · rintro ⟨n,hn,_,hle⟩ q' hq'
    rw [hn] at hq'
    cases hq'
    exact ⟨n,rfl,Nat.lt_of_le_of_lt hle partitionSize.isLt⟩
  · intro h
    obtain ⟨n,rfl,hn⟩ := h q rfl
    rw [imageSizeOf_natCast undefined hn] at hsize hfits
    have hle := BitVec.le_def.mp hfits
    rw [BitVec.toNat_ofNat, Nat.mod_eq_of_lt hn] at hle
    refine ⟨n,rfl,Nat.pos_of_ne_zero ?_,hle⟩
    rintro rfl
    exact hsize rfl

/-- A number above the uptime that is admitted was altered. -/
theorem uptime_iff {undefined : FloatValue → BitVec 32} {uptimeSec : BitVec 32}
    (huptime : minUptimeSecOf undefined (v.map DocValue.item) ≤ uptimeSec) :
    (∀ v', v = some v' → ∃ q : ℚ, v' = .number q ∧ q ≤ uptimeSec.toNat) ↔
      ∀ v', v = some v' → ∃ q : ℚ, v' = .number q ∧
        (uptimeSec.toNat < q → ∃ n : ℕ, q = n ∧ n < 2 ^ 32) := by
  constructor
  · intro h v' hv'
    obtain ⟨q,hq,hle⟩ := h v' hv'
    exact ⟨q,hq,fun hlt => absurd hlt (not_lt.mpr hle)⟩
  · intro h v' hv'
    obtain ⟨q,rfl,hnat⟩ := h v' hv'
    refine ⟨q,rfl,not_lt.mp fun hlt => ?_⟩
    obtain ⟨n,rfl,hn⟩ := hnat hlt
    subst hv'
    have hcast := minUptimeSecOf_natCast undefined hn
    change minUptimeSecOf undefined (some (.number (binary64.round n))) ≤ uptimeSec at huptime
    rw [hcast, BitVec.le_def, BitVec.toNat_ofNat, Nat.mod_eq_of_lt hn] at huptime
    exact absurd (Nat.cast_lt.mp hlt) (not_lt.mpr huptime)

/-- Digits up to the first zero byte are all of the string. -/
theorem hex_iff {digits : ℕ} {hex : List UInt8} (hv : v = some (.string hex))
    (hdigits : IsHex digits (hex.takeWhile fun c => c ≠ 0)) :
    (∃ hex', v = some (.string hex') ∧ IsHex digits hex') ↔
      ∀ hex', v = some (.string hex') → 0 ∉ hex' := by
  subst hv
  constructor
  · rintro ⟨hex',hhex,hall⟩ hex'' hhex'
    rw [hhex] at hhex'
    cases hhex'
    exact hall.zero_notMem
  · intro h
    rw [takeWhile_ne_zero_eq_self_iff.mpr (h hex rfl)] at hdigits
    exact ⟨hex,rfl,hdigits⟩

end Fields

/-- The rules hold of what an admitted document says exactly if nothing is lost on the way. -/
theorem Admitted.rules_iff {undefined : FloatValue → BitVec 32} {doc : Document}
    {runningVersion : List UInt8} {partitionSize uptimeSec : BitVec 32}
    (h : Admitted undefined doc runningVersion partitionSize uptimeSec) :
    DocumentRules doc runningVersion partitionSize uptimeSec
      (extractManifest undefined (itemsOf doc)).imageUrl ↔
      Unaltered doc runningVersion uptimeSec := by
  obtain ⟨⟨version,hversion,hkept,hother⟩,⟨url,hurl,hhttp⟩,⟨q,hq,hsize,hfits⟩,
    ⟨hex,hhex,hdigits⟩,⟨sig,hsig,hsigned⟩,huptime⟩ := h
  have hfetched : (extractManifest undefined (itemsOf doc)).imageUrl = kept kMaxImageUrl url := by
    dsimp only [extractManifest, itemsOf]
    rw [copyJsonStr_item, hurl]
  have hne : version ≠ [] := by
    rintro rfl
    exact hkept rfl
  have hcap : 0 < kMaxImageUrl := by decide
  have hasked := version_iff (by decide) hversion hne hother
  rw [hfetched]
  constructor
  · intro hrules
    exact ⟨hasked.mp hrules.targetVersion,
      (kept_iff hcap hurl).mp hrules.imageUrl.1,(size_iff hq hsize hfits).mp hrules.imageSize,
      (hex_iff hhex hdigits).mp hrules.imageSha256,(hex_iff hsig hsigned).mp hrules.signature,
      (uptime_iff huptime).mp hrules.minUptimeSec⟩
  · intro hunaltered
    exact ⟨hasked.mpr hunaltered.targetVersion,
      ⟨(kept_iff hcap hurl).mpr hunaltered.imageUrl,hhttp⟩,
      (size_iff hq hsize hfits).mpr hunaltered.imageSize,
      (hex_iff hhex hdigits).mpr hunaltered.imageSha256,
      (hex_iff hsig hsigned).mpr hunaltered.signature,
      (uptime_iff huptime).mpr hunaltered.minUptimeSec⟩

/-- Accepting a document means that it keeps the rules, for exactly those documents that are not
admitted or come through the extraction unaltered. -/
theorem accepted_document_keeps_rules_iff (undefined : FloatValue → BitVec 32) (doc : Document)
    (runningVersion : List UInt8) (partitionSize uptimeSec : BitVec 32) :
    (validate (extractManifest undefined (itemsOf doc)) runningVersion partitionSize uptimeSec =
        none →
      DocumentRules doc runningVersion partitionSize uptimeSec
        (extractManifest undefined (itemsOf doc)).imageUrl) ↔
      (Admitted undefined doc runningVersion partitionSize uptimeSec →
        Unaltered doc runningVersion uptimeSec) := by
  rw [accepts_iff_admitted]
  constructor
  · intro h hadmitted
    exact hadmitted.rules_iff.mp (h hadmitted)
  · intro h hadmitted
    exact hadmitted.rules_iff.mpr (h hadmitted)

/-- A manifest of the documented form in which one member is replaced. -/
def manifestWith (member : String) (v : DocValue) : Document := fun key =>
  if key = member then some v
  else if key = "target_version" then some (.string (utf8 "0.2.0"))
  else if key = "image_url" then some (.string (utf8 "http://h/fw.bin"))
  else if key = "image_size" then some (.number 2)
  else if key = "image_sha256" then some (.string (List.replicate 64 '0'.toUInt8))
  else if key = "ed25519_signature" then some (.string (List.replicate 128 'f'.toUInt8))
  else none

/-- Accepted documents: the running version itself, if it does not fit the array; a URL of 128
bytes of which 127 are fetched; an image of one byte and a half; an uptime that is a string. -/
theorem accepted_documents_break_rules :
    let accepts := fun doc runningVersion =>
      validate (extractManifest (fun _ => 0) (itemsOf doc)) runningVersion 4096 60
    let keepsRules := fun doc runningVersion => DocumentRules doc runningVersion 4096 60
      (extractManifest (fun _ => 0) (itemsOf doc)).imageUrl
    let version := List.replicate 24 'v'.toUInt8
    let sameVersion := manifestWith "target_version" (.string version)
    let longUrl := manifestWith "image_url"
      (.string (utf8 "http://h/" ++ List.replicate 119 'a'.toUInt8))
    let halfByte := manifestWith "image_size" (.number (3 / 2))
    let textUptime := manifestWith "min_uptime_sec" (.string (utf8 "3600"))
    (accepts sameVersion version = none ∧ ¬ keepsRules sameVersion version) ∧
    (accepts longUrl (utf8 "0.1.0") = none ∧ ¬ keepsRules longUrl (utf8 "0.1.0")) ∧
    (accepts halfByte (utf8 "0.1.0") = none ∧ ¬ keepsRules halfByte (utf8 "0.1.0")) ∧
    accepts textUptime (utf8 "0.1.0") = none ∧ ¬ keepsRules textUptime (utf8 "0.1.0") := by
  intro accepts keepsRules version sameVersion longUrl halfByte textUptime
  refine ⟨⟨by decide +kernel,?_⟩,⟨by decide +kernel,?_⟩,⟨by decide +kernel,?_⟩,
    by decide +kernel,?_⟩
  · intro hrules
    obtain ⟨version',hversion,_,hother⟩ := hrules.targetVersion
    cases hversion
    exact hother rfl
  · intro hrules
    have hlength := (extractManifest (fun _ => 0) (itemsOf longUrl)).imageUrl_lt
    have hurl := hrules.imageUrl.1
    injection hurl with hurl
    injection hurl with hurl
    rw [← hurl] at hlength
    revert hlength
    decide +kernel
  · intro hrules
    obtain ⟨n,hn,_⟩ := hrules.imageSize
    injection hn with hn
    injection hn with hn
    have hden := congrArg Rat.den hn
    rw [Rat.den_natCast] at hden
    revert hden
    decide +kernel
  · intro hrules
    obtain ⟨q,hq,_⟩ := hrules.minUptimeSec _ rfl
    cases hq

end AlprGate.Ota
