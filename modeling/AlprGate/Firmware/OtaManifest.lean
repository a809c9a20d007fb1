import AlprGate.Library.FloatValue
import AlprGate.Firmware.ControlClient

/-! # The update manifest

Extraction of the manifest from its JSON document, hex decoding, and the rules that accept or
reject it. Texts are the bytes of C strings up to the terminator, and an array of n bytes
holds a text of less than n. A field that is missing or of another type keeps its default.
-/
namespace AlprGate.Ota
open Rpc

/-- A value of the document, as far as the extraction looks at it. -/
inductive JsonItem where
  | string (value : List UInt8)
  | number (value : FloatValue)
  | other
  deriving DecidableEq, Repr

/-- The members of the root, by name. -/
abbrev JsonDocument := String → Option JsonItem

def kMaxTargetVersion : ℕ := 24
def kMaxImageUrl : ℕ := 128
def kMaxSigningKeyId : ℕ := 32
def kSha256Bytes : ℕ := 32
def kSignatureBytes : ℕ := 64
def kPublicKeyBytes : ℕ := 32

structure Manifest where
  targetVersion : List UInt8
  imageUrl : List UInt8
  imageSize : BitVec 32
  imageSha256 : List UInt8
  hasSha256 : Bool
  signature : List UInt8
  hasSignature : Bool
  signingKeyId : List UInt8
  minUptimeSec : BitVec 32
  targetVersion_lt : targetVersion.length < kMaxTargetVersion
  imageUrl_lt : imageUrl.length < kMaxImageUrl
  signingKeyId_lt : signingKeyId.length < kMaxSigningKeyId
  length_imageSha256 : imageSha256.length = kSha256Bytes
  length_signature : signature.length = kSignatureBytes
  deriving DecidableEq, Repr

def hexNibble (c : UInt8) : Option UInt8 :=
  if '0'.toUInt8 ≤ c ∧ c ≤ '9'.toUInt8 then some (c - '0'.toUInt8)
  else if 'a'.toUInt8 ≤ c ∧ c ≤ 'f'.toUInt8 then some (c - 'a'.toUInt8 + 10)
  else if 'A'.toUInt8 ≤ c ∧ c ≤ 'F'.toUInt8 then some (c - 'A'.toUInt8 + 10)
  else none

/-- Decodes into the bytes of `out`, of which those before the first bad digit are written.
The terminator is no digit. -/
def hexDecode : List UInt8 → List UInt8 → Bool × List UInt8
  | hex, [] => (hex.isEmpty, [])
  | hi :: lo :: hex, byte :: out =>
    match hexNibble hi, hexNibble lo with
    | some h, some l =>
      let r := hexDecode hex out
      (r.1, (h <<< 4 ||| l) :: r.2)
    | _, _ => (false, byte :: out)
  | _, out => (false, out)

theorem length_hexDecode (hex out : List UInt8) : (hexDecode hex out).2.length = out.length := by
  fun_induction hexDecode hex out with
  | case1 hex => rfl
  | case2 hi lo hex byte out h l hhi hlo r ih => simp [r, ih]
  | case3 => rfl
  | case4 => rfl

/-- The copy keeps one byte for the terminator. -/
def copyJsonStr (cap : ℕ) : Option JsonItem → List UInt8
  | some (.string value) => copyStr cap value
  | _ => []

theorem length_copyJsonStr {cap : ℕ} (h : 0 < cap) (item : Option JsonItem) :
    (copyJsonStr cap item).length < cap := by
  unfold copyJsonStr
  split
  · exact length_copyStr h _
  · exact h

/-- A string that decodes to exactly `n` bytes. -/
def decodeJsonHex (n : ℕ) : Option JsonItem → Bool × List UInt8
  | some (.string value) => hexDecode value (List.replicate n 0)
  | _ => (false, List.replicate n 0)

theorem length_decodeJsonHex (n : ℕ) (item : Option JsonItem) :
    (decodeJsonHex n item).2.length = n := by
  unfold decodeJsonHex
  split
  · rw [length_hexDecode, List.length_replicate]
  · exact List.length_replicate

/-- The conversion of a double to 32 bits. It is defined on numbers that fit; elsewhere the
compiler may do as it likes. -/
def castU32 (undefined : FloatValue → BitVec 32) (v : FloatValue) : BitVec 32 :=
  match v with
  | .finite q => if -1 < q ∧ q < 2 ^ 32 then BitVec.ofNat 32 ⌊q⌋.toNat else undefined v
  | _ => undefined v

def imageSizeOf (undefined : FloatValue → BitVec 32) : Option JsonItem → BitVec 32
  | some (.number v) => if FloatValue.lt (.finite 0) v = true then castU32 undefined v else 0
  | _ => 0

def minUptimeSecOf (undefined : FloatValue → BitVec 32) : Option JsonItem → BitVec 32
  | some (.number v) => if FloatValue.le (.finite 0) v = true then castU32 undefined v else 0
  | _ => 0

/-- `parse_manifest` after the document was parsed. -/
def extractManifest (undefined : FloatValue → BitVec 32) (root : JsonDocument) : Manifest where
  targetVersion := copyJsonStr kMaxTargetVersion (root "target_version")
  imageUrl := copyJsonStr kMaxImageUrl (root "image_url")
  signingKeyId := copyJsonStr kMaxSigningKeyId (root "signing_key_id")
  imageSize := imageSizeOf undefined (root "image_size")
  minUptimeSec := minUptimeSecOf undefined (root "min_uptime_sec")
  hasSha256 := (decodeJsonHex kSha256Bytes (root "image_sha256")).1
  imageSha256 := (decodeJsonHex kSha256Bytes (root "image_sha256")).2
  hasSignature := (decodeJsonHex kSignatureBytes (root "ed25519_signature")).1
  signature := (decodeJsonHex kSignatureBytes (root "ed25519_signature")).2
  targetVersion_lt := length_copyJsonStr (by decide) _
  imageUrl_lt := length_copyJsonStr (by decide) _
  signingKeyId_lt := length_copyJsonStr (by decide) _
  length_imageSha256 := length_decodeJsonHex _ _
  length_signature := length_decodeJsonHex _ _

/-- The first rule that rejects the manifest. -/
def validate (m : Manifest) (runningVersion : List UInt8) (partitionSize uptimeSec : BitVec 32) :
    Option String :=
  if m.targetVersion = [] then some "manifest: target_version missing"
  else if m.targetVersion = runningVersion then
    some "manifest: target_version equals running version"
  else if m.imageUrl.take 7 ≠ utf8 "http://" ∧ m.imageUrl.take 8 ≠ utf8 "https://" then
    some "manifest: image_url missing or not http(s)"
  else if m.imageSize = 0 then some "manifest: image_size missing or zero"
  else if partitionSize < m.imageSize then some "manifest: image larger than the OTA partition"
  else if m.hasSha256 = false then some "manifest: image_sha256 missing or malformed"
  else if m.hasSignature = false then some "manifest: ed25519_signature missing or malformed"
  else if uptimeSec < m.minUptimeSec then some "manifest: device uptime below min_uptime_sec gate"
  else none

end AlprGate.Ota
