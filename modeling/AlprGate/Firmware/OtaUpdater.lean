import AlprGate.Library.Transition
import AlprGate.Firmware.OtaManifest

/-! # The update itself

`run_inner` fetches the manifest, applies its rules, streams the image into the passive slot,
hashes what has arrived in flash, verifies the signature and makes the slot the boot slot. What
the network, the flash and the libraries answer is given; a run of the function is determined by
these answers. Downloads that never end have no run.
-/
namespace AlprGate.Ota
open Rpc Transition

/-- libsodium's SHA-256. Chunks are hashed as their concatenation. -/
structure Sha256 where
  State : Type
  init : State
  update : State → List UInt8 → State
  final : State → List UInt8
  digest : List UInt8 → List UInt8
  final_foldl : ∀ chunks : List (List UInt8), final (chunks.foldl update init) = digest chunks.flatten

/-- The answers of one run, in the order in which they are asked for. -/
structure Replies where
  clientInit : Bool
  clientOpen : Bool
  statusCode : ℤ
  manifestBuffer : Bool
  response : Option (List UInt8)
  parse : List UInt8 → Option JsonDocument
  undefinedCast : FloatValue → BitVec 32
  passive : Option (BitVec 32)
  timeUs : ℤ
  begun : Bool
  imageLenRead : List ℤ
  performed : Bool
  completeDataReceived : Bool
  readbackBuffer : Bool
  flash : ℕ → UInt8
  partitionRead : ℕ → ℕ → Bool
  signVerify : List UInt8 → List UInt8 → List UInt8 → Bool
  finished : Bool

structure Config where
  runningVersion : List UInt8
  pubkeyHex : Option (List UInt8)

/-- What a run does to the passive slot. -/
inductive SlotCall where
  | begin (opened : Bool)
  | perform
  | abort
  | finish (valid : Bool)
  deriving DecidableEq, Repr

structure Outcome where
  calls : List SlotCall
  progress : List (BitVec 8)
  error : Option String
  deriving DecidableEq, Repr

def kManifestMax : ℕ := 2048
def kReadbackChunk : ℕ := 4096

/-- The response ends at the first zero byte, or where the buffer ends. -/
def fetchJson (r : Replies) : Except String (List UInt8) :=
  if r.clientInit = false then .error "manifest: http client init failed"
  else if r.clientOpen = false then .error "manifest: connection failed"
  else if r.statusCode ≠ 200 then .error "manifest: http status not 200"
  else if r.manifestBuffer = false then .error "manifest: out of memory"
  else match r.response with
    | none | some [] => .error "manifest: empty response"
    | some body => .ok ((body.take (kManifestMax - 1)).takeWhile fun c => c ≠ 0)

def parseManifest (r : Replies) (json : List UInt8) : Except String Manifest :=
  match r.parse json with
  | none => .error "manifest: invalid JSON"
  | some root => .ok (extractManifest r.undefinedCast root)

def uptimeSec (timeUs : ℤ) : BitVec 32 := BitVec.ofInt 32 (timeUs.tdiv 1000000)

def percent (imageSize : BitVec 32) (got : ℤ) : BitVec 8 :=
  ((BitVec.ofInt 64 got * 100) / imageSize.setWidth 64).setWidth 8

/-- A report for every new decile. -/
def progressReports (imageSize : BitVec 32) : BitVec 8 → List ℤ → List (BitVec 8)
  | _, [] => []
  | lastDecile, got :: rest =>
    let pct := percent imageSize got
    if pct / 10 ≠ lastDecile then pct :: progressReports imageSize (pct / 10) rest
    else progressReports imageSize lastDecile rest

/-- The bytes of the slot from `off` on. -/
def slotBytes (flash : ℕ → UInt8) (off n : ℕ) : List UInt8 := (List.range' off n).map flash

section Run
variable (sha : Sha256) (cfg : Config) (r : Replies)

/-- The readback loop. Each iteration takes at least one byte, so `len` of them are enough. -/
def readbackLoop (len : ℕ) : ℕ → ℕ → sha.State → Except String sha.State
  | 0, _, st => .ok st
  | fuel + 1, off, st =>
    if off < len then
      let n := min kReadbackChunk (len - off)
      if r.partitionRead off n = false then .error "verify: partition readback failed"
      else readbackLoop len fuel (off + n) (sha.update st (slotBytes r.flash off n))
    else .ok st

def readbackSha256 (len : ℕ) : Except String (List UInt8) :=
  if r.readbackBuffer = false then .error "verify: out of memory"
  else (readbackLoop sha r len len 0 sha.init).map sha.final

/-- Without a provisioned key the checksum alone decides. -/
def verifySignature (m : Manifest) (digest : List UInt8) : Option String :=
  match cfg.pubkeyHex with
  | none | some [] => none
  | some hex =>
    let pubkey := hexDecode hex (List.replicate kPublicKeyBytes 0)
    if pubkey.1 = false then some "verify: provisioned public key is malformed"
    else if r.signVerify m.signature digest pubkey.2 = false then
      some "verify: ed25519 signature rejected"
    else none

/-- Steps 3 to 5 after the download loop; each of their exits aborts the handle. -/
def verifyImage (m : Manifest) : Option String :=
  if r.performed = false ∨ r.completeDataReceived = false then
    some "download: transfer failed or truncated"
  else match readbackSha256 sha r m.imageSize.toNat with
    | .error err => some err
    | .ok digest =>
      if digest ≠ m.imageSha256 then some "verify: image sha256 mismatch"
      else verifySignature cfg r m digest

/-- From `esp_https_ota_begin` on. -/
def install (m : Manifest) : Outcome :=
  if r.begun = false then ⟨[.begin false],[],some "download: esp_https_ota_begin failed"⟩
  else
    let calls := .begin true :: List.replicate (r.imageLenRead.length + 1) .perform
    let progress := progressReports m.imageSize 0 r.imageLenRead
    match verifyImage sha cfg r m with
    | some err => ⟨calls ++ [.abort],progress,some err⟩
    | none => ⟨calls ++ [.finish r.finished],progress,
        if r.finished = true then none else some "finish: image validation failed"⟩

def runInner : Outcome :=
  match fetchJson r with
  | .error err => ⟨[],[],some err⟩
  | .ok json =>
    match parseManifest r json with
    | .error err => ⟨[],[],some err⟩
    | .ok m =>
      match r.passive with
      | none => ⟨[],[],some "no passive OTA partition"⟩
      | some size =>
        match validate m cfg.runningVersion size (uptimeSec r.timeUs) with
        | some err => ⟨[],[],some err⟩
        | none => install sha cfg r m

end Run

/-- An update handle and whether the slot is the one to boot from. -/
structure Slot where
  opened : Bool := false
  boot : Bool := false
  deriving DecidableEq, Repr

/-- A handle is freed by `abort` and by `finish`, valid or not. -/
def Slot.apply (s : Slot) : SlotCall → Slot
  | .begin opened => { s with opened := opened || s.opened }
  | .perform => s
  | .abort => { s with opened := false }
  | .finish valid => { opened := false, boot := valid || s.boot }

/-! ### The readback -/

section Readback
variable (sha : Sha256) (r : Replies)

theorem slotBytes_append (flash : ℕ → UInt8) (off m n : ℕ) :
    slotBytes flash off m ++ slotBytes flash (off + m) n = slotBytes flash off (m + n) := by
  unfold slotBytes
  rw [← List.map_append, ← List.range'_append_1]

/-- What the loop has hashed when it ends. -/
theorem readbackLoop_ok {len fuel off : ℕ} {st st' : sha.State} (hfuel : len - off ≤ fuel)
    (h : readbackLoop sha r len fuel off st = .ok st') :
    ∃ chunks : List (List UInt8), st' = chunks.foldl sha.update st ∧
      chunks.flatten = slotBytes r.flash off (len - off) := by
  induction fuel generalizing off st with
  | zero =>
    cases h
    have hdone : len - off = 0 := by omega
    refine ⟨[],rfl,?_⟩
    rw [hdone]
    rfl
  | succ fuel ih =>
    rw [readbackLoop] at h
    by_cases hmore : off < len
    · rw [if_pos hmore] at h
      dsimp only at h
      generalize hn : min kReadbackChunk (len - off) = n at h
      have hstep : 0 < n ∧ n ≤ len - off := by
        have hchunk : 0 < kReadbackChunk := by decide
        omega
      by_cases hread : r.partitionRead off n = false
      · rw [if_pos hread] at h
        cases h
      · rw [if_neg hread] at h
        obtain ⟨chunks,hst,hbytes⟩ := ih (by omega) h
        refine ⟨slotBytes r.flash off n :: chunks,hst,?_⟩
        rw [List.flatten_cons, hbytes, slotBytes_append]
        congr 1
        omega
    · rw [if_neg hmore] at h
      cases h
      have hdone : len - off = 0 := by omega
      refine ⟨[],rfl,?_⟩
      rw [hdone]
      rfl

/-- A readback that succeeds is the digest of exactly the first `len` bytes of the slot. -/
theorem readbackSha256_ok {len : ℕ} {digest : List UInt8}
    (h : readbackSha256 sha r len = .ok digest) :
    digest = sha.digest (slotBytes r.flash 0 len) := by
  unfold readbackSha256 at h
  split at h
  · cases h
  cases hloop : readbackLoop sha r len len 0 sha.init with
  | error err =>
    rw [hloop] at h
    cases h
  | ok st =>
    rw [hloop] at h
    obtain ⟨chunks,hst,hbytes⟩ := readbackLoop_ok sha r (by omega) hloop
    cases h
    rw [hst, sha.final_foldl, hbytes]
    rfl

end Readback

/-! ### What leads to `finish` -/

section Verification
variable (sha : Sha256) (cfg : Config) (r : Replies)

/-- The image that the slot holds is the one that the manifest announces, and the manifest is
signed if a key is provisioned. -/
structure Verified (m : Manifest) : Prop where
  digest : sha.digest (slotBytes r.flash 0 m.imageSize.toNat) = m.imageSha256
  signed : ∀ hex, cfg.pubkeyHex = some hex → hex ≠ [] →
    let pubkey := hexDecode hex (List.replicate kPublicKeyBytes 0)
    pubkey.1 = true ∧
      r.signVerify m.signature (sha.digest (slotBytes r.flash 0 m.imageSize.toNat)) pubkey.2 = true

/-- The manifest has been fetched, parsed and accepted. -/
structure Accepted (m : Manifest) : Prop where
  parsed : ∃ json, fetchJson r = .ok json ∧ parseManifest r json = .ok m
  valid : ∃ size, r.passive = some size ∧
    validate m cfg.runningVersion size (uptimeSec r.timeUs) = none

variable {sha cfg r}

theorem verifySignature_none {m : Manifest} {digest : List UInt8}
    (h : verifySignature cfg r m digest = none) {hex : List UInt8} (hkey : cfg.pubkeyHex = some hex)
    (hne : hex ≠ []) :
    let pubkey := hexDecode hex (List.replicate kPublicKeyBytes 0)
    pubkey.1 = true ∧ r.signVerify m.signature digest pubkey.2 = true := by
  intro pubkey
  unfold verifySignature at h
  rw [hkey] at h
  cases hex with
  | nil => exact absurd rfl hne
  | cons c hex =>
    dsimp only at h
    split at h
    · cases h
    · rename_i hwell
      split at h
      · cases h
      · rename_i hsigned
        exact ⟨Bool.eq_true_of_not_eq_false hwell,Bool.eq_true_of_not_eq_false hsigned⟩

theorem verifyImage_none {m : Manifest} (h : verifyImage sha cfg r m = none) :
    Verified sha cfg r m := by
  unfold verifyImage at h
  split at h
  · cases h
  cases hread : readbackSha256 sha r m.imageSize.toNat with
  | error err =>
    rw [hread] at h
    cases h
  | ok digest =>
    rw [hread] at h
    have hdigest := readbackSha256_ok sha r hread
    dsimp only at h
    split at h
    · cases h
    · rename_i hsame
      have heq : digest = m.imageSha256 := not_not.mp hsame
      refine ⟨hdigest.symm.trans heq,fun hex hkey hne => ?_⟩
      rw [← hdigest]
      exact verifySignature_none h hkey hne

variable (sha cfg r) in
/-- The four ways in which a run ends: before the slot is touched, at a handle that does not
open, with the handle aborted, and at `finish`, behind every check. -/
theorem runInner_cases :
    (∃ err, runInner sha cfg r = ⟨[],[],some err⟩) ∨
    (∃ err, runInner sha cfg r = ⟨[.begin false],[],some err⟩) ∨
    (∃ n progress err, runInner sha cfg r =
      ⟨.begin true :: List.replicate n .perform ++ [.abort],progress,some err⟩) ∨
    (∃ n progress err, runInner sha cfg r =
      ⟨.begin true :: List.replicate n .perform ++ [.finish r.finished],progress,err⟩ ∧
      (err = none ↔ r.finished = true) ∧ ∃ m, Accepted cfg r m ∧ Verified sha cfg r m) := by
  unfold runInner
  cases hfetch : fetchJson r with
  | error err => exact .inl ⟨err,rfl⟩
  | ok json =>
    cases hparse : parseManifest r json with
    | error err => exact .inl ⟨err,by simp [hparse]⟩
    | ok m =>
      cases hpassive : r.passive with
      | none => exact .inl ⟨"no passive OTA partition",by simp [hparse]⟩
      | some size =>
        cases hvalid : validate m cfg.runningVersion size (uptimeSec r.timeUs) with
        | some err => exact .inl ⟨err,by simp [hparse, hvalid]⟩
        | none =>
          right
          simp only [hparse, hvalid, install]
          split
          · exact .inl ⟨_,rfl⟩
          right
          cases himage : verifyImage sha cfg r m with
          | some err => exact .inl ⟨_,_,err,rfl⟩
          | none =>
            refine .inr ⟨_,_,_,rfl,?_,m,⟨⟨json,hfetch,hparse⟩,size,hpassive,hvalid⟩,
              verifyImage_none himage⟩
            cases r.finished with
            | true => simp
            | false => simp

/-- `perform` leaves the handle and the boot slot alone. -/
theorem exec_perform (s : Slot) (n : ℕ) : exec Slot.apply s (List.replicate n .perform) = s := by
  induction n with
  | zero => rfl
  | succ n ih => exact ih

/-- A handle that opens, and the call that ends it. -/
theorem exec_session (s : Slot) (n : ℕ) (c : SlotCall) :
    exec Slot.apply s (.begin true :: List.replicate n .perform ++ [c]) =
      { s with opened := true }.apply c := by
  have hopen : s.apply (.begin true) = { s with opened := true } := rfl
  rw [List.cons_append, exec_cons, exec_append, exec_perform, hopen]
  rfl

end Verification

/-- A run reaches `esp_https_ota_finish`. -/
def Outcome.Commits (o : Outcome) : Prop := ∃ valid, SlotCall.finish valid ∈ o.calls

/-- The boot slot is flipped behind every check only: the manifest was accepted, the bytes in
flash have its digest, and the signature holds under the provisioned key. Every other run ends
with an error, leaves the boot slot alone and aborts the handle that it has opened. -/
theorem update_commits_verified (sha : Sha256) (cfg : Config) (r : Replies) :
    let o := runInner sha cfg r
    (o.Commits → ∃ m, Accepted cfg r m ∧ Verified sha cfg r m) ∧
    (o.error = none ↔ .finish true ∈ o.calls) ∧
    (¬ o.Commits → o.error ≠ none ∧ (.begin true ∈ o.calls → .abort ∈ o.calls)) ∧
    (∀ s : Slot, (o.error ≠ none → (exec Slot.apply s o.calls).boot = s.boot) ∧
      (s.opened = false → (exec Slot.apply s o.calls).opened = false)) := by
  unfold Outcome.Commits
  rcases runInner_cases sha cfg r with ⟨err,ho⟩ | ⟨err,ho⟩ | ⟨n,progress,err,ho⟩ |
    ⟨n,progress,err,ho,hend,hverified⟩
  · rw [ho]
    refine ⟨?_,by simp,fun _ => ⟨nofun,nofun⟩,fun s => ⟨fun _ => rfl,fun hclosed => hclosed⟩⟩
    rintro ⟨valid,hfinish⟩
    cases hfinish
  · rw [ho]
    refine ⟨?_,by simp,fun _ => ⟨nofun,by simp⟩,fun s => ⟨fun _ => rfl,fun hclosed => ?_⟩⟩
    · rintro ⟨valid,hfinish⟩
      simp at hfinish
    · simpa [Slot.apply] using hclosed
  · rw [ho]
    refine ⟨?_,by simp,fun _ => ⟨nofun,by simp⟩,fun s => ?_⟩
    · rintro ⟨valid,hfinish⟩
      simp at hfinish
    · rw [exec_session]
      exact ⟨fun _ => rfl,fun _ => rfl⟩
  · rw [ho]
    refine ⟨fun _ => hverified,?_,fun hno => absurd ⟨r.finished,by simp⟩ hno,fun s => ?_⟩
    · refine hend.trans ⟨fun hvalid => by simp [hvalid],fun hmem => ?_⟩
      have hvalid : true = r.finished := by simpa using hmem
      exact hvalid.symm
    rw [exec_session]
    refine ⟨fun hfailed => ?_,fun _ => rfl⟩
    have hinvalid : r.finished = false :=
      Bool.eq_false_of_not_eq_true fun hvalid => hfailed (hend.mpr hvalid)
    simp [Slot.apply, hinvalid]

/-- A hash that keeps the first bytes. -/
def firstBytes : Sha256 where
  State := List UInt8
  init := []
  update := fun st chunk => st ++ chunk
  final := fun st => (st ++ List.replicate kSha256Bytes 0).take kSha256Bytes
  digest := fun bytes => (bytes ++ List.replicate kSha256Bytes 0).take kSha256Bytes
  final_foldl := fun chunks => by
    have hall : chunks.foldl (fun st chunk => st ++ id chunk) [] = [] ++ (chunks.map id).flatten :=
      List.foldl_append_eq_append
    rw [List.map_id, List.nil_append] at hall
    exact congrArg (fun st => (st ++ List.replicate kSha256Bytes 0).take kSha256Bytes) hall

/-- An image of two bytes with its digest, under a provisioned key. -/
def smallUpdate : Replies where
  clientInit := true
  clientOpen := true
  statusCode := 200
  manifestBuffer := true
  response := some (utf8 "json")
  parse := fun _ => some fun key =>
    if key = "target_version" then some (.string (utf8 "0.2.0"))
    else if key = "image_url" then some (.string (utf8 "http://h/fw.bin"))
    else if key = "image_size" then some (.number (.finite 2))
    else if key = "image_sha256" then
      some (.string (utf8 "0a0B" ++ List.replicate 60 '0'.toUInt8))
    else if key = "ed25519_signature" then some (.string (List.replicate 128 'f'.toUInt8))
    else none
  undefinedCast := fun _ => 0
  passive := some 4096
  timeUs := 5000000
  begun := true
  imageLenRead := [1]
  performed := true
  completeDataReceived := true
  readbackBuffer := true
  flash := fun off => if off = 0 then 10 else 11
  partitionRead := fun _ _ => true
  signVerify := fun _ _ _ => true
  finished := true

theorem update_commits_verified_small :
    let cfg : Config := ⟨utf8 "0.1.0",some (List.replicate 64 'a'.toUInt8)⟩
    let o := runInner firstBytes cfg smallUpdate
    o = ⟨[.begin true, .perform, .perform, .finish true],[50],none⟩ ∧
      ∃ m, Accepted cfg smallUpdate m ∧ Verified firstBytes cfg smallUpdate m := by
  intro cfg o
  have ho : o = ⟨[.begin true, .perform, .perform, .finish true],[50],none⟩ := by decide +kernel
  refine ⟨ho,(update_commits_verified firstBytes cfg smallUpdate).1 ⟨true,?_⟩⟩
  rw [show runInner firstBytes cfg smallUpdate = _ from ho]
  simp

end AlprGate.Ota
