import AlprGate.Firmware.OtaUpdater

/-! # Image bytes and hashed bytes

How many bytes are hashed is what the manifest says; how many are written is what the image
server sends. Bytes of the response beyond the manifest's size are staged without having been
hashed, and where the response is shorter the hash goes on over what the slot held before. A run
succeeds with a response of another length if those bytes have the digest.
-/
namespace AlprGate.Ota
open Rpc

/-- The body that the image server sends, and the slot before it is written. The library writes
exactly the body. -/
structure ImageResponse where
  body : List UInt8
  old : ℕ → UInt8

namespace ImageResponse

/-- The slot after the download. -/
def written (img : ImageResponse) (off : ℕ) : UInt8 := img.body[off]?.getD (img.old off)

/-- The first `n` bytes of the slot: the body cut there, or completed from the old content. -/
def hashed (img : ImageResponse) (n : ℕ) : List UInt8 :=
  img.body.take n ++ slotBytes img.old img.body.length (n - img.body.length)

theorem slotBytes_written (img : ImageResponse) (n : ℕ) :
    slotBytes img.written 0 n = img.hashed n := by
  apply List.ext_getElem
  · simp only [slotBytes, hashed, List.length_map, List.length_range', List.length_append,
      List.length_take]
    omega
  · intro i hi _
    have hn : i < n := by simpa [slotBytes] using hi
    simp only [slotBytes, hashed, List.getElem_map, List.getElem_range', Nat.zero_add, Nat.one_mul,
      written, List.getElem_append, List.length_take]
    by_cases hbody : i < img.body.length
    · simp [hbody, hn]
    · have hge : min n img.body.length = img.body.length := by omega
      have hsum : img.body.length + (i - img.body.length) = i := by omega
      simp [hbody, hge, hsum]

/-- A response of the announced length is hashed as a whole. -/
theorem hashed_length (img : ImageResponse) : img.hashed img.body.length = img.body := by
  simp [hashed, slotBytes]

/-- Nothing that is sent after the announced length is hashed. -/
theorem hashed_append (img : ImageResponse) (extra : List UInt8) :
    { img with body := img.body ++ extra }.hashed img.body.length = img.body := by
  simp [hashed, slotBytes]

end ImageResponse

/-- The run in which the image server answers so. -/
def Replies.receiving (r : Replies) (img : ImageResponse) : Replies := { r with flash := img.written }

/-! ### When a run succeeds -/

section Success
variable (sha : Sha256) (cfg : Config) (r : Replies)

/-- Every read of the readback goes through. -/
def ReadsBack (len : ℕ) : Prop :=
  ∀ k, k * kReadbackChunk < len →
    r.partitionRead (k * kReadbackChunk) (min kReadbackChunk (len - k * kReadbackChunk)) = true

theorem no_chunk_beyond {i k len : ℕ} (h : len ≤ i * kReadbackChunk) (hk : i ≤ k) :
    ¬ k * kReadbackChunk < len := by
  have hle := Nat.mul_le_mul_right kReadbackChunk hk
  omega

/-- Behind the last byte the loop is over, whatever fuel is left. -/
theorem readbackLoop_done {len off : ℕ} (h : len ≤ off) (fuel : ℕ) (st : sha.State) :
    readbackLoop sha r len fuel off st = .ok st := by
  cases fuel with
  | zero => rfl
  | succ fuel => rw [readbackLoop, if_neg (Nat.not_lt.mpr h)]

theorem readbackLoop_isOk_iff {len fuel : ℕ} (i : ℕ) (st : sha.State)
    (hfuel : len - i * kReadbackChunk ≤ fuel) :
    (∃ st', readbackLoop sha r len fuel (i * kReadbackChunk) st = .ok st') ↔
      ∀ k, i ≤ k → k * kReadbackChunk < len →
        r.partitionRead (k * kReadbackChunk) (min kReadbackChunk (len - k * kReadbackChunk)) =
          true := by
  induction fuel generalizing i st with
  | zero => exact iff_of_true ⟨st,rfl⟩ fun k hk hlt => absurd hlt (no_chunk_beyond (by omega) hk)
  | succ fuel ih =>
    rw [readbackLoop]
    by_cases hmore : i * kReadbackChunk < len
    · rw [if_pos hmore]
      dsimp only
      cases hread : r.partitionRead (i * kReadbackChunk)
          (min kReadbackChunk (len - i * kReadbackChunk)) with
      | false =>
        rw [if_pos rfl]
        constructor
        · rintro ⟨st',h⟩
          cases h
        · intro h
          cases hread.symm.trans (h i le_rfl hmore)
      | true =>
        rw [if_neg (by simp)]
        by_cases hlast : len - i * kReadbackChunk ≤ kReadbackChunk
        · -- the chunk that ends the image, however short it is
          have hend : i * kReadbackChunk + min kReadbackChunk (len - i * kReadbackChunk) = len := by
            omega
          rw [hend, readbackLoop_done sha r le_rfl]
          refine iff_of_true ⟨_,rfl⟩ ?_
          intro k hk hlt
          obtain rfl | hgt := Nat.eq_or_lt_of_le hk
          · exact hread
          · exact absurd hlt (no_chunk_beyond (by rw [Nat.succ_mul]; omega) hgt)
        · have hnext : i * kReadbackChunk + min kReadbackChunk (len - i * kReadbackChunk) =
              (i + 1) * kReadbackChunk := by
            rw [Nat.succ_mul]
            omega
          have hchunk : 0 < kReadbackChunk := by decide
          rw [hnext, ih (i + 1) _ (by rw [Nat.succ_mul]; omega)]
          constructor
          · intro h k hk hlt
            obtain rfl | hgt := Nat.eq_or_lt_of_le hk
            · exact hread
            · exact h k hgt hlt
          · intro h k hk hlt
            exact h k (by omega) hlt
    · rw [if_neg hmore]
      exact iff_of_true ⟨st,rfl⟩ fun k hk hlt => absurd hlt (no_chunk_beyond (by omega) hk)

theorem readbackSha256_isOk_iff (len : ℕ) :
    (∃ digest, readbackSha256 sha r len = .ok digest) ↔
      r.readbackBuffer = true ∧ ReadsBack r len := by
  have hfuel : len - 0 * kReadbackChunk ≤ len := Nat.sub_le _ _
  have hloop := readbackLoop_isOk_iff sha r 0 sha.init hfuel
  rw [Nat.zero_mul] at hloop
  unfold readbackSha256
  cases r.readbackBuffer with
  | false => simp
  | true =>
    rw [if_neg (by simp)]
    cases hresult : readbackLoop sha r len len 0 sha.init with
    | error err =>
      rw [hresult] at hloop
      constructor
      · rintro ⟨digest,h⟩
        cases h
      · rintro ⟨_,hreads⟩
        obtain ⟨st,h⟩ := hloop.mpr fun k _ => hreads k
        cases h
    | ok st =>
      rw [hresult] at hloop
      exact iff_of_true ⟨_,rfl⟩ ⟨rfl,fun k => hloop.mp ⟨st,rfl⟩ k (Nat.zero_le k)⟩

theorem verifySignature_eq_none_iff (m : Manifest) (digest : List UInt8) :
    verifySignature cfg r m digest = none ↔ ∀ hex, cfg.pubkeyHex = some hex → hex ≠ [] →
      let pubkey := hexDecode hex (List.replicate kPublicKeyBytes 0)
      pubkey.1 = true ∧ r.signVerify m.signature digest pubkey.2 = true := by
  constructor
  · intro h hex hkey hne
    exact verifySignature_none h hkey hne
  · intro h
    unfold verifySignature
    cases hkey : cfg.pubkeyHex with
    | none => rfl
    | some hex =>
      cases hex with
      | nil => rfl
      | cons c hex =>
        obtain ⟨hwell,hsigned⟩ := h (c :: hex) hkey (List.cons_ne_nil c hex)
        dsimp only
        rw [if_neg (by simp [hwell]), if_neg (by simp [hsigned])]

/-- Network, flash and library do their part of an installation. -/
structure Delivers (len : ℕ) : Prop where
  begun : r.begun = true
  performed : r.performed = true
  complete : r.completeDataReceived = true
  buffer : r.readbackBuffer = true
  reads : ReadsBack r len
  finished : r.finished = true

theorem verifyImage_eq_none_iff (m : Manifest) :
    verifyImage sha cfg r m = none ↔ r.performed = true ∧ r.completeDataReceived = true ∧
      r.readbackBuffer = true ∧ ReadsBack r m.imageSize.toNat ∧ Verified sha cfg r m := by
  constructor
  · intro h
    have hverified := verifyImage_none h
    have hread : ∃ digest, readbackSha256 sha r m.imageSize.toNat = .ok digest := by
      unfold verifyImage at h
      split at h
      · cases h
      cases hresult : readbackSha256 sha r m.imageSize.toNat with
      | error err =>
        rw [hresult] at h
        cases h
      | ok digest => exact ⟨digest,rfl⟩
    obtain ⟨hbuffer,hreads⟩ := (readbackSha256_isOk_iff sha r m.imageSize.toNat).mp hread
    unfold verifyImage at h
    split at h
    · cases h
    · rename_i hdone
      rw [not_or, Bool.not_eq_false, Bool.not_eq_false] at hdone
      exact ⟨hdone.1,hdone.2,hbuffer,hreads,hverified⟩
  · rintro ⟨hperformed,hcomplete,hbuffer,hreads,hverified⟩
    obtain ⟨digest,hread⟩ := (readbackSha256_isOk_iff sha r m.imageSize.toNat).mpr ⟨hbuffer,hreads⟩
    have hdigest := readbackSha256_ok sha r hread
    unfold verifyImage
    rw [if_neg (by simp [hperformed, hcomplete]), hread]
    dsimp only
    rw [if_neg (not_not.mpr (hdigest.trans hverified.digest)), verifySignature_eq_none_iff, hdigest]
    exact hverified.signed

/-- A run succeeds exactly behind an accepted manifest, if everything is delivered and verified. -/
theorem runInner_succeeds_iff :
    (runInner sha cfg r).error = none ↔ ∃ m, Accepted cfg r m ∧ Delivers r m.imageSize.toNat ∧
      Verified sha cfg r m := by
  constructor
  · intro h
    unfold runInner at h
    cases hfetch : fetchJson r with
    | error err => simp [hfetch] at h
    | ok json =>
      cases hparse : parseManifest r json with
      | error err => simp [hfetch, hparse] at h
      | ok m =>
        cases hpassive : r.passive with
        | none => simp [hfetch, hparse, hpassive] at h
        | some size =>
          cases hvalid : validate m cfg.runningVersion size (uptimeSec r.timeUs) with
          | some err => simp [hfetch, hparse, hpassive, hvalid] at h
          | none =>
            simp only [hfetch, hparse, hpassive, hvalid, install] at h
            cases hbegun : r.begun with
            | false => simp [hbegun] at h
            | true =>
              cases himage : verifyImage sha cfg r m with
              | some err => simp [hbegun, himage] at h
              | none =>
                have hfinished : r.finished = true := by simpa [hbegun, himage] using h
                obtain ⟨hperformed,hcomplete,hbuffer,hreads,hverified⟩ :=
                  (verifyImage_eq_none_iff sha cfg r m).mp himage
                exact ⟨m,⟨⟨json,hfetch,hparse⟩,size,hpassive,hvalid⟩,
                  ⟨hbegun,hperformed,hcomplete,hbuffer,hreads,hfinished⟩,hverified⟩
  · rintro ⟨m,⟨⟨json,hfetch,hparse⟩,size,hpassive,hvalid⟩,hdelivers,hverified⟩
    have himage := (verifyImage_eq_none_iff sha cfg r m).mpr
      ⟨hdelivers.performed,hdelivers.complete,hdelivers.buffer,hdelivers.reads,hverified⟩
    simp [runInner, hfetch, hparse, hpassive, hvalid, install, hdelivers.begun, himage,
      hdelivers.finished]

theorem Accepted.unique {m m' : Manifest} (h : Accepted cfg r m) (h' : Accepted cfg r m') :
    m = m' := by
  obtain ⟨json,hfetch,hparse⟩ := h.parsed
  obtain ⟨json',hfetch',hparse'⟩ := h'.parsed
  cases hfetch.symm.trans hfetch'
  exact Except.ok.inj (hparse.symm.trans hparse')

end Success

/-! ### Responses of another length -/

section Coverage
variable (sha : Sha256) (cfg : Config) (r : Replies)

/-- The response passes all that a run checks of it. -/
structure Passes (img : ImageResponse) (m : Manifest) : Prop where
  delivers : Delivers r m.imageSize.toNat
  digest : sha.digest (img.hashed m.imageSize.toNat) = m.imageSha256
  signed : ∀ hex, cfg.pubkeyHex = some hex → hex ≠ [] →
    let pubkey := hexDecode hex (List.replicate kPublicKeyBytes 0)
    pubkey.1 = true ∧ r.signVerify m.signature m.imageSha256 pubkey.2 = true

variable {sha cfg r}

theorem runInner_receiving_iff (img : ImageResponse) :
    (runInner sha cfg (r.receiving img)).error = none ↔
      ∃ m, Accepted cfg r m ∧ Passes sha cfg r img m := by
  rw [runInner_succeeds_iff]
  have hhashed : ∀ n, slotBytes (r.receiving img).flash 0 n = img.hashed n := img.slotBytes_written
  constructor
  · rintro ⟨m,⟨hparsed,hvalid⟩,⟨hbegun,hperformed,hcomplete,hbuffer,hreads,hfinished⟩,
      ⟨hdigest,hsigned⟩⟩
    rw [hhashed] at hdigest hsigned
    rw [hdigest] at hsigned
    exact ⟨m,⟨hparsed,hvalid⟩,⟨hbegun,hperformed,hcomplete,hbuffer,hreads,hfinished⟩,hdigest,
      hsigned⟩
  · rintro ⟨m,⟨hparsed,hvalid⟩,⟨hbegun,hperformed,hcomplete,hbuffer,hreads,hfinished⟩,hdigest,
      hsigned⟩
    refine ⟨m,⟨hparsed,hvalid⟩,⟨hbegun,hperformed,hcomplete,hbuffer,hreads,hfinished⟩,?_,?_⟩
    · rw [hhashed]
      exact hdigest
    · rw [hhashed, hdigest]
      exact hsigned

/-- What comes behind an image that is accepted is accepted with it, whatever the hash. -/
theorem runInner_receiving_append {img : ImageResponse} {m : Manifest} (hm : Accepted cfg r m)
    (hlength : img.body.length = m.imageSize.toNat)
    (h : (runInner sha cfg (r.receiving img)).error = none) (extra : List UInt8) :
    (runInner sha cfg (r.receiving { img with body := img.body ++ extra })).error = none := by
  obtain ⟨m',hm',hpasses⟩ := (runInner_receiving_iff img).mp h
  cases Accepted.unique cfg r hm hm'
  refine (runInner_receiving_iff _).mpr ⟨m,hm,hpasses.delivers,?_,hpasses.signed⟩
  have hdigest := hpasses.digest
  rw [← hlength, img.hashed_length] at hdigest
  rw [← hlength, img.hashed_append]
  exact hdigest

/-- A run that succeeds has staged exactly the image that was hashed, for exactly those responses
that have the announced length or fail one of the other checks. -/
theorem staged_image_covered_iff (sha : Sha256) (cfg : Config) (r : Replies) (img : ImageResponse) :
    ((runInner sha cfg (r.receiving img)).error = none → ∃ m, Accepted cfg r m ∧
      img.body.length = m.imageSize.toNat ∧ sha.digest img.body = m.imageSha256) ↔
      ∀ m, Accepted cfg r m → img.body.length = m.imageSize.toNat ∨ ¬ Passes sha cfg r img m := by
  rw [runInner_receiving_iff]
  constructor
  · intro h m hm
    by_cases hpasses : Passes sha cfg r img m
    · obtain ⟨m',hm',hlength,_⟩ := h ⟨m,hm,hpasses⟩
      cases Accepted.unique cfg r hm hm'
      exact Or.inl hlength
    · exact Or.inr hpasses
  · rintro h ⟨m,hm,hpasses⟩
    have hlength := (h m hm).resolve_right (not_not.mpr hpasses)
    have hdigest := hpasses.digest
    rw [← hlength, img.hashed_length] at hdigest
    exact ⟨m,hm,hlength,hdigest⟩

theorem imageSize_smallUpdate {m : Manifest} (h : Accepted cfg smallUpdate m) :
    m.imageSize.toNat = 2 := by
  obtain ⟨json,_,hparse⟩ := h.parsed
  cases hparse
  decide +kernel

/-- An image of two bytes is announced. Three bytes are staged of which the last is not hashed;
and one byte is staged, with the second one taken from the slot's old content. -/
theorem staged_image_not_covered :
    let cfg : Config := ⟨utf8 "0.1.0",some (List.replicate 64 'a'.toUInt8)⟩
    let longer : ImageResponse := ⟨[10, 11, 12],fun _ => 255⟩
    let shorter : ImageResponse := ⟨[10],fun _ => 11⟩
    ((runInner firstBytes cfg (smallUpdate.receiving longer)).error = none ∧
      ¬ ∃ m, Accepted cfg smallUpdate m ∧ longer.body.length = m.imageSize.toNat) ∧
    (runInner firstBytes cfg (smallUpdate.receiving shorter)).error = none ∧
      ¬ ∃ m, Accepted cfg smallUpdate m ∧ shorter.body.length = m.imageSize.toNat := by
  intro cfg longer shorter
  refine ⟨⟨by decide +kernel,?_⟩,by decide +kernel,?_⟩
  · rintro ⟨m,hm,hlength⟩
    rw [imageSize_smallUpdate hm] at hlength
    cases hlength
  · rintro ⟨m,hm,hlength⟩
    rw [imageSize_smallUpdate hm] at hlength
    cases hlength

end Coverage
end AlprGate.Ota
