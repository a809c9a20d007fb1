import AlprGate.Library.CText
import AlprGate.Firmware.ManifestDocument

/-! # Hex decoding in memory

`hex_decode` reads its text from memory up to the terminator and writes into an array of the
caller. Here each access is listed in order; the model of the text without its memory, which the
manifest is read by, is what these accesses amount to.
-/
namespace AlprGate.Ota
open CText

/-- An access to a character of the text or to a byte of the output. -/
inductive Access where
  | read (i : ℕ)
  | write (i : ℕ) (b : UInt8)
  deriving DecidableEq, Repr

section Loop
variable (hex : ℕ → UInt8)

/-- The loop from byte `i` on with `n` bytes to go, and the test behind it. -/
def decodeLoop : ℕ → ℕ → Bool × List Access
  | 0, i => (hex (2 * i) == 0,[.read (2 * i)])
  | n + 1, i =>
    match hexNibble (hex (2 * i)) with
    | none => (false,[.read (2 * i)])
    | some hi =>
      match hexNibble (hex (2 * i + 1)) with
      | none => (false,[.read (2 * i),.read (2 * i + 1)])
      | some lo =>
        let r := decodeLoop n (i + 1)
        (r.1,.read (2 * i) :: .read (2 * i + 1) :: .write i (hi <<< 4 ||| lo) :: r.2)

end Loop

/-- `hex_decode` on a pointer that may be null. -/
def hexDecodeAt (hex : Option (ℕ → UInt8)) (outLen : ℕ) : Bool × List Access :=
  match hex with
  | none => (false,[])
  | some hex => decodeLoop hex outLen 0

/-- The output memory after some accesses. -/
def storeAll (out : ℕ → UInt8) : List Access → ℕ → UInt8
  | [] => out
  | .read _ :: as => storeAll out as
  | .write i b :: as => storeAll (Function.update out i b) as

/-- Memory from the start of a string on, with its first zero byte. -/
structure CStr where
  mem : ℕ → UInt8
  len : ℕ
  nul : mem len = 0
  nonzero : ∀ j < len, mem j ≠ 0

/-- The characters in front of the terminator. -/
def CStr.text (s : CStr) : List UInt8 := (List.range' 0 s.len).map s.mem

/-! ### Digits -/

theorem hexNibble_eq (c : UInt8) : hexNibble c = (hexValue c).map UInt8.ofNat := by
  have hall : ∀ n < 256, hexNibble (UInt8.ofNat n) = (hexValue (UInt8.ofNat n)).map UInt8.ofNat := by
    decide +kernel
  have hc := hall c.toNat c.toNat_lt
  rwa [UInt8.ofNat_toNat] at hc

theorem hexValue_of_hexNibble {c h : UInt8} (hc : hexNibble c = some h) :
    hexValue c = some h.toNat := by
  rw [hexNibble_eq] at hc
  obtain ⟨d,hd,rfl⟩ := Option.map_eq_some_iff.mp hc
  have hlt : d < 256 := Nat.lt_of_lt_of_le (hexValue_lt hd) (by decide)
  rw [hd, UInt8.toNat_ofNat_of_lt' hlt]

/-- Two nibbles side by side. -/
theorem toNat_nibbles {hi lo : UInt8} (hhi : hi.toNat < 16) (hlo : lo.toNat < 16) :
    (hi <<< 4 ||| lo).toNat = 16 * hi.toNat + lo.toNat := by
  have hshift : (hi <<< 4).toNat = 2 ^ 4 * hi.toNat := by
    have hpow : 2 ^ ((4 : UInt8).toNat % 8) = 16 := rfl
    rw [UInt8.toNat_shiftLeft, Nat.shiftLeft_eq, hpow]
    omega
  rw [UInt8.toNat_or, hshift, ← Nat.two_pow_add_eq_or_of_lt hlo]

/-- Decoding inverts printing, up to letter case. -/
theorem printHex_hexDecode (hex out : List UInt8) (h : (hexDecode hex out).1 = true) :
    printHex (hexDecode hex out).2 = hex.map toLower := by
  fun_induction hexDecode hex out with
  | case1 hex =>
    rw [List.isEmpty_iff.mp h]
    rfl
  | case2 hi lo hex byte out high low hlo hhi r ih =>
    have hhigh := hexValue_of_hexNibble hhi
    have hlow := hexValue_of_hexNibble hlo
    have hvalue := toNat_nibbles (hexValue_lt hhigh) (hexValue_lt hlow)
    have hlt := hexValue_lt hlow
    rw [printHex_cons, hvalue, ih h, List.map_cons, List.map_cons, toLower_of_hexValue hhigh,
      toLower_of_hexValue hlow]
    congr 2
    · omega
    · congr 1
      omega
  | case3 => cases h
  | case4 => cases h

/-! ### Accesses -/

section Accesses
variable {hex : ℕ → UInt8}

theorem storeAll_of_unwritten {as : List Access} {j : ℕ} (h : ∀ b, Access.write j b ∉ as)
    (out : ℕ → UInt8) : storeAll out as j = out j := by
  induction as generalizing out with
  | nil => rfl
  | cons a as ih =>
    have hrest := ih fun b hb => h b (List.mem_cons_of_mem _ hb)
    cases a with
    | read i => exact hrest out
    | write i b =>
      rw [storeAll, hrest]
      refine Function.update_of_ne ?_ _ _
      rintro rfl
      exact h b List.mem_cons_self

/-- Bytes are written in their order, each inside of the part that is left. -/
theorem write_mem_decodeLoop {n i j : ℕ} {b : UInt8} (h : .write j b ∈ (decodeLoop hex n i).2) :
    i ≤ j ∧ j < i + n := by
  induction n generalizing i with
  | zero => simp [decodeLoop] at h
  | succ n ih =>
    rw [decodeLoop] at h
    cases hhi : hexNibble (hex (2 * i)) with
    | none => simp [hhi] at h
    | some hi =>
      cases hlo : hexNibble (hex (2 * i + 1)) with
      | none => simp [hhi, hlo] at h
      | some lo =>
        simp only [hhi, hlo, List.mem_cons, reduceCtorEq, Access.write.injEq, false_or] at h
        rcases h with ⟨rfl,_⟩ | h
        · omega
        · have hrest := ih h
          omega

end Accesses

section Text
variable (s : CStr)

theorem CStr.length_text : s.text.length = s.len := by simp [text]

theorem CStr.drop_of_lt {i : ℕ} (h : i < s.len) : s.text.drop i = s.mem i :: s.text.drop (i + 1) := by
  have hlength : i < s.text.length := s.length_text ▸ h
  rw [List.drop_eq_getElem_cons hlength]
  simp [text]

theorem CStr.drop_of_le {i : ℕ} (h : s.len ≤ i) : s.text.drop i = [] :=
  List.drop_eq_nil_of_le (s.length_text.trans_le h)

/-- A digit is not the terminator. -/
theorem CStr.lt_of_digit {i : ℕ} {h : UInt8} (hi : i ≤ s.len) (hdigit : hexNibble (s.mem i) = some h) :
    i < s.len := by
  refine Nat.lt_of_le_of_ne hi ?_
  rintro rfl
  rw [s.nul] at hdigit
  cases hdigit

theorem read_mem_decodeLoop {n i j : ℕ} (hi : 2 * i ≤ s.len)
    (h : .read j ∈ (decodeLoop s.mem n i).2) : j ≤ s.len := by
  induction n generalizing i with
  | zero =>
    simp [decodeLoop] at h
    omega
  | succ n ih =>
    rw [decodeLoop] at h
    cases hhi : hexNibble (s.mem (2 * i)) with
    | none =>
      simp [hhi] at h
      omega
    | some hi' =>
      have hlt := s.lt_of_digit hi hhi
      cases hlo : hexNibble (s.mem (2 * i + 1)) with
      | none =>
        simp [hhi, hlo] at h
        omega
      | some lo =>
        have hlt' := s.lt_of_digit hlt hlo
        simp only [hhi, hlo, List.mem_cons, reduceCtorEq, Access.read.injEq, false_or] at h
        rcases h with rfl | rfl | h
        · omega
        · omega
        · exact ih (by omega) h

/-- A pair that is missing, or has a character that is no digit. -/
theorem hexDecode_fails {hex : List UInt8} (byte : UInt8) (out : List UInt8)
    (h : ∀ hi lo rest, hex = hi :: lo :: rest → hexNibble hi = none ∨ hexNibble lo = none) :
    hexDecode hex (byte :: out) = (false,byte :: out) := by
  cases hex with
  | nil => rfl
  | cons hi hex =>
    cases hex with
    | nil => rfl
    | cons lo hex =>
      rw [hexDecode]
      rcases h hi lo hex rfl with hbad | hbad
      · rw [hbad]
      · rw [hbad]
        cases hexNibble hi with
        | none => rfl
        | some high => rfl

/-- The loop decodes what is left of the text into what is left of the output. -/
theorem decodeLoop_spec (n i : ℕ) (out : ℕ → UInt8) (hi : 2 * i ≤ s.len) :
    hexDecode (s.text.drop (2 * i)) ((List.range' i n).map out) =
      ((decodeLoop s.mem n i).1,(List.range' i n).map (storeAll out (decodeLoop s.mem n i).2)) := by
  induction n generalizing i out with
  | zero =>
    obtain hend | hmore := Nat.eq_or_lt_of_le hi
    · rw [s.drop_of_le hend.ge]
      simp [decodeLoop, hexDecode, hend, s.nul]
    · rw [s.drop_of_lt hmore]
      simp [decodeLoop, hexDecode, s.nonzero _ hmore]
  | succ n ih =>
    rw [List.range'_succ, List.map_cons, decodeLoop]
    cases hhi : hexNibble (s.mem (2 * i)) with
    | none =>
      refine hexDecode_fails _ _ ?_
      intro hi' lo rest hdrop
      obtain hend | hmore := Nat.eq_or_lt_of_le hi
      · rw [s.drop_of_le hend.ge] at hdrop
        cases hdrop
      · rw [s.drop_of_lt hmore] at hdrop
        obtain ⟨rfl,_⟩ := List.cons.inj hdrop
        exact Or.inl hhi
    | some high =>
      have hlt := s.lt_of_digit hi hhi
      rw [s.drop_of_lt hlt]
      cases hlo : hexNibble (s.mem (2 * i + 1)) with
      | none =>
        refine hexDecode_fails _ _ ?_
        intro hi' lo rest hdrop
        obtain hend | hmore := Nat.eq_or_lt_of_le hlt
        · rw [s.drop_of_le hend.ge] at hdrop
          cases hdrop
        · rw [s.drop_of_lt hmore] at hdrop
          cases hdrop
          exact Or.inr hlo
      | some low =>
        have hlt' := s.lt_of_digit hlt hlo
        rw [s.drop_of_lt hlt', hexDecode, hhi, hlo]
        dsimp only
        generalize high <<< 4 ||| low = b
        -- the bytes behind this one do not see that it is written
        have hrest := ih (i + 1) (Function.update out i b) (by omega)
        have hsame : (List.range' (i + 1) n).map (Function.update out i b) =
            (List.range' (i + 1) n).map out := by
          apply List.map_congr_left
          intro j hj
          have hle := (List.mem_range'_1.mp hj).1
          exact Function.update_of_ne (by omega) _ _
        rw [hsame, show 2 * (i + 1) = 2 * i + 1 + 1 by omega] at hrest
        have hkept : storeAll (Function.update out i b) (decodeLoop s.mem n (i + 1)).2 i = b := by
          rw [storeAll_of_unwritten, Function.update_self]
          intro b' hwrite
          have hle := (write_mem_decodeLoop hwrite).1
          omega
        rw [hrest]
        simp only [storeAll, List.map_cons, hkept]

end Text

/-- `hex_decode` accepts exactly the strings of two hex digits for each byte of the output, which
then holds the only bytes that are printed as that string, up to letter case. It reads up to the
terminator at most and writes into the output only. -/
theorem hex_decode_exact (s : CStr) (n : ℕ) (out : ℕ → UInt8) :
    let r := hexDecodeAt (some s.mem) n
    let bytes := (List.range' 0 n).map (storeAll out r.2)
    (r.1 = true ↔ IsHex (2 * n) s.text) ∧
    (r.1 = true → ∀ bs, printHex bs = s.text.map toLower ↔ bs = bytes) ∧
    (∀ j, .read j ∈ r.2 → j ≤ s.len) ∧
    (∀ j b, .write j b ∈ r.2 → j < n) ∧
    ∀ j, n ≤ j → storeAll out r.2 j = out j := by
  intro r bytes
  have hspec := decodeLoop_spec s n 0 out (Nat.zero_le _)
  rw [Nat.mul_zero, List.drop_zero] at hspec
  have hwrites : ∀ j b, .write j b ∈ r.2 → j < n := by
    intro j b h
    have hlt := (write_mem_decodeLoop h).2
    omega
  refine ⟨?_,?_,?_,hwrites,?_⟩
  · have hiff := hexDecode_iff s.text ((List.range' 0 n).map out)
    rw [hspec, List.length_map, List.length_range'] at hiff
    exact hiff
  · intro hok bs
    have hprint := printHex_hexDecode s.text ((List.range' 0 n).map out)
    rw [hspec] at hprint
    constructor
    · intro hbs
      exact printHex_injective (hbs.trans (hprint hok).symm)
    · rintro rfl
      exact hprint hok
  · intro j h
    exact read_mem_decodeLoop s (Nat.zero_le _) h
  · intro j hj
    apply storeAll_of_unwritten
    intro b h
    have hlt := hwrites j b h
    omega

end AlprGate.Ota
