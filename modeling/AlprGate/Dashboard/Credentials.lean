import AlprGate.Library.CText
import AlprGate.Library.JsonValue
import AlprGate.Server.Allowlist

/-! # The admin credential

The password is stored as `pbkdf2-sha256$iterations$salt$key`, with salt and key in hex.
Verification splits the text at its first three dollar signs, converts the fields by the readers of
the C library and compares the derived key. What PBKDF2 computes is left open.
-/
namespace AlprGate.DashApi
open Auth CText JsonValue

def kSaltBytes : ℕ := 16
def kKeyBytes : ℕ := 32

/-- PBKDF2 with HMAC-SHA-256, as a function of password, salt and count. -/
structure Pbkdf2 where
  derive : Text → Text → BitVec 32 → Text
  length_derive : ∀ password salt iterations, (derive password salt iterations).length = kKeyBytes

/-- `unsigned long` has 64 bits. -/
def kULongBits : ℕ := 64

def kDollar : UInt8 := 36

def kScheme : Text := ascii "pbkdf2-sha256"

/-- Each terminator that `snprintf` writes is overwritten by the next byte, or is the one of the
string. -/
def toHex (data : Text) : Text := printHex data

/-- The bytes at the even positions of a string, each read from the whole rest of it. -/
def readBytes : Text → Option Text
  | a :: b :: hex =>
    match scanHex 2 (a :: b :: hex) with
    | none => none
    | some byte => (readBytes hex).map (UInt8.ofBitVec (byte.setWidth 8) :: ·)
  | _ => some []

def fromHex (hex : Text) : Option Text :=
  if hex = [] ∨ hex.length % 2 ≠ 0 then none else readBytes hex

/-- `none` where there is no entropy for the salt. -/
def hashPassword (kdf : Pbkdf2) (salt : Option (Vector UInt8 kSaltBytes)) (password : Text)
    (iterations : BitVec 32) : Option Text :=
  salt.map fun salt =>
    kScheme ++ kDollar :: (printDecimal iterations.toNat ++ kDollar :: (toHex salt.toList ++
      kDollar :: toHex (kdf.derive password salt.toList iterations)))

/-- The position behind a place that was found; behind `npos` it is the first one. -/
def behind : Option ℕ → ℕ
  | none => 0
  | some d => d + 1

def substr (s : Text) (pos count : ℕ) : Text := (s.drop pos).take count

section Verify
variable (kdf : Pbkdf2) (password : Text)

/-- The iteration count, if it is one that is accepted. -/
def readIterations (field : Text) : Option (BitVec 32) :=
  match stoul kULongBits field with
  | none => none
  | some parsed => if parsed = 0 ∨ 10000000 < parsed then none else some (parsed.setWidth 32)

/-- The part behind the splitting. -/
def verifyFields (iterations salt key : Text) : Bool :=
  match readIterations iterations with
  | none => false
  | some iterations =>
    match fromHex salt with
    | none => false
    | some salt =>
      match fromHex key with
      | none => false
      | some expected =>
        if expected.length ≠ kKeyBytes then false
        else kdf.derive password salt iterations = expected

def verifyPassword (stored : Text) : Bool :=
  let d1 := find stored kDollar 0
  let d2 := find stored kDollar (behind d1)
  let d3 := find stored kDollar (behind d2)
  match d1, d2, d3 with
  | some d1, some d2, some d3 =>
    if stored.take d1 ≠ kScheme then false
    else verifyFields kdf password (substr stored (d1 + 1) (d2 - d1 - 1))
      (substr stored (d2 + 1) (d3 - d2 - 1)) (stored.drop (d3 + 1))
  | _, _, _ => false

structure AuthConfig where
  adminUser : Text := ascii "admin"
  passwordHash : Text

def AuthConfig.enabled (cfg : AuthConfig) : Bool := cfg.passwordHash ≠ []

def checkCredentials (cfg : AuthConfig) (user : Text) : Bool :=
  if cfg.enabled = false ∨ user ≠ cfg.adminUser then false
  else verifyPassword kdf password cfg.passwordHash

end Verify

/-- The text with the given fields. -/
def storedHash (iterations salt key : Text) : Text :=
  kScheme ++ kDollar :: (iterations ++ kDollar :: (salt ++ kDollar :: key))

/-- The documented form: a number from 1 to ten million, and salt and key in hex. -/
def WellFormed (stored : Text) : Prop :=
  ∃ iterations salt key, stored = storedHash iterations salt key ∧
    (iterations ≠ [] ∧ AllDigits digitValue iterations ∧
      1 ≤ numeral 10 (leading digitValue iterations) ∧
      numeral 10 (leading digitValue iterations) ≤ 10000000) ∧
    (salt ≠ [] ∧ salt.length % 2 = 0 ∧ AllDigits hexValue salt) ∧
    key.length = 64 ∧ AllDigits hexValue key

/-- The fields hold digits and nothing else. -/
def PlainFields (stored : Text) : Prop :=
  ∃ iterations salt key, stored = storedHash iterations salt key ∧
    AllDigits digitValue iterations ∧ AllDigits hexValue salt ∧ AllDigits hexValue key

/-- The counts that are read: blanks, a sign and digits, and anything behind them. The number fits
into an `unsigned long`, in which a negative one wraps. -/
def LenientCount (field : Text) : Prop :=
  ∃ negative digits, DecimalNumber digits negative field ∧
    numeral 10 (leading digitValue digits) < 2 ^ kULongBits ∧
    let count := if negative = true then 2 ^ kULongBits - numeral 10 (leading digitValue digits)
      else numeral 10 (leading digitValue digits)
    1 ≤ count ∧ count ≤ 10000000

/-- The salts and keys that are read: a byte is shown from every second character on. -/
def LenientHex (hex : Text) : Prop :=
  hex ≠ [] ∧ hex.length % 2 = 0 ∧ ∀ i, 2 * i < hex.length → HexByte (hex.drop (2 * i))

/-- The texts that are read as a hash, whatever is derived. -/
def LenientForm (stored : Text) : Prop :=
  ∃ iterations salt key, stored = storedHash iterations salt key ∧ kDollar ∉ iterations ∧
    kDollar ∉ salt ∧ LenientCount iterations ∧ LenientHex salt ∧ LenientHex key ∧ key.length = 64

/-! ### Splitting -/

section Splitting
variable (kdf : Pbkdf2) (password : Text)

theorem dollar_notMem_of_hex {s : Text} (h : AllDigits hexValue s) : kDollar ∉ s := by
  intro hmem
  cases h _ hmem

theorem dollar_notMem_of_decimal {s : Text} (h : AllDigits digitValue s) : kDollar ∉ s :=
  dollar_notMem_of_hex fun c hc => hexValue_isSome_of_digitValue (h c hc)

/-- The field behind a separator, from the position where it is searched. -/
theorem find_behind (front : Text) {field rest s : Text} {pos : ℕ} (h : kDollar ∉ field)
    (hs : s = front ++ kDollar :: (field ++ kDollar :: rest)) (hpos : pos = front.length + 1) :
    find s kDollar pos = some (pos + field.length) := by
  have hfind := find_field (front ++ [kDollar]) h rest
  rw [List.append_assoc, List.singleton_append, ← hs, List.length_append, List.length_singleton,
    ← hpos] at hfind
  exact hfind

theorem find_behind_end (front : Text) {field s : Text} {pos : ℕ} (h : kDollar ∉ field)
    (hs : s = front ++ kDollar :: field) (hpos : pos = front.length + 1) :
    find s kDollar pos = none := by
  have hfind := find_end (front ++ [kDollar]) h
  rw [List.append_assoc, List.singleton_append, ← hs, List.length_append, List.length_singleton,
    ← hpos] at hfind
  exact hfind

theorem drop_behind {front rest s : Text} {pos : ℕ} (hs : s = front ++ kDollar :: rest)
    (hpos : pos = front.length + 1) : s.drop pos = rest := by
  rw [hs, hpos, ← List.drop_drop, List.drop_left]
  rfl

/-- Verification of a text with three dollar signs is that of its fields. -/
theorem verifyPassword_fields {scheme iterations salt : Text} (hscheme : kDollar ∉ scheme)
    (hiterations : kDollar ∉ iterations) (hsalt : kDollar ∉ salt) (key : Text) :
    verifyPassword kdf password
        (scheme ++ kDollar :: (iterations ++ kDollar :: (salt ++ kDollar :: key))) =
      if scheme ≠ kScheme then false else verifyFields kdf password iterations salt key := by
  generalize hs : scheme ++ kDollar :: (iterations ++ kDollar :: (salt ++ kDollar :: key)) = s
  have hsecond : s = (scheme ++ kDollar :: iterations) ++ kDollar :: (salt ++ kDollar :: key) := by
    simp [← hs]
  have hthird : s = (scheme ++ kDollar :: (iterations ++ kDollar :: salt)) ++ kDollar :: key := by
    simp [← hs]
  generalize hd2 : scheme.length + 1 + iterations.length = d2
  generalize hd3 : d2 + 1 + salt.length = d3
  have hpos2 : d2 + 1 = (scheme ++ kDollar :: iterations).length + 1 := by
    simp
    omega
  have hpos3 : d3 + 1 = (scheme ++ kDollar :: (iterations ++ kDollar :: salt)).length + 1 := by
    simp
    omega
  have hfind1 : find s kDollar 0 = some scheme.length := by
    have hfind := find_field [] hscheme (iterations ++ kDollar :: (salt ++ kDollar :: key))
    rwa [List.nil_append, hs, List.length_nil, Nat.zero_add] at hfind
  have hfind2 := find_behind scheme hiterations hs.symm rfl
  have hfind3 := find_behind _ hsalt hsecond hpos2
  rw [hd2] at hfind2
  rw [hd3] at hfind3
  have htake : s.take scheme.length = scheme := by rw [← hs, List.take_left]
  have hlength2 : d2 - scheme.length - 1 = iterations.length := by omega
  have hlength3 : d3 - d2 - 1 = salt.length := by omega
  unfold verifyPassword
  simp only [hfind1, behind, hfind2, hfind3, htake, hlength2, hlength3, substr,
    drop_behind hs.symm rfl, drop_behind hsecond hpos2, drop_behind hthird hpos3, List.take_left]

/-- A text that is accepted has three dollar signs and the name of the scheme. -/
theorem exists_fields_of_verifyPassword {stored : Text}
    (h : verifyPassword kdf password stored = true) :
    ∃ iterations salt key, stored = storedHash iterations salt key ∧ kDollar ∉ iterations ∧
      kDollar ∉ salt ∧ verifyFields kdf password iterations salt key = true := by
  rcases field_cases kDollar stored with ⟨scheme,rest,rfl,hscheme⟩ | hnone
  · have hfind1 := find_field [] hscheme rest
    rw [List.nil_append, List.length_nil, Nat.zero_add] at hfind1
    rcases field_cases kDollar rest with ⟨iterations,rest,rfl,hiterations⟩ | hnone
    · rcases field_cases kDollar rest with ⟨salt,key,rfl,hsalt⟩ | hnone
      · rw [verifyPassword_fields kdf password hscheme hiterations hsalt] at h
        split at h
        · cases h
        · rename_i hname
          cases not_not.mp hname
          exact ⟨iterations,salt,key,rfl,hiterations,hsalt,h⟩
      · -- the third search fails
        have hfind2 : find (scheme ++ kDollar :: (iterations ++ kDollar :: rest)) kDollar
            (scheme.length + 1) = some (scheme.length + 1 + iterations.length) :=
          find_behind scheme hiterations rfl rfl
        have hfind3 : find (scheme ++ kDollar :: (iterations ++ kDollar :: rest)) kDollar
            (scheme.length + 1 + iterations.length + 1) = none :=
          find_behind_end (scheme ++ kDollar :: iterations) hnone (by simp) (by simp; omega)
        unfold verifyPassword at h
        simp only [hfind1, behind, hfind2, hfind3] at h
        cases h
    · -- the second search fails, and the third starts over
      have hfind2 := find_behind_end scheme hnone rfl rfl
      unfold verifyPassword at h
      simp only [hfind1, behind, hfind2] at h
      cases h
  · have hfind1 := find_end [] hnone
    rw [List.nil_append, List.length_nil] at hfind1
    unfold verifyPassword at h
    simp only [hfind1] at h
    cases h

theorem storedHash_unique {iterations salt key iterations' salt' key' : Text}
    (hiterations : kDollar ∉ iterations) (hsalt : kDollar ∉ salt)
    (hiterations' : kDollar ∉ iterations') (hsalt' : kDollar ∉ salt')
    (h : storedHash iterations salt key = storedHash iterations' salt' key') :
    iterations = iterations' ∧ salt = salt' ∧ key = key' := by
  have hscheme : kDollar ∉ kScheme := by decide
  obtain ⟨_,h⟩ := field_unique hscheme hscheme h
  obtain ⟨hfirst,h⟩ := field_unique hiterations hiterations' h
  exact ⟨hfirst,field_unique hsalt hsalt' h⟩

end Splitting

/-! ### Fields -/

/-- The range of a count, as the code tests it. -/
theorem count_inRange_iff (v : BitVec kULongBits) :
    ¬ (v = 0 ∨ 10000000 < v) ↔ 1 ≤ v.toNat ∧ v.toNat ≤ 10000000 := by
  have hzero : v = 0 ↔ v.toNat = 0 := BitVec.toNat_inj.symm
  have hlarge : 10000000 < v ↔ 10000000 < v.toNat := BitVec.lt_def
  rw [hzero, hlarge]
  omega

/-- A count in digits is accepted by its value. -/
theorem readIterations_digits {field : Text} (h : AllDigits digitValue field) :
    readIterations field =
      if field ≠ [] ∧ 1 ≤ numeral 10 (leading digitValue field) ∧
        numeral 10 (leading digitValue field) ≤ 10000000
      then some (BitVec.ofNat 32 (numeral 10 (leading digitValue field))) else none := by
  by_cases hne : field = []
  · subst hne
    rfl
  unfold readIterations
  rw [stoul_digits _ hne h]
  generalize numeral 10 (leading digitValue field) = n
  by_cases hbig : 2 ^ kULongBits ≤ n
  · have hout : ¬ n ≤ 10000000 := by
      intro hle
      have hle64 : 2 ^ kULongBits ≤ 10000000 := hbig.trans hle
      exact absurd hle64 (by decide)
    rw [if_pos hbig, if_neg fun hin => hout hin.2.2]
  · rw [if_neg hbig]
    have htoNat : (BitVec.ofNat kULongBits n).toNat = n :=
      Nat.mod_eq_of_lt (Nat.not_le.mp hbig)
    have hwidth : (BitVec.ofNat kULongBits n).setWidth 32 = BitVec.ofNat 32 n := by
      apply BitVec.eq_of_toNat_eq
      rw [BitVec.toNat_setWidth, htoNat, BitVec.toNat_ofNat]
    have hrange := count_inRange_iff (BitVec.ofNat kULongBits n)
    rw [htoNat] at hrange
    by_cases hin : 1 ≤ n ∧ n ≤ 10000000
    · simp only [if_neg (hrange.mpr hin), if_pos (And.intro hne hin), hwidth]
    · simp only [if_pos (not_not.mp (mt hrange.mp hin)), if_neg fun h : _ ∧ _ => hin h.2]

/-- A count is accepted by its value in an `unsigned long`. -/
theorem exists_readIterations_iff (field : Text) :
    (∃ n, readIterations field = some n) ↔
      ∃ v, stoul kULongBits field = some v ∧ 1 ≤ v.toNat ∧ v.toNat ≤ 10000000 := by
  unfold readIterations
  cases stoul kULongBits field with
  | none => simp
  | some v =>
    have hrange := count_inRange_iff v
    by_cases hout : v = 0 ∨ 10000000 < v
    · simp only [if_pos hout]
      refine ⟨nofun,?_⟩
      rintro ⟨v',hv',hin⟩
      cases hv'
      exact absurd hout (hrange.mpr hin)
    · simp only [if_neg hout]
      exact ⟨fun _ => ⟨v,rfl,hrange.mp hout⟩,fun _ => ⟨_,rfl⟩⟩

theorem readIterations_iff_lenient (field : Text) :
    (∃ n, readIterations field = some n) ↔ LenientCount field := by
  rw [exists_readIterations_iff]
  -- only a zero with a minus sign changes when the difference wraps, and it is out of the range
  have hwrap : ∀ {n : ℕ} (negative : Bool), n < 2 ^ kULongBits →
      let v := if negative = true then -BitVec.ofNat kULongBits n else BitVec.ofNat kULongBits n
      let count := if negative = true then 2 ^ kULongBits - n else n
      (1 ≤ v.toNat ∧ v.toNat ≤ 10000000 ↔ 1 ≤ count ∧ count ≤ 10000000) := by
    intro n negative hn v count
    have hv : v.toNat = count % 2 ^ kULongBits := by
      cases negative with
      | false => rfl
      | true => simp [v, count, Nat.mod_eq_of_lt hn]
    have hcount : count ≤ 2 ^ kULongBits := by
      cases negative with
      | false => exact hn.le
      | true => exact Nat.sub_le _ _
    rw [hv]
    unfold kULongBits at hcount ⊢
    omega
  constructor
  · rintro ⟨v,hv,hin⟩
    obtain ⟨negative,digits,hnumber,hfits,rfl⟩ := stoul_eq_some_iff.mp hv
    exact ⟨negative,digits,hnumber,hfits,(hwrap negative hfits).mp hin⟩
  · rintro ⟨negative,digits,hnumber,hfits,hin⟩
    exact ⟨_,stoul_eq_some_iff.mpr ⟨negative,digits,hnumber,hfits,rfl⟩,(hwrap negative hfits).mpr hin⟩

theorem length_readBytes {hex out : Text} (h : readBytes hex = some out) :
    out.length = hex.length / 2 := by
  induction hex using readBytes.induct generalizing out with
  | case1 a b hex hscan =>
    rw [readBytes, hscan] at h
    cases h
  | case2 a b hex byte hscan ih =>
    rw [readBytes, hscan] at h
    obtain ⟨rest,hrest,rfl⟩ := Option.map_eq_some_iff.mp h
    rw [List.length_cons, ih hrest, List.length_cons, List.length_cons]
    omega
  | case3 hex hshort =>
    cases hex with
    | nil =>
      cases h
      rfl
    | cons a hex =>
      cases hex with
      | nil =>
        cases h
        simp
      | cons b hex => exact absurd rfl (hshort a b hex)

/-- The conversion looks at every second character. -/
theorem readBytes_isSome_iff (hex : Text) (heven : hex.length % 2 = 0) :
    (readBytes hex).isSome = true ↔ ∀ i, 2 * i < hex.length → HexByte (hex.drop (2 * i)) := by
  induction hex using readBytes.induct with
  | case1 a b hex hscan =>
    have hbad : ¬ HexByte (a :: b :: hex) := by
      rw [← scanHex_isSome_iff, hscan]
      exact Bool.noConfusion
    rw [readBytes, hscan]
    exact ⟨Bool.noConfusion,fun h => absurd (h 0 (by simp)) hbad⟩
  | case2 a b hex byte hscan ih =>
    have hgood : HexByte (a :: b :: hex) := by
      rw [← scanHex_isSome_iff, hscan]
      rfl
    have hrest := ih (by simp at heven; omega)
    rw [readBytes, hscan, Option.isSome_map, hrest]
    constructor
    · intro h i hi
      cases i with
      | zero => exact hgood
      | succ i => exact h i (by simp at hi; omega)
    · intro h i hi
      exact h (i + 1) (by simp; omega)
  | case3 hex hshort =>
    cases hex with
    | nil => exact ⟨nofun,fun _ => rfl⟩
    | cons a hex =>
      cases hex with
      | nil => simp at heven
      | cons b hex => exact absurd rfl (hshort a b hex)

theorem fromHex_iff_lenient (hex : Text) : (∃ out, fromHex hex = some out) ↔ LenientHex hex := by
  unfold fromHex LenientHex
  by_cases hbad : hex = [] ∨ hex.length % 2 ≠ 0
  · rw [if_pos hbad]
    refine ⟨nofun,?_⟩
    rintro ⟨hne,heven,-⟩
    rcases hbad with hnil | hodd
    · exact absurd hnil hne
    · exact absurd heven hodd
  · obtain ⟨hne,heven⟩ := not_or.mp hbad
    have heven := not_not.mp heven
    rw [if_neg hbad, ← Option.isSome_iff_exists, readBytes_isSome_iff hex heven]
    exact ⟨fun h => ⟨hne,heven,h⟩,fun h => h.2.2⟩

theorem length_fromHex {hex out : Text} (h : fromHex hex = some out) :
    hex.length = 2 * out.length := by
  unfold fromHex at h
  split at h
  · cases h
  · rename_i hgood
    have heven := not_not.mp (not_or.mp hgood).2
    have hhalf := length_readBytes h
    omega

/-- What is accepted, field by field. -/
theorem verifyFields_eq_true_iff {kdf : Pbkdf2} {password iterations salt key : Text} :
    verifyFields kdf password iterations salt key = true ↔
      ∃ n saltBytes, readIterations iterations = some n ∧ fromHex salt = some saltBytes ∧
        fromHex key = some (kdf.derive password saltBytes n) := by
  unfold verifyFields
  cases readIterations iterations with
  | none => simp
  | some n =>
    cases fromHex salt with
    | none => simp
    | some saltBytes =>
      cases fromHex key with
      | none => simp
      | some expected =>
        have hlength := kdf.length_derive password saltBytes n
        simp only [Option.some.injEq, exists_and_left, exists_eq_left']
        constructor
        · intro h
          split at h
          · cases h
          · exact (of_decide_eq_true h).symm
        · rintro rfl
          simp [hlength]

/-- A derivation that gives the same key to all. -/
def constantKey (key : Vector UInt8 kKeyBytes) : Pbkdf2 where
  derive := fun _ _ _ => key.toList
  length_derive := fun _ _ _ => key.length_toList

/-- The fields that some derivation accepts. -/
theorem exists_verifyFields_iff (password iterations salt key : Text) :
    (∃ kdf, verifyFields kdf password iterations salt key = true) ↔
      LenientCount iterations ∧ LenientHex salt ∧ LenientHex key ∧ key.length = 64 := by
  rw [← readIterations_iff_lenient, ← fromHex_iff_lenient, ← fromHex_iff_lenient]
  constructor
  · rintro ⟨kdf,h⟩
    obtain ⟨n,saltBytes,hcount,hsalt,hkey⟩ := verifyFields_eq_true_iff.mp h
    refine ⟨⟨n,hcount⟩,⟨_,hsalt⟩,⟨_,hkey⟩,?_⟩
    rw [length_fromHex hkey, kdf.length_derive]
    rfl
  · rintro ⟨⟨n,hcount⟩,⟨saltBytes,hsalt⟩,⟨expected,hkey⟩,hlength⟩
    have hbytes : expected.length = kKeyBytes := by
      have hdouble := length_fromHex hkey
      unfold kKeyBytes
      omega
    refine ⟨constantKey ⟨expected.toArray,hbytes⟩,verifyFields_eq_true_iff.mpr ?_⟩
    exact ⟨n,saltBytes,hcount,hsalt,hkey⟩

theorem verifyPassword_storedHash (kdf : Pbkdf2) (password : Text) {iterations salt : Text}
    (hiterations : kDollar ∉ iterations) (hsalt : kDollar ∉ salt) (key : Text) :
    verifyPassword kdf password (storedHash iterations salt key) =
      verifyFields kdf password iterations salt key := by
  have hscheme : kDollar ∉ kScheme := by decide
  rw [storedHash, verifyPassword_fields kdf password hscheme hiterations hsalt, if_neg (by simp)]

/-- The texts that some derivation accepts. -/
theorem exists_verifyPassword_iff (password stored : Text) :
    (∃ kdf, verifyPassword kdf password stored = true) ↔ LenientForm stored := by
  constructor
  · rintro ⟨kdf,h⟩
    obtain ⟨iterations,salt,key,hstored,hiterations,hsalt,hfields⟩ :=
      exists_fields_of_verifyPassword kdf password h
    exact ⟨iterations,salt,key,hstored,hiterations,hsalt,
      (exists_verifyFields_iff password iterations salt key).mp ⟨kdf,hfields⟩⟩
  · rintro ⟨iterations,salt,key,rfl,hiterations,hsalt,hlenient⟩
    obtain ⟨kdf,hfields⟩ := (exists_verifyFields_iff password iterations salt key).mpr hlenient
    exact ⟨kdf,(verifyPassword_storedHash kdf password hiterations hsalt key).trans hfields⟩

theorem WellFormed.plainFields {stored : Text} (h : WellFormed stored) : PlainFields stored := by
  obtain ⟨iterations,salt,key,hstored,hiterations,hsalt,hkey⟩ := h
  exact ⟨iterations,salt,key,hstored,hiterations.2.1,hsalt.2.2,hkey.2⟩

/-- A text that is read and holds nothing but digits in its fields is well formed. -/
theorem LenientForm.wellFormed {stored : Text} (h : LenientForm stored)
    (hplain : PlainFields stored) : WellFormed stored := by
  obtain ⟨iterations,salt,key,hstored,hiterations,hsalt,hcount,hsaltHex,-,hlength⟩ := h
  obtain ⟨iterations',salt',key',hstored',hdigits,hsaltDigits,hkeyDigits⟩ := hplain
  obtain ⟨rfl,rfl,rfl⟩ := storedHash_unique hiterations hsalt (dollar_notMem_of_decimal hdigits)
    (dollar_notMem_of_hex hsaltDigits) (hstored.symm.trans hstored')
  obtain ⟨n,hn⟩ := (readIterations_iff_lenient iterations).mpr hcount
  rw [readIterations_digits hdigits] at hn
  split at hn
  · rename_i hrange
    exact ⟨iterations,salt,key,hstored,⟨hrange.1,hdigits,hrange.2⟩,
      ⟨hsaltHex.1,hsaltHex.2.1,hsaltDigits⟩,hlength,hkeyDigits⟩
  · cases hn

/-- A text is accepted only if it is well formed, whatever is derived, exactly if it is not one of
those that are read leniently or its fields hold nothing but digits. -/
theorem verified_hash_well_formed_iff (password stored : Text) :
    (∀ kdf, verifyPassword kdf password stored = true → WellFormed stored) ↔
      (LenientForm stored → PlainFields stored) := by
  constructor
  · intro h hlenient
    obtain ⟨kdf,haccept⟩ := (exists_verifyPassword_iff password stored).mpr hlenient
    exact (h kdf haccept).plainFields
  · intro h kdf haccept
    have hlenient := (exists_verifyPassword_iff password stored).mp ⟨kdf,haccept⟩
    exact hlenient.wellFormed (h hlenient)

theorem not_wellFormed {iterations salt key : Text} (hiterations : kDollar ∉ iterations)
    (hsalt : kDollar ∉ salt)
    (h : ¬ (AllDigits digitValue iterations ∧ AllDigits hexValue salt ∧ AllDigits hexValue key)) :
    ¬ WellFormed (storedHash iterations salt key) := by
  rintro ⟨iterations',salt',key',hstored,hcount,hsalt',hkey'⟩
  obtain ⟨rfl,rfl,rfl⟩ := storedHash_unique hiterations hsalt
    (dollar_notMem_of_decimal hcount.2.1) (dollar_notMem_of_hex hsalt'.2.2) hstored
  exact h ⟨hcount.2.1,hsalt'.2.2,hkey'.2⟩

/-- A derivation that fills the password up with zeros. -/
def paddedPassword : Pbkdf2 where
  derive := fun password _ _ => (password ++ List.replicate kKeyBytes 0).take kKeyBytes
  length_derive := fun password salt iterations => by simp

/-- A blank and a sign in front of the count and a letter behind it; a negative count that wraps to
one; a salt with a blank, a sign and a letter; a key with a dollar sign. -/
theorem malformed_hashes_verify :
    let zeros := List.replicate 64 48
    let lenient := storedHash (ascii " +1x") (ascii "00") zeros
    let negative := storedHash (ascii "-18446744073709551615") (ascii "00") zeros
    let blanks := storedHash (ascii "1") (ascii " 1-1fg") zeros
    let dollar := storedHash (ascii "1") (ascii "00") (List.replicate 63 48 ++ [36])
    (verifyPassword paddedPassword [] lenient = true ∧ ¬ WellFormed lenient) ∧
    (verifyPassword paddedPassword [] negative = true ∧ ¬ WellFormed negative) ∧
    (verifyPassword paddedPassword [] blanks = true ∧ ¬ WellFormed blanks) ∧
    (verifyPassword paddedPassword [] dollar = true ∧ ¬ WellFormed dollar) := by
  refine ⟨⟨by decide +kernel,?_⟩,⟨by decide +kernel,?_⟩,⟨by decide +kernel,?_⟩,by decide +kernel,?_⟩
  · exact not_wellFormed (by decide) (by decide) (by decide +kernel)
  · exact not_wellFormed (by decide) (by decide) (by decide +kernel)
  · exact not_wellFormed (by decide) (by decide) (by decide +kernel)
  · exact not_wellFormed (by decide) (by decide) (by decide +kernel)

/-! ### Hashing and verifying -/

theorem readBytes_toHex (data : Text) : readBytes (toHex data) = some data := by
  induction data with
  | nil => rfl
  | cons b data ih =>
    have hscan := scanHex_printHexByte b (toHex data)
    rw [printHexByte, List.cons_append, List.singleton_append] at hscan
    rw [toHex] at hscan ih ⊢
    rw [printHex_cons, readBytes, hscan, ih]
    simp

theorem fromHex_toHex {data : Text} (h : data ≠ []) : fromHex (toHex data) = some data := by
  have hlength : (toHex data).length = 2 * data.length := length_printHex data
  have hpos := List.length_pos_of_ne_nil h
  have hne : toHex data ≠ [] := by
    intro hnil
    rw [hnil] at hlength
    simp at hlength
    exact h hlength
  unfold fromHex
  rw [if_neg, readBytes_toHex]
  rintro (hnil | hodd)
  · exact hne hnil
  · omega

section RoundTrip
variable (kdf : Pbkdf2) (p q : Text) (salt : Vector UInt8 kSaltBytes) (n : BitVec 32)

theorem hashPassword_eq : hashPassword kdf (some salt) p n = some (storedHash
    (printDecimal n.toNat) (toHex salt.toList) (toHex (kdf.derive p salt.toList n))) := rfl

/-- Each field of a hash is read as it was printed. -/
theorem verifyPassword_hash (hlow : 1 ≤ n.toNat) (hhigh : n.toNat ≤ 10000000) :
    verifyPassword kdf q (storedHash (printDecimal n.toNat) (toHex salt.toList)
        (toHex (kdf.derive p salt.toList n))) = true ↔
      kdf.derive q salt.toList n = kdf.derive p salt.toList n := by
  have hcount : readIterations (printDecimal n.toNat) = some n := by
    obtain ⟨hne,hall,hvalue⟩ := printDecimal_spec n.toNat
    rw [readIterations_digits hall, hvalue, if_pos ⟨hne,hlow,hhigh⟩, BitVec.ofNat_toNat,
      BitVec.setWidth_eq]
  have hsalt : fromHex (toHex salt.toList) = some salt.toList := by
    apply fromHex_toHex
    intro hnil
    have hlength := salt.length_toList
    rw [hnil] at hlength
    cases hlength
  have hkey : fromHex (toHex (kdf.derive p salt.toList n)) = some (kdf.derive p salt.toList n) := by
    apply fromHex_toHex
    intro hnil
    have hlength := kdf.length_derive p salt.toList n
    rw [hnil] at hlength
    cases hlength
  rw [verifyPassword_storedHash kdf q (dollar_notMem_of_decimal (printDecimal_spec n.toNat).2.1)
    (dollar_notMem_of_hex (s:=toHex salt.toList) (allDigits_printHex _)), verifyFields_eq_true_iff]
  simp [hcount, hsalt, hkey, eq_comm]

/-- With a hash configured, the credential is the admin's name and a password of the same key. -/
theorem checkCredentials_hash {cfg : AuthConfig} (user : Text) (hlow : 1 ≤ n.toNat)
    (hhigh : n.toNat ≤ 10000000)
    (hcfg : hashPassword kdf (some salt) p n = some cfg.passwordHash) :
    checkCredentials kdf q cfg user = true ↔
      user = cfg.adminUser ∧ kdf.derive q salt.toList n = kdf.derive p salt.toList n := by
  rw [hashPassword_eq] at hcfg
  have hhash := Option.some.inj hcfg
  have henabled : cfg.enabled = true := by
    rw [AuthConfig.enabled, ← hhash]
    rfl
  rw [checkCredentials, henabled, ← hhash]
  by_cases huser : user = cfg.adminUser
  · rw [if_neg (by simp [huser]), verifyPassword_hash kdf p q salt n hlow hhigh]
    simp [huser]
  · rw [if_pos (Or.inr huser)]
    simp [huser]

end RoundTrip

/-- Without a hash nobody is let in. -/
theorem checkCredentials_disabled (kdf : Pbkdf2) (password user : Text) {cfg : AuthConfig}
    (h : cfg.passwordHash = []) : checkCredentials kdf password cfg user = false := by
  simp [checkCredentials, AuthConfig.enabled, h]

/-- A stored hash is accepted for exactly the passwords with the same key, that of the password it
was made of among them. -/
theorem hashed_password_verifies_iff (kdf : Pbkdf2) (p q : Text) (salt : Vector UInt8 kSaltBytes)
    (n : BitVec 32) (hlow : 1 ≤ n.toNat) (hhigh : n.toNat ≤ 10000000) :
    ∃ stored, hashPassword kdf (some salt) p n = some stored ∧
      (verifyPassword kdf q stored = true ↔
        kdf.derive q salt.toList n = kdf.derive p salt.toList n) ∧
      verifyPassword kdf p stored = true :=
  ⟨_,hashPassword_eq kdf p salt n,verifyPassword_hash kdf p q salt n hlow hhigh,
    (verifyPassword_hash kdf p p salt n hlow hhigh).mpr rfl⟩

theorem hashed_password_verifies_itself :
    ∃ stored,
      hashPassword paddedPassword (some (Vector.replicate _ 7)) (ascii "a") 210000 = some stored ∧
      verifyPassword paddedPassword (ascii "b") stored = false ∧
      verifyPassword paddedPassword (ascii "a") stored = true := by
  obtain ⟨stored,hstored,hother,hsame⟩ := hashed_password_verifies_iff paddedPassword (ascii "a")
    (ascii "b") (Vector.replicate _ 7) 210000 (by decide) (by decide)
  have hkeys : paddedPassword.derive (ascii "b") (Vector.replicate kSaltBytes 7).toList 210000 ≠
      paddedPassword.derive (ascii "a") (Vector.replicate kSaltBytes 7).toList 210000 := by decide
  exact ⟨stored,hstored,Bool.eq_false_of_not_eq_true fun h => hkeys (hother.mp h),hsame⟩

end AlprGate.DashApi
