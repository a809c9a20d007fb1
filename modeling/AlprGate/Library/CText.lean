import Mathlib.Data.Nat.Digits.Defs
import Mathlib.Data.UInt
import Mathlib.Tactic.Common

/-! # Numbers in texts, as the C library reads and prints them

Fields are found by their separator. The readers skip blanks, take a sign, and then the longest run
of digits; what is behind the digits they do not look at. So they accept more than the printers
write, and a text that consists of digits alone is read as the number it shows. Blanks and digits
are those of the C locale.
-/
namespace AlprGate.CText

/-- What a function on C strings sees of some bytes. -/
def cString (bytes : List UInt8) : List UInt8 := bytes.takeWhile fun c => c ≠ 0

def isSpace (c : UInt8) : Bool := c = 32 ∨ (9 ≤ c ∧ c ≤ 13)

/-! ### Digits -/

def digitValue (c : UInt8) : Option ℕ :=
  if 48 ≤ c.toNat ∧ c.toNat ≤ 57 then some (c.toNat - 48) else none

def hexValue (c : UInt8) : Option ℕ :=
  if 48 ≤ c.toNat ∧ c.toNat ≤ 57 then some (c.toNat - 48)
  else if 97 ≤ c.toNat ∧ c.toNat ≤ 102 then some (c.toNat - 87)
  else if 65 ≤ c.toNat ∧ c.toNat ≤ 70 then some (c.toNat - 55)
  else none

def toLower (c : UInt8) : UInt8 := if 65 ≤ c ∧ c ≤ 90 then c + 32 else c

/-- The digit of a number below 16, in lower case. -/
def hexDigit (d : ℕ) : UInt8 := UInt8.ofNat (if d < 10 then 48 + d else 87 + d)

/-- The value of a numeral, the most significant digit first. -/
def numeral (base : ℕ) (digits : List ℕ) : ℕ := Nat.ofDigits base digits.reverse

/-- The values of the digits that a text starts with. -/
def leading (value : UInt8 → Option ℕ) : List UInt8 → List ℕ
  | [] => []
  | c :: s =>
    match value c with
    | none => []
    | some d => d :: leading value s

/-- Every character is a digit. -/
def AllDigits (value : UInt8 → Option ℕ) (s : List UInt8) : Prop :=
  ∀ c ∈ s, (value c).isSome = true

instance (value : UInt8 → Option ℕ) (s : List UInt8) : Decidable (AllDigits value s) :=
  inferInstanceAs (Decidable (∀ c ∈ s, _))

/-! ### Separators -/

/-- The first place of a character from a position on. -/
def find (s : List UInt8) (c : UInt8) (pos : ℕ) : Option ℕ := ((s.drop pos).idxOf? c).map (pos + ·)

theorem idxOf?_append_cons {c : UInt8} {field : List UInt8} (h : c ∉ field) (rest : List UInt8) :
    (field ++ c :: rest).idxOf? c = some field.length := by
  induction field with
  | nil => simp [List.idxOf?_cons]
  | cons x field ih =>
    obtain ⟨hne,hrest⟩ := not_or.mp (List.mem_cons.not.mp h)
    rw [List.cons_append, List.idxOf?_cons, ih hrest]
    simp [Ne.symm hne]

theorem exists_of_idxOf? {c : UInt8} {s : List UInt8} {n : ℕ} (h : s.idxOf? c = some n) :
    ∃ field rest, s = field ++ c :: rest ∧ c ∉ field := by
  induction s generalizing n with
  | nil => cases h
  | cons x s ih =>
    by_cases hx : x = c
    · subst hx
      exact ⟨[],s,rfl,List.not_mem_nil⟩
    · rw [List.idxOf?_cons, if_neg (by simpa using hx)] at h
      obtain ⟨m,hm,_⟩ := Option.map_eq_some_iff.mp h
      obtain ⟨field,rest,rfl,hfield⟩ := ih hm
      exact ⟨x :: field,rest,rfl,List.mem_cons.not.mpr (not_or.mpr ⟨Ne.symm hx,hfield⟩)⟩

/-- The field from a position on reaches to the next separator. -/
theorem find_field (front : List UInt8) {c : UInt8} {field : List UInt8} (h : c ∉ field)
    (rest : List UInt8) :
    find (front ++ (field ++ c :: rest)) c front.length = some (front.length + field.length) := by
  rw [find, List.drop_left, idxOf?_append_cons h]
  rfl

theorem find_end (front : List UInt8) {c : UInt8} {field : List UInt8} (h : c ∉ field) :
    find (front ++ field) c front.length = none := by
  rw [find, List.drop_left, Option.map_eq_none_iff, List.idxOf?_eq_none_iff]
  exact h

/-- A text has a next separator, and a field in front of it, or it has none. -/
theorem field_cases (c : UInt8) (s : List UInt8) :
    (∃ field rest, s = field ++ c :: rest ∧ c ∉ field) ∨ c ∉ s := by
  cases h : s.idxOf? c with
  | none => exact Or.inr (List.idxOf?_eq_none_iff.mp h)
  | some n => exact Or.inl (exists_of_idxOf? h)

/-- What is in front of a separator determines the field. -/
theorem field_unique {c : UInt8} {field field' rest rest' : List UInt8} (h : c ∉ field)
    (h' : c ∉ field') (heq : field ++ c :: rest = field' ++ c :: rest') :
    field = field' ∧ rest = rest' := by
  have hlength := idxOf?_append_cons h rest
  rw [heq, idxOf?_append_cons h' rest'] at hlength
  obtain ⟨hfield,hrest⟩ := List.append_inj heq (Option.some.inj hlength).symm
  exact ⟨hfield,(List.cons.inj hrest).2⟩

/-! ### Readers -/

/-- Whether a text starts with a minus sign, and what is behind its sign. -/
def takeSign : List UInt8 → Bool × List UInt8
  | [] => (false,[])
  | c :: s => if c = 45 then (true,s) else if c = 43 then (false,s) else (false,c :: s)

/-- The run of hex digits behind an optional `0x`. -/
def hexBody : List UInt8 → List ℕ
  | 48 :: 120 :: s | 48 :: 88 :: s => leading hexValue s
  | s => leading hexValue s

/-- A number with its sign, in a type of `w` bits; no digits are no number. -/
def signedNumeral (w base : ℕ) (negative : Bool) (digits : List ℕ) : Option (BitVec w) :=
  if digits = [] then none
  else if negative = true then some (-BitVec.ofNat w (numeral base digits))
  else some (BitVec.ofNat w (numeral base digits))

/-- `std::stoul` on a type of `w` bits. Where it throws there is no number: without a digit, and
behind digits that do not fit. -/
def stoul (w : ℕ) (str : List UInt8) : Option (BitVec w) :=
  let body := takeSign ((cString str).dropWhile isSpace)
  let digits := leading digitValue body.2
  if 2 ^ w ≤ numeral 10 digits then none
  else signedNumeral w 10 body.1 digits

/-- `sscanf` with `%x` and a field width, if it converts. The blanks do not count, and a field that
ends behind `0x` is no number. -/
def scanHex (width : ℕ) (s : List UInt8) : Option (BitVec 32) :=
  let body := takeSign (((cString s).dropWhile isSpace).take width)
  signedNumeral 32 16 body.1 (hexBody body.2)

/-! ### Printers -/

def printDecimal (n : ℕ) : List UInt8 :=
  if n = 0 then [48] else (Nat.digits 10 n).reverse.map fun d => UInt8.ofNat (48 + d)

/-- `%02x` of a byte. -/
def printHexByte (b : UInt8) : List UInt8 := [hexDigit (b.toNat / 16),hexDigit (b.toNat % 16)]

/-- Bytes in hex. -/
def printHex (data : List UInt8) : List UInt8 := data.flatMap printHexByte

/-! ### What is read of digits -/

theorem hexValue_lt {c : UInt8} {d : ℕ} (h : hexValue c = some d) : d < 16 := by
  unfold hexValue at h
  split at h
  · cases h
    omega
  split at h
  · cases h
    omega
  split at h
  · cases h
    omega
  · cases h

theorem hexValue_isSome_of_digitValue {c : UInt8} (h : (digitValue c).isSome = true) :
    (hexValue c).isSome = true := by
  unfold digitValue at h
  split at h
  · rename_i hdigit
    simp [hexValue, hdigit]
  · cases h

theorem toNat_hexDigit {d : ℕ} (h : d < 16) :
    (hexDigit d).toNat = if d < 10 then 48 + d else 87 + d := by
  unfold hexDigit
  refine UInt8.toNat_ofNat_of_lt' ?_
  split
  · exact Nat.lt_of_lt_of_le (m:=64) (by omega) (by decide)
  · exact Nat.lt_of_lt_of_le (m:=128) (by omega) (by decide)

@[simp] theorem hexValue_hexDigit {d : ℕ} (h : d < 16) : hexValue (hexDigit d) = some d := by
  unfold hexValue
  rw [toNat_hexDigit h]
  by_cases hten : d < 10
  · rw [if_pos hten, if_pos (by omega)]
    congr 1
    omega
  · rw [if_neg hten, if_neg (by omega), if_pos (by omega)]
    congr 1
    omega

/-- A hex digit in either case is the printed one in lower case. -/
theorem toLower_of_hexValue {c : UInt8} {d : ℕ} (h : hexValue c = some d) :
    toLower c = hexDigit d := by
  apply UInt8.toNat_inj.mp
  rw [toNat_hexDigit (hexValue_lt h)]
  unfold hexValue at h
  unfold toLower
  simp only [UInt8.le_iff_toNat_le]
  have hsize : c.toNat < 256 := c.toNat_lt
  split at h
  · cases h
    rw [if_neg (by simp; omega)]
    split <;> omega
  split at h
  · cases h
    rw [if_neg (by simp; omega)]
    split <;> omega
  split at h
  · cases h
    rw [if_pos (by simp; omega), UInt8.toNat_add]
    simp only [UInt8.reduceToNat]
    split <;> omega
  · cases h

theorem leading_cons_some {value : UInt8 → Option ℕ} {c : UInt8} {d : ℕ} (h : value c = some d)
    (s : List UInt8) : leading value (c :: s) = d :: leading value s := by
  rw [leading, h]

theorem length_leading {value : UInt8 → Option ℕ} {s : List UInt8} (h : AllDigits value s) :
    (leading value s).length = s.length := by
  induction s with
  | nil => rfl
  | cons c s ih =>
    obtain ⟨d,hd⟩ := Option.isSome_iff_exists.mp (h c List.mem_cons_self)
    rw [leading_cons_some hd, List.length_cons, List.length_cons,
      ih fun c hc => h c (List.mem_cons_of_mem _ hc)]

theorem leading_ne_nil {value : UInt8 → Option ℕ} {s : List UInt8} (hne : s ≠ [])
    (h : AllDigits value s) : leading value s ≠ [] := by
  intro hnil
  have hlength := length_leading h
  rw [hnil] at hlength
  exact hne (List.length_eq_zero_iff.mp hlength.symm)

/-- No digit is a blank, a sign or the terminator. -/
theorem plain_of_hexValue {c : UInt8} (h : (hexValue c).isSome = true) :
    c ≠ 0 ∧ isSpace c = false ∧ c ≠ 45 ∧ c ≠ 43 := by
  refine ⟨?_,?_,?_,?_⟩
  · rintro rfl
    cases h
  · cases hspace : isSpace c with
    | false => rfl
    | true =>
      simp only [isSpace, decide_eq_true_eq, UInt8.le_iff_toNat_le] at hspace
      rcases hspace with rfl | ⟨hlow,hhigh⟩
      · cases h
      · simp only [UInt8.reduceToNat] at hlow hhigh
        unfold hexValue at h
        rw [if_neg (by omega), if_neg (by omega), if_neg (by omega)] at h
        cases h
  · rintro rfl
    cases h
  · rintro rfl
    cases h

theorem cString_of_digits {s : List UInt8} (h : AllDigits hexValue s) : cString s = s := by
  unfold cString
  induction s with
  | nil => rfl
  | cons c s ih =>
    have hc := (plain_of_hexValue (h c List.mem_cons_self)).1
    rw [List.takeWhile_cons_of_pos (by simpa using hc),
      ih fun c hc => h c (List.mem_cons_of_mem _ hc)]

/-- Nothing is skipped in front of a digit. -/
theorem dropWhile_isSpace_cons {c : UInt8} (h : (hexValue c).isSome = true) (s : List UInt8) :
    (c :: s).dropWhile isSpace = c :: s := by
  rw [List.dropWhile_cons_of_neg]
  simp [(plain_of_hexValue h).2.1]

theorem takeSign_cons {c : UInt8} (h : (hexValue c).isSome = true) (s : List UInt8) :
    takeSign (c :: s) = (false,c :: s) := by
  obtain ⟨_,_,hminus,hplus⟩ := plain_of_hexValue h
  rw [takeSign, if_neg hminus, if_neg hplus]

/-- A text of decimal digits is read as the number it shows, if that fits. -/
theorem stoul_digits (w : ℕ) {s : List UInt8} (hne : s ≠ []) (h : AllDigits digitValue s) :
    stoul w s = if 2 ^ w ≤ numeral 10 (leading digitValue s) then none
      else some (BitVec.ofNat w (numeral 10 (leading digitValue s))) := by
  have hhex : AllDigits hexValue s := fun c hc => hexValue_isSome_of_digitValue (h c hc)
  have hbody : takeSign ((cString s).dropWhile isSpace) = (false,s) := by
    rw [cString_of_digits hhex]
    cases s with
    | nil => exact absurd rfl hne
    | cons c s =>
      rw [dropWhile_isSpace_cons (hhex c List.mem_cons_self),
        takeSign_cons (hhex c List.mem_cons_self)]
  unfold stoul signedNumeral
  rw [hbody]
  dsimp only
  rw [if_neg (leading_ne_nil hne h)]
  simp

/-- Two hex digits are read as the byte they show, whatever is behind them. -/
theorem scanHex_pair {a b : UInt8} {hi lo : ℕ} (ha : hexValue a = some hi)
    (hb : hexValue b = some lo) (s : List UInt8) :
    scanHex 2 (a :: b :: s) = some (BitVec.ofNat 32 (16 * hi + lo)) := by
  have hsomeA : (hexValue a).isSome = true := by rw [ha]; rfl
  have hsomeB : (hexValue b).isSome = true := by rw [hb]; rfl
  have hzeroA := (plain_of_hexValue hsomeA).1
  have hzeroB := (plain_of_hexValue hsomeB).1
  have hstring : cString (a :: b :: s) = a :: b :: cString s := by
    simp [cString, hzeroA, hzeroB]
  have hbody : hexBody [a,b] = [hi,lo] := by
    have hplain : leading hexValue [a,b] = [hi,lo] := by
      rw [leading_cons_some ha, leading_cons_some hb]
      rfl
    unfold hexBody
    split
    · rename_i heq
      cases heq
      cases hb
    · rename_i heq
      cases heq
      cases hb
    · exact hplain
  unfold scanHex
  rw [hstring, dropWhile_isSpace_cons hsomeA]
  dsimp only [List.take]
  rw [takeSign_cons hsomeA, hbody]
  simp [signedNumeral, numeral, Nat.ofDigits, Nat.add_comm, Nat.mul_comm]

/-! ### What the readers accept -/

/-- A text starts with these decimal digits, and no further one follows. -/
def StartsWithDigits (digits s : List UInt8) : Prop :=
  digits ≠ [] ∧ AllDigits digitValue digits ∧
    ∃ rest, s = digits ++ rest ∧ ∀ c ∈ rest.head?, digitValue c = none

/-- Blanks, a sign or none, and decimal digits; anything may follow them. The sign is a minus or
not. -/
inductive DecimalNumber (digits : List UInt8) : Bool → List UInt8 → Prop where
  | blank {negative : Bool} {c : UInt8} {s : List UInt8} (space : isSpace c = true)
    (number : DecimalNumber digits negative s) : DecimalNumber digits negative (c :: s)
  | minus {s : List UInt8} (shown : StartsWithDigits digits s) : DecimalNumber digits true (45 :: s)
  | plus {s : List UInt8} (shown : StartsWithDigits digits s) : DecimalNumber digits false (43 :: s)
  | plain {s : List UInt8} (shown : StartsWithDigits digits s) : DecimalNumber digits false s

/-- Blanks, and then a sign with a hex digit or a hex digit that does not open a `0x`; anything may
follow. -/
inductive HexByte : List UInt8 → Prop where
  | blank {c : UInt8} {s : List UInt8} (space : isSpace c = true) (byte : HexByte s) : HexByte (c :: s)
  | signed {c d : UInt8} {s : List UInt8} (sign : c = 43 ∨ c = 45)
    (digit : (hexValue d).isSome = true) : HexByte (c :: d :: s)
  | plain {d : UInt8} {s : List UInt8} (digit : (hexValue d).isSome = true)
    (bare : d = 48 → ∀ c ∈ s.head?, c ≠ 120 ∧ c ≠ 88) : HexByte (d :: s)

/-- A text behind its blanks, as a function on C strings sees it. -/
def visible (s : List UInt8) : List UInt8 := (cString s).dropWhile isSpace

theorem isSpace_ne {c d : UInt8} (h : isSpace c = true) (hd : isSpace d = false) : c ≠ d := by
  rintro rfl
  rw [h] at hd
  cases hd

theorem visible_blank {c : UInt8} (h : isSpace c = true) (s : List UInt8) :
    visible (c :: s) = visible s := by
  have hzero := isSpace_ne h (d:=0) rfl
  simp [visible, cString, hzero, h]

theorem visible_cons {c : UInt8} (hzero : c ≠ 0) (h : isSpace c = false) (s : List UInt8) :
    visible (c :: s) = c :: cString s := by
  simp [visible, cString, hzero, h]

/-- The terminator is no digit. -/
theorem leading_cString (s : List UInt8) :
    leading digitValue (cString s) = leading digitValue s := by
  unfold cString
  induction s with
  | nil => rfl
  | cons c s ih =>
    by_cases hzero : c = 0
    · subst hzero
      rfl
    · rw [List.takeWhile_cons_of_pos (by simpa using hzero), leading, leading, ih]

theorem leading_append {value : UInt8 → Option ℕ} {digits rest : List UInt8}
    (h : AllDigits value digits) (hrest : ∀ c ∈ rest.head?, value c = none) :
    leading value (digits ++ rest) = leading value digits := by
  induction digits with
  | nil =>
    cases rest with
    | nil => rfl
    | cons c rest =>
      rw [List.nil_append]
      unfold leading
      rw [hrest c rfl]
  | cons c digits ih =>
    obtain ⟨d,hd⟩ := Option.isSome_iff_exists.mp (h c List.mem_cons_self)
    rw [List.cons_append, leading_cons_some hd, leading_cons_some hd,
      ih fun c hc => h c (List.mem_cons_of_mem _ hc)]

/-- Every text splits into its leading digits and the rest. -/
theorem exists_leading (value : UInt8 → Option ℕ) (s : List UInt8) :
    ∃ digits rest, s = digits ++ rest ∧ AllDigits value digits ∧
      ∀ c ∈ rest.head?, value c = none := by
  induction s with
  | nil => exact ⟨[],[],rfl,nofun,nofun⟩
  | cons c s ih =>
    cases hc : value c with
    | none =>
      refine ⟨[],c :: s,rfl,nofun,?_⟩
      intro c' hc'
      cases hc'
      exact hc
    | some d =>
      obtain ⟨digits,rest,rfl,hall,hrest⟩ := ih
      refine ⟨c :: digits,rest,rfl,List.forall_mem_cons.mpr ⟨?_,hall⟩,hrest⟩
      rw [hc]
      rfl

theorem StartsWithDigits.leading_eq {digits s : List UInt8} (h : StartsWithDigits digits s) :
    leading digitValue s = leading digitValue digits := by
  obtain ⟨_,hall,rest,rfl,hrest⟩ := h
  exact leading_append hall hrest

theorem exists_startsWithDigits {s : List UInt8} (h : leading digitValue s ≠ []) :
    ∃ digits, StartsWithDigits digits s := by
  obtain ⟨digits,rest,rfl,hall,hrest⟩ := exists_leading digitValue s
  refine ⟨digits,?_,hall,rest,rfl,hrest⟩
  rintro rfl
  rw [leading_append hall hrest] at h
  exact h rfl

/-- The first of the digits is what the text starts with. -/
theorem StartsWithDigits.exists_cons {digits s : List UInt8} (h : StartsWithDigits digits s) :
    ∃ c s', s = c :: s' ∧ (hexValue c).isSome = true := by
  obtain ⟨hne,hall,rest,rfl,_⟩ := h
  cases digits with
  | nil => exact absurd rfl hne
  | cons c digits =>
    exact ⟨c,digits ++ rest,rfl,hexValue_isSome_of_digitValue (hall c List.mem_cons_self)⟩

/-- The reader takes the sign and the digits of a number. -/
theorem DecimalNumber.read {digits s : List UInt8} {negative : Bool}
    (h : DecimalNumber digits negative s) : leading digitValue digits ≠ [] ∧
      (takeSign (visible s)).1 = negative ∧
      leading digitValue (takeSign (visible s)).2 = leading digitValue digits := by
  induction h with
  | blank hspace _ ih =>
    rw [visible_blank hspace]
    exact ih
  | minus hdigits | plus hdigits =>
    refine ⟨leading_ne_nil hdigits.1 hdigits.2.1,?_,?_⟩
    · rw [visible_cons (by decide) (by decide)]
      rfl
    · rw [visible_cons (by decide) (by decide)]
      exact (leading_cString _).trans hdigits.leading_eq
  | plain hdigits =>
    refine ⟨leading_ne_nil hdigits.1 hdigits.2.1,?_⟩
    have hleading := hdigits.leading_eq
    obtain ⟨c,s,rfl,hc⟩ := hdigits.exists_cons
    obtain ⟨hzero,hspace,_⟩ := plain_of_hexValue hc
    rw [visible_cons hzero hspace, takeSign_cons hc]
    refine ⟨rfl,?_⟩
    rw [← hleading, leading, leading, leading_cString]

/-- Where the reader finds digits, the text shows a number. -/
theorem exists_decimalNumber {s : List UInt8}
    (h : leading digitValue (takeSign (visible s)).2 ≠ []) :
    ∃ digits, DecimalNumber digits (takeSign (visible s)).1 s := by
  induction s with
  | nil => exact absurd rfl h
  | cons c s ih =>
    cases hspace : isSpace c with
    | true =>
      rw [visible_blank hspace] at h ⊢
      obtain ⟨digits,hnumber⟩ := ih h
      exact ⟨digits,.blank hspace hnumber⟩
    | false =>
      by_cases hzero : c = 0
      · subst hzero
        exact absurd rfl h
      rw [visible_cons hzero hspace] at h ⊢
      have hsigned : leading digitValue (cString s) ≠ [] → ∃ digits, StartsWithDigits digits s := by
        rw [leading_cString]
        exact exists_startsWithDigits
      by_cases hminus : c = 45
      · subst hminus
        obtain ⟨digits,hdigits⟩ := hsigned h
        exact ⟨digits,.minus hdigits⟩
      by_cases hplus : c = 43
      · subst hplus
        obtain ⟨digits,hdigits⟩ := hsigned h
        exact ⟨digits,.plus hdigits⟩
      · rw [takeSign, if_neg hminus, if_neg hplus] at h ⊢
        have hleading : leading digitValue (c :: s) ≠ [] := by
          rw [leading, ← leading_cString]
          exact h
        obtain ⟨digits,hdigits⟩ := exists_startsWithDigits hleading
        exact ⟨digits,.plain hdigits⟩

/-- What `stoul` reads, and of which texts. -/
theorem stoul_eq_some_iff {w : ℕ} {s : List UInt8} {v : BitVec w} :
    stoul w s = some v ↔ ∃ negative digits, DecimalNumber digits negative s ∧
      numeral 10 (leading digitValue digits) < 2 ^ w ∧
      v = if negative = true then -BitVec.ofNat w (numeral 10 (leading digitValue digits))
        else BitVec.ofNat w (numeral 10 (leading digitValue digits)) := by
  have hstoul : stoul w s =
      if 2 ^ w ≤ numeral 10 (leading digitValue (takeSign (visible s)).2) then none
      else signedNumeral w 10 (takeSign (visible s)).1
        (leading digitValue (takeSign (visible s)).2) := rfl
  rw [hstoul]
  constructor
  · intro h
    split at h
    · cases h
    rename_i hfits
    unfold signedNumeral at h
    split at h
    · cases h
    rename_i hne
    obtain ⟨digits,hnumber⟩ := exists_decimalNumber hne
    obtain ⟨_,_,hleading⟩ := hnumber.read
    rw [hleading] at hfits h
    refine ⟨_,digits,hnumber,Nat.lt_of_not_le hfits,?_⟩
    split at h
    · rename_i hneg
      rw [if_pos hneg]
      exact (Option.some.inj h).symm
    · rename_i hneg
      rw [if_neg hneg]
      exact (Option.some.inj h).symm
  · rintro ⟨negative,digits,hnumber,hfits,rfl⟩
    obtain ⟨hne,hsign,hleading⟩ := hnumber.read
    rw [hsign, hleading, if_neg (Nat.not_le.mpr hfits), signedNumeral, if_neg hne]
    split
    · rfl
    · rfl

theorem leading_ne_nil_iff {value : UInt8 → Option ℕ} {c : UInt8} {s : List UInt8} :
    leading value (c :: s) ≠ [] ↔ (value c).isSome = true := by
  unfold leading
  cases value c with
  | none => simp
  | some d => simp

theorem hexBody_pair_ne_nil_iff {d c : UInt8} :
    hexBody [d,c] ≠ [] ↔ (hexValue d).isSome = true ∧ (d = 48 → c ≠ 120 ∧ c ≠ 88) := by
  unfold hexBody
  split
  · rename_i heq
    cases heq
    simp [leading]
  · rename_i heq
    cases heq
    simp [leading]
  · rename_i hx hX
    rw [leading_ne_nil_iff, iff_self_and]
    rintro _ rfl
    exact ⟨fun hc => hx [] (by rw [hc]),fun hc => hX [] (by rw [hc])⟩

theorem hexBody_single_ne_nil_iff {d : UInt8} : hexBody [d] ≠ [] ↔ (hexValue d).isSome = true := by
  unfold hexBody
  split
  · rename_i heq
    cases heq
  · rename_i heq
    cases heq
  · exact leading_ne_nil_iff

/-- The first digit of a field of two characters. -/
theorem hexBody_take_ne_nil_iff (d : UInt8) (s : List UInt8) :
    hexBody ((d :: cString s).take 2) ≠ [] ↔
      (hexValue d).isSome = true ∧ (d = 48 → ∀ c ∈ s.head?, c ≠ 120 ∧ c ≠ 88) := by
  cases s with
  | nil => simpa [cString] using hexBody_single_ne_nil_iff (d:=d)
  | cons c s =>
    by_cases hzero : c = 0
    · subst hzero
      simpa [cString] using hexBody_single_ne_nil_iff (d:=d)
    · have hstring : cString (c :: s) = c :: cString s := by simp [cString, hzero]
      rw [hstring]
      simpa using hexBody_pair_ne_nil_iff (d:=d) (c:=c)

theorem scanHex_isSome_eq (s : List UInt8) : (scanHex 2 s).isSome = true ↔
    hexBody (takeSign ((visible s).take 2)).2 ≠ [] := by
  have hscan : scanHex 2 s = signedNumeral 32 16 (takeSign ((visible s).take 2)).1
    (hexBody (takeSign ((visible s).take 2)).2) := rfl
  rw [hscan, signedNumeral]
  split
  · simp_all
  · rename_i hne
    split
    · simp [hne]
    · simp [hne]

theorem hexByte_blank_iff {c : UInt8} (h : isSpace c = true) (s : List UInt8) :
    HexByte (c :: s) ↔ HexByte s := by
  refine ⟨fun hbyte => ?_,.blank h⟩
  cases hbyte with
  | blank _ hbyte => exact hbyte
  | signed hsign => rcases hsign with rfl | rfl <;> cases h
  | plain hdigit =>
    rw [(plain_of_hexValue hdigit).2.1] at h
    cases h

/-- Behind a sign there is room for one digit. -/
theorem hexByte_sign_iff {c : UInt8} (h : c = 43 ∨ c = 45) (s : List UInt8) :
    HexByte (c :: s) ↔ hexBody ((cString s).take 1) ≠ [] := by
  have hplain : isSpace c = false ∧ hexValue c = none := by
    rcases h with rfl | rfl
    · exact ⟨rfl,rfl⟩
    · exact ⟨rfl,rfl⟩
  constructor
  · intro hbyte
    cases hbyte with
    | blank hspace => exact absurd (hplain.1.symm.trans hspace) Bool.noConfusion
    | @signed _ d s _ hdigit =>
      have hzero := (plain_of_hexValue hdigit).1
      have htake : (cString (d :: s)).take 1 = [d] := by simp [cString, hzero]
      rw [htake]
      exact hexBody_single_ne_nil_iff.mpr hdigit
    | plain hdigit =>
      rw [hplain.2] at hdigit
      cases hdigit
  · intro hbody
    cases s with
    | nil => exact absurd rfl hbody
    | cons d s =>
      by_cases hzero : d = 0
      · subst hzero
        exact absurd rfl hbody
      · have htake : (cString (d :: s)).take 1 = [d] := by simp [cString, hzero]
        rw [htake] at hbody
        exact .signed h (hexBody_single_ne_nil_iff.mp hbody)

/-- Of which texts `%2x` reads a byte. -/
theorem scanHex_isSome_iff (s : List UInt8) : (scanHex 2 s).isSome = true ↔ HexByte s := by
  rw [scanHex_isSome_eq]
  induction s with
  | nil => exact ⟨fun h => absurd rfl h,nofun⟩
  | cons c s ih =>
    cases hspace : isSpace c with
    | true => rw [visible_blank hspace, hexByte_blank_iff hspace, ih]
    | false =>
      by_cases hzero : c = 0
      · subst hzero
        refine ⟨fun h => absurd rfl h,fun h => ?_⟩
        cases h with
        | blank h => cases h
        | signed h => rcases h with h | h <;> cases h
        | plain h => cases h
      rw [visible_cons hzero hspace]
      by_cases hsign : c = 43 ∨ c = 45
      · rw [hexByte_sign_iff hsign]
        rcases hsign with rfl | rfl
        · rfl
        · rfl
      · obtain ⟨hplus,hminus⟩ := not_or.mp hsign
        have htake : (takeSign ((c :: cString s).take 2)).2 = (c :: cString s).take 2 := by
          rw [List.take_succ_cons, takeSign, if_neg hminus, if_neg hplus]
        rw [htake, hexBody_take_ne_nil_iff]
        refine ⟨fun h => .plain h.1 h.2,fun h => ?_⟩
        cases h with
        | blank h => exact absurd (hspace.symm.trans h) Bool.noConfusion
        | signed h => exact absurd h hsign
        | plain hdigit hbare => exact ⟨hdigit,hbare⟩

/-! ### What is printed -/

theorem digitValue_printed {d : ℕ} (h : d < 10) : digitValue (UInt8.ofNat (48 + d)) = some d := by
  have hself : (UInt8.ofNat (48 + d)).toNat = 48 + d :=
    UInt8.toNat_ofNat_of_lt' (Nat.lt_of_lt_of_le (m:=64) (by omega) (by decide))
  unfold digitValue
  rw [hself, if_pos (by omega)]
  congr 1
  omega

theorem leading_printed {ds : List ℕ} (h : ∀ d ∈ ds, d < 10) :
    AllDigits digitValue (ds.map fun d => UInt8.ofNat (48 + d)) ∧
      leading digitValue (ds.map fun d => UInt8.ofNat (48 + d)) = ds := by
  induction ds with
  | nil => exact ⟨fun c hc => absurd hc List.not_mem_nil,rfl⟩
  | cons d ds ih =>
    have hd := digitValue_printed (h d List.mem_cons_self)
    obtain ⟨hall,hrest⟩ := ih fun d hd => h d (List.mem_cons_of_mem _ hd)
    rw [List.map_cons, leading_cons_some hd, hrest]
    refine ⟨List.forall_mem_cons.mpr ⟨?_,hall⟩,rfl⟩
    rw [hd]
    rfl

/-- A number is printed in digits that show it. -/
theorem printDecimal_spec (n : ℕ) :
    printDecimal n ≠ [] ∧ AllDigits digitValue (printDecimal n) ∧
      numeral 10 (leading digitValue (printDecimal n)) = n := by
  unfold printDecimal
  by_cases hn : n = 0
  · subst hn
    decide +kernel
  · rw [if_neg hn]
    have hlt : ∀ d ∈ (Nat.digits 10 n).reverse, d < 10 := fun d hd =>
      Nat.digits_lt_base (by decide) (List.mem_reverse.mp hd)
    obtain ⟨hall,hdigits⟩ := leading_printed hlt
    refine ⟨?_,hall,?_⟩
    · simpa [Nat.digits_ne_nil_iff_ne_zero] using hn
    · rw [hdigits, numeral, List.reverse_reverse]
      exact Nat.ofDigits_digits 10 n

theorem hexValue_nibbles (b : UInt8) :
    hexValue (hexDigit (b.toNat / 16)) = some (b.toNat / 16) ∧
      hexValue (hexDigit (b.toNat % 16)) = some (b.toNat % 16) := by
  have hsize : b.toNat < 256 := b.toNat_lt
  exact ⟨hexValue_hexDigit (by omega),hexValue_hexDigit (by omega)⟩

theorem allDigits_printHexByte (b : UInt8) : AllDigits hexValue (printHexByte b) := by
  obtain ⟨hhigh,hlow⟩ := hexValue_nibbles b
  simp [AllDigits, printHexByte, hhigh, hlow]

theorem printHex_cons (b : UInt8) (data : List UInt8) :
    printHex (b :: data) = hexDigit (b.toNat / 16) :: hexDigit (b.toNat % 16) :: printHex data := rfl

theorem allDigits_printHex (data : List UInt8) : AllDigits hexValue (printHex data) := by
  intro c hc
  obtain ⟨b,_,hb⟩ := List.mem_flatMap.mp hc
  exact allDigits_printHexByte b c hb

theorem length_printHex (data : List UInt8) : (printHex data).length = 2 * data.length := by
  induction data with
  | nil => rfl
  | cons b data ih =>
    rw [printHex_cons, List.length_cons, List.length_cons, ih, List.length_cons]
    omega

/-- No two sequences of bytes are printed alike. -/
theorem printHex_injective : Function.Injective printHex := by
  intro data data' h
  induction data generalizing data' with
  | nil =>
    cases data' with
    | nil => rfl
    | cons b data' => cases h
  | cons b data ih =>
    cases data' with
    | nil => cases h
    | cons b' data' =>
      rw [printHex_cons, printHex_cons] at h
      obtain ⟨hhigh,htail⟩ := List.cons.inj h
      obtain ⟨hlow,hrest⟩ := List.cons.inj htail
      have hhigh := congrArg hexValue hhigh
      have hlow := congrArg hexValue hlow
      rw [(hexValue_nibbles b).1, (hexValue_nibbles b').1] at hhigh
      rw [(hexValue_nibbles b).2, (hexValue_nibbles b').2] at hlow
      have hbyte : b.toNat = b'.toNat := by
        have hquotient := Option.some.inj hhigh
        have hremainder := Option.some.inj hlow
        omega
      rw [UInt8.toNat_inj.mp hbyte, ih hrest]

/-- Printing a byte and reading it gives the byte. -/
theorem scanHex_printHexByte (b : UInt8) (s : List UInt8) :
    scanHex 2 (printHexByte b ++ s) = some (BitVec.ofNat 32 b.toNat) := by
  obtain ⟨hhigh,hlow⟩ := hexValue_nibbles b
  have hpair := scanHex_pair hhigh hlow s
  rw [Nat.div_add_mod] at hpair
  exact hpair

end AlprGate.CText
