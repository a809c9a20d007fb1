import AlprGate.Library.FloatValue

/-! # JSON documents

A document with its numbers as they are written, and the conversions of a library that stores a
number in 64 bits: an integer that fits as an integer, everything else as the nearest double.
Converting to a narrower number type does not check the range, and converting a value of another
kind throws. Of members with one name the last one counts.
-/
namespace AlprGate.JsonDocument

inductive Literal where
  | integer (n : ℤ)
  | real (q : ℚ)
  deriving DecidableEq, Repr

namespace Literal

/-- The number that is written. -/
def value : Literal → ℚ
  | .integer n => n
  | .real q => q

/-- The integer that is stored, for one that fits 64 bits with or without a sign. -/
def stored : Literal → Option ℤ
  | .integer n => if -2 ^ 63 ≤ n ∧ n < 2 ^ 64 then some n else none
  | .real _ => none

def double (l : Literal) : FloatValue := binary64.round l.value

def toFloat (l : Literal) : FloatValue :=
  match l.stored with
  | some n => binary32.round n
  | none =>
    match l.double with
    | .finite v => binary32.round v
    | other => other

/-- An integer wraps around. For a double that does not fit the conversion is not defined. -/
def toUInt (undefined : FloatValue → BitVec 32) (l : Literal) : BitVec 32 :=
  match l.stored with
  | some n => BitVec.ofInt 32 n
  | none =>
    match l.double with
    | .finite v =>
      if -1 < v ∧ v < 2 ^ 32 then BitVec.ofNat 32 ⌊v⌋.toNat else undefined (.finite v)
    | other => undefined other

/-- A number that 32 bits can hold. -/
def IsUInt (l : Literal) : Prop := (⌊l.value⌋ : ℚ) = l.value ∧ 0 ≤ l.value ∧ l.value < 2 ^ 32

instance (l : Literal) : Decidable l.IsUInt := inferInstanceAs (Decidable (_ ∧ _ ∧ _))

theorem stored_eq_some {l : Literal} {n : ℤ} (h : l.stored = some n) :
    l = .integer n ∧ -2 ^ 63 ≤ n ∧ n < 2 ^ 64 := by
  cases l with
  | real q => cases h
  | integer m =>
    rw [stored] at h
    split at h
    · rename_i hfits
      cases h
      exact ⟨rfl,hfits⟩
    · cases h

theorem isUInt_iff {l : Literal} : l.IsUInt ↔ ∃ n : ℕ, l.value = n ∧ n < 2 ^ 32 := by
  constructor
  · rintro ⟨hwhole,hnonneg,hlt⟩
    have hfloor : 0 ≤ ⌊l.value⌋ := Int.floor_nonneg.mpr hnonneg
    obtain ⟨n,hn⟩ := Int.eq_ofNat_of_zero_le hfloor
    have hvalue : l.value = n := by
      rw [← hwhole, hn]
      norm_cast
    refine ⟨n,hvalue,?_⟩
    rw [hvalue] at hlt
    exact_mod_cast hlt
  · rintro ⟨n,hvalue,hlt⟩
    refine ⟨?_,?_,?_⟩
    · rw [hvalue]
      simp
    · rw [hvalue]
      exact Nat.cast_nonneg n
    · rw [hvalue]
      exact_mod_cast hlt

/-- The conversion gives the number that is written exactly if 32 bits can hold it. -/
theorem toUInt_eq_value_iff (undefined : FloatValue → BitVec 32) (l : Literal) :
    ((l.toUInt undefined).toNat : ℚ) = l.value ↔ l.IsUInt := by
  rw [isUInt_iff]
  constructor
  · intro h
    exact ⟨_,h.symm,BitVec.isLt _⟩
  · rintro ⟨n,hvalue,hlt⟩
    suffices hread : l.toUInt undefined = BitVec.ofNat 32 n by
      rw [hread, hvalue, BitVec.toNat_ofNat, Nat.mod_eq_of_lt hlt]
    cases hstored : l.stored with
    | some m =>
      obtain ⟨rfl,_,_⟩ := stored_eq_some hstored
      have hcast : (m : ℚ) = n := hvalue
      have hm : m = n := by exact_mod_cast hcast
      rw [toUInt, hstored, hm]
      simp
    | none =>
      have hdouble : l.double = .finite n := by
        rw [double, hvalue]
        exact binary64.round_natCast (hlt.trans (by decide)) (by decide) (by decide)
      have hrange : (-1 : ℚ) < n ∧ (n : ℚ) < 2 ^ 32 := by
        refine ⟨?_,by exact_mod_cast hlt⟩
        have hnonneg : (0 : ℚ) ≤ n := Nat.cast_nonneg n
        exact lt_of_lt_of_le (by norm_num) hnonneg
      rw [toUInt, hstored, hdouble]
      simp only [if_pos hrange, Int.floor_natCast, Int.toNat_natCast]

theorem toFloat_ne_nan (l : Literal) : l.toFloat ≠ .nan := by
  have hround : ∀ (f : FloatFormat) (q : ℚ), f.round q ≠ .nan := by
    intro f q h
    unfold FloatFormat.round at h
    dsimp only at h
    split at h
    · cases h
    · cases h
  unfold toFloat
  split
  · exact hround _ _
  split
  · exact hround _ _
  · exact hround _ _

end Literal

inductive Json where
  | null
  | boolean (b : Bool)
  | number (l : Literal)
  | string (s : String)
  | array (items : List Json)
  | object (members : List (String × Json))

namespace Json

def isObject : Json → Bool
  | .object _ => true
  | _ => false

def find : Json → String → Option Json
  | .object members, key => members.reverse.lookup key
  | _, _ => none

@[simp] theorem find_object_nil (key : String) : (Json.object []).find key = none := rfl

@[simp] theorem find_object_cons (k : String) (v : Json) (members : List (String × Json))
    (key : String) : (Json.object ((k,v) :: members)).find key =
      ((Json.object members).find key).or (if key = k then some v else none) := by
  rw [find, find, List.reverse_cons, List.lookup_append, List.lookup_cons]
  by_cases hkey : key = k
  · simp [hkey]
  · simp [hkey, beq_eq_false_iff_ne.mpr hkey]

/-- The integer of a number that is stored as one. -/
def storedInteger : Json → Option ℤ
  | .number l => l.stored
  | _ => none

def getFloat : Json → Option FloatValue
  | .number l => some l.toFloat
  | .boolean b => some (.finite (if b then 1 else 0))
  | _ => none

def getUInt (undefined : FloatValue → BitVec 32) : Json → Option (BitVec 32)
  | .number l => some (l.toUInt undefined)
  | .boolean b => some (if b then 1 else 0)
  | _ => none

def getString : Json → Option String
  | .string s => some s
  | _ => none

end Json

/-- What parsing a text leads to. A number beyond the doubles is an error of its own. -/
inductive Parsed where
  | parseError (what : String)
  | outOfRange
  | document (root : Json)

end AlprGate.JsonDocument
