import Mathlib.Data.Rat.Floor
import Mathlib.Data.Int.Log

/-! # Binary floating point

A value is a number, an infinity or no number at all. Numbers are rationals and the two zeros
are one: neither a comparison nor a sum or product tells them apart in a way that a comparison
could see. Operations are exact up to one rounding, to the nearest value of the format and to
the even one of two.
-/
namespace AlprGate

inductive FloatValue where
  | nan
  | inf (negative : Bool)
  | finite (q : ℚ)
  deriving DecidableEq, Repr

namespace FloatValue

/-- No comparison with `nan` holds. -/
def lt : FloatValue → FloatValue → Bool
  | .nan, _ | _, .nan => false
  | .finite a, .finite b => a < b
  | .finite _, .inf negative => !negative
  | .inf negative, .finite _ => negative
  | .inf a, .inf b => a && !b

def le : FloatValue → FloatValue → Bool
  | .nan, _ | _, .nan => false
  | a, b => !lt b a

/-- The first of two values, unless it compares less than the second. -/
def max (a b : FloatValue) : FloatValue := if lt a b = true then b else a

section Arithmetic
variable (rnd : ℚ → FloatValue)

def add : FloatValue → FloatValue → FloatValue
  | .nan, _ | _, .nan => .nan
  | .finite a, .finite b => rnd (a + b)
  | .finite _, .inf negative => .inf negative
  | .inf negative, .finite _ => .inf negative
  | .inf a, .inf b => if a = b then .inf a else .nan

/-- An infinity times zero is no number. -/
def mul : FloatValue → FloatValue → FloatValue
  | .nan, _ | _, .nan => .nan
  | .finite a, .finite b => rnd (a * b)
  | .finite a, .inf negative => if a = 0 then .nan else .inf (negative != decide (a < 0))
  | .inf negative, .finite b => if b = 0 then .nan else .inf (negative != decide (b < 0))
  | .inf a, .inf b => .inf (a != b)

end Arithmetic

/-- A number between two bounds. -/
def Within (lo hi : ℚ) : FloatValue → Prop
  | .finite q => lo ≤ q ∧ q ≤ hi
  | _ => False

instance (lo hi : ℚ) : (x : FloatValue) → Decidable (Within lo hi x)
  | .finite _ => inferInstanceAs (Decidable (_ ∧ _))
  | .inf _ => inferInstanceAs (Decidable False)
  | .nan => inferInstanceAs (Decidable False)

theorem le_of_not_lt {a b : FloatValue} (ha : a ≠ .nan) (hb : b ≠ .nan) (h : lt a b = false) :
    le b a = true := by
  cases a <;> cases b <;> simp_all [le]

/-- No number below zero, and a number. -/
def NonNeg : FloatValue → Prop
  | .finite q => 0 ≤ q
  | .inf negative => negative = false
  | .nan => False

theorem NonNeg.ne_nan {x : FloatValue} (h : NonNeg x) : x ≠ .nan := by
  rintro rfl
  exact h

theorem Within.nonNeg {lo hi : ℚ} (hlo : 0 ≤ lo) {x : FloatValue} (h : Within lo hi x) :
    NonNeg x := by
  cases x with
  | finite q => exact hlo.trans h.1
  | inf negative => exact h.elim
  | nan => exact h.elim

theorem NonNeg.max_zero {x : FloatValue} (h : NonNeg x) : NonNeg (max x (.finite 0)) := by
  unfold max
  split
  · exact le_refl (0 : ℚ)
  · exact h

section Rounded
variable {rnd : ℚ → FloatValue} (hrnd : ∀ q, 0 ≤ q → NonNeg (rnd q))
include hrnd

/-- Infinities of one sign do not cancel. -/
theorem NonNeg.add {a b : FloatValue} (ha : NonNeg a) (hb : NonNeg b) : NonNeg (add rnd a b) := by
  cases a with
  | nan => exact ha.elim
  | finite a =>
    cases b with
    | nan => exact hb.elim
    | finite b => exact hrnd _ (add_nonneg ha hb)
    | inf negative => exact hb
  | inf negative =>
    cases b with
    | nan => exact hb.elim
    | finite b => exact ha
    | inf negative' =>
      have hsame : negative = negative' := Eq.trans ha (Eq.symm hb)
      simp only [FloatValue.add, if_pos hsame]
      exact ha

theorem NonNeg.mul {w : ℚ} (hw : 0 < w) {b : FloatValue} (hb : NonNeg b) :
    NonNeg (mul rnd (.finite w) b) := by
  cases b with
  | nan => exact hb.elim
  | finite b => exact hrnd _ (mul_nonneg hw.le hb)
  | inf negative =>
    have hsign : decide (w < 0) = false := decide_eq_false hw.not_gt
    have hkept : negative = false := hb
    simp only [FloatValue.mul, if_neg hw.ne', hsign, hkept]
    rfl

end Rounded
end FloatValue

/-- Precision in bits, the exponent of the smallest step, and the exponent at which numbers
overflow. -/
structure FloatFormat where
  precision : ℕ
  minStep : ℤ
  overflow : ℤ
  deriving DecidableEq, Repr

def binary32 : FloatFormat := ⟨24,-149,128⟩
def binary64 : FloatFormat := ⟨53,-1074,1024⟩

namespace FloatFormat
variable (f : FloatFormat)

/-- The distance between neighbours at `q`. -/
def ulp (q : ℚ) : ℚ := 2 ^ (max (Int.log 2 |q| + 1 - f.precision) f.minStep)

/-- The nearest integer, the even one of two. -/
def nearestEven (q : ℚ) : ℤ :=
  if q - ⌊q⌋ < 1 / 2 then ⌊q⌋
  else if 1 / 2 < q - ⌊q⌋ then ⌊q⌋ + 1
  else if ⌊q⌋ % 2 = 0 then ⌊q⌋ else ⌊q⌋ + 1

def round (q : ℚ) : FloatValue :=
  let v := nearestEven (q / f.ulp q) * f.ulp q
  if |v| < 2 ^ f.overflow then .finite v else .inf (v < 0)

theorem nearestEven_nonneg {q : ℚ} (h : 0 ≤ q) : 0 ≤ nearestEven q := by
  have hfloor : 0 ≤ ⌊q⌋ := Int.floor_nonneg.mpr h
  unfold nearestEven
  split
  · exact hfloor
  split
  · omega
  split
  · exact hfloor
  · omega

/-- Floating point values under the comparisons and the arithmetic of the format; a rational
constant is rounded to it. -/
def Value (_ : FloatFormat) : Type := FloatValue

def Value.toFloatValue {f : FloatFormat} (x : f.Value) : FloatValue := x

instance decidableEqValue : DecidableEq f.Value := inferInstanceAs (DecidableEq FloatValue)

instance reprValue : Repr f.Value := inferInstanceAs (Repr FloatValue)

instance ltValue : LT f.Value := ⟨fun a b => FloatValue.lt a b = true⟩

instance leValue : LE f.Value := ⟨fun a b => FloatValue.le a b = true⟩

instance decidableLTValue : DecidableLT f.Value := fun a b =>
  inferInstanceAs (Decidable (FloatValue.lt a b = true))

instance decidableLEValue : DecidableLE f.Value := fun a b =>
  inferInstanceAs (Decidable (FloatValue.le a b = true))

instance maxValue : Max f.Value := ⟨FloatValue.max⟩

instance addValue : Add f.Value := ⟨FloatValue.add f.round⟩

instance mulValue : Mul f.Value := ⟨FloatValue.mul f.round⟩

instance ratCastValue : RatCast f.Value := ⟨f.round⟩

/-- Rounding does not cross zero, and never fails to give a number. -/
theorem round_nonNeg {q : ℚ} (h : 0 ≤ q) : (f.round q).NonNeg := by
  have hulp : 0 < f.ulp q := zpow_pos (by decide) _
  have hsteps : (0 : ℚ) ≤ nearestEven (q / f.ulp q) := by
    exact_mod_cast nearestEven_nonneg (div_nonneg h hulp.le)
  have hvalue := mul_nonneg hsteps hulp.le
  unfold round
  dsimp only
  split
  · exact hvalue
  · exact decide_eq_false hvalue.not_gt

theorem nearestEven_intCast (z : ℤ) : nearestEven (z : ℚ) = z := by
  unfold nearestEven
  rw [Int.floor_intCast, sub_self, if_pos (by norm_num)]

/-- The step at a small natural number divides one. -/
theorem exists_ulp_natCast {n : ℕ} (hpos : 0 < n) (hn : n < 2 ^ f.precision)
    (hstep : f.minStep ≤ 0) : ∃ k : ℕ, f.ulp n = (2 ^ k)⁻¹ := by
  have hlog : Nat.log 2 n < f.precision := Nat.log_lt_of_lt_pow hpos.ne' hn
  have hle : max (Int.log 2 |(n : ℚ)| + 1 - f.precision) f.minStep ≤ 0 := by
    rw [abs_of_nonneg (Nat.cast_nonneg n), Int.log_natCast]
    omega
  obtain ⟨k,hk⟩ := Int.exists_eq_neg_ofNat hle
  refine ⟨k,?_⟩
  rw [ulp, hk, zpow_neg, zpow_natCast]

/-- Natural numbers that fit the precision are values of the format. -/
theorem round_natCast {n : ℕ} (hn : n < 2 ^ f.precision) (hstep : f.minStep ≤ 0)
    (hoverflow : (f.precision : ℤ) ≤ f.overflow) : f.round n = .finite n := by
  have hvalue : (nearestEven (n / f.ulp n) : ℚ) * f.ulp n = n := by
    obtain rfl | hpos := Nat.eq_zero_or_pos n
    · have hzero : nearestEven (0 : ℚ) = 0 := by exact_mod_cast nearestEven_intCast 0
      simp [hzero]
    · obtain ⟨k,hk⟩ := f.exists_ulp_natCast hpos hn hstep
      have hsteps : (n : ℚ) / (2 ^ k)⁻¹ = ((n * 2 ^ k : ℤ) : ℚ) := by
        push_cast
        rw [div_inv_eq_mul]
      rw [hk, hsteps, nearestEven_intCast]
      push_cast
      field_simp
  have hbound : |(n : ℚ)| < 2 ^ f.overflow := by
    rw [abs_of_nonneg (Nat.cast_nonneg n)]
    calc (n : ℚ) < 2 ^ (f.precision : ℤ) := by
          rw [zpow_natCast]
          exact_mod_cast hn
      _ ≤ 2 ^ f.overflow := zpow_le_zpow_right₀ (by norm_num) hoverflow
  unfold round
  dsimp only
  rw [hvalue, if_pos hbound]

end FloatFormat
end AlprGate
