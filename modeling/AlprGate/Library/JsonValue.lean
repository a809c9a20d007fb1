import Mathlib.Data.UInt
import Mathlib.Tactic.Common

/-! # JSON values and readers

The values of a dynamically typed JSON library. Access to a member of a value that is not an
object and conversions to a type that cannot hold the value throw; an absent member reads as
null. A reader of such values stops at the first throw or rejection.
-/
namespace AlprGate.JsonValue

abbrev Bytes := List UInt8

/-- The bytes of a text in ASCII. -/
def ascii (s : String) : Bytes := s.toList.map fun c => UInt8.ofNat c.toNat

def decimal (n : ℤ) : Bytes := ascii (toString n)

/-- The conversions of floating point numbers; `none` is out of range. -/
structure Doubles (ρ : Type*) where
  toUInt : ρ → Option (BitVec 32)
  toInt64 : ρ → Option Int64
  toBytes : ρ → Bytes

/-- Without floating point numbers there is nothing to convert. -/
def noDoubles : Doubles Empty := ⟨Empty.elim,Empty.elim,Empty.elim⟩

inductive Value (ρ : Type*) where
  | null
  | int (n : Int64)
  | uint (n : UInt64)
  | real (x : ρ)
  | string (s : Bytes)
  | bool (b : Bool)
  | array (items : List (Value ρ))
  | object (members : List (String × Value ρ))

namespace Value
variable {ρ : Type*} (D : Doubles ρ)

def ofUInt (n : BitVec 32) : Value ρ := .uint (UInt64.ofNat n.toNat)

def isObject : Value ρ → Bool
  | .object _ => true
  | _ => false

def isString : Value ρ → Bool
  | .string _ => true
  | _ => false

/-- The member under a key; the outer option is `none` where the access throws. -/
def find : Value ρ → String → Option (Option (Value ρ))
  | .null, _ => some none
  | .object members, key => some (members.lookup key)
  | _, _ => none

def item (v : Value ρ) (key : String) : Option (Value ρ) := (v.find key).map (·.getD .null)

def get (v : Value ρ) (key : String) (default : Value ρ) : Option (Value ρ) :=
  (v.find key).map (·.getD default)

def isMember (v : Value ρ) (key : String) : Option Bool := (v.find key).map Option.isSome

def asString : Value ρ → Option Bytes
  | .null => some []
  | .string s => some s
  | .bool b => some (ascii (if b then "true" else "false"))
  | .int n => some (decimal n.toInt)
  | .uint n => some (decimal n.toNat)
  | .real x => some (D.toBytes x)
  | _ => none

def asUInt : Value ρ → Option (BitVec 32)
  | .int n => if 0 ≤ n.toInt ∧ n.toInt < 2 ^ 32 then some (BitVec.ofInt 32 n.toInt) else none
  | .uint n => if n.toNat < 2 ^ 32 then some (BitVec.ofNat 32 n.toNat) else none
  | .real x => D.toUInt x
  | .null => some 0
  | .bool b => some (if b then 1 else 0)
  | _ => none

def asInt64 : Value ρ → Option Int64
  | .int n => some n
  | .uint n => if n.toNat < 2 ^ 63 then some (Int64.ofNat n.toNat) else none
  | .real x => D.toInt64 x
  | .null => some 0
  | .bool b => some (if b then 1 else 0)
  | _ => none

@[simp] theorem asUInt_ofUInt (n : BitVec 32) : (ofUInt n).asUInt D = some n := by
  have hlt : n.toNat < 2 ^ 64 := n.isLt.trans (by decide)
  have hself : (UInt64.ofNat n.toNat).toNat = n.toNat := UInt64.toNat_ofNat_of_lt' hlt
  rw [ofUInt, asUInt, hself, if_pos n.isLt]
  simp

end Value

/-- What stops a reader: an exception, or a text that says what is wrong with the value. -/
inductive Failure where
  | threw
  | rejected (error : String)
  deriving DecidableEq, Repr

/-- Error types with a case for an exception of the library. -/
class Throws (ε : Type*) where
  threw : ε

instance throwsFailure : Throws Failure := ⟨.threw⟩

def orThrow {ε α : Type*} [Throws ε] : Option α → Except ε α
  | some a => .ok a
  | none => .error Throws.threw

@[simp] theorem orThrow_eq_ok {ε α : Type*} [Throws ε] {x : Option α} {a : α} :
    (orThrow x : Except ε α) = .ok a ↔ x = some a := by
  cases x with
  | none => simp [orThrow]
  | some b => simp [orThrow]

@[simp] theorem orThrow_eq_error {α : Type*} {x : Option α} {f : Failure} :
    orThrow x = .error f ↔ x = none ∧ f = .threw := by
  cases x with
  | none => simp [orThrow, Throws.threw, eq_comm]
  | some b => simp [orThrow]

/-- Readers without a rejection of their own either read or throw. -/
theorem orThrow_isOk_iff {α : Type*} {x : Option α} :
    (∃ a, (orThrow x : Except Failure α) = .ok a) ↔ ¬ orThrow x = .error Failure.threw := by
  cases x with
  | none => simp
  | some a => simp

section Readers
universe u
variable {ε α β : Type*} {σ τ : Type u}

theorem bind_eq_ok {x : Except ε σ} {f : σ → Except ε τ} {b : τ} :
    x >>= f = .ok b ↔ ∃ a, x = .ok a ∧ f a = .ok b := by
  cases x with
  | error e =>
    constructor
    · exact fun h => by cases h
    · rintro ⟨a,ha,_⟩
      cases ha
  | ok a =>
    constructor
    · exact fun h => ⟨a,rfl,h⟩
    · rintro ⟨a',ha,h⟩
      cases ha
      exact h

theorem bind_eq_error {x : Except ε σ} {f : σ → Except ε τ} {e : ε} :
    x >>= f = .error e ↔ x = .error e ∨ ∃ a, x = .ok a ∧ f a = .error e := by
  cases x with
  | error e' =>
    constructor
    · intro h
      cases h
      exact Or.inl rfl
    · rintro (h | ⟨a,ha,_⟩)
      · cases h
        rfl
      · cases ha
  | ok a =>
    constructor
    · exact fun h => Or.inr ⟨a,rfl,h⟩
    · rintro (h | ⟨a',ha,h⟩)
      · cases h
      · cases ha
        exact h

/-- A reader fails where its first part does, or where its second part does behind a first part
that is read. -/
theorem bind_eq_error_iff {x : Except ε σ} {f : σ → Except ε τ} {e : ε} {P Q R : Prop}
    (hfirst : x = .error e ↔ P) (hok : (∃ a, x = .ok a) ↔ Q) (hrest : ∀ a, f a = .error e ↔ R) :
    x >>= f = .error e ↔ P ∨ (Q ∧ R) := by
  rw [bind_eq_error, hfirst]
  constructor
  · rintro (h | ⟨a,ha,h⟩)
    · exact Or.inl h
    · exact Or.inr ⟨hok.mp ⟨a,ha⟩,(hrest a).mp h⟩
  · rintro (h | ⟨hread,h⟩)
    · exact Or.inl h
    · obtain ⟨a,ha⟩ := hok.mpr hread
      exact Or.inr ⟨a,ha,(hrest a).mpr h⟩

/-- The same for a first part that fails in no other way. -/
theorem bind_eq_error_iff_or {x : Except ε σ} {f : σ → Except ε τ} {e : ε} {P R : Prop}
    (hfirst : x = .error e ↔ P) (hok : (∃ a, x = .ok a) ↔ ¬ P) (hrest : ∀ a, f a = .error e ↔ R) :
    x >>= f = .error e ↔ P ∨ R := by
  rw [bind_eq_error_iff hfirst hok hrest]
  by_cases h : P
  · simp [h]
  · simp [h]

/-- A loop stops at the first item that is not read. -/
theorem foldlM_eq_error_iff {f : σ → α → Except ε σ} {s : σ} {as : List α} {e : ε} :
    as.foldlM f s = .error e ↔ ∃ before a after t, as = before ++ a :: after ∧
      before.foldlM f s = .ok t ∧ f t a = .error e := by
  induction as generalizing s with
  | nil =>
    constructor
    · intro h
      cases h
    · rintro ⟨before,a,after,t,has,_⟩
      simp at has
  | cons a as ih =>
    rw [List.foldlM_cons, bind_eq_error]
    constructor
    · rintro (h | ⟨s',hfirst,hrest⟩)
      · exact ⟨[],a,as,s,rfl,rfl,h⟩
      · obtain ⟨before,b,after,t,rfl,hbefore,hb⟩ := ih.mp hrest
        refine ⟨a :: before,b,after,t,rfl,?_,hb⟩
        rw [List.foldlM_cons]
        exact bind_eq_ok.mpr ⟨s',hfirst,hbefore⟩
    · rintro ⟨before,b,after,t,has,hbefore,hb⟩
      cases before with
      | nil =>
        cases has
        cases hbefore
        exact Or.inl hb
      | cons c before =>
        cases has
        rw [List.foldlM_cons] at hbefore
        obtain ⟨s',hfirst,hrest⟩ := bind_eq_ok.mp hbefore
        exact Or.inr ⟨s',hfirst,ih.mpr ⟨before,b,after,t,rfl,hrest,hb⟩⟩

/-- A loop goes through if every item can be read, whatever has been collected. -/
theorem foldlM_isOk_iff {f : σ → α → Except ε σ} {P : α → Prop}
    (hstep : ∀ s a, (∃ t, f s a = .ok t) ↔ P a) (s : σ) (as : List α) :
    (∃ t, as.foldlM f s = .ok t) ↔ ∀ a ∈ as, P a := by
  induction as generalizing s with
  | nil => exact iff_of_true ⟨s,rfl⟩ fun a ha => absurd ha List.not_mem_nil
  | cons a as ih =>
    rw [List.foldlM_cons, List.forall_mem_cons]
    constructor
    · rintro ⟨t,h⟩
      obtain ⟨s',hfirst,hrest⟩ := bind_eq_ok.mp h
      exact ⟨(hstep s a).mp ⟨s',hfirst⟩,(ih s').mp ⟨t,hrest⟩⟩
    · rintro ⟨ha,has⟩
      obtain ⟨s',hfirst⟩ := (hstep s a).mpr ha
      obtain ⟨t,hrest⟩ := (ih s').mpr has
      exact ⟨t,bind_eq_ok.mpr ⟨s',hfirst,hrest⟩⟩

/-- What every item read keeps, a loop over the items keeps. -/
theorem foldlM_invariant {f : σ → α → Except ε σ} {I : σ → Prop}
    (hstep : ∀ s a t, f s a = .ok t → I s → I t) {s t : σ} {as : List α}
    (h : as.foldlM f s = .ok t) (hs : I s) : I t := by
  induction as generalizing s with
  | nil =>
    cases h
    exact hs
  | cons a as ih =>
    rw [List.foldlM_cons] at h
    obtain ⟨s',hfirst,hrest⟩ := bind_eq_ok.mp h
    exact ih hrest (hstep s a s' hfirst hs)

/-- A loop over items that are all read, each of which adds to what is collected. -/
theorem foldlM_map_eq_ok {f : σ → α → Except ε σ} {g : β → α} (collect : σ → List β → σ)
    (hnil : ∀ s, collect s [] = s) {bs : List β}
    (hstep : ∀ s, ∀ b ∈ bs, ∃ s', f s (g b) = .ok s' ∧
      ∀ rest, collect s' rest = collect s (b :: rest)) (s : σ) :
    (bs.map g).foldlM f s = .ok (collect s bs) := by
  induction bs generalizing s with
  | nil =>
    rw [hnil]
    rfl
  | cons b bs ih =>
    obtain ⟨s',hfirst,hcollect⟩ := hstep s b List.mem_cons_self
    have hrest := ih (fun s b hb => hstep s b (List.mem_cons_of_mem _ hb)) s'
    rw [hcollect] at hrest
    rw [List.map_cons, List.foldlM_cons, hfirst]
    exact hrest

end Readers

end AlprGate.JsonValue
