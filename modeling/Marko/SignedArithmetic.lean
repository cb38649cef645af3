import Mathlib.Algebra.Order.Ring.Int
import Mathlib.Data.Nat.Notation

/-! Arithmetic of a signed machine type of `w` bits in a language where signed overflow is
undefined: a result out of range is no result. -/
namespace Signed

def InRange (w : ℕ) (x : ℤ) : Prop := -2 ^ (w - 1) ≤ x ∧ x < 2 ^ (w - 1)

instance (w : ℕ) (x : ℤ) : Decidable (InRange w x) := inferInstanceAs (Decidable (_ ∧ _))

abbrev Value (w : ℕ) := {x : ℤ // InRange w x}

variable {w : ℕ}

/-- The value of a computation whose result over the integers is `x`. -/
def check (x : ℤ) : Option (Value w) := if h : InRange w x then some ⟨x, h⟩ else none

def sub (a b : Value w) : Option (Value w) := check (a.val - b.val)

def mul (a b : Value w) : Option (Value w) := check (a.val * b.val)

/-- Division truncates towards zero; the quotient of the least value by -1 overflows. -/
def div (a b : Value w) : Option (Value w) :=
  if b.val = 0 then none else check (a.val.tdiv b.val)

/-- The remainder is undefined where the quotient is. -/
def mod (a b : Value w) : Option (Value w) :=
  if b.val = 0 ∨ ¬ InRange w (a.val.tdiv b.val) then none else check (a.val.tmod b.val)

theorem check_of_inRange {x : ℤ} (h : InRange w x) : check x = some ⟨x, h⟩ := dif_pos h

/-- An odd function that does not leave the numbers up to its argument stays in range. -/
theorem inRange_of_odd {f : ℤ → ℤ} (hodd : ∀ a, f (-a) = -f a)
    (hbound : ∀ a, 0 ≤ a → 0 ≤ f a ∧ f a ≤ a) (a : Value w) : InRange w (f a.val) := by
  have ha : InRange w a.val := a.property
  unfold InRange at ha ⊢
  -- by symmetry only the numbers from zero on matter; the least value has no opposite
  rcases le_total 0 a.val with hpos | hneg
  · have hf := hbound a.val hpos
    omega
  · have hf := hbound (-a.val) (by omega)
    rw [hodd] at hf
    omega

section Quotient

variable {b : ℤ} (hb : 0 < b) (a : Value w)
include hb

theorem inRange_tdiv : InRange w (a.val.tdiv b) := by
  apply inRange_of_odd (f := fun a => a.tdiv b)
  · exact fun a => Int.neg_tdiv a b
  · exact fun a ha => ⟨Int.tdiv_nonneg ha hb.le, Int.tdiv_le_self b ha⟩

theorem inRange_tdiv_mul : InRange w (a.val.tdiv b * b) := by
  apply inRange_of_odd (f := fun a => a.tdiv b * b)
  · intro a
    show (-a).tdiv b * b = -(a.tdiv b * b)
    rw [Int.neg_tdiv, neg_mul]
  · intro a ha
    -- what is left out is the remainder, which is not negative
    have hq : 0 ≤ a.tdiv b := Int.tdiv_nonneg ha hb.le
    have hr : 0 ≤ a.tmod b := Int.tmod_nonneg b ha
    have hsum : b * a.tdiv b + a.tmod b = a := Int.mul_tdiv_add_tmod a b
    have hmul : 0 ≤ a.tdiv b * b := mul_nonneg hq hb.le
    show 0 ≤ a.tdiv b * b ∧ a.tdiv b * b ≤ a
    rw [mul_comm b] at hsum
    omega

theorem inRange_tmod : InRange w (a.val.tmod b) := by
  apply inRange_of_odd (f := fun a => a.tmod b)
  · exact fun a => Int.neg_tmod a b
  · intro a ha
    have hq : 0 ≤ b * a.tdiv b := mul_nonneg hb.le (Int.tdiv_nonneg ha hb.le)
    have hsum : b * a.tdiv b + a.tmod b = a := Int.mul_tdiv_add_tmod a b
    have hr : 0 ≤ a.tmod b := Int.tmod_nonneg b ha
    show 0 ≤ a.tmod b ∧ a.tmod b ≤ a
    omega

end Quotient

section Positive

variable {b : Value w} (hb : 0 < b.val) (a : Value w)
include hb

theorem div_of_pos : div a b = some ⟨a.val.tdiv b.val, inRange_tdiv hb a⟩ := by
  have hne : b.val ≠ 0 := by omega
  rw [div, if_neg hne, check_of_inRange]

theorem mod_of_pos : mod a b = some ⟨a.val.tmod b.val, inRange_tmod hb a⟩ := by
  -- a positive divisor is neither 0 nor -1
  have hdef : ¬ (b.val = 0 ∨ ¬ InRange w (a.val.tdiv b.val)) := by
    have hq : InRange w (a.val.tdiv b.val) := inRange_tdiv hb a
    exact not_or.mpr ⟨by omega, not_not.mpr hq⟩
  rw [mod, if_neg hdef, check_of_inRange]

theorem mul_tdiv : mul ⟨a.val.tdiv b.val, inRange_tdiv hb a⟩ b =
    some ⟨a.val.tdiv b.val * b.val, inRange_tdiv_mul hb a⟩ :=
  check_of_inRange _

theorem sub_tdiv_mul : sub a ⟨a.val.tdiv b.val * b.val, inRange_tdiv_mul hb a⟩ =
    some ⟨a.val.tmod b.val, inRange_tmod hb a⟩ := by
  have hrem : a.val - a.val.tdiv b.val * b.val = a.val.tmod b.val := by
    rw [Int.tmod_def, mul_comm]
  unfold sub
  simp only [hrem]
  exact check_of_inRange _

end Positive

end Signed
