/-
# Integers of 32 bits

Arithmetic on the `int` and the `long` of a machine of 32 bits, which must not overflow: an
expression has no value when it does (`int32`).  Its `unsigned` is `UInt32`, which is modulo
2^32, and here are the facts that take sums, differences and products that do not wrap out of it,
and those about sums that do (`Wraps`).
-/
import Mathlib.Algebra.Ring.Int.Defs
import Mathlib.Algebra.Ring.Nat

namespace MachineInt

/-- The value of an expression of a signed type, unless it overflows. -/
def int32 (x : ℤ) : Option ℤ := if -2147483648 ≤ x ∧ x ≤ 2147483647 then some x else none

theorem int32_of_mem {x : ℤ} (hlo : -2147483648 ≤ x) (hhi : x ≤ 2147483647) :
    int32 x = some x := if_pos ⟨hlo, hhi⟩

/-- A value of `int32` is in range. -/
theorem int32_eq_some {x y : ℤ} :
    int32 x = some y ↔ x = y ∧ -2147483648 ≤ x ∧ x ≤ 2147483647 := by
  unfold int32
  split
  · next h => exact ⟨fun hxy => ⟨Option.some.inj hxy, h⟩, fun hxy => congrArg some hxy.1⟩
  · next h => exact ⟨fun hxy => absurd hxy (by simp), fun hxy => absurd hxy.2 h⟩

/-- An expression goes on with the value of its first part. -/
theorem bind_of_eq_some {α β : Type} {x : Option α} {y : α} (h : x = some y) (f : α → Option β) :
    (x >>= f) = f y := by
  rw [h]
  rfl

/-- The conversion to `unsigned`. -/
def unsigned (x : ℤ) : UInt32 := UInt32.ofInt x

theorem toNat_unsigned (x : ℤ) : ((unsigned x).toNat : ℤ) = x % 4294967296 := by
  have hbound : (x % 4294967296).toNat < 4294967296 := by omega
  have hnat : (unsigned x).toNat = (x % 4294967296).toNat := by
    show (x % 2 ^ 32).toNat % 4294967296 = _
    rw [show (2 ^ 32 : ℤ) = 4294967296 by decide]
    exact Nat.mod_eq_of_lt hbound
  rw [hnat]
  omega

/-- The conversion keeps a value that `unsigned` has. -/
theorem toNat_unsigned_of_mem {x : ℤ} (hlo : 0 ≤ x) (hhi : x < 4294967296) :
    ((unsigned x).toNat : ℤ) = x := by
  rw [toNat_unsigned]
  omega

variable {a b : UInt32} {m n : ℕ}

theorem toNat_add (ha : a.toNat = m) (hb : b.toNat = n) (h : m + n < 4294967296) :
    (a + b).toNat = m + n := by
  rw [UInt32.toNat_add, ha, hb]
  exact Nat.mod_eq_of_lt h

/-- A difference without a borrow. -/
theorem toNat_sub (ha : a.toNat = m) (hb : b.toNat = n) (h : n ≤ m) :
    (a - b).toNat = m - n := by
  rw [UInt32.toNat_sub_of_le a b (by rw [UInt32.le_iff_toNat_le, ha, hb]; exact h), ha, hb]

theorem toNat_mul (ha : a.toNat = m) (hb : b.toNat = n) (h : m * n < 4294967296) :
    (a * b).toNat = m * n := by
  rw [UInt32.toNat_mul, ha, hb]
  exact Nat.mod_eq_of_lt h

theorem toNat_div (ha : a.toNat = m) (hb : b.toNat = n) : (a / b).toNat = m / n := by
  rw [UInt32.toNat_div, ha, hb]

theorem toNat_mod (ha : a.toNat = m) (hb : b.toNat = n) : (a % b).toNat = m % n := by
  rw [UInt32.toNat_mod, ha, hb]

/-! ## Sums that wrap -/

/-- The sum passes the end of the counter. -/
def Wraps (a b : UInt32) : Prop := 4294967296 ≤ a.toNat + b.toNat

instance (a b : UInt32) : Decidable (Wraps a b) := by
  unfold Wraps
  infer_instance

theorem toNat_add_of_not_wraps (h : ¬ Wraps a b) : (a + b).toNat = a.toNat + b.toNat :=
  toNat_add rfl rfl (not_le.mp h)

theorem toNat_add_of_wraps (h : Wraps a b) :
    (a + b).toNat = a.toNat + b.toNat - 4294967296 := by
  have ha := a.toNat_lt
  have hb := b.toNat_lt
  have hwraps : 4294967296 ≤ a.toNat + b.toNat := h
  rw [UInt32.toNat_add]
  show (a.toNat + b.toNat) % 4294967296 = _
  omega

/-- A sum is 0 when it ends at the end of the counter, or has not begun. -/
theorem add_eq_zero_iff : a + b = 0 ↔ a.toNat + b.toNat = 4294967296 ∨ a.toNat + b.toNat = 0 := by
  rw [← UInt32.toNat_inj]
  show (a + b).toNat = 0 ↔ _
  by_cases h : Wraps a b
  · have hwraps : 4294967296 ≤ a.toNat + b.toNat := h
    rw [toNat_add_of_wraps h]
    omega
  · have hwraps : a.toNat + b.toNat < 4294967296 := not_le.mp h
    rw [toNat_add_of_not_wraps h]
    omega

/-- Two sums from one start compare like what is added, if both wrap or none does; else the one
that wraps is the smaller one. -/
theorem add_le_add_iff (a : UInt32) {b c : UInt32} :
    a + b ≤ a + c ↔ (Wraps a b ∧ ¬ Wraps a c) ∨ ((Wraps a b ↔ Wraps a c) ∧ b ≤ c) := by
  have hb := b.toNat_lt
  have hc := c.toNat_lt
  rw [UInt32.le_iff_toNat_le, UInt32.le_iff_toNat_le]
  by_cases hwb : Wraps a b
  · have hab : 4294967296 ≤ a.toNat + b.toNat := hwb
    by_cases hwc : Wraps a c
    · have hac : 4294967296 ≤ a.toNat + c.toNat := hwc
      rw [toNat_add_of_wraps hwb, toNat_add_of_wraps hwc]
      simp only [hwb, hwc, true_and, not_true_eq_false, false_or]
      omega
    · have hac : a.toNat + c.toNat < 4294967296 := not_le.mp hwc
      rw [toNat_add_of_wraps hwb, toNat_add_of_not_wraps hwc]
      simp only [hwb, hwc, not_false_eq_true, and_self, true_or, iff_true]
      omega
  · have hab : a.toNat + b.toNat < 4294967296 := not_le.mp hwb
    by_cases hwc : Wraps a c
    · have hac : 4294967296 ≤ a.toNat + c.toNat := hwc
      have hgap : a.toNat + c.toNat - 4294967296 < a.toNat + b.toNat := by omega
      rw [toNat_add_of_not_wraps hwb, toNat_add_of_wraps hwc]
      simp only [hwb, hwc, false_and, false_iff, not_true_eq_false, false_or]
      exact iff_of_false (not_le.mpr hgap) not_false
    · have hac : a.toNat + c.toNat < 4294967296 := not_le.mp hwc
      rw [toNat_add_of_not_wraps hwb, toNat_add_of_not_wraps hwc]
      simp only [hwb, hwc, false_and, true_and, false_or]
      omega

end MachineInt
