/-
# Long division in base two

Division by subtracting a shifted divisor wherever it fits, from the highest shift down.  After
the subtractions down to the shift `j` the rest of the dividend is its remainder by `d * 2 ^ j`
and the quotient so far is its quotient by `d * 2 ^ j`, in its place.  This is the invariant
`Partial`; one trial subtraction takes it from `j + 1` to `j`.

Nothing in this module is about a particular program.
-/
import Mathlib.Algebra.Order.Ring.Nat
import Mathlib.Data.Nat.Bitwise
import Mathlib.Tactic.Ring

namespace LongDivision

variable {a d j x r : ℕ}

/-- The rest `x` and the quotient `r` of `a` by `d` when the subtractions are done down to the
shift `j`. -/
structure Partial (a d j x r : ℕ) : Prop where
  rest : x = a % (d * 2 ^ j)
  quot : r = a / (d * 2 ^ j) * 2 ^ j

theorem Partial.start (h : a < d * 2 ^ j) : Partial a d j a 0 where
  rest := (Nat.mod_eq_of_lt h).symm
  quot := by rw [Nat.div_eq_of_lt h, Nat.zero_mul]

/-- A divisor that is shifted once more is twice as large. -/
theorem two_pow_succ_mul (d j : ℕ) : d * 2 ^ (j + 1) = d * 2 ^ j * 2 := by
  rw [Nat.pow_succ, Nat.mul_assoc]

/-- The remainder can be taken in two steps. -/
theorem mod_eq_mod_mod (a t : ℕ) : a % t = a % (t * 2) % t :=
  (Nat.mod_mul_right_mod a t 2).symm

/-- The shifted divisor fits into the rest exactly when the quotient has the bit. -/
theorem fits_iff (hd : 0 < d) (hx : x = a % (d * 2 ^ (j + 1))) :
    d * 2 ^ j ≤ x ↔ a / (d * 2 ^ j) % 2 = 1 := by
  rw [two_pow_succ_mul] at hx
  have ht : 0 < d * 2 ^ j := Nat.mul_pos hd (Nat.two_pow_pos j)
  have hbit : x / (d * 2 ^ j) = a / (d * 2 ^ j) % 2 := by
    rw [hx, Nat.mod_mul_right_div_self]
  rw [← Nat.one_le_div_iff ht, hbit]
  omega

/-- The rest after a trial subtraction. -/
theorem rest_step (hd : 0 < d) (hx : x = a % (d * 2 ^ (j + 1))) :
    (if d * 2 ^ j ≤ x then x - d * 2 ^ j else x) = a % (d * 2 ^ j) := by
  have ht : 0 < d * 2 ^ j := Nat.mul_pos hd (Nat.two_pow_pos j)
  rw [two_pow_succ_mul] at hx
  have hlt : x < d * 2 ^ j * 2 := hx ▸ Nat.mod_lt _ (by omega)
  rw [mod_eq_mod_mod a, ← hx]
  split
  · rename_i hle
    rw [Nat.mod_eq_sub_mod hle, Nat.mod_eq_of_lt (by omega)]
  · rename_i hnot
    rw [Nat.mod_eq_of_lt (by omega)]

/-- The trial subtraction at the shift `j`. -/
theorem Partial.step (h : Partial a d (j + 1) x r) (hd : 0 < d) :
    Partial a d j (if d * 2 ^ j ≤ x then x - d * 2 ^ j else x)
      (if d * 2 ^ j ≤ x then r ||| 2 ^ j else r) where
  rest := rest_step hd h.rest
  quot := by
    have hquot : r = 2 ^ (j + 1) * (a / (d * 2 ^ (j + 1))) := by
      rw [h.quot, Nat.mul_comm]
    have hbit := fits_iff hd h.rest
    have hdiv := Nat.div_div_eq_div_mul a (d * 2 ^ j) 2
    rw [← two_pow_succ_mul] at hdiv
    have hsplit : a / (d * 2 ^ j) * 2 ^ j
        = 2 ^ (j + 1) * (a / (d * 2 ^ (j + 1))) + a / (d * 2 ^ j) % 2 * 2 ^ j := by
      calc a / (d * 2 ^ j) * 2 ^ j
          = (2 * (a / (d * 2 ^ j) / 2) + a / (d * 2 ^ j) % 2) * 2 ^ j := by
            rw [Nat.div_add_mod]
        _ = _ := by
            rw [hdiv]
            ring
    rw [hsplit, hquot]
    split
    · rename_i hle
      rw [hbit.mp hle, Nat.one_mul]
      exact (Nat.two_pow_add_eq_or_of_lt (Nat.pow_lt_pow_right (by omega) (by omega)) _).symm
    · rename_i hnot
      have hzero : a / (d * 2 ^ j) % 2 = 0 := by
        have := mt hbit.mpr hnot
        omega
      rw [hzero, Nat.zero_mul]
      rfl

/-- When nothing is left of the dividend the quotient is complete at every shift. -/
theorem Partial.quot_of_rest_zero (h : Partial a d j 0 r) (hd : 0 < d) : r = a / d := by
  have hdvd : d * 2 ^ j ∣ a := Nat.dvd_of_mod_eq_zero h.rest.symm
  rw [h.quot]
  obtain ⟨q, rfl⟩ := hdvd
  have ht : 0 < d * 2 ^ j := Nat.mul_pos hd (Nat.two_pow_pos j)
  rw [Nat.mul_div_cancel_left q ht, Nat.mul_assoc, Nat.mul_div_cancel_left _ hd, Nat.mul_comm]

/-- After the last bit the quotient is known. -/
theorem Partial.quot_of_zero (h : Partial a d 0 x r) : r = a / d := by
  rw [h.quot, Nat.pow_zero, Nat.mul_one, Nat.mul_one]

/-! ## Several subtractions in a row

A pass makes its trial subtractions with the divisor at the shifts `s`, `s - 1`, ...  It may go on
below the last bit; the bits of the quotient are then shifted out, and only the rest is wrong. -/

/-- After `n` trial subtractions from the shift `s` down. -/
structure Passed (a d s n x r : ℕ) : Prop where
  above : n ≤ s + 1 → Partial a d (s + 1 - n) x r
  below : s + 1 ≤ n → r = a / d

theorem Passed.start {s : ℕ} (h : Partial a d (s + 1) x r) : Passed a d s 0 x r where
  above := fun _ => h
  below := fun hle => absurd hle (by omega)

theorem two_pow_div {s n : ℕ} (h : n ≤ s) : 2 ^ s / 2 ^ n = 2 ^ (s - n) :=
  Nat.pow_div h (by omega)

/-- A divisor that is shifted down. -/
theorem mul_two_pow_div {s n : ℕ} (h : n ≤ s) : d * 2 ^ s / 2 ^ n = d * 2 ^ (s - n) := by
  rw [Nat.mul_div_assoc d (Nat.pow_dvd_pow 2 h), two_pow_div h]

theorem two_pow_div_of_lt {s n : ℕ} (h : s < n) : 2 ^ s / 2 ^ n = 0 :=
  Nat.div_eq_of_lt (Nat.pow_lt_pow_right (by omega) h)

theorem Passed.step {s n : ℕ} (h : Passed a d s n x r) (hd : 0 < d) :
    Passed a d s (n + 1)
      (if d * 2 ^ s / 2 ^ n ≤ x then x - d * 2 ^ s / 2 ^ n else x)
      (if d * 2 ^ s / 2 ^ n ≤ x then r ||| 2 ^ s / 2 ^ n else r) := by
  rcases Nat.lt_or_ge s n with hlt | hge
  · have hquot := h.below hlt
    refine ⟨fun hle => absurd hle (by omega), fun _ => ?_⟩
    rw [two_pow_div_of_lt hlt, Nat.or_zero, ite_self, hquot]
  · have hpartial := h.above (by omega)
    rw [show s + 1 - n = s - n + 1 from by omega] at hpartial
    have hstep := hpartial.step hd
    rw [mul_two_pow_div hge, two_pow_div hge]
    constructor
    · intro _
      rw [show s + 1 - (n + 1) = s - n from by omega]
      exact hstep
    · intro hle
      rw [show s - n = 0 from by omega] at hstep ⊢
      exact hstep.quot_of_zero

/-- The quotient is complete when nothing is left or no bit is. -/
theorem Passed.quot {s n : ℕ} (h : Passed a d s n x r) (hd : 0 < d) (hend : x = 0 ∨ s + 1 ≤ n) :
    r = a / d := by
  by_cases hle : s + 1 ≤ n
  · exact h.below hle
  · have hpartial := h.above (by omega)
    rw [hend.resolve_right hle] at hpartial
    exact hpartial.quot_of_rest_zero hd

/-- The rest after `n` trial subtractions from the shift `s` down. -/
def restAfter (d s x : ℕ) : ℕ → ℕ
  | 0 => x
  | n + 1 =>
    if d * 2 ^ s / 2 ^ n ≤ restAfter d s x n then restAfter d s x n - d * 2 ^ s / 2 ^ n
    else restAfter d s x n

/-- The trial subtraction with number `n` is one. -/
def Fits (d s x n : ℕ) : Prop := d * 2 ^ s / 2 ^ n ≤ restAfter d s x n

instance (d s x n : ℕ) : Decidable (Fits d s x n) := inferInstanceAs (Decidable (_ ≤ _))

/-- The divisor fits, and is subtracted. -/
theorem restAfter_of_fits {s n : ℕ} (h : Fits d s x n) :
    restAfter d s x (n + 1) = restAfter d s x n - d * 2 ^ s / 2 ^ n :=
  if_pos h

theorem restAfter_of_not_fits {s n : ℕ} (h : ¬ Fits d s x n) :
    restAfter d s x (n + 1) = restAfter d s x n :=
  if_neg h

/-- Adding back what was subtracted gives the rest before. -/
theorem restAfter_add (d s x n : ℕ) :
    restAfter d s x (n + 1) + (if Fits d s x n then d * 2 ^ s / 2 ^ n else 0)
      = restAfter d s x n := by
  by_cases hfits : Fits d s x n
  · rw [restAfter_of_fits hfits, if_pos hfits]
    exact Nat.sub_add_cancel hfits
  · rw [restAfter_of_not_fits hfits, if_neg hfits, Nat.add_zero]

theorem restAfter_le (d s x n : ℕ) : restAfter d s x n ≤ x := by
  induction n with
  | zero => exact Nat.le_refl x
  | succ n ih => exact ((restAfter_add d s x n) ▸ Nat.le_add_right _ _).trans ih

/-- Down to the last bit the rest is a remainder. -/
theorem restAfter_eq_mod {s n : ℕ} (hd : 0 < d) (hn : n ≤ s + 1) :
    restAfter d s (a % (d * 2 ^ (s + 1))) n = a % (d * 2 ^ (s + 1 - n)) := by
  induction n with
  | zero => rfl
  | succ n ih =>
    have hrest := ih (by omega)
    rw [show s + 1 - n = s - n + 1 from by omega] at hrest
    rw [restAfter, hrest, mul_two_pow_div (by omega), show s + 1 - (n + 1) = s - n from by omega]
    exact rest_step hd rfl

/-- A trial subtraction down to the last bit is one exactly when the quotient has the bit. -/
theorem fits_iff_bit {s n : ℕ} (hd : 0 < d) (hn : n ≤ s) :
    Fits d s (a % (d * 2 ^ (s + 1))) n ↔ a / (d * 2 ^ (s - n)) % 2 = 1 := by
  unfold Fits
  rw [restAfter_eq_mod hd (by omega), mul_two_pow_div hn,
    show s + 1 - n = s - n + 1 from by omega]
  exact fits_iff hd rfl

end LongDivision
