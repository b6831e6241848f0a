/-
# The unsigned remainder

`__umodsi3` divides as `__udivsi3` does and keeps no quotient.  It notes the subtractions that the
last pass makes below the last bit, and adds them back.  Where the first pass starts at the shift
30 or 31 and leaves nothing, bits that are not below the last one look as if they were: the routine
then adds back what it subtracted rightly.
-/
import NewtonTLS.UnsignedDivision

open Arm Arm.Cpu Arm.Program LongDivision

namespace Division

variable {p : Program Label} {cpu cpu₀ : Cpu} {a d s x n : ℕ}

/-! ## The notes -/

/-- The bit register moved around by `n`. -/
def bitAround (s n : ℕ) : Word := (BitVec.ofNat 32 (2 ^ s)).rotateRight n

/-- What the pass at the shift `s` notes in its first subtractions. -/
def noted (d s x : ℕ) : ℕ → Word
  | 0 => 0
  | n + 1 => if 0 < n ∧ Fits d s x n then noted d s x n ||| bitAround s n else noted d s x n

/-- The registers in the course of a pass. -/
structure Noting (cpu₀ : Cpu) (d s x n : ℕ) (cpu : Cpu) : Prop where
  changes : Changes [.r0, .r1, .r2, .r3, .ip] cpu₀ cpu
  divisor : (cpu.regs divisor).toNat = d * 2 ^ s
  bit : cpu.regs curbit = BitVec.ofNat 32 (2 ^ s)
  shift : s < 32
  rest : (cpu.regs dividend).toNat = restAfter d s x n
  noted : cpu.regs overdone = noted d s x n

/-- The trial subtraction that is not noted. -/
def firstSubtract : List Conditional := [
  (.al, mov overdone (imm 0)),
  (.al, cmp dividend (reg divisor)),
  (.cs, sub dividend dividend (reg divisor))]

/-- A trial subtraction that is noted. -/
def noteSubtract (n : ℕ) : List Conditional := [
  (.al, cmp dividend (lsr divisor n)),
  (.cs, sub dividend dividend (lsr divisor n)),
  (.cs, orr overdone overdone (ror curbit n))]

/-- A difference without a borrow. -/
theorem toNat_sub_ite {u v : Word} (h : v.toNat ≤ u.toNat) : (u - v).toNat = u.toNat - v.toNat :=
  BitVec.toNat_sub_of_le h

/-- One more trial subtraction, which is noted. -/
theorem noting_noteSubtract (h : Noting cpu₀ d s x n cpu) (hn : 0 < n) :
    Noting cpu₀ d s x (n + 1) ((noteSubtract n).foldl Conditional.exec cpu) := by
  have hdivisor : (cpu.regs divisor >>> n).toNat = d * 2 ^ s / 2 ^ n := by
    rw [toNat_ushiftRight, h.divisor]
  by_cases hfits : Fits d s x n
  · have hle : (cpu.regs divisor >>> n).toNat ≤ (cpu.regs dividend).toNat := by
      rw [hdivisor, h.rest]
      exact hfits
    have hexec : (noteSubtract n).foldl Conditional.exec cpu
        = ((cpu.set dividend (cpu.regs dividend - cpu.regs divisor >>> n)).set overdone
            (cpu.regs overdone ||| (cpu.regs curbit).rotateRight n)).setFlags
              (.ofSub (cpu.regs dividend) (cpu.regs divisor >>> n)) := by
      simp [noteSubtract, ofSub_c, hle, -BitVec.toNat_ushiftRight]
    rw [hexec]
    refine ⟨((h.changes.set (by simp)).set (by simp)).setFlags _, ?_, ?_, h.shift, ?_, ?_⟩
    · simpa using h.divisor
    · simpa using h.bit
    · have hsub := toNat_sub_ite hle
      rw [hdivisor, h.rest] at hsub
      rw [restAfter_of_fits hfits, ← hsub]
      simp
    · rw [noted, if_pos ⟨hn, hfits⟩, ← h.noted, bitAround, ← h.bit]
      simp
  · have hnot : ¬ (cpu.regs divisor >>> n).toNat ≤ (cpu.regs dividend).toNat := by
      rw [hdivisor, h.rest]
      exact hfits
    have hexec : (noteSubtract n).foldl Conditional.exec cpu
        = cpu.setFlags (.ofSub (cpu.regs dividend) (cpu.regs divisor >>> n)) := by
      simp [noteSubtract, ofSub_c, hnot, -BitVec.toNat_ushiftRight]
    rw [hexec]
    refine ⟨h.changes.setFlags _, h.divisor, h.bit, h.shift, ?_, ?_⟩
    · rw [restAfter_of_not_fits hfits]
      exact h.rest
    · rw [noted, if_neg fun hand => hfits hand.2]
      exact h.noted

/-! ## The loop -/

/-- The registers before a pass at the shift `s`. -/
structure Heading (cpu₀ : Cpu) (a d s : ℕ) (cpu : Cpu) : Prop where
  changes : Changes [.r0, .r1, .r2, .r3, .ip] cpu₀ cpu
  divisor : (cpu.regs divisor).toNat = d * 2 ^ s
  bit : (cpu.regs curbit).toNat = 2 ^ s
  rest : (cpu.regs dividend).toNat = a % (d * 2 ^ (s + 1))

theorem Heading.shift (h : Heading cpu₀ a d s cpu) : s < 32 := by
  have hlt := (cpu.regs curbit).isLt
  rw [h.bit] at hlt
  exact (Nat.pow_lt_pow_iff_right (by omega)).mp hlt

/-- The first of the four subtractions. -/
theorem noting_firstSubtract (h : Heading cpu₀ a d s cpu) :
    Noting cpu₀ d s (a % (d * 2 ^ (s + 1))) 1 (firstSubtract.foldl Conditional.exec cpu) := by
  have hbit : cpu.regs curbit = BitVec.ofNat 32 (2 ^ s) := by
    rw [← h.bit, BitVec.ofNat_toNat, BitVec.setWidth_eq]
  have hdiv : d * 2 ^ s / 2 ^ 0 = d * 2 ^ s := Nat.div_one _
  by_cases hfits : Fits d s (a % (d * 2 ^ (s + 1))) 0
  · have hle : (cpu.regs divisor).toNat ≤ (cpu.regs dividend).toNat := by
      rw [h.divisor, h.rest, ← hdiv]
      exact hfits
    have hexec : firstSubtract.foldl Conditional.exec cpu
        = ((cpu.set overdone 0#32).set dividend (cpu.regs dividend - cpu.regs divisor)).setFlags
            (.ofSub (cpu.regs dividend) (cpu.regs divisor)) := by
      simp [firstSubtract, ofSub_c, hle]
    rw [hexec]
    refine ⟨((h.changes.set (by simp)).set (by simp)).setFlags _, ?_, ?_, h.shift, ?_, ?_⟩
    · simpa using h.divisor
    · simpa using hbit
    · have hsub := toNat_sub_ite hle
      rw [h.divisor, h.rest] at hsub
      rw [restAfter_of_fits hfits, hdiv]
      simpa [restAfter] using hsub
    · simp [noted]
  · have hnot : ¬ (cpu.regs divisor).toNat ≤ (cpu.regs dividend).toNat := by
      rw [h.divisor, h.rest, ← hdiv]
      exact hfits
    have hexec : firstSubtract.foldl Conditional.exec cpu
        = (cpu.set overdone 0#32).setFlags (.ofSub (cpu.regs dividend) (cpu.regs divisor)) := by
      simp [firstSubtract, ofSub_c, hnot]
    rw [hexec]
    refine ⟨(h.changes.set (by simp)).setFlags _, ?_, ?_, h.shift, ?_, ?_⟩
    · simpa using h.divisor
    · simpa using hbit
    · rw [restAfter_of_not_fits hfits]
      simpa [restAfter] using h.rest
    · simp [noted]

/-- One pass. -/
def remainderPass : List Conditional :=
  firstSubtract ++ noteSubtract 1 ++ noteSubtract 2 ++ noteSubtract 3
    ++ [(.al, mov .ip (reg curbit))] ++ nextBits dividend divisor curbit

/-- The registers after the subtractions of a pass. -/
structure Noted (cpu₀ : Cpu) (a d s : ℕ) (cpu : Cpu) : Prop where
  noting : Noting cpu₀ d s (a % (d * 2 ^ (s + 1))) 4 cpu
  ip : cpu.regs .ip = BitVec.ofNat 32 (2 ^ s)

theorem noted_of_noting (h : Noting cpu₀ d s (a % (d * 2 ^ (s + 1))) 4 cpu) :
    Noted cpu₀ a d s (cpu.set .ip (cpu.regs curbit)) := by
  refine ⟨⟨h.changes.set (by decide), ?_, ?_, h.shift, ?_, ?_⟩, ?_⟩
  · simpa using h.divisor
  · simpa using h.bit
  · simpa using h.rest
  · simpa using h.noted
  · simpa using h.bit

theorem noted_pass (h : Heading cpu₀ a d s cpu) :
    ∃ cpu', Noted cpu₀ a d s cpu' ∧ remainderPass.foldl Conditional.exec cpu
      = (nextBits dividend divisor curbit).foldl Conditional.exec cpu' := by
  have h4 := noting_noteSubtract (noting_noteSubtract (noting_noteSubtract
    (noting_firstSubtract h) Nat.one_pos) Nat.two_pos) (by omega : 0 < 3)
  refine ⟨_, noted_of_noting h4, ?_⟩
  simp only [remainderPass, List.foldl_append]
  rfl

/-- The pass is the first one, from the shift `s₀`, or one after it: then the first has left
something. -/
def Reached (a d s₀ s : ℕ) : Prop := s = s₀ ∨ s + 4 ≤ s₀ ∧ a % (d * 2 ^ (s₀ - 3)) ≠ 0

/-- The registers when the loop ends: nothing is left, or there are no more bits. -/
structure Ended (cpu₀ : Cpu) (a d s₀ s : ℕ) (cpu : Cpu) : Prop where
  changes : Changes [.r0, .r1, .r2, .r3, .ip] cpu₀ cpu
  divisor : (cpu.regs divisor).toNat = d * 2 ^ s
  ip : cpu.regs .ip = BitVec.ofNat 32 (2 ^ s)
  shift : s < 32
  rest : (cpu.regs dividend).toNat = restAfter d s (a % (d * 2 ^ (s + 1))) 4
  noted : cpu.regs overdone = noted d s (a % (d * 2 ^ (s + 1))) 4
  reached : Reached a d s₀ s
  last : restAfter d s (a % (d * 2 ^ (s + 1))) 4 = 0 ∨ s < 4

theorem toNat_bit {s : ℕ} (hs : s < 32) : (BitVec.ofNat 32 (2 ^ s) : Word).toNat = 2 ^ s := by
  rw [BitVec.toNat_ofNat, Nat.mod_eq_of_lt (Nat.pow_lt_pow_right (by omega) hs)]

/-- The bit register runs out after the pass at a shift below four. -/
theorem Noted.bit_ushiftRight (h : Noted cpu₀ a d s cpu) :
    (cpu.regs curbit >>> 4).toNat = 0 ↔ s < 4 := by
  rw [toNat_ushiftRight, h.noting.bit, toNat_bit h.noting.shift,
    Nat.div_eq_zero_iff_lt (Nat.two_pow_pos 4)]
  exact Nat.pow_lt_pow_iff_right (by omega)

/-- The next pass works with the next four bits. -/
theorem Noted.next (h : Noted cpu₀ a d s cpu) (hd : 0 < d) (hs : 4 ≤ s) (f : Flags) :
    Heading cpu₀ a d (s - 4) (((cpu.set curbit (cpu.regs curbit >>> 4)).set divisor
      (cpu.regs divisor >>> 4)).setFlags f) := by
  refine ⟨((h.noting.changes.set (by simp)).set (by simp)).setFlags f, ?_, ?_, ?_⟩
  · rw [regs_setFlags, regs_set_self, toNat_ushiftRight, h.noting.divisor, mul_two_pow_div hs]
  · rw [regs_setFlags, regs_set_ne (by decide), regs_set_self, toNat_ushiftRight, h.noting.bit,
      toNat_bit h.noting.shift, two_pow_div hs]
  · rw [regs_setFlags, regs_set_ne (by decide), regs_set_ne (by decide), h.noting.rest,
      restAfter_eq_mod hd (by omega), show s + 1 - 4 = s - 4 + 1 from by omega]

theorem Reached.next {s₀ : ℕ} (h : Reached a d s₀ s) (hs : 4 ≤ s)
    (hrest : a % (d * 2 ^ (s - 3)) ≠ 0) : Reached a d s₀ (s - 4) := by
  rcases h with rfl | ⟨hle, hne⟩
  · exact Or.inr ⟨by omega, hrest⟩
  · exact Or.inr ⟨by omega, hne⟩

theorem leads_remainderPass (cpu₀ : Cpu) (hp : p.text = text) (hd : 0 < d) (s₀ i : ℕ) :
    p.Leads ((i + 1) * 17) (p.addr 65)
      (fun cpu => ∃ s < 4 * (i + 1), Heading cpu₀ a d s cpu ∧ Reached a d s₀ s)
      (p.addr 82) (fun cpu => ∃ s, Ended cpu₀ a d s₀ s cpu) := by
  refine Leads.loop (I := fun i cpu => ∃ s < 4 * (i + 1), Heading cpu₀ a d s cpu ∧
    Reached a d s₀ s) (l := remainderPass) (c := .ne) (t := .umodLoop3) (hasAt hp rfl)
    (hasAt hp rfl) (address_eq hp rfl) ?_ ?_ i
  · rintro i cpu ⟨s, hs, hheading, hreached⟩ htaken
    obtain ⟨cpu', hnoted, hpass⟩ := noted_pass hheading
    rw [hpass] at htaken ⊢
    have hmore : ¬ ((cpu'.regs dividend).toNat = 0 ∨ (cpu'.regs curbit >>> 4).toNat = 0) := by
      intro hdone
      rw [Cond.holds, (nextBits_of_done hdone).2] at htaken
      exact absurd htaken (by simp)
    rw [not_or] at hmore
    obtain ⟨f, -, hnext⟩ := nextBits_of_more (A := dividend) (D := divisor) (C := curbit)
      (by decide) hmore.1 hmore.2
    have hle : 4 ≤ s := Nat.not_lt.mp (mt hnoted.bit_ushiftRight.mpr hmore.2)
    have hrest := hmore.1
    rw [hnoted.noting.rest, restAfter_eq_mod hd (by omega),
      show s + 1 - 4 = s - 3 from by omega] at hrest
    rw [hnext]
    exact ⟨i - 1, by omega, s - 4, by omega, hnoted.next hd hle f, hreached.next hle hrest⟩
  · rintro i cpu ⟨s, hs, hheading, hreached⟩ hstop
    obtain ⟨cpu', hnoted, hpass⟩ := noted_pass hheading
    rw [hpass] at hstop ⊢
    have hdone : (cpu'.regs dividend).toNat = 0 ∨ (cpu'.regs curbit >>> 4).toNat = 0 := by
      by_contra hmore
      rw [not_or] at hmore
      obtain ⟨f, hf, hnext⟩ := nextBits_of_more (A := dividend) (D := divisor) (C := curbit)
        (by decide) hmore.1 hmore.2
      rw [hnext] at hstop
      simp [hf] at hstop
    have hkeep := (nextBits_of_done (D := divisor) hdone).1
    refine ⟨s, hnoted.noting.changes.trans (hkeep.mono (by simp)), ?_, ?_, hnoted.noting.shift,
      ?_, ?_, hreached, ?_⟩
    · rw [hkeep.regs _ (by decide), hnoted.noting.divisor]
    · rw [hkeep.regs _ (by decide), hnoted.ip]
    · rw [hkeep.regs _ (by decide), hnoted.noting.rest]
    · rw [hkeep.regs _ (by decide), hnoted.noting.noted]
    · rwa [hnoted.bit_ushiftRight, hnoted.noting.rest] at hdone

/-! ## Adding back -/

/-- The notes in the three highest bits. -/
def highNotes (d s x : ℕ) : Word := noted d s x 4 &&& 0xe0000000#32

/-- The notes of a pass, from the subtractions that it made. -/
def notes (s : ℕ) (b₁ b₂ b₃ : Bool) : Word :=
  (if b₁ then bitAround s 1 else 0) ||| (if b₂ then bitAround s 2 else 0)
    ||| (if b₃ then bitAround s 3 else 0)

/-- What is noted depends on three comparisons. -/
theorem noted_eq_notes (d s x : ℕ) :
    noted d s x 4
      = notes s (decide (Fits d s x 1)) (decide (Fits d s x 2)) (decide (Fits d s x 3)) := by
  by_cases h₁ : Fits d s x 1 <;> by_cases h₂ : Fits d s x 2 <;> by_cases h₃ : Fits d s x 3 <;>
    simp [noted, notes, h₁, h₂, h₃]

/-- Which subtractions look as if they were made below the last bit, at each shift. -/
theorem notes_bits : ∀ s : Fin 32, ∀ b₁ b₂ b₃ : Bool,
    (notes s b₁ b₂ b₃ &&& 0xe0000000#32 &&& bitAround s 3 != 0#32) = (decide (s.val < 3) && b₃) ∧
    (notes s b₁ b₂ b₃ &&& 0xe0000000#32 &&& bitAround s 2 != 0#32)
      = (decide (s.val < 2 ∨ s.val = 31) && b₂) ∧
    (notes s b₁ b₂ b₃ &&& 0xe0000000#32 &&& bitAround s 1 != 0#32)
      = (decide (s.val = 0 ∨ 30 ≤ s.val) && b₁) ∧
    (notes s b₁ b₂ b₃ &&& 0xe0000000#32 == 0#32)
      = !(decide (s.val < 3) && b₃ || decide (s.val < 2 ∨ s.val = 31) && b₂
        || decide (s.val = 0 ∨ 30 ≤ s.val) && b₁) := by
  decide +kernel

/-- The shifts at which the subtraction with number `n` is added back. -/
def AddsBack (s n : ℕ) : Prop :=
  n = 3 ∧ s < 3 ∨ n = 2 ∧ (s < 2 ∨ s = 31) ∨ n = 1 ∧ (s = 0 ∨ 30 ≤ s)

instance (s n : ℕ) : Decidable (AddsBack s n) := inferInstanceAs (Decidable (_ ∨ _))

/-- A bit is noted when its subtraction was made and is added back. -/
theorem highNotes_bit {x : ℕ} (hs : s < 32) (hn : n = 1 ∨ n = 2 ∨ n = 3) :
    highNotes d s x &&& bitAround s n ≠ 0#32 ↔ AddsBack s n ∧ Fits d s x n := by
  have hbits := notes_bits ⟨s, hs⟩ (decide (Fits d s x 1)) (decide (Fits d s x 2))
    (decide (Fits d s x 3))
  unfold highNotes AddsBack
  rw [noted_eq_notes, ← bne_iff_ne]
  rcases hn with rfl | rfl | rfl
  · rw [hbits.2.2.1]
    simp
  · rw [hbits.2.1]
    simp
  · rw [hbits.1]
    simp

theorem highNotes_eq_zero {x : ℕ} (hs : s < 32) :
    highNotes d s x = 0#32 ↔ ∀ n, n = 1 ∨ n = 2 ∨ n = 3 → ¬ (AddsBack s n ∧ Fits d s x n) := by
  have hbits := notes_bits ⟨s, hs⟩ (decide (Fits d s x 1)) (decide (Fits d s x 2))
    (decide (Fits d s x 3))
  unfold highNotes AddsBack
  rw [noted_eq_notes, ← beq_iff_eq, hbits.2.2.2]
  simp only [forall_eq_or_imp, forall_eq]
  grind

/-- What the routine makes of the rest: the subtractions that look as if they were made below the
last bit are added back. -/
def addedBack (d s x : ℕ) : ℕ :=
  restAfter d s x 4 + (if AddsBack s 3 ∧ Fits d s x 3 then d * 2 ^ s / 2 ^ 3 else 0)
    + (if AddsBack s 2 ∧ Fits d s x 2 then d * 2 ^ s / 2 ^ 2 else 0)
    + (if AddsBack s 1 ∧ Fits d s x 1 then d * 2 ^ s / 2 ^ 1 else 0)

/-- The registers while the rest is fixed up; `y` is the rest so far. -/
structure Fixing (cpu₀ : Cpu) (d s x y : ℕ) (cpu : Cpu) : Prop where
  changes : Changes [.r0, .r1, .r2, .r3, .ip] cpu₀ cpu
  divisor : (cpu.regs divisor).toNat = d * 2 ^ s
  ip : cpu.regs .ip = BitVec.ofNat 32 (2 ^ s)
  rest : (cpu.regs dividend).toNat = y
  notes : cpu.regs overdone = highNotes d s x

/-- One subtraction is added back. -/
def addBack (n : ℕ) : List Conditional := [
  (.al, tst overdone (ror .ip n)),
  (.ne, add dividend dividend (lsr divisor n))]

/-- What is added back was there before. -/
theorem add_ite_le {c : Prop} [Decidable c] {y : ℕ} (hy : y ≤ restAfter d s x (n + 1)) :
    y + (if c ∧ Fits d s x n then d * 2 ^ s / 2 ^ n else 0) ≤ restAfter d s x n := by
  have hadd := restAfter_add d s x n
  by_cases hfits : Fits d s x n
  · rw [if_pos hfits] at hadd
    generalize d * 2 ^ s / 2 ^ n = t at hadd ⊢
    split <;> omega
  · rw [if_neg fun hand => hfits hand.2]
    rw [if_neg hfits] at hadd
    omega

/-- A fixup adds one multiple back. -/
theorem fixing_addBack {y : ℕ} (h : Fixing cpu₀ d s x y cpu) (hs : s < 32)
    (hn : n = 1 ∨ n = 2 ∨ n = 3) (hy : y ≤ restAfter d s x (n + 1))
    (hlt : restAfter d s x n < 2 ^ 32) :
    Fixing cpu₀ d s x (y + (if AddsBack s n ∧ Fits d s x n then d * 2 ^ s / 2 ^ n else 0))
      ((addBack n).foldl Conditional.exec cpu) := by
  have hle := add_ite_le (c := AddsBack s n) hy
  have hbit := highNotes_bit (d := d) (x := x) hs hn
  have haround : (cpu.regs .ip).rotateRight n = bitAround s n := by rw [h.ip, bitAround]
  by_cases hback : AddsBack s n ∧ Fits d s x n
  · rw [if_pos hback] at hle ⊢
    have hne := hbit.mpr hback
    rw [← h.notes, ← haround] at hne
    have hexec : ∃ f, (addBack n).foldl Conditional.exec cpu
        = (cpu.set dividend (cpu.regs dividend + cpu.regs divisor >>> n)).setFlags f := by
      simp [addBack, Flags.logical, hne]
    obtain ⟨f, hexec⟩ := hexec
    rw [hexec]
    refine ⟨(h.changes.set (by simp)).setFlags f, ?_, ?_, ?_, ?_⟩
    · simpa using h.divisor
    · simpa using h.ip
    · rw [regs_setFlags, regs_set_self, BitVec.toNat_add, toNat_ushiftRight, h.rest, h.divisor]
      exact Nat.mod_eq_of_lt (by omega)
    · simpa using h.notes
  · rw [if_neg hback, Nat.add_zero]
    have heq := not_not.mp (mt hbit.mp hback)
    rw [← h.notes, ← haround] at heq
    have hexec : ∃ f, (addBack n).foldl Conditional.exec cpu = cpu.setFlags f := by
      simp [addBack, Flags.logical, heq]
    obtain ⟨f, hexec⟩ := hexec
    rw [hexec]
    exact ⟨h.changes.setFlags f, h.divisor, h.ip, h.rest, h.notes⟩

theorem addedBack_of_zero (hs : s < 32) (h : highNotes d s x = 0#32) :
    addedBack d s x = restAfter d s x 4 := by
  have hnone := (highNotes_eq_zero hs).mp h
  unfold addedBack
  rw [if_neg (hnone 3 (by simp)), if_neg (hnone 2 (by simp)), if_neg (hnone 1 (by simp))]
  rfl

/-- What `__umodsi3` leaves in `r0` after a loop that ends at the shift `s`. -/
def Remainder (cpu₀ : Cpu) (r : ℕ) (cpu : Cpu) : Prop :=
  (cpu.regs .r0).toNat = r ∧ Changes [.r0, .r1, .r2, .r3, .ip] cpu₀ cpu

theorem leads_fixUp (hp : p.text = text) {s₀ : ℕ} {cpu₁ : Cpu} (ha : a < 2 ^ 32)
    (h : Ended cpu₀ a d s₀ s cpu₁) :
    p.Leads 9 (p.addr 82) (· = cpu₁) (cpu₀.regs .lr)
      (Remainder cpu₀ (addedBack d s (a % (d * 2 ^ (s + 1))))) := by
  obtain ⟨x, hx⟩ : ∃ x, x = a % (d * 2 ^ (s + 1)) := ⟨_, rfl⟩
  have hlt : ∀ n, restAfter d s x n < 2 ^ 32 := fun n =>
    ((restAfter_le d s x n).trans (hx ▸ Nat.mod_le _ _)).trans_lt ha
  obtain ⟨hchanges, hdivisor, hip, hshift, hrest, hnoted, -, -⟩ := h
  rw [← hx] at hrest hnoted ⊢
  have hands : p.Leads 1 (p.addr 82) (· = cpu₁) (p.addr 83) (fun cpu =>
      Fixing cpu₀ d s x (restAfter d s x 4) cpu ∧
        cpu.flags.z = (highNotes d s x == 0#32)) := by
    refine Leads.block (l := [(.al, ands overdone overdone (imm 0xe0000000))]) (hasAt hp rfl) ?_
    rintro cpu rfl
    have hexec : ∃ f : Flags, f.z = (highNotes d s x == 0#32) ∧
        [((.al, ands overdone overdone (imm 0xe0000000)) : Conditional)].foldl Conditional.exec
          cpu = (cpu.set overdone (highNotes d s x)).setFlags f := by
      simp only [highNotes, ← hnoted]
      refine ⟨_, ?_, rfl⟩
      rfl
    obtain ⟨f, hf, hexec⟩ := hexec
    rw [hexec]
    refine ⟨⟨(hchanges.set (by simp)).setFlags f, ?_, ?_, ?_, ?_⟩, hf⟩
    · simpa using hdivisor
    · simpa using hip
    · simpa using hrest
    · simp
  by_cases hzero : highNotes d s x = 0#32
  · have hret := hands.seq (Leads.ret (c := .eq) (r := .lr) (a := cpu₀.regs .lr)
      (hasAt hp rfl) (by
        rintro cpu ⟨hfixing, hz⟩
        refine ⟨?_, hfixing.changes.regs _ (by decide)⟩
        rw [Cond.holds, hz, hzero]
        rfl))
    refine hret.imp (by norm_num) (fun _ => id) ?_
    rintro cpu ⟨hfixing, -⟩
    exact ⟨by rw [addedBack_of_zero hshift hzero]; exact hfixing.rest, hfixing.changes⟩
  · have hstay := hands.seq (Leads.stay (c := .eq) (r := .lr) (hasAt hp rfl) (by
      rintro cpu ⟨-, hz⟩
      rw [Cond.holds, hz]
      exact beq_eq_false_iff_ne.mpr hzero))
    have hback := hstay.seq (Leads.block (l := addBack 3 ++ addBack 2 ++ addBack 1)
      (Q := Remainder cpu₀ (addedBack d s x)) (hasAt hp rfl) (by
        rintro cpu ⟨hfixing, -⟩
        rw [List.foldl_append, List.foldl_append]
        have h3 := fixing_addBack hfixing hshift (by simp : 3 = 1 ∨ 3 = 2 ∨ 3 = 3) le_rfl (hlt 3)
        have h2 := fixing_addBack h3 hshift (by simp) (add_ite_le le_rfl) (hlt 2)
        have h1 := fixing_addBack h2 hshift (by simp) (add_ite_le (add_ite_le le_rfl)) (hlt 1)
        exact ⟨h1.rest, h1.changes⟩))
    refine (hback.seq (Leads.ret (c := .al) (r := .lr) (hasAt hp rfl) ?_)).mono (by
      simp [addBack])
    intro cpu hcpu
    exact ⟨rfl, hcpu.2.regs _ (by decide)⟩

/-! ## Where the remainder is wrong -/

/-- A subtraction that is added back cancels. -/
theorem add_fits_of_addsBack {x : ℕ} (h : AddsBack s n) :
    restAfter d s x (n + 1) + (if AddsBack s n ∧ Fits d s x n then d * 2 ^ s / 2 ^ n else 0)
      = restAfter d s x n := by
  simp only [h, true_and]
  exact restAfter_add d s x n

/-- A subtraction that is not looked at is not added back. -/
theorem not_addsBack_and {x : ℕ} (h : ¬ AddsBack s n) :
    (if AddsBack s n ∧ Fits d s x n then d * 2 ^ s / 2 ^ n else 0) = 0 :=
  if_neg fun hand => h hand.1

/-- **Below the shift 30 the remainder is right.** -/
theorem addedBack_of_lt (hd : 0 < d) (hs : s < 30)
    (hlast : restAfter d s (a % (d * 2 ^ (s + 1))) 4 = 0 ∨ s < 4) :
    addedBack d s (a % (d * 2 ^ (s + 1))) = a % d := by
  have hmod : ∀ n, s + 1 = n → restAfter d s (a % (d * 2 ^ (s + 1))) n = a % d := by
    rintro n rfl
    rw [restAfter_eq_mod hd le_rfl, Nat.sub_self, Nat.pow_zero, Nat.mul_one]
  unfold addedBack
  by_cases h3 : s < 3
  · rw [add_fits_of_addsBack (n := 3) (by simp [AddsBack, h3])]
    by_cases h2 : s < 2
    · rw [add_fits_of_addsBack (n := 2) (by simp [AddsBack, h2])]
      by_cases h1 : s = 0
      · rw [add_fits_of_addsBack (n := 1) (by simp [AddsBack, h1])]
        exact hmod 1 (by omega)
      · rw [not_addsBack_and (by simp [AddsBack]; omega)]
        exact hmod 2 (by omega)
    · rw [not_addsBack_and (by simp [AddsBack]; omega), not_addsBack_and (by
        simp [AddsBack]
        omega)]
      exact hmod 3 (by omega)
  · rw [not_addsBack_and (by simp [AddsBack]; omega), not_addsBack_and (by
        simp [AddsBack]
        omega), not_addsBack_and (by
        simp [AddsBack]
        omega)]
    rcases Nat.lt_or_ge s 4 with h4 | h4
    · exact hmod 4 (by omega)
    · have hzero := hlast.resolve_right (by omega)
      have hdvd : d * 2 ^ (s + 1 - 4) ∣ a := by
        rw [restAfter_eq_mod hd (by omega)] at hzero
        exact Nat.dvd_of_mod_eq_zero hzero
      rw [hzero, Nat.mod_eq_zero_of_dvd ((Nat.dvd_mul_right d _).trans hdvd)]

/-- At the shifts 30 and 31 what was subtracted rightly is added back. -/
theorem addedBack_of_ge (hd : 0 < d) (hs : s = 30 ∨ s = 31)
    (hlast : restAfter d s (a % (d * 2 ^ (s + 1))) 4 = 0) :
    addedBack d s (a % (d * 2 ^ (s + 1))) = a / (d * 2 ^ 29) % 2 ^ (s - 29) * (d * 2 ^ 29) := by
  have hfits := fun n hn => fits_iff_bit (a := a) (s := s) (n := n) hd hn
  obtain ⟨q, hq⟩ : ∃ q, q = a / (d * 2 ^ 29) := ⟨_, rfl⟩
  unfold addedBack
  rw [hlast, not_addsBack_and (by simp [AddsBack]; omega), ← hq]
  rcases hs with rfl | rfl
  · have hback : AddsBack 30 1 := by simp [AddsBack]
    have hbit : Fits d 30 (a % (d * 2 ^ (30 + 1))) 1 ↔ q % 2 = 1 := hq ▸ hfits 1 (by omega)
    rw [not_addsBack_and (by simp [AddsBack]), mul_two_pow_div (by omega)]
    simp only [hback, hbit, true_and, Nat.zero_add]
    rcases Nat.mod_two_eq_zero_or_one q with h | h <;> simp [h]
  · have hback : AddsBack 31 1 := by simp [AddsBack]
    have hback' : AddsBack 31 2 := by simp [AddsBack]
    have hhalf : a / (d * 2 ^ 30) = q / 2 := by
      rw [hq, Nat.div_div_eq_div_mul, ← two_pow_succ_mul]
    have hbit : Fits d 31 (a % (d * 2 ^ (31 + 1))) 1 ↔ q / 2 % 2 = 1 :=
      hhalf ▸ hfits 1 (by omega)
    have hbit' : Fits d 31 (a % (d * 2 ^ (31 + 1))) 2 ↔ q % 2 = 1 := hq ▸ hfits 2 (by omega)
    rw [mul_two_pow_div (n := 1) (by omega), mul_two_pow_div (n := 2) (by omega)]
    simp only [hback, hback', hbit, hbit', true_and, Nat.zero_add]
    have hfour : q % 2 ^ (31 - 29) = q % 2 + 2 * (q / 2 % 2) := by
      omega
    have htwice : d * 2 ^ (31 - 1) = d * 2 ^ 29 * 2 := two_pow_succ_mul d 29
    rw [hfour, htwice]
    rcases Nat.mod_two_eq_zero_or_one q with h | h <;>
      rcases Nat.mod_two_eq_zero_or_one (q / 2) with h' | h' <;> simp [h, h'] <;> ring

/-- The arguments for which the routine is wrong: a dividend and a divisor. -/
def wrongArguments : List (ℕ × ℕ) :=
  [5, 6, 7].map (fun k => (k * 2 ^ 27, 1))
    ++ [5, 6, 7, 10, 11, 12, 13, 14, 15].map (fun k => (k * 2 ^ 28, 1))
    ++ [5, 6, 7, 12, 13, 14, 15].map (fun k => (k * 2 ^ 28, 2))
    ++ [5, 6, 7].map (fun k => (k * (3 * 2 ^ 27), 3))

/-- The shift at which the first pass starts. -/
structure FirstShift (a d s : ℕ) : Prop where
  fits : d * 2 ^ s < 2 ^ 32
  above : 28 < s → d * 2 ^ (s - 1) < a
  enough : 2 ^ 31 ≤ d * 2 ^ s ∨ a ≤ d * 2 ^ s

/-- The first pass leaves nothing, and it starts so high that its notes are taken for others. -/
def Mistaken (a d s : ℕ) : Prop :=
  30 ≤ s ∧ a % (d * 2 ^ (s - 3)) = 0 ∧ a / (d * 2 ^ 29) % 2 ^ (s - 29) ≠ 0

/-- The wrong dividends among the multiples of `d * 2 ^ 27`. -/
theorem mem_of_multiple_30 : ∀ d : Fin 4, ∀ k : Fin 32,
    0 < d.val ∧ 4 < k.val ∧ (2 ≤ d.val ∨ k.val ≤ 8) ∧ d.val * k.val < 32 ∧ k.val / 4 % 2 ≠ 0 →
      (d.val * 2 ^ 27 * k.val, d.val) ∈ wrongArguments := by
  decide +kernel

/-- The wrong dividends among the multiples of `2 ^ 28`. -/
theorem mem_of_multiple_31 : ∀ k < 16, 4 < k ∧ k / 2 % 4 ≠ 0 →
    (1 * 2 ^ 28 * k, 1) ∈ wrongArguments := by
  decide +kernel

/-- A mistaken remainder is one of the list. -/
theorem mem_of_mistaken (h : FirstShift a d s) (hd : 0 < d) (ha : a < 2 ^ 32) (hs : s < 32)
    (hmistaken : Mistaken a d s) : (a, d) ∈ wrongArguments := by
  obtain ⟨hfits, habove, henough⟩ := h
  obtain ⟨hge, hmod, hne⟩ := hmistaken
  have hlow := habove (by omega)
  obtain ⟨k, rfl⟩ := Nat.dvd_of_mod_eq_zero hmod
  obtain rfl | rfl : s = 30 ∨ s = 31 := by omega
  · have hquarter : d * 2 ^ (30 - 3) * k / (d * 2 ^ 29) = k / 4 := by
      rw [Nat.mul_assoc, Nat.mul_div_mul_left _ _ hd]
      omega
    rw [hquarter] at hne
    have hk : 4 < k := by
      by_contra hle
      have := Nat.mul_le_mul_left (d * 2 ^ (30 - 3)) (Nat.not_lt.mp hle)
      omega
    have hdk : d * k < 32 := by
      have : d * k * 2 ^ 27 < 32 * 2 ^ 27 := by
        calc d * k * 2 ^ 27 = d * 2 ^ (30 - 3) * k := by ring
          _ < 32 * 2 ^ 27 := ha
      omega
    have hk32 : k < 32 := (Nat.le_mul_of_pos_left k hd).trans_lt hdk
    have hor : 2 ≤ d ∨ k ≤ 8 := by
      by_contra hnot
      obtain rfl : d = 1 := by omega
      omega
    exact mem_of_multiple_30 ⟨d, by omega⟩ ⟨k, hk32⟩ ⟨hd, hk, hor, hdk, hne⟩
  · obtain rfl : d = 1 := by omega
    have hhalf : 1 * 2 ^ (31 - 3) * k / (1 * 2 ^ 29) = k / 2 := by omega
    rw [hhalf] at hne
    exact mem_of_multiple_31 k (by omega) ⟨by omega, hne⟩

/-- The shift from which each of them is divided. -/
def firstShift (x : ℕ × ℕ) : ℕ := if x.2 = 1 ∧ 2 ^ 30 < x.1 then 31 else 30

/-- The pairs of the list, by their first shift. -/
theorem wrongArguments_spec : ∀ x ∈ wrongArguments,
    0 < x.2 ∧ x.2 * 2 ^ firstShift x < 2 ^ 32 ∧ x.2 * 2 ^ (firstShift x - 1) < x.1 ∧
      (2 ^ 31 ≤ x.2 * 2 ^ firstShift x ∨ x.1 ≤ x.2 * 2 ^ firstShift x) ∧
      x.1 % (x.2 * 2 ^ (firstShift x - 3)) = 0 ∧
      x.1 / (x.2 * 2 ^ 29) % 2 ^ (firstShift x - 29) ≠ 0 := by
  decide +kernel

theorem FirstShift.le {s t : ℕ} (h : FirstShift a d s) (h' : FirstShift a d t) (ht : 28 < t) :
    t ≤ s := by
  by_contra hlt
  have habove := h'.above ht
  have hfits := h'.fits
  have hle : d * 2 ^ s ≤ d * 2 ^ (t - 1) :=
    Nat.mul_le_mul_left d (Nat.pow_le_pow_right (by omega) (by omega))
  have htwice : d * 2 ^ t = d * 2 ^ (t - 1) * 2 := by
    rw [← two_pow_succ_mul, Nat.sub_add_cancel (by omega)]
  rcases h.enough with henough | henough <;> omega

/-- The pairs of the list are mistaken. -/
theorem mistaken_of_mem (h : FirstShift a d s) (hmem : (a, d) ∈ wrongArguments) :
    Mistaken a d s := by
  obtain ⟨-, hfits, habove, henough, hmod, hne⟩ := wrongArguments_spec (a, d) hmem
  have hhigh : 30 ≤ firstShift (a, d) := by
    unfold firstShift
    split <;> omega
  have hfirst : FirstShift a d (firstShift (a, d)) := ⟨hfits, fun _ => habove, henough⟩
  have heq : s = firstShift (a, d) := by
    have hge := h.le hfirst (by omega)
    have hle := hfirst.le h (by omega)
    omega
  rw [heq]
  exact ⟨hhigh, hmod, hne⟩

/-- **The remainder is wrong exactly for these arguments.** -/
theorem addedBack_eq_mod_iff {s₀ : ℕ} (hd : 0 < d) (ha : a < 2 ^ 32) (h : FirstShift a d s₀)
    (hs₀ : s₀ < 32) (hreached : Reached a d s₀ s)
    (hlast : restAfter d s (a % (d * 2 ^ (s + 1))) 4 = 0 ∨ s < 4) :
    addedBack d s (a % (d * 2 ^ (s + 1))) = a % d ↔ (a, d) ∉ wrongArguments := by
  have hmistaken : (a, d) ∈ wrongArguments ↔ Mistaken a d s₀ :=
    ⟨mistaken_of_mem h, mem_of_mistaken h hd ha hs₀⟩
  rw [hmistaken]
  rcases Nat.lt_or_ge s 30 with hlow | hhigh
  · refine iff_of_true (addedBack_of_lt hd hlow hlast) ?_
    rintro ⟨hge, hmod, -⟩
    rcases hreached with rfl | ⟨-, hne⟩
    · omega
    · exact hne hmod
  · have heq : s = s₀ := by
      rcases hreached with heq | ⟨hle, -⟩
      · exact heq
      · omega
    subst heq
    have hzero := hlast.resolve_right (by omega)
    rw [addedBack_of_ge hd (by omega) hzero]
    rw [restAfter_eq_mod hd (by omega), show s + 1 - 4 = s - 3 from by omega] at hzero
    have hmod : a % d = 0 :=
      Nat.mod_eq_zero_of_dvd ((Nat.dvd_mul_right d _).trans (Nat.dvd_of_mod_eq_zero hzero))
    have hpos : d * 2 ^ 29 ≠ 0 := by omega
    rw [hmod, Nat.mul_eq_zero, or_iff_left hpos]
    unfold Mistaken
    constructor
    · intro hq hand
      exact hand.2.2 hq
    · intro hnot
      by_contra hq
      exact hnot ⟨hhigh, hzero, hq⟩

/-! ## `__umodsi3` -/

/-- What `__umodsi3` leaves. -/
def RemainderOf (cpu₀ cpu : Cpu) : Prop :=
  (cpu.regs .r0 = cpu₀.regs .r0 % cpu₀.regs .r1
    ↔ ((cpu₀.regs .r0).toNat, (cpu₀.regs .r1).toNat) ∉ wrongArguments) ∧
    Changes [.r0, .r1, .r2, .r3, .ip] cpu₀ cpu

/-- A dividend below the divisor is not in the list. -/
theorem not_mem_of_lt (h : a < d) : (a, d) ∉ wrongArguments := by
  intro hmem
  have hlow := (wrongArguments_spec (a, d) hmem).2.2.1
  have hle : d ≤ d * 2 ^ (firstShift (a, d) - 1) := Nat.le_mul_of_pos_right d (Nat.two_pow_pos _)
  simp only at hlow
  omega

/-- The registers before the loops. -/
structure Compared (cpu₀ cpu : Cpu) : Prop where
  changes : Changes [curbit] cpu₀ cpu
  curbit : cpu.regs curbit = 1
  carry : cpu.flags.c = decide ((cpu₀.regs divisor).toNat ≤ (cpu₀.regs dividend).toNat)

theorem leads_compared (hp : p.text = text) (hd : cpu₀.regs divisor ≠ 0) :
    p.Leads 4 (p.addr 50) (· = cpu₀) (p.addr 54) (Compared cpu₀) := by
  have hcmp : p.Leads 1 (p.addr 50) (· = cpu₀) (p.addr 51)
      (· = cpu₀.setFlags (.ofSub (cpu₀.regs divisor) 0)) := by
    refine Leads.block (l := [(.al, cmp divisor (imm 0))]) (hasAt hp rfl) ?_
    rintro cpu rfl
    rfl
  have hpass := hcmp.seq (Leads.pass (c := .eq) (l := .umodDiv0) (hasAt hp rfl) (by
    rintro cpu rfl
    simpa [ofSub_z] using hd))
  refine hpass.seq (Leads.block (l := [(.al, mov curbit (imm 1)),
    (.al, cmp dividend (reg divisor))]) (hasAt hp rfl) ?_)
  rintro cpu rfl
  constructor
  · simp
  · simp
  · simp [ofSub_c]

/-- The loops, from the start of the first to the end of the last. -/
theorem leads_remainderLoops (hp : p.text = text) {cpu₁ : Cpu} (hcompared : Compared cpu₀ cpu₁)
    (hd : 0 < (cpu₀.regs .r1).toNat) :
    p.Leads 196 (p.addr 55) (· = cpu₁) (p.addr 82) (fun cpu => ∃ s₀ s,
      FirstShift (cpu₀.regs .r0).toNat (cpu₀.regs .r1).toNat s₀ ∧ s₀ < 32 ∧
        Ended cpu₀ (cpu₀.regs .r0).toNat (cpu₀.regs .r1).toNat s₀ s cpu) := by
  have hr0 : cpu₁.regs dividend = cpu₀.regs .r0 := hcompared.changes.regs _ (by decide)
  have hr1 : cpu₁.regs divisor = cpu₀.regs .r1 := hcompared.changes.regs _ (by decide)
  obtain ⟨a, ha⟩ : ∃ a, a = (cpu₀.regs .r0).toNat := ⟨_, rfl⟩
  obtain ⟨d, hdiv⟩ : ∃ d, d = (cpu₀.regs .r1).toNat := ⟨_, rfl⟩
  rw [← ha, ← hdiv]
  rw [← hdiv] at hd
  have hstart : Scaled cpu₁ divisor curbit d 0 cpu₁ :=
    ⟨Changes.refl, by simp [hr1, hdiv], by simp [hcompared.curbit]⟩
  have hscale := leads_scale (p := p) cpu₁ (k := 55) (t := .umodLoop1) (u := .umodBignum)
    (A := dividend) (D := divisor) (C := curbit) (d := d)
    (E := fun s => s % 4 = 0 ∧ s ≤ 28) (F := fun s => 28 < s → d * 2 ^ (s - 1) < a)
    (hasAt hp rfl) (hasAt hp rfl) (address_eq hp rfl) (hasAt hp rfl) (hasAt hp rfl)
    (address_eq hp rfl) (by decide) (by decide) (by decide) hd (by
      rintro s ⟨hmod, -⟩ hlt -
      have hs : s < 28 := by
        have hle := Nat.le_mul_of_pos_left (2 ^ s) hd
        exact (Nat.pow_lt_pow_iff_right (by omega : 1 < 2)).mp (hle.trans_lt hlt)
      omega)
    (fun s hs hlt => absurd hlt (by omega)) (by
      intro s _ _ hlt _
      rw [hr0, ← ha] at hlt
      exact hlt)
  have hfrom : p.Leads 60 (p.addr 55) (· = cpu₁) (p.addr 65) _ :=
    hscale.imp le_rfl (fun cpu heq => ⟨0, heq ▸ hstart, rfl, by omega⟩) fun _ => id
  refine hfrom.seq (Leads.ghost (n := 136) fun s₀ => ?_)
  rintro cpu₂ ⟨hscaled, habove, henough⟩
  have hfirst : FirstShift a d s₀ := by
    refine ⟨hscaled.divisor ▸ (cpu₂.regs divisor).isLt, habove, ?_⟩
    rwa [hr0, ← ha] at henough
  have hheading : Heading cpu₀ a d s₀ cpu₂ := by
    refine ⟨(hcompared.changes.mono (by decide)).trans (hscaled.changes.mono (by decide)),
      hscaled.divisor, hscaled.bit, ?_⟩
    have hlt := lt_twice hd henough
    rw [hr0, ← ha] at hlt
    rw [hscaled.changes.regs _ (by decide), hr0, ← ha, Nat.mod_eq_of_lt hlt]
  obtain ⟨j, hj, cpu, hrun, s, hended⟩ := leads_remainderPass (a := a) cpu₀ hp hd s₀ 7 cpu₂
    ⟨s₀, hscaled.shift_lt, hheading, Or.inl rfl⟩
  exact ⟨j, hj, cpu, hrun, s₀, s, hfirst, hscaled.shift_lt, hended⟩

theorem leads_umod (hp : p.text = text) (hd : cpu₀.regs .r1 ≠ 0) :
    p.Leads 210 (p.addr 50) (· = cpu₀) (cpu₀.regs .lr) (RemainderOf cpu₀) := by
  have hpos : 0 < (cpu₀.regs .r1).toNat := by
    have : (cpu₀.regs .r1).toNat ≠ 0 := fun hzero => hd (BitVec.eq_of_toNat_eq hzero)
    omega
  refine (leads_compared hp hd).seq (Leads.cases (n := 206) (fun cpu => cpu.flags.c = true) ?_ ?_)
  · rintro cpu₁ ⟨hcompared, hcarry⟩
    have hstay := Leads.stay (p := p) (k := 54) (P := (· = cpu₁)) (c := .cc) (r := .lr)
      (hasAt hp rfl) (by
        rintro cpu rfl
        simp [hcarry])
    have hloops := hstay.seq (leads_remainderLoops hp hcompared hpos)
    refine (hloops.seq (n := 9) (Leads.ghost fun s₀ => Leads.ghost fun s => ?_)).mono
      (by norm_num) cpu₁ rfl
    rintro cpu₂ ⟨hfirst, hs₀, hended⟩
    refine (leads_fixUp (p := p) hp (cpu₀.regs .r0).isLt hended).imp le_rfl (fun _ => id) ?_
      cpu₂ rfl
    rintro cpu ⟨hr0, hchanges⟩
    refine ⟨?_, hchanges⟩
    rw [← addedBack_eq_mod_iff hpos (cpu₀.regs .r0).isLt hfirst hs₀ hended.reached hended.last,
      ← hr0, ← BitVec.toNat_umod, BitVec.toNat_inj]
  · rintro cpu₁ ⟨hcompared, hcarry⟩
    have hret := Leads.ret (p := p) (k := 54) (P := (· = cpu₁)) (c := .cc) (r := .lr)
      (a := cpu₀.regs .lr) (hasAt hp rfl) (by
        rintro cpu rfl
        exact ⟨by simpa using hcarry, hcompared.changes.regs _ (by decide)⟩)
    refine hret.imp (by norm_num) (fun _ => id) ?_ cpu₁ rfl
    rintro cpu rfl
    have hlt : (cpu₀.regs .r0).toNat < (cpu₀.regs .r1).toNat := by
      rw [hcompared.carry] at hcarry
      simpa using hcarry
    refine ⟨iff_of_true ?_ (not_mem_of_lt hlt), hcompared.changes.mono (by decide)⟩
    rw [hcompared.changes.regs _ (by decide)]
    apply BitVec.eq_of_toNat_eq
    rw [BitVec.toNat_umod, Nat.mod_eq_of_lt hlt]

end Division
