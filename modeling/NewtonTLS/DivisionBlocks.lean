/-
# The loops of the division routines

The routines share their loops.  One moves the divisor up, with the bit of the quotient that it
stands for, until it exceeds the dividend or a bound (`shiftUp`); the division loop makes four trial
subtractions a pass (`trySubtract`).  They are stated here over any registers, as the macros have
them, and connected with long division in base two.
-/
import NewtonTLS.DivisionText
import NewtonTLS.LongDivision
import Mathlib.Tactic.Linarith

open Arm Arm.Cpu Arm.Program LongDivision

namespace Division

/-- The carry of a comparison says that there is no borrow. -/
theorem ofSub_c (a b : Word) : (Flags.ofSub a b).c = decide (b.toNat ≤ a.toNat) := by
  simp only [Flags.ofSub, BitVec.le_def]

/-- The sign of what is compared with 0. -/
theorem ofSub_n_zero (a : Word) : (Flags.ofSub a 0#32).n = a.msb := by
  simp [Flags.ofSub]

/-- The zero flag says that both are equal. -/
theorem ofSub_z (a b : Word) : (Flags.ofSub a b).z = decide (a = b) := by
  simp only [Flags.ofSub]
  by_cases h : a = b
  · simp [h]
  · rw [decide_eq_false h, beq_eq_false_iff_ne]
    intro hsub
    exact h (by bv_omega)

/-! ## Places in the text -/

section

variable {p : Program Label} {k : ℕ}

/-- A part of the text is where it is in the program. -/
theorem hasAt (hp : p.text = text) {l : List (Instr Label)}
    (h : ((instrs text).drop k).take l.length = l) : p.HasAt k l := by
  unfold HasAt
  rw [hp, h]

/-- The address of a label of the text. -/
theorem address_eq (hp : p.text = text) {l : Label} (h : offset? l text = some k) :
    p.address l = p.addr k := by
  unfold address
  rw [hp, h]

/-- `__div0` is not in the text. -/
theorem address_div0 (hp : p.text = text) : p.address .div0 = p.external .div0 := by
  have hnone : offset? Label.div0 text = none := by decide +kernel
  unfold address
  rw [hp, hnone]

end

variable {cpu cpu₀ : Cpu} {A D C R : Reg} {k : ℕ} {bound : Word}

/-! ## Moving the divisor up -/

/-- A step of the loops that shift the divisor in `D` and the bit in `C` up by `k`. -/
def shiftUp (A D C : Reg) (bound : Word) (k : ℕ) : List Conditional := [
  (.al, cmp D (imm bound)),
  (.cc, cmp D (reg A)),
  (.cc, mov D (lsl D k)),
  (.cc, mov C (lsl C k))]

/-- The divisor is below the bound and below the dividend. -/
def Small (A D : Reg) (bound : Word) (cpu : Cpu) : Prop :=
  (cpu.regs D).toNat < bound.toNat ∧ (cpu.regs D).toNat < (cpu.regs A).toNat

theorem shiftUp_of_small (hCD : C ≠ D) (h : Small A D bound cpu) :
    (shiftUp A D C bound k).foldl Conditional.exec cpu
      = ((cpu.set D (cpu.regs D <<< k)).set C (cpu.regs C <<< k)).setFlags
          (.ofSub (cpu.regs D) (cpu.regs A)) := by
  have hbound := Nat.not_le.mpr h.1
  have hdividend := Nat.not_le.mpr h.2
  simp [shiftUp, ofSub_c, hbound, hdividend, hCD]

theorem shiftUp_of_not_small (h : ¬ Small A D bound cpu) :
    Changes [] cpu ((shiftUp A D C bound k).foldl Conditional.exec cpu) ∧
      ((shiftUp A D C bound k).foldl Conditional.exec cpu).flags.c = true := by
  unfold Small at h
  by_cases hbound : bound.toNat ≤ (cpu.regs D).toNat
  · simp [shiftUp, ofSub_c, hbound, Changes.refl.setFlags]
  · have hdividend : (cpu.regs A).toNat ≤ (cpu.regs D).toNat := by omega
    simp [shiftUp, ofSub_c, hbound, hdividend, Changes.refl.setFlags]

/-- The divisor register holds `d` moved up by `s`, and the bit register the bit at `s`. -/
structure Scaled (cpu₀ : Cpu) (D C : Reg) (d s : ℕ) (cpu : Cpu) : Prop where
  changes : Changes [D, C] cpu₀ cpu
  divisor : (cpu.regs D).toNat = d * 2 ^ s
  bit : (cpu.regs C).toNat = 2 ^ s

theorem Scaled.shift_lt {d s : ℕ} (h : Scaled cpu₀ D C d s cpu) : s < 32 := by
  have hlt := (cpu.regs C).isLt
  rw [h.bit] at hlt
  exact (Nat.pow_lt_pow_iff_right (by omega)).mp hlt

/-- A shift without a carry multiplies. -/
theorem toNat_shiftLeft {w : Word} (h : w.toNat * 2 ^ k < 2 ^ 32) :
    (w <<< k).toNat = w.toNat * 2 ^ k := by
  rw [BitVec.toNat_shiftLeft, Nat.shiftLeft_eq, Nat.mod_eq_of_lt h]

/-- One more shift of the divisor and the bit. -/
theorem Scaled.shift {d s : ℕ} (h : Scaled cpu₀ D C d s cpu) (hd : 0 < d) (hCD : C ≠ D)
    (hfits : d * 2 ^ s * 2 ^ k < 2 ^ 32) (f : Flags) :
    Scaled cpu₀ D C d (s + k)
      (((cpu.set D (cpu.regs D <<< k)).set C (cpu.regs C <<< k)).setFlags f) where
  changes := ((h.changes.set (by simp)).set (by simp)).setFlags f
  divisor := by
    have hshift := toNat_shiftLeft (w := cpu.regs D) (h.divisor ▸ hfits)
    simp [hCD.symm, hshift, h.divisor, Nat.pow_add, Nat.mul_assoc]
  bit := by
    have hle : 2 ^ s * 2 ^ k ≤ d * 2 ^ s * 2 ^ k :=
      Nat.mul_le_mul_right _ (Nat.le_mul_of_pos_left _ hd)
    have hshift := toNat_shiftLeft (w := cpu.regs C) (h.bit ▸ hle.trans_lt hfits)
    simp [hshift, h.bit, Nat.pow_add]

section

variable {L : Type} [DecidableEq L] {p : Program L} {d : ℕ}

/-- **Moving the divisor up.**  The loop ends with a divisor that is not below the bound or not
below the dividend.  It keeps what holds of a shift and of every further one that the loop
makes. -/
theorem leads_shiftUp (cpu₀ : Cpu) {k w : ℕ} {t : L} {E : ℕ → Prop}
    (hat : p.HasAt k ((shiftUp A D C bound w).map Conditional.instr))
    (hbranch : p.HasAt (k + 4) [.b .cc t]) (hlabel : p.address t = p.addr k)
    (hAD : A ≠ D) (hAC : A ≠ C) (hCD : C ≠ D) (hd : 0 < d)
    {b : ℕ} (hb : bound.toNat = b) (hbound : b * 2 ^ w ≤ 2 ^ 32)
    (hE : ∀ s, E s → d * 2 ^ s < b → d * 2 ^ s < (cpu₀.regs A).toNat → E (s + w))
    (i : ℕ) :
    p.Leads ((i + 1) * 5) (p.addr k)
      (fun cpu => ∃ s, Scaled cpu₀ D C d s cpu ∧ E s ∧
        (d * 2 ^ s < (cpu₀.regs A).toNat → b ≤ d * 2 ^ s * 2 ^ (w * i)))
      (p.addr (k + 5))
      (fun cpu => ∃ s, Scaled cpu₀ D C d s cpu ∧ E s ∧
        (b ≤ d * 2 ^ s ∨ (cpu₀.regs A).toNat ≤ d * 2 ^ s)) := by
  subst hb
  have hA : ∀ {cpu s}, Scaled cpu₀ D C d s cpu → cpu.regs A = cpu₀.regs A := fun h =>
    h.changes.regs A (by simp [hAD, hAC])
  refine Leads.loop (I := fun i cpu => ∃ s, Scaled cpu₀ D C d s cpu ∧ E s ∧
    (d * 2 ^ s < (cpu₀.regs A).toNat → bound.toNat ≤ d * 2 ^ s * 2 ^ (w * i)))
    hat hbranch hlabel ?_ ?_ i
  · rintro i cpu ⟨s, hs, hEs, hmeasure⟩ htaken
    have hsmall : Small A D bound cpu := by
      by_contra hnot
      rw [Cond.holds, (shiftUp_of_not_small hnot).2] at htaken
      exact absurd htaken (by simp)
    rw [shiftUp_of_small hCD hsmall]
    unfold Small at hsmall
    rw [hs.divisor, hA hs] at hsmall
    have hfits : d * 2 ^ s * 2 ^ w < 2 ^ 32 :=
      (Nat.mul_lt_mul_of_pos_right hsmall.1 (Nat.two_pow_pos w)).trans_le hbound
    have hbelow := hmeasure hsmall.2
    cases i with
    | zero =>
      rw [Nat.mul_zero, Nat.pow_zero, Nat.mul_one] at hbelow
      omega
    | succ i =>
      refine ⟨i, Nat.lt_succ_self i, s + w, hs.shift hd hCD hfits _,
        hE s hEs hsmall.1 hsmall.2, fun _ => ?_⟩
      calc bound.toNat ≤ d * 2 ^ s * 2 ^ (w * (i + 1)) := hbelow
        _ = d * 2 ^ (s + w) * 2 ^ (w * i) := by ring
  · rintro i cpu ⟨s, hs, hEs, -⟩ hstop
    have hlarge : ¬ Small A D bound cpu := by
      intro hsmall
      rw [shiftUp_of_small hCD hsmall] at hstop
      unfold Small at hsmall
      simp [ofSub_c] at hstop
      omega
    have hkeep := (shiftUp_of_not_small (C := C) (k := w) hlarge).1
    unfold Small at hlarge
    rw [hs.divisor, hA hs] at hlarge
    refine ⟨s, ⟨hs.changes.trans (hkeep.mono (by simp)), ?_, ?_⟩, hEs, by omega⟩
    · rw [hkeep.regs D (by simp), hs.divisor]
    · rw [hkeep.regs C (by simp), hs.bit]

/-- **Scaling the divisor.**  The two loops, by four bits and then by one, end with a divisor that
exceeds half of the dividend, since twice the bound of the second one is no word. -/
theorem leads_scale (cpu₀ : Cpu) {k : ℕ} {t u : L} {E F : ℕ → Prop}
    (hat : p.HasAt k ((shiftUp A D C 0x10000000 4).map Conditional.instr))
    (hbranch : p.HasAt (k + 4) [.b .cc t]) (hlabel : p.address t = p.addr k)
    (hat' : p.HasAt (k + 5) ((shiftUp A D C 0x80000000 1).map Conditional.instr))
    (hbranch' : p.HasAt (k + 9) [.b .cc u]) (hlabel' : p.address u = p.addr (k + 5))
    (hAD : A ≠ D) (hAC : A ≠ C) (hCD : C ≠ D) (hd : 0 < d)
    (hE : ∀ s, E s → d * 2 ^ s < 2 ^ 28 → d * 2 ^ s < (cpu₀.regs A).toNat → E (s + 4))
    (hEF : ∀ s, E s → F s)
    (hF : ∀ s, F s → d * 2 ^ s < 2 ^ 31 → d * 2 ^ s < (cpu₀.regs A).toNat → F (s + 1)) :
    p.Leads 60 (p.addr k) (fun cpu => ∃ s, Scaled cpu₀ D C d s cpu ∧ E s)
      (p.addr (k + 10))
      (fun cpu => ∃ s, Scaled cpu₀ D C d s cpu ∧ F s ∧
        (2 ^ 31 ≤ d * 2 ^ s ∨ (cpu₀.regs A).toNat ≤ d * 2 ^ s)) := by
  have hloop := leads_shiftUp cpu₀ hat hbranch hlabel hAD hAC hCD hd (b := 2 ^ 28) rfl
    (by norm_num) hE 7
  have hloop' := leads_shiftUp cpu₀ hat' hbranch' hlabel' hAD hAC hCD hd (b := 2 ^ 31) rfl
    (by norm_num) hF 3
  refine (hloop.seq (hloop'.imp le_rfl ?_ fun _ => id)).imp (by norm_num) ?_ fun _ => id
  · rintro cpu ⟨s, hs, hEs, hor⟩
    refine ⟨s, hs, hEF s hEs, fun hlt => ?_⟩
    have hbound := hor.resolve_right (by omega)
    omega
  · rintro cpu ⟨s, hs, hEs⟩
    have hpos := Nat.mul_pos hd (Nat.two_pow_pos s)
    exact ⟨s, hs, hEs, fun _ => by omega⟩

/-- At the end of the loop the dividend is less than twice the divisor. -/
theorem lt_twice (hd : 0 < d) {s : ℕ}
    (h : 2 ^ 31 ≤ d * 2 ^ s ∨ (cpu₀.regs A).toNat ≤ d * 2 ^ s) :
    (cpu₀.regs A).toNat < d * 2 ^ (s + 1) := by
  have hlt := (cpu₀.regs A).isLt
  have hpos := Nat.mul_pos hd (Nat.two_pow_pos s)
  rw [two_pow_succ_mul]
  omega

end

/-! ## The division loop -/

/-- A register moved down, which is written without a shift where it stays. -/
def down (r : Reg) (k : ℕ) : Operand := if k = 0 then reg r else lsr r k

@[simp] theorem value_down (regs : Reg → Word) (r : Reg) :
    (down r k).value regs = regs r >>> k := by
  unfold down
  split
  · rename_i hzero
    simp [hzero]
  · rfl

/-- A trial subtraction, which notes the bit of the quotient. -/
def trySubtract (A D C R : Reg) (k : ℕ) : List Conditional := [
  (.al, cmp A (down D k)),
  (.cs, sub A A (down D k)),
  (.cs, orr R R (down C k))]

/-- The next four bits, if there is something left to divide and they are bits at all. -/
def nextBits (A D C : Reg) : List Conditional := [
  (.al, cmp A (imm 0)),
  (.ne, movs C (lsr C 4)),
  (.ne, mov D (lsr D 4))]

/-- One pass of the loop of the division: four trial subtractions, and the step to the next bits. -/
def pass (A D C R : Reg) : List Conditional :=
  trySubtract A D C R 0 ++ trySubtract A D C R 1 ++ trySubtract A D C R 2 ++ trySubtract A D C R 3
    ++ nextBits A D C

/-- The registers in the course of a pass. -/
structure Passing (cpu₀ : Cpu) (A D C R : Reg) (a d s n : ℕ) (cpu : Cpu) : Prop where
  changes : Changes [A, D, C, R] cpu₀ cpu
  divisor : (cpu.regs D).toNat = d * 2 ^ s
  bit : (cpu.regs C).toNat = 2 ^ s
  passed : Passed a d s n (cpu.regs A).toNat (cpu.regs R).toNat

/-- A shift to the right divides. -/
theorem toNat_ushiftRight (w : Word) : (w >>> k).toNat = w.toNat / 2 ^ k := by
  rw [BitVec.toNat_ushiftRight, Nat.shiftRight_eq_div_pow]

/-- A trial subtraction, with the bit of the quotient. -/
theorem trySubtract_exec (hAC : A ≠ C) (hAR : A ≠ R) :
    (trySubtract A D C R k).foldl Conditional.exec cpu
      = (if (cpu.regs D >>> k).toNat ≤ (cpu.regs A).toNat then
          (cpu.set A (cpu.regs A - cpu.regs D >>> k)).set R (cpu.regs R ||| cpu.regs C >>> k)
        else cpu).setFlags (.ofSub (cpu.regs A) (cpu.regs D >>> k)) := by
  by_cases hle : (cpu.regs D >>> k).toNat ≤ (cpu.regs A).toNat
  · rw [if_pos hle]
    simp [trySubtract, ofSub_c, hle, hAC.symm, hAR.symm, -BitVec.toNat_ushiftRight]
  · rw [if_neg hle]
    simp [trySubtract, ofSub_c, hle, -BitVec.toNat_ushiftRight]

/-- One more bit of the quotient is known. -/
theorem Passing.trySubtract {a d s n : ℕ} (h : Passing cpu₀ A D C R a d s n cpu) (hd : 0 < d)
    (hdistinct : [A, D, C, R].Nodup) :
    Passing cpu₀ A D C R a d s (n + 1)
      ((trySubtract A D C R n).foldl Conditional.exec cpu) := by
  simp only [List.nodup_cons, List.mem_cons, List.not_mem_nil, or_false, not_or] at hdistinct
  obtain ⟨⟨hAD, hAC, hAR⟩, ⟨hDC, hDR⟩, hCR, -⟩ := hdistinct
  have hstep := h.passed.step hd
  have hdivisor : (cpu.regs D >>> n).toNat = d * 2 ^ s / 2 ^ n := by
    rw [toNat_ushiftRight, h.divisor]
  have hbit : (cpu.regs C >>> n).toNat = 2 ^ s / 2 ^ n := by
    rw [toNat_ushiftRight, h.bit]
  have hsub : (cpu.regs D >>> n).toNat ≤ (cpu.regs A).toNat →
      (cpu.regs A - cpu.regs D >>> n).toNat
        = (cpu.regs A).toNat - (cpu.regs D >>> n).toNat := fun hle =>
    BitVec.toNat_sub_of_le hle
  rw [trySubtract_exec hAC hAR]
  rw [← hdivisor, ← hbit] at hstep
  split
  · rename_i hle
    simp only [if_pos hle] at hstep
    refine ⟨((h.changes.set (by simp)).set (by simp)).setFlags _, ?_, ?_, ?_⟩
    · simp [hDR, Ne.symm hAD, h.divisor]
    · simp [hCR, Ne.symm hAC, h.bit]
    · rw [← hsub hle] at hstep
      simpa [hAR] using hstep
  · rename_i hnot
    simp only [if_neg hnot] at hstep
    exact ⟨h.changes.setFlags _, h.divisor, h.bit, hstep⟩

/-- The divisor goes down by four bits. -/
theorem nextBits_of_more (hCD : C ≠ D) (hA : (cpu.regs A).toNat ≠ 0)
    (hC : (cpu.regs C >>> 4).toNat ≠ 0) :
    ∃ f : Flags, f.z = false ∧ (nextBits A D C).foldl Conditional.exec cpu
      = ((cpu.set C (cpu.regs C >>> 4)).set D (cpu.regs D >>> 4)).setFlags f := by
  have hA' : cpu.regs A ≠ 0#32 := fun heq => hA (by rw [heq]; rfl)
  have hC' : cpu.regs C >>> 4 ≠ 0#32 := fun heq => hC (by rw [heq]; rfl)
  refine ⟨(Flags.ofSub (cpu.regs A) 0#32).logical (cpu.regs C >>> 4)
    (Shift.lsr.carry (Flags.ofSub (cpu.regs A) 0#32).c (cpu.regs C) 4), ?_, ?_⟩
  · simp [Flags.logical, hC']
  · simp [nextBits, ofSub_z, hA', hC', Flags.logical, hCD.symm, Operand.carry]

/-- Nothing is left to divide, or no bit. -/
theorem nextBits_of_done (h : (cpu.regs A).toNat = 0 ∨ (cpu.regs C >>> 4).toNat = 0) :
    Changes [C] cpu ((nextBits A D C).foldl Conditional.exec cpu) ∧
      ((nextBits A D C).foldl Conditional.exec cpu).flags.z = true := by
  by_cases hA : cpu.regs A = 0#32
  · simp [nextBits, ofSub_z, hA, Changes.refl.setFlags]
  · have hC : cpu.regs C >>> 4 = 0#32 := by
      have hne : (cpu.regs A).toNat ≠ 0 := fun heq => hA (BitVec.eq_of_toNat_eq heq)
      exact BitVec.eq_of_toNat_eq (h.resolve_left hne)
    simp [nextBits, ofSub_z, hA, hC, Flags.logical, (Changes.refl.set _).setFlags]

variable {a d s : ℕ}

theorem Passing.passes (h : Passing cpu₀ A D C R a d s 0 cpu) (hd : 0 < d)
    (hdistinct : [A, D, C, R].Nodup) :
    ∃ cpu', Passing cpu₀ A D C R a d s 4 cpu' ∧
      (pass A D C R).foldl Conditional.exec cpu
        = (nextBits A D C).foldl Conditional.exec cpu' := by
  have h4 := (((h.trySubtract hd hdistinct).trySubtract hd hdistinct).trySubtract hd
    hdistinct).trySubtract hd hdistinct
  refine ⟨_, h4, ?_⟩
  simp only [pass, List.foldl_append]

/-- The bit register runs out after the pass at a shift below four. -/
theorem Passing.bit_ushiftRight {n : ℕ} (h : Passing cpu₀ A D C R a d s n cpu) :
    (cpu.regs C >>> 4).toNat = 0 ↔ s < 4 := by
  rw [toNat_ushiftRight, h.bit, Nat.div_eq_zero_iff_lt (Nat.two_pow_pos 4)]
  exact Nat.pow_lt_pow_iff_right (by omega)

/-- The next pass works with the next four bits. -/
theorem Passing.next (h : Passing cpu₀ A D C R a d s 4 cpu) (hdistinct : [A, D, C, R].Nodup)
    (hs : 4 ≤ s) (f : Flags) :
    Passing cpu₀ A D C R a d (s - 4) 0
      (((cpu.set C (cpu.regs C >>> 4)).set D (cpu.regs D >>> 4)).setFlags f) := by
  simp only [List.nodup_cons, List.mem_cons, List.not_mem_nil, or_false, not_or] at hdistinct
  obtain ⟨⟨hAD, hAC, hAR⟩, ⟨hDC, hDR⟩, hCR, -⟩ := hdistinct
  refine ⟨((h.changes.set (by simp)).set (by simp)).setFlags f, ?_, ?_, ?_⟩
  · rw [regs_setFlags, regs_set_self, toNat_ushiftRight, h.divisor, mul_two_pow_div hs]
  · rw [regs_setFlags, regs_set_ne (Ne.symm hDC), regs_set_self, toNat_ushiftRight, h.bit,
      two_pow_div hs]
  · have habove := h.passed.above (by omega)
    rw [show s + 1 - 4 = s - 4 + 1 from by omega] at habove
    simpa [hAD, hAC, Ne.symm hDR, Ne.symm hCR] using Passed.start habove

/-- The division starts with a divisor that exceeds half of the dividend. -/
theorem Scaled.passing (h : Scaled cpu₀ D C d s cpu) (hdistinct : [A, D, C, R].Nodup)
    (ha : (cpu₀.regs A).toNat = a) (hR : cpu₀.regs R = 0) (hlt : a < d * 2 ^ (s + 1)) :
    Passing cpu₀ A D C R a d s 0 cpu := by
  simp only [List.nodup_cons, List.mem_cons, List.not_mem_nil, or_false, not_or] at hdistinct
  obtain ⟨⟨hAD, hAC, hAR⟩, ⟨hDC, hDR⟩, hCR, -⟩ := hdistinct
  refine ⟨h.changes.mono (by simp), h.divisor, h.bit, Passed.start ?_⟩
  rw [h.changes.regs A (by simp [hAD, hAC]), ha,
    h.changes.regs R (by simp [Ne.symm hDR, Ne.symm hCR]), hR]
  exact Partial.start hlt

/-- **The division loop.**  It starts with a dividend below twice the divisor moved up by `s`, and
ends with the quotient in the result register. -/
theorem leads_pass (cpu₀ : Cpu) {L : Type} [DecidableEq L] {p : Program L} {k : ℕ} {t : L}
    (hat : p.HasAt k ((pass A D C R).map Conditional.instr))
    (hbranch : p.HasAt (k + 15) [.b .ne t]) (hlabel : p.address t = p.addr k)
    (hdistinct : [A, D, C, R].Nodup) (hd : 0 < d) (i : ℕ) :
    p.Leads ((i + 1) * 16) (p.addr k)
      (fun cpu => ∃ s < 4 * (i + 1), Passing cpu₀ A D C R a d s 0 cpu)
      (p.addr (k + 16))
      (fun cpu => Changes [A, D, C, R] cpu₀ cpu ∧ (cpu.regs R).toNat = a / d) := by
  refine Leads.loop (I := fun i cpu => ∃ s < 4 * (i + 1), Passing cpu₀ A D C R a d s 0 cpu)
    hat hbranch hlabel ?_ ?_ i
  · rintro i cpu ⟨s, hs, hpassing⟩ htaken
    obtain ⟨cpu', h4, hpass⟩ := hpassing.passes hd hdistinct
    rw [hpass] at htaken ⊢
    have hmore : ¬ ((cpu'.regs A).toNat = 0 ∨ (cpu'.regs C >>> 4).toNat = 0) := by
      intro hdone
      rw [Cond.holds, (nextBits_of_done hdone).2] at htaken
      exact absurd htaken (by simp)
    rw [not_or] at hmore
    have hCD : C ≠ D := by
      rintro rfl
      simp at hdistinct
    obtain ⟨f, -, hnext⟩ := nextBits_of_more hCD hmore.1 hmore.2
    have hle : 4 ≤ s := Nat.not_lt.mp (mt h4.bit_ushiftRight.mpr hmore.2)
    rw [hnext]
    exact ⟨i - 1, by omega, s - 4, by omega, h4.next hdistinct hle f⟩
  · rintro i cpu ⟨s, hs, hpassing⟩ hstop
    obtain ⟨cpu', h4, hpass⟩ := hpassing.passes hd hdistinct
    rw [hpass] at hstop ⊢
    have hdone : (cpu'.regs A).toNat = 0 ∨ (cpu'.regs C >>> 4).toNat = 0 := by
      by_contra hmore
      rw [not_or] at hmore
      have hCD : C ≠ D := by
        rintro rfl
        simp at hdistinct
      obtain ⟨f, hf, hnext⟩ := nextBits_of_more hCD hmore.1 hmore.2
      rw [hnext] at hstop
      simp [hf] at hstop
    have hquot := h4.passed.quot hd (hdone.imp_right fun hbit => by
      have := h4.bit_ushiftRight.mp hbit
      omega)
    have hkeep := (nextBits_of_done (D := D) hdone).1
    refine ⟨h4.changes.trans (hkeep.mono (by simp)), ?_⟩
    rw [hkeep.regs R, hquot]
    rintro hRC
    simp_all

end Division
