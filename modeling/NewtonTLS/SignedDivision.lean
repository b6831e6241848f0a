/-
# Signed division

`__aeabi_idiv` divides the magnitudes of its arguments and gives the quotient the sign of their
exclusive or: it truncates towards zero.  Divisors of magnitude one, magnitudes that are not
smaller than the dividend's and powers of two have paths of their own, without a loop.
-/
import NewtonTLS.UnsignedDivision

open Arm Arm.Cpu Arm.Program LongDivision

namespace Division

variable {p : Program Label} {cpu cpu₀ : Cpu}

/-! ## Magnitudes -/

/-- The magnitude of a signed word, which is unsigned. -/
def magnitude (x : Word) : Word := if x.msb then -x else x

/-- A word under the sign of another. -/
def withSign (sign x : Word) : Word := if sign.msb then -x else x

/-- A signed division divides the magnitudes. -/
theorem sdiv_eq_withSign (a d : Word) :
    a.sdiv d = withSign (a ^^^ d) (magnitude a / magnitude d) := by
  unfold withSign magnitude
  rw [BitVec.sdiv_eq, BitVec.msb_xor]
  cases a.msb <;> cases d.msb <;> rfl

theorem magnitude_ne_zero {x : Word} (h : x ≠ 0#32) : magnitude x ≠ 0#32 := by
  unfold magnitude
  split
  · exact fun heq => h (BitVec.neg_eq_zero_iff.mp heq)
  · exact h

/-- A divisor of magnitude 1 changes the sign at most. -/
theorem withSign_xor_self (a d : Word) (h : magnitude d = 1#32) :
    withSign (a ^^^ d) (magnitude a / magnitude d) = withSign d a := by
  rw [h]
  unfold withSign magnitude
  rw [BitVec.msb_xor, BitVec.udiv_one]
  cases a.msb <;> cases d.msb <;> simp

/-! ## The arguments -/

/-- The registers when the magnitude of the divisor is known. -/
structure Divisor (cpu₀ cpu : Cpu) : Prop where
  changes : Changes [.r1, .r2, .ip] cpu₀ cpu
  sign : cpu.regs .ip = cpu₀.regs .r0 ^^^ cpu₀.regs .r1
  divisor : cpu.regs .r1 = magnitude (cpu₀.regs .r1)
  before : cpu.regs .r2 = magnitude (cpu₀.regs .r1) - 1#32

/-- The divisor is made positive, and compared with 1. -/
theorem leads_divisor (hp : p.text = text) (hd : cpu₀.regs .r1 ≠ 0#32) :
    p.Leads 5 (p.addr 95) (· = cpu₀) (p.addr 100) (fun cpu => Divisor cpu₀ cpu ∧
      cpu.flags.z = decide (magnitude (cpu₀.regs .r1) = 1#32)) := by
  have hcmp : p.Leads 2 (p.addr 95) (· = cpu₀) (p.addr 97)
      (· = (cpu₀.set .ip (cpu₀.regs .r0 ^^^ cpu₀.regs .r1)).setFlags
        (.ofSub (cpu₀.regs .r1) 0)) := by
    refine Leads.block (l := [(.al, cmp .r1 (imm 0)), (.al, eor .ip .r0 (reg .r1))])
      (hasAt hp rfl) ?_
    rintro cpu rfl
    simp
  have hpass := hcmp.seq (Leads.pass (c := .eq) (l := .divDiv0) (hasAt hp rfl) (by
    rintro cpu rfl
    simpa [ofSub_z] using hd))
  refine hpass.seq (Leads.block (l := [(.mi, rsb .r1 .r1 (imm 0)), (.al, subs .r2 .r1 (imm 1))])
    (hasAt hp rfl) ?_)
  rintro cpu rfl
  by_cases hneg : (cpu₀.regs .r1).msb
  · have hmagnitude : magnitude (cpu₀.regs .r1) = -cpu₀.regs .r1 := if_pos hneg
    refine ⟨⟨?_, ?_, ?_, ?_⟩, ?_⟩ <;> simp [ofSub_n_zero, ofSub_z, hneg, hmagnitude]
  · have hmagnitude : magnitude (cpu₀.regs .r1) = cpu₀.regs .r1 := if_neg hneg
    refine ⟨⟨?_, ?_, ?_, ?_⟩, ?_⟩ <;> simp [ofSub_n_zero, ofSub_z, hneg, hmagnitude]

/-- The registers when both magnitudes are known. -/
structure Magnitudes (cpu₀ cpu : Cpu) : Prop where
  changes : Changes [.r1, .r2, .r3, .ip] cpu₀ cpu
  sign : cpu.regs .ip = cpu₀.regs .r0 ^^^ cpu₀.regs .r1
  divisor : cpu.regs .r1 = magnitude (cpu₀.regs .r1)
  before : cpu.regs .r2 = magnitude (cpu₀.regs .r1) - 1#32
  dividend : cpu.regs .r3 = magnitude (cpu₀.regs .r0)

theorem Magnitudes.setFlags (h : Magnitudes cpu₀ cpu) (f : Flags) :
    Magnitudes cpu₀ (cpu.setFlags f) :=
  ⟨h.changes.setFlags f, h.sign, h.divisor, h.before, h.dividend⟩

/-- The dividend is made positive, and both are compared. -/
theorem leads_magnitudes (cpu₀ : Cpu) (hp : p.text = text) :
    p.Leads 3 (p.addr 101) (Divisor cpu₀) (p.addr 104) (fun cpu => Magnitudes cpu₀ cpu ∧
      cpu.flags = .ofSub (magnitude (cpu₀.regs .r0)) (magnitude (cpu₀.regs .r1))) := by
  refine Leads.block (l := [(.al, movs .r3 (reg .r0)), (.mi, rsb .r3 .r0 (imm 0)),
    (.al, cmp .r3 (reg .r1))]) (hasAt hp rfl) ?_
  rintro cpu ⟨hchanges, hsign, hdivisor, hbefore⟩
  have hr0 : cpu.regs .r0 = cpu₀.regs .r0 := hchanges.regs _ (by decide)
  have hmono : Changes [.r1, .r2, .r3, .ip] cpu₀ cpu := hchanges.mono (by decide)
  by_cases hneg : (cpu₀.regs .r0).msb
  · have hmagnitude : magnitude (cpu₀.regs .r0) = -cpu₀.regs .r0 := if_pos hneg
    refine ⟨⟨?_, ?_, ?_, ?_, ?_⟩, ?_⟩ <;>
      simp [Flags.logical, hneg, hmagnitude, hr0, hmono, hsign, hdivisor, hbefore]
  · have hmagnitude : magnitude (cpu₀.regs .r0) = cpu₀.regs .r0 := if_neg hneg
    refine ⟨⟨?_, ?_, ?_, ?_, ?_⟩, ?_⟩ <;>
      simp [Flags.logical, hneg, hmagnitude, hr0, hmono, hsign, hdivisor, hbefore]

/-! ## The paths without a loop -/

/-- What `__aeabi_idiv` leaves. -/
def SignedQuotient (cpu₀ cpu : Cpu) : Prop :=
  cpu.regs .r0 = (cpu₀.regs .r0).sdiv (cpu₀.regs .r1) ∧
    Changes [.r0, .r1, .r2, .r3, .ip] cpu₀ cpu

theorem leads_return (cpu₀ : Cpu) {k : ℕ} (hat : p.HasAt k [.movPc .al .lr]) :
    p.Leads 1 (p.addr k) (SignedQuotient cpu₀) (cpu₀.regs .lr) (SignedQuotient cpu₀) := by
  refine Leads.ret hat ?_
  rintro cpu ⟨-, hchanges⟩
  exact ⟨rfl, hchanges.regs _ (by decide)⟩

/-- Division by one or by minus one. -/
theorem leads_div10 (hp : p.text = text) (hone : magnitude (cpu₀.regs .r1) = 1#32) :
    p.Leads 3 (p.addr 141) (Divisor cpu₀) (cpu₀.regs .lr) (SignedQuotient cpu₀) := by
  refine (Leads.block (l := [(.al, teq .ip (reg .r0)), (.mi, rsb .r0 .r0 (imm 0))])
    (hasAt hp rfl) ?_).seq (leads_return cpu₀ (hasAt hp rfl))
  rintro cpu ⟨hchanges, hsign, -, -⟩
  have hr0 : cpu.regs .r0 = cpu₀.regs .r0 := hchanges.regs _ (by decide)
  have hmono : Changes [.r0, .r1, .r2, .r3, .ip] cpu₀ cpu := hchanges.mono (by decide)
  have hquot : withSign (cpu₀.regs .r1) (cpu₀.regs .r0)
      = (cpu₀.regs .r0).sdiv (cpu₀.regs .r1) := by
    rw [sdiv_eq_withSign, withSign_xor_self _ _ hone]
  unfold SignedQuotient
  rw [← hquot, withSign]
  by_cases hneg : (cpu₀.regs .r1).msb
  · simp [Flags.logical, hsign, hneg, hmono, hr0]
  · simp [Flags.logical, hsign, hneg, hmono, hr0]

/-- 1 with the sign of a number. -/
theorem sshiftRight_or_one (x : Word) : x.sshiftRight 31 ||| 1#32 = withSign x 1#32 := by
  have hshift : x.sshiftRight 31 = if x.msb then -1#32 else 0#32 := by
    apply BitVec.eq_of_toInt_eq
    have hlt := x.isLt
    have hint := BitVec.toInt_eq_msb_cond x
    rw [BitVec.toInt_sshiftRight, Int.shiftRight_eq_div_pow]
    cases hmsb : x.msb with
    | false =>
      have hlow := BitVec.msb_eq_false_iff_two_mul_lt.mp hmsb
      rw [hmsb] at hint
      simp at hint ⊢
      omega
    | true =>
      have hhigh := BitVec.msb_eq_true_iff_two_mul_ge.mp hmsb
      rw [hmsb] at hint
      simp at hint ⊢
      omega
  rw [hshift, withSign]
  cases x.msb <;> rfl

/-- The flags of the comparison of the magnitudes. -/
def Compares (cpu₀ cpu : Cpu) : Prop :=
  Magnitudes cpu₀ cpu ∧
    cpu.flags = .ofSub (magnitude (cpu₀.regs .r0)) (magnitude (cpu₀.regs .r1))

/-- A dividend whose magnitude is not greater. -/
theorem leads_div11 (hp : p.text = text) (hd : cpu₀.regs .r1 ≠ 0#32)
    (hle : (magnitude (cpu₀.regs .r0)).toNat ≤ (magnitude (cpu₀.regs .r1)).toNat) :
    p.Leads 4 (p.addr 144) (Compares cpu₀) (cpu₀.regs .lr) (SignedQuotient cpu₀) := by
  refine (Leads.block (l := [(.cc, mov .r0 (imm 0)), (.eq, mov .r0 (asr .ip 31)),
    (.eq, orr .r0 .r0 (imm 1))]) (hasAt hp rfl) ?_).seq (leads_return cpu₀ (hasAt hp rfl))
  rintro cpu ⟨⟨hchanges, hsign, -, -, -⟩, hflags⟩
  have hmono : Changes [.r0, .r1, .r2, .r3, .ip] cpu₀ cpu := hchanges.mono (by decide)
  unfold SignedQuotient
  rw [sdiv_eq_withSign]
  by_cases heq : magnitude (cpu₀.regs .r0) = magnitude (cpu₀.regs .r1)
  · have hself : magnitude (cpu₀.regs .r1) / magnitude (cpu₀.regs .r1) = 1#32 := by
      rw [BitVec.udiv_self, if_neg]
      simpa using magnitude_ne_zero hd
    rw [heq, hself, ← sshiftRight_or_one, ← hsign]
    simp [hflags, heq, ofSub_c, ofSub_z, hmono]
  · have hlt : (magnitude (cpu₀.regs .r0)).toNat < (magnitude (cpu₀.regs .r1)).toNat :=
      Nat.lt_of_le_of_ne hle fun h => heq (BitVec.eq_of_toNat_eq h)
    have hzero : magnitude (cpu₀.regs .r0) / magnitude (cpu₀.regs .r1) = 0#32 := by
      apply BitVec.eq_of_toNat_eq
      rw [BitVec.toNat_udiv, Nat.div_eq_of_lt hlt]
      rfl
    rw [hzero, withSign, BitVec.neg_zero, ite_self]
    simp [hflags, heq, hlt, ofSub_c, ofSub_z, hmono]

/-! ## Powers of two -/

/-- A step of `ARM_DIV2_ORDER`, on what is left of the divisor and the order so far. -/
def halved (b : Word) (k : ℕ) (x : Word × Word) : Word × Word :=
  if b ≤ x.1 then (x.1 >>> k, x.2 + BitVec.ofNat 32 k) else x

/-- The order that `ARM_DIV2_ORDER` finds. -/
def order (x : Word) : Word :=
  let y := halved 0x10#32 4 (halved 0x100#32 8 (halved 0x10000#32 16 (x, 0)))
  if 0x4#32 < y.1 then y.2 + 3#32 else y.2 + y.1 >>> 1

/-- The order of a power of two. -/
theorem order_two_pow : ∀ k : Fin 32, order (BitVec.ofNat 32 (2 ^ k.val)) = BitVec.ofNat 32 k := by
  decide +kernel

theorem eq_two_pow {x : Word} (hx : x ≠ 0#32) (h : x &&& (x - 1#32) = 0#32) :
    ∃ k < 32, x = BitVec.ofNat 32 (2 ^ k) := by
  have hne : x.toNat ≠ 0 := fun hzero => hx (BitVec.eq_of_toNat_eq hzero)
  have hsub : (x - 1#32).toNat = x.toNat - 1 := by bv_omega
  have hand : x.toNat &&& (x.toNat - 1) = 0 := by
    rw [← hsub, ← BitVec.toNat_and, h]
    rfl
  obtain ⟨k, hk⟩ := (Nat.and_sub_one_eq_zero_iff_isPowerOfTwo hne).mp hand
  have hlt := x.isLt
  rw [hk] at hlt
  refine ⟨k, (Nat.pow_lt_pow_iff_right (by omega)).mp hlt, ?_⟩
  rw [← hk, BitVec.ofNat_toNat, BitVec.setWidth_eq]

/-- The operations of `ARM_DIV2_ORDER`. -/
def orderStart : List Conditional := [
  (.al, cmp .r1 (imm (1 <<< 16))),
  (.cs, mov .r1 (lsr .r1 16)),
  (.cs, mov .r2 (imm 16)),
  (.cc, mov .r2 (imm 0))]

/-- A step of the search for the order of the divisor, which adds `k` to it. -/
def orderStep (b : Word) (k : ℕ) : List Conditional := [
  (.al, cmp .r1 (imm b)),
  (.cs, mov .r1 (lsr .r1 k)),
  (.cs, add .r2 .r2 (imm (BitVec.ofNat 32 k)))]

/-- The last bits of the order. -/
def orderEnd : List Conditional := [
  (.al, cmp .r1 (imm (1 <<< 2))),
  (.hi, add .r2 .r2 (imm 3)),
  (.ls, add .r2 .r2 (lsr .r1 1))]

/-- The registers hold what is left of the divisor and the order so far. -/
structure Ordering (cpu₀ : Cpu) (x : Word × Word) (cpu : Cpu) : Prop where
  changes : Changes [.r1, .r2] cpu₀ cpu
  left : cpu.regs .r1 = x.1
  order : cpu.regs .r2 = x.2

/-- The upper half is looked at first. -/
theorem ordering_start (cpu : Cpu) :
    Ordering cpu (halved 0x10000#32 16 (cpu.regs .r1, 0))
      (orderStart.foldl Conditional.exec cpu) := by
  unfold halved
  by_cases h : 0x10000#32 ≤ cpu.regs .r1
  · have hle : 65536 ≤ (cpu.regs .r1).toNat := h
    rw [if_pos h]
    constructor <;> simp [orderStart, ofSub_c, hle]
  · have hlt : ¬ 65536 ≤ (cpu.regs .r1).toNat := h
    rw [if_neg h]
    constructor <;> simp [orderStart, ofSub_c, hlt]

/-- The search goes on in one of the halves. -/
theorem ordering_step {x : Word × Word} {b : Word} {k : ℕ} (h : Ordering cpu₀ x cpu) :
    Ordering cpu₀ (halved b k x) ((orderStep b k).foldl Conditional.exec cpu) := by
  obtain ⟨hchanges, hleft, horder⟩ := h
  unfold halved
  by_cases h : b ≤ x.1
  · have hle : b.toNat ≤ x.1.toNat := h
    rw [if_pos h]
    constructor <;> simp [orderStep, ofSub_c, hle, hchanges, hleft, horder]
  · have hlt : ¬ b.toNat ≤ x.1.toNat := h
    rw [if_neg h]
    constructor <;> simp [orderStep, ofSub_c, hlt, hchanges, hleft, horder]

theorem ordering_end {x : Word × Word} (h : Ordering cpu₀ x cpu) :
    Changes [.r1, .r2] cpu₀ (orderEnd.foldl Conditional.exec cpu) ∧
      (orderEnd.foldl Conditional.exec cpu).regs .r2
        = if 0x4#32 < x.1 then x.2 + 3#32 else x.2 + x.1 >>> 1 := by
  obtain ⟨hchanges, hleft, horder⟩ := h
  have hflags : (Flags.ofSub x.1 4#32).c = decide (4 ≤ x.1.toNat) ∧
      (Flags.ofSub x.1 4#32).z = decide (x.1.toNat = 4) := by
    rw [ofSub_c, ofSub_z]
    exact ⟨rfl, decide_eq_decide.mpr BitVec.toNat_inj.symm⟩
  by_cases h : 0x4#32 < x.1
  · have hlt : 4 < x.1.toNat := h
    have hne : x.1.toNat ≠ 4 := by omega
    rw [if_pos h]
    simp [orderEnd, hflags, hlt.le, hne, hchanges, horder, hleft]
  · have hle : ¬ 4 < x.1.toNat := h
    have hls : x.1.toNat < 4 ∨ x.1.toNat = 4 := by omega
    rw [if_neg h]
    rcases hls with hlt | heq
    · have hnot : ¬ 4 ≤ x.1.toNat := by omega
      simp [orderEnd, hflags, hnot, hchanges, horder, hleft]
    · simp [orderEnd, hflags, heq, hchanges, horder, hleft]

theorem leads_order (cpu₀ : Cpu) (hp : p.text = text) :
    p.Leads 13 (p.addr 148) (· = cpu₀) (p.addr 161) (fun cpu =>
      Changes [.r1, .r2] cpu₀ cpu ∧ cpu.regs .r2 = order (cpu₀.regs .r1)) := by
  refine Leads.block (l := orderStart ++ orderStep 0x100 8 ++ orderStep 0x10 4 ++ orderEnd)
    (hasAt hp rfl) ?_
  rintro cpu rfl
  rw [List.foldl_append, List.foldl_append, List.foldl_append]
  exact ordering_end (ordering_step (ordering_step (ordering_start cpu)))

/-- A divisor whose magnitude is a power of two. -/
theorem leads_div12 (hp : p.text = text) {cpu₁ : Cpu} (h : Magnitudes cpu₀ cpu₁) {k : ℕ}
    (hk : k < 32) (hpower : magnitude (cpu₀.regs .r1) = BitVec.ofNat 32 (2 ^ k)) :
    p.Leads 17 (p.addr 148) (· = cpu₁) (cpu₀.regs .lr) (SignedQuotient cpu₀) := by
  have horder := leads_order cpu₁ hp
  refine (horder.seq (Leads.block (l := [(.al, cmp .ip (imm 0)),
    (.al, mov .r0 (.shiftedBy .r3 .lsr .r2)), (.mi, rsb .r0 .r0 (imm 0))]) (hasAt hp rfl)
    ?_)).seq (leads_return cpu₀ (hasAt hp rfl))
  rintro cpu ⟨hchanges, hr2⟩
  have hsign : cpu.regs .ip = cpu₀.regs .r0 ^^^ cpu₀.regs .r1 := by
    rw [hchanges.regs _ (by decide), h.sign]
  have hr3 : cpu.regs .r3 = magnitude (cpu₀.regs .r0) := by
    rw [hchanges.regs _ (by decide), h.dividend]
  have hmono : Changes [.r0, .r1, .r2, .r3, .ip] cpu₀ cpu :=
    (h.changes.mono (by decide)).trans (hchanges.mono (by decide))
  have hk32 : (BitVec.ofNat 32 k).toNat % 256 = k := by
    rw [BitVec.toNat_ofNat]
    omega
  have hquot : magnitude (cpu₀.regs .r0) >>> k
      = magnitude (cpu₀.regs .r0) / magnitude (cpu₀.regs .r1) := by
    apply BitVec.eq_of_toNat_eq
    rw [toNat_ushiftRight, BitVec.toNat_udiv, hpower, BitVec.toNat_ofNat,
      Nat.mod_eq_of_lt (Nat.pow_lt_pow_right (by omega) hk)]
  rw [h.divisor, hpower, order_two_pow ⟨k, hk⟩] at hr2
  have hshift : cpu.regs .r3 >>> ((cpu.regs .r2).toNat % 256)
      = magnitude (cpu₀.regs .r0) / magnitude (cpu₀.regs .r1) := by
    rw [hr2, hk32, hr3, hquot]
  unfold SignedQuotient
  rw [sdiv_eq_withSign, ← hsign, ← hshift, withSign]
  by_cases hneg : (cpu.regs .ip).msb
  · simp [ofSub_n_zero, hneg, hmono]
  · simp [ofSub_n_zero, hneg, hmono]

/-! ## The loops -/

/-- The upper three bits are not set. -/
theorem lt_of_and_eq_zero {x : Word} (h : x &&& 0xe0000000#32 = 0#32) : x.toNat < 2 ^ 29 := by
  have hshift : x >>> 29 &&& 7#32 = 0#32 := by
    rw [show 7#32 = 0xe0000000#32 >>> 29 from rfl, ← BitVec.ushiftRight_and_distrib, h]
    rfl
  have hmod := congrArg BitVec.toNat hshift
  rw [BitVec.toNat_and, toNat_ushiftRight] at hmod
  have hseven : x.toNat / 2 ^ 29 % 2 ^ 3 = 0 := by
    rw [← Nat.and_two_pow_sub_one_eq_mod]
    exact hmod
  have hlt := x.isLt
  omega

/-- The divisor starts three bits up where it can. -/
theorem leads_start (hp : p.text = text) {cpu₁ : Cpu} {d : ℕ} (hd : (cpu₁.regs .r1).toNat = d) :
    p.Leads 4 (p.addr 107) (· = cpu₁) (p.addr 111)
      (fun cpu => ∃ s, Scaled cpu₁ .r1 .r2 d s cpu ∧ True) := by
  refine Leads.block (l := [(.al, tst .r1 (imm 0xe0000000)), (.eq, mov .r1 (lsl .r1 3)),
    (.eq, mov .r2 (imm 8)), (.ne, mov .r2 (imm 1))]) (hasAt hp rfl) ?_
  rintro cpu rfl
  by_cases hlow : cpu.regs .r1 &&& 0xe0000000#32 = 0#32
  · have hlt := lt_of_and_eq_zero hlow
    have hshift := toNat_shiftLeft (w := cpu.regs .r1) (k := 3) (by omega)
    rw [hd] at hshift
    refine ⟨3, ⟨?_, ?_, ?_⟩, trivial⟩
    · simp [Flags.logical, hlow]
    · rw [← hshift]
      simp [Flags.logical, hlow]
    · simp [Flags.logical, hlow]
  · refine ⟨0, ⟨?_, ?_, ?_⟩, trivial⟩
    · simp [Flags.logical, hlow]
    · simp [Flags.logical, hlow, hd]
    · simp [Flags.logical, hlow]

/-- The loops, and the quotient of the magnitudes in `r0`. -/
theorem leads_quotient (hp : p.text = text) {cpu₁ : Cpu} {a d : ℕ} (hd : 0 < d)
    (ha : (cpu₁.regs .r3).toNat = a) (hdivisor : (cpu₁.regs .r1).toNat = d) :
    p.Leads 193 (p.addr 107) (· = cpu₁) (p.addr 138) (fun cpu =>
      Changes [.r0, .r1, .r2, .r3] cpu₁ cpu ∧ (cpu.regs .r0).toNat = a / d) := by
  have hscale := leads_scale (p := p) cpu₁ (k := 111) (t := .divShift4) (u := .divShift1)
    (A := .r3) (D := .r1) (C := .r2) (E := fun _ => True) (F := fun _ => True)
    (hasAt hp rfl) (hasAt hp rfl) (address_eq hp (by decide +kernel)) (hasAt hp rfl)
    (hasAt hp rfl) (address_eq hp (by decide +kernel)) (by decide) (by decide) (by decide) hd
    (fun _ _ _ _ => trivial) (fun _ _ => trivial) (fun _ _ _ _ => trivial)
  have hstart := (leads_start hp hdivisor).seq hscale
  refine (hstart.seq (n := 129) (Leads.ghost fun s => ?_)).mono (by norm_num)
  rintro cpu₂ ⟨hs, -, hor⟩
  have hmov : p.Leads 1 (p.addr 121) (· = cpu₂) (p.addr 122) (· = cpu₂.set .r0 0) := by
    refine Leads.block (l := [(.al, mov .r0 (imm 0))]) (hasAt hp rfl) ?_
    rintro cpu rfl
    simp
  have hr3 : (cpu₂.set .r0 0).regs .r3 = cpu₁.regs .r3 := by
    rw [regs_set_ne (by decide), hs.changes.regs _ (by decide)]
  have hscaled : Scaled (cpu₂.set .r0 0) .r1 .r2 d s (cpu₂.set .r0 0) :=
    ⟨Changes.refl, by simpa using hs.divisor, by simpa using hs.bit⟩
  have hlt : a < d * 2 ^ (s + 1) := ha ▸ lt_twice hd hor
  have hpassing := hscaled.passing (A := .r3) (R := .r0) (by decide) (hr3 ▸ ha) (by simp) hlt
  have hpass := leads_pass (p := p) (cpu₂.set .r0 0) (k := 122) (t := .divLoop) (A := .r3)
    (D := .r1) (C := .r2) (R := .r0) (a := a) (hasAt hp rfl) (hasAt hp rfl)
    (address_eq hp (by decide +kernel)) (by decide) hd 7
  refine (hmov.seq (hpass.imp le_rfl ?_ fun _ => id)).imp le_rfl (fun _ => id) ?_ cpu₂ rfl
  · rintro cpu rfl
    exact ⟨s, hscaled.shift_lt, hpassing⟩
  · rintro cpu ⟨hchanges, hquot⟩
    have hfirst : Changes [.r0, .r1, .r2, .r3] cpu₁ (cpu₂.set .r0 0) :=
      (hs.changes.mono (by decide)).set (by decide)
    exact ⟨hfirst.trans (hchanges.mono (by decide)), hquot⟩

theorem leads_body (hp : p.text = text) {cpu₁ : Cpu} (h : Magnitudes cpu₀ cpu₁)
    (hd : cpu₀.regs .r1 ≠ 0#32) :
    p.Leads 196 (p.addr 107) (· = cpu₁) (cpu₀.regs .lr) (SignedQuotient cpu₀) := by
  have hpos : 0 < (magnitude (cpu₀.regs .r1)).toNat := by
    have hne : (magnitude (cpu₀.regs .r1)).toNat ≠ 0 := fun hzero =>
      magnitude_ne_zero hd (BitVec.eq_of_toNat_eq hzero)
    omega
  refine ((leads_quotient hp hpos (congrArg _ h.dividend) (congrArg _ h.divisor)).seq
    (Leads.block (l := [(.al, cmp .ip (imm 0)), (.mi, rsb .r0 .r0 (imm 0))]) (hasAt hp rfl)
      ?_)).seq (leads_return cpu₀ (hasAt hp rfl))
  rintro cpu ⟨hchanges, hquot⟩
  have hsign : cpu.regs .ip = cpu₀.regs .r0 ^^^ cpu₀.regs .r1 := by
    rw [hchanges.regs _ (by decide), h.sign]
  have hmono : Changes [.r0, .r1, .r2, .r3, .ip] cpu₀ cpu :=
    (h.changes.mono (by decide)).trans (hchanges.mono (by decide))
  have hr0 : cpu.regs .r0 = magnitude (cpu₀.regs .r0) / magnitude (cpu₀.regs .r1) :=
    BitVec.eq_of_toNat_eq hquot
  unfold SignedQuotient
  rw [sdiv_eq_withSign, ← hsign, ← hr0, withSign]
  by_cases hneg : (cpu.regs .ip).msb
  · simp [ofSub_n_zero, hneg, hmono]
  · simp [ofSub_n_zero, hneg, hmono]

/-! ## `__aeabi_idiv` -/

/-- From the comparison of the magnitudes on. -/
theorem leads_compared_magnitudes (hp : p.text = text) (hd : cpu₀.regs .r1 ≠ 0#32) :
    p.Leads 199 (p.addr 104) (Compares cpu₀) (cpu₀.regs .lr) (SignedQuotient cpu₀) := by
  by_cases hle : (magnitude (cpu₀.regs .r0)).toNat ≤ (magnitude (cpu₀.regs .r1)).toNat
  · have hbranch := Leads.branch (p := p) (k := 104) (c := .ls) (l := .div11)
      (P := Compares cpu₀) (hasAt hp rfl) (by
        rintro cpu ⟨-, hflags⟩
        rw [hflags]
        simp only [Cond.holds, ofSub_c, ofSub_z, ← BitVec.toNat_inj, Bool.or_eq_true,
          Bool.not_eq_true', decide_eq_false_iff_not, decide_eq_true_eq]
        omega)
    rw [address_eq hp (l := .div11) (k := 144) (by decide +kernel)] at hbranch
    exact (hbranch.seq (leads_div11 hp hd hle)).mono (by norm_num)
  · have hpass := Leads.pass (p := p) (k := 104) (c := .ls) (l := .div11)
      (P := Compares cpu₀) (hasAt hp rfl) (by
        rintro cpu ⟨-, hflags⟩
        rw [hflags]
        simp only [Cond.holds, ofSub_c, ofSub_z, ← BitVec.toNat_inj, Bool.or_eq_false_iff,
          Bool.not_eq_false', decide_eq_false_iff_not, decide_eq_true_eq]
        omega)
    have htst := hpass.seq (Leads.block (l := [(.al, tst .r1 (reg .r2))]) (hasAt hp rfl)
      (Q := fun cpu => Magnitudes cpu₀ cpu ∧ cpu.flags.z
        = (magnitude (cpu₀.regs .r1) &&& (magnitude (cpu₀.regs .r1) - 1#32) == 0#32)) (by
        rintro cpu ⟨hmagnitudes, -⟩
        refine ⟨by simpa using hmagnitudes.setFlags _, ?_⟩
        simp [Flags.logical, hmagnitudes.divisor, hmagnitudes.before]))
    refine (htst.seq (n := 197) ?_)
    by_cases hpower : magnitude (cpu₀.regs .r1) &&& (magnitude (cpu₀.regs .r1) - 1#32) = 0#32
    · obtain ⟨k, hk, heq⟩ := eq_two_pow (magnitude_ne_zero hd) hpower
      have hbranch := Leads.branch (p := p) (k := 106) (c := .eq) (l := .div12)
        (P := fun cpu => Magnitudes cpu₀ cpu ∧ cpu.flags.z
          = (magnitude (cpu₀.regs .r1) &&& (magnitude (cpu₀.regs .r1) - 1#32) == 0#32))
        (hasAt hp rfl) (by
          rintro cpu ⟨-, hz⟩
          rw [Cond.holds, hz, hpower]
          rfl)
      rw [address_eq hp (l := .div12) (k := 148) (by decide +kernel)] at hbranch
      refine (hbranch.seq (n := 17) ?_).mono (by norm_num)
      rintro cpu ⟨hmagnitudes, -⟩
      exact leads_div12 hp hmagnitudes hk heq cpu rfl
    · refine (Leads.pass (p := p) (k := 106) (c := .eq) (l := .div12) (hasAt hp rfl) ?_).seq
        (n := 196) ?_
      · rintro cpu ⟨-, hz⟩
        rw [Cond.holds, hz]
        exact beq_eq_false_iff_ne.mpr hpower
      · rintro cpu ⟨hmagnitudes, -⟩
        exact leads_body hp hmagnitudes hd cpu rfl

theorem leads_idiv (hp : p.text = text) (hd : cpu₀.regs .r1 ≠ 0#32) :
    p.Leads 208 (p.addr 95) (· = cpu₀) (cpu₀.regs .lr) (SignedQuotient cpu₀) := by
  refine ((leads_divisor hp hd).seq (n := 203) ?_).mono (by norm_num)
  by_cases hone : magnitude (cpu₀.regs .r1) = 1#32
  · have hbranch := Leads.branch (p := p) (k := 100) (c := .eq) (l := .div10)
      (P := fun cpu => Divisor cpu₀ cpu ∧ cpu.flags.z = decide (magnitude (cpu₀.regs .r1) = 1#32))
      (hasAt hp rfl) (by
        rintro cpu ⟨-, hz⟩
        simp [hz, hone])
    rw [address_eq hp (l := .div10) (k := 141) (by decide +kernel)] at hbranch
    exact (hbranch.seq ((leads_div10 hp hone).imp le_rfl (fun _ h => h.1) fun _ => id)).mono
      (by norm_num)
  · have hpass := Leads.pass (p := p) (k := 100) (c := .eq) (l := .div10)
      (P := fun cpu => Divisor cpu₀ cpu ∧ cpu.flags.z = decide (magnitude (cpu₀.regs .r1) = 1#32))
      (hasAt hp rfl) (by
        rintro cpu ⟨-, hz⟩
        simp [hz, hone])
    have hboth := hpass.seq ((leads_magnitudes cpu₀ hp).imp le_rfl (fun _ h => h.1) fun _ => id)
    exact hboth.seq (leads_compared_magnitudes hp hd)

end Division
