/-
# The division routines as the compiled code sees them

What the routines of the runtime promise to the code that the compiler makes for `/` and `%`: they
return to their caller within a bounded number of instructions, with the quotient and the remainder
of C, the other registers and the memory as they were.  A division by zero never gives a result,
it ends in `__div0`; and `__umodsi3` is wrong for twenty-two pairs of arguments.
-/
import NewtonTLS.SignedDivision
import NewtonTLS.UnsignedRemainder

open Arm Arm.Cpu Arm.Program

namespace Division

variable {p : Program Label} {cpu₀ : Cpu}

/-! ## Results -/

/-- What a routine for quotient and remainder leaves to its caller. -/
structure Divided (quotient remainder : Word → Word → Word) (cpu₀ cpu : Cpu) : Prop where
  quotient : cpu.regs .r0 = quotient (cpu₀.regs .r0) (cpu₀.regs .r1)
  remainder : cpu.regs .r1 = remainder (cpu₀.regs .r0) (cpu₀.regs .r1)
  regs : ∀ r, r ∉ [Reg.r0, .r1, .r2, .r3] → cpu.regs r = cpu₀.regs r
  mem : ∀ w, (∀ i < 4, w ≠ wordAt (frame cpu₀ 4 + BitVec.ofNat 32 (4 * i))) →
    cpu.mem w = cpu₀.mem w

/-- The remainder from the quotient. -/
theorem umod_eq (a d : Word) : a - a / d * d = a % d := by
  have hdiv := Nat.div_add_mod a.toNat d.toNat
  have hle : a.toNat / d.toNat * d.toNat ≤ a.toNat := Nat.div_mul_le_self _ _
  have hlt := a.isLt
  have hmul : (a / d * d).toNat = a.toNat / d.toNat * d.toNat := by
    rw [BitVec.toNat_mul, BitVec.toNat_udiv, Nat.mod_eq_of_lt (hle.trans_lt hlt)]
  apply BitVec.eq_of_toNat_eq
  rw [BitVec.toNat_sub_of_le (by rw [BitVec.le_def, hmul]; exact hle), hmul, BitVec.toNat_umod]
  rw [Nat.mul_comm] at hdiv
  omega

/-- The signed remainder from the quotient. -/
theorem srem_eq (a d : Word) : a - a.sdiv d * d = a.srem d := by
  apply BitVec.eq_of_toInt_eq
  have htmod : a.toInt - a.toInt.tdiv d.toInt * d.toInt = (a.srem d).toInt := by
    rw [BitVec.toInt_srem, Int.mul_comm]
    have := Int.mul_tdiv_add_tmod a.toInt d.toInt
    omega
  rw [BitVec.toInt_sub, BitVec.toInt_mul, BitVec.toInt_sdiv, Int.sub_bmod_bmod, Int.sub_bmod,
    Int.bmod_mul_bmod, ← Int.sub_bmod, htmod, BitVec.toInt_bmod_cancel]

/-- A call with two arguments. -/
def called (a d : Word) : Cpu where
  regs
    | .r0 => a
    | .r1 => d
    | .sp => 0x8000
    | .lr => 0x9000
    | _ => 0
  flags := ⟨false, false, false, false⟩
  mem := fun _ => 0

/-- **Unsigned division.**  `__aeabi_uidiv` returns the quotient and `__aeabi_uidivmod` the quotient
and the remainder, for every divisor but zero. -/
theorem aeabi_uidivmod_returns (base : Word) (external : Label → Word) (cpu₀ : Cpu)
    (hd : cpu₀.regs .r1 ≠ 0#32) :
    let p := routines base external
    p.Leads 196 (p.address .aeabi_uidiv) (· = cpu₀) (cpu₀.regs .lr) (fun cpu =>
        cpu.regs .r0 = cpu₀.regs .r0 / cpu₀.regs .r1 ∧ Changes [.r0, .r1, .r2, .r3] cpu₀ cpu) ∧
      p.Leads 202 (p.address .aeabi_uidivmod) (· = cpu₀) (cpu₀.regs .lr)
        (Divided (· / ·) (· % ·) cpu₀) := by
  intro p
  have hp : p.text = text := rfl
  constructor
  · rw [address_eq hp (l := .aeabi_uidiv) (k := 0) rfl]
    exact leads_uidiv hp hd
  · rw [address_eq hp (l := .aeabi_uidivmod) (k := 38) rfl]
    have hdivmod := leads_divmod (p := p) (k := 38) (e := 0) (l := .aeabi_uidiv) (N := 196)
      (f := (· / ·)) (hasAt hp rfl) (hasAt hp rfl) (hasAt hp rfl) (hasAt hp rfl)
      (address_eq hp rfl) (fun cpu₁ hd₁ => (leads_uidiv hp hd₁).imp le_rfl (fun _ => id)
        fun _ h => ⟨h.1, h.2.mono (by decide)⟩) hd
    refine hdivmod.imp le_rfl (fun _ => id) fun cpu h => ⟨h.quotient, ?_, h.regs, h.mem⟩
    rw [h.remainder, umod_eq]

theorem aeabi_uidivmod_returns_hundred_seven :
    (called 100 7).regs .r1 ≠ 0#32 ∧
      (routines 0 fun _ => 0x4000).Leads 202 ((routines 0 fun _ => 0x4000).address .aeabi_uidivmod)
        (· = called 100 7) 0x9000 fun cpu => cpu.regs .r0 = 14 ∧ cpu.regs .r1 = 2 :=
  ⟨by decide, (aeabi_uidivmod_returns 0 (fun _ => 0x4000) (called 100 7) (by decide)).2.imp le_rfl
    (fun _ => id) fun _ h => ⟨h.quotient.trans (by decide), h.remainder.trans (by decide)⟩⟩

/-- **Signed division.**  `__aeabi_idiv` and `__aeabi_idivmod` truncate towards zero.  The quotient
of the least word by minus one, which is no word, is the least word again. -/
theorem aeabi_idivmod_returns (base : Word) (external : Label → Word) (cpu₀ : Cpu)
    (hd : cpu₀.regs .r1 ≠ 0#32) :
    let p := routines base external
    p.Leads 208 (p.address .aeabi_idiv) (· = cpu₀) (cpu₀.regs .lr) (fun cpu =>
        (cpu.regs .r0).toInt
          = ((cpu₀.regs .r0).toInt.tdiv (cpu₀.regs .r1).toInt).bmod (2 ^ 32) ∧
        Changes [.r0, .r1, .r2, .r3, .ip] cpu₀ cpu) ∧
      p.Leads 214 (p.address .aeabi_idivmod) (· = cpu₀) (cpu₀.regs .lr) (fun cpu =>
        Divided BitVec.sdiv BitVec.srem cpu₀ cpu ∧
          (cpu.regs .r1).toInt = (cpu₀.regs .r0).toInt.tmod (cpu₀.regs .r1).toInt) := by
  intro p
  have hp : p.text = text := rfl
  constructor
  · rw [address_eq hp (l := .aeabi_idiv) (k := 95) (by decide +kernel)]
    refine (leads_idiv hp hd).imp le_rfl (fun _ => id) fun cpu h => ⟨?_, h.2⟩
    rw [h.1, BitVec.toInt_sdiv]
  · rw [address_eq hp (l := .aeabi_idivmod) (k := 44) rfl]
    have hdivmod := leads_divmod (p := p) (k := 44) (e := 95) (l := .aeabi_idiv) (N := 208)
      (f := BitVec.sdiv) (hasAt hp rfl) (hasAt hp rfl) (hasAt hp rfl) (hasAt hp rfl)
      (address_eq hp (by decide +kernel)) (fun cpu₁ hd₁ => leads_idiv hp hd₁) hd
    refine hdivmod.imp le_rfl (fun _ => id) fun cpu h => ?_
    have hrem : cpu.regs .r1 = (cpu₀.regs .r0).srem (cpu₀.regs .r1) := by
      rw [h.remainder, srem_eq]
    exact ⟨⟨h.quotient, hrem, h.regs, h.mem⟩, by rw [hrem, BitVec.toInt_srem]⟩

/-- The quotient is rounded towards zero, and the remainder has the sign of the dividend. -/
theorem aeabi_idivmod_returns_minus_hundred_seven :
    (called (-100) 7).regs .r1 ≠ 0#32 ∧
      (routines 0 fun _ => 0x4000).Leads 214 ((routines 0 fun _ => 0x4000).address .aeabi_idivmod)
        (· = called (-100) 7) 0x9000 fun cpu => cpu.regs .r0 = -14 ∧ cpu.regs .r1 = -2 :=
  ⟨by decide, (aeabi_idivmod_returns 0 (fun _ => 0x4000) (called (-100) 7) (by decide)).2.imp
    le_rfl (fun _ => id) fun _ h =>
      ⟨h.1.quotient.trans (by decide), h.1.remainder.trans (by decide)⟩⟩

/-- **The remainder of `__umodsi3`** is right except for twenty-two pairs of arguments. -/
theorem umodsi3_right_iff (base : Word) (external : Label → Word) (cpu₀ : Cpu)
    (hd : cpu₀.regs .r1 ≠ 0#32) :
    let p := routines base external
    p.Leads 210 (p.address .umodsi3) (· = cpu₀) (cpu₀.regs .lr) (fun cpu =>
      (cpu.regs .r0 = cpu₀.regs .r0 % cpu₀.regs .r1
        ↔ ((cpu₀.regs .r0).toNat, (cpu₀.regs .r1).toNat) ∉ wrongArguments) ∧
      Changes [.r0, .r1, .r2, .r3, .ip] cpu₀ cpu) := by
  intro p
  have hp : p.text = text := rfl
  rw [address_eq hp (l := .umodsi3) (k := 50) rfl]
  exact leads_umod hp hd

/-- The remainder of this division by 1 is not 0. -/
theorem umodsi3_right_iff_three_by_one :
    (called 0xc0000000 1).regs .r1 ≠ 0#32 ∧
      (routines 0 fun _ => 0x4000).Leads 210 ((routines 0 fun _ => 0x4000).address .umodsi3)
        (· = called 0xc0000000 1) 0x9000 fun cpu => cpu.regs .r0 ≠ 0xc0000000 % 1 :=
  ⟨by decide, (umodsi3_right_iff 0 (fun _ => 0x4000) (called 0xc0000000 1) (by decide)).imp le_rfl
    (fun _ => id) fun _ h => mt h.1.mp (by decide +kernel)⟩

/-! ## Division by zero -/

/-- The processor at the entry of `__div0`.  The return address of the routine is on the stack, and
if `__div0` came back the routine would return zero. -/
structure Trapped (p : Program Label) (cpu₀ cpu : Cpu) : Prop where
  stack : cpu.regs .sp = frame cpu₀ 1
  caller : cpu.load (frame cpu₀ 1) = cpu₀.regs .lr
  regs : ∀ r, r ∉ [Reg.ip, .sp, .lr] → cpu.regs r = cpu₀.regs r
  mem : ∀ w, w ≠ wordAt (frame cpu₀ 1) → cpu.mem w = cpu₀.mem w
  back : ∀ cpu' : Cpu, cpu'.regs .sp = cpu.regs .sp → cpu'.mem = cpu.mem →
    p.Leads 2 (cpu.regs .lr) (· = cpu') (cpu₀.regs .lr) fun cpu'' =>
      cpu''.regs .r0 = 0 ∧ cpu''.regs .sp = cpu₀.regs .sp ∧ cpu''.mem = cpu.mem

/-- The code at the end of each routine, where the divisor is zero. -/
theorem leads_trap (cpu₀ : Cpu) (hp : p.text = text) {k : ℕ}
    (hpush : p.HasAt k [Conditional.instr (.al, .push [.lr])]) (hbl : p.HasAt (k + 1) [.bl .div0])
    (hmov : p.HasAt (k + 2) [Conditional.instr (.al, mov .r0 (imm 0))])
    (hpop : p.HasAt (k + 3) [.popPc]) :
    p.Leads 2 (p.addr k) (Changes [.ip] cpu₀) (p.external .div0) (Trapped p cpu₀) := by
  have hstored : p.Leads 1 (p.addr k) (Changes [.ip] cpu₀) (p.addr (k + 1)) (fun cpu =>
      ∃ cpu₁, Changes [.ip] cpu₀ cpu₁ ∧
        cpu = (cpu₁.store (frame cpu₀ 1) (cpu₀.regs .lr)).set .sp (frame cpu₀ 1)) := by
    refine Leads.block (l := [(.al, .push [.lr])]) hpush ?_
    intro cpu hcpu
    refine ⟨cpu, hcpu, ?_⟩
    have hsp := hcpu.regs .sp (by decide)
    have hlr := hcpu.regs .lr (by decide)
    simp [storeAll, hsp, hlr, frame]
  have hcall := hstored.seq (Leads.call hbl (Q := Trapped p cpu₀) (by
    rintro cpu ⟨cpu₁, hcpu₁, rfl⟩
    have hload : ((cpu₁.store (frame cpu₀ 1) (cpu₀.regs .lr)).set .sp (frame cpu₀ 1)).load
        (frame cpu₀ 1) = cpu₀.regs .lr := by simp
    refine ⟨by simp, by simp, ?_, ?_, ?_⟩
    · intro r hr
      simp only [List.mem_cons, List.not_mem_nil, or_false, not_or] at hr
      rw [regs_set_ne hr.2.2, regs_set_ne hr.2.1, regs_store, hcpu₁.regs r (by simp [hr.1])]
    · intro w hw
      rw [← hcpu₁.mem]
      simp [store, hw]
    · intro cpu' hsp hmem
      rw [regs_set_self]
      rw [regs_set_ne (by decide), regs_set_self] at hsp
      have hzero : p.Leads 1 (p.addr (k + 2)) (· = cpu') (p.addr (k + 3)) (· = cpu'.set .r0 0) :=
        Leads.block (l := [(.al, mov .r0 (imm 0))]) hmov (by
          rintro cpu rfl
          simp)
      refine hzero.seq (Leads.of_step ?_)
      rintro cpu rfl
      refine ⟨(cpu'.set .r0 0).set .sp (frame cpu₀ 1 + 4#32), ?_, by simp, ?_, hmem⟩
      · have hsp' : (cpu'.set .r0 0).regs .sp = frame cpu₀ 1 := by simp [hsp]
        have hpc : (cpu'.set .r0 0).load (frame cpu₀ 1) = cpu₀.regs .lr := by
          rw [load_set, load, hmem]
          exact hload
        simp only [step, hpop.head, hsp', hpc]
      · rw [regs_set_self, frame]
        exact BitVec.sub_add_cancel _ _))
  rwa [address_div0 hp] at hcall

/-- A routine that begins with the test of its divisor. -/
theorem leads_zero {k e : ℕ} {l : Label}
    (hcmp : p.HasAt k [Conditional.instr (.al, cmp .r1 (imm 0))])
    (hbeq : p.HasAt (k + 1) [.b .eq l]) (hl : p.address l = p.addr e)
    (htrap : p.Leads 2 (p.addr e) (Changes [.ip] cpu₀) (p.external .div0) (Trapped p cpu₀))
    (hd : cpu₀.regs .r1 = 0#32) :
    p.Leads 4 (p.addr k) (· = cpu₀) (p.external .div0) (Trapped p cpu₀) := by
  have htest : p.Leads 1 (p.addr k) (· = cpu₀) (p.addr (k + 1))
      (· = cpu₀.setFlags (.ofSub (cpu₀.regs .r1) 0)) := by
    refine Leads.block (l := [(.al, cmp .r1 (imm 0))]) hcmp ?_
    rintro cpu rfl
    rfl
  have hbranch := htest.seq (Leads.branch hbeq (by
    rintro cpu rfl
    simpa [ofSub_z] using hd))
  rw [hl] at hbranch
  exact hbranch.seq (htrap.imp le_rfl (by rintro cpu rfl; simp) fun _ => id)

/-- The unsigned division calls `__div0`. -/
theorem leads_zero_uidiv (hp : p.text = text) (hd : cpu₀.regs .r1 = 0#32) :
    p.Leads 4 (p.addr 0) (· = cpu₀) (p.external .div0) (Trapped p cpu₀) :=
  leads_zero (l := .udivDiv0) (hasAt hp rfl) (hasAt hp rfl) (address_eq hp rfl)
    (leads_trap cpu₀ hp (k := 34) (hasAt hp rfl) (hasAt hp rfl) (hasAt hp rfl) (hasAt hp rfl)) hd

theorem leads_zero_umod (hp : p.text = text) (hd : cpu₀.regs .r1 = 0#32) :
    p.Leads 4 (p.addr 50) (· = cpu₀) (p.external .div0) (Trapped p cpu₀) :=
  leads_zero (l := .umodDiv0) (hasAt hp rfl) (hasAt hp rfl)
    (address_eq hp (by decide +kernel))
    (leads_trap cpu₀ hp (k := 91) (hasAt hp rfl) (hasAt hp rfl) (hasAt hp rfl) (hasAt hp rfl)) hd

theorem leads_zero_idiv (hp : p.text = text) (hd : cpu₀.regs .r1 = 0#32) :
    p.Leads 5 (p.addr 95) (· = cpu₀) (p.external .div0) (Trapped p cpu₀) := by
  have hcmp : p.Leads 2 (p.addr 95) (· = cpu₀) (p.addr 97) (fun cpu =>
      Changes [.ip] cpu₀ cpu ∧ cpu.flags.z = true) := by
    refine Leads.block (l := [(.al, cmp .r1 (imm 0)), (.al, eor .ip .r0 (reg .r1))])
      (hasAt hp rfl) ?_
    rintro cpu rfl
    simp [ofSub_z, hd]
  have hbranch := hcmp.seq (Leads.branch (c := .eq) (l := .divDiv0) (hasAt hp rfl)
    fun cpu h => h.2)
  rw [address_eq hp (l := .divDiv0) (k := 165) (by decide +kernel)] at hbranch
  have htrap := leads_trap cpu₀ hp (k := 165) (hasAt hp rfl) (hasAt hp rfl) (hasAt hp rfl)
    (hasAt hp rfl)
  exact hbranch.seq (htrap.imp le_rfl (fun _ h => h.1) fun _ => id)

/-- The processor at the entry of `__div0` from a routine for quotient and remainder: what it has
saved is on the stack, its own return address last. -/
structure TrappedInside (cpu₀ cpu : Cpu) : Prop where
  stack : cpu.regs .sp = frame cpu₀ 5
  saved : ∀ i (hi : i < saved.length),
    cpu.load (frame cpu₀ 4 + BitVec.ofNat 32 (4 * i)) = cpu₀.regs saved[i]
  regs : ∀ r, r ∉ [Reg.ip, .sp, .lr] → cpu.regs r = cpu₀.regs r
  mem : ∀ w, (∀ i < 5, w ≠ wordAt (frame cpu₀ 5 + BitVec.ofNat 32 (4 * i))) →
    cpu.mem w = cpu₀.mem w

/-- The place of a word in the two frames. -/
theorem frame_five (cpu : Cpu) (i : ℕ) :
    frame cpu 4 + BitVec.ofNat 32 (4 * i) = frame cpu 5 + BitVec.ofNat 32 (4 * (i + 1)) := by
  unfold frame
  bv_omega

/-- The trap from inside of the division is one of the caller. -/
theorem Trapped.inside {cpu₁ cpu : Cpu} (h : Trapped p cpu₁ cpu)
    (hsp : cpu₁.regs .sp = frame cpu₀ 4)
    (hmem : cpu₁.mem = (cpu₀.storeAll (frame cpu₀ 4) saved).mem)
    (hregs : ∀ r, r ∉ [Reg.ip, .sp, .lr] → cpu₁.regs r = cpu₀.regs r) :
    TrappedInside cpu₀ cpu := by
  have hframe : frame cpu₁ 1 = frame cpu₀ 5 := by
    unfold frame at hsp ⊢
    rw [hsp]
    bv_omega
  have hbase : frame cpu₀ 5 = frame cpu₀ 5 + BitVec.ofNat 32 (4 * 0) := by
    simp
  constructor
  · rw [h.stack, hframe]
  · intro i hi
    have hi4 : i < 4 := hi
    have hne : wordAt (frame cpu₀ 4 + BitVec.ofNat 32 (4 * i)) ≠ wordAt (frame cpu₁ 1) := by
      have hdiffer := wordAt_add_ne (a := frame cpu₀ 5) (i := i + 1) (j := 0) (by omega)
        (by omega) (by omega)
      rw [frame_five, hframe]
      rwa [← hbase] at hdiffer
    unfold load
    rw [h.mem _ hne, hmem]
    exact load_storeAll (by decide) hi
  · intro r hr
    rw [h.regs r hr, hregs r hr]
  · intro w hw
    have hlast : w ≠ wordAt (frame cpu₁ 1) := by
      rw [hframe, hbase]
      exact hw 0 (by omega)
    rw [h.mem w hlast, hmem]
    refine mem_storeAll fun i hi => ?_
    rw [frame_five]
    exact hw (i + 1) (Nat.succ_lt_succ hi)

/-- The functions that divide first trap in the division. -/
theorem leads_zero_divmod {k e n : ℕ} {l : Label}
    (hpush : p.HasAt k [Conditional.instr (.al, .push saved)]) (hbl : p.HasAt (k + 1) [.bl l])
    (hl : p.address l = p.addr e)
    (hcallee : ∀ cpu₁ : Cpu, cpu₁.regs .r1 = 0#32 →
      p.Leads n (p.addr e) (· = cpu₁) (p.external .div0) (Trapped p cpu₁))
    (hd : cpu₀.regs .r1 = 0#32) :
    p.Leads (n + 2) (p.addr k) (· = cpu₀) (p.external .div0) (TrappedInside cpu₀) := by
  have hstored : p.Leads 1 (p.addr k) (· = cpu₀) (p.addr (k + 1))
      (· = (cpu₀.storeAll (frame cpu₀ 4) saved).set .sp (frame cpu₀ 4)) := by
    refine Leads.block (l := [(.al, .push saved)]) hpush ?_
    rintro cpu rfl
    rfl
  have hcalled := hstored.seq (Leads.call hbl (Q := (· = ((cpu₀.storeAll (frame cpu₀ 4) saved).set
    .sp (frame cpu₀ 4)).set .lr (p.addr (k + 2)))) (by
      rintro cpu rfl
      rfl))
  rw [hl] at hcalled
  refine (hcalled.seq (hcallee _ (by simpa using hd))).imp (by omega) (fun _ => id) ?_
  intro cpu htrapped
  refine htrapped.inside ?_ rfl ?_
  · rw [regs_set_ne (by decide), regs_set_self]
  · intro r hr
    simp only [List.mem_cons, List.not_mem_nil, or_false, not_or] at hr
    rw [regs_set_ne hr.2.2, regs_set_ne hr.2.1, regs_storeAll]

/-- **Division by zero.**  Every routine ends in `__div0`, with the registers of the arguments, and
with the return address of its caller on the stack. -/
theorem division_by_zero_traps (base : Word) (external : Label → Word) (cpu₀ : Cpu)
    (hd : cpu₀.regs .r1 = 0#32) :
    let p := routines base external
    (∀ l ∈ [Label.aeabi_uidiv, .umodsi3, .aeabi_idiv],
      p.Leads 5 (p.address l) (· = cpu₀) (external .div0) (Trapped p cpu₀)) ∧
    ∀ l ∈ [Label.aeabi_uidivmod, .aeabi_idivmod],
      p.Leads 7 (p.address l) (· = cpu₀) (external .div0) (TrappedInside cpu₀) := by
  intro p
  have hp : p.text = text := rfl
  simp only [List.forall_mem_cons, List.not_mem_nil, false_implies, implies_true, and_true]
  refine ⟨⟨?_, ?_, ?_⟩, ?_, ?_⟩
  · rw [address_eq hp (l := .aeabi_uidiv) (k := 0) rfl]
    exact (leads_zero_uidiv hp hd).mono (by omega)
  · rw [address_eq hp (l := .umodsi3) (k := 50) rfl]
    exact (leads_zero_umod hp hd).mono (by omega)
  · rw [address_eq hp (l := .aeabi_idiv) (k := 95) (by decide +kernel)]
    exact leads_zero_idiv hp hd
  · rw [address_eq hp (l := .aeabi_uidivmod) (k := 38) rfl]
    exact (leads_zero_divmod (l := .aeabi_uidiv) (e := 0) (hasAt hp rfl) (hasAt hp rfl)
      (address_eq hp rfl) (fun cpu₁ hd₁ => leads_zero_uidiv hp hd₁) hd).mono (by omega)
  · rw [address_eq hp (l := .aeabi_idivmod) (k := 44) rfl]
    exact (leads_zero_divmod (l := .aeabi_idiv) (e := 95) (hasAt hp rfl) (hasAt hp rfl)
      (address_eq hp (by decide +kernel)) (fun cpu₁ hd₁ => leads_zero_idiv hp hd₁) hd)

theorem division_by_zero_traps_five :
    (called 5 0).regs .r1 = 0#32 ∧
      (routines 0 fun _ => 0x4000).Leads 7 ((routines 0 fun _ => 0x4000).address .aeabi_idivmod)
        (· = called 5 0) 0x4000 (TrappedInside (called 5 0)) :=
  ⟨rfl, (division_by_zero_traps 0 (fun _ => 0x4000) (called 5 0) rfl).2 _ (by decide)⟩

end Division
