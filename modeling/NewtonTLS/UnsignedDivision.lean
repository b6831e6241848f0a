/-
# Unsigned division

`__aeabi_uidiv` leaves the quotient of its arguments, within a number of instructions that does
not depend on them, and `__aeabi_uidivmod` the quotient and the remainder.  A division by zero
ends in `__div0`.
-/
import NewtonTLS.DivisionBlocks

open Arm Arm.Cpu Arm.Program LongDivision

namespace Division

variable {p : Program Label} {cpu₀ : Cpu}

/-! ## `__aeabi_uidiv` -/

/-- The registers before the loops. -/
structure Prepared (cpu₀ cpu : Cpu) : Prop where
  changes : Changes [result, curbit] cpu₀ cpu
  curbit : cpu.regs curbit = 1
  result : cpu.regs result = 0
  carry : cpu.flags.c = decide ((cpu₀.regs divisor).toNat ≤ (cpu₀.regs dividend).toNat)

theorem leads_prepared (hp : p.text = text) (hd : cpu₀.regs divisor ≠ 0) :
    p.Leads 5 (p.addr 0) (· = cpu₀) (p.addr 5) (Prepared cpu₀) := by
  have hcmp : p.Leads 1 (p.addr 0) (· = cpu₀) (p.addr 1)
      (· = cpu₀.setFlags (.ofSub (cpu₀.regs divisor) 0)) := by
    refine Leads.block (l := [(.al, cmp divisor (imm 0))]) (hasAt hp rfl) ?_
    rintro cpu rfl
    rfl
  have hpass := hcmp.seq (Leads.pass (c := .eq) (l := .udivDiv0) (hasAt hp rfl) (by
    rintro cpu rfl
    simpa [ofSub_z] using hd))
  refine hpass.seq (Leads.block (l := [(.al, mov curbit (imm 1)), (.al, mov result (imm 0)),
    (.al, cmp dividend (reg divisor))]) (hasAt hp rfl) ?_)
  rintro cpu rfl
  constructor
  · simp
  · simp
  · simp
  · simp [ofSub_c]

/-- **The loops of `__aeabi_uidiv`.**  The divisor is moved up until it exceeds half of the
dividend, and then divided. -/
theorem leads_loops (cpu₀ : Cpu) (hp : p.text = text) {a d : ℕ} (hd : 0 < d)
    (ha : (cpu₀.regs dividend).toNat = a) (hdivisor : (cpu₀.regs divisor).toNat = d)
    (hcurbit : cpu₀.regs curbit = 1) (hresult : cpu₀.regs result = 0) :
    p.Leads 188 (p.addr 6) (· = cpu₀) (p.addr 32)
      (fun cpu => Changes [dividend, divisor, curbit, result] cpu₀ cpu ∧
        (cpu.regs result).toNat = a / d) := by
  have hstart : Scaled cpu₀ divisor curbit d 0 cpu₀ :=
    ⟨Changes.refl, by simp [hdivisor], by simp [hcurbit]⟩
  have hscale := leads_scale (p := p) cpu₀ (k := 6) (t := .udivLoop1) (u := .udivBignum)
    (A := dividend) (D := divisor) (C := curbit) (E := fun _ => True) (F := fun _ => True)
    (hasAt hp rfl) (hasAt hp rfl) (address_eq hp rfl) (hasAt hp rfl) (hasAt hp rfl)
    (address_eq hp rfl) (by decide) (by decide) (by decide) hd (fun _ _ _ _ => trivial)
    (fun _ _ => trivial) (fun _ _ _ _ => trivial)
  have hpass := leads_pass (p := p) cpu₀ (k := 16) (t := .udivLoop3) (A := dividend)
    (D := divisor) (C := curbit) (R := result) (a := a) (hasAt hp rfl) (hasAt hp rfl)
    (address_eq hp rfl) (by decide) hd 7
  refine (hscale.seq (hpass.imp le_rfl ?_ fun _ => id)).imp le_rfl ?_ fun _ => id
  · rintro cpu ⟨s, hs, -, hor⟩
    exact ⟨s, hs.shift_lt, hs.passing (by decide) ha hresult (ha ▸ lt_twice hd hor)⟩
  · rintro cpu rfl
    exact ⟨0, hstart, trivial⟩

/-- What a routine leaves: the quotient in `r0`, and all registers that are not for arguments. -/
def Quotient (cpu₀ cpu : Cpu) : Prop :=
  cpu.regs .r0 = cpu₀.regs .r0 / cpu₀.regs .r1 ∧ Changes [.r0, .r1, .r2, .r3] cpu₀ cpu

/-- The result is moved to `r0`, and the routine returns. -/
theorem leads_gotResult (cpu₀ : Cpu) (hp : p.text = text) :
    p.Leads 2 (p.addr 32)
      (fun cpu => Changes [dividend, divisor, curbit, result] cpu₀ cpu ∧
        (cpu.regs result).toNat = (cpu₀.regs .r0).toNat / (cpu₀.regs .r1).toNat)
      (cpu₀.regs .lr) (Quotient cpu₀) := by
  have hmov : p.Leads 1 (p.addr 32)
      (fun cpu => Changes [dividend, divisor, curbit, result] cpu₀ cpu ∧
        (cpu.regs result).toNat = (cpu₀.regs .r0).toNat / (cpu₀.regs .r1).toNat)
      (p.addr 33) (Quotient cpu₀) := by
    refine Leads.block (l := [(.al, mov .r0 (reg result))]) (hasAt hp rfl) ?_
    rintro cpu ⟨hchanges, hresult⟩
    constructor
    · apply BitVec.eq_of_toNat_eq
      simpa using hresult
    · simpa using hchanges.mono (by decide)
  refine hmov.seq (Leads.ret (c := .al) (hasAt hp rfl) ?_)
  rintro cpu ⟨-, hchanges⟩
  exact ⟨rfl, hchanges.regs .lr (by simp)⟩

/-- The operands and the way back are where they were. -/
theorem Prepared.regs {cpu : Cpu} (h : Prepared cpu₀ cpu) :
    cpu.regs .r0 = cpu₀.regs .r0 ∧ cpu.regs .r1 = cpu₀.regs .r1 ∧ cpu.regs .lr = cpu₀.regs .lr :=
  ⟨h.changes.regs _ (by decide), h.changes.regs _ (by decide), h.changes.regs _ (by decide)⟩

theorem leads_uidiv (hp : p.text = text) (hd : cpu₀.regs .r1 ≠ 0) :
    p.Leads 196 (p.addr 0) (· = cpu₀) (cpu₀.regs .lr) (Quotient cpu₀) := by
  have hpos : 0 < (cpu₀.regs .r1).toNat := by
    have : (cpu₀.regs .r1).toNat ≠ 0 := fun hzero => hd (BitVec.eq_of_toNat_eq hzero)
    omega
  refine (leads_prepared hp hd).seq (Leads.cases (n := 191) (fun cpu => cpu.flags.c = true) ?_ ?_)
  · -- The dividend is not smaller: the loops.
    rintro cpu₁ ⟨hprepared, hcarry⟩
    obtain ⟨hr0, hr1, hlr⟩ := hprepared.regs
    have hpass := Leads.pass (p := p) (k := 5) (P := (· = cpu₁)) (c := .cc)
      (l := .udivGotResult) (hasAt hp rfl) (by
        rintro cpu rfl
        simp [hcarry])
    have hloops := leads_loops (p := p) cpu₁ hp hpos (congrArg _ hr0)
      (congrArg _ hr1) hprepared.curbit hprepared.result
    have hend := leads_gotResult (p := p) cpu₀ hp
    refine ((hpass.seq hloops).seq (hend.imp le_rfl ?_ fun _ => id)).mono ?_ cpu₁ rfl
    · rintro cpu ⟨hchanges, hresult⟩
      exact ⟨(hprepared.changes.mono (by decide)).trans hchanges, hresult⟩
    · norm_num
  · rintro cpu₁ ⟨hprepared, hcarry⟩
    have hbranch := Leads.branch (p := p) (k := 5) (P := (· = cpu₁)) (c := .cc)
      (l := .udivGotResult) (hasAt hp rfl) (by
        rintro cpu rfl
        simpa using hcarry)
    rw [address_eq hp (l := .udivGotResult) (k := 32) rfl] at hbranch
    have hend := leads_gotResult (p := p) cpu₀ hp
    refine (hbranch.seq (hend.imp le_rfl ?_ fun _ => id)).mono (by norm_num) cpu₁ rfl
    rintro cpu rfl
    refine ⟨hprepared.changes.mono (by decide), ?_⟩
    have hlt : (cpu₀.regs .r0).toNat < (cpu₀.regs .r1).toNat := by
      rw [hprepared.carry] at hcarry
      simpa using hcarry
    rw [hprepared.result, Nat.div_eq_of_lt hlt]
    rfl

/-! ## Quotient and remainder -/

/-- What `__aeabi_uidivmod` and `__aeabi_idivmod` save. -/
def saved : List Reg := [.r0, .r1, .ip, .lr]

/-- The words below the stack pointer that the routines use. -/
def frame (cpu : Cpu) (n : ℕ) : Word := cpu.regs .sp - 4 * BitVec.ofNat 32 n

/-- What a routine for quotient and remainder leaves: the quotient in `r0`, the remainder in `r1`,
and all registers that are not for arguments, with the memory above the stack pointer. -/
structure DivMod (f : Word → Word → Word) (cpu₀ cpu : Cpu) : Prop where
  quotient : cpu.regs .r0 = f (cpu₀.regs .r0) (cpu₀.regs .r1)
  remainder : cpu.regs .r1
    = cpu₀.regs .r0 - f (cpu₀.regs .r0) (cpu₀.regs .r1) * cpu₀.regs .r1
  regs : ∀ r, r ∉ [Reg.r0, .r1, .r2, .r3] → cpu.regs r = cpu₀.regs r
  mem : ∀ w, (∀ i < 4, w ≠ wordAt (frame cpu₀ 4 + BitVec.ofNat 32 (4 * i))) →
    cpu.mem w = cpu₀.mem w

/-- The saved registers are found again after a call that keeps the memory. -/
theorem regs_pop (cpu₀ : Cpu) {cpu₁ cpu : Cpu}
    (hcpu₁ : cpu₁.mem = (cpu₀.storeAll (frame cpu₀ 4) saved).mem) (hmem : cpu.mem = cpu₁.mem)
    (hsp : cpu.regs .sp = frame cpu₀ 4) :
    let cpu' := Op.exec cpu (.pop [.r1, .r2, .ip, .lr])
    cpu'.regs .r1 = cpu₀.regs .r0 ∧ cpu'.regs .r2 = cpu₀.regs .r1 ∧
      cpu'.regs .ip = cpu₀.regs .ip ∧ cpu'.regs .lr = cpu₀.regs .lr ∧
      cpu'.regs .sp = cpu₀.regs .sp := by
  have hload : ∀ i (hi : i < saved.length),
      cpu.load (frame cpu₀ 4 + BitVec.ofNat 32 (4 * i)) = cpu₀.regs saved[i] := by
    intro i hi
    unfold load
    rw [hmem, hcpu₁]
    exact load_storeAll (by decide) hi
  have hpop : ∀ i (hi : i < [Reg.r1, .r2, .ip, .lr].length),
      (cpu.loadAll (frame cpu₀ 4) [.r1, .r2, .ip, .lr]).regs [Reg.r1, .r2, .ip, .lr][i]
        = cpu₀.regs saved[i] := by
    intro i hi
    rw [regs_loadAll (by decide) hi, hload i hi]
  simp only [Op.exec, hsp]
  refine ⟨?_, ?_, ?_, ?_, ?_⟩
  · rw [regs_set_ne (by decide)]
    exact hpop 0 (by decide)
  · rw [regs_set_ne (by decide)]
    exact hpop 1 (by decide)
  · rw [regs_set_ne (by decide)]
    exact hpop 2 (by decide)
  · rw [regs_set_ne (by decide)]
    exact hpop 3 (by decide)
  · rw [regs_set_self]
    unfold frame
    exact BitVec.sub_add_cancel _ _

/-- The remainder, from the dividend and the quotient. -/
theorem mulSub_exec (cpu : Cpu) :
    Op.exec (Op.exec cpu (.mul .r3 .r0 .r2)) (sub .r1 .r1 (reg .r3))
      = (cpu.set .r3 (cpu.regs .r0 * cpu.regs .r2)).set .r1
          (cpu.regs .r1 - cpu.regs .r0 * cpu.regs .r2) := by
  simp

/-- **A routine for quotient and remainder**, from the one for the quotient that it calls. -/
theorem leads_divmod {k e N : ℕ} {l : Label} {f : Word → Word → Word}
    (hpush : p.HasAt k [Conditional.instr (.al, .push saved)]) (hbl : p.HasAt (k + 1) [.bl l])
    (hpop : p.HasAt (k + 2) ([(.al, .pop [.r1, .r2, .ip, .lr]), (.al, .mul .r3 .r0 .r2),
      (.al, sub .r1 .r1 (reg .r3))].map Conditional.instr))
    (hret : p.HasAt (k + 5) [.movPc .al .lr]) (hl : p.address l = p.addr e)
    (hcallee : ∀ cpu₁ : Cpu, cpu₁.regs .r1 ≠ 0 →
      p.Leads N (p.addr e) (· = cpu₁) (cpu₁.regs .lr) fun cpu =>
        cpu.regs .r0 = f (cpu₁.regs .r0) (cpu₁.regs .r1) ∧
          Changes [.r0, .r1, .r2, .r3, .ip] cpu₁ cpu)
    (hd : cpu₀.regs .r1 ≠ 0) :
    p.Leads (N + 6) (p.addr k) (· = cpu₀) (cpu₀.regs .lr) (DivMod f cpu₀) := by
  have h1 : p.Leads 1 (p.addr k) (· = cpu₀) (p.addr (k + 1))
      (· = (cpu₀.storeAll (frame cpu₀ 4) saved).set .sp (frame cpu₀ 4)) := by
    refine Leads.block (l := [(.al, .push saved)]) hpush ?_
    rintro cpu rfl
    rfl
  have h2 := h1.seq (Leads.call hbl (Q := (· = ((cpu₀.storeAll (frame cpu₀ 4) saved).set .sp
    (frame cpu₀ 4)).set .lr (p.addr (k + 2)))) (by
      rintro cpu rfl
      rfl))
  rw [hl] at h2
  have hargs := hcallee (((cpu₀.storeAll (frame cpu₀ 4) saved).set .sp (frame cpu₀ 4)).set .lr
    (p.addr (k + 2))) (by simpa using hd)
  rw [regs_set_self] at hargs
  have h3 := (h2.seq hargs).seq (Leads.block hpop (Q := DivMod f cpu₀) ?_)
  · refine (h3.seq (Leads.ret hret ?_)).mono (by simp; omega)
    intro cpu hcpu
    exact ⟨rfl, hcpu.regs .lr (by decide)⟩
  · rintro cpu ⟨hquot, hchanges⟩
    obtain ⟨hr1, hr2, hip, hlr, hsp⟩ := regs_pop cpu₀ rfl hchanges.mem (by
      rw [hchanges.regs .sp (by decide), regs_set_ne (by decide), regs_set_self])
    have hother : ∀ r, r ∉ [Reg.r1, .r2, .ip, .lr, .sp] →
        (Op.exec cpu (.pop [.r1, .r2, .ip, .lr])).regs r = cpu.regs r := by
      intro r hr
      simp only [List.mem_cons, List.not_mem_nil, or_false, not_or] at hr
      rw [Op.exec, regs_set_ne hr.2.2.2.2, regs_loadAll_of_not_mem (by simp [hr])]
    have hmem : (Op.exec cpu (.pop [.r1, .r2, .ip, .lr])).mem
        = (cpu₀.storeAll (frame cpu₀ 4) saved).mem := by
      rw [Op.exec, mem_set, mem_loadAll, hchanges.mem]
      rfl
    have hr0 := hother .r0 (by decide)
    simp only [List.foldl_cons, List.foldl_nil, Conditional.exec, Cond.holds, if_true, mulSub_exec]
    generalize hpopped : Op.exec cpu (.pop [.r1, .r2, .ip, .lr]) = popped at *
    constructor
    · simpa [hr0] using hquot
    · simp [hr1, hr2, hr0, hquot]
    · intro r hr
      simp only [List.mem_cons, List.not_mem_nil, or_false, not_or] at hr
      rw [regs_set_ne hr.2.1, regs_set_ne hr.2.2.2]
      by_cases hsaved : r ∈ [Reg.ip, .lr, .sp]
      · simp only [List.mem_cons, List.not_mem_nil, or_false] at hsaved
        rcases hsaved with rfl | rfl | rfl
        · exact hip
        · exact hlr
        · exact hsp
      · simp only [List.mem_cons, List.not_mem_nil, or_false, not_or] at hsaved
        rw [hother r (by simp [hr, hsaved]), hchanges.regs r (by simp [hr, hsaved]),
          regs_set_ne hsaved.2.1, regs_set_ne hsaved.2.2, regs_storeAll]
    · intro w hw
      rw [mem_set, mem_set, hmem]
      exact mem_storeAll hw

end Division
