/-
# Objects behind a protocol

`New` and `Delete` are the two members that the callers' side does not only hand on.  `New` has
the system allocate the object, by the name of the protocol, which stands among its instructions,
and the name of the implementation, and then calls the `New` of the class with the arguments of its
caller.  `Delete` calls the `Delete` of the class and then gives the object back.  In between they
keep what they need on the stack.
-/
import NewtonTLS.ProtocolCalls

open Arm

namespace NewtonTLS

namespace Protocols

/-! ## Functions that are not part of the project -/

/-- What a called function keeps: the registers from `r4` on, the stack pointer, and the `n` words
that its caller has put on the stack last. -/
structure Kept (n : ℕ) (cpu cpu' : Cpu) : Prop where
  regs : ∀ r, r ≠ .r0 → r ≠ .r1 → r ≠ .r2 → r ≠ .r3 → r ≠ .ip → r ≠ .lr →
    cpu'.regs r = cpu.regs r
  frame : ∀ i < n, cpu'.load (cpu.regs .sp + BitVec.ofNat 32 (4 * i)) =
    cpu.load (cpu.regs .sp + BitVec.ofNat 32 (4 * i))

theorem Kept.sp {n : ℕ} {cpu cpu' : Cpu} (h : Kept n cpu cpu') :
    cpu'.regs .sp = cpu.regs .sp :=
  h.regs .sp (by decide) (by decide) (by decide) (by decide) (by decide) (by decide)

/-- The words of the caller are where its own stack pointer says. -/
theorem Kept.load {n i : ℕ} {cpu cpu' : Cpu} (h : Kept n cpu cpu') (hi : i < n) :
    cpu'.load (cpu'.regs .sp + BitVec.ofNat 32 (4 * i)) =
      cpu.load (cpu.regs .sp + BitVec.ofNat 32 (4 * i)) := by
  rw [h.sp]
  exact h.frame i hi

section

variable {Member : Type}

/-! ## The text of `New` -/

/-- Words are instructions that are never run. -/
theorem instrs_words (ws : List Word) (t : List (Line (Symbol Member))) :
    instrs (words ws ++ t) = ws.map Instr.word ++ instrs t := by
  induction ws with
  | nil => rfl
  | cons w ws ih => exact congrArg (Instr.word w :: ·) ih

/-- Labels lie behind the words. -/
theorem offset?_words [DecidableEq Member] (l : Symbol Member) (ws : List Word)
    (t : List (Line (Symbol Member))) :
    offset? l (words ws ++ t) = (offset? l t).map (· + ws.length) := by
  induction ws with
  | nil => simp [words]
  | cons w ws ih =>
    show (offset? l (words ws ++ t)).map (· + 1) = _
    rw [ih, Option.map_map]
    congr 1

/-- The instructions of `New` behind the name of the protocol. -/
def newInstrs : List (Instr (Symbol Member)) := [
  .op .al (.push [.r0, .r1, .r2, .r3, .lr]),
  .op .al (.mov false .r1 (.reg .r0)),
  .bl .asciz,
  .bl .allocInstanceByName,
  .op .al (.test .tst .r0 (.reg .r0)),
  .op .al (.binary .add false .sp .sp (.imm 4)),
  .op .al (.pop [.r1, .r2, .r3, .lr]),
  .movPc .eq .lr,
  .op .al (.ldr .r0 .r0 4),
  .op .al (.ldr .ip .r0 8),
  .addPc .ip 8]

theorem instrs_newFunction (m : Member) (ws : List Word) :
    instrs (newFunction m ws) =
      [.movFromPc .r0, .movPc .al .lr] ++ (ws.map Instr.word ++ newInstrs) := by
  unfold newFunction
  rw [List.append_assoc, List.append_assoc]
  show .movFromPc .r0 :: .movPc .al .lr :: instrs (words ws ++ _) = _
  rw [instrs_words]
  rfl

section

variable [DecidableEq Member]

/-- The glue is behind the name of the protocol. -/
theorem offset?_glue (m : Member) (ws : List Word) :
    offset? (.glue m) (newFunction m ws) = some (2 + ws.length) := by
  unfold newFunction
  rw [List.append_assoc, List.append_assoc]
  show ((offset? (.glue m) (words ws ++ _)).map (· + 1)).map (· + 1) = _
  rw [offset?_words]
  simp only [List.cons_append, offset?, if_true, Option.map_some]
  rw [Nat.zero_add, Nat.add_assoc, Nat.add_comm]

/-- The function of the ROM is not in the text. -/
theorem offset?_allocInstanceByName (m : Member) (ws : List Word) :
    offset? .allocInstanceByName (newFunction m ws) = none := by
  unfold newFunction
  rw [List.append_assoc, List.append_assoc]
  show ((offset? .allocInstanceByName (words ws ++ _)).map (· + 1)).map (· + 1) = _
  rw [offset?_words]
  rfl

end

end

/-! ## `New` -/

namespace Placement

variable {Member : Type} {c : Class Member} (p : Placement c)

/-- Where the call of the system returns to. -/
def newReturn : Word := (c.newProgram p.newAt p.external).addr (2 + (string c.protocol).length + 4)

/-- The name of the protocol. -/
def nameAt : Word := (c.newProgram p.newAt p.external).addr 2

/-- The processor with which the system is called. -/
def asked (cpu : Cpu) : Cpu :=
  ((((Op.push [.r0, .r1, .r2, .r3, .lr]).exec cpu).set .r1 (cpu.regs .r0)).set .r0 p.nameAt).set
    .lr p.newReturn

/-- The stack pointer of the called function. -/
theorem asked_sp (cpu : Cpu) : (p.asked cpu).regs .sp = cpu.regs .sp - 20#32 := by
  simp [asked]

/-- What `New` has put on the stack. -/
theorem asked_frame (cpu : Cpu) {i : ℕ} (hi : i < 5) :
    (p.asked cpu).load (cpu.regs .sp - 20#32 + BitVec.ofNat 32 (4 * i)) =
      cpu.regs ([.r0, .r1, .r2, .r3, .lr].get ⟨i, hi⟩) := by
  show (cpu.storeAll (cpu.regs .sp - 20#32) [.r0, .r1, .r2, .r3, .lr]).load _ = _
  exact Cpu.load_storeAll (by simp) hi

/-- The registers that `New` does not use are as they were. -/
theorem asked_regs (cpu : Cpu) {r : Reg} (hr0 : r ≠ .r0) (hr1 : r ≠ .r1) (hsp : r ≠ .sp)
    (hlr : r ≠ .lr) : (p.asked cpu).regs r = cpu.regs r := by
  simp [asked, hr0, hr1, hsp, hlr]

/-- The processor after the system has returned and the arguments are back. -/
structure Restored (cpu cpu₂ cpu' : Cpu) : Prop where
  result : cpu'.regs .r0 = cpu₂.regs .r0
  zero : cpu'.flags.z = (cpu₂.regs .r0 == 0#32)
  regs : ∀ r, r ≠ .r0 → r ≠ .ip → cpu'.regs r = cpu.regs r
  mem : cpu'.mem = cpu₂.mem

/-- The stack of the caller comes back with its arguments. -/
theorem restored {cpu cpu₂ : Cpu} (h : Kept 5 (p.asked cpu) cpu₂) :
    Restored cpu cpu₂ ([(Cond.al, Op.test .tst .r0 (.reg .r0)),
      (.al, .binary .add false .sp .sp (.imm 4)),
      (.al, .pop [.r1, .r2, .r3, .lr])].foldl Conditional.exec cpu₂) where
  result := by simp [Cpu.loadAll]
  zero := by simp [Cpu.loadAll, Flags.logical]
  regs := by
    intro r hr0 hip
    have hsp : cpu₂.regs .sp = cpu.regs .sp - 20#32 := by
      rw [h.sp, asked_sp]
    have hframe : ∀ i (hi : i < 5), cpu₂.load (cpu₂.regs .sp + BitVec.ofNat 32 (4 * i)) =
        cpu.regs ([.r0, .r1, .r2, .r3, .lr].get ⟨i, hi⟩) := by
      intro i hi
      rw [h.load hi, asked_sp, p.asked_frame cpu hi]
    by_cases hstack : r = .sp
    · subst hstack
      have hback : cpu.regs .sp - 20#32 + 4#32 + 16#32 = cpu.regs .sp := by bv_omega
      simpa [hsp] using hback
    rw [show List.foldl Conditional.exec cpu₂ _ = Cpu.set (Cpu.loadAll _ _ _) .sp _ from rfl,
      Cpu.regs_set_ne hstack]
    by_cases hmem : r ∈ [Reg.r1, .r2, .r3, .lr]
    · obtain ⟨i, hi, rfl⟩ := List.getElem_of_mem hmem
      rw [Cpu.regs_loadAll (by decide) hi]
      have hback := hframe (i + 1) (Nat.succ_lt_succ hi)
      rw [Cpu.add_ofNat_succ] at hback
      simpa using hback
    · rw [Cpu.regs_loadAll_of_not_mem hmem]
      simp only [List.mem_cons, List.not_mem_nil, or_false, not_or] at hmem
      obtain ⟨hr1, hr2, hr3, hlr⟩ := hmem
      have hkept := h.regs r hr0 hr1 hr2 hr3 hip hlr
      rw [asked_regs _ _ hr0 hr1 hstack hlr] at hkept
      simpa [hstack] using hkept
  mem := by simp [Cpu.loadAll]

/-- The function that gives the address of the name. -/
theorem new_hasAt_asciz :
    (c.newProgram p.newAt p.external).HasAt 0 [.movFromPc .r0, .movPc .al .lr] := by
  unfold Program.HasAt
  show List.take 2 (List.drop 0 (instrs (newFunction c.new (string c.protocol)))) = _
  rw [instrs_newFunction]
  rfl

/-- The glue of `New` in the program. -/
theorem new_hasAt : (c.newProgram p.newAt p.external).HasAt (2 + (string c.protocol).length)
    newInstrs := by
  unfold Program.HasAt
  show List.take 11 (List.drop _ (instrs (newFunction c.new (string c.protocol)))) = _
  rw [instrs_newFunction, ← List.append_assoc, List.drop_left']
  · rfl
  · rw [List.length_append, List.length_map]
    rfl

variable [DecidableEq Member]

/-- The address that a caller of `New` is linked with. -/
def newEntry : Word := (c.newProgram p.newAt p.external).address (.glue c.new)

/-- The address that a caller of `Delete` is linked with. -/
def deleteEntry : Word := (c.deleteProgram p.deleteAt p.external).address (.glue c.delete)

/-- The first half of `New`, up to the call of the system. -/
theorem leads_ask (cpu : Cpu) : (c.newProgram p.newAt p.external).Leads 6 p.newEntry (· = cpu)
    (p.external .allocInstanceByName) (· = p.asked cpu) := by
  let q := c.newProgram p.newAt p.external
  let k := 2 + (string c.protocol).length
  have hentry : p.newEntry = q.addr k := by
    unfold newEntry Program.address
    rw [show offset? (.glue c.new) (c.newProgram p.newAt p.external).text = _ from
      offset?_glue c.new (string c.protocol)]
  have hasciz : q.address .asciz = q.addr 0 := rfl
  have halloc : q.address .allocInstanceByName = p.external .allocInstanceByName := by
    unfold Program.address
    rw [show offset? .allocInstanceByName q.text = _ from
      offset?_allocInstanceByName c.new (string c.protocol)]
    rfl
  let cpu₁ := ((Op.push [.r0, .r1, .r2, .r3, .lr]).exec cpu).set .r1 (cpu.regs .r0)
  have hblock : q.Leads 2 (q.addr k) (· = cpu) (q.addr (k + 2)) (· = cpu₁) := by
    apply Program.Leads.block
      (l := [(.al, .push [.r0, .r1, .r2, .r3, .lr]), (.al, .mov false .r1 (.reg .r0))])
    · exact Program.HasAt.left p.new_hasAt
    · rintro _ rfl
      simp [cpu₁]
  have hname : q.Leads 1 (q.addr (k + 2)) (· = cpu₁) (q.addr 0)
      (· = cpu₁.set .lr (q.addr (k + 3))) := by
    rw [← hasciz]
    apply Program.Leads.call (p.new_hasAt.nth (j := 2) rfl)
    rintro _ rfl
    rfl
  have hread : q.Leads 1 (q.addr 0) (· = cpu₁.set .lr (q.addr (k + 3))) (q.addr 1)
      (· = (cpu₁.set .lr (q.addr (k + 3))).set .r0 p.nameAt) := by
    apply Program.Leads.movFromPc (p.new_hasAt_asciz.nth (j := 0) rfl)
    rintro _ rfl
    rfl
  have hback : q.Leads 1 (q.addr 1) (· = (cpu₁.set .lr (q.addr (k + 3))).set .r0 p.nameAt)
      (q.addr (k + 3)) (· = (cpu₁.set .lr (q.addr (k + 3))).set .r0 p.nameAt) := by
    apply Program.Leads.ret (p.new_hasAt_asciz.nth (j := 1) rfl)
    rintro _ rfl
    exact ⟨rfl, rfl⟩
  have hcall : q.Leads 1 (q.addr (k + 3)) (· = (cpu₁.set .lr (q.addr (k + 3))).set .r0 p.nameAt)
      (p.external .allocInstanceByName) (· = p.asked cpu) := by
    rw [← halloc]
    apply Program.Leads.call (p.new_hasAt.nth (j := 3) rfl)
    rintro _ rfl
    have hcomm : (cpu₁.set .lr (q.addr (k + 3))).set .r0 p.nameAt =
        (cpu₁.set .r0 p.nameAt).set .lr (q.addr (k + 3)) := Cpu.set_comm (by decide)
    rw [hcomm, Cpu.set_set_self]
    rfl
  rw [hentry]
  exact hblock.seq (hname.seq (hread.seq (hback.seq hcall)))

/-- The system comes back, and the arguments are taken from the stack. -/
theorem leads_restored {cpu cpu₂ : Cpu} (h : Kept 5 (p.asked cpu) cpu₂) :
    (c.newProgram p.newAt p.external).Leads 3 p.newReturn (· = cpu₂)
      ((c.newProgram p.newAt p.external).addr (2 + (string c.protocol).length + 7))
      (Restored cpu cpu₂) := by
  have hat : (c.newProgram p.newAt p.external).HasAt (2 + (string c.protocol).length + 4)
      (newInstrs.drop 4) := p.new_hasAt.tail.tail.tail.tail
  apply Program.Leads.block (l := [(Cond.al, Op.test .tst .r0 (.reg .r0)),
    (.al, .binary .add false .sp .sp (.imm 4)), (.al, .pop [.r1, .r2, .r3, .lr])])
  · exact hat.left
  · rintro _ rfl
    exact p.restored h

/-- There is no object: the caller gets nil. -/
theorem leads_nil {cpu cpu₂ : Cpu} (h : Kept 5 (p.asked cpu) cpu₂) (hnil : cpu₂.regs .r0 = 0#32) :
    (c.newProgram p.newAt p.external).Leads 4 p.newReturn (· = cpu₂) (cpu.regs .lr)
      (Restored cpu cpu₂) := by
  refine (p.leads_restored h).seq (Program.Leads.ret (p.new_hasAt.nth (j := 7) rfl) ?_)
  intro cpu' hback
  constructor
  · rw [Cond.holds, hback.zero, hnil]
    rfl
  · exact hback.regs .lr (by decide) (by decide)

/-- There is an object: its class is called, as a caller would call it. -/
theorem leads_made {cpu cpu₂ : Cpu} {object : Word} (h : Kept 5 (p.asked cpu) cpu₂)
    (hmade : cpu₂.regs .r0 ≠ 0#32) (hrefers : Refers cpu₂ (cpu₂.regs .r0) object p.btbl) :
    (c.newProgram p.newAt p.external).Leads 7 p.newReturn (· = cpu₂) (p.btbl + 8#32)
      (fun cpu' => ∃ cpu₃, Restored cpu cpu₂ cpu₃ ∧ cpu' = dispatched cpu₃ object p.btbl) := by
  have hstay : (c.newProgram p.newAt p.external).Leads 1
      ((c.newProgram p.newAt p.external).addr (2 + (string c.protocol).length + 7))
      (Restored cpu cpu₂)
      ((c.newProgram p.newAt p.external).addr (2 + (string c.protocol).length + 8))
      (Restored cpu cpu₂) := by
    apply Program.Leads.stay (p.new_hasAt.nth (j := 7) rfl)
    intro cpu' hback
    rw [Cond.holds, hback.zero]
    simpa using hmade
  have hcall : (c.newProgram p.newAt p.external).Leads 3
      ((c.newProgram p.newAt p.external).addr (2 + (string c.protocol).length + 8))
      (Restored cpu cpu₂) (p.btbl + 8#32)
      (fun cpu' => ∃ cpu₃, Restored cpu cpu₂ cpu₃ ∧ cpu' = dispatched cpu₃ object p.btbl) := by
    intro cpu₃ hback
    have hobject : Refers cpu₃ (cpu₃.regs .r0) object p.btbl := by
      constructor
      · rw [hback.result, Cpu.load, hback.mem]
        exact hrefers.points
      · rw [Cpu.load, hback.mem]
        exact hrefers.branches
    have hat : (c.newProgram p.newAt p.external).HasAt (2 + (string c.protocol).length + 8)
        (instrs (dispatch 2)) := p.new_hasAt.tail.tail.tail.tail.tail.tail.tail.tail
    obtain ⟨n, hn, cpu', hrun, rfl⟩ := leads_dispatch hat hobject cpu₃ rfl
    exact ⟨n, hn, _, hrun, cpu₃, hback, rfl⟩
  exact (p.leads_restored h).seq (hstay.seq hcall)

/-- The second slot of the table. -/
theorem leads_new_slot {P : Cpu → Prop} {a : Word} (h : ∀ cpu, P cpu → cpu.regs .lr = a) :
    (c.table p.btbl p.external).Leads 1 (p.btbl + 8#32) P
      (if c.hasNew then p.own c.new else a) P := by
  have hagree := c.agreeNew
  cases hnew : c.hasNew with
  | true =>
    rw [hnew] at hagree
    exact Program.Leads.branch (k := 2) (.of_getElem? hagree) fun _ _ => rfl
  | false =>
    rw [hnew] at hagree
    exact Program.Leads.ret (k := 2) (.of_getElem? hagree) fun cpu hcpu => ⟨rfl, h cpu hcpu⟩

omit [DecidableEq Member] in
/-- The words of the name of the protocol. -/
theorem fetch_name {i : ℕ} {w : Word} (h : (string c.protocol)[i]? = some w) :
    (c.newProgram p.newAt p.external).fetch (p.nameAt + BitVec.ofNat 32 (4 * i)) =
      some (.word w) := by
  obtain ⟨hi, rfl⟩ := List.getElem?_eq_some_iff.mp h
  have hat : (c.newProgram p.newAt p.external).HasAt 2
      ((string c.protocol).map Instr.word ++ newInstrs) := by
    unfold Program.HasAt
    show List.take _ (List.drop 2 (instrs (newFunction c.new (string c.protocol)))) = _
    rw [instrs_newFunction]
    exact List.take_length
  have hword := (hat.left.nth (j := i) (i := .word (string c.protocol)[i]) (by simp [hi])).head
  have haddr : p.nameAt + BitVec.ofNat 32 (4 * i) =
      (c.newProgram p.newAt p.external).addr (2 + i) := by
    unfold nameAt Program.addr
    bv_omega
  rw [haddr, hword]

end Placement

/-- What `New` asks the system for: an object by the name of the protocol and the name of the
implementation, with the other registers and the stack as they were. -/
structure Asked {Member : Type} {c : Class Member} (p : Placement c) (cpu cpu₁ : Cpu) :
    Prop where
  protocol : ∀ i w, (string c.protocol)[i]? = some w →
    (c.newProgram p.newAt p.external).fetch (cpu₁.regs .r0 + BitVec.ofNat 32 (4 * i)) =
      some (.word w)
  implementation : cpu₁.regs .r1 = cpu.regs .r0
  stack : cpu₁.regs .sp = cpu.regs .sp - 20#32
  regs : ∀ r, r ≠ .r0 → r ≠ .r1 → r ≠ .sp → r ≠ .lr → cpu₁.regs r = cpu.regs r
  mem : ∀ w, (∀ i < 5, w ≠ Cpu.wordAt (cpu.regs .sp - 20#32 + BitVec.ofNat 32 (4 * i))) →
    cpu₁.mem w = cpu.mem w

/-- What the function of the ROM is asked. -/
theorem Placement.asked_spec {Member : Type} {c : Class Member} (p : Placement c)
    (cpu : Cpu) : Asked p cpu (p.asked cpu) where
  protocol := by
    intro i w hw
    have hr0 : (p.asked cpu).regs .r0 = p.nameAt := by simp [asked]
    rw [hr0]
    exact p.fetch_name hw
  implementation := by simp [asked]
  stack := p.asked_sp cpu
  regs := fun r => p.asked_regs cpu
  mem := by
    intro w hw
    show (cpu.storeAll (cpu.regs .sp - 20#32) [.r0, .r1, .r2, .r3, .lr]).mem w = _
    exact Cpu.mem_storeAll hw

/-- The registers of the caller of `New` or `Delete` at the end: all but `r0` and `ip` are as they
were, and the memory is as the called function has left it. -/
structure CameBack (r0 : Word) (cpu cpu₂ cpu' : Cpu) : Prop where
  result : cpu'.regs .r0 = r0
  regs : ∀ r, r ≠ .r0 → r ≠ .ip → cpu'.regs r = cpu.regs r
  mem : cpu'.mem = cpu₂.mem

/-- **`New`.**  A call of `New` reaches the system, with the name of the protocol and the name that
the caller has given, in at most six instructions.  When the system comes back with nil, so does
`New`, with every other register as it was.  When it comes back with an object, the `New` of its
class is called on it as if by the caller; a class that has none comes back to the caller with the
object. -/
theorem new_arrives (k : Protocol) (p : Placement k.cls) (cpu : Cpu) :
    ∃ n ≤ 6, ∃ cpu₁,
      p.image.run n ⟨cpu, p.newEntry⟩ = some ⟨cpu₁, p.external .allocInstanceByName⟩ ∧
      Asked p cpu cpu₁ ∧
      ∀ cpu₂, Kept 5 cpu₁ cpu₂ →
        (cpu₂.regs .r0 = 0#32 → ∃ n ≤ 4, ∃ cpu₃,
          p.image.run n ⟨cpu₂, cpu₁.regs .lr⟩ = some ⟨cpu₃, cpu.regs .lr⟩ ∧
          CameBack 0#32 cpu cpu₂ cpu₃) ∧
        ∀ object, cpu₂.regs .r0 ≠ 0#32 → Refers cpu₂ (cpu₂.regs .r0) object p.btbl →
          ∃ n ≤ 8, ∃ cpu₃, p.image.run n ⟨cpu₂, cpu₁.regs .lr⟩ =
              some ⟨cpu₃, if k.cls.hasNew then p.own k.cls.new else cpu.regs .lr⟩ ∧
            CameBack object cpu cpu₂ cpu₃ := by
  obtain ⟨n, hn, _, hrun, rfl⟩ := Image.leads_of_mem p.new_mem (p.leads_ask cpu) cpu rfl
  refine ⟨n, hn, p.asked cpu, hrun, ?_, ?_⟩
  · exact p.asked_spec cpu
  · intro cpu₂ hkept
    constructor
    · intro hnil
      obtain ⟨n, hn, cpu₃, hrun, hback⟩ :=
        Image.leads_of_mem p.new_mem (p.leads_nil hkept hnil) cpu₂ rfl
      exact ⟨n, hn, cpu₃, hrun, hback.result.trans hnil, hback.regs, hback.mem⟩
    · intro object hmade hrefers
      have hslot : (k.cls.table p.btbl p.external).Leads 1 (p.btbl + 8#32)
          (fun cpu' => ∃ cpu₃, Placement.Restored cpu cpu₂ cpu₃ ∧
            cpu' = dispatched cpu₃ object p.btbl)
          (if k.cls.hasNew then p.own k.cls.new else cpu.regs .lr)
          (fun cpu' => ∃ cpu₃, Placement.Restored cpu cpu₂ cpu₃ ∧
            cpu' = dispatched cpu₃ object p.btbl) := by
        apply p.leads_new_slot
        rintro _ ⟨cpu₃, hback, rfl⟩
        simpa [dispatched] using hback.regs .lr (by decide) (by decide)
      have hmember := Image.leads_of_mem p.new_mem (p.leads_made hkept hmade hrefers)
      obtain ⟨n, hn, _, hrun, cpu₃, hback, rfl⟩ :=
        hmember.seq (Image.leads_of_mem p.table_mem hslot) cpu₂ rfl
      refine ⟨n, hn, _, hrun, ?_, ?_, hback.mem⟩
      · simp [dispatched]
      · intro r hr0 hip
        simpa [dispatched, hr0, hip] using hback.regs r hr0 hip

/-- Where `AllocInstanceByName` finds nothing, the caller of `PConnectionEnd::New` gets nil. -/
theorem new_arrives_calling : ∃ n ≤ 6, ∃ cpu₁, connectionEndPlaced.image.run n
    ⟨calling, connectionEndPlaced.newEntry⟩ = some ⟨cpu₁, 0x20000#32⟩ ∧
      ∃ m ≤ 4, ∃ cpu₃, connectionEndPlaced.image.run m ⟨cpu₁.set .r0 0#32, cpu₁.regs .lr⟩ =
        some ⟨cpu₃, calling.regs .lr⟩ := by
  obtain ⟨n, hn, cpu₁, hrun, _, hback⟩ := new_arrives .connectionEnd connectionEndPlaced calling
  have hkept : Kept 5 cpu₁ (cpu₁.set .r0 0#32) :=
    ⟨fun r hr0 _ _ _ _ _ => Cpu.regs_set_ne hr0, fun _ _ => rfl⟩
  obtain ⟨m, hm, cpu₃, hreturn, _⟩ := (hback _ hkept).1 Cpu.regs_set_self
  exact ⟨n, hn, cpu₁, hrun, m, hm, cpu₃, hreturn⟩

/-! ## `Delete` -/

namespace Placement

variable {Member : Type} {c : Class Member} (p : Placement c)

/-- Where the `Delete` of the class returns to. -/
def deleteReturn : Word := (c.deleteProgram p.deleteAt p.external).addr 5

/-- The processor with which the `Delete` of the class is called. -/
def deleting (cpu : Cpu) (object : Word) : Cpu :=
  (((Op.push [.r0, .lr]).exec (cpu.set .r0 object)).set .lr p.deleteReturn).set .ip p.btbl

/-- `Delete` saves two registers. -/
theorem deleting_sp (cpu : Cpu) (object : Word) :
    (p.deleting cpu object).regs .sp = cpu.regs .sp - 8#32 := by
  simp [deleting]

/-- What `Delete` has put on the stack. -/
theorem deleting_frame (cpu : Cpu) (object : Word) {i : ℕ} (hi : i < 2) :
    (p.deleting cpu object).load (cpu.regs .sp - 8#32 + BitVec.ofNat 32 (4 * i)) =
      (cpu.set .r0 object).regs ([.r0, .lr].get ⟨i, hi⟩) := by
  show ((cpu.set .r0 object).storeAll (cpu.regs .sp - 8#32) [.r0, .lr]).load _ = _
  exact Cpu.load_storeAll (by simp) hi

theorem deleting_regs (cpu : Cpu) (object : Word) {r : Reg} (hr0 : r ≠ .r0) (hip : r ≠ .ip)
    (hsp : r ≠ .sp) (hlr : r ≠ .lr) : (p.deleting cpu object).regs r = cpu.regs r := by
  simp [deleting, hr0, hip, hsp, hlr]

/-- The glue of `Delete` in the program. -/
theorem delete_hasAt : (c.deleteProgram p.deleteAt p.external).HasAt 0
    (instrs (deleteFunction c.delete)) := rfl

variable [DecidableEq Member]

/-- The first half of `Delete`, up to the call of the class. -/
theorem leads_deleting {cpu : Cpu} {object : Word}
    (h : Refers cpu (cpu.regs .r0) object p.btbl)
    (hfree : ∀ i < 2, Cpu.wordAt (object + 8#32) ≠
      Cpu.wordAt (cpu.regs .sp - 8#32 + BitVec.ofNat 32 (4 * i))) :
    (c.deleteProgram p.deleteAt p.external).Leads 5 p.deleteEntry (· = cpu) (p.btbl + 12#32)
      (· = p.deleting cpu object) := by
  let q := c.deleteProgram p.deleteAt p.external
  let cpu₁ := (Op.push [.r0, .lr]).exec (cpu.set .r0 object)
  have hload : cpu₁.load (object + 8#32) = p.btbl := by
    rw [← h.branches]
    show ((cpu.set .r0 object).storeAll (cpu.regs .sp - 8#32) [.r0, .lr]).mem _ = _
    exact Cpu.mem_storeAll hfree
  have hpush : q.Leads 2 (q.addr 0) (· = cpu) (q.addr 2) (· = cpu₁) := by
    apply Program.Leads.block (l := [(.al, .ldr .r0 .r0 4), (.al, .push [.r0, .lr])])
    · exact p.delete_hasAt.left
    · rintro _ rfl
      simp [cpu₁, h.points]
  have hreturn : q.Leads 1 (q.addr 2) (· = cpu₁) (q.addr 3)
      (· = cpu₁.set .lr p.deleteReturn) := by
    apply Program.Leads.adr (p.delete_hasAt.nth (j := 2) rfl)
    rintro _ rfl
    rfl
  have htable : q.Leads 1 (q.addr 3) (· = cpu₁.set .lr p.deleteReturn) (q.addr 4)
      (· = p.deleting cpu object) := by
    apply Program.Leads.block (l := [(.al, .ldr .ip .r0 8)])
    · exact p.delete_hasAt.nth (j := 3) rfl
    · rintro _ rfl
      have hr0 : cpu₁.regs .r0 = object := by simp [cpu₁]
      show (cpu₁.set .lr p.deleteReturn).set .ip (cpu₁.load (cpu₁.regs .r0 + 8#32)) = _
      rw [hr0, hload]
      rfl
  have hjump : q.Leads 1 (q.addr 4) (· = p.deleting cpu object) (p.btbl + 12#32)
      (· = p.deleting cpu object) := by
    apply Program.Leads.jump (p.delete_hasAt.nth (j := 4) rfl)
    rintro _ rfl
    simp [deleting]
  have hentry : p.deleteEntry = q.addr 0 := by
    unfold deleteEntry Program.address
    rw [show offset? (.glue c.delete) (c.deleteProgram p.deleteAt p.external).text = some 0 from
      if_pos rfl]
  rw [hentry]
  exact hpush.seq (hreturn.seq (htable.seq hjump))

/-- The `Delete` of the class comes back, and the object is given back. -/
theorem leads_free {cpu cpu₂ : Cpu} {object : Word} (h : Kept 2 (p.deleting cpu object) cpu₂) :
    (c.deleteProgram p.deleteAt p.external).Leads 2 p.deleteReturn (· = cpu₂)
      (p.external .freeInstance)
      (fun cpu₃ => cpu₃.regs .r0 = object ∧
        (∀ r, r ≠ .r0 → r ≠ .r1 → r ≠ .r2 → r ≠ .r3 → r ≠ .ip → cpu₃.regs r = cpu.regs r) ∧
        cpu₃.mem = cpu₂.mem) := by
  let q := c.deleteProgram p.deleteAt p.external
  have hsp : cpu₂.regs .sp = cpu.regs .sp - 8#32 := by
    rw [h.sp, deleting_sp]
  have hframe : ∀ i (hi : i < 2), cpu₂.load (cpu₂.regs .sp + BitVec.ofNat 32 (4 * i)) =
      (cpu.set .r0 object).regs ([.r0, .lr].get ⟨i, hi⟩) := by
    intro i hi
    rw [h.load hi, deleting_sp, p.deleting_frame cpu object hi]
  have hobject : cpu₂.load (cpu₂.regs .sp) = object := by
    simpa using hframe 0 (by decide)
  have hlink : cpu₂.load (cpu₂.regs .sp + 4#32) = cpu.regs .lr := by
    simpa using hframe 1 (by decide)
  have hout : q.address .freeInstance = p.external .freeInstance := rfl
  have hpop : q.Leads 1 (q.addr 5) (· = cpu₂) (q.addr 6) (fun cpu₃ => cpu₃.regs .r0 = object ∧
      (∀ r, r ≠ .r0 → r ≠ .r1 → r ≠ .r2 → r ≠ .r3 → r ≠ .ip → cpu₃.regs r = cpu.regs r) ∧
      cpu₃.mem = cpu₂.mem) := by
    apply Program.Leads.block (l := [(.al, .pop [.r0, .lr])])
    · exact p.delete_hasAt.nth (j := 5) rfl
    rintro _ rfl
    refine ⟨?_, ?_, ?_⟩
    · simpa [Cpu.loadAll] using hobject
    · intro r hr0 hr1 hr2 hr3 hip
      by_cases hstack : r = .sp
      · subst hstack
        have hback : cpu.regs .sp - 8#32 + 4 * 2#32 = cpu.regs .sp := by bv_omega
        rw [← hback, ← hsp]
        rfl
      by_cases hlr : r = .lr
      · subst hlr
        simpa [Cpu.loadAll] using hlink
      have hkept := h.regs r hr0 hr1 hr2 hr3 hip hlr
      rw [deleting_regs _ _ _ hr0 hip hstack hlr] at hkept
      simpa [Cpu.loadAll, hr0, hstack, hlr] using hkept
    · simp [Cpu.loadAll]
  rw [← hout]
  exact hpop.seq (Program.Leads.branch (p.delete_hasAt.nth (j := 6) rfl) fun _ _ => rfl)

end Placement

/-- **`Delete`.**  A call of `Delete` reaches the `Delete` of the class in at most six instructions,
with the object as `this`; and when that comes back, the system is called to give the same object
back, with the stack and the return address of the caller, so that it returns there.  The words
that `Delete` puts on the stack must not be the object. -/
theorem delete_frees (k : Protocol) (p : Placement k.cls) (cpu : Cpu) (object : Word)
    (h : Refers cpu (cpu.regs .r0) object p.btbl)
    (hfree : ∀ i < 2, Cpu.wordAt (object + 8#32) ≠
      Cpu.wordAt (cpu.regs .sp - 8#32 + BitVec.ofNat 32 (4 * i))) :
    ∃ n ≤ 6, ∃ cpu₁, p.image.run n ⟨cpu, p.deleteEntry⟩ = some ⟨cpu₁, p.own k.cls.delete⟩ ∧
      cpu₁.regs .r0 = object ∧ cpu₁.regs .sp = cpu.regs .sp - 8#32 ∧
      (∀ w, (∀ i < 2, w ≠ Cpu.wordAt (cpu.regs .sp - 8#32 + BitVec.ofNat 32 (4 * i))) →
        cpu₁.mem w = cpu.mem w) ∧
      ∀ cpu₂, Kept 2 cpu₁ cpu₂ → ∃ n ≤ 2, ∃ cpu₃,
        p.image.run n ⟨cpu₂, cpu₁.regs .lr⟩ = some ⟨cpu₃, p.external .freeInstance⟩ ∧
        cpu₃.regs .r0 = object ∧
        (∀ r, r ≠ .r0 → r ≠ .r1 → r ≠ .r2 → r ≠ .r3 → r ≠ .ip → cpu₃.regs r = cpu.regs r) ∧
        cpu₃.mem = cpu₂.mem := by
  have hslot : (k.cls.table p.btbl p.external).Leads 1 (p.btbl + 12#32)
      (· = p.deleting cpu object) (p.own k.cls.delete) (· = p.deleting cpu object) :=
    Program.Leads.branch (k := 3) (.of_getElem? k.cls.agreeDelete) fun _ _ => rfl
  have hcall := (Image.leads_of_mem p.delete_mem (p.leads_deleting h hfree)).seq
    (Image.leads_of_mem p.table_mem hslot)
  obtain ⟨n, hn, _, hrun, rfl⟩ := hcall cpu rfl
  refine ⟨n, hn, _, hrun, ?_, p.deleting_sp cpu object, ?_, ?_⟩
  · simp [Placement.deleting]
  · intro w hw
    show ((cpu.set .r0 object).storeAll (cpu.regs .sp - 8#32) [.r0, .lr]).mem w = _
    exact Cpu.mem_storeAll hw
  · intro cpu₂ hkept
    exact Image.leads_of_mem p.delete_mem (p.leads_free hkept) cpu₂ rfl

/-- The object of the processor is deleted. -/
theorem delete_frees_calling : ∃ n ≤ 6, ∃ cpu₁, connectionEndPlaced.image.run n
    ⟨calling, connectionEndPlaced.deleteEntry⟩ = some ⟨cpu₁, connectionEndPlaced.own .delete⟩ ∧
      cpu₁.regs .r0 = 0x500#32 := by
  obtain ⟨n, hn, cpu₁, hrun, hobject, _⟩ := delete_frees .connectionEnd connectionEndPlaced
    calling 0x500#32 calling_refers (by decide)
  exact ⟨n, hn, cpu₁, hrun, hobject⟩

end Protocols

end NewtonTLS
