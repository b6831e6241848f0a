/-
# Programs for an ARM

The 32-bit ARM instructions of the third architecture, as far as straight integer code needs
them: data processing with the shifter operand and the condition field, multiplication, loads,
block transfers to and from a full descending stack, branches, jumps, calls and returns.  A
program is a list of labelled lines at some base address.  A state is a processor with its program
counter, and `Program.run` counts the instructions that it executes.

The second half is a logic for total correctness.  `Program.Leads n a P b Q` says that the program
reaches `b` with `Q` within `n` instructions, from every processor at `a` that satisfies `P`.  Its
rules follow the shape of assembly code: straight-line blocks (`Leads.block`), branches, calls,
returns, and loops with a measure (`Leads.loop`).

Nothing in this module is about a particular program.
-/
import Mathlib.Algebra.Order.Ring.Nat
import Mathlib.Data.List.Basic

namespace Arm

/-! ## The processor -/

/-- A register or a word of memory. -/
abbrev Word := BitVec 32

/-- The registers other than the program counter. -/
inductive Reg where
  | r0 | r1 | r2 | r3 | r4 | r5 | r6 | r7 | r8 | r9 | r10 | r11 | ip | sp | lr
  deriving DecidableEq, Repr

/-- The condition flags. -/
structure Flags where
  n : Bool
  z : Bool
  c : Bool
  v : Bool
  deriving DecidableEq, Repr

/-- The condition field of an instruction. -/
inductive Cond where
  | al | eq | ne | cs | cc | mi | pl | vs | vc | hi | ls | ge | lt | gt | le
  deriving DecidableEq, Repr

/-- The condition field of an instruction, on the flags; `hi` and `ls` are unsigned. -/
@[simp] def Cond.holds (f : Flags) : Cond → Bool
  | al => true
  | eq => f.z
  | ne => !f.z
  | cs => f.c
  | cc => !f.c
  | mi => f.n
  | pl => !f.n
  | vs => f.v
  | vc => !f.v
  | hi => f.c && !f.z
  | ls => !f.c || f.z
  | ge => f.n == f.v
  | lt => f.n != f.v
  | gt => !f.z && f.n == f.v
  | le => f.z || f.n != f.v

/-- A processor without its program counter.  The memory is a function of the number of a word,
that is, of its address without the two lowest bits. -/
structure Cpu where
  regs : Reg → Word
  flags : Flags
  mem : Word → Word

namespace Cpu

variable {cpu : Cpu} {r r' : Reg} {w : Word}

/-- A register is written. -/
def set (cpu : Cpu) (r : Reg) (w : Word) : Cpu :=
  { cpu with regs := fun x => if x = r then w else cpu.regs x }

/-- The flags are written. -/
def setFlags (cpu : Cpu) (f : Flags) : Cpu := { cpu with flags := f }

/-- The register that was written is read. -/
@[simp] theorem regs_set_self : (cpu.set r w).regs r = w := by
  simp [set]

@[simp] theorem regs_set_ne (h : r' ≠ r) : (cpu.set r w).regs r' = cpu.regs r' := by
  simp [set, h]

/-- Of two writes to a register only the second counts. -/
@[simp] theorem set_set_self {w' : Word} : (cpu.set r w).set r w' = cpu.set r w' := by
  unfold set
  congr 1
  funext x
  by_cases h : x = r
  · simp [h]
  · simp [h]

/-- Writes to two registers may be exchanged. -/
theorem set_comm {w' : Word} (h : r ≠ r') :
    (cpu.set r w).set r' w' = (cpu.set r' w').set r w := by
  unfold set
  congr 1
  funext x
  by_cases hx : x = r'
  · simp [hx, h.symm]
  · simp [hx]

@[simp] theorem flags_set : (cpu.set r w).flags = cpu.flags := rfl

@[simp] theorem mem_set : (cpu.set r w).mem = cpu.mem := rfl

@[simp] theorem regs_setFlags {f : Flags} : (cpu.setFlags f).regs = cpu.regs := rfl

@[simp] theorem flags_setFlags {f : Flags} : (cpu.setFlags f).flags = f := rfl

@[simp] theorem mem_setFlags {f : Flags} : (cpu.setFlags f).mem = cpu.mem := rfl

@[simp] theorem setFlags_setFlags {f g : Flags} :
    (cpu.setFlags f).setFlags g = cpu.setFlags g := rfl

/-- The flags and a register may be written in either order. -/
@[simp] theorem set_setFlags {f : Flags} :
    (cpu.setFlags f).set r w = (cpu.set r w).setFlags f := rfl

/-- The number of the word at an address. -/
def wordAt (a : Word) : Word := a >>> 2

/-- The word at an address, whose low two bits are not looked at. -/
def load (cpu : Cpu) (a : Word) : Word := cpu.mem (wordAt a)

/-- A word is written. -/
def store (cpu : Cpu) (a w : Word) : Cpu :=
  { cpu with mem := fun x => if x = wordAt a then w else cpu.mem x }

/-- A store changes the memory alone. -/
@[simp] theorem regs_store {a : Word} : (cpu.store a w).regs = cpu.regs := rfl

@[simp] theorem flags_store {a : Word} : (cpu.store a w).flags = cpu.flags := rfl

/-- `cpu'` differs from `cpu` at most in the flags and in the registers `rs`. -/
structure Changes (rs : List Reg) (cpu cpu' : Cpu) : Prop where
  regs : ∀ r, r ∉ rs → cpu'.regs r = cpu.regs r
  mem : cpu'.mem = cpu.mem

@[simp] theorem Changes.refl {rs : List Reg} : Changes rs cpu cpu := ⟨fun _ _ => rfl, rfl⟩

theorem Changes.trans {rs : List Reg} {cpu' cpu'' : Cpu} (h : Changes rs cpu cpu')
    (h' : Changes rs cpu' cpu'') : Changes rs cpu cpu'' where
  regs := fun r hr => (h'.regs r hr).trans (h.regs r hr)
  mem := h'.mem.trans h.mem

theorem Changes.mono {rs rs' : List Reg} {cpu' : Cpu} (h : Changes rs cpu cpu')
    (hsub : rs ⊆ rs') : Changes rs' cpu cpu' where
  regs := fun r hr => h.regs r fun hmem => hr (hsub hmem)
  mem := h.mem

/-- A write to a register that may change does not count. -/
@[simp] theorem changes_set {rs : List Reg} {cpu' : Cpu} (hr : r ∈ rs) :
    Changes rs cpu (cpu'.set r w) ↔ Changes rs cpu cpu' := by
  have hregs : ∀ x, x ∉ rs → (cpu'.set r w).regs x = cpu'.regs x := fun x hx =>
    regs_set_ne fun heq => hx (heq ▸ hr)
  constructor
  · exact fun h => ⟨fun x hx => hregs x hx ▸ h.regs x hx, h.mem⟩
  · exact fun h => ⟨fun x hx => (hregs x hx).trans (h.regs x hx), h.mem⟩

@[simp] theorem changes_setFlags {rs : List Reg} {cpu' : Cpu} {f : Flags} :
    Changes rs cpu (cpu'.setFlags f) ↔ Changes rs cpu cpu' :=
  ⟨fun h => ⟨h.regs, h.mem⟩, fun h => ⟨h.regs, h.mem⟩⟩

/-- Another write to a register that may change. -/
theorem Changes.set {rs : List Reg} {cpu' : Cpu} (h : Changes rs cpu cpu') (hr : r ∈ rs) :
    Changes rs cpu (cpu'.set r w) :=
  (changes_set hr).mpr h

theorem Changes.setFlags {rs : List Reg} {cpu' : Cpu} (h : Changes rs cpu cpu') (f : Flags) :
    Changes rs cpu (cpu'.setFlags f) :=
  changes_setFlags.mpr h

end Cpu

/-! ## Operations -/

/-- The shifts of an operand. -/
inductive Shift where
  | lsl | lsr | asr | ror
  deriving DecidableEq, Repr

/-- What a shift makes of a word.  A shift by nothing changes nothing. -/
@[simp] def Shift.value (w : Word) (k : ℕ) : Shift → Word
  | lsl => w <<< k
  | lsr => w >>> k
  | asr => w.sshiftRight k
  | ror => w.rotateRight k

/-- The carry out of a shift, which is the carry in where nothing is shifted. -/
def Shift.carry (c : Bool) (w : Word) (k : ℕ) : Shift → Bool
  | lsl => if k = 0 then c else k ≤ 32 && w.getLsbD (32 - k)
  | lsr => if k = 0 then c else w.getLsbD (k - 1)
  | asr => if k = 0 then c else if k ≤ 32 then w.getLsbD (k - 1) else w.msb
  | ror => if k = 0 then c else w.getLsbD ((k - 1) % 32)

/-- The second operand: an immediate value, a register, or a register shifted by a constant or by
the low byte of another. -/
inductive Operand where
  | imm (w : Word)
  | reg (r : Reg)
  | shifted (r : Reg) (s : Shift) (k : ℕ)
  | shiftedBy (r : Reg) (s : Shift) (by' : Reg)
  deriving DecidableEq

/-- The value of an operand. -/
def Operand.value (regs : Reg → Word) : Operand → Word
  | imm w => w
  | reg r => regs r
  | shifted r s k => s.value (regs r) k
  | shiftedBy r s r' => s.value (regs r) ((regs r').toNat % 256)

section

variable (regs : Reg → Word)

@[simp] theorem value_imm (w : Word) : (Operand.imm w).value regs = w := rfl

@[simp] theorem value_reg (r : Reg) : (Operand.reg r).value regs = regs r := rfl

@[simp] theorem value_shifted (r : Reg) (s : Shift) (k : ℕ) :
    (Operand.shifted r s k).value regs = s.value (regs r) k := rfl

@[simp] theorem value_shiftedBy (r r' : Reg) (s : Shift) :
    (Operand.shiftedBy r s r').value regs = s.value (regs r) ((regs r').toNat % 256) := rfl

end

/-- The carry out of the shifter.  An immediate value that is not a byte is a rotated one. -/
def Operand.carry (regs : Reg → Word) (c : Bool) : Operand → Bool
  | imm w => if w.toNat < 256 then c else w.msb
  | reg _ => c
  | shifted r s k => s.carry c (regs r) k
  | shiftedBy r s r' => s.carry c (regs r) ((regs r').toNat % 256)

/-- The flags after `a - b`; the carry is set when there is no borrow. -/
def Flags.ofSub (a b : Word) : Flags where
  n := (a - b).msb
  z := a - b == 0
  c := b ≤ a
  v := a.ssubOverflow b

/-- The flags after `a + b`. -/
def Flags.ofAdd (a b : Word) : Flags where
  n := (a + b).msb
  z := a + b == 0
  c := 2 ^ 32 ≤ a.toNat + b.toNat
  v := a.saddOverflow b

/-- The flags of a move or a logical operation, which keeps the overflow. -/
def Flags.logical (f : Flags) (w : Word) (c : Bool) : Flags where
  n := w.msb
  z := w == 0
  c := c
  v := f.v

/-- The operations with a destination and a first operand. -/
inductive Binary where
  | and | eor | orr | add | sub | rsb
  deriving DecidableEq, Repr

/-- The result of an operation with two operands. -/
@[simp] def Binary.value (a b : Word) : Binary → Word
  | and => a &&& b
  | eor => a ^^^ b
  | orr => a ||| b
  | add => a + b
  | sub => a - b
  | rsb => b - a

/-- The flags that it leaves; `c` is the carry of the operand. -/
@[simp] def Binary.flags (f : Flags) (a b : Word) (c : Bool) : Binary → Flags
  | and => f.logical (a &&& b) c
  | eor => f.logical (a ^^^ b) c
  | orr => f.logical (a ||| b) c
  | add => .ofAdd a b
  | sub => .ofSub a b
  | rsb => .ofSub b a

/-- The operations that only set the flags. -/
inductive Test where
  | cmp | tst | teq
  deriving DecidableEq, Repr

/-- The flags of a comparison or a test; `c` is the carry of the operand. -/
@[simp] def Test.flags (f : Flags) (a b : Word) (c : Bool) : Test → Flags
  | cmp => .ofSub a b
  | tst => f.logical (a &&& b) c
  | teq => f.logical (a ^^^ b) c

/-- The operations after which the next instruction is executed. -/
inductive Op where
  | mov (s : Bool) (d : Reg) (o : Operand)
  | binary (op : Binary) (s : Bool) (d n : Reg) (o : Operand)
  | test (op : Test) (n : Reg) (o : Operand)
  | mul (d m n : Reg)
  | ldr (d n : Reg) (w : Word)
  | push (rs : List Reg)
  | pop (rs : List Reg)
  deriving DecidableEq

/-- Registers stored at ascending addresses. -/
def Cpu.storeAll (cpu : Cpu) (a : Word) : List Reg → Cpu
  | [] => cpu
  | r :: rs => (cpu.store a (cpu.regs r)).storeAll (a + 4) rs

/-- Registers loaded from ascending addresses. -/
def Cpu.loadAll (cpu : Cpu) (a : Word) : List Reg → Cpu
  | [] => cpu
  | r :: rs => (cpu.set r (cpu.load a)).loadAll (a + 4) rs

namespace Cpu

variable {cpu : Cpu} {a b w : Word} {rs : List Reg}

@[simp] theorem load_store_self : (cpu.store a w).load a = w := by
  simp [load, store]

/-- A register is not in memory. -/
@[simp] theorem load_set {r : Reg} : (cpu.set r w).load a = cpu.load a := rfl

@[simp] theorem load_setFlags {f : Flags} : (cpu.setFlags f).load a = cpu.load a := rfl

/-- Storing leaves the registers as they are. -/
@[simp] theorem regs_storeAll : (cpu.storeAll a rs).regs = cpu.regs := by
  induction rs generalizing cpu a with
  | nil => rfl
  | cons r rs ih => rw [storeAll, ih, regs_store]

@[simp] theorem mem_loadAll : (cpu.loadAll a rs).mem = cpu.mem := by
  induction rs generalizing cpu a with
  | nil => rfl
  | cons r rs ih => rw [loadAll, ih, mem_set]

/-- The address of the next word. -/
theorem add_ofNat_succ (a : Word) (i : ℕ) :
    a + BitVec.ofNat 32 (4 * (i + 1)) = a + 4 + BitVec.ofNat 32 (4 * i) := by
  bv_omega

/-- Storing registers changes only the words that they are stored to. -/
theorem mem_storeAll (h : ∀ i < rs.length, w ≠ wordAt (a + BitVec.ofNat 32 (4 * i))) :
    (cpu.storeAll a rs).mem w = cpu.mem w := by
  induction rs generalizing cpu a with
  | nil => rfl
  | cons r rs ih =>
    have hhead : w ≠ wordAt a := by
      simpa using h 0 (Nat.succ_pos _)
    rw [storeAll, ih]
    · simp [store, hhead]
    · intro i hi
      have hnext := h (i + 1) (Nat.succ_lt_succ hi)
      rwa [add_ofNat_succ] at hnext

/-- Words at different distances from an address are different. -/
theorem wordAt_add_ne {i j : ℕ} (hi : i < 2 ^ 30) (hj : j < 2 ^ 30) (h : i ≠ j) :
    wordAt (a + BitVec.ofNat 32 (4 * i)) ≠ wordAt (a + BitVec.ofNat 32 (4 * j)) := by
  unfold wordAt
  bv_omega

/-- A stored register is found in its place. -/
theorem load_storeAll {i : ℕ} (hlen : rs.length ≤ 2 ^ 30) (hi : i < rs.length) :
    (cpu.storeAll a rs).load (a + BitVec.ofNat 32 (4 * i)) = cpu.regs rs[i] := by
  induction rs generalizing cpu a i with
  | nil => exact absurd hi (Nat.not_lt_zero i)
  | cons r rs ih =>
    rw [List.length_cons] at hlen hi
    cases i with
    | zero =>
      have hkeep : ∀ j < rs.length, wordAt a ≠ wordAt (a + 4 + BitVec.ofNat 32 (4 * j)) := by
        intro j hj
        have hne := wordAt_add_ne (a := a) (i := 0) (j := j + 1) (by omega) (by omega) (by omega)
        rwa [add_ofNat_succ, Nat.mul_zero, BitVec.add_zero] at hne
      rw [Nat.mul_zero, BitVec.add_zero, storeAll, load, mem_storeAll hkeep]
      exact load_store_self
    | succ i =>
      rw [add_ofNat_succ, storeAll, ih (by omega) (by omega), regs_store, List.getElem_cons_succ]

/-- A register that is not in the list stays. -/
theorem regs_loadAll_of_not_mem {r : Reg} (h : r ∉ rs) :
    (cpu.loadAll a rs).regs r = cpu.regs r := by
  induction rs generalizing cpu a with
  | nil => rfl
  | cons r' rs ih =>
    rw [List.mem_cons, not_or] at h
    rw [loadAll, ih h.2, regs_set_ne h.1]

/-- Every register gets the word at its place. -/
theorem regs_loadAll {i : ℕ} (hnodup : rs.Nodup) (hi : i < rs.length) :
    (cpu.loadAll a rs).regs rs[i] = cpu.load (a + BitVec.ofNat 32 (4 * i)) := by
  induction rs generalizing cpu a i with
  | nil => exact absurd hi (Nat.not_lt_zero i)
  | cons r rs ih =>
    rw [List.nodup_cons] at hnodup
    rw [List.length_cons] at hi
    cases i with
    | zero =>
      rw [List.getElem_cons_zero, loadAll, regs_loadAll_of_not_mem hnodup.1, regs_set_self,
        Nat.mul_zero, BitVec.add_zero]
    | succ i =>
      rw [List.getElem_cons_succ, loadAll, ih hnodup.2 (by omega), load_set, add_ofNat_succ]

end Cpu

/-- What an operation does: the flags change only in the forms with an `s` and in tests. -/
@[simp] def Op.exec (cpu : Cpu) : Op → Cpu
  | mov s d o =>
    let w := o.value cpu.regs
    let f := cpu.flags.logical w (o.carry cpu.regs cpu.flags.c)
    if s then (cpu.set d w).setFlags f else cpu.set d w
  | binary op s d n o =>
    let b := o.value cpu.regs
    let f := op.flags cpu.flags (cpu.regs n) b (o.carry cpu.regs cpu.flags.c)
    let w := op.value (cpu.regs n) b
    if s then (cpu.set d w).setFlags f else cpu.set d w
  | test op n o =>
    cpu.setFlags (op.flags cpu.flags (cpu.regs n) (o.value cpu.regs)
      (o.carry cpu.regs cpu.flags.c))
  | mul d m n => cpu.set d (cpu.regs m * cpu.regs n)
  | ldr d n w => cpu.set d (cpu.load (cpu.regs n + w))
  | push rs =>
    let a := cpu.regs .sp - 4 * BitVec.ofNat 32 rs.length
    (cpu.storeAll a rs).set .sp a
  | pop rs =>
    let a := cpu.regs .sp
    (cpu.loadAll a rs).set .sp (a + 4 * BitVec.ofNat 32 rs.length)

/-! ## Programs -/

/-- An instruction, with labels for the targets of branches.  `movPc` is a return by a register,
`popPc` one by the stack, and `addPc` a jump to a register plus a constant.  `movFromPc` reads the
program counter, which is two instructions ahead, and `adr` gives the address of a label.  A word
of data among the instructions is never executed. -/
inductive Instr (L : Type) where
  | op (c : Cond) (o : Op)
  | b (c : Cond) (l : L)
  | bl (l : L)
  | movPc (c : Cond) (r : Reg)
  | popPc
  | addPc (r : Reg) (w : Word)
  | movFromPc (d : Reg)
  | adr (d : Reg) (l : L)
  | word (w : Word)
  deriving DecidableEq

/-- An operation under its condition. -/
abbrev Conditional := Cond × Op

/-- The instruction of a conditional operation. -/
def Conditional.instr {L : Type} (x : Conditional) : Instr L := .op x.1 x.2

/-- The operation, if its condition holds. -/
@[simp] def Conditional.exec (cpu : Cpu) (x : Conditional) : Cpu :=
  if x.1.holds cpu.flags then x.2.exec cpu else cpu

/-- A line of a text: a label, or an instruction, which takes four bytes. -/
inductive Line (L : Type) where
  | label (l : L)
  | instr (i : Instr L)

/-- The instructions of a text, without its labels. -/
def instrs {L : Type} : List (Line L) → List (Instr L)
  | [] => []
  | .label _ :: t => instrs t
  | .instr i :: t => i :: instrs t

/-- How many instructions come before a label. -/
def offset? {L : Type} [DecidableEq L] (l : L) : List (Line L) → Option ℕ
  | [] => none
  | .label l' :: t => if l' = l then some 0 else offset? l t
  | .instr _ :: t => (offset? l t).map (· + 1)

/-- A text at its base address, with the addresses of the labels that it does not define.  It does
not wrap around the end of the memory. -/
structure Program (L : Type) where
  base : Word
  text : List (Line L)
  external : L → Word
  fits : 4 * (instrs text).length < 2 ^ 32

/-- A processor and its program counter. -/
structure State where
  cpu : Cpu
  pc : Word

namespace Program

variable {L : Type} (p : Program L)

/-- The address of an instruction. -/
def addr (k : ℕ) : Word := p.base + BitVec.ofNat 32 (4 * k)

/-- The instruction at an address. -/
def fetch (a : Word) : Option (Instr L) :=
  if (a - p.base).toNat % 4 = 0 then (instrs p.text)[(a - p.base).toNat / 4]? else none

/-- The address that a label stands for. -/
def address [DecidableEq L] (l : L) : Word :=
  match offset? l p.text with
  | some k => p.addr k
  | none => p.external l

/-- One instruction, if there is one at the program counter. -/
def step [DecidableEq L] (s : State) : Option State :=
  match p.fetch s.pc with
  | none => none
  | some (.op c o) => some { cpu := Conditional.exec s.cpu (c, o), pc := s.pc + 4#32 }
  | some (.b c l) =>
    some { s with pc := if c.holds s.cpu.flags then p.address l else s.pc + 4#32 }
  | some (.bl l) => some { cpu := s.cpu.set .lr (s.pc + 4#32), pc := p.address l }
  | some (.movPc c r) =>
    some { s with pc := if c.holds s.cpu.flags then s.cpu.regs r else s.pc + 4#32 }
  | some .popPc =>
    some { cpu := s.cpu.set .sp (s.cpu.regs .sp + 4#32), pc := s.cpu.load (s.cpu.regs .sp) }
  | some (.addPc r w) => some { s with pc := s.cpu.regs r + w }
  | some (.movFromPc d) => some { cpu := s.cpu.set d (s.pc + 8#32), pc := s.pc + 4#32 }
  | some (.adr d l) => some { cpu := s.cpu.set d (p.address l), pc := s.pc + 4#32 }
  | some (.word _) => none

/-- A number of instructions. -/
def run [DecidableEq L] : ℕ → State → Option State
  | 0, s => some s
  | n + 1, s => (p.step s).bind (run n)

/-- Instructions take four bytes. -/
theorem addr_succ (k : ℕ) : p.addr k + 4#32 = p.addr (k + 1) := by
  unfold addr
  bv_omega

/-- What is fetched at the address of an instruction. -/
theorem fetch_addr {k : ℕ} (h : k < (instrs p.text).length) :
    p.fetch (p.addr k) = (instrs p.text)[k]? := by
  have hfits := p.fits
  have hsub : (p.addr k - p.base).toNat = 4 * k := by
    unfold addr
    rw [BitVec.add_comm, BitVec.add_sub_cancel, BitVec.toNat_ofNat]
    omega
  unfold fetch
  rw [hsub, if_pos (by omega), Nat.mul_div_cancel_left k (by omega)]

/-! ## Total correctness -/

section

variable [DecidableEq L] {p}
variable {k m n : ℕ} {a a' a'' : Word} {P P' Q Q' R : Cpu → Prop}

/-- The first step and the others. -/
theorem run_succ (s : State) : p.run (n + 1) s = (p.step s).bind (p.run n) := rfl

theorem run_add (s : State) : p.run (m + n) s = (p.run m s).bind (p.run n) := by
  induction m generalizing s with
  | zero =>
    rw [Nat.zero_add]
    rfl
  | succ m ih =>
    rw [Nat.succ_add, run_succ, run_succ]
    cases p.step s with
    | none => rfl
    | some s' => exact ih s'

/-- Within `n` instructions every processor at `a` with `P` becomes one at `a'` with `Q`. -/
def Leads (p : Program L) (n : ℕ) (a : Word) (P : Cpu → Prop) (a' : Word) (Q : Cpu → Prop) :
    Prop :=
  ∀ cpu, P cpu → ∃ j ≤ n, ∃ cpu', p.run j ⟨cpu, a⟩ = some ⟨cpu', a'⟩ ∧ Q cpu'

theorem Leads.skip (h : ∀ cpu, P cpu → Q cpu) : p.Leads 0 a P a Q := by
  intro cpu hP
  exact ⟨0, le_rfl, cpu, rfl, h cpu hP⟩

/-- The rule of consequence. -/
theorem Leads.imp (h : p.Leads m a P a' Q) (hn : m ≤ n) (hP : ∀ cpu, P' cpu → P cpu)
    (hQ : ∀ cpu, Q cpu → Q' cpu) : p.Leads n a P' a' Q' := by
  intro cpu hcpu
  obtain ⟨j, hj, cpu', hrun, hcpu'⟩ := h cpu (hP cpu hcpu)
  exact ⟨j, hj.trans hn, cpu', hrun, hQ cpu' hcpu'⟩

theorem Leads.mono (h : p.Leads m a P a' Q) (hn : m ≤ n) : p.Leads n a P a' Q :=
  h.imp hn (fun _ => id) (fun _ => id)

/-- The rule of composition. -/
theorem Leads.seq (h : p.Leads m a P a' Q) (h' : p.Leads n a' Q a'' R) :
    p.Leads (m + n) a P a'' R := by
  intro cpu hcpu
  obtain ⟨i, hi, cpu', hrun, hcpu'⟩ := h cpu hcpu
  obtain ⟨j, hj, cpu'', hrun', hcpu''⟩ := h' cpu' hcpu'
  refine ⟨i + j, Nat.add_le_add hi hj, cpu'', ?_, hcpu''⟩
  rw [run_add, hrun]
  exact hrun'

/-- A case distinction on the processor. -/
theorem Leads.cases (C : Cpu → Prop) (h : p.Leads n a (fun cpu => P cpu ∧ C cpu) a' Q)
    (h' : p.Leads n a (fun cpu => P cpu ∧ ¬ C cpu) a' Q) : p.Leads n a P a' Q := by
  intro cpu hcpu
  by_cases hC : C cpu
  · exact h cpu ⟨hcpu, hC⟩
  · exact h' cpu ⟨hcpu, hC⟩

/-- A precondition with a ghost value. -/
theorem Leads.ghost {α : Type} {P : α → Cpu → Prop} (h : ∀ x, p.Leads n a (P x) a' Q) :
    p.Leads n a (fun cpu => ∃ x, P x cpu) a' Q := by
  rintro cpu ⟨x, hx⟩
  exact h x cpu hx

theorem Leads.of_step (h : ∀ cpu, P cpu → ∃ cpu', p.step ⟨cpu, a⟩ = some ⟨cpu', a'⟩ ∧ Q cpu') :
    p.Leads 1 a P a' Q := by
  intro cpu hcpu
  obtain ⟨cpu', hstep, hcpu'⟩ := h cpu hcpu
  refine ⟨1, le_rfl, cpu', ?_, hcpu'⟩
  rw [run_succ, hstep]
  rfl

/-! ## Instructions -/

/-- The text holds the instructions `l` from its `k`-th on. -/
def HasAt (p : Program L) (k : ℕ) (l : List (Instr L)) : Prop :=
  ((instrs p.text).drop k).take l.length = l

omit [DecidableEq L] in
/-- The first instruction is fetched. -/
theorem HasAt.head {i : Instr L} {l : List (Instr L)} (h : p.HasAt k (i :: l)) :
    p.fetch (p.addr k) = some i := by
  unfold HasAt at h
  have hget : (instrs p.text)[k]? = some i := by
    have := congrArg (·[0]?) h
    simpa using this
  have hk : k < (instrs p.text).length := (List.getElem?_eq_some_iff.mp hget).1
  rw [p.fetch_addr hk, hget]

omit [DecidableEq L] in
/-- The instructions behind the first one. -/
theorem HasAt.tail {i : Instr L} {l : List (Instr L)} (h : p.HasAt k (i :: l)) :
    p.HasAt (k + 1) l := by
  unfold HasAt at h ⊢
  rw [← List.tail_drop]
  cases hdrop : (instrs p.text).drop k with
  | nil => simp [hdrop] at h
  | cons j t =>
    rw [hdrop, List.length_cons, List.take_succ_cons] at h
    exact (List.cons.inj h).2

omit [DecidableEq L] in
theorem HasAt.left {l l' : List (Instr L)} (h : p.HasAt k (l ++ l')) : p.HasAt k l := by
  unfold HasAt at h ⊢
  have htake := congrArg (List.take l.length) h
  rwa [List.take_take, List.length_append, Nat.min_eq_left (Nat.le_add_right _ _),
    List.take_left] at htake

omit [DecidableEq L] in
/-- The second part lies behind the first one. -/
theorem HasAt.right {l l' : List (Instr L)} (h : p.HasAt k (l ++ l')) :
    p.HasAt (k + l.length) l' := by
  induction l generalizing k with
  | nil => exact h
  | cons i l ih =>
    rw [List.length_cons, Nat.add_comm l.length 1, ← Nat.add_assoc]
    exact ih h.tail

omit [DecidableEq L] in
/-- One instruction of a text. -/
theorem HasAt.of_getElem? {i : Instr L} (h : (instrs p.text)[k]? = some i) : p.HasAt k [i] := by
  unfold HasAt
  obtain ⟨hk, hget⟩ := List.getElem?_eq_some_iff.mp h
  rw [List.length_singleton, List.drop_eq_getElem_cons hk, List.take_succ_cons, List.take_zero,
    hget]

omit [DecidableEq L] in
theorem HasAt.nth {l : List (Instr L)} {i : Instr L} {j : ℕ} (h : p.HasAt k l)
    (hj : l[j]? = some i) : p.HasAt (k + j) [i] := by
  apply HasAt.of_getElem?
  have hlen : j < l.length := (List.getElem?_eq_some_iff.mp hj).1
  unfold HasAt at h
  rw [← hj, ← h, List.getElem?_take_of_lt hlen, List.getElem?_drop]

/-- The rule for straight-line code. -/
theorem Leads.block {l : List Conditional} (hat : p.HasAt k (l.map Conditional.instr))
    (h : ∀ cpu, P cpu → Q (l.foldl Conditional.exec cpu)) :
    p.Leads l.length (p.addr k) P (p.addr (k + l.length)) Q := by
  induction l generalizing k P with
  | nil => exact Leads.skip h
  | cons x l ih =>
    have hhead : p.Leads 1 (p.addr k) P (p.addr (k + 1))
        (fun cpu => Q (l.foldl Conditional.exec cpu)) := by
      apply Leads.of_step
      intro cpu hcpu
      refine ⟨x.exec cpu, ?_, h cpu hcpu⟩
      rw [← p.addr_succ, step, hat.head]
      rfl
    have htail := hhead.seq (ih hat.tail fun _ => id)
    rw [List.length_cons, Nat.add_comm l.length 1, ← Nat.add_assoc]
    exact htail

/-- A branch that is taken. -/
theorem Leads.branch {c : Cond} {l : L} (hat : p.HasAt k [.b c l])
    (h : ∀ cpu, P cpu → c.holds cpu.flags = true) : p.Leads 1 (p.addr k) P (p.address l) P := by
  apply Leads.of_step
  intro cpu hcpu
  refine ⟨cpu, ?_, hcpu⟩
  simp only [step, hat.head, h cpu hcpu, if_true]

/-- A branch that is not taken. -/
theorem Leads.pass {c : Cond} {l : L} (hat : p.HasAt k [.b c l])
    (h : ∀ cpu, P cpu → c.holds cpu.flags = false) :
    p.Leads 1 (p.addr k) P (p.addr (k + 1)) P := by
  apply Leads.of_step
  intro cpu hcpu
  refine ⟨cpu, ?_, hcpu⟩
  simp only [step, hat.head, h cpu hcpu, Bool.false_eq_true, if_false, addr_succ]

/-- `bl` leaves the address of the next instruction in `lr`. -/
theorem Leads.call {l : L} (hat : p.HasAt k [.bl l])
    (h : ∀ cpu, P cpu → Q (cpu.set .lr (p.addr (k + 1)))) :
    p.Leads 1 (p.addr k) P (p.address l) Q := by
  apply Leads.of_step
  intro cpu hcpu
  refine ⟨_, ?_, h cpu hcpu⟩
  simp only [step, hat.head, addr_succ]

/-- A return by a register. -/
theorem Leads.ret {c : Cond} {r : Reg} (hat : p.HasAt k [.movPc c r])
    (h : ∀ cpu, P cpu → c.holds cpu.flags = true ∧ cpu.regs r = a) :
    p.Leads 1 (p.addr k) P a P := by
  apply Leads.of_step
  intro cpu hcpu
  refine ⟨cpu, ?_, hcpu⟩
  simp only [step, hat.head, h cpu hcpu, if_true]

/-- A conditional return that is not taken. -/
theorem Leads.stay {c : Cond} {r : Reg} (hat : p.HasAt k [.movPc c r])
    (h : ∀ cpu, P cpu → c.holds cpu.flags = false) :
    p.Leads 1 (p.addr k) P (p.addr (k + 1)) P := by
  apply Leads.of_step
  intro cpu hcpu
  refine ⟨cpu, ?_, hcpu⟩
  simp only [step, hat.head, h cpu hcpu, Bool.false_eq_true, if_false, addr_succ]

/-- A jump to a register plus a constant. -/
theorem Leads.jump {r : Reg} {w : Word} (hat : p.HasAt k [.addPc r w])
    (h : ∀ cpu, P cpu → cpu.regs r + w = a) : p.Leads 1 (p.addr k) P a P := by
  apply Leads.of_step
  intro cpu hcpu
  refine ⟨cpu, ?_, hcpu⟩
  simp only [step, hat.head, h cpu hcpu]

/-- `mov rd, pc`: the program counter is two instructions ahead. -/
theorem Leads.movFromPc {d : Reg} (hat : p.HasAt k [.movFromPc d])
    (h : ∀ cpu, P cpu → Q (cpu.set d (p.addr (k + 2)))) :
    p.Leads 1 (p.addr k) P (p.addr (k + 1)) Q := by
  apply Leads.of_step
  intro cpu hcpu
  refine ⟨_, ?_, h cpu hcpu⟩
  have hahead : p.addr k + 8#32 = p.addr (k + 2) := by
    unfold addr
    bv_omega
  simp only [step, hat.head, hahead, addr_succ]

/-- The address of a label is loaded. -/
theorem Leads.adr {d : Reg} {l : L} (hat : p.HasAt k [.adr d l])
    (h : ∀ cpu, P cpu → Q (cpu.set d (p.address l))) :
    p.Leads 1 (p.addr k) P (p.addr (k + 1)) Q := by
  apply Leads.of_step
  intro cpu hcpu
  refine ⟨_, ?_, h cpu hcpu⟩
  simp only [step, hat.head, addr_succ]

/-- **The rule for loops.**  The body is straight-line code from `k` up to a conditional branch
back to `k`.  Where the branch is taken the invariant holds again for a smaller measure, where it
is not taken the postcondition holds. -/
theorem Leads.loop {I : ℕ → Cpu → Prop} {l : List Conditional} {c : Cond} {t : L}
    (hat : p.HasAt k (l.map Conditional.instr)) (hbranch : p.HasAt (k + l.length) [.b c t])
    (hlabel : p.address t = p.addr k)
    (hagain : ∀ i cpu, I i cpu → c.holds (l.foldl Conditional.exec cpu).flags = true →
      ∃ j < i, I j (l.foldl Conditional.exec cpu))
    (hexit : ∀ i cpu, I i cpu → c.holds (l.foldl Conditional.exec cpu).flags = false →
      Q (l.foldl Conditional.exec cpu)) (i : ℕ) :
    p.Leads ((i + 1) * (l.length + 1)) (p.addr k) (I i) (p.addr (k + l.length + 1)) Q := by
  induction i using Nat.strong_induction_on with
  | _ i ih =>
    intro cpu hI
    have hblock : p.Leads l.length (p.addr k) (· = cpu) (p.addr (k + l.length))
        (· = l.foldl Conditional.exec cpu) := Leads.block hat fun _ heq => by rw [heq]
    cases htaken : c.holds (l.foldl Conditional.exec cpu).flags with
    | false =>
      have hpass := hblock.seq (Leads.pass hbranch fun _ heq => by rw [heq, htaken])
      refine (hpass.imp ?_ (fun _ => id) fun _ heq => ?_) cpu rfl
      · exact Nat.le_mul_of_pos_left _ (Nat.succ_pos i)
      · rw [heq]
        exact hexit i cpu hI htaken
    | true =>
      obtain ⟨j, hj, hIj⟩ := hagain i cpu hI htaken
      have hback := hblock.seq (Leads.branch hbranch fun _ heq => by rw [heq, htaken])
      rw [hlabel] at hback
      have hrest := hback.seq ((ih j hj).imp le_rfl (fun _ heq => heq ▸ hIj) fun _ => id)
      refine (hrest.mono ?_) cpu rfl
      calc l.length + 1 + (j + 1) * (l.length + 1) = (j + 1 + 1) * (l.length + 1) := by
            rw [Nat.add_mul (j + 1), Nat.one_mul, Nat.add_comm]
        _ ≤ (i + 1) * (l.length + 1) := Nat.mul_le_mul_right _ (by omega)

end

end Program

end Arm
