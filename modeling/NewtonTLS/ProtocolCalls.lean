/-
# Calls through a protocol

The functions that a caller is linked with and the branch table of a class are written apart, and
only the numbers of the slots connect them.  `call_arrives` says that a call of any member of any
of the three protocols arrives at the function of the same name, with its arguments as they were;
`callBack_arrives` follows a call of the inner connection end on into `PMbedTLSConnectionEnd`.
-/
import Mathlib.Tactic.NormNum
import NewtonTLS.ProtocolText

open Arm

namespace NewtonTLS

namespace Protocols

section

variable {Member : Type}

/-! ## Classes -/

/-- A protocol and a class of it: the functions of the caller, and the text of the class from its
branch table on.  Every member has such a function, and each slot that a caller uses holds a branch
to the member of the same name.  A class without a `New` of its own has a return in that slot. -/
structure Class (Member : Type) : Type where
  protocol : String
  classInfo : Member
  new : Member
  delete : Member
  hasNew : Bool
  glue : List (Member × ℕ)
  text : List (Line (Symbol Member))
  complete : ∀ m, m = classInfo ∨ m = new ∨ m = delete ∨ m ∈ glue.map Prod.fst
  agree : ∀ x ∈ glue, (instrs text)[x.2]? = some (.b .al (.own x.1))
  agreeNew : (instrs text)[2]? = some (if hasNew then .b .al (.own new) else .movPc .al .lr)
  agreeDelete : (instrs text)[3]? = some (.b .al (.own delete))
  fits : 4 * (instrs text).length < 2 ^ 32
  fitsNew : 4 * (instrs (newFunction new (string protocol))).length < 2 ^ 32

/-! ## Where everything is -/

/-- The glue of a member is shorter than the memory. -/
theorem fits_dispatch (x : Member × ℕ) :
    4 * (instrs (dispatchFunction x.1 x.2)).length < 2 ^ 32 := by
  show 4 * 3 < 2 ^ 32
  norm_num

theorem fits_delete (m : Member) : 4 * (instrs (deleteFunction m)).length < 2 ^ 32 := by
  show 4 * 7 < 2 ^ 32
  norm_num

namespace Class

variable (c : Class Member) (base : Word) (external : Symbol Member → Word)

/-- The glue of a member, with its number in the table. -/
def dispatchProgram (x : Member × ℕ) : Program (Symbol Member) :=
  ⟨base, dispatchFunction x.1 x.2, external, fits_dispatch x⟩

/-- The glue of `New`. -/
def newProgram : Program (Symbol Member) :=
  ⟨base, newFunction c.new (string c.protocol), external, c.fitsNew⟩

/-- The glue of `Delete`. -/
def deleteProgram : Program (Symbol Member) :=
  ⟨base, deleteFunction c.delete, external, fits_delete c.delete⟩

/-- The table of the class, at a place of its own. -/
def table : Program (Symbol Member) := ⟨base, c.text, external, c.fits⟩

/-- Every function of the caller is in a section of its own. -/
def programs (glueAt : Member → Word) (newAt deleteAt btbl : Word) :
    List (Program (Symbol Member)) :=
  c.table btbl external :: c.newProgram newAt external :: c.deleteProgram deleteAt external ::
    c.glue.map fun x => dispatchProgram (glueAt x.1) external x

end Class

/-- The addresses that the linker and the loader have chosen for the sections, which do not
overlap, and for what is defined elsewhere. -/
structure Placement (c : Class Member) : Type where
  glueAt : Member → Word
  newAt : Word
  deleteAt : Word
  btbl : Word
  external : Symbol Member → Word
  apart : (c.programs external glueAt newAt deleteAt btbl).Pairwise
    fun p q => ∀ a, p.fetch a = none ∨ q.fetch a = none

namespace Placement

variable {c : Class Member} (p : Placement c)

/-- The memory of the linked programs. -/
def image : Image (Symbol Member) :=
  ⟨c.programs p.external p.glueAt p.newAt p.deleteAt p.btbl, p.apart⟩

/-- The sections one behind the other, with sixteen bytes for each function of the caller. -/
def inOrder [DecidableEq Member] (c : Class Member) (m : Member) : Word :=
  0x10000 + 16 * BitVec.ofNat 32 ((c.glue.lookup m).getD 0)

/-- A placement in that order. -/
def linked [DecidableEq Member] (c : Class Member)
    (h : (c.programs (fun _ => 0x20000) (inOrder c) 0x9000 0xa000 0x8000).Pairwise
      Program.Below) : Placement c where
  glueAt := inOrder c
  newAt := 0x9000
  deleteAt := 0xa000
  btbl := 0x8000
  external := fun _ => 0x20000
  apart := h.imp fun hbelow => hbelow.apart

/-- The address of a member as the class has it. -/
def own [DecidableEq Member] (m : Member) : Word := (c.table p.btbl p.external).address (.own m)

theorem table_mem : c.table p.btbl p.external ∈ p.image.programs := List.mem_cons_self

theorem new_mem : c.newProgram p.newAt p.external ∈ p.image.programs :=
  List.mem_cons_of_mem _ List.mem_cons_self

theorem delete_mem : c.deleteProgram p.deleteAt p.external ∈ p.image.programs :=
  List.mem_cons_of_mem _ (List.mem_cons_of_mem _ List.mem_cons_self)

theorem dispatch_mem {x : Member × ℕ} (hx : x ∈ c.glue) :
    Class.dispatchProgram (p.glueAt x.1) p.external x ∈ p.image.programs := by
  apply List.mem_cons_of_mem
  apply List.mem_cons_of_mem
  apply List.mem_cons_of_mem
  exact List.mem_map_of_mem hx

end Placement

/-! ## A call of a member -/

/-- What the system has put into an object that a caller knows as `handle`: the object itself and
the branch table of its class. -/
structure Refers (cpu : Cpu) (handle object btbl : Word) : Prop where
  points : cpu.load (handle + 4#32) = object
  branches : cpu.load (object + 8#32) = btbl

/-- The registers that `_Dispatch` changes: the object in place of the handle, and the table. -/
def dispatched (cpu : Cpu) (object btbl : Word) : Cpu := (cpu.set .r0 object).set .ip btbl

variable [DecidableEq Member] {q : Program (Symbol Member)} {k slotno : ℕ} {cpu : Cpu}
  {object btbl : Word}

/-- `_Dispatch` jumps into the branch table of the object. -/
theorem leads_dispatch (hat : q.HasAt k (instrs (dispatch slotno)))
    (h : Refers cpu (cpu.regs .r0) object btbl) :
    q.Leads 3 (q.addr k) (· = cpu) (btbl + BitVec.ofNat 32 (4 * slotno))
      (· = dispatched cpu object btbl) := by
  let loads : List Conditional := [(.al, .ldr .r0 .r0 4), (.al, .ldr .ip .r0 8)]
  have hsplit : q.HasAt k
      (loads.map Conditional.instr ++ [.addPc .ip (BitVec.ofNat 32 (4 * slotno))]) := hat
  have hblock : q.Leads 2 (q.addr k) (· = cpu) (q.addr (k + 2))
      (· = dispatched cpu object btbl) := by
    apply Program.Leads.block hsplit.left
    rintro _ rfl
    simp [loads, dispatched, h.points, h.branches]
  have hjump : q.Leads 1 (q.addr (k + 2)) (· = dispatched cpu object btbl)
      (btbl + BitVec.ofNat 32 (4 * slotno)) (· = dispatched cpu object btbl) := by
    apply Program.Leads.jump hat.tail.tail
    rintro _ rfl
    simp [dispatched]
  exact hblock.seq hjump

/-- A call of a member arrives at the member of the same name, within four instructions, with the
object in place of the handle. -/
theorem leads_call {c : Class Member} (p : Placement c) {m : Member} (hm : (m, slotno) ∈ c.glue)
    (h : Refers cpu (cpu.regs .r0) object p.btbl) :
    p.image.Leads 4 (p.glueAt m) (· = cpu) (p.own m) (· = dispatched cpu object p.btbl) := by
  have hdispatch := leads_dispatch (q := Class.dispatchProgram (p.glueAt m) p.external (m, slotno))
    (k := 0) (by rfl) h
  have hstart : (Class.dispatchProgram (p.glueAt m) p.external (m, slotno)).addr 0 =
      p.glueAt m := by
    unfold Program.addr
    exact BitVec.add_zero _
  rw [hstart] at hdispatch
  have hbranch : (c.table p.btbl p.external).Leads 1 (p.btbl + BitVec.ofNat 32 (4 * slotno))
      (· = dispatched cpu object p.btbl) (p.own m) (· = dispatched cpu object p.btbl) :=
    Program.Leads.branch (k := slotno) (.of_getElem? (c.agree _ hm)) fun _ _ => rfl
  exact (Image.leads_of_mem (p.dispatch_mem hm) hdispatch).seq
    (Image.leads_of_mem p.table_mem hbranch)

end

/-! ## The classes of the project -/

/-- The callers and the tables have the same numbers. -/
theorem tables_agree :
    (∀ x ∈ interfaceGlue, (instrs pmbedTLSTable)[x.2]? = some (.b .al (.own x.1))) ∧
    (∀ x ∈ connectionEndGlue,
      (instrs pmbedTLSConnectionEndTable)[x.2]? = some (.b .al (.own x.1))) ∧
    ∀ x ∈ callBackGlue, (instrs pmbedTLSCECallBackText)[x.2]? = some (.b .al (.own x.1)) := by
  decide +kernel

/-- No member is left out of the files of the callers. -/
theorem glue_complete :
    (∀ m : InterfaceMember, m = .classInfo ∨ m = .new ∨ m = .delete ∨
      m ∈ interfaceGlue.map Prod.fst) ∧
    (∀ m : EndMember, m = .classInfo ∨ m = .new ∨ m = .delete ∨
      m ∈ connectionEndGlue.map Prod.fst) ∧
    ∀ m : CallBackMember, m = .classInfo ∨ m = .new ∨ m = .delete ∨
      m ∈ callBackGlue.map Prod.fst := by
  refine ⟨?_, ?_, ?_⟩
  · intro m
    cases m <;> decide +kernel
  · intro m
    cases m <;> decide +kernel
  · intro m
    cases m <;> decide +kernel

/-- The texts are smaller than the memory. -/
theorem texts_fit :
    (4 * (instrs pmbedTLSTable).length < 2 ^ 32 ∧
      4 * (instrs (newFunction InterfaceMember.new (string "PMbedTLSInterface"))).length <
        2 ^ 32) ∧
    (4 * (instrs pmbedTLSConnectionEndTable).length < 2 ^ 32 ∧
      4 * (instrs (newFunction EndMember.new (string "PConnectionEnd"))).length < 2 ^ 32) ∧
    4 * (instrs pmbedTLSCECallBackText).length < 2 ^ 32 ∧
      4 * (instrs (newFunction CallBackMember.new (string "PCECallBack"))).length < 2 ^ 32 := by
  decide +kernel

/-- `PMbedTLS`, which `PMbedTLSInterface` is implemented by. -/
def pmbedTLS : Class InterfaceMember where
  protocol := "PMbedTLSInterface"
  classInfo := .classInfo
  new := .new
  delete := .delete
  hasNew := true
  glue := interfaceGlue
  complete := glue_complete.1
  text := pmbedTLSTable
  agree := tables_agree.1
  agreeNew := rfl
  agreeDelete := rfl
  fits := texts_fit.1.1
  fitsNew := texts_fit.1.2

/-- `PMbedTLSConnectionEnd`, which takes the place of the connection end of the Internet
Enabler. -/
def pmbedTLSConnectionEnd : Class EndMember where
  protocol := "PConnectionEnd"
  classInfo := .classInfo
  new := .new
  delete := .delete
  hasNew := true
  glue := connectionEndGlue
  complete := glue_complete.2.1
  text := pmbedTLSConnectionEndTable
  agree := tables_agree.2.1
  agreeNew := rfl
  agreeDelete := rfl
  fits := texts_fit.2.1.1
  fitsNew := texts_fit.2.1.2

/-- `PMbedTLSCECallBack`, which the inner connection end calls back. -/
def pmbedTLSCECallBack : Class CallBackMember where
  protocol := "PCECallBack"
  classInfo := .classInfo
  new := .new
  delete := .delete
  hasNew := false
  glue := callBackGlue
  complete := glue_complete.2.2
  text := pmbedTLSCECallBackText
  agree := tables_agree.2.2
  agreeNew := rfl
  agreeDelete := rfl
  fits := texts_fit.2.2.1
  fitsNew := texts_fit.2.2.2

/-- The three protocols. -/
inductive Protocol : Type where
  | interface
  | connectionEnd
  | callBack
  deriving DecidableEq, Repr

/-- The members of a protocol. -/
abbrev Protocol.Member : Protocol → Type
  | interface => InterfaceMember
  | connectionEnd => EndMember
  | callBack => CallBackMember

instance (k : Protocol) : DecidableEq k.Member := by
  cases k <;> infer_instance

/-- The class of the project that implements the protocol. -/
def Protocol.cls : (k : Protocol) → Class k.Member
  | interface => pmbedTLS
  | connectionEnd => pmbedTLSConnectionEnd
  | callBack => pmbedTLSCECallBack

/-! ## A placement -/

/-- With these addresses the sections do not overlap. -/
theorem sections_below :
    (pmbedTLSConnectionEnd.programs (fun _ => 0x20000)
      (Placement.inOrder pmbedTLSConnectionEnd) 0x9000 0xa000 0x8000).Pairwise Program.Below ∧
    (pmbedTLSCECallBack.programs (fun _ => 0x20000)
      (Placement.inOrder pmbedTLSCECallBack) 0x9000 0xa000 0x8000).Pairwise Program.Below := by
  decide +kernel

/-- The class of the connection end, below the functions of the ROM. -/
def connectionEndPlaced : Placement pmbedTLSConnectionEnd :=
  .linked pmbedTLSConnectionEnd sections_below.1

/-- The class of the call back, which is placed in the same way. -/
def callBackPlaced : Placement pmbedTLSCECallBack := .linked pmbedTLSCECallBack sections_below.2

/-- A processor that calls the object at `0x500` by the handle `0x400`; the stack ends at
`0x700`. -/
def calling : Cpu where
  regs := fun r => if r = .r0 then 0x400 else if r = .sp then 0x700 else 0
  flags := ⟨false, false, false, false⟩
  mem := fun w =>
    if w = 0x101 then 0x500 else if w = 0x142 then 0x8000 else if w = 0x144 then 0x600 else 0

/-- The handle points to the object, and the object to the table. -/
theorem calling_refers : Refers calling (calling.regs .r0) 0x500#32 0x8000#32 where
  points := rfl
  branches := rfl

/-! ## Calls -/

/-- **A call arrives.**  Wherever the sections are, a call of any member of any of the three
protocols, other than the three that the system calls itself, reaches the function of the class
with the same name in at most four instructions: `this` is the object, the other arguments, the
stack, the return address and the memory are as they were. -/
theorem call_arrives (k : Protocol) (p : Placement k.cls) (m : k.Member)
    (hinfo : m ≠ k.cls.classInfo) (hnew : m ≠ k.cls.new) (hdelete : m ≠ k.cls.delete) (cpu : Cpu)
    (object : Word) (h : Refers cpu (cpu.regs .r0) object p.btbl) :
    ∃ n ≤ 4, p.image.run n ⟨cpu, p.glueAt m⟩ = some ⟨dispatched cpu object p.btbl, p.own m⟩ := by
  have hglue : m ∈ k.cls.glue.map Prod.fst := by
    rcases k.cls.complete m with h | h | h | h
    · exact absurd h hinfo
    · exact absurd h hnew
    · exact absurd h hdelete
    · exact h
  obtain ⟨⟨m, slotno⟩, hm, rfl⟩ := List.mem_map.mp hglue
  obtain ⟨n, hn, _, hrun, rfl⟩ := leads_call p hm h cpu rfl
  exact ⟨n, hn, hrun⟩

/-- `PutBytesStart` of the connection end is called. -/
theorem call_arrives_putBytesStart : ∃ n ≤ 4, connectionEndPlaced.image.run n
    ⟨calling, connectionEndPlaced.glueAt .putBytesStart⟩ =
      some ⟨dispatched calling 0x500#32 0x8000#32, connectionEndPlaced.own .putBytesStart⟩ :=
  call_arrives .connectionEnd connectionEndPlaced .putBytesStart (by decide) (by decide)
    (by decide) calling 0x500#32 calling_refers

/-! ## On into the connection end -/

/-- Where the function of a member is behind the table of `PMbedTLSCECallBack.impl.s`. -/
def place (m : CallBackMember) : ℕ := (offset? (.own m) pmbedTLSCECallBackText).getD 0

/-- Each of these functions loads the field and branches on. -/
theorem place_spec : ∀ m ∈ callBacks, m ∈ callBackGlue.map Prod.fst ∧
    offset? (.own m) pmbedTLSCECallBackText = some (place m) ∧
      (instrs pmbedTLSCECallBackText)[place m]? = some (.op .al (.ldr .r0 .r0 16)) ∧
      (instrs pmbedTLSCECallBackText)[place m + 1]? = some (.b .al (.connectionEnd m)) ∧
      offset? (.connectionEnd m) pmbedTLSCECallBackText = none := by
  decide +kernel

/-- **A call back arrives in the connection end.**  Every call that the inner connection end makes
through `PCECallBack` reaches the function of `PMbedTLSConnectionEnd` of the same name with `CB` in
at most six instructions, with the connection end of the object as `this` and everything else as
it was. -/
theorem callBack_arrives (p : Placement pmbedTLSCECallBack) (m : CallBackMember)
    (hm : m ∈ callBacks) (cpu : Cpu) (object : Word)
    (h : Refers cpu (cpu.regs .r0) object p.btbl) :
    ∃ n ≤ 6, p.image.run n ⟨cpu, p.glueAt m⟩ =
      some ⟨dispatched cpu (cpu.load (object + 16#32)) p.btbl, p.external (.connectionEnd m)⟩ := by
  obtain ⟨hglue, hoffset, hload, hbranch, hexternal⟩ := place_spec m hm
  obtain ⟨⟨m, slotno⟩, hslot, rfl⟩ := List.mem_map.mp hglue
  let q := pmbedTLSCECallBack.table p.btbl p.external
  let after := dispatched cpu (cpu.load (object + 16#32)) p.btbl
  have hown : p.own m = q.addr (place m) := by
    unfold Placement.own Program.address
    rw [show offset? (.own m) (pmbedTLSCECallBack.table p.btbl p.external).text = _ from hoffset]
  have hout : q.address (.connectionEnd m) = p.external (.connectionEnd m) := by
    unfold Program.address
    rw [show offset? (.connectionEnd m) q.text = none from hexternal]
    rfl
  have hfield : q.Leads 1 (q.addr (place m)) (· = dispatched cpu object p.btbl)
      (q.addr (place m + 1)) (· = after) := by
    apply Program.Leads.block (l := [(.al, .ldr .r0 .r0 16)]) (.of_getElem? hload)
    rintro _ rfl
    simp [after, dispatched, Cpu.set_comm]
  have hleave : q.Leads 1 (q.addr (place m + 1)) (· = after) (p.external (.connectionEnd m))
      (· = after) := by
    rw [← hout]
    exact Program.Leads.branch (.of_getElem? hbranch) fun _ _ => rfl
  have hcall := leads_call p hslot h
  rw [hown] at hcall
  have hall := hcall.seq (Image.leads_of_mem p.table_mem (hfield.seq hleave))
  obtain ⟨n, hn, _, hrun, rfl⟩ := hall cpu rfl
  exact ⟨n, hn, hrun⟩

/-- `GetComplete` of the call back is called. -/
theorem callBack_arrives_getComplete : ∃ n ≤ 6, callBackPlaced.image.run n
    ⟨calling, callBackPlaced.glueAt .getComplete⟩ =
      some ⟨dispatched calling 0x600#32 0x8000#32, 0x20000#32⟩ :=
  callBack_arrives callBackPlaced .getComplete (by decide) calling 0x500#32 calling_refers

end Protocols

end NewtonTLS
