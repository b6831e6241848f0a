/-
# The division routines of the runtime

The package is compiled for a processor without a divide instruction.  `_udivsi3.s`, `_umodsi3.s`
and `_divsi3.s` are the routines that the compiled code calls for `/` and `%`.  Their text is here
line by line, the macros of `_divsi3.s` as functions of their arguments, and the local labels
under the name of their routine.
-/
import NewtonTLS.Arm

open Arm

namespace Division

/-- The labels of the three files.  `div0` is defined outside of them. -/
inductive Label where
  | udivsi3 | aeabi_uidiv | udivLoop1 | udivBignum | udivLoop3 | udivGotResult | udivDiv0
  | umodsi3 | umodLoop1 | umodBignum | umodLoop3 | umodDiv0
  | aeabi_uidivmod | aeabi_idivmod
  | divsi3 | aeabi_idiv | divShift4 | divShift1 | divLoop | div10 | div11 | div12 | divDiv0
  | div0
  deriving DecidableEq, Repr

/-! ## Mnemonics -/

/-- A label. -/
abbrev label (l : Label) : Line Label := .label l

/-- An operation under a condition. -/
abbrev on (c : Cond) (o : Op) : Line Label := .instr (.op c o)

/-- An operation without a condition. -/
abbrev always (o : Op) : Line Label := on .al o

/-- `b` under a condition. -/
abbrev branch (c : Cond) (l : Label) : Line Label := .instr (.b c l)

/-- `bl`. -/
abbrev bl (l : Label) : Line Label := .instr (.bl l)

/-- `mov pc, lr` under a condition. -/
abbrev retOn (c : Cond) : Line Label := .instr (.movPc c .lr)

/-- The return at the end of a call, with `lr` from the stack. -/
abbrev popPc : Line Label := .instr .popPc

/-- `cmp`. -/
abbrev cmp (n : Reg) (o : Operand) : Op := .test .cmp n o

/-- `tst`. -/
abbrev tst (n : Reg) (o : Operand) : Op := .test .tst n o

/-- `teq`. -/
abbrev teq (n : Reg) (o : Operand) : Op := .test .teq n o

/-- `mov`. -/
abbrev mov (d : Reg) (o : Operand) : Op := .mov false d o

/-- `movs`. -/
abbrev movs (d : Reg) (o : Operand) : Op := .mov true d o

/-- `add`. -/
abbrev add (d n : Reg) (o : Operand) : Op := .binary .add false d n o

/-- `sub`. -/
abbrev sub (d n : Reg) (o : Operand) : Op := .binary .sub false d n o

/-- `subs`. -/
abbrev subs (d n : Reg) (o : Operand) : Op := .binary .sub true d n o

/-- `rsb`. -/
abbrev rsb (d n : Reg) (o : Operand) : Op := .binary .rsb false d n o

/-- `orr`. -/
abbrev orr (d n : Reg) (o : Operand) : Op := .binary .orr false d n o

/-- `eor`. -/
abbrev eor (d n : Reg) (o : Operand) : Op := .binary .eor false d n o

/-- `ands`. -/
abbrev ands (d n : Reg) (o : Operand) : Op := .binary .and true d n o

/-- `#w`. -/
abbrev imm (w : Word) : Operand := .imm w

/-- A register as an operand. -/
abbrev reg (r : Reg) : Operand := .reg r

/-- `lsl #k`. -/
abbrev lsl (r : Reg) (k : ℕ) : Operand := .shifted r .lsl k

/-- `lsr #k`. -/
abbrev lsr (r : Reg) (k : ℕ) : Operand := .shifted r .lsr k

/-- `asr #k`. -/
abbrev asr (r : Reg) (k : ℕ) : Operand := .shifted r .asr k

/-- `ror #k`. -/
abbrev ror (r : Reg) (k : ℕ) : Operand := .shifted r .ror k

/-! ## `_udivsi3.s` -/

section

/-- The names of the registers, as in the text. -/
abbrev dividend : Reg := .r0

/-- The divisor, which is shifted up and down again. -/
abbrev divisor : Reg := .r1

/-- The quotient so far. -/
abbrev result : Reg := .r2

/-- The bit of the quotient that is tried. -/
abbrev curbit : Reg := .r3

/-- The text of `_udivsi3.s`, with `__aeabi_uidivmod` and the division by zero. -/
def udivsi3 : List (Line Label) := [
  label .udivsi3,
  label .aeabi_uidiv,
  always (cmp divisor (imm 0)),
  branch .eq .udivDiv0,
  always (mov curbit (imm 1)),
  always (mov result (imm 0)),
  always (cmp dividend (reg divisor)),
  branch .cc .udivGotResult,
  label .udivLoop1,
  always (cmp divisor (imm 0x10000000)),
  on .cc (cmp divisor (reg dividend)),
  on .cc (mov divisor (lsl divisor 4)),
  on .cc (mov curbit (lsl curbit 4)),
  branch .cc .udivLoop1,
  label .udivBignum,
  always (cmp divisor (imm 0x80000000)),
  on .cc (cmp divisor (reg dividend)),
  on .cc (mov divisor (lsl divisor 1)),
  on .cc (mov curbit (lsl curbit 1)),
  branch .cc .udivBignum,
  label .udivLoop3,
  always (cmp dividend (reg divisor)),
  on .cs (sub dividend dividend (reg divisor)),
  on .cs (orr result result (reg curbit)),
  always (cmp dividend (lsr divisor 1)),
  on .cs (sub dividend dividend (lsr divisor 1)),
  on .cs (orr result result (lsr curbit 1)),
  always (cmp dividend (lsr divisor 2)),
  on .cs (sub dividend dividend (lsr divisor 2)),
  on .cs (orr result result (lsr curbit 2)),
  always (cmp dividend (lsr divisor 3)),
  on .cs (sub dividend dividend (lsr divisor 3)),
  on .cs (orr result result (lsr curbit 3)),
  always (cmp dividend (imm 0)),
  on .ne (movs curbit (lsr curbit 4)),
  on .ne (mov divisor (lsr divisor 4)),
  branch .ne .udivLoop3,
  label .udivGotResult,
  always (mov .r0 (reg result)),
  retOn .al,
  label .udivDiv0,
  always (.push [.lr]),
  bl .div0,
  always (mov .r0 (imm 0)),
  popPc,
  label .aeabi_uidivmod,
  always (.push [.r0, .r1, .ip, .lr]),
  bl .aeabi_uidiv,
  always (.pop [.r1, .r2, .ip, .lr]),
  always (.mul .r3 .r0 .r2),
  always (sub .r1 .r1 (reg .r3)),
  retOn .al,
  label .aeabi_idivmod,
  always (.push [.r0, .r1, .ip, .lr]),
  bl .aeabi_idiv,
  always (.pop [.r1, .r2, .ip, .lr]),
  always (.mul .r3 .r0 .r2),
  always (sub .r1 .r1 (reg .r3)),
  retOn .al]

/-! ## `_umodsi3.s` -/

/-- The bits for which too much may have been subtracted. -/
abbrev overdone : Reg := .r2

/-- The text of `_umodsi3.s`. -/
def umodsi3 : List (Line Label) := [
  label .umodsi3,
  always (cmp divisor (imm 0)),
  branch .eq .umodDiv0,
  always (mov curbit (imm 1)),
  always (cmp dividend (reg divisor)),
  retOn .cc,
  label .umodLoop1,
  always (cmp divisor (imm 0x10000000)),
  on .cc (cmp divisor (reg dividend)),
  on .cc (mov divisor (lsl divisor 4)),
  on .cc (mov curbit (lsl curbit 4)),
  branch .cc .umodLoop1,
  label .umodBignum,
  always (cmp divisor (imm 0x80000000)),
  on .cc (cmp divisor (reg dividend)),
  on .cc (mov divisor (lsl divisor 1)),
  on .cc (mov curbit (lsl curbit 1)),
  branch .cc .umodBignum,
  label .umodLoop3,
  always (mov overdone (imm 0)),
  always (cmp dividend (reg divisor)),
  on .cs (sub dividend dividend (reg divisor)),
  always (cmp dividend (lsr divisor 1)),
  on .cs (sub dividend dividend (lsr divisor 1)),
  on .cs (orr overdone overdone (ror curbit 1)),
  always (cmp dividend (lsr divisor 2)),
  on .cs (sub dividend dividend (lsr divisor 2)),
  on .cs (orr overdone overdone (ror curbit 2)),
  always (cmp dividend (lsr divisor 3)),
  on .cs (sub dividend dividend (lsr divisor 3)),
  on .cs (orr overdone overdone (ror curbit 3)),
  always (mov .ip (reg curbit)),
  always (cmp dividend (imm 0)),
  on .ne (movs curbit (lsr curbit 4)),
  on .ne (mov divisor (lsr divisor 4)),
  branch .ne .umodLoop3,
  always (ands overdone overdone (imm 0xe0000000)),
  retOn .eq,
  always (tst overdone (ror .ip 3)),
  on .ne (add dividend dividend (lsr divisor 3)),
  always (tst overdone (ror .ip 2)),
  on .ne (add dividend dividend (lsr divisor 2)),
  always (tst overdone (ror .ip 1)),
  on .ne (add dividend dividend (lsr divisor 1)),
  retOn .al,
  label .umodDiv0,
  always (.push [.lr]),
  bl .div0,
  always (mov .r0 (imm 0)),
  popPc]

end

/-! ## `_divsi3.s` -/

/-- The macro of the same name, with the labels `1:` that it defines. -/
def ARM_DIV_BODY (dividend divisor result curbit : Reg) (shift4 shift1 loop : Label) :
    List (Line Label) := [
  always (tst divisor (imm 0xe0000000)),
  on .eq (mov divisor (lsl divisor 3)),
  on .eq (mov curbit (imm 8)),
  on .ne (mov curbit (imm 1)),
  label shift4,
  always (cmp divisor (imm 0x10000000)),
  on .cc (cmp divisor (reg dividend)),
  on .cc (mov divisor (lsl divisor 4)),
  on .cc (mov curbit (lsl curbit 4)),
  branch .cc shift4,
  label shift1,
  always (cmp divisor (imm 0x80000000)),
  on .cc (cmp divisor (reg dividend)),
  on .cc (mov divisor (lsl divisor 1)),
  on .cc (mov curbit (lsl curbit 1)),
  branch .cc shift1,
  always (mov result (imm 0)),
  label loop,
  always (cmp dividend (reg divisor)),
  on .cs (sub dividend dividend (reg divisor)),
  on .cs (orr result result (reg curbit)),
  always (cmp dividend (lsr divisor 1)),
  on .cs (sub dividend dividend (lsr divisor 1)),
  on .cs (orr result result (lsr curbit 1)),
  always (cmp dividend (lsr divisor 2)),
  on .cs (sub dividend dividend (lsr divisor 2)),
  on .cs (orr result result (lsr curbit 2)),
  always (cmp dividend (lsr divisor 3)),
  on .cs (sub dividend dividend (lsr divisor 3)),
  on .cs (orr result result (lsr curbit 3)),
  always (cmp dividend (imm 0)),
  on .ne (movs curbit (lsr curbit 4)),
  on .ne (mov divisor (lsr divisor 4)),
  branch .ne loop]

/-- The macro of the same name: the order of a power of two. -/
def ARM_DIV2_ORDER (divisor order : Reg) : List (Line Label) := [
  always (cmp divisor (imm (1 <<< 16))),
  on .cs (mov divisor (lsr divisor 16)),
  on .cs (mov order (imm 16)),
  on .cc (mov order (imm 0)),
  always (cmp divisor (imm (1 <<< 8))),
  on .cs (mov divisor (lsr divisor 8)),
  on .cs (add order order (imm 8)),
  always (cmp divisor (imm (1 <<< 4))),
  on .cs (mov divisor (lsr divisor 4)),
  on .cs (add order order (imm 4)),
  always (cmp divisor (imm (1 <<< 2))),
  on .hi (add order order (imm 3)),
  on .ls (add order order (lsr divisor 1))]

/-- The text of `_divsi3.s`, with `__aeabi_idivmod`. -/
def divsi3 : List (Line Label) := [
  label .divsi3,
  label .aeabi_idiv,
  always (cmp .r1 (imm 0)),
  always (eor .ip .r0 (reg .r1)),
  branch .eq .divDiv0,
  on .mi (rsb .r1 .r1 (imm 0)),
  always (subs .r2 .r1 (imm 1)),
  branch .eq .div10,
  always (movs .r3 (reg .r0)),
  on .mi (rsb .r3 .r0 (imm 0)),
  always (cmp .r3 (reg .r1)),
  branch .ls .div11,
  always (tst .r1 (reg .r2)),
  branch .eq .div12]
  ++ ARM_DIV_BODY .r3 .r1 .r0 .r2 .divShift4 .divShift1 .divLoop
  ++ [
  always (cmp .ip (imm 0)),
  on .mi (rsb .r0 .r0 (imm 0)),
  retOn .al,
  label .div10,
  always (teq .ip (reg .r0)),
  on .mi (rsb .r0 .r0 (imm 0)),
  retOn .al,
  label .div11,
  on .cc (mov .r0 (imm 0)),
  on .eq (mov .r0 (asr .ip 31)),
  on .eq (orr .r0 .r0 (imm 1)),
  retOn .al,
  label .div12]
  ++ ARM_DIV2_ORDER .r1 .r2
  ++ [
  always (cmp .ip (imm 0)),
  always (mov .r0 (.shiftedBy .r3 .lsr .r2)),
  on .mi (rsb .r0 .r0 (imm 0)),
  retOn .al,
  label .divDiv0,
  always (.push [.lr]),
  bl .div0,
  always (mov .r0 (imm 0)),
  popPc]

/-! ## The linked routines -/

/-- The three files one after the other. -/
def text : List (Line Label) := udivsi3 ++ umodsi3 ++ divsi3

/-- The text is shorter than the memory. -/
theorem text_fits : 4 * (instrs text).length < 2 ^ 32 := by
  decide +kernel

/-- The routines at some place in the memory, with the address of `__div0` in `external`. -/
def routines (base : Word) (external : Label → Word) : Program Label where
  base := base
  text := text
  external := external
  fits := text_fits

end Division
