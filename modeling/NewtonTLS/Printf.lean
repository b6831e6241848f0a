/-
# Formatted output

The functions of `NewtonRuntime/printf.c`, on the Newton's processor: `int`, `long`, `size_t` and
pointers have 32 bits, `long long` and `intmax_t` have 64, and `char` has no sign.

A format is the list of its characters; behind them is the character 0.  A `va_list` is the list
of the arguments that are left.  Reading behind the 0 or an argument of another kind is undefined,
which is `none`.  The characters that `_ftoa` and `_etoa` output are a parameter, but not the loop
of `_ftoa` that limits the precision: it stops when the buffer is full, and with a precision of 42
or more `pow10` is read behind its end, which is undefined too.
-/
import NewtonTLS.Output

namespace Printf

open Output

/-- A `char`. -/
abbrev Ch : Type := UInt8

/-- The code of a character. -/
def ch (c : Char) : Ch := UInt8.ofNat c.toNat

/-- The flags `FLAGS_ZEROPAD` to `FLAGS_ADAPT_EXP`. -/
structure Flags : Type where
  zeropad : Bool := false
  left : Bool := false
  plus : Bool := false
  space : Bool := false
  hash : Bool := false
  uppercase : Bool := false
  char : Bool := false
  short : Bool := false
  long : Bool := false
  longLong : Bool := false
  precision : Bool := false
  adaptExp : Bool := false
  deriving DecidableEq, Repr

/-- An argument: a word, which an `int`, a `long` and a pointer are, a `long long`, a string, which
ends at its first 0, or a `double`. -/
inductive Arg (Double : Type) : Type where
  | word (w : UInt32)
  | longLong (v : UInt64)
  | string (p : List Ch)
  | double (d : Double)
  deriving DecidableEq, Repr

/-- The cases of `_ftoa`: a value that is no number or is infinite, one beyond `PRINTF_MAX_FLOAT`,
and any other. -/
inductive FloatCase : Type where
  | special
  | large
  | fixed
  deriving DecidableEq, Repr

/-- The characters that `_ftoa` outputs for a special value, for the width and the flags, and for
one that is written in full, for the precision, the width and the flags; and those of `_etoa`,
unless it is undefined, as the call of `_ftoa` in it can be. -/
structure FloatText (Double : Type) : Type where
  case : Double → FloatCase
  special : Double → UInt32 → Flags → List Ch
  fixed : Double → UInt32 → UInt32 → Flags → List Ch
  etoa : Double → UInt32 → UInt32 → Flags → Option (List Ch)

/-- The length of the buffer of the integer conversions. -/
def PRINTF_NTOA_BUFFER_SIZE : ℕ := 32

/-- The length of the buffer of `_ftoa`. -/
def PRINTF_FTOA_BUFFER_SIZE : ℕ := 32

/-- The precision of a `double` when there is none in the format. -/
def PRINTF_DEFAULT_FLOAT_PRECISION : UInt32 := 6

/-- The loop of `_ftoa` that limits the precision to 9, while there is room for `room` more zeros in
the buffer. -/
def limitPrecision : ℕ → UInt32 → UInt32
  | room + 1, prec => if prec > 9 then limitPrecision room (prec - 1) else prec
  | 0, prec => prec

/-- The index into the table `pow10` of `_ftoa`. -/
def pow10Index (prec : UInt32) (flags : Flags) : UInt32 :=
  let prec := if !flags.precision then PRINTF_DEFAULT_FLOAT_PRECISION else prec
  limitPrecision PRINTF_FTOA_BUFFER_SIZE prec

/-- The number of entries of `pow10`. -/
def pow10Length : UInt32 := 10

/-- `_ftoa`: what it outputs, unless it reads behind the end of `pow10`. -/
def ftoa {Double : Type} (floats : FloatText Double) (value : Double) (prec width : UInt32)
    (flags : Flags) : Option (List Ch) :=
  match floats.case value with
  | .special => some (floats.special value width flags)
  | .large => floats.etoa value prec width flags
  | .fixed =>
    if pow10Index prec flags < pow10Length then some (floats.fixed value prec width flags)
    else none

section arguments

variable {Double : Type}

/-- `va_arg(va, int)`, or another type of a word. -/
def vaWord : List (Arg Double) → Option (UInt32 × List (Arg Double))
  | .word w :: va => some (w, va)
  | _ => none

/-- `va_arg(va, long long)`. -/
def vaLongLong : List (Arg Double) → Option (UInt64 × List (Arg Double))
  | .longLong v :: va => some (v, va)
  | _ => none

/-- `va_arg(va, char*)`. -/
def vaString : List (Arg Double) → Option (List Ch × List (Arg Double))
  | .string p :: va => some (p, va)
  | _ => none

/-- `va_arg(va, double)`. -/
def vaDouble : List (Arg Double) → Option (Double × List (Arg Double))
  | .double d :: va => some (d, va)
  | _ => none

end arguments

/-! ## Strings and digits -/

/-- `_strnlen_s`. -/
def strnlenS : List Ch → ℕ → ℕ
  | _ :: s, maxsize + 1 => strnlenS s maxsize + 1
  | _, _ => 0

/-- `_is_digit`. -/
def isDigit (c : Ch) : Bool := decide (ch '0' ≤ c ∧ c ≤ ch '9')

/-- `_atoi`, from the value `i` on. -/
def atoi : UInt32 → List Ch → UInt32 × List Ch
  | i, c :: str => if isDigit c then atoi (i * 10 + (c - ch '0').toUInt32) str else (i, c :: str)
  | i, [] => (i, [])

section output

variable {σ : Type} (out : Out Ch σ)

/-- `n` rounds of a loop that outputs a space. -/
def outSpaces : ℕ → Cursor σ → Cursor σ
  | 0, p => p
  | n + 1, p => outSpaces n (put out (ch ' ') p)

/-- `while (len) out(buf[--len])`. -/
def outReversed (buf : List Ch) : ℕ → Cursor σ → Cursor σ
  | 0, p => p
  | len + 1, p => outReversed buf len (put out (buf.getD len 0) p)

/-- `while (idx - start_idx < width) out(' ')`, at most `n` times. -/
def outUpTo (start_idx width : UInt32) : ℕ → Cursor σ → Cursor σ
  | 0, p => p
  | n + 1, p =>
    if p.idx - start_idx < width then outUpTo start_idx width n (put out (ch ' ') p) else p

/-- `_out_rev`. -/
def outRev (p : Cursor σ) (buf : List Ch) (width : UInt32) (flags : Flags) : Cursor σ :=
  let start_idx := p.idx
  let p := if !flags.left && !flags.zeropad then outSpaces out (width.toNat - buf.length) p else p
  let p := outReversed out buf buf.length p
  if flags.left then outUpTo out start_idx width width.toNat p else p

/-! ## Integers -/

/-- `buf[len++] = '0'` while `len` is less than `limit` and there is room, at most `n` times. -/
def padZeros (limit : ℕ) : ℕ → List Ch → List Ch
  | 0, buf => buf
  | n + 1, buf =>
    if buf.length < limit ∧ buf.length < PRINTF_NTOA_BUFFER_SIZE then
      padZeros limit n (buf ++ [ch '0'])
    else buf

/-- `buf[len++] = c` if there is room. -/
def push (c : Ch) (buf : List Ch) : List Ch :=
  if buf.length < PRINTF_NTOA_BUFFER_SIZE then buf ++ [c] else buf

/-- The part of `_ntoa_format` for leading zeros; gives the width, too. -/
def padLeading (buf : List Ch) (negative : Bool) (prec width : UInt32) (flags : Flags) :
    UInt32 × List Ch :=
  if !flags.left then
    let width := if width ≠ 0 ∧ flags.zeropad ∧ (negative ∨ flags.plus ∨ flags.space) then width - 1
      else width
    let buf := padZeros prec.toNat PRINTF_NTOA_BUFFER_SIZE buf
    let buf := if flags.zeropad then padZeros width.toNat PRINTF_NTOA_BUFFER_SIZE buf else buf
    (width, buf)
  else (width, buf)

/-- The part of `_ntoa_format` for `FLAGS_HASH`. -/
def handleHash (buf : List Ch) (base : ℕ) (prec width : UInt32) (flags : Flags) : List Ch :=
  if flags.hash then
    let buf := if !flags.precision ∧ buf.length ≠ 0 ∧
        (buf.length = prec.toNat ∨ buf.length = width.toNat) then
        let buf := buf.dropLast
        if buf.length ≠ 0 ∧ base = 16 then buf.dropLast else buf
      else buf
    let buf := if base = 16 ∧ !flags.uppercase ∧ buf.length < PRINTF_NTOA_BUFFER_SIZE then
        buf ++ [ch 'x']
      else if base = 16 ∧ flags.uppercase ∧ buf.length < PRINTF_NTOA_BUFFER_SIZE then
        buf ++ [ch 'X']
      else if base = 2 ∧ buf.length < PRINTF_NTOA_BUFFER_SIZE then buf ++ [ch 'b']
      else buf
    push (ch '0') buf
  else buf

/-- The part of `_ntoa_format` for the sign. -/
def pushSign (buf : List Ch) (negative : Bool) (flags : Flags) : List Ch :=
  if buf.length < PRINTF_NTOA_BUFFER_SIZE then
    if negative then buf ++ [ch '-']
    else if flags.plus then buf ++ [ch '+']
    else if flags.space then buf ++ [ch ' ']
    else buf
  else buf

/-- `_ntoa_format`. -/
def ntoaFormat (p : Cursor σ) (buf : List Ch) (negative : Bool) (base : ℕ) (prec width : UInt32)
    (flags : Flags) : Cursor σ :=
  let (width, buf) := padLeading buf negative prec width flags
  let buf := handleHash buf base prec width flags
  let buf := pushSign buf negative flags
  outRev out p buf width flags

/-- The character of a digit. -/
def digitChar (digit : ℕ) (flags : Flags) : Ch :=
  if digit < 10 then ch '0' + UInt8.ofNat digit
  else (if flags.uppercase then ch 'A' else ch 'a') + UInt8.ofNat digit - 10

/-- The loop over the digits, at most `n + 1` rounds. -/
def ntoaDigits (base : ℕ) (flags : Flags) : ℕ → ℕ → List Ch → List Ch
  | 0, value, buf => buf ++ [digitChar (value % base) flags]
  | n + 1, value, buf =>
    let buf := buf ++ [digitChar (value % base) flags]
    let value := value / base
    if value ≠ 0 ∧ buf.length < PRINTF_NTOA_BUFFER_SIZE then ntoaDigits base flags n value buf
    else buf

/-- What `_ntoa_long` and `_ntoa_long_long` do for values of their types. -/
def ntoa (p : Cursor σ) (value : ℕ) (negative : Bool) (base : ℕ) (prec width : UInt32)
    (flags : Flags) : Cursor σ :=
  let flags := if value = 0 then { flags with hash := false } else flags
  let buf := if !flags.precision ∨ value ≠ 0 then
      ntoaDigits base flags (PRINTF_NTOA_BUFFER_SIZE - 1) value []
    else []
  ntoaFormat out p buf negative base prec width flags

/-- `_ntoa_long`. -/
def ntoaLong (p : Cursor σ) (value : UInt32) (negative : Bool) (base : ℕ) (prec width : UInt32)
    (flags : Flags) : Cursor σ :=
  ntoa out p value.toNat negative base prec width flags

/-- `_ntoa_long_long`. -/
def ntoaLongLong (p : Cursor σ) (value : UInt64) (negative : Bool) (base : ℕ)
    (prec width : UInt32) (flags : Flags) : Cursor σ :=
  ntoa out p value.toNat negative base prec width flags

/-! ## Conversions -/

variable {Double : Type}

/-- The base of an integer specifier. -/
def integerBase (c : Ch) : ℕ :=
  if c = ch 'x' ∨ c = ch 'X' then 16 else if c = ch 'o' then 8 else if c = ch 'b' then 2 else 10

/-- The flags for an integer specifier. -/
def integerFlags (c : Ch) (flags : Flags) : Flags :=
  let flags := if integerBase c = 10 then { flags with hash := false } else flags
  let flags := if c = ch 'X' then { flags with uppercase := true } else flags
  let flags := if c ≠ ch 'i' ∧ c ≠ ch 'd' then { flags with plus := false, space := false }
    else flags
  if flags.precision then { flags with zeropad := false } else flags

/-- A `long` or a `long long` to convert: its magnitude, and whether it is negative. -/
inductive Integer : Type where
  | long (value : UInt32) (negative : Bool)
  | longLong (value : UInt64) (negative : Bool)
  deriving DecidableEq, Repr

/-- The argument of an integer specifier. -/
def integerArg (c : Ch) (flags : Flags) (va : List (Arg Double)) :
    Option (Integer × List (Arg Double)) :=
  if c = ch 'i' ∨ c = ch 'd' then
    if flags.longLong then
      (vaLongLong va).map fun (v, va) =>
        let value := v.toInt64
        (.longLong (if value > 0 then value else 0 - value).toUInt64 (decide (value < 0)), va)
    else
      (vaWord va).map fun (w, va) =>
        let value := if flags.long then w.toInt32
          else if flags.char then w.toUInt8.toUInt32.toInt32
          else if flags.short then w.toUInt16.toInt16.toInt32 else w.toInt32
        (.long (if value > 0 then value else 0 - value).toUInt32 (decide (value < 0)), va)
  else
    if flags.longLong then (vaLongLong va).map fun (v, va) => (.longLong v false, va)
    else
      (vaWord va).map fun (w, va) =>
        let value := if flags.long then w else if flags.char then w.toUInt8.toUInt32
          else if flags.short then w.toUInt16.toUInt32 else w
        (.long value false, va)

/-- Its conversion. -/
def outInteger (p : Cursor σ) (value : Integer) (base : ℕ) (prec width : UInt32) (flags : Flags) :
    Cursor σ :=
  match value with
  | .long value negative => ntoaLong out p value negative base prec width flags
  | .longLong value negative => ntoaLongLong out p value negative base prec width flags

/-- `_vsnprintf` for the specifiers `d`, `i`, `u`, `x`, `X`, `o` and `b`. -/
def convertInteger (c : Ch) (flags : Flags) (precision width : UInt32) (va : List (Arg Double))
    (p : Cursor σ) : Option (Cursor σ × List (Arg Double)) :=
  let flags := integerFlags c flags
  (integerArg c flags va).map fun (value, va) =>
    (outInteger out p value (integerBase c) precision width flags, va)

/-- The loop of the specifier `s` over the characters, with the precision as a count if there is
one. -/
def outString : List Ch → Option ℕ → Cursor σ → Cursor σ
  | c :: s, none, p => outString s none (put out c p)
  | c :: s, some (precision + 1), p => outString s (some precision) (put out c p)
  | _, _, p => p

/-- The specifier `s`. -/
def convertString (str : List Ch) (flags : Flags) (precision width : UInt32) (p : Cursor σ) :
    Cursor σ :=
  let l := strnlenS str (if precision ≠ 0 then precision.toNat else UInt32.size - 1)
  let l := if flags.precision then (if l < precision.toNat then l else precision.toNat) else l
  let p := if !flags.left then outSpaces out (width.toNat - l) p else p
  let p := outString out str (if flags.precision then some precision.toNat else none) p
  if flags.left then outSpaces out (width.toNat - l) p else p

/-- The specifier `c`. -/
def convertChar (c : Ch) (flags : Flags) (width : UInt32) (p : Cursor σ) : Cursor σ :=
  let p := if !flags.left then outSpaces out (width.toNat - 1) p else p
  let p := put out c p
  if flags.left then outSpaces out (width.toNat - 1) p else p

/-- The specifiers of integers. -/
def isInteger (c : Ch) : Bool :=
  decide (c ∈ [ch 'd', ch 'i', ch 'u', ch 'x', ch 'X', ch 'o', ch 'b'])

variable (floats : FloatText Double)

/-- `_vsnprintf` for the specifier `c`. -/
def convert (c : Ch) (flags : Flags) (precision width : UInt32) (va : List (Arg Double))
    (p : Cursor σ) : Option (Cursor σ × List (Arg Double)) :=
  if isInteger c then convertInteger out c flags precision width va p
  else if c = ch 'f' ∨ c = ch 'F' then
    let flags := if c = ch 'F' then { flags with uppercase := true } else flags
    (vaDouble va).bind fun (d, va) =>
      (ftoa floats d precision width flags).map fun text => (emit out text p, va)
  else if c = ch 'e' ∨ c = ch 'E' ∨ c = ch 'g' ∨ c = ch 'G' then
    let flags := if c = ch 'g' ∨ c = ch 'G' then { flags with adaptExp := true } else flags
    let flags := if c = ch 'E' ∨ c = ch 'G' then { flags with uppercase := true } else flags
    (vaDouble va).bind fun (d, va) =>
      (floats.etoa d precision width flags).map fun text => (emit out text p, va)
  else if c = ch 'c' then
    (vaWord va).map fun (w, va) => (convertChar out w.toUInt8 flags width p, va)
  else if c = ch 's' then
    (vaString va).map fun (str, va) => (convertString out str flags precision width p, va)
  else if c = ch 'p' then
    let flags := { flags with zeropad := true, uppercase := true }
    (vaWord va).map fun (w, va) => (ntoaLong out p w false 16 precision 8 flags, va)
  else if c = ch '%' then some (put out (ch '%') p, va)
  else some (put out c p, va)

end output

/-! ## The format -/

section format

variable {Double : Type}

/-- `_vsnprintf`: the flags. -/
def evalFlags : Flags → List Ch → Flags × List Ch
  | flags, [] => (flags, [])
  | flags, c :: format =>
    if c = ch '0' then evalFlags { flags with zeropad := true } format
    else if c = ch '-' then evalFlags { flags with left := true } format
    else if c = ch '+' then evalFlags { flags with plus := true } format
    else if c = ch ' ' then evalFlags { flags with space := true } format
    else if c = ch '#' then evalFlags { flags with hash := true } format
    else (flags, c :: format)

/-- `_vsnprintf`: the width field. -/
def evalWidth (flags : Flags) (format : List Ch) (va : List (Arg Double)) :
    Option (UInt32 × Flags × List Ch × List (Arg Double)) :=
  match format with
  | [] => some (0, flags, [], va)
  | c :: rest =>
    if isDigit c then
      let (width, rest) := atoi 0 (c :: rest)
      some (width, flags, rest, va)
    else if c = ch '*' then
      (vaWord va).map fun (v, va) =>
        let w := v.toInt32
        if w < 0 then ((-w).toUInt32, { flags with left := true }, rest, va)
        else (w.toUInt32, flags, rest, va)
    else some (0, flags, c :: rest, va)

/-- `_vsnprintf`: the precision field. -/
def evalPrecision (flags : Flags) (format : List Ch) (va : List (Arg Double)) :
    Option (UInt32 × Flags × List Ch × List (Arg Double)) :=
  match format with
  | [] => some (0, flags, [], va)
  | c :: rest =>
    if c = ch '.' then
      let flags := { flags with precision := true }
      match rest with
      | [] => some (0, flags, [], va)
      | c :: rest =>
        if isDigit c then
          let (precision, rest) := atoi 0 (c :: rest)
          some (precision, flags, rest, va)
        else if c = ch '*' then
          (vaWord va).map fun (v, va) =>
            let prec := v.toInt32
            (if prec > 0 then prec.toUInt32 else 0, flags, rest, va)
        else some (0, flags, c :: rest, va)
    else some (0, flags, c :: rest, va)

/-- `_vsnprintf`: the length field. -/
def evalLength (flags : Flags) (format : List Ch) : Flags × List Ch :=
  match format with
  | [] => (flags, [])
  | c :: rest =>
    if c = ch 'l' then
      let flags := { flags with long := true }
      match rest with
      | [] => (flags, [])
      | c :: rest =>
        if c = ch 'l' then ({ flags with longLong := true }, rest) else (flags, c :: rest)
    else if c = ch 'h' then
      let flags := { flags with short := true }
      match rest with
      | [] => (flags, [])
      | c :: rest => if c = ch 'h' then ({ flags with char := true }, rest) else (flags, c :: rest)
    else if c = ch 't' then ({ flags with long := true }, rest)
    else if c = ch 'j' then ({ flags with longLong := true }, rest)
    else if c = ch 'z' then ({ flags with long := true }, rest)
    else (flags, c :: rest)

/-- A conversion as its fields say, up to the specifier. -/
structure Fields (Double : Type) : Type where
  flags : Flags
  width : UInt32
  precision : UInt32
  format : List Ch
  va : List (Arg Double)

/-- The fields behind a `%`. -/
def evalFields (format : List Ch) (va : List (Arg Double)) : Option (Fields Double) := do
  let (flags, format) := evalFlags {} format
  let (width, flags, format, va) ← evalWidth flags format va
  let (precision, flags, format, va) ← evalPrecision flags format va
  let (flags, format) := evalLength flags format
  some ⟨flags, width, precision, format, va⟩

variable {σ : Type} (out : Out Ch σ) (floats : FloatText Double)

/-- The loop of `_vsnprintf`, at most `n` rounds, of which each reads a character at least. -/
def formatLoop : ℕ → List Ch → List (Arg Double) → Cursor σ →
    Option (Cursor σ × List (Arg Double))
  | _, [], va, p => some (p, va)
  | 0, _ :: _, _, _ => none
  | n + 1, c :: format, va, p =>
    if c ≠ ch '%' then formatLoop n format va (put out c p)
    else do
      let fields ← evalFields format va
      match fields.format with
      | [] => none
      | c :: format =>
        let (p, va) ← convert out floats c fields.flags fields.precision fields.width fields.va p
        formatLoop n format va p

/-- `_vsnprintf`; `s` is what `out` works on, which is not NULL. -/
def vsnprintf (s : σ) (maxlen : UInt32) (format : List Ch) (va : List (Arg Double)) :
    Option (Int32 × σ) := do
  let (p, _) ← formatLoop out floats format.length format va ⟨0, s⟩
  some (p.idx.toInt32, out 0 (if p.idx < maxlen then p.idx else maxlen - 1) p.sink)

end format

/-! ## The functions -/

section functions

variable {Double : Type} (floats : FloatText Double)

/-- `_out_buffer`. -/
def outBuffer (maxlen : UInt32) : Out Ch (ℕ → Ch) := toBuffer maxlen

/-- `_out_null`. -/
def outNull : Out Ch Unit := stream fun _ s => s

/-- `_out_char` and `_out_fct`, for what `_putchar` or the function does to the state `s`. -/
def outFct {σ : Type} (fct : Ch → σ → σ) : Out Ch σ :=
  stream fun character s => if character ≠ 0 then fct character s else s

/-- `vsnprintf_` and `snprintf_`; the buffer is NULL, or the memory from it on. -/
def snprintf (buffer : Option (ℕ → Ch)) (count : UInt32) (format : List Ch)
    (va : List (Arg Double)) : Option (Int32 × Option (ℕ → Ch)) :=
  match buffer with
  | some mem => (vsnprintf (outBuffer count) floats mem count format va).map fun r =>
      (r.1, some r.2)
  | none => (vsnprintf outNull floats () count format va).map fun r => (r.1, none)

/-- `sprintf_`, into a buffer that is not NULL. -/
def sprintf (mem : ℕ → Ch) (format : List Ch) (va : List (Arg Double)) :
    Option (Int32 × (ℕ → Ch)) :=
  vsnprintf (outBuffer (0 - 1)) floats mem (0 - 1) format va

/-- `fctprintf`; `printf_` and `vprintf_` are the same for `_putchar`. -/
def fctprintf {σ : Type} (fct : Ch → σ → σ) (s : σ) (format : List Ch) (va : List (Arg Double)) :
    Option (Int32 × σ) :=
  vsnprintf (outFct fct) floats s (0 - 1) format va

end functions

end Printf
