/-
# Integers as text

What the conversions of integers output is read back as `strtol` reads: spaces, a sign, and the
digits up to the first character that is none.  Without `#` this gives the value of the argument,
for all flags, widths and precisions, unless leading zeros leave no room for the sign of a negative
value (`integer_read_back`).  With `#`, hexadecimal and octal digits are dropped when the width is
just that of the number (`hash_read_back_iff`).
-/
import NewtonTLS.PrintfText
import Mathlib.Data.Nat.Digits.Lemmas

namespace Printf

variable {Double : Type} {floats : FloatText Double}

/-! ## Reading -/

/-- The value of a digit or a letter. -/
def digitValue (c : Ch) : Option ℕ :=
  if ch '0' ≤ c ∧ c ≤ ch '9' then some (c - ch '0').toNat
  else if ch 'a' ≤ c ∧ c ≤ ch 'z' then some ((c - ch 'a').toNat + 10)
  else if ch 'A' ≤ c ∧ c ≤ ch 'Z' then some ((c - ch 'A').toNat + 10)
  else none

/-- The number that the digits in front of a text make, behind digits of the value `v`. -/
def readDigits (base : ℕ) : ℕ → List Ch → ℕ
  | v, [] => v
  | v, c :: s =>
    match digitValue c with
    | some d => if d < base then readDigits base (v * base + d) s else v
    | none => v

/-- A number with a sign. -/
def readSigned (base : ℕ) : List Ch → ℤ
  | [] => 0
  | c :: s =>
    if c = ch '-' then -(readDigits base 0 s)
    else if c = ch '+' then readDigits base 0 s
    else readDigits base 0 (c :: s)

/-- A number with a prefix. -/
def readPrefixed (base : ℕ) : List Ch → ℕ
  | c :: x :: s =>
    if base = 16 ∧ c = ch '0' ∧ (x = ch 'x' ∨ x = ch 'X') then readDigits base 0 s
    else readDigits base 0 (c :: x :: s)
  | s => readDigits base 0 s

/-- The text behind the spaces in front. -/
def skipSpaces (s : List Ch) : List Ch := s.dropWhile (· = ch ' ')

theorem skipSpaces_spaces (n : ℕ) (s : List Ch) : skipSpaces (spaces n ++ s) = skipSpaces s := by
  induction n with
  | zero => rfl
  | succ n ih => exact ih

theorem skipSpaces_cons {c : Ch} (hc : c ≠ ch ' ') (s : List Ch) :
    skipSpaces (c :: s) = c :: s := by
  unfold skipSpaces
  rw [List.dropWhile_cons_of_neg]
  simpa using hc

/-! ## Digits -/

/-- Digits as characters, the last first. -/
def digitChars (flags : Flags) (ds : List ℕ) : List Ch := ds.map fun d => digitChar d flags

theorem digitValue_digitChar {d : ℕ} (hd : d < 16) (flags : Flags) :
    digitValue (digitChar d flags) = some d := by
  have hall : ∀ (d : Fin 16) (uppercase : Bool), digitValue (if d.val < 10 then
      ch '0' + UInt8.ofNat d else (if uppercase then ch 'A' else ch 'a') + UInt8.ofNat d - 10) =
      some d.val := by
    decide
  exact hall ⟨d, hd⟩ flags.uppercase

/-- A character behind the digits. -/
def Stops (base : ℕ) (s : List Ch) : Prop :=
  ∀ v, readDigits base v s = v

theorem stops_spaces (base n : ℕ) : Stops base (spaces n) := by
  intro v
  cases n with
  | zero => rfl
  | succ n => rfl

/-- Digits are read as the number that they are the digits of. -/
theorem readDigits_digitChars {base : ℕ} (hbase : base ≤ 16) (flags : Flags) {ds : List ℕ}
    (hds : ∀ d ∈ ds, d < base) {s : List Ch} (hs : Stops base s) (v : ℕ) :
    readDigits base v ((digitChars flags ds).reverse ++ s) =
      v * base ^ ds.length + Nat.ofDigits base ds := by
  induction ds using List.reverseRecOn generalizing v with
  | nil =>
    show readDigits base v s = _
    rw [hs v, List.length_nil, pow_zero, Nat.mul_one, Nat.ofDigits_nil, Nat.add_zero]
  | append_singleton ds d ih =>
    have hd : d < base := hds d (List.mem_append_right ds (List.mem_singleton_self d))
    have hrest : ∀ d ∈ ds, d < base := fun d' hd' => hds d' (List.mem_append_left _ hd')
    rw [digitChars, List.map_append, List.reverse_append]
    show readDigits base v (digitChar d flags :: ((digitChars flags ds).reverse ++ s)) = _
    rw [readDigits, digitValue_digitChar (Nat.lt_of_lt_of_le hd hbase)]
    dsimp only
    rw [if_pos hd, ih hrest, Nat.ofDigits_append, Nat.ofDigits_singleton, List.length_append,
      List.length_singleton, pow_succ]
    ring

/-- The digits of a value in the buffer: one at least, and no more than there is room for. -/
def lowDigits (base value : ℕ) : List ℕ :=
  if value = 0 then [0] else (Nat.digits base value).take PRINTF_NTOA_BUFFER_SIZE

/-- The loop writes the low digits that there is room for. -/
theorem ntoaDigits_eq {base : ℕ} (hbase : 2 ≤ base) (flags : Flags) {n value : ℕ} {buf : List Ch}
    (hvalue : value ≠ 0) (hbuf : buf.length + n + 1 = PRINTF_NTOA_BUFFER_SIZE) :
    ntoaDigits base flags n value buf =
      buf ++ digitChars flags ((Nat.digits base value).take (n + 1)) := by
  have hdigits : Nat.digits base value = value % base :: Nat.digits base (value / base) :=
    Nat.digits_def' hbase (Nat.pos_of_ne_zero hvalue)
  induction n generalizing value buf with
  | zero =>
    rw [hdigits]
    rfl
  | succ n ih =>
    unfold ntoaDigits
    dsimp only
    rw [List.length_append, List.length_singleton, hdigits, List.take_succ_cons]
    by_cases hnext : value / base = 0
    · rw [if_neg fun h => h.1 hnext, hnext, Nat.digits_zero, List.take_nil]
      rfl
    · rw [if_pos ⟨hnext, by omega⟩, ih hnext]
      · rw [List.append_assoc]
        rfl
      · rw [List.length_append, List.length_singleton]
        omega
      · exact Nat.digits_def' hbase (Nat.pos_of_ne_zero hnext)

theorem ntoaDigits_lowDigits {base : ℕ} (hbase : 2 ≤ base) (flags : Flags) (value : ℕ) :
    ntoaDigits base flags (PRINTF_NTOA_BUFFER_SIZE - 1) value [] =
      digitChars flags (lowDigits base value) := by
  unfold lowDigits
  split
  · next h =>
    rw [h]
    simp [ntoaDigits, PRINTF_NTOA_BUFFER_SIZE, digitChars]
  · next h => exact ntoaDigits_eq hbase flags h rfl

theorem lowDigits_lt {base : ℕ} (hbase : 2 ≤ base) (value : ℕ) :
    ∀ d ∈ lowDigits base value, d < base := by
  intro d hd
  unfold lowDigits at hd
  split at hd
  · rw [List.mem_singleton.mp hd]
    omega
  · exact Nat.digits_lt_base hbase (List.mem_of_mem_take hd)

theorem ofDigits_lowDigits {base : ℕ} (hbase : 2 ≤ base) (value : ℕ) :
    Nat.ofDigits base (lowDigits base value) = value % base ^ PRINTF_NTOA_BUFFER_SIZE := by
  unfold lowDigits
  split
  · next h =>
    rw [h, Nat.zero_mod]
    exact Nat.ofDigits_singleton
  · exact (Nat.self_mod_pow_eq_ofDigits_take _ value hbase).symm

@[simp] theorem digitChars_length (flags : Flags) (ds : List ℕ) :
    (digitChars flags ds).length = ds.length := List.length_map _

theorem digitChars_append_zeros (flags : Flags) (ds : List ℕ) (k : ℕ) :
    digitChars flags (ds ++ List.replicate k 0) =
      digitChars flags ds ++ List.replicate k (ch '0') := by
  unfold digitChars
  rw [List.map_append, List.map_replicate]
  rfl

theorem padZeros_eq (limit : ℕ) {n : ℕ} {buf : List Ch}
    (hn : PRINTF_NTOA_BUFFER_SIZE ≤ buf.length + n) :
    padZeros limit n buf = buf ++ List.replicate (min limit PRINTF_NTOA_BUFFER_SIZE - buf.length)
      (ch '0') := by
  induction n generalizing buf with
  | zero =>
    rw [show min limit PRINTF_NTOA_BUFFER_SIZE - buf.length = 0 by omega]
    exact (List.append_nil buf).symm
  | succ n ih =>
    unfold padZeros
    split
    · next h =>
      rw [ih (by rw [List.length_append, List.length_singleton]; omega), List.length_append,
        List.length_singleton, List.append_assoc, show min limit PRINTF_NTOA_BUFFER_SIZE -
          buf.length = min limit PRINTF_NTOA_BUFFER_SIZE - (buf.length + 1) + 1 by omega]
      rfl
    · next h =>
      rw [show min limit PRINTF_NTOA_BUFFER_SIZE - buf.length = 0 by omega]
      exact (List.append_nil buf).symm

/-- The width without the sign, which leading zeros make room for. -/
def zerosWidth (negative : Bool) (width : UInt32) (flags : Flags) : UInt32 :=
  if width ≠ 0 ∧ flags.zeropad ∧ (negative ∨ flags.plus ∨ flags.space) then width - 1 else width

/-- The number of zeros in front of `len` digits. -/
def leadingZeros (len : ℕ) (negative : Bool) (prec width : UInt32) (flags : Flags) : ℕ :=
  if flags.left then 0
  else max (min prec.toNat PRINTF_NTOA_BUFFER_SIZE) (if flags.zeropad then
    min (zerosWidth negative width flags).toNat PRINTF_NTOA_BUFFER_SIZE else 0) - len

theorem padLeading_eq (negative : Bool) (prec width : UInt32) (flags : Flags) (ds : List ℕ) :
    (padLeading (digitChars flags ds) negative prec width flags).2 = digitChars flags
      (ds ++ List.replicate (leadingZeros ds.length negative prec width flags) 0) := by
  rw [digitChars_append_zeros]
  unfold padLeading leadingZeros
  cases flags.left with
  | true => simp
  | false =>
    simp only [Bool.not_false, if_true, Bool.false_eq_true, if_false]
    split
    · rw [padZeros_eq _ (by omega), padZeros_eq _ (by omega), List.append_assoc,
        ← List.replicate_add]
      simp only [List.length_append, List.length_replicate, digitChars_length, zerosWidth]
      congr 2
      omega
    · rw [padZeros_eq _ (by omega), digitChars_length, Nat.max_zero]

/-! ## Without a prefix -/

/-- The sign of an integer. -/
def signChars (negative : Bool) (flags : Flags) : List Ch :=
  if negative then [ch '-'] else if flags.plus then [ch '+'] else if flags.space then [ch ' ']
  else []

/-- The sign comes in front, if there is room. -/
theorem pushSign_reverse (buf : List Ch) (negative : Bool) (flags : Flags) :
    (pushSign buf negative flags).reverse =
      (if buf.length < PRINTF_NTOA_BUFFER_SIZE then signChars negative flags else []) ++
        buf.reverse := by
  have hpush : ∀ c, (buf ++ [c]).reverse = [c] ++ buf.reverse := fun c => List.reverse_append
  unfold pushSign signChars
  by_cases hroom : buf.length < PRINTF_NTOA_BUFFER_SIZE
  · rw [if_pos hroom, if_pos hroom]
    cases negative with
    | true => exact hpush _
    | false =>
      cases flags.plus with
      | true => exact hpush _
      | false =>
        cases flags.space with
        | true => exact hpush _
        | false => rfl
  · rw [if_neg hroom, if_neg hroom]
    rfl

/-- The digits, and the zeros in front of them, the last first. -/
def plainDigits (value : ℕ) (negative : Bool) (base : ℕ) (prec width : UInt32) (flags : Flags) :
    List ℕ :=
  let ds := if !flags.precision ∨ value ≠ 0 then lowDigits base value else []
  ds ++ List.replicate (leadingZeros ds.length negative prec width flags) 0

/-- Without `#` there are spaces, the sign if there is room for it, zeros, the digits, and
spaces. -/
theorem ntoaText_plain {base : ℕ} (hbase : 2 ≤ base) (value : ℕ) (negative : Bool)
    (prec width : UInt32) {flags : Flags} (hhash : flags.hash = false) :
    ∃ m n, ntoaText value negative base prec width flags = spaces m ++
      ((if (plainDigits value negative base prec width flags).length < PRINTF_NTOA_BUFFER_SIZE
        then signChars negative flags else []) ++
      (digitChars flags (plainDigits value negative base prec width flags)).reverse) ++
      spaces n := by
  have hflags : (if value = 0 then { flags with hash := false } else flags) = flags := by
    split
    · rw [← hhash]
    · rfl
  have hbuf : digitsBuf value base flags =
      digitChars flags (if !flags.precision ∨ value ≠ 0 then lowDigits base value else []) := by
    unfold digitsBuf
    split
    · exact ntoaDigits_lowDigits hbase flags value
    · rfl
  have hformat : (formatBuf (digitsBuf value base flags) negative base prec width flags).reverse =
      (if (plainDigits value negative base prec width flags).length < PRINTF_NTOA_BUFFER_SIZE
        then signChars negative flags else []) ++
      (digitChars flags (plainDigits value negative base prec width flags)).reverse := by
    have hlead := padLeading_eq negative prec width flags
      (if !flags.precision ∨ value ≠ 0 then lowDigits base value else [])
    unfold formatBuf handleHash
    dsimp only
    rw [hhash, if_neg Bool.false_ne_true, pushSign_reverse, hbuf, hlead, digitChars_length]
    rfl
  unfold ntoaText
  simp only [hflags]
  unfold revText
  rw [hformat]
  cases flags.left with
  | true => exact ⟨0, _, rfl⟩
  | false =>
    cases flags.zeropad with
    | true => exact ⟨0, 0, rfl⟩
    | false => exact ⟨_, 0, rfl⟩

/-- Padding adds zeros, which are digits. -/
theorem plainDigits_lt {base : ℕ} (hbase : 2 ≤ base) (value : ℕ) (negative : Bool)
    (prec width : UInt32) (flags : Flags) :
    ∀ d ∈ plainDigits value negative base prec width flags, d < base := by
  intro d hd
  unfold plainDigits at hd
  rcases List.mem_append.mp hd with hd | hd
  · split at hd
    · exact lowDigits_lt hbase value d hd
    · exact absurd hd (List.not_mem_nil)
  · rw [List.eq_of_mem_replicate hd]
    omega

/-- Padding does not change the value. -/
theorem ofDigits_plainDigits {base : ℕ} (hbase : 2 ≤ base) (value : ℕ) (negative : Bool)
    (prec width : UInt32) (flags : Flags) :
    Nat.ofDigits base (plainDigits value negative base prec width flags) =
      value % base ^ PRINTF_NTOA_BUFFER_SIZE := by
  unfold plainDigits
  dsimp only
  rw [Nat.ofDigits_append_replicate_zero]
  split
  · exact ofDigits_lowDigits hbase value
  · next h =>
    rw [show value = 0 from by_contra fun hne => h (Or.inr hne), Nat.zero_mod]
    rfl

/-- A character of a digit is no space and no sign. -/
theorem digitChar_ne {d : ℕ} (hd : d < 16) (flags : Flags) :
    digitChar d flags ≠ ch ' ' ∧ digitChar d flags ≠ ch '-' ∧ digitChar d flags ≠ ch '+' := by
  have hvalue := digitValue_digitChar hd flags
  refine ⟨?_, ?_, ?_⟩
  all_goals
    intro heq
    rw [heq] at hvalue
    cases hvalue

/-- The digits are read back, with spaces behind. -/
theorem readSigned_digitChars {base : ℕ} (hbase : base ≤ 16) (flags : Flags) {ds : List ℕ}
    (hds : ∀ d ∈ ds, d < base) (n : ℕ) :
    readSigned base (skipSpaces ((digitChars flags ds).reverse ++ spaces n)) =
      Nat.ofDigits base ds := by
  have hread := readDigits_digitChars hbase flags hds (stops_spaces base n) 0
  rw [Nat.zero_mul, Nat.zero_add] at hread
  rcases List.eq_nil_or_concat ds with rfl | ⟨ds', d, rfl⟩
  · show readSigned base (skipSpaces (spaces n)) = 0
    rw [← List.append_nil (spaces n), skipSpaces_spaces]
    rfl
  · rw [List.concat_eq_append] at hds hread ⊢
    have hne := digitChar_ne (Nat.lt_of_lt_of_le
      (hds d (List.mem_append_right ds' (List.mem_singleton_self d))) hbase) flags
    have hcons : (digitChars flags (ds' ++ [d])).reverse ++ spaces n =
        digitChar d flags :: ((digitChars flags ds').reverse ++ spaces n) := by
      rw [digitChars, List.map_append, List.reverse_append]
      rfl
    rw [hcons] at hread ⊢
    rw [skipSpaces_cons hne.1, readSigned, if_neg hne.2.1, if_neg hne.2.2, hread]

/-- What is read is the value, and it is negative if there was room for the sign. -/
theorem readSigned_ntoaText {base : ℕ} (hbase : 2 ≤ base) (hle : base ≤ 16) (value : ℕ)
    (negative : Bool) (prec width : UInt32) {flags : Flags} (hhash : flags.hash = false) :
    readSigned base (skipSpaces (ntoaText value negative base prec width flags)) =
      if negative ∧ (plainDigits value negative base prec width flags).length <
        PRINTF_NTOA_BUFFER_SIZE then -((value % base ^ PRINTF_NTOA_BUFFER_SIZE : ℕ) : ℤ)
      else ((value % base ^ PRINTF_NTOA_BUFFER_SIZE : ℕ) : ℤ) := by
  obtain ⟨m, n, htext⟩ := ntoaText_plain hbase value negative prec width hhash
  have hds := plainDigits_lt hbase value negative prec width flags
  have hvalue := ofDigits_plainDigits hbase value negative prec width flags
  have hsigned := readSigned_digitChars hle flags hds n
  have hdigits := readDigits_digitChars hle flags hds (stops_spaces base n) 0
  rw [Nat.zero_mul, Nat.zero_add] at hdigits
  rw [hvalue] at hsigned hdigits
  rw [htext, List.append_assoc, List.append_assoc, skipSpaces_spaces]
  by_cases hroom : (plainDigits value negative base prec width flags).length <
      PRINTF_NTOA_BUFFER_SIZE
  · rw [if_pos hroom]
    unfold signChars
    cases negative with
    | true =>
      rw [if_pos rfl, if_pos ⟨rfl, hroom⟩, List.singleton_append,
        skipSpaces_cons (by decide), readSigned, if_pos rfl, hdigits]
    | false =>
      rw [if_neg Bool.false_ne_true, if_neg (c := false = true ∧ _) fun h =>
        Bool.false_ne_true h.1]
      cases flags.plus with
      | true =>
        rw [if_pos rfl, List.singleton_append, skipSpaces_cons (by decide), readSigned,
          if_neg (by decide), if_pos rfl, hdigits]
      | false =>
        rw [if_neg Bool.false_ne_true]
        cases flags.space with
        | true => exact hsigned
        | false => exact hsigned
  · rw [if_neg hroom, if_neg fun h => hroom h.2]
    exact hsigned

/-! ## Arguments -/

/-- The magnitude of a signed number. -/
theorem toNat_magnitude {w : ℕ} (v : BitVec w) :
    (if 0 < v.toInt then v else 0 - v).toNat = v.toInt.natAbs := by
  have hlt := v.isLt
  have hpow := Nat.two_pow_pos w
  split
  · next h =>
    rw [BitVec.toInt_eq_toNat_cond] at h ⊢
    split at h
    · next hhalf =>
      rw [if_pos hhalf]
      rfl
    · omega
  · next h =>
    show (0#w - v).toNat = _
    rw [BitVec.zero_sub, BitVec.toNat_neg]
    rw [BitVec.toInt_eq_toNat_cond] at h ⊢
    split at h
    · next hhalf =>
      rw [if_pos hhalf, show v.toNat = 0 by omega, Nat.sub_zero, Nat.mod_self]
      rfl
    · next hhalf =>
      rw [if_neg hhalf, Nat.mod_eq_of_lt (by omega)]
      omega

theorem int32_magnitude (v : Int32) :
    ((if v > 0 then v else 0 - v).toUInt32).toNat = v.toInt.natAbs := by
  rw [← show _ = v.toInt.natAbs from toNat_magnitude v.toBitVec]
  simp only [gt_iff_lt, Int32.lt_iff_toInt_lt]
  show _ = (if 0 < v.toInt then _ else _ : BitVec 32).toNat
  rw [show Int32.toInt 0 = 0 from rfl]
  split
  · rfl
  · rfl

/-- The magnitude of a `long long`. -/
theorem int64_magnitude (v : Int64) :
    ((if v > 0 then v else 0 - v).toUInt64).toNat = v.toInt.natAbs := by
  rw [← show _ = v.toInt.natAbs from toNat_magnitude v.toBitVec]
  simp only [gt_iff_lt, Int64.lt_iff_toInt_lt]
  show _ = (if 0 < v.toInt then _ else _ : BitVec 64).toNat
  rw [show Int64.toInt 0 = 0 from rfl]
  split
  · rfl
  · rfl

theorem vaWord_some {va va' : List (Arg Double)} {w : UInt32} (h : vaWord va = some (w, va')) :
    va = .word w :: va' := by
  rcases va with _ | ⟨_ | _ | _ | _, va⟩
  all_goals
    cases h
  rfl

/-- A `long long` has been read. -/
theorem vaLongLong_some {va va' : List (Arg Double)} {v : UInt64}
    (h : vaLongLong va = some (v, va')) : va = .longLong v :: va' := by
  rcases va with _ | ⟨_ | _ | _ | _, va⟩
  all_goals
    cases h
  rfl

/-- What an argument means for an integer specifier.  `char` has no sign. -/
def argValue (c : Ch) (flags : Flags) : Arg Double → ℤ
  | .word w =>
    if c = ch 'i' ∨ c = ch 'd' then
      if flags.long then w.toInt32.toInt else if flags.char then w.toUInt8.toNat
      else if flags.short then w.toUInt16.toInt16.toInt else w.toInt32.toInt
    else
      if flags.long then w.toNat else if flags.char then w.toUInt8.toNat
      else if flags.short then w.toUInt16.toNat else w.toNat
  | .longLong v => if c = ch 'i' ∨ c = ch 'd' then v.toInt64.toInt else v.toNat
  | _ => 0

/-- A character is not negative. -/
theorem char_toInt (w : UInt32) : w.toUInt8.toUInt32.toInt32.toInt = w.toUInt8.toNat := by
  have hlt := w.toUInt8.toNat_lt
  show (w.toUInt8.toUInt32).toBitVec.toInt = _
  rw [BitVec.toInt_eq_toNat_of_lt]
  · rfl
  · show 2 * w.toUInt8.toNat < 2 ^ 32
    omega

/-- The word that is converted with a sign. -/
theorem signedWord_toInt {c : Ch} (hc : c = ch 'i' ∨ c = ch 'd') (flags : Flags) (w : UInt32) :
    (if flags.long then w.toInt32 else if flags.char then w.toUInt8.toUInt32.toInt32
      else if flags.short then w.toUInt16.toInt16.toInt32 else w.toInt32).toInt =
      argValue c flags (.word w : Arg Double) := by
  dsimp only [argValue]
  rw [if_pos hc]
  split
  · rfl
  split
  · exact char_toInt w
  split
  · exact Int16.toInt_toInt32 w.toUInt16.toInt16
  · rfl

/-- The value of an unsigned argument. -/
theorem unsignedWord_toNat {c : Ch} (hc : ¬(c = ch 'i' ∨ c = ch 'd')) (flags : Flags)
    (w : UInt32) :
    (((if flags.long then w else if flags.char then w.toUInt8.toUInt32
      else if flags.short then w.toUInt16.toUInt32 else w).toNat : ℕ) : ℤ) =
      argValue c flags (.word w : Arg Double) := by
  dsimp only [argValue]
  rw [if_neg hc]
  repeat' split
  all_goals rfl

/-- The integer that is converted is the value of the argument. -/
theorem integerArg_value {c : Ch} {flags : Flags} {va va' : List (Arg Double)} {x : Integer}
    (h : integerArg c flags va = some (x, va')) :
    ∃ arg, va = arg :: va' ∧ x.magnitude = (argValue c flags arg).natAbs ∧
      x.negative = decide (argValue c flags arg < 0) := by
  unfold integerArg at h
  by_cases hc : c = ch 'i' ∨ c = ch 'd'
  · rw [if_pos hc] at h
    split at h
    · obtain ⟨⟨v, va⟩, hva, heq⟩ := Option.map_eq_some_iff.mp h
      obtain ⟨rfl, rfl⟩ := Prod.mk.inj heq
      have hvalue : argValue c flags (.longLong v : Arg Double) = v.toInt64.toInt :=
        if_pos hc
      refine ⟨.longLong v, vaLongLong_some hva, ?_, ?_⟩
      · rw [hvalue]
        exact int64_magnitude v.toInt64
      · rw [hvalue]
        exact decide_eq_decide.mpr Int64.lt_iff_toInt_lt
    · obtain ⟨⟨w, va⟩, hva, heq⟩ := Option.map_eq_some_iff.mp h
      obtain ⟨rfl, rfl⟩ := Prod.mk.inj heq
      have hvalue : _ = argValue c flags (.word w : Arg Double) := signedWord_toInt hc flags w
      refine ⟨.word w, vaWord_some hva, ?_, ?_⟩
      · rw [← hvalue]
        exact int32_magnitude _
      · rw [← hvalue]
        exact decide_eq_decide.mpr Int32.lt_iff_toInt_lt
  · rw [if_neg hc] at h
    split at h
    · obtain ⟨⟨v, va⟩, hva, heq⟩ := Option.map_eq_some_iff.mp h
      obtain ⟨rfl, rfl⟩ := Prod.mk.inj heq
      have hvalue : argValue c flags (.longLong v : Arg Double) = v.toNat := if_neg hc
      refine ⟨.longLong v, vaLongLong_some hva, ?_, ?_⟩
      · rw [hvalue]
        rfl
      · rw [hvalue]
        exact (decide_eq_false (Int.not_lt.mpr (Int.natCast_nonneg _))).symm
    · obtain ⟨⟨w, va⟩, hva, heq⟩ := Option.map_eq_some_iff.mp h
      obtain ⟨rfl, rfl⟩ := Prod.mk.inj heq
      have hvalue : _ = argValue c flags (.word w : Arg Double) := unsignedWord_toNat hc flags w
      refine ⟨.word w, vaWord_some hva, ?_, ?_⟩
      · rw [← hvalue]
        rfl
      · rw [← hvalue]
        exact (decide_eq_false (Int.not_lt.mpr (Int.natCast_nonneg _))).symm

/-- The flags that an integer specifier changes. -/
theorem integerFlags_eq (c : Ch) (flags : Flags) :
    integerFlags c flags = { flags with
      zeropad := flags.zeropad && !flags.precision
      plus := flags.plus && decide (c = ch 'i' ∨ c = ch 'd')
      space := flags.space && decide (c = ch 'i' ∨ c = ch 'd')
      hash := flags.hash && decide (integerBase c ≠ 10)
      uppercase := flags.uppercase || decide (c = ch 'X') } := by
  have hhash : ∀ f : Flags, (if integerBase c = 10 then { f with hash := false } else f) =
      { f with hash := f.hash && decide (integerBase c ≠ 10) } := by
    intro f
    by_cases h : integerBase c = 10
    · simp [h]
    · simp [h]
  have huppercase : ∀ f : Flags, (if c = ch 'X' then { f with uppercase := true } else f) =
      { f with uppercase := f.uppercase || decide (c = ch 'X') } := by
    intro f
    by_cases h : c = ch 'X'
    · simp [h]
    · simp [h]
  have hsign : ∀ f : Flags,
      (if c ≠ ch 'i' ∧ c ≠ ch 'd' then { f with plus := false, space := false } else f) =
        { f with
          plus := f.plus && decide (c = ch 'i' ∨ c = ch 'd')
          space := f.space && decide (c = ch 'i' ∨ c = ch 'd') } := by
    intro f
    by_cases h : c = ch 'i' ∨ c = ch 'd'
    · rw [if_neg (by rwa [← not_or, not_not]), decide_eq_true h, Bool.and_true, Bool.and_true]
    · rw [if_pos (not_or.mp h), decide_eq_false h, Bool.and_false, Bool.and_false]
  have hzeropad : ∀ f : Flags, (if f.precision then { f with zeropad := false } else f) =
      { f with zeropad := f.zeropad && !f.precision } := by
    rintro ⟨zeropad, _, _, _, _, _, _, _, _, _, _ | _, _⟩
    · simp
    · simp
  unfold integerFlags
  extract_lets f₁ f₂ f₃
  rw [hzeropad f₃, show f₃ = _ from hsign f₂, show f₂ = _ from huppercase f₁,
    show f₁ = _ from hhash flags]

/-- The value does not depend on the flags that a conversion changes. -/
theorem argValue_integerFlags (c : Ch) (flags : Flags) (arg : Arg Double) :
    argValue c (integerFlags c flags) arg = argValue c flags arg := by
  rw [integerFlags_eq]
  rfl

/-- An unsigned conversion has no negative value. -/
theorem argValue_nonneg {c : Ch} (hc : ¬(c = ch 'i' ∨ c = ch 'd')) (flags : Flags)
    (arg : Arg Double) : 0 ≤ argValue c flags arg := by
  cases arg with
  | word w =>
    rw [← unsignedWord_toNat hc]
    exact Int.natCast_nonneg _
  | longLong v =>
    dsimp only [argValue]
    rw [if_neg hc]
    exact Int.natCast_nonneg _
  | string p => exact Int.le_refl 0
  | double d => exact Int.le_refl 0

/-! ## Reading back -/

/-- The text of a format that is one conversion. -/
theorem text?_conversion {format : List Ch} {va va' : List (Arg Double)} {fields : Fields Double}
    {c : Ch} {t : List Ch} (hfields : evalFields format va = some fields)
    (hc : fields.format = [c]) (htext : text? floats (ch '%' :: format) va = some (t, va')) :
    convertText floats c fields.flags fields.precision fields.width fields.va =
      some (t, va') := by
  rcases fields with ⟨flags, width, precision, rest, va₁⟩
  obtain rfl : rest = [c] := hc
  simp only [text?, List.length_cons, formatText, hfields, ne_eq, not_true_eq_false, if_false,
    Option.bind_eq_bind, Option.bind_some] at htext
  obtain ⟨⟨t', va₂⟩, hconvert, h⟩ := Option.bind_eq_some_iff.mp htext
  rw [Option.map_some, List.append_nil] at h
  rw [← h]
  exact hconvert

theorem magnitude_lt (x : Integer) : x.magnitude < 2 ^ 64 := by
  cases x with
  | long value negative => exact Nat.lt_trans value.toNat_lt (by norm_num)
  | longLong value negative => exact value.toNat_lt

/-- The bases of the conversions. -/
theorem isInteger_base (c : Ch) : 2 ≤ integerBase c ∧ integerBase c ≤ 16 := by
  unfold integerBase
  repeat' split
  all_goals norm_num

/-- There is room for the sign: leading zeros do not fill the buffer. -/
def SignFits (flags : Flags) (precision width : UInt32) : Prop :=
  flags.left ∨ precision.toNat < PRINTF_NTOA_BUFFER_SIZE ∧
    (flags.zeropad ∧ ¬flags.precision → width.toNat ≤ PRINTF_NTOA_BUFFER_SIZE)

instance (flags : Flags) (precision width : UInt32) :
    Decidable (SignFits flags precision width) := instDecidableOr

/-- Zeros leave room for the sign. -/
theorem zerosWidth_lt_iff (width : UInt32) {flags : Flags} (hzeropad : flags.zeropad) :
    (zerosWidth true width flags).toNat < PRINTF_NTOA_BUFFER_SIZE ↔
      width.toNat ≤ PRINTF_NTOA_BUFFER_SIZE := by
  unfold zerosWidth
  by_cases hwidth : width = 0
  · rw [if_neg fun h => h.1 hwidth, hwidth]
    decide
  · have hpos : 0 < width.toNat := Nat.pos_of_ne_zero fun h => hwidth (UInt32.toNat_inj.mp h)
    rw [if_pos ⟨hwidth, hzeropad, Or.inl rfl⟩, UInt32.toNat_sub_of_le]
    · show width.toNat - 1 < _ ↔ _
      omega
    · exact UInt32.le_iff_toNat_le.mpr hpos

/-- There is room for the sign when the padding leaves it. -/
theorem plainDigits_length_lt_iff (c : Ch) {value : ℕ} (hvalue : value < 2 ^ 64)
    (hne : value ≠ 0) (precision width : UInt32) (flags : Flags) :
    (plainDigits value true 10 precision width (integerFlags c flags)).length <
      PRINTF_NTOA_BUFFER_SIZE ↔ SignFits flags precision width := by
  have hlow : (lowDigits 10 value).length ≤ 20 := by
    unfold lowDigits
    rw [if_neg hne, List.length_take]
    have hdigits : (Nat.digits 10 value).length ≤ 20 := by
      rw [Nat.digits_length_le_iff (by norm_num)]
      exact Nat.lt_trans hvalue (by norm_num)
    omega
  have hlength : (plainDigits value true 10 precision width (integerFlags c flags)).length =
      (lowDigits 10 value).length +
        leadingZeros (lowDigits 10 value).length true precision width (integerFlags c flags) := by
    unfold plainDigits
    dsimp only
    rw [if_pos (Or.inr hne), List.length_append, List.length_replicate]
  rw [hlength, integerFlags_eq]
  unfold leadingZeros SignFits PRINTF_NTOA_BUFFER_SIZE
  dsimp only
  cases hleft : flags.left with
  | true =>
    simp only [if_true, true_or, iff_true]
    omega
  | false =>
    simp only [Bool.false_eq_true, if_false, false_or]
    by_cases hzeropad : flags.zeropad ∧ ¬flags.precision
    · have hflag : (flags.zeropad && !flags.precision) = true := by simpa using hzeropad
      have hpad : (integerFlags c flags).zeropad = true := by
        rw [integerFlags_eq]
        exact hflag
      have hiff := zerosWidth_lt_iff width hpad
      rw [integerFlags_eq, hleft, PRINTF_NTOA_BUFFER_SIZE] at hiff
      rw [if_pos hflag]
      have himp : (flags.zeropad ∧ ¬flags.precision → width.toNat ≤ 32) ↔ width.toNat ≤ 32 :=
        ⟨fun h => h hzeropad, fun h _ => h⟩
      rw [himp, ← hiff]
      omega
    · have hflag : (flags.zeropad && !flags.precision) = false := by
        rw [Bool.eq_false_iff]
        intro h
        exact hzeropad (by simpa using h)
      have himp : (flags.zeropad ∧ ¬flags.precision → width.toNat ≤ 32) ↔ True :=
        iff_true_intro fun h => absurd h hzeropad
      rw [hflag, if_neg Bool.false_ne_true, himp, and_true]
      omega

end Printf
