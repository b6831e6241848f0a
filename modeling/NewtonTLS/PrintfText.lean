/-
# The text of a format

Every function of `NewtonRuntime/printf.c` outputs characters whose number and order depend on its
arguments, but not on the output function (`formatLoop_eq`).  So a format and its arguments have
one text, which all functions of the family output: a buffer holds the beginning of it that fits,
with a 0 behind, and a callback is called with its characters (`snprintf_bounded`,
`printf_family`).  The text of two formats, one behind the other, is that of the first followed by
that of the second with the arguments that are left (`text?_append`).
-/
import NewtonTLS.Printf

namespace Printf

open Output

variable {Double : Type} {floats : FloatText Double}

/-! ## Strings -/

section output

variable {σ : Type} (out : Out Ch σ)

/-- `n` spaces. -/
def spaces (n : ℕ) : List Ch := List.replicate n (ch ' ')

theorem outSpaces_eq (n : ℕ) (p : Cursor σ) : outSpaces out n p = emit out (spaces n) p := by
  induction n generalizing p with
  | zero => rfl
  | succ n ih => exact ih (put out (ch ' ') p)

/-- The buffer is put out backwards. -/
theorem outReversed_eq (buf : List Ch) {len : ℕ} (hlen : len ≤ buf.length) (p : Cursor σ) :
    outReversed out buf len p = emit out (buf.take len).reverse p := by
  induction len generalizing p with
  | zero => rfl
  | succ len ih =>
    rw [outReversed, ih (by omega), List.take_add_one, List.getElem?_eq_getElem (by omega),
      List.reverse_append, emit_append, List.getD_eq_getElem?_getD,
      List.getElem?_eq_getElem (by omega)]
    rfl

/-- Padding after `k` characters. -/
theorem outUpTo_eq (width : UInt32) {start_idx : UInt32} {k n : ℕ} (hk : k < UInt32.size)
    (hn : width.toNat - k ≤ n) (p : Cursor σ) (hp : p.idx - start_idx = UInt32.ofNat k) :
    outUpTo out start_idx width n p = emit out (spaces (width.toNat - k)) p := by
  induction n generalizing k p with
  | zero =>
    rw [Nat.eq_zero_of_le_zero hn]
    rfl
  | succ n ih =>
    have hiff : p.idx - start_idx < width ↔ k < width.toNat := by
      rw [hp, UInt32.lt_iff_toNat_lt, UInt32.toNat_ofNat_of_lt' hk]
    unfold outUpTo
    simp only [hiff]
    by_cases hwidth : k < width.toNat
    · have hnext : k + 1 < UInt32.size := Nat.lt_of_le_of_lt hwidth width.toNat_lt
      rw [if_pos hwidth, ih hnext (by omega) (put out (ch ' ') p)]
      · rw [show width.toNat - k = width.toNat - (k + 1) + 1 by omega]
        rfl
      · show p.idx + 1 - start_idx = UInt32.ofNat (k + 1)
        rw [UInt32.ofNat_add, ← hp, UInt32.sub_eq_add_neg, UInt32.sub_eq_add_neg,
          UInt32.add_assoc, UInt32.add_comm 1, ← UInt32.add_assoc]
        rfl
    · rw [if_neg hwidth, Nat.sub_eq_zero_of_le (by omega)]
      rfl

/-- What `_out_rev` outputs. -/
def revText (buf : List Ch) (width : UInt32) (flags : Flags) : List Ch :=
  (if !flags.left && !flags.zeropad then spaces (width.toNat - buf.length) else []) ++
    buf.reverse ++ (if flags.left then spaces (width.toNat - buf.length) else [])

theorem outRev_eq (p : Cursor σ) {buf : List Ch} (hbuf : buf.length < UInt32.size)
    (width : UInt32) (flags : Flags) :
    outRev out p buf width flags = emit out (revText buf width flags) p := by
  unfold outRev revText
  simp only [outReversed_eq out buf (Nat.le_refl _), List.take_length]
  cases hleft : flags.left with
  | true =>
    -- the difference of the indices is the number of characters
    have hidx : (emit out buf.reverse p).idx - p.idx = UInt32.ofNat buf.length := by
      rw [emit_idx, List.length_reverse, UInt32.add_comm, UInt32.add_sub_cancel]
    simp only [Bool.not_true, Bool.false_and, Bool.false_eq_true, if_false, if_true,
      List.nil_append]
    rw [outUpTo_eq out width hbuf (Nat.sub_le _ _) _ hidx, emit_append]
  | false =>
    simp only [Bool.not_false, Bool.true_and, Bool.false_eq_true, if_false, List.append_nil]
    rw [emit_append]
    split
    · rw [outSpaces_eq]
    · rw [emit_nil]

/-! ## Integers -/

/-- Zeros stay inside of the buffer. -/
theorem padZeros_length (limit n : ℕ) {buf : List Ch} (hbuf : buf.length ≤ 32) :
    (padZeros limit n buf).length ≤ 32 := by
  induction n generalizing buf with
  | zero => exact hbuf
  | succ n ih =>
    unfold padZeros
    split
    · next h =>
      apply ih
      rw [List.length_append, List.length_singleton]
      exact h.2
    · exact hbuf

theorem push_length (c : Ch) {buf : List Ch} (hbuf : buf.length ≤ 32) :
    (push c buf).length ≤ 32 := by
  unfold push
  split
  · next h =>
    rw [List.length_append, List.length_singleton]
    exact h
  · exact hbuf

theorem padLeading_length (negative : Bool) (prec width : UInt32) (flags : Flags) {buf : List Ch}
    (hbuf : buf.length ≤ 32) : (padLeading buf negative prec width flags).2.length ≤ 32 := by
  unfold padLeading
  split
  · dsimp only
    split
    · exact padZeros_length _ _ (padZeros_length _ _ hbuf)
    · exact padZeros_length _ _ hbuf
  · exact hbuf

theorem handleHash_length (base : ℕ) (prec width : UInt32) (flags : Flags) {buf : List Ch}
    (hbuf : buf.length ≤ 32) : (handleHash buf base prec width flags).length ≤ 32 := by
  have hletter : ∀ (b : List Ch), b.length ≤ 32 →
      (if base = 16 ∧ !flags.uppercase ∧ b.length < PRINTF_NTOA_BUFFER_SIZE then b ++ [ch 'x']
        else if base = 16 ∧ flags.uppercase ∧ b.length < PRINTF_NTOA_BUFFER_SIZE then b ++ [ch 'X']
        else if base = 2 ∧ b.length < PRINTF_NTOA_BUFFER_SIZE then b ++ [ch 'b']
        else b).length ≤ 32 := by
    intro b hb
    split
    · next h =>
      rw [List.length_append, List.length_singleton]
      exact h.2.2
    · split
      · next h =>
        rw [List.length_append, List.length_singleton]
        exact h.2.2
      · split
        · next h =>
          rw [List.length_append, List.length_singleton]
          exact h.2
        · exact hb
  unfold handleHash
  dsimp only
  split
  · apply push_length
    apply hletter
    split
    · split
      · rw [List.length_dropLast, List.length_dropLast]
        omega
      · rw [List.length_dropLast]
        omega
    · exact hbuf
  · exact hbuf

theorem pushSign_length (negative : Bool) (flags : Flags) {buf : List Ch}
    (hbuf : buf.length ≤ 32) : (pushSign buf negative flags).length ≤ 32 := by
  unfold pushSign
  split
  · next h =>
    have hlength : ∀ c, (buf ++ [c]).length ≤ 32 := by
      intro c
      rw [List.length_append, List.length_singleton]
      exact h
    repeat' split
    · exact hlength _
    · exact hlength _
    · exact hlength _
    · exact hbuf
  · exact hbuf

theorem ntoaDigits_length (base : ℕ) (flags : Flags) (n value : ℕ) {buf : List Ch}
    (hbuf : buf.length < 32) : (ntoaDigits base flags n value buf).length ≤ 32 := by
  have hnext : (buf ++ [digitChar (value % base) flags]).length ≤ 32 := by
    rw [List.length_append, List.length_singleton]
    exact hbuf
  induction n generalizing value buf with
  | zero => exact hnext
  | succ n ih =>
    unfold ntoaDigits
    dsimp only
    split
    · next h =>
      apply ih _ h.2
      rw [List.length_append, List.length_singleton]
      exact h.2
    · exact hnext

/-- The characters that `_ntoa_format` has in its buffer in the end, the last first. -/
def formatBuf (buf : List Ch) (negative : Bool) (base : ℕ) (prec width : UInt32) (flags : Flags) :
    List Ch :=
  let (width, buf) := padLeading buf negative prec width flags
  pushSign (handleHash buf base prec width flags) negative flags

/-- The characters that `_ntoa_long` has in its buffer after the loop. -/
def digitsBuf (value base : ℕ) (flags : Flags) : List Ch :=
  if !flags.precision ∨ value ≠ 0 then ntoaDigits base flags (PRINTF_NTOA_BUFFER_SIZE - 1) value []
  else []

/-- What `_ntoa_long` and `_ntoa_long_long` output. -/
def ntoaText (value : ℕ) (negative : Bool) (base : ℕ) (prec width : UInt32) (flags : Flags) :
    List Ch :=
  let flags := if value = 0 then { flags with hash := false } else flags
  let buf := digitsBuf value base flags
  revText (formatBuf buf negative base prec width flags)
    (padLeading buf negative prec width flags).1 flags

theorem formatBuf_length (negative : Bool) (base : ℕ) (prec width : UInt32) (flags : Flags)
    {buf : List Ch} (hbuf : buf.length ≤ 32) :
    (formatBuf buf negative base prec width flags).length ≤ 32 :=
  pushSign_length _ _ (handleHash_length _ _ _ _ (padLeading_length _ _ _ _ hbuf))

theorem digitsBuf_length (value base : ℕ) (flags : Flags) :
    (digitsBuf value base flags).length ≤ 32 := by
  unfold digitsBuf
  split
  · apply ntoaDigits_length
    decide
  · exact Nat.zero_le 32

/-- An integer is put out as its text. -/
theorem ntoa_eq (p : Cursor σ) (value : ℕ) (negative : Bool) (base : ℕ) (prec width : UInt32)
    (flags : Flags) :
    ntoa out p value negative base prec width flags =
      emit out (ntoaText value negative base prec width flags) p := by
  have hlength : ∀ flags, (formatBuf (digitsBuf value base flags) negative base prec width
      flags).length < UInt32.size := by
    intro flags
    apply Nat.lt_of_le_of_lt (formatBuf_length _ _ _ _ _ (digitsBuf_length value base flags))
    decide
  exact outRev_eq out p (hlength _) _ _

/-! ## Conversions -/

/-- The magnitude of an argument. -/
def Integer.magnitude : Integer → ℕ
  | .long value _ => value.toNat
  | .longLong value _ => value.toNat

/-- The number was negative; its absolute value is converted. -/
def Integer.negative : Integer → Bool
  | .long _ negative => negative
  | .longLong _ negative => negative

theorem outInteger_eq (p : Cursor σ) (value : Integer) (base : ℕ)
    (prec width : UInt32) (flags : Flags) :
    outInteger out p value base prec width flags =
      emit out (ntoaText value.magnitude value.negative base prec width flags) p := by
  cases value with
  | long value negative => exact ntoa_eq out p ..
  | longLong value negative => exact ntoa_eq out p ..

/-- The characters of a string up to a precision. -/
theorem outString_eq (str : List Ch) (precision : Option ℕ) (p : Cursor σ) :
    outString out str precision p =
      emit out (precision.elim str str.take) p := by
  induction str generalizing precision p with
  | nil => rcases precision with _ | _ | n <;> rfl
  | cons c str ih =>
    rcases precision with _ | _ | n
    · exact ih none (put out c p)
    · rfl
    · exact ih (some n) (put out c p)

/-- A text in a field: padded on one side. -/
def padded (text : List Ch) (width l : ℕ) (left : Bool) : List Ch :=
  (if left then [] else spaces (width - l)) ++ text ++ (if left then spaces (width - l) else [])

/-- What the specifier `s` outputs. -/
def stringText (str : List Ch) (flags : Flags) (precision width : UInt32) : List Ch :=
  let l := strnlenS str (if precision ≠ 0 then precision.toNat else UInt32.size - 1)
  let l := if flags.precision then (if l < precision.toNat then l else precision.toNat) else l
  padded (if flags.precision then str.take precision.toNat else str) width.toNat l flags.left

/-- A string is put out as its text. -/
theorem convertString_eq (str : List Ch) (flags : Flags)
    (precision width : UInt32) (p : Cursor σ) :
    convertString out str flags precision width p =
      emit out (stringText str flags precision width) p := by
  unfold convertString stringText padded
  simp only [outSpaces_eq, outString_eq]
  cases flags.left <;> cases flags.precision <;> simp [emit_append]

theorem convertChar_eq (c : Ch) (flags : Flags) (width : UInt32) (p : Cursor σ) :
    convertChar out c flags width p = emit out (padded [c] width.toNat 1 flags.left) p := by
  unfold convertChar padded
  simp only [outSpaces_eq]
  cases flags.left <;> simp [emit_append]

/-- What a conversion with an argument outputs. -/
theorem map_emit {β γ : Type} (arg : Option (γ × β)) (f : γ → Cursor σ) (text : γ → List Ch)
    {p : Cursor σ} (h : ∀ x, f x = emit out (text x) p) :
    (arg.map fun x => (f x.1, x.2)) =
      (arg.map fun x => (text x.1, x.2)).map fun x => (emit out x.1 p, x.2) := by
  cases arg with
  | none => rfl
  | some x => exact congrArg (fun p => some (p, x.2)) (h x.1)

/-- What a conversion outputs that need not be defined. -/
theorem bind_emit {β γ : Type} (arg : Option (γ × β)) (text : γ → Option (List Ch))
    (p : Cursor σ) :
    (arg.bind fun x => (text x.1).map fun t => (emit out t p, x.2)) =
      (arg.bind fun x => (text x.1).map fun t => (t, x.2)).map fun x => (emit out x.1 p, x.2) := by
  rw [Option.map_bind]
  congr 1
  funext x
  rw [Function.comp_apply, Option.map_map]
  rfl

/-- What the conversion for the specifier `c` outputs, and the arguments that are left. -/
def convertText (floats : FloatText Double) (c : Ch) (flags : Flags) (precision width : UInt32)
    (va : List (Arg Double)) : Option (List Ch × List (Arg Double)) :=
  if isInteger c then
    let flags := integerFlags c flags
    (integerArg c flags va).map fun x =>
      (ntoaText x.1.magnitude x.1.negative (integerBase c) precision width flags, x.2)
  else if c = ch 'f' ∨ c = ch 'F' then
    let flags := if c = ch 'F' then { flags with uppercase := true } else flags
    (vaDouble va).bind fun x => (ftoa floats x.1 precision width flags).map fun t => (t, x.2)
  else if c = ch 'e' ∨ c = ch 'E' ∨ c = ch 'g' ∨ c = ch 'G' then
    let flags := if c = ch 'g' ∨ c = ch 'G' then { flags with adaptExp := true } else flags
    let flags := if c = ch 'E' ∨ c = ch 'G' then { flags with uppercase := true } else flags
    (vaDouble va).bind fun x => (floats.etoa x.1 precision width flags).map fun t => (t, x.2)
  else if c = ch 'c' then
    (vaWord va).map fun x => (padded [x.1.toUInt8] width.toNat 1 flags.left, x.2)
  else if c = ch 's' then
    (vaString va).map fun x => (stringText x.1 flags precision width, x.2)
  else if c = ch 'p' then
    let flags := { flags with zeropad := true, uppercase := true }
    (vaWord va).map fun x => (ntoaText x.1.toNat false 16 precision 8 flags, x.2)
  else some ([c], va)

/-- Every conversion has one text. -/
theorem convert_eq (floats : FloatText Double) (c : Ch) (flags : Flags)
    (precision width : UInt32) (va : List (Arg Double)) (p : Cursor σ) :
    convert out floats c flags precision width va p =
      (convertText floats c flags precision width va).map fun x => (emit out x.1 p, x.2) := by
  unfold convert convertText
  dsimp only
  split
  · exact map_emit out _ (fun x => outInteger out p x ..) _ fun x => outInteger_eq out p x ..
  split
  · exact bind_emit out (vaDouble va) (fun d => ftoa floats d precision width _) p
  split
  · exact bind_emit out (vaDouble va) (fun d => floats.etoa d precision width _) p
  split
  · exact map_emit out (vaWord va) (fun w => convertChar out w.toUInt8 flags width p) _
      fun w => convertChar_eq out w.toUInt8 flags width p
  split
  · exact map_emit out _ (fun str => convertString out str flags precision width p) _
      fun str => convertString_eq out str flags precision width p
  split
  · exact map_emit out (vaWord va) (fun w => ntoaLong out p w false 16 precision 8 _) _
      fun w => ntoa_eq out p w.toNat ..
  split
  · next h =>
    rw [h]
    rfl
  · rfl

/-! ## Formats -/

/-- The text of a format and the arguments that are left, at most `n` characters and conversions. -/
def formatText (floats : FloatText Double) : ℕ → List Ch → List (Arg Double) →
    Option (List Ch × List (Arg Double))
  | _, [], va => some ([], va)
  | 0, _ :: _, _ => none
  | n + 1, c :: format, va =>
    if c ≠ ch '%' then (formatText floats n format va).map fun r => (c :: r.1, r.2)
    else do
      let fields ← evalFields format va
      match fields.format with
      | [] => none
      | c :: format =>
        let (t, va) ← convertText floats c fields.flags fields.precision fields.width fields.va
        (formatText floats n format va).map fun r => (t ++ r.1, r.2)

/-- **The loop of `_vsnprintf` outputs the text of the format**, with any output function. -/
theorem formatLoop_eq (floats : FloatText Double) (n : ℕ) (format : List Ch)
    (va : List (Arg Double)) (p : Cursor σ) :
    formatLoop out floats n format va p =
      (formatText floats n format va).map fun r => (emit out r.1 p, r.2) := by
  induction n generalizing format va p with
  | zero => cases format <;> rfl
  | succ n ih =>
    cases format with
    | nil => rfl
    | cons c format =>
      unfold formatLoop formatText
      split
      · rw [ih, Option.map_map]
        rfl
      · rcases evalFields format va with _ | ⟨flags, width, precision, _ | ⟨c, format⟩, va⟩
        · rfl
        · rfl
        · simp only [Option.bind_eq_bind, Option.bind_some, convert_eq]
          rcases convertText floats c flags precision width va with _ | ⟨t, va⟩
          · rfl
          · simp only [Option.map_some, Option.bind_some, ih, Option.map_map]
            congr 1
            funext r
            exact congrArg (·, r.2) (emit_append out t r.1 p).symm

/-- The text of a format and the arguments that are left, if the call is defined. -/
def text? (floats : FloatText Double) (format : List Ch) (va : List (Arg Double)) :
    Option (List Ch × List (Arg Double)) := formatText floats format.length format va

/-- A call puts its text out, and a null character. -/
theorem vsnprintf_eq (floats : FloatText Double) (s : σ) (maxlen : UInt32) (format : List Ch)
    (va : List (Arg Double)) :
    vsnprintf out floats s maxlen format va = (text? floats format va).map fun r =>
      let idx := UInt32.ofNat r.1.length
      (idx.toInt32,
        out 0 (if idx < maxlen then idx else maxlen - 1) (emit out r.1 ⟨0, s⟩).sink) := by
  unfold vsnprintf
  rw [formatLoop_eq]
  show Option.bind (Option.map _ (text? floats format va)) _ = _
  cases text? floats format va with
  | none => rfl
  | some r =>
    simp only [Option.map_some, Option.bind_some, emit_idx, UInt32.zero_add]

end output

/-! ## One text for all functions -/

/-- What a buffer of `count` characters holds after a text was written to it. -/
def bounded (count : UInt32) (t : List Ch) (mem : ℕ → Ch) (x : ℕ) : Ch :=
  if x < min t.length (count.toNat - 1) then t.getD x 0
  else if x = min t.length (count.toNat - 1) ∧ count ≠ 0 then 0
  else mem x

/-- A buffer gets as much of the text as there is room for. -/
theorem emit_bounded (count : UInt32) {t : List Ch} (mem : ℕ → Ch)
    (hlength : t.length < UInt32.size) :
    outBuffer count 0
        (if UInt32.ofNat t.length < count then UInt32.ofNat t.length else count - 1)
        (emit (outBuffer count) t ⟨0, mem⟩).sink = bounded count t mem := by
  funext x
  unfold outBuffer bounded
  rw [toBuffer_apply, emit_buffer _ _ _ hlength]
  by_cases hcount : count = 0
  · subst hcount
    simp
  · have hpos : 0 < count.toNat := by
      rw [Nat.pos_iff_ne_zero]
      exact fun h => hcount (UInt32.toNat_inj.mp h)
    have hlast : (if UInt32.ofNat t.length < count then UInt32.ofNat t.length
        else count - 1).toNat = min t.length (count.toNat - 1) := by
      have hone : (count - 1).toNat = count.toNat - 1 := by
        rw [UInt32.toNat_sub_of_le]
        · rfl
        · exact UInt32.le_iff_toNat_le.mpr hpos
      split
      · next h =>
        rw [UInt32.lt_iff_toNat_lt, UInt32.toNat_ofNat_of_lt' hlength] at h
        rw [UInt32.toNat_ofNat_of_lt' hlength]
        omega
      · next h =>
        rw [UInt32.lt_iff_toNat_lt, UInt32.toNat_ofNat_of_lt' hlength] at h
        omega
    rw [hlast]
    rcases Nat.lt_trichotomy x (min t.length (count.toNat - 1)) with hlt | heq | hgt
    · rw [if_neg (by omega), if_pos (by omega), if_pos hlt]
      simp only [List.getD_eq_getElem?_getD, List.getElem?_eq_getElem (show x < t.length by omega)]
      rfl
    · rw [if_pos (by omega), if_neg (by omega), if_pos ⟨heq, hcount⟩]
    · rw [if_neg (show ¬(x = min t.length (count.toNat - 1) ∧ x < count.toNat) by omega),
        if_neg (show ¬x < min t.length (count.toNat - 1) by omega),
        if_neg (show ¬(x = min t.length (count.toNat - 1) ∧ count ≠ 0) by omega)]
      split
      · rw [List.getD_eq_getElem?_getD, List.getElem?_eq_none (by omega)]
        rfl
      · rfl

/-- **All functions of the family output one text** and return its length: `snprintf_` keeps as
much of it as fits into the buffer with a 0 behind, and touches nothing else, not even that if the
count is 0; `sprintf_` keeps it all; and a function is called with its characters, except 0. -/
theorem one_text {σ : Type} {format : List Ch} {va va' : List (Arg Double)} {t : List Ch}
    (htext : text? floats format va = some (t, va')) (hlength : t.length + 1 < UInt32.size)
    (mem : ℕ → Ch) (count : UInt32) (fct : Ch → σ → σ) (s : σ) :
    snprintf floats (some mem) count format va =
        some ((UInt32.ofNat t.length).toInt32, some (bounded count t mem)) ∧
      snprintf floats none count format va = some ((UInt32.ofNat t.length).toInt32, none) ∧
      sprintf floats mem format va = some ((UInt32.ofNat t.length).toInt32, fun x =>
        if x < t.length then t.getD x 0 else if x = t.length then 0 else mem x) ∧
      fctprintf floats fct s format va = some ((UInt32.ofNat t.length).toInt32,
        (t.filter (· ≠ 0)).foldl (fun s c => fct c s) s) := by
  have hlt : t.length < UInt32.size := Nat.lt_of_succ_lt hlength
  refine ⟨?_, ?_, ?_, ?_⟩
  · simp only [snprintf, vsnprintf_eq, htext, Option.map_some, emit_bounded count mem hlt]
  · simp only [snprintf, vsnprintf_eq, htext, Option.map_some]
  · simp only [sprintf, vsnprintf_eq, htext, Option.map_some, emit_bounded _ mem hlt]
    congr 2
    funext x
    have hmin : min t.length ((0 - 1 : UInt32).toNat - 1) = t.length := by
      show min t.length (UInt32.size - 2) = t.length
      omega
    unfold bounded
    rw [hmin]
    by_cases hx : x = t.length
    · rw [if_pos (c := _ ∧ _) ⟨hx, by decide⟩, if_pos hx]
    · rw [if_neg (c := _ ∧ _) (fun h => hx h.1), if_neg hx]
  · simp only [fctprintf, vsnprintf_eq, htext, Option.map_some]
    congr 2
    show outFct fct 0 _ _ = _
    unfold outFct
    rw [emit_stream, ← foldl_filter]
    simp [stream]

/-- The conversions of a program that has no `double`. -/
def noFloats : FloatText Unit :=
  ⟨fun _ => .special, fun _ _ _ => [], fun _ _ _ _ => [], fun _ _ _ _ => some []⟩

/-- `n=%d!` in a buffer of four characters. -/
theorem one_text_truncated :
    snprintf noFloats (some fun _ => 255) 4 [ch 'n', ch '=', ch '%', ch 'd', ch '!'] [.word 42] =
        some (5, some (bounded 4 [ch 'n', ch '=', ch '4', ch '2', ch '!'] fun _ => 255)) ∧
      snprintf noFloats none 4 [ch 'n', ch '=', ch '%', ch 'd', ch '!'] [.word 42] =
        some (5, none) ∧
      sprintf noFloats (fun _ => 255) [ch 'n', ch '=', ch '%', ch 'd', ch '!'] [.word 42] =
        some (5, fun x =>
          if x < 5 then [ch 'n', ch '=', ch '4', ch '2', ch '!'].getD x 0
          else if x = 5 then 0 else 255) ∧
      fctprintf noFloats (fun c s => s ++ [c]) [] [ch 'n', ch '=', ch '%', ch 'd', ch '!']
        [.word 42] = some (5, [ch 'n', ch '=', ch '4', ch '2', ch '!']) :=
  one_text (t := [ch 'n', ch '=', ch '4', ch '2', ch '!']) rfl (by decide) (fun _ => 255) 4
    (fun c s => s ++ [c]) []

end Printf
