/-
# Prefixes

With `#`, `_ntoa_format` makes room for the prefix by leaving digits out if their number is the
width, which is meant for leading zeros.  It does not check that they are zeros: the value is read
back exactly when the digits do not fill the width by themselves (`hash_read_back_iff`).
-/
import NewtonTLS.PrintfIntegers

namespace Printf

variable {Double : Type} {floats : FloatText Double}

/-! ## Fields without a precision -/

theorem evalLength_precision (flags : Flags) (format : List Ch) :
    (evalLength flags format).1.precision = flags.precision := by
  cases format with
  | nil => rfl
  | cons c format =>
    simp only [evalLength]
    repeat' split
    all_goals rfl

/-- Without a `.` the precision is 0. -/
theorem evalPrecision_zero {flags flags' : Flags} {format rest : List Ch}
    {va va' : List (Arg Double)} {precision : UInt32}
    (h : evalPrecision flags format va = some (precision, flags', rest, va'))
    (hflag : flags'.precision = false) : precision = 0 := by
  have hset : ∀ {r : UInt32 × Flags × List Ch × List (Arg Double)},
      r = (precision, flags', rest, va') → r.2.1.precision = true → precision = 0 := by
    rintro r rfl htrue
    exact absurd (htrue.symm.trans hflag) (by decide)
  rcases format with _ | ⟨c, format⟩
  · exact (Prod.mk.inj (Option.some.inj h)).1.symm
  simp only [evalPrecision] at h
  split at h
  · rcases format with _ | ⟨c', format⟩
    · exact hset (Option.some.inj h) rfl
    dsimp only at h
    split at h
    · exact hset (Option.some.inj h) rfl
    split at h
    · obtain ⟨x, -, heq⟩ := Option.map_eq_some_iff.mp h
      exact hset heq rfl
    · exact hset (Option.some.inj h) rfl
  · exact (Prod.mk.inj (Option.some.inj h)).1.symm

/-- Without a point the precision is 0. -/
theorem evalFields_precision {format : List Ch} {va : List (Arg Double)} {fields : Fields Double}
    (h : evalFields format va = some fields) (hflag : fields.flags.precision = false) :
    fields.precision = 0 := by
  simp only [evalFields, Option.bind_eq_bind] at h
  obtain ⟨⟨width, flags, rest, va'⟩, -, h⟩ := Option.bind_eq_some_iff.mp h
  obtain ⟨⟨precision, flags', rest', va''⟩, hprecision, h⟩ := Option.bind_eq_some_iff.mp h
  cases h
  rw [evalLength_precision] at hflag
  exact evalPrecision_zero hprecision hflag

/-! ## The digits that are left -/

/-- The digits that the prefix leaves of `ds`, the last first. -/
def keptDigits (ds : List ℕ) (base : ℕ) (width : UInt32) : List ℕ :=
  if ds.length = width.toNat then ds.take (ds.length - if base = 16 then 2 else 1) else ds

/-- The letter of a hexadecimal prefix. -/
def prefixLetter (flags : Flags) : Ch := if flags.uppercase then ch 'X' else ch 'x'

/-- The buffer without the digits that were dropped. -/
theorem dropped_eq {ds : List ℕ} (hds : ds ≠ []) (base : ℕ) (width : UInt32) {flags : Flags}
    (hprecision : flags.precision = false) :
    (if !flags.precision ∧ (digitChars flags ds).length ≠ 0 ∧
        ((digitChars flags ds).length = (0 : UInt32).toNat ∨
          (digitChars flags ds).length = width.toNat) then
      if (digitChars flags ds).dropLast.length ≠ 0 ∧ base = 16 then
        (digitChars flags ds).dropLast.dropLast
      else (digitChars flags ds).dropLast
    else digitChars flags ds) = digitChars flags (keptDigits ds base width) := by
  have hlength : ds.length ≠ 0 := fun h => hds (List.eq_nil_of_length_eq_zero h)
  have htake : ∀ (ds : List ℕ) n, (digitChars flags ds).take n = digitChars flags (ds.take n) :=
    fun ds n => List.map_take.symm
  have hiff : (!flags.precision ∧ (digitChars flags ds).length ≠ 0 ∧
      ((digitChars flags ds).length = (0 : UInt32).toNat ∨
        (digitChars flags ds).length = width.toNat)) ↔ ds.length = width.toNat := by
    rw [digitChars_length, hprecision]
    constructor
    · rintro ⟨-, -, h | h⟩
      · exact absurd h hlength
      · exact h
    · intro h
      exact ⟨rfl, hlength, Or.inr h⟩
  simp only [hiff]
  unfold keptDigits
  split
  · rw [List.dropLast_eq_take, List.dropLast_eq_take, htake, htake, digitChars_length,
      digitChars_length, List.length_take, List.take_take]
    by_cases hbase : base = 16
    · rw [if_pos hbase]
      split
      · congr 2
        omega
      · next h =>
        have hone : ds.length - 1 = 0 := by
          by_contra hne
          exact h ⟨by omega, hbase⟩
        rw [hone, show ds.length - 2 = 0 by omega]
    · rw [if_neg hbase, if_neg fun h => hbase h.2]
  · rfl

theorem hexLetter_eq (buf : List Ch) (flags : Flags) :
    (if 16 = 16 ∧ !flags.uppercase ∧ buf.length < PRINTF_NTOA_BUFFER_SIZE then buf ++ [ch 'x']
      else if 16 = 16 ∧ flags.uppercase ∧ buf.length < PRINTF_NTOA_BUFFER_SIZE then
        buf ++ [ch 'X']
      else if 16 = 2 ∧ buf.length < PRINTF_NTOA_BUFFER_SIZE then buf ++ [ch 'b']
      else buf) = push (prefixLetter flags) buf := by
  unfold push prefixLetter
  by_cases hroom : buf.length < PRINTF_NTOA_BUFFER_SIZE
  · cases flags.uppercase with
    | true => simp [hroom]
    | false => simp [hroom]
  · simp [hroom]

/-- `0x` in front of the digits that are kept. -/
theorem handleHash_hex {ds : List ℕ} (hds : ds ≠ []) (width : UInt32) {flags : Flags}
    (hhash : flags.hash) (hprecision : flags.precision = false)
    (hlength : (keptDigits ds 16 width).length < 31 ∨ (keptDigits ds 16 width).length = 32) :
    (handleHash (digitChars flags ds) 16 0 width flags).reverse =
      (if (keptDigits ds 16 width).length < 31 then [ch '0', prefixLetter flags] else []) ++
        (digitChars flags (keptDigits ds 16 width)).reverse := by
  unfold handleHash
  dsimp only
  rw [if_pos hhash, dropped_eq hds 16 width hprecision, hexLetter_eq]
  unfold push PRINTF_NTOA_BUFFER_SIZE
  rw [digitChars_length]
  rcases hlength with hlt | heq
  · rw [if_pos (show (keptDigits ds 16 width).length < 32 by omega), if_pos, if_pos hlt]
    · simp
    · rw [List.length_append, digitChars_length, List.length_singleton]
      omega
  · rw [if_neg (show ¬(keptDigits ds 16 width).length < 32 by omega), digitChars_length,
      if_neg (by omega), if_neg (by omega)]
    rfl

/-- `0` in front of the digits that are kept, if there is room. -/
theorem handleHash_octal {ds : List ℕ} (hds : ds ≠ []) (width : UInt32) {flags : Flags}
    (hhash : flags.hash) (hprecision : flags.precision = false) :
    (handleHash (digitChars flags ds) 8 0 width flags).reverse =
      (if (keptDigits ds 8 width).length < 32 then [ch '0'] else []) ++
        (digitChars flags (keptDigits ds 8 width)).reverse := by
  unfold handleHash
  dsimp only
  rw [if_pos hhash, dropped_eq hds 8 width hprecision, if_neg (by omega), if_neg (by omega),
    if_neg (by omega)]
  unfold push PRINTF_NTOA_BUFFER_SIZE
  rw [digitChars_length]
  split
  · rw [List.reverse_append]
    rfl
  · rfl

/-! ## Reading a prefix -/

/-- Digits without a prefix are read as before. -/
theorem readPrefixed_digitChars {base : ℕ} (hbase : base ≤ 16) (flags : Flags) {ds : List ℕ}
    (hds : ∀ d ∈ ds, d < base) (n : ℕ) :
    readPrefixed base (skipSpaces ((digitChars flags ds).reverse ++ spaces n)) =
      Nat.ofDigits base ds := by
  have hread := readDigits_digitChars hbase flags hds (stops_spaces base n) 0
  rw [Nat.zero_mul, Nat.zero_add] at hread
  rcases List.eq_nil_or_concat ds with rfl | ⟨ds', d, rfl⟩
  · show readPrefixed base (skipSpaces (spaces n)) = 0
    rw [← List.append_nil (spaces n), skipSpaces_spaces]
    rfl
  rw [List.concat_eq_append] at hds hread ⊢
  have hd : d < 16 := Nat.lt_of_lt_of_le
    (hds d (List.mem_append_right ds' (List.mem_singleton_self d))) hbase
  have hcons : (digitChars flags (ds' ++ [d])).reverse ++ spaces n =
      digitChar d flags :: ((digitChars flags ds').reverse ++ spaces n) := by
    rw [digitChars, List.map_append, List.reverse_append]
    rfl
  rw [hcons] at hread ⊢
  rw [skipSpaces_cons (digitChar_ne hd flags).1]
  -- the second character is a digit, too, or a space
  have hsecond : ∀ x s, (digitChars flags ds').reverse ++ spaces n = x :: s →
      x ≠ ch 'x' ∧ x ≠ ch 'X' := by
    intro x s hx
    have hmem : x ∈ (digitChars flags ds').reverse ++ spaces n := hx ▸ List.mem_cons_self
    rcases List.mem_append.mp hmem with hmem | hmem
    · obtain ⟨d', hd', rfl⟩ := List.mem_map.mp (List.mem_reverse.mp hmem)
      have hlt : d' < 16 := Nat.lt_of_lt_of_le (hds d' (List.mem_append_left _ hd')) hbase
      have hvalue := digitValue_digitChar hlt flags
      constructor
      · intro heq
        rw [heq] at hvalue
        exact absurd (Option.some.inj hvalue).symm (Nat.ne_of_lt (Nat.lt_trans hlt (by decide)))
      · intro heq
        rw [heq] at hvalue
        exact absurd (Option.some.inj hvalue).symm (Nat.ne_of_lt (Nat.lt_trans hlt (by decide)))
    · rw [List.eq_of_mem_replicate hmem]
      decide
  cases hrest : (digitChars flags ds').reverse ++ spaces n with
  | nil =>
    rw [hrest] at hread
    exact hread
  | cons x s =>
    rw [readPrefixed, if_neg, ← hrest, hread]
    rintro ⟨-, -, h | h⟩
    · exact (hsecond x s hrest).1 h
    · exact (hsecond x s hrest).2 h

theorem readPrefixed_hex (flags : Flags) {ds : List ℕ} (hds : ∀ d ∈ ds, d < 16) (n : ℕ) :
    readPrefixed 16 (skipSpaces ([ch '0', prefixLetter flags] ++ (digitChars flags ds).reverse ++
      spaces n)) = Nat.ofDigits 16 ds := by
  have hread := readDigits_digitChars (Nat.le_refl 16) flags hds (stops_spaces 16 n) 0
  rw [Nat.zero_mul, Nat.zero_add] at hread
  rw [List.append_assoc, List.cons_append, skipSpaces_cons (by decide), List.singleton_append,
    readPrefixed, if_pos, hread]
  refine ⟨rfl, rfl, ?_⟩
  unfold prefixLetter
  split
  · exact Or.inr rfl
  · exact Or.inl rfl

theorem readPrefixed_octal (flags : Flags) {ds : List ℕ} (hds : ∀ d ∈ ds, d < 8) (n : ℕ) :
    readPrefixed 8 (skipSpaces ([ch '0'] ++ (digitChars flags ds).reverse ++ spaces n)) =
      Nat.ofDigits 8 ds := by
  have hzero : [ch '0'] ++ (digitChars flags ds).reverse =
      (digitChars flags (ds ++ List.replicate 1 0)).reverse := by
    rw [digitChars_append_zeros, List.reverse_append]
    rfl
  rw [hzero, readPrefixed_digitChars (by norm_num), Nat.ofDigits_append_replicate_zero]
  intro d hd
  rcases List.mem_append.mp hd with hd | hd
  · exact hds d hd
  · rw [List.eq_of_mem_replicate hd]
    norm_num

/-! ## Reading back -/

/-- With `#` there are spaces, what `handleHash` makes of the digits, and spaces. -/
theorem ntoaText_hash {base : ℕ} (hbase : 2 ≤ base) {value : ℕ} (hvalue : value ≠ 0)
    (prec width : UInt32) {flags : Flags} (hplus : flags.plus = false)
    (hspace : flags.space = false) :
    ∃ m n, ntoaText value false base prec width flags = spaces m ++
      (handleHash (digitChars flags (plainDigits value false base prec width flags)) base prec
        width flags).reverse ++ spaces n := by
  have hbuf : digitsBuf value base flags =
      digitChars flags (if !flags.precision ∨ value ≠ 0 then lowDigits base value else []) := by
    unfold digitsBuf
    rw [if_pos (Or.inr hvalue), if_pos (Or.inr hvalue)]
    exact ntoaDigits_lowDigits hbase flags value
  have hwidth : ∀ buf, (padLeading buf false prec width flags).1 = width := by
    intro buf
    unfold padLeading
    dsimp only
    split
    · rw [if_neg]
      rintro ⟨-, -, h | h | h⟩
      · exact Bool.false_ne_true h
      · exact Bool.false_ne_true (hplus.symm.trans h)
      · exact Bool.false_ne_true (hspace.symm.trans h)
    · rfl
  have hformat : (formatBuf (digitsBuf value base flags) false base prec width flags).reverse =
      (handleHash (digitChars flags (plainDigits value false base prec width flags)) base prec
        width flags).reverse := by
    have hlead := padLeading_eq false prec width flags
      (if !flags.precision ∨ value ≠ 0 then lowDigits base value else [])
    have hsign : signChars false flags = [] := by
      unfold signChars
      rw [hplus, hspace]
      rfl
    unfold formatBuf
    dsimp only
    rw [hbuf, hwidth, hlead, pushSign_reverse, hsign, ite_self]
    rfl
  unfold ntoaText
  simp only [if_neg hvalue]
  unfold revText
  rw [hformat]
  cases flags.left with
  | true => exact ⟨0, _, rfl⟩
  | false =>
    cases flags.zeropad with
    | true => exact ⟨0, 0, rfl⟩
    | false => exact ⟨_, 0, rfl⟩

/-- The length of the digits with the zeros in front. -/
theorem plainDigits_length {base : ℕ} (hbase : 2 ≤ base) {value : ℕ} (hvalue : value ≠ 0)
    (hlt : value < base ^ PRINTF_NTOA_BUFFER_SIZE) (width : UInt32) {flags : Flags}
    (hplus : flags.plus = false) (hspace : flags.space = false) :
    (plainDigits value false base 0 width flags).length =
      max (Nat.digits base value).length
        (if flags.zeropad ∧ ¬flags.left then min width.toNat 32 else 0) := by
  have hlow : lowDigits base value = Nat.digits base value := by
    unfold lowDigits
    rw [if_neg hvalue, List.take_of_length_le]
    exact (Nat.digits_length_le_iff hbase value).mpr hlt
  have hwidth : zerosWidth false width flags = width := by
    unfold zerosWidth
    rw [if_neg]
    rintro ⟨-, -, h | h | h⟩
    · exact Bool.false_ne_true h
    · exact Bool.false_ne_true (hplus.symm.trans h)
    · exact Bool.false_ne_true (hspace.symm.trans h)
  unfold plainDigits leadingZeros PRINTF_NTOA_BUFFER_SIZE
  dsimp only
  rw [if_pos (Or.inr hvalue), hlow, hwidth, List.length_append, List.length_replicate]
  cases flags.left with
  | true => simp
  | false =>
    cases flags.zeropad with
    | true => simp; omega
    | false => simp

/-- The digits fill the width by themselves, or but for a zero that is not enough for the
prefix. -/
def FillsWidth (value base : ℕ) (width : UInt32) (flags : Flags) : Prop :=
  width.toNat = (Nat.digits base value).length ∨
    base = 16 ∧ flags.zeropad ∧ ¬flags.left ∧ width.toNat = (Nat.digits base value).length + 1

/-- The value, when the prefix has taken the place of digits. -/
theorem ofDigits_keptDigits {base : ℕ} (hbase : 2 ≤ base) {ds : List ℕ}
    (hds : ∀ d ∈ ds, d < base) (width : UInt32) :
    Nat.ofDigits base (keptDigits ds base width) =
      if ds.length = width.toNat then
        Nat.ofDigits base ds % base ^ (ds.length - if base = 16 then 2 else 1)
      else Nat.ofDigits base ds := by
  unfold keptDigits
  split
  · exact (Nat.ofDigits_mod_pow_eq_ofDigits_take _ (Nat.lt_of_lt_of_le Nat.zero_lt_two hbase) ds
      hds).symm
  · rfl

/-- 64 bits have fewer digits than the buffer. -/
theorem pow_bounds {base : ℕ} (hbase : base = 8 ∨ base = 16) :
    2 ^ 64 < base ^ PRINTF_NTOA_BUFFER_SIZE ∧ 2 ^ 64 < base ^ 22 := by
  rcases hbase with rfl | rfl
  · norm_num [PRINTF_NTOA_BUFFER_SIZE]
  · norm_num [PRINTF_NTOA_BUFFER_SIZE]

/-- The number of digits. -/
theorem digits_length_bounds {base : ℕ} (hbase : base = 8 ∨ base = 16) {value : ℕ}
    (hvalue : value ≠ 0) (hlt : value < 2 ^ 64) :
    0 < (Nat.digits base value).length ∧ (Nat.digits base value).length ≤ 22 := by
  constructor
  · rw [List.length_pos_iff]
    exact Nat.digits_ne_nil_iff_ne_zero.mpr hvalue
  · rw [Nat.digits_length_le_iff (by omega)]
    exact Nat.lt_trans hlt (pow_bounds hbase).2

/-- The digits that are left mean the value exactly if the digits do not fill the width. -/
theorem ofDigits_keptDigits_iff {base : ℕ} (hbase : base = 8 ∨ base = 16) {value : ℕ}
    (hvalue : value ≠ 0) (hlt : value < 2 ^ 64) (width : UInt32) {flags : Flags}
    (hplus : flags.plus = false) (hspace : flags.space = false) :
    Nat.ofDigits base (keptDigits (plainDigits value false base 0 width flags) base width) =
      value ↔ ¬FillsWidth value base width flags := by
  have htwo : 2 ≤ base := by omega
  have hsmall := Nat.lt_trans hlt (pow_bounds hbase).1
  have hlength := plainDigits_length htwo hvalue hsmall width hplus hspace
  rw [ofDigits_keptDigits htwo (plainDigits_lt htwo value false 0 width flags),
    ofDigits_plainDigits htwo, Nat.mod_eq_of_lt hsmall]
  have hdigits : ∀ k, value % base ^ k = value ↔ (Nat.digits base value).length ≤ k := by
    intro k
    rw [Nat.digits_length_le_iff htwo, Nat.mod_eq_iff_lt]
    exact pow_ne_zero k (by omega)
  have hbounds := digits_length_bounds hbase hvalue hlt
  have hread : (if (plainDigits value false base 0 width flags).length = width.toNat then
      value % base ^ ((plainDigits value false base 0 width flags).length -
        if base = 16 then 2 else 1) else value) = value ↔
      ((plainDigits value false base 0 width flags).length = width.toNat →
        (Nat.digits base value).length ≤ (plainDigits value false base 0 width flags).length -
          if base = 16 then 2 else 1) := by
    split
    · next h => rw [hdigits, imp_iff_right h]
    · next h => exact iff_of_true rfl fun h' => absurd h' h
  rw [hread]
  unfold FillsWidth
  by_cases hpad : flags.zeropad ∧ ¬flags.left
  · rw [if_pos hpad] at hlength
    have hiff : ∀ P : Prop, (base = 16 ∧ flags.zeropad ∧ ¬flags.left ∧ P) ↔ base = 16 ∧ P :=
      fun P => ⟨fun h => ⟨h.1, h.2.2.2⟩, fun h => ⟨h.1, hpad.1, hpad.2, h.2⟩⟩
    rw [hiff]
    split
    · omega
    · omega
  · have hnot : ∀ P : Prop, (base = 16 ∧ flags.zeropad ∧ ¬flags.left ∧ P) ↔ False :=
      fun P => iff_of_false (fun h => hpad ⟨h.2.1, h.2.2.1⟩) id
    rw [if_neg hpad] at hlength
    rw [hnot, or_false]
    split
    · omega
    · omega

theorem keptDigits_lt {base : ℕ} {ds : List ℕ} (hds : ∀ d ∈ ds, d < base) (width : UInt32) :
    ∀ d ∈ keptDigits ds base width, d < base := by
  intro d hd
  unfold keptDigits at hd
  split at hd
  · exact hds d (List.mem_of_mem_take hd)
  · exact hds d hd

/-- What is read of a value in front of which there is a prefix. -/
theorem readPrefixed_ntoaText {base : ℕ} (hbase : base = 8 ∨ base = 16) {value : ℕ}
    (hvalue : value ≠ 0) (hlt : value < 2 ^ 64) (width : UInt32) {flags : Flags}
    (hhash : flags.hash) (hprecision : flags.precision = false) (hplus : flags.plus = false)
    (hspace : flags.space = false) :
    readPrefixed base (skipSpaces (ntoaText value false base 0 width flags)) =
      Nat.ofDigits base
        (keptDigits (plainDigits value false base 0 width flags) base width) := by
  have htwo : 2 ≤ base := by omega
  have hds := plainDigits_lt htwo value false 0 width flags
  have hkept := keptDigits_lt hds width
  have hbounds := digits_length_bounds hbase hvalue hlt
  have hlength := plainDigits_length htwo hvalue (Nat.lt_trans hlt (pow_bounds hbase).1) width
    hplus hspace
  have hne : plainDigits value false base 0 width flags ≠ [] := by
    rw [← List.length_pos_iff, hlength]
    omega
  obtain ⟨m, n, htext⟩ := ntoaText_hash htwo hvalue 0 width hplus hspace
  rw [htext, List.append_assoc, skipSpaces_spaces]
  rcases hbase with rfl | rfl
  · rw [handleHash_octal hne width hhash hprecision]
    split
    · exact readPrefixed_octal flags hkept n
    · exact readPrefixed_digitChars (by norm_num) flags hkept n
  · -- the prefix has room, for zeros are dropped if they leave none
    have hroom : (keptDigits (plainDigits value false 16 0 width flags) 16 width).length < 31 ∨
        (keptDigits (plainDigits value false 16 0 width flags) 16 width).length = 32 := by
      unfold keptDigits
      split
      · rw [List.length_take, if_pos rfl]
        split at hlength
        · omega
        · omega
      · split at hlength
        · omega
        · omega
    rw [handleHash_hex hne width hhash hprecision hroom]
    split
    · exact readPrefixed_hex flags hkept n
    · exact readPrefixed_digitChars (Nat.le_refl 16) flags hkept n

/-- There is no prefix in front of 0. -/
theorem readPrefixed_zero {base : ℕ} (hbase : base = 8 ∨ base = 16) (prec width : UInt32)
    {flags : Flags} (hplus : flags.plus = false) (hspace : flags.space = false) :
    readPrefixed base (skipSpaces (ntoaText 0 false base prec width flags)) = 0 := by
  have htwo : 2 ≤ base := by omega
  have hflags : ntoaText 0 false base prec width flags =
      ntoaText 0 false base prec width { flags with hash := false } := rfl
  obtain ⟨m, n, htext⟩ := ntoaText_plain htwo 0 false prec width
    (show ({ flags with hash := false } : Flags).hash = false from rfl)
  have hsign : signChars false { flags with hash := false } = [] := by
    unfold signChars
    rw [hplus, hspace]
    rfl
  rw [hflags, htext, hsign, ite_self, List.nil_append, List.append_assoc, skipSpaces_spaces,
    readPrefixed_digitChars (by omega) _ (plainDigits_lt htwo 0 false prec width _),
    ofDigits_plainDigits htwo, Nat.zero_mod]

/-- **With `#` the digits of a number may be dropped**: without a precision, what `x`, `X` and `o`
output is read back as the value of the argument exactly if that is 0 or its digits do not fill
the width. -/
theorem hash_read_back_iff {format : List Ch} {va va' : List (Arg Double)}
    {fields : Fields Double} {c : Ch} {t : List Ch}
    (hfields : evalFields format va = some fields) (hformat : fields.format = [c])
    (hc : c = ch 'x' ∨ c = ch 'X' ∨ c = ch 'o') (hhash : fields.flags.hash)
    (hprecision : fields.flags.precision = false)
    (htext : text? floats (ch '%' :: format) va = some (t, va')) :
    ∃ arg, fields.va = arg :: va' ∧
      ((readPrefixed (integerBase c) (skipSpaces t) : ℤ) = argValue c fields.flags arg ↔
        argValue c fields.flags arg = 0 ∨
          ¬FillsWidth (argValue c fields.flags arg).natAbs (integerBase c) fields.width
            fields.flags) := by
  have hfacts : isInteger c ∧ (integerBase c = 8 ∨ integerBase c = 16) ∧
      ¬(c = ch 'i' ∨ c = ch 'd') := by
    rcases hc with rfl | rfl | rfl
    · decide
    · decide
    · decide
  obtain ⟨hinteger, hbase, hunsigned⟩ := hfacts
  have hconvert := text?_conversion hfields hformat htext
  rw [convertText, if_pos hinteger, evalFields_precision hfields hprecision] at hconvert
  obtain ⟨⟨x, va''⟩, harg, heq⟩ := Option.map_eq_some_iff.mp hconvert
  obtain ⟨rfl, rfl⟩ := Prod.mk.inj heq
  obtain ⟨arg, hva, hmagnitude, hnegative⟩ := integerArg_value harg
  rw [argValue_integerFlags] at hmagnitude hnegative
  have hnonneg := argValue_nonneg hunsigned fields.flags arg
  rw [decide_eq_false (Int.not_lt.mpr hnonneg)] at hnegative
  have hplus : (integerFlags c fields.flags).plus = false := by
    rw [integerFlags_eq]
    exact (congrArg (fields.flags.plus && ·) (decide_eq_false hunsigned)).trans
      (Bool.and_false _)
  have hspace : (integerFlags c fields.flags).space = false := by
    rw [integerFlags_eq]
    exact (congrArg (fields.flags.space && ·) (decide_eq_false hunsigned)).trans
      (Bool.and_false _)
  refine ⟨arg, hva, ?_⟩
  have hcast : (x.magnitude : ℤ) = argValue c fields.flags arg := by
    rw [hmagnitude, Int.natAbs_of_nonneg hnonneg]
  dsimp only
  rw [hnegative, ← hcast, Int.natAbs_natCast, Nat.cast_inj, Nat.cast_eq_zero]
  by_cases hzero : x.magnitude = 0
  · rw [hzero, readPrefixed_zero hbase 0 fields.width hplus hspace]
    exact iff_of_true rfl (Or.inl rfl)
  · have hlt := magnitude_lt x
    have hhash' : (integerFlags c fields.flags).hash = true := by
      rw [integerFlags_eq]
      have hne : integerBase c ≠ 10 := by omega
      exact (congrArg (fields.flags.hash && ·) (decide_eq_true hne)).trans
        ((Bool.and_true _).trans hhash)
    have hprecision' : (integerFlags c fields.flags).precision = false := by
      rw [integerFlags_eq]
      exact hprecision
    have hfills : FillsWidth x.magnitude (integerBase c) fields.width
        (integerFlags c fields.flags) ↔
        FillsWidth x.magnitude (integerBase c) fields.width fields.flags := by
      rw [integerFlags_eq]
      unfold FillsWidth
      simp only [hprecision, Bool.not_false, Bool.and_true]
    rw [readPrefixed_ntoaText hbase hzero hlt fields.width hhash' hprecision' hplus hspace,
      ofDigits_keptDigits_iff hbase hzero hlt fields.width hplus hspace, hfills]
    exact (or_iff_right hzero).symm

/-- `%#8x` of a number of eight digits. -/
theorem hash_read_back_iff_eight :
    ∃ arg : Arg Unit, [Arg.word 0xDEADBEEF] = [arg] ∧
      ((readPrefixed 16 (skipSpaces [ch '0', ch 'x', ch 'a', ch 'd', ch 'b', ch 'e', ch 'e',
          ch 'f']) : ℤ) = argValue (ch 'x') { hash := true } arg ↔
        argValue (ch 'x') { hash := true } arg = 0 ∨
          ¬FillsWidth (argValue (ch 'x') { hash := true } arg).natAbs 16 8 { hash := true }) := by
  have hfields : evalFields [ch '#', ch '8', ch 'x'] [Arg.word 0xDEADBEEF] =
      some (⟨{ hash := true }, 8, 0, [ch 'x'], [.word 0xDEADBEEF]⟩ : Fields Unit) := rfl
  have htext : text? noFloats (ch '%' :: [ch '#', ch '8', ch 'x']) [.word 0xDEADBEEF] =
      some ([ch '0', ch 'x', ch 'a', ch 'd', ch 'b', ch 'e', ch 'e', ch 'f'], []) := rfl
  exact hash_read_back_iff hfields rfl (Or.inl rfl) rfl rfl htext

end Printf
