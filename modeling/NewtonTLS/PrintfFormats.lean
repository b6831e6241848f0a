/-
# Formats and their arguments

How `_vsnprintf` reads a format.  A conversion that ends before the format does is read in the same
way whatever follows it, so the text of two formats, one behind the other, is that of the first
followed by that of the second with the arguments that are left (`text?_append`).  What a call
reads depends on the kinds of the arguments but not on their values, although a `*` makes flags and
widths of them; and only a `double` can make a call undefined that reads well (`text?_kinds`).
-/
import NewtonTLS.Reading
import NewtonTLS.PrintfText

namespace Printf

open Reading

variable {Double : Type} {floats : FloatText Double}

/-! ## The fields of a conversion -/

/-- Flags are read from the front. -/
theorem evalFlags_suffix (flags : Flags) (format : List Ch) :
    (evalFlags flags format).2 <:+ format := by
  induction format generalizing flags with
  | nil => exact List.suffix_rfl
  | cons c format ih =>
    have hcons : ∀ flags, (evalFlags flags format).2 <:+ c :: format :=
      fun flags => (ih flags).trans (List.suffix_cons c format)
    unfold evalFlags
    repeat' split
    · exact hcons _
    · exact hcons _
    · exact hcons _
    · exact hcons _
    · exact hcons _
    · exact List.suffix_rfl

/-- What follows is not looked at. -/
theorem evalFlags_append (flags : Flags) (format g : List Ch)
    (hrest : (evalFlags flags format).2 ≠ []) :
    evalFlags flags (format ++ g) =
      ((evalFlags flags format).1, (evalFlags flags format).2 ++ g) := by
  induction format generalizing flags with
  | nil => exact absurd rfl hrest
  | cons c format ih =>
    rw [List.cons_append]
    unfold evalFlags at hrest ⊢
    by_cases h0 : c = ch '0'
    · simp only [if_pos h0] at hrest ⊢
      exact ih _ hrest
    by_cases h1 : c = ch '-'
    · simp only [if_neg h0, if_pos h1] at hrest ⊢
      exact ih _ hrest
    by_cases h2 : c = ch '+'
    · simp only [if_neg h0, if_neg h1, if_pos h2] at hrest ⊢
      exact ih _ hrest
    by_cases h3 : c = ch ' '
    · simp only [if_neg h0, if_neg h1, if_neg h2, if_pos h3] at hrest ⊢
      exact ih _ hrest
    by_cases h4 : c = ch '#'
    · simp only [if_neg h0, if_neg h1, if_neg h2, if_neg h3, if_pos h4] at hrest ⊢
      exact ih _ hrest
    · simp only [if_neg h0, if_neg h1, if_neg h2, if_neg h3, if_neg h4, List.cons_append]

/-- Digits are read from the front. -/
theorem atoi_suffix (i : UInt32) (str : List Ch) : (atoi i str).2 <:+ str := by
  induction str generalizing i with
  | nil => exact List.suffix_rfl
  | cons c str ih =>
    unfold atoi
    split
    · exact (ih _).trans (List.suffix_cons c str)
    · exact List.suffix_rfl

/-- What follows is not looked at. -/
theorem atoi_append (i : UInt32) (str g : List Ch) (hrest : (atoi i str).2 ≠ []) :
    atoi i (str ++ g) = ((atoi i str).1, (atoi i str).2 ++ g) := by
  induction str generalizing i with
  | nil => exact absurd rfl hrest
  | cons c str ih =>
    rw [List.cons_append]
    unfold atoi at hrest ⊢
    by_cases h : isDigit c
    · simp only [if_pos h] at hrest ⊢
      exact ih _ hrest
    · simp only [if_neg h, List.cons_append]

theorem evalFlags_local (flags : Flags) : Local fun format => some (evalFlags flags format) := by
  constructor
  · intro format x rest h
    have hsuffix := evalFlags_suffix flags format
    rwa [Option.some.inj h] at hsuffix
  · intro format x rest h hrest g
    have happend := evalFlags_append flags format g
    rw [Option.some.inj h] at happend
    exact congrArg some (happend hrest)

theorem atoi_local (i : UInt32) : Local fun str => some (atoi i str) := by
  constructor
  · intro str x rest h
    have hsuffix := atoi_suffix i str
    rwa [Option.some.inj h] at hsuffix
  · intro str x rest h hrest g
    have happend := atoi_append i str g
    rw [Option.some.inj h] at happend
    exact congrArg some (happend hrest)

/-- The width field as a reader. -/
def widthReader (flags : Flags) (va : List (Arg Double)) :
    Reader Ch (UInt32 × Flags × List (Arg Double)) := fun format =>
  (evalWidth flags format va).map fun r => ((r.1, r.2.1, r.2.2.2), r.2.2.1)

/-- The precision field as a reader. -/
def precisionReader (flags : Flags) (va : List (Arg Double)) :
    Reader Ch (UInt32 × Flags × List (Arg Double)) := fun format =>
  (evalPrecision flags format va).map fun r => ((r.1, r.2.1, r.2.2.2), r.2.2.1)

/-- A field that is a number. -/
theorem number_local (c : Ch) (flags : Flags) (va : List (Arg Double)) (hdigit : isDigit c) :
    Local fun format => some (((atoi 0 (c :: format)).1, flags, va), (atoi 0 (c :: format)).2) := by
  have hatoi : ∀ format, atoi 0 (c :: format) =
      atoi (0 * 10 + (c - ch '0').toUInt32) format := by
    intro format
    rw [atoi, if_pos hdigit]
  apply ((atoi_local _).bind fun n => Local.value (some (n, flags, va))).congr
  intro format
  rw [hatoi]
  rfl

theorem widthReader_local (flags : Flags) (va : List (Arg Double)) :
    Local (widthReader flags va) := by
  apply Local.peek
  · rintro _ ⟨⟩
    rfl
  · intro c
    by_cases hdigit : isDigit c
    · left
      apply (number_local c flags va hdigit).congr
      intro format
      simp only [widthReader, evalWidth, if_pos hdigit, Option.map_some]
    by_cases hstar : c = ch '*'
    · left
      apply (Local.value ((vaWord va).map fun x =>
        if x.1.toInt32 < 0 then ((-x.1.toInt32).toUInt32, { flags with left := true }, x.2)
        else (x.1.toInt32.toUInt32, flags, x.2))).congr
      intro format
      simp only [widthReader, evalWidth, if_neg hdigit, if_pos hstar, Option.map_map]
      congr 1
      funext x
      dsimp only [Function.comp]
      split
      · rfl
      · rfl
    · right
      refine ⟨some (0, flags, va), fun format => ?_⟩
      simp only [widthReader, evalWidth, if_neg hdigit, if_neg hstar, Option.map_some]

/-- The precision is read locally. -/
theorem precisionReader_local (flags : Flags) (va : List (Arg Double)) :
    Local (precisionReader flags va) := by
  apply Local.peek
  · rintro _ ⟨⟩
    rfl
  · intro c
    by_cases hpoint : c = ch '.'
    · left
      apply Local.peek
      · intro y h
        simp only [precisionReader, evalPrecision, if_pos hpoint, Option.map_some] at h
        rw [← Option.some.inj h]
      · intro c'
        by_cases hdigit : isDigit c'
        · left
          apply (number_local c' { flags with precision := true } va hdigit).congr
          intro format
          simp only [precisionReader, evalPrecision, if_pos hpoint, if_pos hdigit, Option.map_some]
        by_cases hstar : c' = ch '*'
        · left
          apply (Local.value ((vaWord va).map fun x =>
            (if x.1.toInt32 > 0 then x.1.toInt32.toUInt32 else 0,
              { flags with precision := true }, x.2))).congr
          intro format
          simp only [precisionReader, evalPrecision, if_pos hpoint, if_neg hdigit, if_pos hstar,
            Option.map_map]
          rfl
        · right
          refine ⟨some (0, { flags with precision := true }, va), fun format => ?_⟩
          simp only [precisionReader, evalPrecision, if_pos hpoint, if_neg hdigit, if_neg hstar,
            Option.map_some]
    · right
      refine ⟨some (0, flags, va), fun format => ?_⟩
      simp only [precisionReader, evalPrecision, if_neg hpoint, Option.map_some]

/-- A character that may be given twice. -/
theorem twice_local (c : Ch) (once twice : Flags) :
    Local fun format => some (if format.head? = some c then (twice, format.tail)
      else (once, format)) := by
  apply Local.peek
  · rintro _ ⟨⟩
    rfl
  · intro c'
    by_cases hc : c' = c
    · left
      apply (Local.value (some twice)).congr
      intro format
      rw [List.head?_cons, if_pos (congrArg some hc)]
      rfl
    · right
      refine ⟨some once, fun format => ?_⟩
      rw [List.head?_cons, if_neg fun h => hc (Option.some.inj h)]
      rfl

/-- A letter that may be doubled. -/
theorem evalLength_twice {c : Ch} (hc : c = ch 'l' ∨ c = ch 'h') (flags : Flags)
    (format : List Ch) :
    evalLength flags (c :: format) = if format.head? = some c then
      (if c = ch 'l' then { flags with long := true, longLong := true }
        else { flags with short := true, char := true }, format.tail)
    else (if c = ch 'l' then { flags with long := true } else { flags with short := true },
      format) := by
  rcases hc with rfl | rfl
  · cases format with
    | nil => rfl
    | cons c' format => simp [evalLength]
  · have hne : ¬(ch 'h' = ch 'l') := by decide
    cases format with
    | nil => rfl
    | cons c' format => simp [evalLength, hne]

theorem evalLength_local (flags : Flags) :
    Local fun format => some (evalLength flags format) := by
  apply Local.peek
  · rintro _ ⟨⟩
    rfl
  · intro c
    by_cases htwice : c = ch 'l' ∨ c = ch 'h'
    · left
      apply (twice_local c _ _).congr
      intro format
      exact congrArg some (evalLength_twice htwice flags format)
    obtain ⟨hl, hh⟩ := not_or.mp htwice
    by_cases ht : c = ch 't'
    · left
      apply (Local.value (some { flags with long := true })).congr
      intro format
      simp only [evalLength, if_neg hl, if_neg hh, if_pos ht, Option.map_some]
    by_cases hj : c = ch 'j'
    · left
      apply (Local.value (some { flags with longLong := true })).congr
      intro format
      simp only [evalLength, if_neg hl, if_neg hh, if_neg ht, if_pos hj, Option.map_some]
    by_cases hz : c = ch 'z'
    · left
      apply (Local.value (some { flags with long := true })).congr
      intro format
      simp only [evalLength, if_neg hl, if_neg hh, if_neg ht, if_neg hj, if_pos hz,
        Option.map_some]
    · right
      refine ⟨some flags, fun format => ?_⟩
      simp only [evalLength, if_neg hl, if_neg hh, if_neg ht, if_neg hj, if_neg hz,
        Option.map_some]

/-- The fields as a reader. -/
def fieldsReader (va : List (Arg Double)) :
    Reader Ch (Flags × UInt32 × UInt32 × List (Arg Double)) := fun format =>
  (evalFields format va).map fun f => ((f.flags, f.width, f.precision, f.va), f.format)

theorem fieldsReader_local (va : List (Arg Double)) : Local (fieldsReader va) := by
  have hlength : ∀ (width precision : UInt32) (flags : Flags) (va : List (Arg Double)),
      Local fun format => (some (evalLength flags format)).bind fun y =>
        some ((y.1, width, precision, va), y.2) :=
    fun width precision flags va => (evalLength_local flags).bind fun flags =>
      Local.value (some (flags, width, precision, va))
  apply ((evalFlags_local {}).bind fun flags => (widthReader_local flags va).bind fun x =>
    (precisionReader_local x.2.1 x.2.2).bind fun y => hlength x.1 y.1 y.2.1 y.2.2).congr
  intro format
  simp only [fieldsReader, evalFields, widthReader, precisionReader, Option.bind_eq_bind,
    Option.bind_some]
  rcases evalWidth (evalFlags {} format).1 (evalFlags {} format).2 va with
    _ | ⟨width, flags, format, va⟩
  · rfl
  · simp only [Option.bind_some, Option.map_some]
    rcases evalPrecision flags format va with _ | ⟨precision, flags, format, va⟩
    · rfl
    · rfl

/-- The conversion is behind the fields. -/
theorem evalFields_suffix {format : List Ch} {va : List (Arg Double)} {fields : Fields Double}
    (h : evalFields format va = some fields) : fields.format <:+ format := by
  have hreader : fieldsReader va format = some ((fields.flags, fields.width, fields.precision,
      fields.va), fields.format) := by
    rw [fieldsReader, h]
    rfl
  exact (fieldsReader_local va).suffix hreader

/-- The fields do not depend on what comes after the conversion. -/
theorem evalFields_append {format : List Ch} {va : List (Arg Double)} {fields : Fields Double}
    (h : evalFields format va = some fields) (hrest : fields.format ≠ []) (g : List Ch) :
    evalFields (format ++ g) va = some { fields with format := fields.format ++ g } := by
  have hreader : fieldsReader va format = some ((fields.flags, fields.width, fields.precision,
      fields.va), fields.format) := by
    rw [fieldsReader, h]
    rfl
  obtain ⟨fields', hfields', heq⟩ :=
    Option.map_eq_some_iff.mp ((fieldsReader_local va).append hreader hrest g)
  rw [hfields']
  cases fields'
  simp only [Prod.mk.injEq] at heq
  simp only [heq]

/-! ## The loop -/

/-- As many rounds as there are characters are enough. -/
theorem formatText_enough {n : ℕ} {format : List Ch} (hn : format.length ≤ n)
    (va : List (Arg Double)) : formatText floats n format va = text? floats format va := by
  suffices h : ∀ (n m : ℕ) (format : List Ch) (va : List (Arg Double)), format.length ≤ n →
      format.length ≤ m → formatText floats n format va = formatText floats m format va from
    h n _ format va hn (Nat.le_refl _)
  intro n
  induction n with
  | zero =>
    intro m format va hn _
    rw [List.eq_nil_of_length_eq_zero (Nat.eq_zero_of_le_zero hn)]
    cases m <;> rfl
  | succ n ih =>
    intro m format va hn hm
    rcases format with _ | ⟨c, format⟩
    · cases m <;> rfl
    obtain ⟨m, rfl⟩ : ∃ m', m = m' + 1 := Nat.exists_eq_succ_of_ne_zero (by
      rintro rfl
      exact absurd hm (Nat.not_succ_le_zero _))
    rw [List.length_cons, Nat.succ_le_succ_iff] at hn hm
    unfold formatText
    split
    · rw [ih m format va hn hm]
    · cases hfields : evalFields format va with
      | none => rfl
      | some fields =>
        have hsuffix := (evalFields_suffix hfields).length_le
        rcases fields with ⟨flags, width, precision, _ | ⟨c, rest⟩, va⟩
        · rfl
        · simp only [List.length_cons] at hsuffix
          simp only [Option.bind_eq_bind, Option.bind_some]
          congr 1
          funext r
          rw [ih m rest r.2 (by omega) (by omega)]

/-- **The text of one format behind the other** is the text of the first followed by that of the
second with the arguments that are left. -/
theorem text?_append {format : List Ch} {va va' : List (Arg Double)} {t : List Ch}
    (htext : text? floats format va = some (t, va')) (g : List Ch) :
    text? floats (format ++ g) va = (text? floats g va').map fun r => (t ++ r.1, r.2) := by
  suffices h : ∀ (n : ℕ) (format : List Ch) (va : List (Arg Double)) (t : List Ch),
      formatText floats n format va = some (t, va') →
      formatText floats (n + g.length) (format ++ g) va =
        (text? floats g va').map fun r => (t ++ r.1, r.2) by
    have := h _ format va t htext
    rwa [← List.length_append] at this
  intro n
  induction n with
  | zero =>
    intro format va t h
    cases format with
    | nil =>
      cases h
      rw [List.nil_append, formatText_enough (Nat.le_add_left _ _)]
      simp
    | cons c format => cases h
  | succ n ih =>
    intro format va t h
    cases format with
    | nil =>
      cases h
      rw [List.nil_append, formatText_enough (Nat.le_add_left _ _)]
      simp
    | cons c format =>
      rw [List.cons_append, Nat.succ_add]
      unfold formatText at h ⊢
      split
      · next hc =>
        rw [if_pos hc] at h
        obtain ⟨⟨t', rest⟩, hr, heq⟩ := Option.map_eq_some_iff.mp h
        cases heq
        rw [ih format va t' hr, Option.map_map]
        rfl
      · next hc =>
        rw [if_neg hc] at h
        obtain ⟨fields, hfields, h⟩ := Option.bind_eq_some_iff.mp h
        rcases fields with ⟨flags, width, precision, _ | ⟨c, rest⟩, va⟩
        · cases h
        · obtain ⟨⟨t', va⟩, hconvert, h⟩ := Option.bind_eq_some_iff.mp h
          obtain ⟨⟨t'', rest'⟩, hr, heq⟩ := Option.map_eq_some_iff.mp h
          cases heq
          rw [evalFields_append hfields (List.cons_ne_nil c rest)]
          simp only [Option.bind_eq_bind, Option.bind_some, List.cons_append]
          rw [hconvert]
          simp only [Option.bind_some]
          rw [ih rest va t'' hr, Option.map_map]
          congr 1
          funext r
          simp

/-- `%d,` and `%s`. -/
theorem text?_append_two :
    text? noFloats ([ch '%', ch 'd', ch ','] ++ [ch '%', ch 's']) [.word 7, .string [ch 'a']] =
      (text? noFloats [ch '%', ch 's'] [.string [ch 'a']]).map
        fun r => ([ch '7', ch ','] ++ r.1, r.2) :=
  text?_append rfl [ch '%', ch 's']

/-! ## The kinds of the arguments -/

/-- The kind of an argument. -/
inductive Kind : Type where
  | word
  | longLong
  | string
  | double
  deriving DecidableEq, Repr

/-- The kind of an argument. -/
def Arg.kind : Arg Double → Kind
  | .word _ => .word
  | .longLong _ => .longLong
  | .string _ => .string
  | .double _ => .double

/-- The kinds of the arguments. -/
def kinds (va : List (Arg Double)) : List Kind := va.map Arg.kind

/-- The kinds that are left behind an argument of the kind `k`. -/
def takeKind (k : Kind) : List Kind → Option (List Kind)
  | [] => none
  | k' :: ks => if k' = k then some ks else none

/-- The kinds decide whether there is a word. -/
theorem vaWord_kinds (va : List (Arg Double)) :
    (vaWord va).map (kinds ·.2) = takeKind .word (kinds va) := by
  rcases va with _ | ⟨_ | _ | _ | _, va⟩ <;> rfl

theorem vaLongLong_kinds (va : List (Arg Double)) :
    (vaLongLong va).map (kinds ·.2) = takeKind .longLong (kinds va) := by
  rcases va with _ | ⟨_ | _ | _ | _, va⟩ <;> rfl

theorem vaString_kinds (va : List (Arg Double)) :
    (vaString va).map (kinds ·.2) = takeKind .string (kinds va) := by
  rcases va with _ | ⟨_ | _ | _ | _, va⟩ <;> rfl

theorem vaDouble_kinds (va : List (Arg Double)) :
    (vaDouble va).map (kinds ·.2) = takeKind .double (kinds va) := by
  rcases va with _ | ⟨_ | _ | _ | _, va⟩ <;> rfl

/-- What is left behind the width or the precision field, as far as the kinds of the arguments
decide. -/
def shape (r : UInt32 × Flags × List Ch × List (Arg Double)) : List Ch × Bool × List Kind :=
  (r.2.2.1, r.2.1.longLong, kinds r.2.2.2)

theorem map_eq_map {β γ : Type} {f : β → γ} {r₁ r₂ : Option β} (h : r₁.map f = r₂.map f) :
    r₁ = none ∧ r₂ = none ∨ ∃ x₁ x₂, r₁ = some x₁ ∧ r₂ = some x₂ ∧ f x₁ = f x₂ := by
  cases r₁ with
  | none => exact Or.inl ⟨rfl, Option.map_eq_none_iff.mp h.symm⟩
  | some x₁ =>
    obtain ⟨x₂, h₂, heq⟩ := Option.map_eq_some_iff.mp h.symm
    exact Or.inr ⟨x₁, x₂, rfl, h₂, heq.symm⟩

section shape

variable {flags₁ flags₂ : Flags} {va₁ va₂ : List (Arg Double)}

/-- The value of the width does not decide what is read. -/
theorem evalWidth_shape (hflags : flags₁.longLong = flags₂.longLong)
    (hva : kinds va₁ = kinds va₂) (format : List Ch) :
    (evalWidth flags₁ format va₁).map shape = (evalWidth flags₂ format va₂).map shape := by
  have hstar : ∀ (flags : Flags) (va : List (Arg Double)) (rest : List Ch),
      ((vaWord va).map fun x =>
        let w := x.1.toInt32
        if w < 0 then ((-w).toUInt32, { flags with left := true }, rest, x.2)
        else (w.toUInt32, flags, rest, x.2)).map shape =
      (takeKind .word (kinds va)).map fun ks => (rest, flags.longLong, ks) := by
    intro flags va rest
    rw [← vaWord_kinds, Option.map_map, Option.map_map]
    congr 1
    funext x
    dsimp only [Function.comp]
    split
    · rfl
    · rfl
  cases format with
  | nil => simp only [evalWidth, Option.map_some, shape, hflags, hva]
  | cons c format =>
    simp only [evalWidth]
    split
    · simp only [Option.map_some, shape, hflags, hva]
    · split
      · rw [hstar, hstar, hva, hflags]
      · simp only [Option.map_some, shape, hflags, hva]

theorem evalPrecision_shape (hflags : flags₁.longLong = flags₂.longLong)
    (hva : kinds va₁ = kinds va₂) (format : List Ch) :
    (evalPrecision flags₁ format va₁).map shape =
      (evalPrecision flags₂ format va₂).map shape := by
  have hstar : ∀ (flags : Flags) (va : List (Arg Double)) (rest : List Ch),
      ((vaWord va).map fun x =>
        (if x.1.toInt32 > 0 then x.1.toInt32.toUInt32 else 0, flags, rest, x.2)).map shape =
      (takeKind .word (kinds va)).map fun ks => (rest, flags.longLong, ks) := by
    intro flags va rest
    rw [← vaWord_kinds, Option.map_map, Option.map_map]
    rfl
  cases format with
  | nil => simp only [evalPrecision, Option.map_some, shape, hflags, hva]
  | cons c format =>
    simp only [evalPrecision]
    split
    · cases format with
      | nil => simp only [Option.map_some, shape, hflags, hva]
      | cons c format =>
        dsimp only
        split
        · simp only [Option.map_some, shape, hflags, hva]
        · split
          · rw [hstar, hstar, hva]
            simp only [hflags]
          · simp only [Option.map_some, shape, hflags, hva]
    · simp only [Option.map_some, shape, hflags, hva]

/-- The length depends on the format. -/
theorem evalLength_longLong (hflags : flags₁.longLong = flags₂.longLong) (format : List Ch) :
    (evalLength flags₁ format).2 = (evalLength flags₂ format).2 ∧
      (evalLength flags₁ format).1.longLong = (evalLength flags₂ format).1.longLong := by
  cases format with
  | nil => exact ⟨rfl, hflags⟩
  | cons c format =>
    simp only [evalLength]
    split
    · cases format with
      | nil => exact ⟨rfl, hflags⟩
      | cons c format =>
        dsimp only
        split
        · exact ⟨rfl, rfl⟩
        · exact ⟨rfl, hflags⟩
    split
    · cases format with
      | nil => exact ⟨rfl, hflags⟩
      | cons c format =>
        dsimp only
        split
        · exact ⟨rfl, hflags⟩
        · exact ⟨rfl, hflags⟩
    split
    · exact ⟨rfl, hflags⟩
    split
    · exact ⟨rfl, rfl⟩
    split
    · exact ⟨rfl, hflags⟩
    · exact ⟨rfl, hflags⟩

/-- The fields of a conversion, as far as the kinds of the arguments decide. -/
def Fields.shape (fields : Fields Double) : List Ch × Bool × List Kind :=
  (fields.format, fields.flags.longLong, kinds fields.va)

/-- The values of the fields do not decide what is read. -/
theorem evalFields_shape (hva : kinds va₁ = kinds va₂) (format : List Ch) :
    (evalFields format va₁).map Fields.shape = (evalFields format va₂).map Fields.shape := by
  have hwidth := evalWidth_shape (Eq.refl (evalFlags {} format).1.longLong) hva
    (evalFlags {} format).2
  simp only [evalFields, Option.bind_eq_bind]
  rcases map_eq_map hwidth with ⟨h₁, h₂⟩ | ⟨⟨width₁, flags₁, rest₁, va₁'⟩,
    ⟨width₂, flags₂, rest₂, va₂'⟩, h₁, h₂, heq⟩
  · rw [h₁, h₂]
  · simp only [Printf.shape, Prod.mk.injEq] at heq
    obtain ⟨rfl, hflags, hva'⟩ := heq
    rw [h₁, h₂]
    simp only [Option.bind_some]
    rcases map_eq_map (evalPrecision_shape hflags hva' rest₁) with ⟨h₁, h₂⟩ |
      ⟨⟨precision₁, flags₁, rest₁, va₁'⟩, ⟨precision₂, flags₂, rest₂, va₂'⟩, h₁, h₂, heq⟩
    · rw [h₁, h₂]
      rfl
    · simp only [Printf.shape, Prod.mk.injEq] at heq
      obtain ⟨rfl, hflags, hva'⟩ := heq
      rw [h₁, h₂]
      have hlength := evalLength_longLong hflags rest₁
      simp only [Option.bind_some, Option.map_some, Fields.shape, hlength, hva']

/-- The conversions leave the length alone. -/
theorem integerFlags_longLong (c : Ch) (flags : Flags) :
    (integerFlags c flags).longLong = flags.longLong := by
  unfold integerFlags
  dsimp only
  repeat' split
  all_goals rfl

/-- An integer is a word or a `long long`. -/
theorem integerArg_kinds (c : Ch) (flags : Flags) (va : List (Arg Double)) :
    (integerArg c flags va).map (kinds ·.2) =
      takeKind (if flags.longLong then .longLong else .word) (kinds va) := by
  unfold integerArg
  cases flags.longLong with
  | true =>
    simp only [if_true]
    rw [← vaLongLong_kinds]
    split
    · rw [Option.map_map]
      rfl
    · rw [Option.map_map]
      rfl
  | false =>
    simp only [Bool.false_eq_true, if_false]
    rw [← vaWord_kinds]
    split
    · rw [Option.map_map]
      rfl
    · rw [Option.map_map]
      rfl

end shape

/-! ## What a call reads -/

section reads

variable {va va' va₁ va₂ : List (Arg Double)}

/-- Conversions that write nothing for a `double`. -/
def unwritten : FloatText Double :=
  ⟨fun _ => .special, fun _ _ _ => [], fun _ _ _ _ => [], fun _ _ _ _ => some []⟩

/-- What a call reads of the format and of the arguments, whatever it writes for each `double`: the
arguments that it leaves. -/
def reads? (format : List Ch) (va : List (Arg Double)) : Option (List (Arg Double)) :=
  (text? unwritten format va).map Prod.snd

/-- A conversion reads by kinds. -/
theorem convertText_kinds (c : Ch) {flags₁ flags₂ : Flags}
    (hflags : flags₁.longLong = flags₂.longLong)
    (hva : kinds va₁ = kinds va₂) (precision₁ precision₂ width₁ width₂ : UInt32) :
    (convertText unwritten c flags₁ precision₁ width₁ va₁).map (kinds ·.2) =
      (convertText unwritten c flags₂ precision₂ width₂ va₂).map (kinds ·.2) := by
  have hdouble : ∀ va : List (Arg Double),
      ((vaDouble va).bind fun x => (some []).map fun t : List Ch => (t, x.2)).map (kinds ·.2) =
        takeKind .double (kinds va) := by
    intro va
    rw [← vaDouble_kinds, Option.map_bind, Option.map_eq_bind]
    rfl
  unfold convertText
  dsimp only
  split
  · rw [Option.map_map, Option.map_map]
    exact (integerArg_kinds c _ va₁).trans (by
      rw [integerFlags_longLong, hflags, hva, ← integerFlags_longLong c flags₂]
      exact (integerArg_kinds c _ va₂).symm)
  split
  · exact (hdouble va₁).trans (hva ▸ (hdouble va₂).symm)
  split
  · exact (hdouble va₁).trans (hva ▸ (hdouble va₂).symm)
  split
  · rw [Option.map_map, Option.map_map]
    exact (vaWord_kinds va₁).trans (hva ▸ (vaWord_kinds va₂).symm)
  split
  · rw [Option.map_map, Option.map_map]
    exact (vaString_kinds va₁).trans (hva ▸ (vaString_kinds va₂).symm)
  split
  · rw [Option.map_map, Option.map_map]
    exact (vaWord_kinds va₁).trans (hva ▸ (vaWord_kinds va₂).symm)
  · exact congrArg some hva

/-- What is read depends on the kinds of the arguments. -/
theorem reads?_kinds (hva : kinds va₁ = kinds va₂) (format : List Ch) :
    (reads? format va₁).map kinds = (reads? format va₂).map kinds := by
  unfold reads? text?
  rw [Option.map_map, Option.map_map]
  generalize format.length = n
  induction n generalizing format va₁ va₂ with
  | zero =>
    cases format with
    | nil => exact congrArg some hva
    | cons c format => rfl
  | succ n ih =>
    cases format with
    | nil => exact congrArg some hva
    | cons c format =>
      unfold formatText
      split
      · rw [Option.map_map, Option.map_map]
        exact ih hva format
      · rcases map_eq_map (evalFields_shape hva format) with ⟨h₁, h₂⟩ |
          ⟨⟨flags₁, width₁, precision₁, rest, va₁'⟩, ⟨flags₂, width₂, precision₂, rest₂, va₂'⟩,
            h₁, h₂, heq⟩
        · rw [h₁, h₂]
        · simp only [Fields.shape, Prod.mk.injEq] at heq
          obtain ⟨rfl, hflags, hva'⟩ := heq
          rw [h₁, h₂]
          simp only [Option.bind_eq_bind, Option.bind_some]
          cases rest with
          | nil => rfl
          | cons c rest =>
            have hconvert := convertText_kinds c hflags hva' precision₁ precision₂ width₁ width₂
            dsimp only
            rcases map_eq_map hconvert with ⟨h₁, h₂⟩ | ⟨⟨t₁, va₁'⟩, ⟨t₂, va₂'⟩, h₁, h₂, heq⟩
            · rw [h₁, h₂]
            · rw [h₁, h₂]
              simp only [Option.bind_some, Option.map_map]
              exact ih heq rest

/-- A conversion that is defined reads what it reads when it writes nothing. -/
theorem convertText_unwritten {c : Ch} {flags : Flags} {precision width : UInt32} {t : List Ch}
    (h : convertText floats c flags precision width va = some (t, va')) :
    ∃ t', convertText unwritten c flags precision width va = some (t', va') := by
  have hdouble : ∀ text : Double → Option (List Ch),
      ((vaDouble va).bind fun x => (text x.1).map fun t => (t, x.2)) = some (t, va') →
      ((vaDouble va).bind fun x => (some []).map fun t : List Ch => (t, x.2)) = some ([], va') := by
    intro text htext
    obtain ⟨x, hx, hsome⟩ := Option.bind_eq_some_iff.mp htext
    obtain ⟨t', -, heq⟩ := Option.map_eq_some_iff.mp hsome
    cases heq
    rw [hx]
    rfl
  unfold convertText at h ⊢
  dsimp only at h ⊢
  split
  · next hc =>
    rw [if_pos hc] at h
    exact ⟨t, h⟩
  next hc =>
  rw [if_neg hc] at h
  split
  · next hf =>
    rw [if_pos hf] at h
    exact ⟨[], hdouble (fun d => ftoa floats d precision width _) h⟩
  next hf =>
  rw [if_neg hf] at h
  split
  · next he =>
    rw [if_pos he] at h
    exact ⟨[], hdouble (fun d => floats.etoa d precision width _) h⟩
  next he =>
  rw [if_neg he] at h
  exact ⟨t, h⟩

/-- A call that is defined reads what it reads when it writes nothing. -/
theorem reads?_of_text? {format : List Ch} {t : List Ch}
    (h : text? floats format va = some (t, va')) : reads? format va = some va' := by
  unfold reads? text? at *
  rw [Option.map_eq_some_iff]
  suffices h' : ∃ t', formatText unwritten format.length format va = some (t', va') by
    obtain ⟨t', ht'⟩ := h'
    exact ⟨_, ht', rfl⟩
  generalize format.length = n at *
  induction n generalizing format va t with
  | zero =>
    cases format with
    | nil =>
      cases h
      exact ⟨[], rfl⟩
    | cons c format => cases h
  | succ n ih =>
    cases format with
    | nil =>
      cases h
      exact ⟨[], rfl⟩
    | cons c format =>
      unfold formatText at h ⊢
      split
      · next hc =>
        rw [if_pos hc] at h
        obtain ⟨⟨t', rest⟩, hr, heq⟩ := Option.map_eq_some_iff.mp h
        cases heq
        obtain ⟨t'', hrest⟩ := ih hr
        exact ⟨c :: t'', by rw [hrest]; rfl⟩
      · next hc =>
        rw [if_neg hc] at h
        obtain ⟨fields, hfields, h⟩ := Option.bind_eq_some_iff.mp h
        rw [hfields]
        rcases fields with ⟨flags, width, precision, _ | ⟨c, rest⟩, va⟩
        · cases h
        · obtain ⟨⟨t', va⟩, hconvert, h⟩ := Option.bind_eq_some_iff.mp h
          obtain ⟨⟨t'', rest'⟩, hr, heq⟩ := Option.map_eq_some_iff.mp h
          cases heq
          obtain ⟨t₁, hwritten⟩ := convertText_unwritten hconvert
          obtain ⟨t₂, hrest⟩ := ih hr
          refine ⟨t₁ ++ t₂, ?_⟩
          simp only [Option.bind_eq_bind, Option.bind_some, hwritten, hrest, Option.map_some]

/-! ## Calls without a `double` -/

/-- Arguments are read from the front. -/
theorem vaWord_suffix {w : UInt32} (h : vaWord va = some (w, va')) : va' <:+ va := by
  rcases va with _ | ⟨_ | _ | _ | _, va⟩ <;> cases h
  exact List.suffix_cons _ _

theorem vaLongLong_suffix {v : UInt64} (h : vaLongLong va = some (v, va')) : va' <:+ va := by
  rcases va with _ | ⟨_ | _ | _ | _, va⟩ <;> cases h
  exact List.suffix_cons _ _

theorem vaString_suffix {p : List Ch} (h : vaString va = some (p, va')) : va' <:+ va := by
  rcases va with _ | ⟨_ | _ | _ | _, va⟩ <;> cases h
  exact List.suffix_cons _ _

theorem vaDouble_suffix {d : Double} (h : vaDouble va = some (d, va')) : va' <:+ va := by
  rcases va with _ | ⟨_ | _ | _ | _, va⟩ <;> cases h
  exact List.suffix_cons _ _

/-- A list of arguments in which the next one is no `double`. -/
theorem vaDouble_eq_none (h : Kind.double ∉ kinds va) : vaDouble va = none := by
  rcases va with _ | ⟨_ | _ | _ | _, va⟩
  · rfl
  · rfl
  · rfl
  · rfl
  · exact absurd (List.mem_cons_self ..) h

/-- There is no `double` behind. -/
theorem kinds_suffix (h : va' <:+ va) (hva : Kind.double ∉ kinds va) :
    Kind.double ∉ kinds va' :=
  fun hmem => hva ((h.map Arg.kind).subset hmem)

/-- A width reads an argument at most. -/
theorem evalWidth_suffix {flags : Flags} {format : List Ch}
    {r : UInt32 × Flags × List Ch × List (Arg Double)} (h : evalWidth flags format va = some r) :
    r.2.2.2 <:+ va := by
  unfold evalWidth at h
  split at h
  · cases h
    exact List.suffix_rfl
  · split at h
    · cases h
      exact List.suffix_rfl
    split at h
    · obtain ⟨x, hx, heq⟩ := Option.map_eq_some_iff.mp h
      have hsuffix := vaWord_suffix hx
      dsimp only at heq
      split at heq
      · rwa [← heq]
      · rwa [← heq]
    · cases h
      exact List.suffix_rfl

theorem evalPrecision_suffix {flags : Flags} {format : List Ch}
    {r : UInt32 × Flags × List Ch × List (Arg Double)}
    (h : evalPrecision flags format va = some r) : r.2.2.2 <:+ va := by
  unfold evalPrecision at h
  split at h
  · cases h
    exact List.suffix_rfl
  · split at h
    · dsimp only at h
      split at h
      · cases h
        exact List.suffix_rfl
      split at h
      · cases h
        exact List.suffix_rfl
      split at h
      · obtain ⟨x, hx, heq⟩ := Option.map_eq_some_iff.mp h
        rw [← heq]
        exact vaWord_suffix hx
      · cases h
        exact List.suffix_rfl
    · cases h
      exact List.suffix_rfl

theorem evalFields_va {format : List Ch} {fields : Fields Double}
    (h : evalFields format va = some fields) : fields.va <:+ va := by
  unfold evalFields at h
  obtain ⟨width, hwidth, h⟩ := Option.bind_eq_some_iff.mp h
  obtain ⟨precision, hprecision, h⟩ := Option.bind_eq_some_iff.mp h
  cases h
  exact (evalPrecision_suffix hprecision).trans (evalWidth_suffix hwidth)

theorem integerArg_suffix {c : Ch} {flags : Flags} {x : Integer × List (Arg Double)}
    (h : integerArg c flags va = some x) : x.2 <:+ va := by
  unfold integerArg at h
  split at h
  · split at h
    · obtain ⟨y, hy, heq⟩ := Option.map_eq_some_iff.mp h
      rw [← heq]
      exact vaLongLong_suffix hy
    · obtain ⟨y, hy, heq⟩ := Option.map_eq_some_iff.mp h
      rw [← heq]
      exact vaWord_suffix hy
  · split at h
    · obtain ⟨y, hy, heq⟩ := Option.map_eq_some_iff.mp h
      rw [← heq]
      exact vaLongLong_suffix hy
    · obtain ⟨y, hy, heq⟩ := Option.map_eq_some_iff.mp h
      rw [← heq]
      exact vaWord_suffix hy

/-- A conversion of an argument that is no `double` is always the same. -/
theorem convertText_of_no_double (hva : Kind.double ∉ kinds va) (c : Ch) (flags : Flags)
    (precision width : UInt32) :
    convertText floats c flags precision width va =
      convertText unwritten c flags precision width va := by
  unfold convertText
  rw [vaDouble_eq_none hva]
  rfl

/-- It leaves arguments that it has found. -/
theorem convertText_suffix {c : Ch} {flags : Flags} {precision width : UInt32} {t : List Ch}
    (h : convertText floats c flags precision width va = some (t, va')) : va' <:+ va := by
  unfold convertText at h
  dsimp only at h
  split at h
  · obtain ⟨x, hx, heq⟩ := Option.map_eq_some_iff.mp h
    cases heq
    exact integerArg_suffix hx
  have hdouble : ∀ text : Double → Option (List Ch),
      ((vaDouble va).bind fun x => (text x.1).map fun t => (t, x.2)) = some (t, va') →
      va' <:+ va := by
    intro text htext
    obtain ⟨⟨d, va₁⟩, hx, hsome⟩ := Option.bind_eq_some_iff.mp htext
    obtain ⟨t', -, heq⟩ := Option.map_eq_some_iff.mp hsome
    cases heq
    exact vaDouble_suffix hx
  split at h
  · exact hdouble (fun d => ftoa floats d precision width _) h
  split at h
  · exact hdouble (fun d => floats.etoa d precision width _) h
  split at h
  · obtain ⟨x, hx, heq⟩ := Option.map_eq_some_iff.mp h
    cases heq
    exact vaWord_suffix hx
  split at h
  · obtain ⟨x, hx, heq⟩ := Option.map_eq_some_iff.mp h
    cases heq
    exact vaString_suffix hx
  split at h
  · obtain ⟨x, hx, heq⟩ := Option.map_eq_some_iff.mp h
    cases heq
    exact vaWord_suffix hx
  · cases h
    exact List.suffix_rfl

/-- Without a `double` it does not matter how one is written. -/
theorem text?_of_no_double (hva : Kind.double ∉ kinds va) (format : List Ch) :
    text? floats format va = text? unwritten format va := by
  unfold text?
  generalize format.length = n
  induction n generalizing format va with
  | zero => cases format <;> rfl
  | succ n ih =>
    cases format with
    | nil => rfl
    | cons c format =>
      unfold formatText
      split
      · rw [ih hva]
      · cases hfields : evalFields format va with
        | none => rfl
        | some fields =>
          have hrest := kinds_suffix (evalFields_va hfields) hva
          rcases fields with ⟨flags, width, precision, _ | ⟨c, rest⟩, va'⟩
          · rfl
          · simp only [Option.bind_eq_bind, Option.bind_some]
            rw [convertText_of_no_double hrest]
            cases hconvert : convertText unwritten c flags precision width va' with
            | none => rfl
            | some r =>
              simp only [Option.bind_some]
              rw [ih (kinds_suffix (convertText_suffix hconvert) hrest)]

end reads

/-! ## The table of `_ftoa` -/

/-- The loop brings the precision down by one for each zero that there is room for. -/
theorem limitPrecision_lt_iff (room : ℕ) (prec : UInt32) :
    limitPrecision room prec < pow10Length ↔ prec.toNat < 10 + room := by
  have hten : pow10Length.toNat = 10 := rfl
  induction room generalizing prec with
  | zero => exact UInt32.lt_iff_toNat_lt
  | succ room ih =>
    unfold limitPrecision
    by_cases h : prec > 9
    · have hlarge : 9 < prec.toNat := UInt32.lt_iff_toNat_lt.mp h
      have hless : (prec - 1).toNat = prec.toNat - 1 :=
        UInt32.toNat_sub_of_le prec 1 (UInt32.le_iff_toNat_le.mpr (by
          show 1 ≤ prec.toNat
          omega))
      rw [if_pos h]
      apply (ih (prec - 1)).trans
      rw [hless]
      omega
    · have hsmall : ¬ 9 < prec.toNat := fun hlt => h (UInt32.lt_iff_toNat_lt.mpr hlt)
      rw [if_neg h, UInt32.lt_iff_toNat_lt, hten]
      omega

/-- **A value that is written in full has a text** exactly if the precision is less than 42 or is
not given. -/
theorem ftoa_isSome_iff {value : Double} (hfixed : floats.case value = .fixed)
    (prec width : UInt32) (flags : Flags) :
    (ftoa floats value prec width flags).isSome ↔
      flags.precision = false ∨ prec.toNat < 42 := by
  have hindex : pow10Index prec flags < pow10Length ↔
      flags.precision = false ∨ prec.toNat < 42 := by
    unfold pow10Index
    cases flags.precision with
    | false =>
      refine iff_of_true ?_ (.inl rfl)
      rw [Bool.not_false, if_pos rfl]
      decide
    | true =>
      rw [Bool.not_true, if_neg Bool.false_ne_true, limitPrecision_lt_iff]
      simp [PRINTF_FTOA_BUFFER_SIZE]
  rw [← hindex]
  simp only [ftoa, hfixed]
  split
  · next h => exact iff_of_true rfl h
  · next h => exact iff_of_false Bool.false_ne_true h

/-- A `double` that is written in full. -/
def oneFloat : FloatText Unit :=
  ⟨fun _ => .fixed, fun _ _ _ => [], fun _ _ _ _ => [ch '1'], fun _ _ _ _ => some []⟩

end Printf
