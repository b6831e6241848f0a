/-
# Output one character at a time

A formatter calls an output function with one character after the other and with the index of
each, which counts up from call to call.  What it has output is the text that was emitted; what
becomes of it is a matter of the output function: a buffer keeps the characters whose indices are
below a limit (`emit_buffer`), a stream keeps those it does not ignore (`emit_stream`).

Nothing in this module is about a particular formatter.
-/
import Mathlib.Data.List.Induction
import Mathlib.Logic.Function.Basic

namespace Output

variable {α σ : Type}

/-- An output function: a character, its index and what has been made of the others. -/
abbrev Out (α σ : Type) : Type := α → UInt32 → σ → σ

/-- The next index, and what has been made of the characters so far. -/
structure Cursor (σ : Type) : Type where
  idx : UInt32
  sink : σ
  deriving DecidableEq

/-- `out(c, buffer, idx++, maxlen)`. -/
def put (out : Out α σ) (c : α) (p : Cursor σ) : Cursor σ := ⟨p.idx + 1, out c p.idx p.sink⟩

/-- All characters of a text. -/
def emit (out : Out α σ) (text : List α) (p : Cursor σ) : Cursor σ :=
  text.foldl (fun p c => put out c p) p

variable {out : Out α σ} {text : List α} {p : Cursor σ}

@[simp] theorem emit_nil (out : Out α σ) (p : Cursor σ) : emit out [] p = p := rfl

@[simp] theorem emit_cons (out : Out α σ) (c : α) (text : List α) (p : Cursor σ) :
    emit out (c :: text) p = emit out text (put out c p) := rfl

theorem emit_append (out : Out α σ) (text text' : List α) (p : Cursor σ) :
    emit out (text ++ text') p = emit out text' (emit out text p) := List.foldl_append

/-- The last character is put last. -/
theorem emit_concat (out : Out α σ) (text : List α) (c : α) (p : Cursor σ) :
    emit out (text ++ [c]) p = put out c (emit out text p) := emit_append out text [c] p

/-- The index counts the characters. -/
theorem emit_idx (out : Out α σ) (text : List α) (p : Cursor σ) :
    (emit out text p).idx = p.idx + UInt32.ofNat text.length := by
  induction text generalizing p with
  | nil => exact (UInt32.add_zero p.idx).symm
  | cons c text ih =>
    rw [emit_cons, ih, List.length_cons, UInt32.ofNat_add]
    show p.idx + 1 + UInt32.ofNat text.length = p.idx + (UInt32.ofNat text.length + 1)
    rw [UInt32.add_assoc, UInt32.add_comm 1]

/-! ## Streams -/

/-- An output function that does not look at the indices. -/
def stream (f : α → σ → σ) : Out α σ := fun c _ s => f c s

/-- A function that gets every character, in order. -/
theorem emit_stream (f : α → σ → σ) (text : List α) (p : Cursor σ) :
    (emit (stream f) text p).sink = text.foldl (fun s c => f c s) p.sink := by
  induction text generalizing p with
  | nil => rfl
  | cons c text ih =>
    rw [emit_cons, ih]
    rfl

/-- A stream that ignores some characters sees the others. -/
theorem foldl_filter (f : α → σ → σ) (keep : α → Bool) (text : List α) (s : σ) :
    text.foldl (fun s c => if keep c then f c s else s) s =
      (text.filter keep).foldl (fun s c => f c s) s := by
  induction text generalizing s with
  | nil => rfl
  | cons c text ih =>
    rw [List.foldl_cons, ih, List.filter_cons]
    split
    · rfl
    · rfl

/-! ## Buffers -/

/-- The output function that writes to a buffer, below a limit. -/
def toBuffer (limit : UInt32) : Out α (ℕ → α) := fun c idx mem =>
  if idx < limit then Function.update mem idx.toNat c else mem

/-- A character is written if there is room. -/
theorem toBuffer_apply (limit : UInt32) (c : α) (idx : UInt32) (mem : ℕ → α) (x : ℕ) :
    toBuffer limit c idx mem x = if x = idx.toNat ∧ x < limit.toNat then c else mem x := by
  unfold toBuffer
  by_cases hlimit : idx < limit
  · rw [if_pos hlimit]
    rw [UInt32.lt_iff_toNat_lt] at hlimit
    rcases eq_or_ne x idx.toNat with rfl | hne
    · rw [Function.update_self, if_pos ⟨rfl, hlimit⟩]
    · rw [Function.update_of_ne hne, if_neg fun h => hne h.1]
  · rw [if_neg hlimit, if_neg]
    rintro ⟨rfl, h⟩
    exact hlimit (UInt32.lt_iff_toNat_lt.mpr h)

/-- A buffer holds the characters of the text whose indices are below the limit, and what it held
before elsewhere, unless the indices wrap around. -/
theorem emit_buffer (limit : UInt32) (text : List α) (mem : ℕ → α)
    (hlength : text.length < UInt32.size) (x : ℕ) :
    (emit (toBuffer limit) text ⟨0, mem⟩).sink x =
      if x < limit.toNat then text.getD x (mem x) else mem x := by
  induction text using List.reverseRecOn with
  | nil =>
    rw [emit_nil]
    simp
  | append_singleton text c ih =>
    rw [List.length_append, List.length_singleton] at hlength
    have hidx : (emit (toBuffer limit) text ⟨0, mem⟩).idx.toNat = text.length := by
      rw [emit_idx, UInt32.zero_add, UInt32.toNat_ofNat_of_lt']
      exact Nat.lt_trans (Nat.lt_succ_self _) hlength
    rw [emit_concat]
    show toBuffer limit c _ (emit (toBuffer limit) text ⟨0, mem⟩).sink x = _
    rw [toBuffer_apply, hidx, ih (Nat.lt_trans (Nat.lt_succ_self _) hlength)]
    by_cases hx : x < limit.toNat
    · simp only [hx, and_true, if_true]
      rcases Nat.lt_trichotomy x text.length with hlt | rfl | hgt
      · rw [if_neg (by omega)]
        simp only [List.getD_eq_getElem?_getD]
        rw [List.getElem?_append_left hlt]
      · simp
      · rw [if_neg (by omega)]
        simp only [List.getD_eq_getElem?_getD]
        rw [List.getElem?_eq_none (by omega), List.getElem?_eq_none]
        rw [List.length_append, List.length_singleton]
        omega
    · rw [if_neg hx, if_neg hx, if_neg fun h => hx h.2]

end Output
