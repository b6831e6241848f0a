/-
# Lists of segments with a position

The buffer lists that move through a connection: segments in a row and one
position over all of them.  Reading (`getn`, `skip`) and writing (`putn`) start
at the position and advance it; `unread` is what lies behind it.

Nothing in this module is about a particular component.
-/
import Mathlib.Data.List.Basic
import Mathlib.Tactic.Linarith

/-- Segments in a row, with one position over their concatenation. -/
structure BufferList (α : Type) : Type where
  segs : List (List α)
  pos : ℕ
  deriving DecidableEq, Repr

namespace BufferList

variable {α : Type}

/-- A list without segments. -/
def empty : BufferList α := ⟨[], 0⟩

/-- All elements, read or not. -/
def bytes (b : BufferList α) : List α := b.segs.flatten

/-- The number of elements of all segments. -/
def getSize (b : BufferList α) : ℕ := b.bytes.length

/-- The elements behind the position. -/
def unread (b : BufferList α) : List α := b.bytes.drop b.pos

/-- Everything has been read. -/
def atEOF (b : BufferList α) : Bool := b.getSize ≤ b.pos

/-- Go back to the start. -/
def reset (b : BufferList α) : BufferList α := { b with pos := 0 }

/-- Add a segment at the end. -/
def insertLast (b : BufferList α) (seg : List α) : BufferList α :=
  { b with segs := b.segs ++ [seg] }

/-- Drop all segments and go back to the start. -/
def deleteAll (_ : BufferList α) : BufferList α := empty

/-- The first segment. -/
def first (b : BufferList α) : Option (List α) := b.segs.head?

/-- Advance the position over `n` elements. -/
def skip (b : BufferList α) (n : ℕ) : BufferList α := { b with pos := b.pos + n }

/-- `Seek(off, -1)`: go to a place, counted from the start. -/
def seek (b : BufferList α) (off : ℕ) : BufferList α := { b with pos := off }

/-- Read up to `n` elements. -/
def getn (b : BufferList α) (n : ℕ) : List α × BufferList α :=
  (b.unread.take n, b.skip (b.unread.take n).length)

/-- Write `bs` over the elements from `p` on, as far as the segments reach. -/
def overwrite : List (List α) → ℕ → List α → List (List α)
  | [], _, _ => []
  | seg :: segs, p, bs =>
    (seg.take p ++ (bs.take (seg.length - p) ++ seg.drop (p + bs.length))) ::
      overwrite segs (p - seg.length) (bs.drop (seg.length - p))

/-- Write `bs` at the position, as far as the segments reach. -/
def putn (b : BufferList α) (bs : List α) : BufferList α :=
  ⟨overwrite b.segs b.pos bs, b.pos + (bs.take (b.getSize - b.pos)).length⟩

/-! ## What the operations do to the elements -/

@[simp] theorem bytes_empty : (empty : BufferList α).bytes = [] := rfl

@[simp] theorem unread_empty : (empty : BufferList α).unread = [] := rfl

/-- A segment is added at the end. -/
@[simp] theorem bytes_insertLast (b : BufferList α) (seg : List α) :
    (b.insertLast seg).bytes = b.bytes ++ seg := by
  simp [bytes, insertLast]

/-- The position goes back to the beginning. -/
@[simp] theorem bytes_reset (b : BufferList α) : b.reset.bytes = b.bytes := rfl

@[simp] theorem unread_reset (b : BufferList α) : b.reset.unread = b.bytes := by
  simp [unread, reset, bytes]

@[simp] theorem deleteAll_eq (b : BufferList α) : b.deleteAll = empty := rfl

/-- Reading takes elements off the front of what is unread. -/
theorem unread_skip (b : BufferList α) (n : ℕ) : (b.skip n).unread = b.unread.drop n := by
  simp [unread, skip, bytes]

/-- Reading as much as there can be reads all that is unread. -/
theorem getn_getSize_sub (b : BufferList α) :
    b.getn (b.getSize - b.pos) = (b.unread, b.skip b.unread.length) := by
  have hlength : b.unread.length = b.getSize - b.pos := List.length_drop
  unfold getn
  rw [← hlength, List.take_length]

/-- At the end of the list nothing is unread, and only there. -/
theorem atEOF_iff (b : BufferList α) : b.atEOF = true ↔ b.unread = [] := by
  rw [atEOF, decide_eq_true_iff, unread, List.drop_eq_nil_iff, getSize]

/-- Overwriting keeps the number of elements of a list of segments. -/
theorem length_flatten_overwrite (segs : List (List α)) :
    ∀ p bs, (overwrite segs p bs).flatten.length = segs.flatten.length := by
  induction segs with
  | nil => intro p bs; rfl
  | cons seg segs ih =>
    intro p bs
    simp only [overwrite, List.flatten_cons, List.length_append, ih, List.length_take,
      List.length_drop]
    omega

@[simp] theorem getSize_putn (b : BufferList α) (bs : List α) :
    (b.putn bs).getSize = b.getSize :=
  length_flatten_overwrite b.segs b.pos bs

/-- Writing at the start of a list puts the new elements in front. -/
theorem take_flatten_overwrite (segs : List (List α)) :
    ∀ bs, bs.length ≤ segs.flatten.length →
      (overwrite segs 0 bs).flatten.take bs.length = bs := by
  induction segs with
  | nil =>
    intro bs h
    have hbs : bs = [] := by simpa using h
    simp [hbs]
  | cons seg segs ih =>
    intro bs h
    simp only [List.flatten_cons, List.length_append] at h
    simp only [overwrite, List.take_zero, List.nil_append, Nat.sub_zero, Nat.zero_sub,
      Nat.zero_add, List.flatten_cons]
    by_cases hle : bs.length ≤ seg.length
    · rw [List.take_of_length_le hle, List.append_assoc, List.take_append_of_le_length le_rfl,
        List.take_length]
    · have hdrop : seg.drop bs.length = [] := List.drop_eq_nil_of_le (by omega)
      have hlen : (bs.take seg.length).length = seg.length := by
        rw [List.length_take]
        omega
      rw [hdrop, List.append_nil, List.take_append, hlen,
        List.take_of_length_le (by omega : (bs.take seg.length).length ≤ bs.length)]
      have hrest := ih (bs.drop seg.length) (by rw [List.length_drop]; omega)
      rw [List.length_drop] at hrest
      rw [hrest, List.take_append_drop]

/-- What was written at the start is read back from the start. -/
theorem getn_reset_putn (b : BufferList α) (bs : List α) (hpos : b.pos = 0)
    (h : bs.length ≤ b.getSize) : ((b.putn bs).reset.getn bs.length).1 = bs := by
  simp only [getn, unread_reset, putn, hpos]
  exact take_flatten_overwrite b.segs bs h

/-! ## Moving all segments from one list to another -/

/-- Take the segments of `src` off its front, one by one, and add each at the
end of `dst`. -/
def moveAll (src dst : BufferList α) : BufferList α × BufferList α :=
  (⟨[], src.pos⟩, src.segs.foldl insertLast dst)

@[simp] theorem moveAll_fst_bytes (src dst : BufferList α) : (moveAll src dst).1.bytes = [] := rfl

/-- Segments are added one after the other. -/
theorem foldl_insertLast (segs : List (List α)) (dst : BufferList α) :
    segs.foldl insertLast dst = ⟨dst.segs ++ segs, dst.pos⟩ := by
  induction segs generalizing dst with
  | nil => simp
  | cons seg segs ih => simp [ih, insertLast]

/-- The bytes move behind those that are there. -/
@[simp] theorem moveAll_snd_bytes (src dst : BufferList α) :
    (moveAll src dst).2.bytes = dst.bytes ++ src.bytes := by
  simp [moveAll, foldl_insertLast, bytes]

/-- The position of the destination stays. -/
@[simp] theorem moveAll_snd_pos (src dst : BufferList α) : (moveAll src dst).2.pos = dst.pos := by
  simp [moveAll, foldl_insertLast]

/-- What is moved behind a list whose position is inside it is unread. -/
theorem unread_moveAll_snd (src dst : BufferList α) (h : dst.pos ≤ dst.getSize) :
    (moveAll src dst).2.unread = dst.unread ++ src.bytes := by
  rw [unread, moveAll_snd_bytes, moveAll_snd_pos, List.drop_append_of_le_length h]
  rfl

/-- A position inside a list stays inside when segments are moved behind it. -/
theorem pos_le_getSize_moveAll_snd (src dst : BufferList α) (h : dst.pos ≤ dst.getSize) :
    (moveAll src dst).2.pos ≤ (moveAll src dst).2.getSize := by
  rw [moveAll_snd_pos, getSize, moveAll_snd_bytes, List.length_append]
  exact Nat.le_add_right_of_le h

end BufferList
