/-
# Listing into a buffer

`ListRootCertificates` counts the bytes of the listing and writes as many of them as the buffer
has room for.  The end of the buffer is looked for after a byte has been written, so that a buffer
of no bytes has no end: then all of the listing is written (`listing_bounded_iff`).
-/
import NewtonTLS.StoreCalls

namespace NewtonTLS

namespace BoundedListing

open EffectiveRoots StoreCalls

/-! ## Writing bytes -/

/-- Past the end all bytes are written. -/
theorem putChar_past_end {endCursor : ℕ} (bytes : List Byte) :
    ∀ p written n, endCursor ≤ p →
      (bytes.foldl (putChar endCursor) ⟨some p, written, n⟩).written = written ++ bytes ∧
        (bytes.foldl (putChar endCursor) ⟨some p, written, n⟩).totalSize = n + bytes.length := by
  induction bytes with
  | nil =>
    intro p written n _
    exact ⟨(List.append_nil written).symm, rfl⟩
  | cons c bytes ih =>
    intro p written n hp
    rw [List.foldl_cons, putChar, List.length_cons]
    dsimp only
    obtain ⟨hwritten, htotal⟩ := ih (p + 1) (written ++ [c]) (n + 1) (by omega)
    rw [if_neg (by omega), hwritten, htotal, List.append_assoc]
    exact ⟨rfl, by omega⟩

/-! ## The two phases -/

/-- The memory from `outBuf` on, after bytes have been written there. -/
def writeOver (memory : ℕ → Byte) (written : List Byte) : ℕ → Byte :=
  fun i => written.getD i (memory i)

/-- Into a buffer of `n` bytes: the result is the length of the listing, the memory is that of
before but for the bytes of the listing that fit, and their number is the new `*ioSize`. -/
structure Bounded (store : RootStore) (n : ℕ) : Prop where
  result : (listRootCertificatesCall (fun _ => none) store true (some n)).result =
    (listing store).length
  memory : ∀ (memory : ℕ → Byte) (i : ℕ),
    writeOver memory (listRootCertificatesCall (fun _ => none) store true (some n)).written i =
      if i < min n (listing store).length then (listing store).getD i 0 else memory i
  ioSize : (listRootCertificatesCall (fun _ => none) store true (some n)).ioSize =
    some (min n (listing store).length)

/-- Without a buffer the length of the listing comes back. -/
theorem listing_counted (store : RootStore) (ioSize : Option ℕ) :
    (listRootCertificatesCall (fun _ => none) store false ioSize).result = (listing store).length ∧
      (listRootCertificatesCall (fun _ => none) store false ioSize).written = [] := by
  rw [listRootCertificatesCall_quiet]
  dsimp only
  rw [if_neg Bool.false_ne_true, putChar_count, Nat.zero_add]
  exact ⟨rfl, rfl⟩

/-- What is written into a buffer that has room for a byte. -/
theorem listing_written {n : ℕ} (store : RootStore) (hn : 0 < n) :
    (listRootCertificatesCall (fun _ => none) store true (some n)) =
      ⟨(listing store).length, (listing store).take n, some (min n (listing store).length)⟩ := by
  obtain ⟨hwritten, htotal⟩ := putChar_write (listing store) 0 [] 0 hn
  rw [listRootCertificatesCall_quiet]
  dsimp only
  rw [if_pos rfl, Option.getD_some, hwritten, htotal, Nat.zero_add, List.nil_append, Nat.sub_zero,
    Option.map_some, List.length_take]

/-- Into a buffer of no bytes the whole listing is written. -/
theorem listing_overrun (store : RootStore) :
    listRootCertificatesCall (fun _ => none) store true (some 0) =
      ⟨(listing store).length, listing store, some (listing store).length⟩ := by
  obtain ⟨hwritten, htotal⟩ := putChar_past_end (listing store) 0 [] 0 (Nat.le_refl 0)
  rw [listRootCertificatesCall_quiet]
  dsimp only
  rw [if_pos rfl, Option.getD_some, hwritten, htotal, Nat.zero_add, List.nil_append,
    Option.map_some]

/-- With room for a byte nothing is written outside. -/
theorem bounded_of_room {n : ℕ} (store : RootStore) (hn : 0 < n) : Bounded store n where
  result := by rw [listing_written store hn]
  memory := by
    intro memory i
    rw [listing_written store hn, writeOver, List.getD_eq_getElem?_getD,
      List.getD_eq_getElem?_getD, List.getElem?_take]
    by_cases hi : i < min n (listing store).length
    · rw [if_pos hi, if_pos (by omega), List.getElem?_eq_getElem (by omega)]
      rfl
    · rw [if_neg hi]
      split
      · rw [List.getElem?_eq_none (by omega)]
        rfl
      · rfl
  ioSize := by rw [listing_written store hn]

/-- Without names nothing is written at all. -/
theorem bounded_of_empty {store : RootStore} (hempty : listing store = []) : Bounded store 0 where
  result := by rw [listing_overrun]
  memory := by
    intro memory i
    rw [listing_overrun, hempty]
    rfl
  ioSize := by rw [listing_overrun, hempty]; rfl

/-- **Bounded listing.**  Without a buffer the length of the listing comes back; with one of `n`
bytes it does, too, and the first bytes of the listing that fit are all that is written, if and
only if `n` is not 0 or nothing is listed; so the first size is enough for the second call. -/
theorem listing_bounded_iff (store : RootStore) :
    (∀ ioSize, (listRootCertificatesCall (fun _ => none) store false ioSize).result =
        (listing store).length ∧
      (listRootCertificatesCall (fun _ => none) store false ioSize).written = []) ∧
    (∀ n, Bounded store n ↔ n ≠ 0 ∨ listing store = []) ∧
    Bounded store (listing store).length := by
  have hiff : ∀ n, Bounded store n ↔ n ≠ 0 ∨ listing store = [] := by
    intro n
    rcases Nat.eq_zero_or_pos n with rfl | hn
    · constructor
      · -- the whole listing has been written, and counts
        intro h
        have hsize := h.ioSize
        rw [listing_overrun, Nat.zero_min] at hsize
        exact .inr (List.eq_nil_of_length_eq_zero (Option.some.inj hsize))
      · rintro (hn | hempty)
        · exact absurd rfl hn
        · exact bounded_of_empty hempty
    · exact ⟨fun _ => .inl hn.ne', fun _ => bounded_of_room store hn⟩
  refine ⟨listing_counted store, hiff, (hiff _).mpr ?_⟩
  rcases Nat.eq_zero_or_pos (listing store).length with hempty | hroom
  · exact .inr (List.eq_nil_of_length_eq_zero hempty)
  · exact .inl hroom.ne'

/-- The package has one root, and the buffer no bytes. -/
theorem listing_not_bounded : ¬ ∀ (store : RootStore) (n : ℕ), Bounded store n := by
  intro hall
  have h := hall ⟨[⟨[65], true, .binary [1], .nil⟩], none⟩ 0
  exact absurd h.ioSize (by decide)

end BoundedListing

end NewtonTLS
