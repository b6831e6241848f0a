/-
# Ledgers of objects

What has been made, what of it is still live, and who owns it.  A ledger balances
with a list of owners when these hold exactly what is live, every object once.  Then
what is owned can be released, an object that has been released is not owned, and
when nothing is owned nothing is live.

Nothing in this module is about a particular component.
-/
import Mathlib.Data.List.Perm.Basic
import Mathlib.Data.List.Nodup

/-- The objects that have been made, and those that have not been released. -/
structure Ledger (α : Type) : Type where
  made : List α
  live : List α
  deriving DecidableEq, Repr

namespace Ledger

variable {α : Type}

/-- Nothing has been made. -/
def empty : Ledger α := ⟨[], []⟩

/-- An object is made. -/
def alloc (L : Ledger α) (p : α) : Ledger α := ⟨p :: L.made, p :: L.live⟩

/-- An object is released. -/
def release [DecidableEq α] (L : Ledger α) (p : α) : Ledger α := { L with live := L.live.erase p }

@[simp] theorem made_alloc (L : Ledger α) (p : α) : (L.alloc p).made = p :: L.made := rfl

@[simp] theorem made_release [DecidableEq α] (L : Ledger α) (p : α) :
    (L.release p).made = L.made := rfl

/-- The owners hold exactly what is live, and no object twice. -/
structure Balances (L : Ledger α) (owned : List α) : Prop where
  perm : L.live.Perm owned
  nodup : owned.Nodup
  made : ∀ p ∈ owned, p ∈ L.made

namespace Balances

variable {L : Ledger α} {owned owned' : List α} {p : α}

theorem start : Balances (empty : Ledger α) [] := by
  constructor
  · exact .nil
  · exact .nil
  · intro p hp
    cases hp

/-- Live is what is owned. -/
theorem live_iff (h : L.Balances owned) : p ∈ L.live ↔ p ∈ owned := h.perm.mem_iff

/-- It does not matter in which order things are owned. -/
theorem reorder (h : L.Balances owned) (hperm : owned.Perm owned') : L.Balances owned' := by
  constructor
  · exact h.perm.trans hperm
  · exact hperm.nodup_iff.mp h.nodup
  · intro p hp
    exact h.made p (hperm.mem_iff.mpr hp)

/-- A new object gets an owner. -/
theorem alloc (h : L.Balances owned) (hnew : p ∉ L.made) : (L.alloc p).Balances (p :: owned) := by
  constructor
  · exact h.perm.cons p
  · refine List.nodup_cons.mpr ⟨fun hp => ?_, h.nodup⟩
    exact hnew (h.made p hp)
  · intro q hq
    rcases List.mem_cons.mp hq with rfl | hq
    · exact List.mem_cons_self
    · exact List.mem_cons_of_mem p (h.made q hq)

/-- An owner releases what it has. -/
theorem release [DecidableEq α] (h : L.Balances (p :: owned)) : (L.release p).Balances owned := by
  constructor
  · have hperm := h.perm.erase p
    rwa [List.erase_cons_head] at hperm
  · exact (List.nodup_cons.mp h.nodup).2
  · intro q hq
    exact h.made q (List.mem_cons_of_mem p hq)

/-- Releasing what was never made changes nothing. -/
theorem release_of_not_made [DecidableEq α] (h : L.Balances owned) (hp : p ∉ L.made) :
    L.release p = L := by
  have hlive : p ∉ L.live := fun hlive => hp (h.made p (h.live_iff.mp hlive))
  rw [Ledger.release, List.erase_of_not_mem hlive]

/-- When nothing is owned, nothing is live: everything made has been released. -/
theorem settled (h : L.Balances []) : L.live = [] := h.perm.eq_nil

end Balances

/-! ## Numbered objects -/

/-- A ledger of objects that are numbered as they are made: it balances, and `next` is the number
of the next object. -/
structure Accounts (L : Ledger ℕ) (owned : List ℕ) (next : ℕ) : Prop where
  balances : L.Balances owned
  numbered : ∀ p ∈ L.made, p < next

namespace Accounts

variable {L : Ledger ℕ} {owned owned' : List ℕ} {next next' p : ℕ}

theorem start (next : ℕ) : Accounts empty [] next := by
  refine ⟨.start, ?_⟩
  intro p hp
  cases hp

theorem not_made (h : L.Accounts owned next) : next ∉ L.made := by
  intro hp
  have hlt := h.numbered next hp
  omega

/-- The order of the owners does not count. -/
theorem reorder (h : L.Accounts owned next) (hperm : owned.Perm owned') :
    L.Accounts owned' next :=
  ⟨h.balances.reorder hperm, h.numbered⟩

/-- The next object is made. -/
theorem alloc (h : L.Accounts owned next) : (L.alloc next).Accounts (next :: owned) (next + 1) := by
  refine ⟨h.balances.alloc h.not_made, fun p hp => ?_⟩
  rcases List.mem_cons.mp hp with rfl | hp
  · omega
  · have hlt := h.numbered p hp
    omega

/-- A number is left out. -/
theorem skip (h : L.Accounts owned next) (hle : next ≤ next') : L.Accounts owned next' := by
  refine ⟨h.balances, fun p hp => ?_⟩
  have hlt := h.numbered p hp
  omega

/-- An object is released by its owner. -/
theorem release (h : L.Accounts (p :: owned) next) : (L.release p).Accounts owned next :=
  ⟨h.balances.release, h.numbered⟩

/-- The first owner has something live. -/
theorem head_live (h : L.Accounts (p :: owned) next) : p ∈ L.live :=
  h.balances.live_iff.mpr List.mem_cons_self

end Accounts

end Ledger
