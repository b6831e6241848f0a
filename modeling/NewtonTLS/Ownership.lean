/-
# Ownership of typed blocks

Blocks of memory hold contexts of various kinds, and owners hold blocks.  The owners are sound
(`Owned`) when every one of them finds in its block a context of the kind that it expects, and no
block has two owners.  Taking a context that nobody owns, giving one up, and whatever happens to
blocks without an owner keep that.

Nothing in this module is about a particular program.
-/
import Mathlib.Logic.Function.Basic
import Mathlib.Data.List.Nodup

namespace Ownership

/-- What an allocated block holds: nothing yet, or a context of some kind. -/
inductive Content (κ : Type) : Type where
  | raw
  | context (kind : κ)
  deriving DecidableEq, Repr

variable {ι π κ : Type} {own own' : ι → Option (π × κ)} {blocks : π → Option (Content κ)}

/-- Every owner has a context of its kind, which no other owner has. -/
structure Owned (own : ι → Option (π × κ)) (blocks : π → Option (Content κ)) : Prop where
  typed : ∀ i p k, own i = some (p, k) → blocks p = some (.context k)
  unique : ∀ i j p k l, own i = some (p, k) → own j = some (p, l) → i = j

/-- Without owners. -/
theorem owned_none : Owned (fun _ : ι => (none : Option (π × κ))) blocks where
  typed := fun _ _ _ h => by cases h
  unique := fun _ _ _ _ _ h => by cases h

/-- Owners can give up what they have. -/
theorem Owned.mono (h : Owned own blocks) (hle : ∀ i x, own' i = some x → own i = some x) :
    Owned own' blocks where
  typed := fun i p k hi => h.typed i p k (hle i _ hi)
  unique := fun i j p k l hi hj => h.unique i j p k l (hle i _ hi) (hle j _ hj)

/-- What happens to a block without an owner does not matter. -/
theorem Owned.update_unowned [DecidableEq π] (h : Owned own blocks) {p : π}
    (hfree : ∀ i k, own i ≠ some (p, k)) (x : Option (Content κ)) :
    Owned own (Function.update blocks p x) where
  typed := by
    intro i q k hi
    have hne : q ≠ p := by
      rintro rfl
      exact hfree i k hi
    rw [Function.update_of_ne hne]
    exact h.typed i q k hi
  unique := h.unique

/-- A block that is not allocated has no owner. -/
theorem Owned.unowned (h : Owned own blocks) {p : π} (hp : blocks p = none) (i : ι) (k : κ) :
    own i ≠ some (p, k) := by
  intro hi
  rw [h.typed i p k hi] at hp
  cases hp

/-- A new owner takes a context that nobody owns. -/
theorem Owned.take [DecidableEq ι] (h : Owned own blocks) {i : ι} {p : π} {k : κ}
    (hp : blocks p = some (.context k)) (hfree : ∀ j l, own j ≠ some (p, l)) :
    Owned (Function.update own i (some (p, k))) blocks where
  typed := by
    intro j q l hj
    by_cases heq : j = i
    · rw [heq, Function.update_self, Option.some.injEq, Prod.mk.injEq] at hj
      rw [← hj.1, ← hj.2]
      exact hp
    · rw [Function.update_of_ne heq] at hj
      exact h.typed j q l hj
  unique := by
    intro j j' q l l' hj hj'
    by_cases heq : j = i
    · by_cases heq' : j' = i
      · rw [heq, heq']
      · -- the old owner would have the block that nobody owns
        rw [heq, Function.update_self, Option.some.injEq, Prod.mk.injEq] at hj
        rw [Function.update_of_ne heq', ← hj.1] at hj'
        exact absurd hj' (hfree j' l')
    · rw [Function.update_of_ne heq] at hj
      by_cases heq' : j' = i
      · rw [heq', Function.update_self, Option.some.injEq, Prod.mk.injEq] at hj'
        rw [← hj'.1] at hj
        exact absurd hj (hfree j l)
      · rw [Function.update_of_ne heq'] at hj'
        exact h.unique j j' q l l' hj hj'

/-- An owner gives up what it has. -/
theorem Owned.giveUp [DecidableEq ι] (h : Owned own blocks) (i : ι) :
    Owned (Function.update own i none) blocks := by
  refine h.mono fun j x hj => ?_
  by_cases heq : j = i
  · rw [heq, Function.update_self] at hj
    cases hj
  · rwa [Function.update_of_ne heq] at hj

/-- What has been given up is nobody's. -/
theorem Owned.unowned_giveUp [DecidableEq ι] (h : Owned own blocks) {i : ι} {p : π} {k : κ}
    (hi : own i = some (p, k)) (j : ι) (l : κ) : Function.update own i none j ≠ some (p, l) := by
  intro hj
  by_cases heq : j = i
  · rw [heq, Function.update_self] at hj
    cases hj
  · rw [Function.update_of_ne heq] at hj
    exact heq (h.unique j i p l k hj hi)

end Ownership
