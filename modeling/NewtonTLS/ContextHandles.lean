/-
# Handles of native contexts

`DoAllocateCObjectBinary`, `FreeCObjectBinary` and `Delete` of `Protocol/PMbedTLS.cpp`.  A
native context is owned by a binary object, its handle, whose destructor the garbage
collector runs.  The weak array `mPointers` knows all handles, so that `Delete` can free what
the collector has not.

The invariant is a balance (`Balanced`): the destructor given at allocation has been called
on the pointer, or it is still owed by the handle, but never both.
-/
import Mathlib.Data.List.Count
import Mathlib.Data.List.Range

namespace NewtonTLS

namespace ContextHandles

/-! ## Objects -/

/-- The address of a destructor. -/
abbrev CObjectBinaryProc : Type := ℕ

/-- `DisposePtr`, in the public jump table. -/
def DISPOSE_PTR_PUBLIC_JT : CObjectBinaryProc := 0x01be10b4

/-- The fields of a `CObject` that are used; a `ptr` of 0 is NULL. -/
structure CObject : Type where
  ptr : ℕ
  destructor : CObjectBinaryProc
  deriving DecidableEq, Repr

/-- A call of a destructor on a pointer, made for a handle. -/
structure DtorCall : Type where
  handle : ℕ
  destructor : CObjectBinaryProc
  ptr : ℕ
  deriving DecidableEq, Repr

/-- The handles that have not been collected, with what they own, the weak array, and the
destructors called so far.  Handles are numbered in the order of their allocation. -/
structure Contexts : Type where
  objects : ℕ → Option CObject
  nextHandle : ℕ
  mPointers : List (Option ℕ)
  calls : List DtorCall

/-- The collector runs the destructor of `h`. -/
def dtorCall (h : ℕ) (obj : CObject) : DtorCall := ⟨h, obj.destructor, obj.ptr⟩

namespace Contexts

/-- The weak array is made with ten slots. -/
def new : Contexts := ⟨fun _ => none, 0, List.replicate 10 none, []⟩

/-- The destructors that the collector runs for the handles in `dead`. -/
def finalize (s : Contexts) (dead : ℕ → Bool) : List DtorCall :=
  (List.range s.nextHandle).filterMap fun h =>
    if dead h then (s.objects h).map (dtorCall h) else none

/-- A collection of the handles in `dead`, whose slots become NIL. -/
def collect (s : Contexts) (dead : ℕ → Bool) : Contexts :=
  { s with
    objects := fun h => if dead h then none else s.objects h
    mPointers := s.mPointers.map fun slot => slot.filter fun h => !dead h
    calls := s.calls ++ s.finalize dead }

/-- `AllocateCObjectBinary`: a new handle. -/
def allocateCObjectBinary (s : Contexts) (ptr : ℕ) (dtor : CObjectBinaryProc) : Contexts :=
  { s with
    objects := fun h => if h = s.nextHandle then some ⟨ptr, dtor⟩ else s.objects h
    nextHandle := s.nextHandle + 1 }

/-- `DoAllocateCObjectBinary`.  Handles can be collected when the object is made, and when the
array grows; the new handle is in use then. -/
def doAllocateCObjectBinary (s : Contexts) (ptr : ℕ) (dtor : CObjectBinaryProc)
    (deadAtAllocate deadAtAdd : ℕ → Bool) : Contexts :=
  let bin := s.nextHandle
  let s := (s.collect deadAtAllocate).allocateCObjectBinary ptr dtor
  match s.mPointers.findIdx? Option.isNone with
  | some index => { s with mPointers := s.mPointers.set index (some bin) }
  | none =>
    let s := s.collect fun h => deadAtAdd h && h ≠ bin
    { s with mPointers := s.mPointers ++ [some bin] }

/-- `FreeCObjectBinary`. -/
def freeCObjectBinary (s : Contexts) (h : ℕ) : Contexts :=
  match s.objects h with
  | some obj =>
    if obj.ptr ≠ 0 then
      { s with
        objects := fun h' => if h' = h then some ⟨0, DISPOSE_PTR_PUBLIC_JT⟩ else s.objects h'
        calls := s.calls ++ [dtorCall h obj] }
    else s
  | none => s

/-- One slot in the loop of `Delete`. -/
def freeSlot (s : Contexts) : Option ℕ → Contexts
  | some h => s.freeCObjectBinary h
  | none => s

/-- `PMbedTLS::Delete` after `RemoveConnectionEnd`, which has nothing to do with the handles. -/
def delete (s : Contexts) : Contexts :=
  { s.mPointers.foldl freeSlot s with mPointers := [] }

end Contexts

/-! ## Runs -/

/-- What happens before `Delete`. -/
inductive Event : Type where
  | allocate (ptr : ℕ) (dtor : CObjectBinaryProc) (deadAtAllocate deadAtAdd : ℕ → Bool)
  | collect (dead : ℕ → Bool)

/-- What an event does. -/
def Contexts.step (s : Contexts) : Event → Contexts
  | .allocate ptr dtor dead dead' => s.doAllocateCObjectBinary ptr dtor dead dead'
  | .collect dead => s.collect dead

/-- The state after a run from `New`. -/
def run (events : List Event) : Contexts := events.foldl Contexts.step Contexts.new

/-- What has been allocated, in the order of the handles. -/
def allocations (events : List Event) : List CObject :=
  events.filterMap fun event => match event with
    | .allocate ptr dtor _ _ => some ⟨ptr, dtor⟩
    | .collect _ => none

/-- The state when, after the run and `Delete`, the surviving handles have been collected in
some rounds. -/
def finish (events : List Event) (rounds : List (ℕ → Bool)) : Contexts :=
  (rounds.foldl Contexts.collect (run events).delete).collect fun _ => true

/-! ## The balance of destructors -/

/-- What the collector still has to call for a handle. -/
def owed (s : Contexts) (h : ℕ) : List DtorCall := ((s.objects h).map (dtorCall h)).toList

/-- Every destructor given at allocation has been called once or is still owed once. -/
structure Balanced (allocs : List CObject) (s : Contexts) : Prop where
  size : s.nextHandle = allocs.length
  unborn : ∀ h, s.nextHandle ≤ h → s.objects h = none
  called : ∀ c ∈ s.calls, c.handle < s.nextHandle
  honest : ∀ h obj, s.objects h = some obj → obj.ptr ≠ 0 → allocs[h]? = some obj
  balance : ∀ h obj, allocs[h]? = some obj →
    s.calls.count (dtorCall h obj) + (owed s h).count (dtorCall h obj) = 1

/-- Nothing has been allocated at first. -/
theorem balanced_new : Balanced [] Contexts.new where
  size := rfl
  unborn := fun _ _ => rfl
  called := fun _ h => absurd h List.not_mem_nil
  honest := fun _ _ h => by cases h
  balance := fun _ _ h => by simp at h

/-- Calls for one handle are not calls for another. -/
theorem count_owed_of_ne (s : Contexts) {h h' : ℕ} (hne : h' ≠ h) (obj : CObject) :
    (owed s h').count (dtorCall h obj) = 0 := by
  rw [List.count_eq_zero]
  intro hmem
  simp only [owed, Option.mem_toList, Option.map_eq_some_iff] at hmem
  obtain ⟨obj', -, heq⟩ := hmem
  exact hne (congrArg DtorCall.handle heq)

/-- Among the first `n` handles, a collection makes the calls owed by `h` if `h` is one of
them. -/
theorem count_finalize_range (s : Contexts) (dead : ℕ → Bool) (h : ℕ) (obj : CObject) (n : ℕ) :
    ((List.range n).filterMap fun h =>
      if dead h then (s.objects h).map (dtorCall h) else none).count
      (dtorCall h obj) =
      if h < n ∧ dead h = true then (owed s h).count (dtorCall h obj) else 0 := by
  induction n with
  | zero => simp
  | succ n ih =>
    have hlast : (List.filterMap (fun h => if dead h then (s.objects h).map (dtorCall h) else none)
        [n]).count (dtorCall h obj) =
        if dead n = true then (owed s n).count (dtorCall h obj) else 0 := by
      cases hdead : dead n with
      | false => simp [hdead]
      | true => cases hobj : s.objects n <;> simp [hdead, hobj, owed]
    rw [List.range_succ, List.filterMap_append, List.count_append, ih, hlast]
    by_cases hn : n = h
    · subst hn
      simp
    · rw [count_owed_of_ne s hn obj, ite_self, Nat.add_zero]
      have hlt : h < n + 1 ↔ h < n := by omega
      simp only [hlt]

/-- A collection makes the calls that its handles owe. -/
theorem count_finalize {allocs : List CObject} {s : Contexts} (hs : Balanced allocs s)
    (dead : ℕ → Bool) (h : ℕ) (obj : CObject) :
    (s.finalize dead).count (dtorCall h obj) =
      if dead h = true then (owed s h).count (dtorCall h obj) else 0 := by
  rw [Contexts.finalize, count_finalize_range]
  by_cases hlt : h < s.nextHandle
  · simp [hlt]
  · simp [hlt, owed, hs.unborn h (by omega)]

/-- A collection pays what is owed. -/
theorem Balanced.collect {allocs : List CObject} {s : Contexts} (hs : Balanced allocs s)
    (dead : ℕ → Bool) : Balanced allocs (s.collect dead) where
  size := hs.size
  unborn := by
    intro h hle
    have hnone := hs.unborn h hle
    simp only [Contexts.collect, hnone, ite_self]
  called := by
    intro c hc
    rcases List.mem_append.mp hc with hc | hc
    · exact hs.called c hc
    -- what the collection calls belongs to handles that there are
    · simp only [Contexts.finalize, List.mem_filterMap, List.mem_range] at hc
      obtain ⟨h, hlt, hcall⟩ := hc
      split at hcall
      · obtain ⟨obj, -, rfl⟩ := Option.map_eq_some_iff.mp hcall
        exact hlt
      · cases hcall
  honest := by
    intro h obj hobj
    simp only [Contexts.collect] at hobj
    split at hobj
    · cases hobj
    · exact hs.honest h obj hobj
  balance := by
    intro h obj halloc
    have hbalance := hs.balance h obj halloc
    have hfinalize := count_finalize hs dead h obj
    simp only [Contexts.collect, List.count_append, hfinalize]
    cases hdead : dead h with
    | true => simpa [owed, hdead] using hbalance
    | false => simpa [owed, hdead] using hbalance

/-- A new handle owes its destructor. -/
theorem Balanced.allocate {allocs : List CObject} {s : Contexts} (hs : Balanced allocs s)
    (ptr : ℕ) (dtor : CObjectBinaryProc) :
    Balanced (allocs ++ [⟨ptr, dtor⟩]) (s.allocateCObjectBinary ptr dtor) where
  size := by
    rw [List.length_append, ← hs.size]
    rfl
  unborn := by
    intro h hle
    simp only [Contexts.allocateCObjectBinary] at hle ⊢
    rw [if_neg (by omega)]
    exact hs.unborn h (by omega)
  called := fun c hc => Nat.lt_succ_of_lt (hs.called c hc)
  honest := by
    intro h obj hobj hptr
    simp only [Contexts.allocateCObjectBinary] at hobj
    split at hobj
    · next heq =>
      rw [heq, hs.size, List.getElem?_concat_length]
      exact hobj
    · next hne =>
      have halloc := hs.honest h obj hobj hptr
      rw [List.getElem?_append_left (List.getElem?_eq_some_iff.mp halloc).1]
      exact halloc
  balance := by
    intro h obj halloc
    by_cases heq : h = s.nextHandle
    · -- the new handle: nothing has been called for it
      rw [heq, hs.size, List.getElem?_concat_length, Option.some.injEq] at halloc
      subst heq halloc
      have hnone : s.calls.count (dtorCall s.nextHandle ⟨ptr, dtor⟩) = 0 := by
        rw [List.count_eq_zero]
        intro hmem
        exact absurd (hs.called _ hmem) (Nat.lt_irrefl _)
      simp [Contexts.allocateCObjectBinary, owed, hnone]
    · have hlt : h < allocs.length := by
        have := (List.getElem?_eq_some_iff.mp halloc).1
        rw [List.length_append, List.length_singleton, ← hs.size] at this
        rw [← hs.size]
        omega
      rw [List.getElem?_append_left hlt] at halloc
      simpa [Contexts.allocateCObjectBinary, owed, heq] using hs.balance h obj halloc

/-- The weak array does not count. -/
theorem Balanced.withPointers {allocs : List CObject} {s : Contexts} (hs : Balanced allocs s)
    (slots : List (Option ℕ)) : Balanced allocs { s with mPointers := slots } :=
  ⟨hs.size, hs.unborn, hs.called, hs.honest, hs.balance⟩

/-- An allocation, with the collections inside of it, keeps the balance. -/
theorem Balanced.doAllocate {allocs : List CObject} {s : Contexts} (hs : Balanced allocs s)
    (ptr : ℕ) (dtor : CObjectBinaryProc) (dead dead' : ℕ → Bool) :
    Balanced (allocs ++ [⟨ptr, dtor⟩]) (s.doAllocateCObjectBinary ptr dtor dead dead') := by
  unfold Contexts.doAllocateCObjectBinary
  dsimp only
  split
  · exact ((hs.collect dead).allocate ptr dtor).withPointers _
  · exact (((hs.collect dead).allocate ptr dtor).collect _).withPointers _

/-- Freeing a handle makes the call that it owes, and leaves it with a call on NULL. -/
theorem Balanced.free {allocs : List CObject} {s : Contexts} (hs : Balanced allocs s) (h : ℕ) :
    Balanced allocs (s.freeCObjectBinary h) := by
  unfold Contexts.freeCObjectBinary
  cases hobj : s.objects h with
  | none => exact hs
  | some obj =>
    dsimp only
    split
    · next hptr =>
      have halloc := hs.honest h obj hobj hptr
      have hlt : h < s.nextHandle := by
        rw [hs.size]
        exact (List.getElem?_eq_some_iff.mp halloc).1
      refine ⟨hs.size, ?_, ?_, ?_, ?_⟩
      -- a pointer that is not NULL is destroyed now, and NULL at the collection
      · intro h' hle
        dsimp only at hle ⊢
        rw [if_neg (by omega)]
        exact hs.unborn h' hle
      · intro c hc
        rcases List.mem_append.mp hc with hc | hc
        · exact hs.called c hc
        · rw [List.mem_singleton.mp hc]
          exact hlt
      · intro h' obj' hobj' hptr'
        dsimp only at hobj'
        split at hobj'
        · cases hobj'
          exact absurd rfl hptr'
        · exact hs.honest h' obj' hobj' hptr'
      · intro h' obj' halloc'
        have hbalance := hs.balance h' obj' halloc'
        by_cases heq : h' = h
        · subst heq
          rw [halloc, Option.some.injEq] at halloc'
          subst halloc'
          have hnull : dtorCall h' ⟨0, DISPOSE_PTR_PUBLIC_JT⟩ ≠ dtorCall h' obj := by
            intro hcall
            exact hptr (congrArg DtorCall.ptr hcall).symm
          simp only [owed, hobj, Option.map_some, Option.toList_some, List.count_singleton_self]
            at hbalance
          simp [owed, hnull, hbalance]
        -- the other handles owe what they owed
        · have hother : dtorCall h obj ≠ dtorCall h' obj' := by
            intro hcall
            exact heq (congrArg DtorCall.handle hcall).symm
          simpa [owed, heq, List.count_singleton, hother] using hbalance
    · exact hs

/-- `Delete` frees handle after handle. -/
theorem Balanced.delete {allocs : List CObject} {s : Contexts} (hs : Balanced allocs s) :
    Balanced allocs s.delete := by
  have hfold : ∀ (slots : List (Option ℕ)) {s : Contexts}, Balanced allocs s →
      Balanced allocs (slots.foldl Contexts.freeSlot s) := by
    intro slots
    induction slots with
    | nil => exact fun hs => hs
    | cons slot slots ih =>
      intro s hs
      cases slot with
      | none => exact ih hs
      | some h => exact ih (hs.free h)
  exact (hfold _ hs).withPointers []

/-- The run keeps the balance. -/
theorem balanced_run (events : List Event) : Balanced (allocations events) (run events) := by
  induction events using List.reverseRecOn with
  | nil => exact balanced_new
  | append_singleton events event ih =>
    rw [run, List.foldl_append, allocations, List.filterMap_append]
    cases event with
    | allocate ptr dtor dead dead' => exact ih.doAllocate ptr dtor dead dead'
    | collect dead =>
      rw [List.filterMap_cons_none rfl, List.filterMap_nil, List.append_nil]
      exact ih.collect dead

/-- Collections after `Delete` keep the balance. -/
theorem Balanced.rounds {allocs : List CObject} (rounds : List (ℕ → Bool)) :
    ∀ {s : Contexts}, Balanced allocs s → Balanced allocs (rounds.foldl Contexts.collect s) := by
  induction rounds with
  | nil => exact fun hs => hs
  | cons dead rounds ih => exact fun hs => ih (hs.collect dead)

/-! ## The weak array -/

/-- Every live handle is in exactly one slot, and no other handle is in any. -/
def Registered (s : Contexts) : Prop :=
  ∀ h, s.mPointers.count (some h) = if (s.objects h).isSome then 1 else 0

/-- The slots of collected handles become NIL. -/
theorem count_filter_slots (dead : ℕ → Bool) (h : ℕ) (slots : List (Option ℕ)) :
    (slots.map fun slot => slot.filter fun h => !dead h).count (some h) =
      if dead h = true then 0 else slots.count (some h) := by
  induction slots with
  | nil => simp
  | cons slot slots ih =>
    rw [List.map_cons, List.count_cons, List.count_cons, ih]
    cases slot with
    | none => simp
    | some h' =>
      by_cases heq : h' = h
      · subst heq
        cases hdead : dead h' <;> simp [Option.filter, hdead]
      · cases hdead : dead h' <;> simp [Option.filter, hdead, heq]

/-- A collection empties the slots of its handles. -/
theorem Registered.collect {s : Contexts} (hs : Registered s) (dead : ℕ → Bool) :
    Registered (s.collect dead) := by
  intro h
  simp only [Contexts.collect, count_filter_slots, hs h]
  by_cases hdead : dead h = true
  · simp [hdead]
  · simp [hdead]

/-- An occupied slot stays as it is, as long as its handle is not collected. -/
theorem collect_keeps {s : Contexts} (dead : ℕ → Bool) {i h : ℕ}
    (hslot : s.mPointers[i]? = some (some h)) (hlive : dead h = false) :
    (s.collect dead).mPointers[i]? = some (some h) := by
  simp [Contexts.collect, hslot, hlive]

/-- The handle is put into a slot that is NIL, or behind the last one. -/
theorem Registered.place {s : Contexts} (hs : Registered s) (h : ℕ) (hfree : s.objects h = none)
    (obj : CObject) {objects : ℕ → Option CObject}
    (hobjects : objects = fun h' => if h' = h then some obj else s.objects h')
    {slots : List (Option ℕ)}
    (hslots : ∀ h', slots.count (some h') = s.mPointers.count (some h') + if h' = h then 1 else 0)
    (n : ℕ) (calls : List DtorCall) : Registered ⟨objects, n, slots, calls⟩ := by
  intro h'
  have hcount := hs h'
  show slots.count (some h') = if (objects h').isSome then 1 else 0
  rw [hslots h', hcount, hobjects]
  by_cases heq : h' = h
  · simp [heq, hfree]
  · simp [heq]

/-- Filling a slot that is NIL. -/
theorem count_set_none {slots : List (Option ℕ)} {i : ℕ} (hnil : slots[i]? = some none)
    (h h' : ℕ) : (slots.set i (some h)).count (some h') =
      slots.count (some h') + if h' = h then 1 else 0 := by
  obtain ⟨hlt, hget⟩ := List.getElem?_eq_some_iff.mp hnil
  rw [List.count_set hlt, hget]
  by_cases heq : h' = h
  · simp [heq]
  · simp [heq, Ne.symm heq]

theorem findIdx?_isNone {slots : List (Option ℕ)} {i : ℕ}
    (hfound : slots.findIdx? Option.isNone = some i) : slots[i]? = some none := by
  obtain ⟨hlt, hnone, -⟩ := List.findIdx?_eq_some_iff_getElem.mp hfound
  rw [List.getElem?_eq_getElem hlt, Option.isNone_iff_eq_none.mp hnone]

/-- What `DoAllocateCObjectBinary` does to the weak array. -/
theorem Registered.doAllocate {s : Contexts} (hs : Registered s)
    (hunborn : s.objects s.nextHandle = none) (ptr : ℕ) (dtor : CObjectBinaryProc)
    (dead dead' : ℕ → Bool) : Registered (s.doAllocateCObjectBinary ptr dtor dead dead') := by
  have hfree : (s.collect dead).objects s.nextHandle = none := by
    simp only [Contexts.collect, hunborn, ite_self]
  have hcollected := hs.collect dead
  unfold Contexts.doAllocateCObjectBinary
  dsimp only
  split
  · next index hfound =>
    exact hcollected.place _ hfree ⟨ptr, dtor⟩ rfl (count_set_none (findIdx?_isNone hfound) _) _ _
  · -- the array grows, after another collection, which the new handle survives
    have hgrown := hcollected.collect fun h => dead' h && h ≠ s.nextHandle
    refine hgrown.place s.nextHandle ?_ ⟨ptr, dtor⟩ ?_ (fun h' => ?_) _ _
    · simp [Contexts.collect, hunborn]
    · funext h'
      by_cases heq : h' = s.nextHandle
      · simp [Contexts.collect, Contexts.allocateCObjectBinary, heq]
      · simp [Contexts.collect, Contexts.allocateCObjectBinary, heq]
    · rw [List.count_append]
      congr 1
      by_cases heq : h' = s.nextHandle
      · simp [heq]
      · simp [heq, Ne.symm heq]

/-- The handles are registered all the time. -/
theorem registered_run (events : List Event) : Registered (run events) := by
  induction events using List.reverseRecOn with
  | nil =>
    intro h
    simp [run, Contexts.new]
  | append_singleton events event ih =>
    rw [run, List.foldl_append]
    cases event with
    | allocate ptr dtor dead dead' =>
      exact ih.doAllocate ((balanced_run events).unborn _ le_rfl) ptr dtor dead dead'
    | collect dead => exact ih.collect dead

/-- A slot that is occupied is not written: it becomes NIL when its handle is collected. -/
theorem step_keeps {s : Contexts} (event : Event) {i h : ℕ}
    (hslot : s.mPointers[i]? = some (some h)) (hold : h ≠ s.nextHandle)
    (hlive : ((s.step event).objects h).isSome = true) :
    (s.step event).mPointers[i]? = some (some h) := by
  cases event with
  | collect dead =>
    refine collect_keeps dead hslot ?_
    cases hdead : dead h with
    | false => rfl
    | true => simp [Contexts.step, Contexts.collect, hdead] at hlive
  | allocate ptr dtor dead dead' =>
    simp only [Contexts.step, Contexts.doAllocateCObjectBinary] at hlive ⊢
    split at hlive
    · next index hfound =>
      have hdead : dead h = false := by
        cases hdead : dead h with
        | false => rfl
        | true => simp [Contexts.collect, Contexts.allocateCObjectBinary, hold, hdead] at hlive
      have hkept := collect_keeps dead hslot hdead
      have hnil := findIdx?_isNone hfound
      have hne : index ≠ i := by
        rintro rfl
        -- the slot that is taken was NIL, so that it is not this one
        have hboth := hkept.symm.trans hnil
        cases hboth
      show ((s.collect dead).mPointers.set index (some s.nextHandle))[i]? = some (some h)
      rw [List.getElem?_set_ne hne]
      exact hkept
    · have hdead : dead h = false ∧ (dead' h && h ≠ s.nextHandle) = false := by
        constructor
        · cases hdead : dead h with
          | false => rfl
          | true => simp [Contexts.collect, Contexts.allocateCObjectBinary, hold, hdead] at hlive
        · cases hdead' : (dead' h && h ≠ s.nextHandle) with
          | false => rfl
          | true =>
            simp only [Contexts.collect, hdead', if_true] at hlive
            cases hlive
      -- no slot was NIL: the array is cloned with one more
      have hkept := collect_keeps (fun h => dead' h && h ≠ s.nextHandle)
        (collect_keeps dead hslot hdead.1) hdead.2
      show (((s.collect dead).collect fun h => dead' h && h ≠ s.nextHandle).mPointers ++
        [some s.nextHandle])[i]? = some (some h)
      rw [List.getElem?_append_left (List.getElem?_eq_some_iff.mp hkept).1]
      exact hkept

/-! ## Exactly once -/

/-- When nothing is live, the calls of every destructor are made. -/
theorem Balanced.called_once {allocs : List CObject} {s : Contexts} (hs : Balanced allocs s)
    (hdead : ∀ h, s.objects h = none) {h : ℕ} {obj : CObject} (halloc : allocs[h]? = some obj) :
    s.calls.count (dtorCall h obj) = 1 := by
  have hbalance := hs.balance h obj halloc
  simpa [owed, hdead h] using hbalance

/-- The handle owns nothing any more. -/
def Freed (s : Contexts) (h : ℕ) : Prop := ∀ obj, s.objects h = some obj → obj.ptr = 0

/-- A handle that has been freed owns nothing. -/
theorem freed_freeCObjectBinary (s : Contexts) (h : ℕ) : Freed (s.freeCObjectBinary h) h := by
  intro obj hobj
  unfold Contexts.freeCObjectBinary at hobj
  split at hobj
  · next obj' hobj' =>
    split at hobj
    · simp only [if_true, Option.some.injEq] at hobj
      rw [← hobj]
    · next hnull =>
      rw [hobj', Option.some.injEq] at hobj
      rw [← hobj]
      simpa using hnull
  · next hnone =>
    rw [hnone] at hobj
    cases hobj

theorem Freed.freeCObjectBinary {s : Contexts} {h : ℕ} (hs : Freed s h) (h' : ℕ) :
    Freed (s.freeCObjectBinary h') h := by
  by_cases heq : h = h'
  · subst heq
    exact freed_freeCObjectBinary s h
  · intro obj hobj
    unfold Contexts.freeCObjectBinary at hobj
    split at hobj
    · split at hobj
      · exact hs obj (by simpa [heq] using hobj)
      · exact hs obj hobj
    · exact hs obj hobj

/-- The loop of `Delete` frees the handles that it finds. -/
theorem freed_foldl (h : ℕ) (slots : List (Option ℕ)) :
    ∀ {s : Contexts}, some h ∈ slots ∨ Freed s h → Freed (slots.foldl Contexts.freeSlot s) h := by
  induction slots with
  | nil =>
    rintro s (hmem | hs)
    · cases hmem
    · exact hs
  | cons slot slots ih =>
    intro s hs
    apply ih
    rcases hs with hmem | hs
    · rcases List.mem_cons.mp hmem with rfl | hmem
      · exact .inr (freed_freeCObjectBinary s h)
      · exact .inl hmem
    · cases slot with
      | none => exact .inr hs
      | some h' => exact .inr (hs.freeCObjectBinary h')

/-- `Delete` itself destroys whatever has not been collected. -/
theorem delete_destroys_all (events : List Event) {h : ℕ} {obj : CObject}
    (halloc : (allocations events)[h]? = some obj) (hptr : obj.ptr ≠ 0) :
    (run events).delete.calls.count (dtorCall h obj) = 1 := by
  have hfreed : Freed (run events).delete h := by
    apply freed_foldl h (run events).mPointers
    cases hobj : (run events).objects h with
    | none => exact .inr fun obj hlive => by rw [hobj] at hlive; cases hlive
    | some obj' =>
      left
      have hcount := registered_run events h
      rw [hobj, Option.isSome_some, if_pos rfl] at hcount
      exact List.count_pos_iff.mp (by omega)
  have howed : (owed (run events).delete h).count (dtorCall h obj) = 0 := by
    rw [List.count_eq_zero]
    intro hmem
    simp only [owed, Option.mem_toList, Option.map_eq_some_iff] at hmem
    obtain ⟨obj', hobj', heq⟩ := hmem
    exact hptr ((congrArg DtorCall.ptr heq).symm.trans (hfreed obj' hobj'))
  have hbalance := (balanced_run events).delete.balance h obj halloc
  omega

/-- **Every native context is destroyed exactly once.**  In every run, before `Delete`, every
live handle is in exactly one slot, and a slot keeps its handle as long as that lives; and
after `Delete` and the collection of the surviving handles, in however many rounds, the
destructor given at allocation has been called exactly once on every pointer. -/
theorem destroyed_exactly_once (events : List Event) :
    (∀ h, ((run events).objects h).isSome = true → (run events).mPointers.count (some h) = 1) ∧
    (∀ (event : Event) (i h : ℕ), (run events).mPointers[i]? = some (some h) →
      (((run events).step event).objects h).isSome = true →
      ((run events).step event).mPointers[i]? = some (some h)) ∧
    ∀ (rounds : List (ℕ → Bool)) (h : ℕ) (obj : CObject), (allocations events)[h]? = some obj →
      (finish events rounds).calls.count (dtorCall h obj) = 1 := by
  refine ⟨fun h hlive => ?_, fun event i h hslot hlive => ?_, fun rounds h obj halloc => ?_⟩
  · rw [registered_run events h, if_pos hlive]
  · refine step_keeps event hslot ?_ hlive
    rintro rfl
    have hcount := registered_run events (run events).nextHandle
    rw [(balanced_run events).unborn _ le_rfl] at hcount
    exact List.count_eq_zero.mp hcount (List.mem_of_getElem? hslot)
  · have hend := ((balanced_run events).delete.rounds rounds).collect fun _ => true
    exact hend.called_once (fun _ => rfl) halloc

/-- Three contexts: the first is collected, and the third takes its slot. -/
def threeContexts : List Event :=
  [.allocate 100 7 (fun _ => false) (fun _ => false),
    .allocate 200 8 (fun _ => false) (fun _ => false), .collect fun h => h == 0,
    .allocate 300 9 (fun _ => false) (fun _ => false)]

/-- The collector destroys the first context and `Delete` the others. -/
theorem destroyed_exactly_once_three :
    (run threeContexts).mPointers[0]? = some (some 2) ∧
      (run threeContexts).mPointers.count (some 2) = 1 ∧
      (run threeContexts).delete.calls = [⟨0, 7, 100⟩, ⟨2, 9, 300⟩, ⟨1, 8, 200⟩] ∧
      (finish threeContexts [fun h => h == 2]).calls.count ⟨2, 9, 300⟩ = 1 := by
  obtain ⟨hslots, -, hcalls⟩ := destroyed_exactly_once threeContexts
  exact ⟨by decide, hslots 2 (by decide), by decide, hcalls _ 2 ⟨300, 9⟩ rfl⟩

end ContextHandles

end NewtonTLS
