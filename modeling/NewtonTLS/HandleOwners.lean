/-
# What handles own

A handle owns the native context that its destructor will free.  As long as every handle finds in
its block a context of the kind that its destructor expects, and no two handles have one block
(`Sane`), collections, new handles and `Delete` free contexts of the right kinds only, and keep it
so.
-/
import NewtonTLS.BindingRules

namespace NewtonTLS

namespace HandleOwners

open Bindings BindingRules ContextHandles Ownership

/-! ## The table of handles -/

section handles

variable {c : Contexts} {dead : ℕ → Bool} {h : ℕ} {obj : CObject}

/-- What a collection leaves is what was there. -/
theorem collect_objects
    (hobj : (c.collect dead).objects h = some obj) : dead h = false ∧ c.objects h = some obj := by
  cases hdead : dead h with
  | true =>
    simp only [Contexts.collect, hdead, if_true] at hobj
    cases hobj
  | false =>
    simp only [Contexts.collect, hdead, Bool.false_eq_true, if_false] at hobj
    exact ⟨rfl, hobj⟩

/-- What `DoAllocateCObjectBinary` does to the handles: collections before and after the new handle
is made. -/
theorem doAllocate_spec (c : Contexts) (p : ℕ) (d : CObjectBinaryProc) (dead dead' : ℕ → Bool) :
    ∃ dead'' : ℕ → Bool,
      (c.doAllocateCObjectBinary p d dead dead').calls = c.calls ++ (c.finalize dead ++
        ((c.collect dead).allocateCObjectBinary p d).finalize dead'') ∧
      (c.doAllocateCObjectBinary p d dead dead').objects =
        (((c.collect dead).allocateCObjectBinary p d).collect dead'').objects ∧
      (c.doAllocateCObjectBinary p d dead dead').nextHandle = c.nextHandle + 1 := by
  unfold Contexts.doAllocateCObjectBinary
  dsimp only
  split
  · refine ⟨fun _ => false, ?_, ?_, rfl⟩
    · simp [Contexts.finalize, Contexts.allocateCObjectBinary, Contexts.collect]
    · funext h
      simp [Contexts.collect]
  · refine ⟨fun h => dead' h && h ≠ c.nextHandle, ?_, rfl, rfl⟩
    rw [← List.append_assoc]
    rfl

/-- The new handle. -/
theorem allocate_new {p : ℕ} {d : CObjectBinaryProc} :
    ((c.collect dead).allocateCObjectBinary p d).objects c.nextHandle = some ⟨p, d⟩ := if_pos rfl

/-- An allocation leaves the other handles alone. -/
theorem allocate_old {p : ℕ} {d : CObjectBinaryProc} (hne : h ≠ c.nextHandle) :
    ((c.collect dead).allocateCObjectBinary p d).objects h = (c.collect dead).objects h :=
  if_neg hne

/-- A handle is the new one, or it was there before. -/
theorem allocate_objects {p : ℕ} {d : CObjectBinaryProc}
    (hobj : ((c.collect dead).allocateCObjectBinary p d).objects h = some obj) :
    h = c.nextHandle ∧ obj = ⟨p, d⟩ ∨ c.objects h = some obj := by
  by_cases heq : h = c.nextHandle
  · left
    rw [heq, allocate_new, Option.some.injEq] at hobj
    exact ⟨heq, hobj.symm⟩
  · right
    rw [allocate_old heq] at hobj
    exact (collect_objects hobj).2

/-- The handles are the new one and old ones. -/
theorem doAllocate_objects {p : ℕ} {d : CObjectBinaryProc} {dead' : ℕ → Bool}
    (hobj : (c.doAllocateCObjectBinary p d dead dead').objects h = some obj) :
    h = c.nextHandle ∧ obj = ⟨p, d⟩ ∨ c.objects h = some obj := by
  obtain ⟨dead'', -, hobjects, -⟩ := doAllocate_spec c p d dead dead'
  rw [hobjects] at hobj
  exact allocate_objects (collect_objects hobj).2

/-- There is one handle more. -/
theorem doAllocate_nextHandle (c : Contexts) (p : ℕ) (d : CObjectBinaryProc)
    (dead dead' : ℕ → Bool) :
    (c.doAllocateCObjectBinary p d dead dead').nextHandle = c.nextHandle + 1 := by
  obtain ⟨-, -, -, hnext⟩ := doAllocate_spec c p d dead dead'
  exact hnext

/-- A handle that has been collected is not freed. -/
theorem free_none (hobj : c.objects h = none) : c.freeCObjectBinary h = c := by
  rw [Contexts.freeCObjectBinary, hobj]

/-- A handle that has been freed is not freed again. -/
theorem free_null (hobj : c.objects h = some obj) (hptr : obj.ptr = 0) :
    c.freeCObjectBinary h = c := by
  rw [Contexts.freeCObjectBinary, hobj]
  exact if_neg (not_not_intro hptr)

/-- A handle gives its pointer up. -/
theorem free_some (hobj : c.objects h = some obj) (hptr : obj.ptr ≠ 0) :
    c.freeCObjectBinary h =
      { c with
        objects := Function.update c.objects h (some ⟨0, DISPOSE_PTR_PUBLIC_JT⟩)
        calls := c.calls ++ [dtorCall h obj] } := by
  have hobjects : Function.update c.objects h (some ⟨0, DISPOSE_PTR_PUBLIC_JT⟩) =
      fun h' => if h' = h then some ⟨0, DISPOSE_PTR_PUBLIC_JT⟩ else c.objects h' := by
    funext h'
    rw [Function.update_apply]
  rw [Contexts.freeCObjectBinary, hobj, hobjects]
  exact if_pos hptr

/-- What a table holds after one of its entries has been replaced. -/
theorem of_update_some {α : Type} {f : ℕ → Option α} {i j : ℕ} {a b : α}
    (h : Function.update f i (some a) j = some b) : j = i ∧ b = a ∨ j ≠ i ∧ f j = some b := by
  by_cases heq : j = i
  · left
    rw [heq, Function.update_self, Option.some.injEq] at h
    exact ⟨heq, h.symm⟩
  · right
    rw [Function.update_of_ne heq] at h
    exact ⟨heq, h⟩

end handles

/-! ## Destructors -/

/-- A destructor has freed a context of its kind. -/
def Freed (c : NativeCall) : Prop :=
  c.caller = .destructor ∧ ∀ o ∈ c.objects, o.found = some (.context o.type)

/-- A destructor is called with what it expects. -/
theorem Freed.sound {c : NativeCall} (h : Freed c) (given : List (Kind × ℕ)) :
    GivenCall.Sound ⟨given, c⟩ := by
  intro o ho
  refine ⟨fun hcaller => ?_, .inl (h.2 o ho)⟩
  rw [h.1] at hcaller
  cases hcaller

/-- A run of destructors, which leaves the owners in `own`. -/
structure Destroyed (own : ℕ → Option (ℕ × Kind)) (s s' : State) : Prop where
  contexts : s'.contexts = s.contexts
  owned : Owned own s'.blocks
  freed : Extends Freed s s'

section destructors

variable {own own' : ℕ → Option (ℕ × Kind)} {s s' s'' : State} {misuse : Blocks → Blocks}

/-- Fewer handles own something. -/
theorem Destroyed.mono (h : Destroyed own s s') (hle : ∀ i x, own' i = some x → own i = some x) :
    Destroyed own' s s' :=
  ⟨h.contexts, h.owned.mono hle, h.freed⟩

/-- One set of destructors after the other. -/
theorem Destroyed.trans (h : Destroyed own s s') (h' : Destroyed own' s' s'') :
    Destroyed own' s s'' :=
  ⟨h'.contexts.trans h.contexts, h'.owned, h.freed.trans h'.freed⟩

theorem destroyed_refl (hown : Owned own s.blocks) : Destroyed own s s :=
  ⟨rfl, hown, Extends.refl s⟩

/-- Disposing of a block that nobody owns. -/
theorem owned_disposePtr (hown : Owned own s.blocks) {p : ℕ} (hfree : ∀ i k, own i ≠ some (p, k)) :
    Owned own (s.disposePtr p).blocks := by
  unfold State.disposePtr
  by_cases hp : p = 0
  · rw [if_pos hp]
    exact hown
  · rw [if_neg hp]
    exact hown.update_unowned hfree none

/-- A destructor frees a context of its kind, and nothing that somebody else owns. -/
theorem runDtor_context (misuse : Blocks → Blocks) {p : ℕ} {kind : Kind}
    (hfound : s.blocks p = some (.context kind)) (hown : Owned own s.blocks)
    (hfree : ∀ i k, own i ≠ some (p, k)) :
    Destroyed own s (s.runDtor misuse (.context kind) p) := by
  have hfits : ∀ o ∈ [(kind, p)], o.2 = 0 ∨ s.blocks o.2 = some (.context o.1) :=
    List.forall_mem_singleton.mpr (.inr hfound)
  have hblocks : (s.call misuse .destructor (.free kind) [(kind, p)] []).blocks = s.blocks :=
    if_pos hfits
  refine ⟨State.disposePtr_contexts _ _, ?_, ⟨_, State.disposePtr_calls _ _, ?_⟩⟩
  · apply owned_disposePtr _ hfree
    rw [hblocks]
    exact hown
  · rw [List.forall_mem_singleton]
    exact ⟨rfl, List.forall_mem_singleton.mpr hfound⟩

end destructors

/-! ## What handles own -/

section owners

variable [Image]

/-- The block that the destructor of a handle frees, with the kind of context that it expects. -/
def owner (obj : CObject) : Option (ℕ × Kind) :=
  match Image.dtorAt obj.destructor with
  | .context kind => some (obj.ptr, kind)
  | .nop => none
  | .disposePtr => none

/-- The pointers that handles own, with the types of their contexts. -/
def owners (objects : ℕ → Option CObject) (h : ℕ) : Option (ℕ × Kind) := (objects h).bind owner

/-- Only NULL is left to `DisposePtr`. -/
def Emptied (objects : ℕ → Option CObject) : Prop :=
  ∀ h obj, objects h = some obj → Image.dtorAt obj.destructor = .disposePtr → obj.ptr = 0

variable {own : ℕ → Option (ℕ × Kind)} {objects : ℕ → Option CObject} {s : State}
  {misuse : Blocks → Blocks} {dead : ℕ → Bool}

theorem owners_some {h : ℕ} {obj : CObject} (hobj : objects h = some obj) :
    owners objects h = owner obj := by
  rw [owners, hobj, Option.bind_some]

/-- A handle that has been collected owns nothing. -/
theorem owners_none {h : ℕ} (hobj : objects h = none) : owners objects h = none := by
  rw [owners, hobj, Option.bind_none]

/-- The destructor of a handle frees what the handle owns, which ends the ownership. -/
theorem destroy_owned (hown : Owned own s.blocks) {h : ℕ} {obj : CObject}
    (hobj : own h = owner obj)
    (hnull : Image.dtorAt obj.destructor = .disposePtr → obj.ptr = 0) :
    Destroyed (Function.update own h none) s (s.destroy misuse (dtorCall h obj)) := by
  have hrun : s.destroy misuse (dtorCall h obj) =
      s.runDtor misuse (Image.dtorAt obj.destructor) obj.ptr := rfl
  rw [hrun]
  unfold owner at hobj
  cases hdtor : Image.dtorAt obj.destructor with
  | context kind =>
    rw [hdtor] at hobj
    have hfound := hown.typed h obj.ptr kind hobj
    exact runDtor_context misuse hfound (hown.giveUp h) (hown.unowned_giveUp hobj)
  | nop => exact destroyed_refl (hown.giveUp h)
  | disposePtr =>
    have hsame : s.runDtor misuse .disposePtr obj.ptr = s := if_pos (hnull hdtor)
    rw [hsame]
    exact destroyed_refl (hown.giveUp h)

/-- The owners when those of the first `n` handles that are in `dead` are gone. -/
def kept (dead : ℕ → Bool) (n : ℕ) (own : ℕ → Option (ℕ × Kind)) (h : ℕ) : Option (ℕ × Kind) :=
  if h < n ∧ dead h = true then none else own h

omit [Image] in
/-- The handle that comes next has not been collected yet. -/
theorem kept_self (n : ℕ) : kept dead n own n = own n := if_neg fun h => Nat.lt_irrefl n h.1

omit [Image] in
/-- A handle that is not dead keeps what it owns. -/
theorem kept_of_live {n h : ℕ} (hdead : dead h = false) : kept dead n own h = own h :=
  if_neg fun h' => by
    rw [hdead] at h'
    exact Bool.false_ne_true h'.2

omit [Image] in
/-- What is left after one more handle was left before. -/
theorem kept_succ {n h : ℕ} {x : ℕ × Kind} (hx : kept dead (n + 1) own h = some x) :
    kept dead n own h = some x ∧ (dead n = true → h ≠ n) := by
  unfold kept at hx ⊢
  by_cases hdead : h < n + 1 ∧ dead h = true
  · rw [if_pos hdead] at hx
    cases hx
  · rw [if_neg hdead] at hx
    constructor
    · rw [if_neg fun h' => hdead ⟨Nat.lt_succ_of_lt h'.1, h'.2⟩]
      exact hx
    · rintro hn rfl
      exact hdead ⟨Nat.lt_succ_self h, hn⟩

/-- A collection frees contexts of the kinds that the destructors expect: by induction on the
handles, which own what is freed until it is. -/
theorem destroyed_finalize (hown : Owned own s.blocks) (hnull : Emptied objects) (n : ℕ)
    (howns : ∀ h < n, own h = owners objects h) :
    Destroyed (kept dead n own) s
      (((List.range n).filterMap fun h =>
        if dead h then (objects h).map (dtorCall h) else none).foldl (State.destroy misuse) s) := by
  induction n with
  | zero => exact (destroyed_refl hown).mono fun h x hx => hx
  | succ n ih =>
    have hbefore := ih fun h hlt => howns h (Nat.lt_succ_of_lt hlt)
    rw [List.range_succ, List.filterMap_append, List.foldl_append]
    cases hdead : dead n with
    | false =>
      simp only [List.filterMap_cons, List.filterMap_nil, hdead, Bool.false_eq_true, if_false,
        List.foldl_nil]
      exact hbefore.mono fun h x hx => (kept_succ hx).1
    | true =>
      cases hobj : objects n with
      | none =>
        simp only [List.filterMap_cons, List.filterMap_nil, hdead, if_true, hobj, Option.map_none,
          List.foldl_nil]
        exact hbefore.mono fun h x hx => (kept_succ hx).1
      | some obj =>
        simp only [List.filterMap_cons, List.filterMap_nil, hdead, if_true, hobj, Option.map_some,
          List.foldl_cons, List.foldl_nil]
        have hn : kept dead n own n = owner obj := by
          rw [kept_self, howns n (Nat.lt_succ_self n), owners_some hobj]
        refine (hbefore.trans (destroy_owned hbefore.owned hn (hnull n obj hobj))).mono ?_
        intro h x hx
        obtain ⟨hx, hne⟩ := kept_succ hx
        rw [Function.update_of_ne (hne hdead)]
        exact hx

/-! ## Collections, allocations and `Delete` -/

/-- The handles and the native blocks fit together. -/
structure Sane (s : State) : Prop where
  owned : Owned (owners s.contexts.objects) s.blocks
  unborn : ∀ h, s.contexts.nextHandle ≤ h → s.contexts.objects h = none
  emptied : Emptied s.contexts.objects

theorem Sane.lt (hs : Sane s) {h : ℕ} {obj : CObject} (hobj : s.contexts.objects h = some obj) :
    h < s.contexts.nextHandle := by
  by_contra hle
  rw [hs.unborn h (Nat.le_of_not_lt hle)] at hobj
  cases hobj

/-- The new destructors are called one after the other. -/
theorem withContexts_of_append {contexts : Contexts} {new : List DtorCall}
    (h : contexts.calls = s.contexts.calls ++ new) :
    s.withContexts misuse contexts =
      new.foldl (State.destroy misuse) { s with contexts := contexts } := by
  rw [State.withContexts, h, List.drop_left]

/-- `destroyed_finalize`, for the collections of `Contexts`. -/
theorem destroyed_collect {c : Contexts} (misuse : Blocks → Blocks) (dead : ℕ → Bool)
    (hown : Owned own s.blocks) (hnull : Emptied c.objects)
    (howns : ∀ h < c.nextHandle, own h = owners c.objects h) :
    Destroyed (kept dead c.nextHandle own) s
      ((c.finalize dead).foldl (State.destroy misuse) s) :=
  destroyed_finalize hown hnull c.nextHandle howns

/-- What is owned after a collection was owned before, by a live handle. -/
theorem owners_collect {c : Contexts} {h : ℕ} {x : ℕ × Kind}
    (hx : owners (c.collect dead).objects h = some x) :
    dead h = false ∧ owners c.objects h = some x := by
  obtain ⟨obj, hobj, howner⟩ := Option.bind_eq_some_iff.mp hx
  obtain ⟨hdead, hobj⟩ := collect_objects hobj
  exact ⟨hdead, (owners_some hobj).trans howner⟩

/-- A collection calls the right destructors, and leaves the state sane. -/
theorem Sane.collect (hs : Sane s) (misuse : Blocks → Blocks) (dead : ℕ → Bool) :
    (s.withContexts misuse (s.contexts.collect dead)).contexts = s.contexts.collect dead ∧
      Sane (s.withContexts misuse (s.contexts.collect dead)) ∧
      Extends Freed s (s.withContexts misuse (s.contexts.collect dead)) := by
  have hcalls : (s.contexts.collect dead).calls = s.contexts.calls ++ s.contexts.finalize dead :=
    rfl
  rw [withContexts_of_append hcalls]
  obtain ⟨hcontexts, howned, hfreed⟩ :=
    destroyed_collect (s := { s with contexts := s.contexts.collect dead }) misuse dead hs.owned
      hs.emptied fun _ _ => rfl
  refine ⟨hcontexts, ⟨?_, ?_, ?_⟩, hfreed⟩
  · rw [hcontexts]
    refine howned.mono fun h x hx => ?_
    obtain ⟨hdead, hx⟩ := owners_collect hx
    rw [kept_of_live hdead]
    exact hx
  · rw [hcontexts]
    intro h hle
    simp only [Contexts.collect, hs.unborn h hle, ite_self]
  · rw [hcontexts]
    exact fun h obj hobj => hs.emptied h obj (collect_objects hobj).2

/-- What is kept when the new owner is counted before the first collection is what the handles own
after it, the new one among them. -/
theorem kept_update {c : Contexts} {p : ℕ} {d : CObjectBinaryProc} {h : ℕ}
    (hle : h ≤ c.nextHandle) :
    kept dead c.nextHandle (Function.update (owners c.objects) c.nextHandle (owner ⟨p, d⟩)) h =
      owners ((c.collect dead).allocateCObjectBinary p d).objects h := by
  by_cases heq : h = c.nextHandle
  · rw [heq, kept_self, Function.update_self, owners_some allocate_new]
  · have hold : owners ((c.collect dead).allocateCObjectBinary p d).objects h =
        owners (c.collect dead).objects h := congrArg (Option.bind · owner) (allocate_old heq)
    rw [hold]
    cases hdead : dead h with
    | true =>
      have hgone : (c.collect dead).objects h = none := if_pos hdead
      rw [owners_none hgone]
      exact if_pos ⟨Nat.lt_of_le_of_ne hle heq, hdead⟩
    | false =>
      have hlive : (c.collect dead).objects h = c.objects h :=
        if_neg (by rw [hdead]; exact Bool.false_ne_true)
      rw [kept_of_live hdead, Function.update_of_ne heq]
      exact congrArg (Option.bind · owner) hlive.symm

/-- A new handle owns a context, or nothing to be disposed of. -/
theorem Sane.allocate_emptied (hs : Sane s) (p : ℕ) {dtor : Dtor} (hdtor : dtor ≠ .disposePtr) :
    Emptied ((s.contexts.collect dead).allocateCObjectBinary p (Image.address dtor)).objects := by
  intro h obj hobj hdispose
  rcases allocate_objects hobj with ⟨-, rfl⟩ | hobj
  · rw [Image.dtorAt_address] at hdispose
    exact absurd hdispose hdtor
  · exact hs.emptied h obj hobj hdispose

/-- The new handle has the next number. -/
theorem Sane.allocate_lt (hs : Sane s) {p : ℕ} {d : CObjectBinaryProc} {h : ℕ} {obj : CObject}
    (hobj : ((s.contexts.collect dead).allocateCObjectBinary p d).objects h = some obj) :
    h < s.contexts.nextHandle + 1 := by
  rcases allocate_objects hobj with ⟨rfl, -⟩ | hobj
  · exact Nat.lt_succ_self _
  · exact Nat.lt_succ_of_lt (hs.lt hobj)

/-- A new handle, which owns what nobody has owned. -/
theorem Sane.doAllocate (hs : Sane s) {p : ℕ} {dtor : Dtor}
    (hown : Owned (Function.update (owners s.contexts.objects) s.contexts.nextHandle
      (owner ⟨p, Image.address dtor⟩)) s.blocks)
    (hdtor : dtor ≠ .disposePtr) (misuse : Blocks → Blocks) (dead dead' : ℕ → Bool)
    {c' : Contexts}
    (hc' : s.contexts.doAllocateCObjectBinary p (Image.address dtor) dead dead' = c') :
    (s.withContexts misuse c').contexts = c' ∧ Sane (s.withContexts misuse c') ∧
      Extends Freed s (s.withContexts misuse c') := by
  obtain ⟨dead'', hcalls, hobjects, hnext⟩ :=
    doAllocate_spec s.contexts p (Image.address dtor) dead dead'
  rw [hc'] at hcalls hobjects hnext
  have hnull : Emptied ((s.contexts.collect dead).allocateCObjectBinary p
      (Image.address dtor)).objects := hs.allocate_emptied p hdtor
  rw [withContexts_of_append hcalls, List.foldl_append]
  -- the collection before the handle is made; the new owner is counted already
  have hfirst := destroyed_collect (s := { s with contexts := c' }) misuse dead hown hs.emptied
    fun h hlt => Function.update_of_ne (Nat.ne_of_lt hlt) _ _
  -- and the one after it
  have hsecond := destroyed_collect misuse dead'' hfirst.owned hnull
    fun h hlt => kept_update (Nat.le_of_lt_succ hlt)
  obtain ⟨hcontexts, howned, hfreed⟩ := hfirst.trans hsecond
  refine ⟨hcontexts, ⟨?_, ?_, ?_⟩, hfreed⟩
  · rw [hcontexts, hobjects]
    refine howned.mono fun h x hx => ?_
    obtain ⟨hdead, hx⟩ := owners_collect hx
    obtain ⟨obj, hobj, -⟩ := Option.bind_eq_some_iff.mp hx
    rw [kept_of_live hdead, kept_update (Nat.le_of_lt_succ (hs.allocate_lt hobj))]
    exact hx
  · rw [hcontexts, hobjects, hnext]
    intro h hle
    rw [Option.eq_none_iff_forall_ne_some]
    intro obj hobj
    exact Nat.not_lt_of_le hle (hs.allocate_lt (collect_objects hobj).2)
  · rw [hcontexts, hobjects]
    exact fun h obj hobj => hnull h obj (collect_objects hobj).2

/-- What `Delete` makes of the handles, with the destructors that it runs. -/
structure FreedTo (misuse : Blocks → Blocks) (s : State) (c c' : Contexts) : Prop where
  destroyed : ∃ new, c'.calls = c.calls ++ new ∧
    Destroyed (owners c'.objects) s (new.foldl (State.destroy misuse) s)
  emptied : Emptied c'.objects
  none : ∀ h, c.objects h = none → c'.objects h = none
  nextHandle : c'.nextHandle = c.nextHandle

theorem freedTo_refl {c : Contexts} (hown : Owned (owners c.objects) s.blocks)
    (hnull : Emptied c.objects) : FreedTo misuse s c c where
  destroyed := ⟨[], (List.append_nil _).symm, destroyed_refl hown⟩
  emptied := hnull
  none := fun _ h => h
  nextHandle := rfl

/-- A freed handle owns nothing. -/
theorem freedTo_freeCObjectBinary {c : Contexts} (hown : Owned (owners c.objects) s.blocks)
    (hnull : Emptied c.objects) (h : ℕ) : FreedTo misuse s c (c.freeCObjectBinary h) := by
  cases hobj : c.objects h with
  | none =>
    rw [free_none hobj]
    exact freedTo_refl hown hnull
  | some obj =>
    by_cases hptr : obj.ptr = 0
    · rw [free_null hobj hptr]
      exact freedTo_refl hown hnull
    · rw [free_some hobj hptr]
      refine ⟨⟨[dtorCall h obj], rfl, ?_⟩, ?_, ?_, rfl⟩
      · refine (destroy_owned hown (owners_some hobj) (hnull h obj hobj)).mono fun h' x hx => ?_
        obtain ⟨obj', hobj', howner⟩ := Option.bind_eq_some_iff.mp hx
        rcases of_update_some hobj' with ⟨-, rfl⟩ | ⟨hne, hobj'⟩
        · rw [owner, Image.dtorAt_disposePtr] at howner
          cases howner
        · rw [Function.update_of_ne hne, owners_some hobj']
          exact howner
      · intro h' obj' hobj' hdispose
        rcases of_update_some hobj' with ⟨-, rfl⟩ | ⟨-, hobj'⟩
        · rfl
        · exact hnull h' obj' hobj' hdispose
      · intro h' hnone
        have hne : h' ≠ h := by
          rintro rfl
          rw [hobj] at hnone
          cases hnone
        exact (Function.update_of_ne hne _ _).trans hnone

/-- The slots are freed one after the other. -/
theorem freedTo_foldl (misuse : Blocks → Blocks) (slots : List (Option ℕ)) :
    ∀ {s : State} {c : Contexts}, Owned (owners c.objects) s.blocks → Emptied c.objects →
      FreedTo misuse s c (slots.foldl Contexts.freeSlot c) := by
  induction slots with
  | nil => exact fun hown hnull => freedTo_refl hown hnull
  | cons slot slots ih =>
    intro s c hown hnull
    have hfirst : FreedTo misuse s c (c.freeSlot slot) := by
      cases slot with
      | none => exact freedTo_refl hown hnull
      | some h => exact freedTo_freeCObjectBinary hown hnull h
    obtain ⟨new, hcalls, hdestroyed⟩ := hfirst.destroyed
    have hrest := ih hdestroyed.owned hfirst.emptied
    obtain ⟨new', hcalls', hdestroyed'⟩ := hrest.destroyed
    refine ⟨⟨new ++ new', ?_, ?_⟩, hrest.emptied, ?_, ?_⟩
    · rw [List.foldl_cons, hcalls', hcalls, List.append_assoc]
    · rw [List.foldl_append]
      exact hdestroyed.trans hdestroyed'
    · exact fun h hnone => hrest.none h (hfirst.none h hnone)
    · exact hrest.nextHandle.trans hfirst.nextHandle

/-- `Delete` frees what is owned. -/
theorem Sane.freedTo_delete (hs : Sane s) (misuse : Blocks → Blocks) :
    FreedTo misuse { s with contexts := s.contexts.delete } s.contexts s.contexts.delete := by
  have hfreed := freedTo_foldl (s := { s with contexts := s.contexts.delete }) misuse
    s.contexts.mPointers hs.owned hs.emptied
  exact ⟨hfreed.destroyed, hfreed.emptied, hfreed.none, hfreed.nextHandle⟩

/-- `Delete` calls the right destructors, and leaves the state sane. -/
theorem Sane.delete (hs : Sane s) (misuse : Blocks → Blocks) :
    (s.withContexts misuse s.contexts.delete).contexts = s.contexts.delete ∧
      Sane (s.withContexts misuse s.contexts.delete) ∧
      Extends Freed s (s.withContexts misuse s.contexts.delete) := by
  obtain ⟨⟨new, hcalls, hdestroyed⟩, hempty, hnone, hnext⟩ := hs.freedTo_delete misuse
  rw [withContexts_of_append hcalls]
  refine ⟨hdestroyed.contexts, ⟨?_, ?_, ?_⟩, hdestroyed.freed⟩
  · rw [hdestroyed.contexts]
    exact hdestroyed.owned
  · rw [hdestroyed.contexts]
    intro h hle
    exact hnone h (hs.unborn h (hnext ▸ hle))
  · rw [hdestroyed.contexts]
    exact hempty

end owners

end HandleOwners

end NewtonTLS
