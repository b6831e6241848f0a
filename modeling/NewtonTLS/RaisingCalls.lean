/-
# Calls that may raise exceptions

Bodies that call out and change a state that an exception does not undo.  Which of the calls
raise, and what, is a schedule by the number of the call, and the exceptions that have been
raised are kept with the names of their calls.

`Body.Ends` says how a body ends under every schedule, and what has been raised in it.  A body
without a handler computes a function (`Body.Computes`), unless a call raises an exception, which
then ends it.
-/
import Mathlib.Data.Nat.Notation

namespace Raising

variable {ι ε σ α β : Type}

/-! ## Bodies -/

/-- The number of calls so far, and the exceptions that they have raised. -/
structure Trace (ι ε : Type) where
  calls : ℕ
  raised : List (ι × ε)

/-- A body under a schedule of exceptions. -/
def Body (ι ε σ α : Type) : Type :=
  (ℕ → Option ε) → Trace ι ε → σ → Except ε α × Trace ι ε × σ

/-- The trace before any call. -/
def Trace.start : Trace ι ε := ⟨0, []⟩

namespace Body

/-- A body that calls nothing. -/
protected def pure (a : α) : Body ι ε σ α := fun _ t s => (.ok a, t, s)

/-- The second body runs if no exception ends the first one. -/
protected def bind (m : Body ι ε σ α) (f : α → Body ι ε σ β) : Body ι ε σ β := fun faults t s =>
  match m faults t s with
  | (.ok a, t', s') => f a faults t' s'
  | (.error e, t', s') => (.error e, t', s')

instance : Monad (Body ι ε σ) where
  pure := Body.pure
  bind := Body.bind

/-- A call, which raises what the schedule says. -/
def call (i : ι) : Body ι ε σ Unit := fun faults t s =>
  match faults t.calls with
  | none => (.ok (), ⟨t.calls + 1, t.raised⟩, s)
  | some e => (.error e, ⟨t.calls + 1, t.raised ++ [(i, e)]⟩, s)

/-- A change of the state. -/
def modify (f : σ → σ) : Body ι ε σ Unit := fun _ t s => (.ok (), t, f s)

/-- The state. -/
def get : Body ι ε σ σ := fun _ t s => (.ok s, t, s)

/-- Run `m`; after an exception in `p` go on with `a`. -/
def ignoring (p : ε → Bool) (a : α) (m : Body ι ε σ α) : Body ι ε σ α := fun faults t s =>
  match m faults t s with
  | (.ok b, t', s') => (.ok b, t', s')
  | (.error e, t', s') => if p e then (.ok a, t', s') else (.error e, t', s')

/-! ## Under every schedule -/

/-- From the state `s` the body raises some exceptions of the schedule and ends in `Q`. -/
def Ends (m : Body ι ε σ α) (Q : List (ι × ε) → Except ε α → σ → Prop) (s : σ) : Prop :=
  ∀ faults t, ∃ raised, (m faults t s).2.1.raised = t.raised ++ raised ∧
    (∀ x ∈ raised, ∃ k, faults k = some x.2) ∧ Q raised (m faults t s).1 (m faults t s).2.2

section ends

variable {m : Body ι ε σ α} {f : α → Body ι ε σ β} {Q : List (ι × ε) → Except ε α → σ → Prop}
  {s : σ}

theorem ends_pure {a : α} (h : Q [] (.ok a) s) : (pure a : Body ι ε σ α).Ends Q s :=
  fun _ t => ⟨[], (List.append_nil t.raised).symm, List.forall_mem_nil _, h⟩

theorem ends_get {Q : List (ι × ε) → Except ε σ → σ → Prop} (h : Q [] (.ok s) s) :
    (get : Body ι ε σ σ).Ends Q s :=
  fun _ t => ⟨[], (List.append_nil t.raised).symm, List.forall_mem_nil _, h⟩

theorem ends_modify {Q : List (ι × ε) → Except ε Unit → σ → Prop} {g : σ → σ}
    (h : Q [] (.ok ()) (g s)) : (modify g : Body ι ε σ Unit).Ends Q s :=
  fun _ t => ⟨[], (List.append_nil t.raised).symm, List.forall_mem_nil _, h⟩

/-- A call raises or it does not. -/
theorem ends_call {Q : List (ι × ε) → Except ε Unit → σ → Prop} {i : ι} (hok : Q [] (.ok ()) s)
    (herror : ∀ e, Q [(i, e)] (.error e) s) : (call i : Body ι ε σ Unit).Ends Q s := by
  intro faults t
  unfold call
  cases hfault : faults t.calls with
  | none => exact ⟨[], (List.append_nil t.raised).symm, List.forall_mem_nil _, hok⟩
  | some e =>
    refine ⟨[(i, e)], rfl, ?_, herror e⟩
    intro x hx
    rw [List.mem_singleton.mp hx]
    exact ⟨t.calls, hfault⟩

theorem Ends.mono {Q' : List (ι × ε) → Except ε α → σ → Prop} (hm : m.Ends Q s)
    (h : ∀ raised r s', Q raised r s' → Q' raised r s') : m.Ends Q' s := by
  intro faults t
  obtain ⟨raised, htrace, hfaults, hQ⟩ := hm faults t
  exact ⟨raised, htrace, hfaults, h _ _ _ hQ⟩

/-- Sequencing: what the second body raises comes after what the first one has raised. -/
theorem Ends.bind {Mid : List (ι × ε) → Except ε α → σ → Prop}
    {Q : List (ι × ε) → Except ε β → σ → Prop} (hm : m.Ends Mid s)
    (hok : ∀ raised a s', Mid raised (.ok a) s' →
      (f a).Ends (fun raised' => Q (raised ++ raised')) s')
    (herror : ∀ raised e s', Mid raised (.error e) s' → Q raised (.error e) s') :
    (m >>= f).Ends Q s := by
  intro faults t
  show ∃ raised, (Body.bind m f faults t s).2.1.raised = t.raised ++ raised ∧ _ ∧
    Q raised (Body.bind m f faults t s).1 (Body.bind m f faults t s).2.2
  unfold Body.bind
  obtain ⟨raised, htrace, hfaults, hMid⟩ := hm faults t
  rcases hfirst : m faults t s with ⟨_ | a, t', s'⟩
  · rw [hfirst] at htrace hMid
    exact ⟨raised, htrace, hfaults, herror _ _ _ hMid⟩
  · rw [hfirst] at htrace hMid
    obtain ⟨raised', htrace', hfaults', hQ⟩ := hok raised a s' hMid faults t'
    refine ⟨raised ++ raised', ?_, ?_, hQ⟩
    · rw [htrace', htrace, List.append_assoc]
    · exact List.forall_mem_append.mpr ⟨hfaults, hfaults'⟩

/-- Sequencing after a call. -/
theorem ends_call_bind {i : ι} {k : Unit → Body ι ε σ α} (hok : (k ()).Ends Q s)
    (herror : ∀ e, Q [(i, e)] (.error e) s) : (call i >>= k).Ends Q s := by
  have hcall : (call i : Body ι ε σ Unit).Ends (fun raised r s' => s' = s ∧
      (r = .ok () → raised = []) ∧ ∀ e, r = .error e → raised = [(i, e)]) s := by
    refine ends_call ⟨rfl, fun _ => rfl, by rintro e ⟨⟩⟩ fun e => ⟨rfl, by rintro ⟨⟩, ?_⟩
    rintro e' ⟨⟩
    rfl
  refine hcall.bind ?_ ?_
  · rintro raised a s' ⟨rfl, hraised, -⟩
    rw [hraised rfl]
    exact hok
  · rintro raised e s' ⟨rfl, -, hraised⟩
    rw [hraised e rfl]
    exact herror e

/-- A handler that ignores the exceptions in `p`. -/
theorem Ends.ignoring {Mid : List (ι × ε) → Except ε α → σ → Prop} {p : ε → Bool} {a : α}
    (hm : m.Ends Mid s) (hok : ∀ raised b s', Mid raised (.ok b) s' → Q raised (.ok b) s')
    (hignored : ∀ raised e s', Mid raised (.error e) s' → p e = true → Q raised (.ok a) s')
    (herror : ∀ raised e s', Mid raised (.error e) s' → p e = false → Q raised (.error e) s') :
    (m.ignoring p a).Ends Q s := by
  intro faults t
  unfold Body.ignoring
  obtain ⟨raised, htrace, hfaults, hMid⟩ := hm faults t
  refine ⟨raised, ?_⟩
  rcases hfirst : m faults t s with ⟨e | b, t', s'⟩
  · rw [hfirst] at htrace hMid
    dsimp only
    cases hp : p e with
    | true => exact ⟨htrace, hfaults, hignored _ _ _ hMid hp⟩
    | false => exact ⟨htrace, hfaults, herror _ _ _ hMid hp⟩
  · rw [hfirst] at htrace hMid
    exact ⟨htrace, hfaults, hok _ _ _ hMid⟩

/-- Under the empty schedule nothing is raised. -/
theorem Ends.quiet (hm : m.Ends Q s) (t : Trace ι ε) :
    Q [] (m (fun _ => none) t s).1 (m (fun _ => none) t s).2.2 := by
  obtain ⟨raised, -, hfaults, hQ⟩ := hm (fun _ => none) t
  cases raised with
  | nil => exact hQ
  | cons x raised =>
    obtain ⟨k, hk⟩ := hfaults x List.mem_cons_self
    cases hk

end ends

/-! ## Bodies without a handler -/

/-- Nothing is raised and `f` is computed, or the body ends with the one exception that has been
raised, by a call in `p`, and then `v` has not changed. -/
def Uncaught {γ : Type} (p : ι → Bool) (v : σ → γ) (f : σ → α × σ) (s : σ)
    (raised : List (ι × ε)) : Except ε α → σ → Prop
  | .ok a, s' => raised = [] ∧ f s = (a, s')
  | .error e, s' => (∃ i, p i = true ∧ raised = [(i, e)]) ∧ v s' = v s

/-- The body computes `f`, or ends with the exception that is raised first. -/
def Computes {γ : Type} (p : ι → Bool) (v : σ → γ) (m : Body ι ε σ α) (f : σ → α × σ) : Prop :=
  ∀ s, m.Ends (Uncaught p v f s) s

section computes

variable {γ : Type} {p : ι → Bool} {v : σ → γ} {m : Body ι ε σ α} {g : α → Body ι ε σ β}

theorem computes_pure (a : α) : Computes p v (pure a : Body ι ε σ α) fun s => (a, s) :=
  fun _ => ends_pure ⟨rfl, rfl⟩

theorem computes_call {i : ι} (hi : p i = true) :
    Computes p v (call i : Body ι ε σ Unit) fun s => ((), s) :=
  fun _ => ends_call ⟨rfl, rfl⟩ fun _ => ⟨⟨i, hi, rfl⟩, rfl⟩

/-- A change of the state is computed. -/
theorem computes_modify (h : σ → σ) :
    Computes p v (modify h : Body ι ε σ Unit) fun s => ((), h s) :=
  fun _ => ends_modify ⟨rfl, rfl⟩

theorem computes_get : Computes p v (get : Body ι ε σ σ) fun s => (s, s) :=
  fun _ => ends_get ⟨rfl, rfl⟩

/-- Sequencing after a body that does not change `v`. -/
theorem Computes.bind {f : σ → α × σ} {f' : α → σ → β × σ} (hm : Computes p v m f)
    (hv : ∀ s, v (f s).2 = v s) (hg : ∀ a, Computes p v (g a) (f' a)) :
    Computes p v (m >>= g) fun s => f' (f s).1 (f s).2 := by
  intro s
  refine (hm s).bind ?_ ?_
  · rintro raised a s' ⟨rfl, hf⟩
    refine (hg a s').mono ?_
    intro raised' r s'' hr
    rw [List.nil_append]
    cases r with
    | ok b =>
      refine ⟨hr.1, ?_⟩
      show f' (f s).1 (f s).2 = (b, s'')
      rw [hf]
      exact hr.2
    | error e =>
      refine ⟨hr.1, hr.2.trans ?_⟩
      rw [← hv s, hf]
  · exact fun _ _ _ hr => hr

/-- Nothing is raised by what is computed at the end. -/
theorem Computes.map {f : σ → α × σ} (hm : Computes p v m f) (h : α → β) :
    Computes p v (m >>= fun a => pure (h a)) fun s => (h (f s).1, (f s).2) := by
  intro s
  refine (hm s).bind ?_ ?_
  · rintro raised a s' ⟨rfl, hf⟩
    refine ends_pure ⟨rfl, ?_⟩
    show (h (f s).1, (f s).2) = (h a, s')
    rw [hf]
  · exact fun _ _ _ hr => hr

/-- After a body that only changes the state. -/
theorem Computes.seq {m : Body ι ε σ Unit} {k : Unit → Body ι ε σ β} {h : σ → σ} {f : σ → β × σ}
    (hm : m.Computes p v fun s => ((), h s)) (hv : ∀ s, v (h s) = v s)
    (hk : (k ()).Computes p v f) : (m >>= k).Computes p v fun s => f (h s) :=
  hm.bind hv fun _ => hk

/-- A call in front does not change what is computed. -/
theorem Computes.afterCall {i : ι} (hi : p i = true) {k : Unit → Body ι ε σ β} {f : σ → β × σ}
    (h : Computes p v (k ()) f) : Computes p v (call i >>= k) f :=
  (computes_call hi).bind (fun _ => rfl) fun _ => h

/-- Under the empty schedule `f` is computed. -/
theorem Computes.quiet {f : σ → α × σ} (hm : Computes p v m f) (t : Trace ι ε) (s : σ) :
    (m (fun _ => none) t s).1 = .ok (f s).1 ∧ (m (fun _ => none) t s).2.2 = (f s).2 := by
  have hr := (hm s).quiet t
  rcases hend : m (fun _ => none) t s with ⟨e | a, t', s'⟩ <;> rw [hend] at hr
  · obtain ⟨⟨i, -, hi⟩, -⟩ := hr
    cases hi
  · obtain ⟨-, hf⟩ := hr
    rw [hf]
    exact ⟨rfl, rfl⟩

end computes

end Body

end Raising
