/-
# Ways of a body, from state to state

`Act.Drives` speaks of all that has happened on the way of a body.  Often it is enough to sum
it up: an account goes from one sum to the next with each happening, and `Code.Leads` says how
a body ends with the sum it ends with, whatever has happened before it starts.

Nothing in this module is about a particular component.
-/
import NewtonTLS.ReentrantDrive

namespace Reentrant

variable {S : Signature} {σ α β G : Type}

/-! ## Exceptions -/

/-- The end of a body that ran while an exception was on its way. -/
def Ending.raised : Ending S σ Unit → Ending S σ α
  | .done s _ => .raise s
  | .raise s => .raise s
  | .halt s w => .halt s w

/-- What `m` must end in for its cleanup to end in `Q`. -/
def Ending.cleaned (E : Environment S σ) (Q : List (Happening S) → Ending S σ α → Prop)
    (clean : Code S σ Unit) (n : ℕ) (l : List (Happening S)) : Ending S σ α → Prop
  | .done s a => Q l (.done s a)
  | .raise s => clean.Drives E (fun l' r => Q (l ++ l') r.raised) (n + l.length) s
  | .halt s w => Q l (.halt s w)

/-- After an exception the cleanup runs, and the exception goes on. -/
theorem Act.drives_onRaise_iff {E : Environment S σ} (clean : Code S σ Unit) :
    ∀ (m : Act S σ α) (Q : List (Happening S) → Ending S σ α → Prop) (n : ℕ),
      (m.onRaise clean).Drives E Q n ↔ m.Drives E (Ending.cleaned E Q clean n) n := by
  intro m
  induction m with
  | done s a => intro Q n; exact Iff.rfl
  | raise s =>
    intro Q n
    -- the only end at which the unwinding code runs
    refine (Act.drives_bind (fun _ s' => Act.raise s') (clean s) Q n).trans ?_
    show Ending.andThen E Q _ n _ ((clean s).drive E n).2 ↔
      Q ([] ++ ((clean s).drive E n).1) ((clean s).drive E n).2.raised
    rw [List.nil_append]
    cases ((clean s).drive E n).2 with
    | done s' u =>
      show Q (((clean s).drive E n).1 ++ []) (.raise s') ↔ Q ((clean s).drive E n).1 (.raise s')
      rw [List.append_nil]
    | raise s' => exact Iff.rfl
    | halt s' w => exact Iff.rfl
  | halt s w => intro Q n; exact Iff.rfl
  | ask s q k ih =>
    intro Q n
    refine (ih (E.answer n q) (fun l => Q (.asked q (E.answer n q) :: l)) (n + 1)).trans ?_
    simp only [Act.Drives, Act.drive]
    -- the requests of the unwinding code are counted from after this one
    cases ((k (E.answer n q)).drive E (n + 1)).2 with
    | raise s' =>
      simp only [Ending.cleaned, List.length_cons, Nat.add_assoc n 1, Nat.add_comm 1]
      exact Iff.rfl
    | done s' a => exact Iff.rfl
    | halt s' w => exact Iff.rfl
  | call s c k ih =>
    intro Q n
    refine (ih (E.result n c s).1 (E.result n c s).2
      (fun l => Q (.called c (E.result n c s).1 :: l)) (n + 1)).trans ?_
    simp only [Act.Drives, Act.drive]
    cases ((k (E.result n c s).1 (E.result n c s).2).drive E (n + 1)).2 with
    | raise s' =>
      simp only [Ending.cleaned, List.length_cons, Nat.add_assoc n 1, Nat.add_comm 1]
      exact Iff.rfl
    | done s' a => exact Iff.rfl
    | halt s' w => exact Iff.rfl

/-! ## Sums -/

/-- From the sum `g` and the state `s` the body ends in `Q`, with the sum of its way. -/
def Code.Leads (E : Environment S σ) (next : G → Happening S → G) (m : Code S σ α)
    (Q : G → Ending S σ α → Prop) (g : G) (s : σ) : Prop :=
  ∀ n, m.Drives E (fun l r => Q (l.foldl next g) r) n s

/-- The body ends with a value, in `P`. -/
def Returns (P : G → σ → α → Prop) (g : G) (r : Ending S σ α) : Prop :=
  ∃ s a, r = .done s a ∧ P g s a

/-- If the body ends with a value, then in `P`. -/
def WhenDone (P : G → σ → α → Prop) (g : G) (r : Ending S σ α) : Prop :=
  ∀ s a, r = .done s a → P g s a

theorem whenDone_done {P : G → σ → α → Prop} {g : G} {s : σ} {a : α} (h : P g s a) :
    WhenDone P g (.done s a : Ending S σ α) := by
  rintro s' a' ⟨⟩
  exact h

/-- Nothing is claimed of an exception. -/
theorem whenDone_raise {P : G → σ → α → Prop} {g : G} {s : σ} :
    WhenDone P g (.raise s : Ending S σ α) := by
  rintro s' a ⟨⟩

theorem whenDone_halt {P : G → σ → α → Prop} {g : G} {s : σ} {w : S.Fault} :
    WhenDone P g (.halt s w : Ending S σ α) := by
  rintro s' a ⟨⟩

/-- The sum that says whether all that has happened satisfies `A`. -/
def every (A : Happening S → Prop) (g : Prop) (x : Happening S) : Prop := g ∧ A x

/-- Every happening of the way satisfies `A`. -/
theorem foldl_every (A : Happening S → Prop) (l : List (Happening S)) :
    ∀ g, l.foldl (every A) g ↔ g ∧ ∀ x ∈ l, A x := by
  induction l with
  | nil => intro g; simp
  | cons x l ih =>
    intro g
    rw [List.foldl_cons, ih, every, List.forall_mem_cons, and_assoc]

/-- The sum that says whether something that has happened satisfies `A`. -/
def any (A : Happening S → Prop) (g : Prop) (x : Happening S) : Prop := g ∨ A x

/-- Some happening of the way satisfies `A`. -/
theorem foldl_any (A : Happening S → Prop) (l : List (Happening S)) :
    ∀ g, l.foldl (any A) g ↔ g ∨ ∃ x ∈ l, A x := by
  induction l with
  | nil => intro g; simp
  | cons x l ih =>
    intro g
    rw [List.foldl_cons, ih, any, List.exists_mem_cons_iff, or_assoc]

namespace Code

variable {E : Environment S σ} {next : G → Happening S → G} {Q : G → Ending S σ α → Prop} {g : G}
  {s : σ}

theorem leads_pure {a : α} (h : Q g (.done s a)) : (pure a : Code S σ α).Leads E next Q g s :=
  fun _ => h

theorem leads_raise (h : Q g (.raise s)) : (Code.raise : Code S σ α).Leads E next Q g s :=
  fun _ => h

theorem leads_halt {w : S.Fault} (h : Q g (.halt s w)) :
    (Code.halt w : Code S σ α).Leads E next Q g s :=
  fun _ => h

theorem leads_modify {Q : G → Ending S σ PUnit → Prop} {f : σ → σ} (h : Q g (.done (f s) ⟨⟩)) :
    (modify f : Code S σ PUnit).Leads E next Q g s :=
  fun _ => h

/-- A question, at whatever place. -/
theorem leads_ask {q : S.Query} {Q : G → Ending S σ (S.Answer q) → Prop}
    (h : ∀ n, Q (next g (.asked q (E.answer n q))) (.done s (E.answer n q))) :
    (Code.ask q : Code S σ _).Leads E next Q g s :=
  fun n => h n

/-- Every body ends in some way. -/
theorem leads_true (m : Code S σ α) : m.Leads E next (fun _ _ => True) g s := fun _ => trivial

/-- What every happening keeps, every body keeps. -/
theorem leads_kept {I : G → Prop} (hI : ∀ g x, I g → I (next g x)) (hg : I g) (m : Code S σ α) :
    m.Leads E next (fun g' _ => I g') g s :=
  fun _ => List.foldlRecOn _ next hg fun g hg x _ => hI g x hg

/-- Weakening the postcondition. -/
theorem Leads.mono {Q' : G → Ending S σ α → Prop} {m : Code S σ α} (h : m.Leads E next Q g s)
    (hQ : ∀ g' r, Q g' r → Q' g' r) : m.Leads E next Q' g s :=
  fun n => hQ _ _ (h n)

/-- What `m` must end in for `f` to take over and end in `Q`. -/
def thenLeads (E : Environment S σ) (next : G → Happening S → G) (Q : G → Ending S σ β → Prop)
    (f : α → Code S σ β) (g : G) : Ending S σ α → Prop
  | .done s a => (f a).Leads E next Q g s
  | .raise s => Q g (.raise s)
  | .halt s w => Q g (.halt s w)

/-- Sequencing: the second body goes on from where the first one ends. -/
theorem leads_bind {Q : G → Ending S σ β → Prop} {m : Code S σ α} {f : α → Code S σ β}
    (hm : m.Leads E next (thenLeads E next Q f) g s) : (m >>= f).Leads E next Q g s := by
  intro n
  rw [Code.drives_bind]
  refine (hm n).mono ?_
  intro l r hr
  cases r with
  | done s' a =>
    rw [Ending.andThen_done]
    refine (hr _).mono ?_
    intro l' r' hr'
    rwa [List.foldl_append]
  | raise s' => exact hr
  | halt s' w => exact hr

/-- Sequencing, from a postcondition of the first body. -/
theorem Leads.bind {Q : G → Ending S σ β → Prop} {Mid : G → Ending S σ α → Prop} {m : Code S σ α}
    {f : α → Code S σ β} (hm : m.Leads E next Mid g s)
    (hdone : ∀ g' s' a, Mid g' (.done s' a) → (f a).Leads E next Q g' s')
    (hraise : ∀ g' s', Mid g' (.raise s') → Q g' (.raise s'))
    (hhalt : ∀ g' s' w, Mid g' (.halt s' w) → Q g' (.halt s' w)) :
    (m >>= f).Leads E next Q g s := by
  refine leads_bind (hm.mono ?_)
  intro g' r hr
  cases r with
  | done s' a => exact hdone g' s' a hr
  | raise s' => exact hraise g' s' hr
  | halt s' w => exact hhalt g' s' w hr

/-- Sequencing after a look at the state. -/
theorem leads_get_bind {f : σ → Code S σ α} (h : (f s).Leads E next Q g s) :
    ((get : Code S σ σ) >>= f).Leads E next Q g s :=
  fun n => h n

/-- Sequencing after a change of the state. -/
theorem leads_modify_bind {t : σ → σ} {f : PUnit → Code S σ α}
    (h : (f ⟨⟩).Leads E next Q g (t s)) : ((modify t : Code S σ PUnit) >>= f).Leads E next Q g s :=
  fun n => h n

/-- Sequencing after a question. -/
theorem leads_ask_bind {q : S.Query} {f : S.Answer q → Code S σ α}
    (h : ∀ n, (f (E.answer n q)).Leads E next Q (next g (.asked q (E.answer n q))) s) :
    ((Code.ask q : Code S σ _) >>= f).Leads E next Q g s :=
  fun n => h n (n + 1)

/-- Sequencing after a call. -/
theorem leads_call_bind {c : S.Call} {f : S.Result c → Code S σ α}
    (h : ∀ n, (f (E.result n c s).1).Leads E next Q (next g (.called c (E.result n c s).1))
      (E.result n c s).2) :
    ((Code.call c : Code S σ _) >>= f).Leads E next Q g s :=
  fun n => h n (n + 1)

/-- Sequencing after a body that ends with a value. -/
theorem Leads.andThen {Q : G → Ending S σ β → Prop} {P : G → σ → α → Prop} {m : Code S σ α}
    {f : α → Code S σ β} (hm : m.Leads E next (Returns P) g s)
    (hf : ∀ g' s' a, P g' s' a → (f a).Leads E next Q g' s') : (m >>= f).Leads E next Q g s := by
  refine hm.bind ?_ ?_ ?_
  · rintro g' s' a ⟨_, _, hr, hP⟩
    cases hr
    exact hf g' s' a hP
  · rintro g' s' ⟨_, _, hr, -⟩
    cases hr
  · rintro g' s' w ⟨_, _, hr, -⟩
    cases hr

theorem leads_pure_done {P : G → σ → α → Prop} {a : α} (h : P g s a) :
    (pure a : Code S σ α).Leads E next (WhenDone P) g s :=
  leads_pure (whenDone_done h)

theorem leads_true_done {m : Code S σ α} :
    m.Leads E next (WhenDone fun _ _ _ => True) g s :=
  fun _ _ _ _ => trivial

/-- Sequencing: only a body that ends with a value has the second one after it. -/
theorem Leads.bindDone {P : G → σ → α → Prop} {P' : G → σ → β → Prop} {m : Code S σ α}
    {f : α → Code S σ β} (hm : m.Leads E next (WhenDone P) g s)
    (hf : ∀ g' s' a, P g' s' a → (f a).Leads E next (WhenDone P') g' s') :
    (m >>= f).Leads E next (WhenDone P') g s := by
  refine hm.bind ?_ ?_ ?_
  · exact fun g' s' a hr => hf g' s' a (hr s' a rfl)
  · exact fun _ _ _ => whenDone_raise
  · exact fun _ _ _ _ => whenDone_halt

/-- A body with a cleanup for exceptions. -/
theorem Leads.onRaise {Mid : G → Ending S σ α → Prop} {m : Code S σ α} {clean : Code S σ Unit}
    (hm : m.Leads E next Mid g s) (hdone : ∀ g' s' a, Mid g' (.done s' a) → Q g' (.done s' a))
    (hraise : ∀ g' s', Mid g' (.raise s') →
      clean.Leads E next (fun g'' r => Q g'' r.raised) g' s')
    (hhalt : ∀ g' s' w, Mid g' (.halt s' w) → Q g' (.halt s' w)) :
    (m.onRaise clean).Leads E next Q g s := by
  intro n
  refine (Act.drives_onRaise_iff clean (m s) _ n).mpr ((hm n).mono ?_)
  intro l r hr
  cases r with
  | done s' a => exact hdone _ _ _ hr
  | raise s' =>
    refine (hraise _ _ hr _).mono ?_
    intro l' r' hr'
    show Q ((l ++ l').foldl next g) r'.raised
    rwa [List.foldl_append]
  | halt s' w => exact hhalt _ _ _ hr

/-- A cleanup does not make a body end with a value. -/
theorem Leads.onRaiseDone {P : G → σ → α → Prop} {m : Code S σ α} {clean : Code S σ Unit}
    (hm : m.Leads E next (WhenDone P) g s) : (m.onRaise clean).Leads E next (WhenDone P) g s := by
  refine hm.onRaise (fun _ _ _ hr => hr) ?_ (fun _ _ _ _ => whenDone_halt)
  intro g' s' _
  refine (leads_true clean).mono ?_
  rintro g'' (⟨s'', u⟩ | s'' | ⟨s'', w⟩) -
  · exact whenDone_raise
  · exact whenDone_raise
  · exact whenDone_halt

end Code

end Reentrant
