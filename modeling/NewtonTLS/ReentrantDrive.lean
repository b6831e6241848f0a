/-
# Bodies in a given environment

A contract speaks of every environment at once.  Here the environment is fixed: it answers
every question and returns from every call in a way that is known beforehand, and a body has
one way to go.  `Act.drive` is that way, with what has happened on it, and `Act.Drives`
computes a postcondition of it along the body.
-/
import NewtonTLS.Reentrant

namespace Reentrant

variable {S : Signature} {σ α β : Type}

/-! ## Driving a body -/

/-- How an environment answers and returns, by the number of what has happened before.  A call
comes back with the state as its environment leaves it. -/
structure Environment (S : Signature) (σ : Type) where
  answer : ℕ → (q : S.Query) → S.Answer q
  result : ℕ → (c : S.Call) → σ → S.Result c × σ

/-- What has happened on the way. -/
inductive Happening (S : Signature) : Type where
  | asked (q : S.Query) (a : S.Answer q)
  | called (c : S.Call) (r : S.Result c)

/-- How a body ends. -/
inductive Ending (S : Signature) (σ α : Type) : Type where
  | done (s : σ) (a : α)
  | raise (s : σ)
  | halt (s : σ) (w : S.Fault)

/-- The way of a body after `n` happenings. -/
def Act.drive (E : Environment S σ) : Act S σ α → ℕ → List (Happening S) × Ending S σ α
  | .done s a, _ => ([], .done s a)
  | .raise s, _ => ([], .raise s)
  | .halt s w, _ => ([], .halt s w)
  | .ask _ q k, n =>
    let rest := (k (E.answer n q)).drive E (n + 1)
    (.asked q (E.answer n q) :: rest.1, rest.2)
  | .call s c k, n =>
    let rest := (k (E.result n c s).1 (E.result n c s).2).drive E (n + 1)
    (.called c (E.result n c s).1 :: rest.1, rest.2)

/-- `Act.drive` for a body that still has to look at the state. -/
def Code.drive (E : Environment S σ) (m : Code S σ α) (n : ℕ) (s : σ) :
    List (Happening S) × Ending S σ α := (m s).drive E n

/-! ## Postconditions -/

/-- The way of the body ends in `Q`. -/
def Act.Drives (E : Environment S σ) (Q : List (Happening S) → Ending S σ α → Prop)
    (m : Act S σ α) (n : ℕ) : Prop := Q (m.drive E n).1 (m.drive E n).2

/-- `Act.Drives` for a body that still has to look at the state. -/
def Code.Drives (E : Environment S σ) (Q : List (Happening S) → Ending S σ α → Prop)
    (m : Code S σ α) (n : ℕ) (s : σ) : Prop := (m s).Drives E Q n

variable {E : Environment S σ}

/-- What `m` must end in for `f` to take over and end in `Q`. -/
def Ending.andThen (E : Environment S σ) (Q : List (Happening S) → Ending S σ β → Prop)
    (f : α → Code S σ β) (n : ℕ) (l : List (Happening S)) : Ending S σ α → Prop
  | .done s a => (f a).Drives E (fun l' => Q (l ++ l')) (n + l.length) s
  | .raise s => Q l (.raise s)
  | .halt s w => Q l (.halt s w)

/-- After a look at the state. -/
@[simp] theorem Ending.andThen_done_nil (Q : List (Happening S) → Ending S σ β → Prop)
    (f : α → Code S σ β) (n : ℕ) (s : σ) (a : α) :
    Ending.andThen E Q f n [] (.done s a) = (f a).Drives E Q n s := rfl

/-- After a question or a call. -/
@[simp] theorem Ending.andThen_done_singleton (Q : List (Happening S) → Ending S σ β → Prop)
    (f : α → Code S σ β) (n : ℕ) (x : Happening S) (s : σ) (a : α) :
    Ending.andThen E Q f n [x] (.done s a) =
      (f a).Drives E (fun l => Q (x :: l)) (n + 1) s := rfl

/-- After a way that has been gone. -/
theorem Ending.andThen_done (Q : List (Happening S) → Ending S σ β → Prop)
    (f : α → Code S σ β) (n : ℕ) (l : List (Happening S)) (s : σ) (a : α) :
    Ending.andThen E Q f n l (.done s a) =
      (f a).Drives E (fun l' => Q (l ++ l')) (n + l.length) s := rfl

@[simp] theorem Ending.andThen_raise (Q : List (Happening S) → Ending S σ β → Prop)
    (f : α → Code S σ β) (n : ℕ) (l : List (Happening S)) (s : σ) :
    Ending.andThen E Q f n l (.raise s) = Q l (.raise s) := rfl

@[simp] theorem Ending.andThen_halt (Q : List (Happening S) → Ending S σ β → Prop)
    (f : α → Code S σ β) (n : ℕ) (l : List (Happening S)) (s : σ) (w : S.Fault) :
    Ending.andThen E Q f n l (.halt s w) = Q l (.halt s w) := rfl

/-- Sequencing: the second body goes on from where the first one ends. -/
theorem Act.drives_bind (f : α → Code S σ β) :
    ∀ (m : Act S σ α) (Q : List (Happening S) → Ending S σ β → Prop) (n : ℕ),
      (m.bind f).Drives E Q n ↔ m.Drives E (Ending.andThen E Q f n) n := by
  intro m
  induction m with
  | done s a => intro Q n; exact Iff.rfl
  | raise s => intro Q n; exact Iff.rfl
  | halt s w => intro Q n; exact Iff.rfl
  | ask s q k ih =>
    intro Q n
    refine (ih (E.answer n q) (fun l => Q (.asked q (E.answer n q) :: l)) (n + 1)).trans ?_
    simp only [Act.Drives, Act.drive]
    cases ((k (E.answer n q)).drive E (n + 1)).2 with
    | done s' a =>
      rw [Ending.andThen_done, Ending.andThen_done, List.length_cons,
        Nat.add_assoc n 1, Nat.add_comm 1]
      rfl
    | raise s' => exact Iff.rfl
    | halt s' w => exact Iff.rfl
  | call s c k ih =>
    intro Q n
    refine (ih (E.result n c s).1 (E.result n c s).2
      (fun l => Q (.called c (E.result n c s).1 :: l)) (n + 1)).trans ?_
    simp only [Act.Drives, Act.drive]
    cases ((k (E.result n c s).1 (E.result n c s).2).drive E (n + 1)).2 with
    | done s' a =>
      rw [Ending.andThen_done, Ending.andThen_done, List.length_cons,
        Nat.add_assoc n 1, Nat.add_comm 1]
      rfl
    | raise s' => exact Iff.rfl
    | halt s' w => exact Iff.rfl

/-- A body that ends without an exception does not need its cleanup. -/
theorem Act.drives_onRaise (clean : σ → Act S σ Unit) :
    ∀ (m : Act S σ α) (Q : List (Happening S) → Ending S σ α → Prop) (n : ℕ),
      m.Drives E (fun l r => Q l r ∧ ∀ s, r ≠ .raise s) n → (m.onRaise clean).Drives E Q n := by
  intro m
  induction m with
  | done s a => intro Q n h; exact h.1
  | raise s => intro Q n h; exact absurd rfl (h.2 s)
  | halt s w => intro Q n h; exact h.1
  | ask s q k ih =>
    intro Q n h
    exact ih (E.answer n q) (fun l => Q (.asked q (E.answer n q) :: l)) (n + 1) h
  | call s c k ih =>
    intro Q n h
    exact ih (E.result n c s).1 (E.result n c s).2
      (fun l => Q (.called c (E.result n c s).1 :: l)) (n + 1) h

/-! ## Computing `Drives` along a body -/

namespace Code

variable {Q : List (Happening S) → Ending S σ α → Prop} {n : ℕ} {s : σ}

@[simp] theorem drives_pure (a : α) :
    (pure a : Code S σ α).Drives E Q n s ↔ Q [] (.done s a) := Iff.rfl

/-- The second body goes on where the first one ends. -/
@[simp] theorem drives_bind {Q : List (Happening S) → Ending S σ β → Prop} (m : Code S σ α)
    (f : α → Code S σ β) :
    (m >>= f).Drives E Q n s ↔ m.Drives E (Ending.andThen E Q f n) n s :=
  Act.drives_bind f (m s) Q n

@[simp] theorem drives_get {Q : List (Happening S) → Ending S σ σ → Prop} :
    (get : Code S σ σ).Drives E Q n s ↔ Q [] (.done s s) := Iff.rfl

@[simp] theorem drives_set {Q : List (Happening S) → Ending S σ PUnit → Prop} (s' : σ) :
    (set s' : Code S σ PUnit).Drives E Q n s ↔ Q [] (.done s' ⟨⟩) := Iff.rfl

@[simp] theorem drives_modify {Q : List (Happening S) → Ending S σ PUnit → Prop} (f : σ → σ) :
    (modify f : Code S σ PUnit).Drives E Q n s ↔ Q [] (.done (f s) ⟨⟩) := Iff.rfl

@[simp] theorem drives_raise :
    (Code.raise : Code S σ α).Drives E Q n s ↔ Q [] (.raise s) := Iff.rfl

@[simp] theorem drives_halt (w : S.Fault) :
    (Code.halt w : Code S σ α).Drives E Q n s ↔ Q [] (.halt s w) := Iff.rfl

@[simp] theorem drives_ask (q : S.Query) {Q : List (Happening S) → Ending S σ (S.Answer q) → Prop} :
    (Code.ask q : Code S σ _).Drives E Q n s ↔
      Q [.asked q (E.answer n q)] (.done s (E.answer n q)) := Iff.rfl

/-- The environment returns, and may have changed the state. -/
@[simp] theorem drives_call (c : S.Call)
    {Q : List (Happening S) → Ending S σ (S.Result c) → Prop} :
    (Code.call c : Code S σ _).Drives E Q n s ↔
      Q [.called c (E.result n c s).1] (.done (E.result n c s).2 (E.result n c s).1) := Iff.rfl

@[simp] theorem drives_ite (p : Prop) [Decidable p] (m m' : Code S σ α) :
    (if p then m else m').Drives E Q n s ↔
      (p → m.Drives E Q n s) ∧ (¬p → m'.Drives E Q n s) := by
  by_cases h : p <;> simp [h]

/-- Weakening the postcondition. -/
theorem Drives.mono {Q' : List (Happening S) → Ending S σ α → Prop} {m : Code S σ α}
    (h : m.Drives E Q n s) (hQ : ∀ l r, Q l r → Q' l r) : m.Drives E Q' n s := hQ _ _ h

end Code

end Reentrant
