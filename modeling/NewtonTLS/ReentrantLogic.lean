/-
# Contracts for components that are called back

The proof rule of the development.  A `Contract` says what holds whenever the
environment has control (`At`, for each stack of pending calls), what the
environment may have changed when it gives control back (`Rely`), and what every
event must satisfy (`Every`).  A body meets the contract (`Act.Sat`) when each
of its stretches does; `Contract.sound` turns "every entry point meets the
contract" into a statement about all runs.

The lemmas `Code.sat_*` compute `Sat` along a body, so that a proof about an
entry point starts with `simp` and ends with the arithmetic of its branches.
-/
import NewtonTLS.Reentrant

namespace Reentrant

variable {S : Signature} {σ α β : Type} {M : Monitor S}

/-! ## Contracts -/

/-- What is promised at the points where the environment has control, what the
environment may change there, and what holds of every event. -/
structure Contract (M : Monitor S) (σ : Type) where
  At : List S.Call → M.Obs → σ → Prop
  Rely : List S.Call → M.Obs → σ → M.Obs → σ → Prop
  Every : M.Obs → σ → Label S → Prop
  refl : ∀ stk g s, Rely stk g s g s
  trans : ∀ stk g₁ s₁ g₂ s₂ g₃ s₃,
    Rely stk g₁ s₁ g₂ s₂ → Rely stk g₂ s₂ g₃ s₃ → Rely stk g₁ s₁ g₃ s₃

/-- How a body ends when it ends: its observation, its value (none after an
exception) and its state. -/
abbrev Post (M : Monitor S) (σ α : Type) : Type := M.Obs → Option α → σ → Prop

/-- The body, of entry point `e`, meets contract `K` under the pending calls `stk`,
from observation `g`, and ends in `Q`. -/
def Act.Sat (K : Contract M σ) (D : Discipline M σ) (e : S.Entry) (stk : List S.Call)
    (Q : Post M σ α) :
    Act S σ α → M.Obs → Prop
  | .done s a, g => Q g (some a) s
  | .raise s, g => Q g none s
  | .halt _ _, _ => True
  | .ask s q k, g => ∀ a, D.permits stk g s (.asked q a) = true →
      K.Every g s (.asked q a) ∧ (k a).Sat K D e stk Q (M.next g (.asked q a))
  | .call s c k, g => K.Every g s (.calls e c) ∧ K.At (c :: stk) (M.next g (.calls e c)) s ∧
      ∀ r g' s', K.At (c :: stk) g' s' → K.Rely (c :: stk) (M.next g (.calls e c)) s g' s' →
        D.permits (c :: stk) g' s' (.resumes c r) = true →
        K.Every g' s' (.resumes c r) ∧ (k r s').Sat K D e stk Q (M.next g' (.resumes c r))

/-- `Act.Sat` for a body that still has to look at the state. -/
def Code.Sat (K : Contract M σ) (D : Discipline M σ) (e : S.Entry) (stk : List S.Call)
    (Q : Post M σ α) (m : Code S σ α) (g : M.Obs) (s : σ) : Prop :=
  (m s).Sat K D e stk Q g

variable {K : Contract M σ} {D : Discipline M σ} {e : S.Entry} {stk : List S.Call}

/-- Weakening the postcondition. -/
theorem Act.Sat.mono {Q Q' : Post M σ α} (hQ : ∀ g v s, Q g v s → Q' g v s) :
    ∀ {m : Act S σ α} {g : M.Obs}, m.Sat K D e stk Q g → m.Sat K D e stk Q' g := by
  intro m
  induction m with
  | done s a => intro g h; exact hQ _ _ _ h
  | raise s => intro g h; exact hQ _ _ _ h
  | halt s w => intro g _; trivial
  | ask s q k ih =>
    intro g h a ha
    exact ⟨(h a ha).1, ih a (h a ha).2⟩
  | call s c k ih =>
    intro g h
    refine ⟨h.1, h.2.1, fun r g' s' hat hrely hok => ?_⟩
    have hk := h.2.2 r g' s' hat hrely hok
    exact ⟨hk.1, ih r s' hk.2⟩

theorem Code.Sat.mono {Q Q' : Post M σ α} {m : Code S σ α} {g : M.Obs} {s : σ}
    (h : m.Sat K D e stk Q g s) (hQ : ∀ g v s, Q g v s → Q' g v s) : m.Sat K D e stk Q' g s :=
  Act.Sat.mono hQ h

/-- The postcondition of `m` in `m >>= f`: the rest meets the contract. -/
def Post.andThen (K : Contract M σ) (D : Discipline M σ) (e : S.Entry) (stk : List S.Call)
    (Q : Post M σ β) (f : α → Code S σ β) : Post M σ α
  | g, some a, s => (f a).Sat K D e stk Q g s
  | g, none, s => Q g none s

@[simp] theorem Post.andThen_some (Q : Post M σ β) (f : α → Code S σ β) (g : M.Obs) (a : α)
    (s : σ) : Post.andThen K D e stk Q f g (some a) s = (f a).Sat K D e stk Q g s := rfl

@[simp] theorem Post.andThen_none (Q : Post M σ β) (f : α → Code S σ β) (g : M.Obs) (s : σ) :
    Post.andThen K D e stk Q f g none s = Q g none s := rfl

/-- Sequencing: the second body takes over where the first one ends. -/
theorem Act.sat_bind {Q : Post M σ β} (f : α → Code S σ β) :
    ∀ (m : Act S σ α) (g : M.Obs),
      (m.bind f).Sat K D e stk Q g ↔ m.Sat K D e stk (Post.andThen K D e stk Q f) g := by
  intro m
  induction m with
  | done s a => intro g; exact Iff.rfl
  | raise s => intro g; exact Iff.rfl
  | halt s w => intro g; exact Iff.rfl
  | ask s q k ih =>
    intro g
    simp only [Act.bind, Act.Sat, ih]
  | call s c k ih =>
    intro g
    simp only [Act.bind, Act.Sat, ih]

/-- An exception runs the cleanup before it goes on. -/
theorem Act.sat_onRaise {Q : Post M σ α} (clean : σ → Act S σ Unit) :
    ∀ (m : Act S σ α) (g : M.Obs),
      (m.onRaise clean).Sat K D e stk Q g ↔
        m.Sat K D e stk (fun g v s => match v with
          | some a => Q g (some a) s
          | none => (clean s).Sat K D e stk (fun g _ s => Q g none s) g) g := by
  intro m
  induction m with
  | done s a => intro g; exact Iff.rfl
  | raise s =>
    intro g
    simp only [Act.onRaise, Act.Sat]
    rw [Act.sat_bind (fun _ s' => .raise s') (clean s) g]
    constructor
    · intro h
      refine h.mono (fun g v s hv => ?_)
      cases v with
      | none => exact hv
      | some u => exact hv
    · intro h
      refine h.mono (fun g v s hv => ?_)
      cases v with
      | none => exact hv
      | some u => exact hv
  | halt s w => intro g; exact Iff.rfl
  | ask s q k ih =>
    intro g
    simp only [Act.onRaise, Act.Sat, ih]
  | call s c k ih =>
    intro g
    simp only [Act.onRaise, Act.Sat, ih]

/-! ## Computing `Sat` along a body -/

namespace Code

variable {Q : Post M σ α} {g : M.Obs} {s : σ}

@[simp] theorem sat_pure (a : α) :
    (pure a : Code S σ α).Sat K D e stk Q g s ↔ Q g (some a) s := Iff.rfl

/-- The second body goes on from the postcondition of the first one. -/
@[simp] theorem sat_bind {Q : Post M σ β} (m : Code S σ α) (f : α → Code S σ β) :
    (m >>= f).Sat K D e stk Q g s ↔ m.Sat K D e stk (Post.andThen K D e stk Q f) g s :=
  Act.sat_bind f (m s) g

@[simp] theorem sat_get {Q : Post M σ σ} :
    (get : Code S σ σ).Sat K D e stk Q g s ↔ Q g (some s) s := Iff.rfl

@[simp] theorem sat_set {Q : Post M σ PUnit} (s' : σ) :
    (set s' : Code S σ PUnit).Sat K D e stk Q g s ↔ Q g (some ⟨⟩) s' := Iff.rfl

@[simp] theorem sat_modify {Q : Post M σ PUnit} (f : σ → σ) :
    (modify f : Code S σ PUnit).Sat K D e stk Q g s ↔ Q g (some ⟨⟩) (f s) := Iff.rfl

@[simp] theorem sat_raise :
    (Code.raise : Code S σ α).Sat K D e stk Q g s ↔ Q g none s := Iff.rfl

@[simp] theorem sat_halt (w : S.Fault) :
    (Code.halt w : Code S σ α).Sat K D e stk Q g s ↔ True := Iff.rfl

/-- An exception passes through what cleans up. -/
@[simp] theorem sat_onRaise (m : Code S σ α) (clean : Code S σ Unit) :
    (m.onRaise clean).Sat K D e stk Q g s ↔
      m.Sat K D e stk (fun g v s => match v with
        | some a => Q g (some a) s
        | none => clean.Sat K D e stk (fun g _ s => Q g none s) g s) g s :=
  Act.sat_onRaise clean (m s) g

/-- Any answer that is permitted may come. -/
@[simp] theorem sat_ask (q : S.Query) {Q : Post M σ (S.Answer q)} :
    (Code.ask q : Code S σ _).Sat K D e stk Q g s ↔
      ∀ a, D.permits stk g s (.asked q a) = true →
        K.Every g s (.asked q a) ∧ Q (M.next g (.asked q a)) (some a) s := Iff.rfl

/-- Before a call the contract has to hold, and it holds again when control comes back. -/
@[simp] theorem sat_call (c : S.Call) {Q : Post M σ (S.Result c)} :
    (Code.call c : Code S σ _).Sat K D e stk Q g s ↔
      K.Every g s (.calls e c) ∧ K.At (c :: stk) (M.next g (.calls e c)) s ∧
        ∀ r g' s', K.At (c :: stk) g' s' → K.Rely (c :: stk) (M.next g (.calls e c)) s g' s' →
          D.permits (c :: stk) g' s' (.resumes c r) = true →
          K.Every g' s' (.resumes c r) ∧ Q (M.next g' (.resumes c r)) (some r) s' := Iff.rfl

@[simp] theorem sat_ite (p : Prop) [Decidable p] (m m' : Code S σ α) :
    (if p then m else m').Sat K D e stk Q g s ↔
      (p → m.Sat K D e stk Q g s) ∧ (¬p → m'.Sat K D e stk Q g s) := by
  by_cases h : p <;> simp [h]

end Code

/-! ## Soundness -/

/-- How an entry point must end: the event of leaving is in order, the promise
holds again and the entry as a whole did no more than the pending calls allow. -/
def Contract.post (K : Contract M σ) (stk : List S.Call) (e : S.Entry) (g₀ : M.Obs) (s₀ : σ) :
    Post M σ S.Value := fun g v s =>
  K.Every g s (.leave e v) ∧ K.At stk (M.next g (.leave e v)) s ∧
    K.Rely stk g₀ s₀ (M.next g (.leave e v)) s

/-- Every entry point meets the contract, whenever the discipline permits
entering it. -/
def Contract.Meets (K : Contract M σ) (D : Discipline M σ) (code : S.Entry → Code S σ S.Value) :
    Prop :=
  ∀ stk e g s, D.permits stk g s (.enter e) = true → K.At stk g s →
    K.Every g s (.enter e) ∧ (code e).Sat K D e stk (K.post stk e g s) (M.next g (.enter e)) s

/-- The environment has control over the suspended bodies `fs`: each of them
goes on to meet the contract whatever it is given back within the rely. -/
inductive Resumable (K : Contract M σ) (D : Discipline M σ) :
    List (Frame S σ) → M.Obs → σ → Prop where
  | nil {g : M.Obs} {s : σ} (hat : K.At [] g s) : Resumable K D [] g s
  | cons {f : Frame S σ} {fs : List (Frame S σ)} {g₀ g₁ g : M.Obs} {s₀ s₁ s : σ}
      (below : Resumable K D fs g₀ s₀)
      (hat : K.At (f.call :: pending fs) g s)
      (hrely : K.Rely (f.call :: pending fs) g₁ s₁ g s)
      (goes : ∀ r g' s', K.At (f.call :: pending fs) g' s' →
        K.Rely (f.call :: pending fs) g₁ s₁ g' s' →
        D.permits (f.call :: pending fs) g' s' (.resumes f.call r) = true →
        K.Every g' s' (.resumes f.call r) ∧
          (f.next r s').Sat K D f.entry (pending fs) (K.post (pending fs) f.entry g₀ s₀)
            (M.next g' (.resumes f.call r))) :
      Resumable K D (f :: fs) g s

/-- With control in the environment, the promise holds. -/
theorem Resumable.at {fs : List (Frame S σ)} {g : M.Obs} {s : σ} (h : Resumable K D fs g s) :
    K.At (pending fs) g s := by
  cases h with
  | nil hat => exact hat
  | cons _ hat _ _ => exact hat

/-- The environment stays within the rely: the suspended bodies stay resumable. -/
theorem Resumable.advance {fs : List (Frame S σ)} {g g' : M.Obs} {s s' : σ}
    (h : Resumable K D fs g s) (hat : K.At (pending fs) g' s')
    (hrely : K.Rely (pending fs) g s g' s') : Resumable K D fs g' s' := by
  cases h with
  | nil _ => exact .nil hat
  | cons below _ hr goes =>
    exact .cons below hat (K.trans _ _ _ _ _ _ _ hr hrely) goes

/-- What a configuration of a run satisfies. -/
def Config.Good (K : Contract M σ) (D : Discipline M σ) (cfg : Config S σ) : Prop :=
  cfg.log.Obeys M K.Every ∧
    (cfg.fault = none → Resumable K D cfg.frames (M.run cfg.log) cfg.state)

/-- A stretch that starts well ends well: the log still obeys the contract, and
the stop is one of the four the contract allows. -/
theorem Act.Sat.exec_good {e : S.Entry} {fs : List (Frame S σ)} {g₀ : M.Obs} {s₀ : σ}
    (below : Resumable K D fs g₀ s₀) {o : Answers S} :
    ∀ {m : Act S σ S.Value} {n : ℕ} {l : Log S σ} {out : Log S σ × Stop S σ S.Value},
      l.Obeys M K.Every → m.Sat K D e (pending fs) (K.post (pending fs) e g₀ s₀) (M.run l) →
      m.exec D (pending fs) o n l = some out → (settle e fs out).Good K D := by
  intro m
  induction m with
  | done s a =>
    intro n l out hl hm hx
    simp only [Act.exec, Option.some.injEq] at hx
    subst hx
    obtain ⟨hev, hat, hrely⟩ := hm
    refine ⟨hl.concat hev, fun _ => ?_⟩
    simp only [settle, Monitor.run_concat]
    exact below.advance hat hrely
  | raise s =>
    intro n l out hl hm hx
    simp only [Act.exec, Option.some.injEq] at hx
    subst hx
    obtain ⟨hev, hat, hrely⟩ := hm
    refine ⟨hl.concat hev, fun _ => ?_⟩
    simp only [settle, Monitor.run_concat]
    exact below.advance hat hrely
  | halt s w =>
    intro n l out hl hm hx
    simp only [Act.exec, Option.some.injEq] at hx
    subst hx
    exact ⟨hl, fun h => by simp [settle] at h⟩
  | ask s q k ih =>
    intro n l out hl hm hx
    simp only [Act.exec] at hx
    split at hx
    · rename_i hok
      obtain ⟨hev, hk⟩ := hm _ hok
      refine ih _ (hl.concat hev) ?_ hx
      rwa [Monitor.run_concat]
    · cases hx
  | call s c k ih =>
    intro n l out hl hm hx
    simp only [Act.exec, Option.some.injEq] at hx
    subst hx
    obtain ⟨hev, hat, hgoes⟩ := hm
    -- the rest of the body waits under the call
    refine ⟨hl.concat hev, fun _ => ?_⟩
    simp only [settle, Monitor.run_concat]
    exact .cons below hat (K.refl _ _ _) hgoes

/-- One move keeps a configuration good. -/
theorem Config.Good.step {code : S.Entry → Code S σ S.Value} (hcode : K.Meets D code)
    {cfg cfg' : Config S σ} (h : cfg.Good K D) {m : Move S} (hm : cfg.step D code m = some cfg') :
    cfg'.Good K D := by
  obtain ⟨hlog, hres⟩ := h
  cases m with
  | enter e o =>
    simp only [Config.step] at hm
    split at hm
    · rename_i hok
      obtain ⟨hfault, hperm⟩ := hok
      -- a new entry point starts on top of what is pending
      have below := hres (Option.isNone_iff_eq_none.mp hfault)
      obtain ⟨hev, hsat⟩ := hcode _ _ _ _ hperm below.at
      simp only [Option.map_eq_some_iff] at hm
      obtain ⟨out, hout, rfl⟩ := hm
      refine Act.Sat.exec_good below (hlog.concat hev) ?_ hout
      rwa [Monitor.run_concat]
    · cases hm
  | resume r o =>
    simp only [Config.step] at hm
    split at hm
    · cases hm
    · rename_i f fs hfs
      split at hm
      · rename_i hok
        obtain ⟨hfault, hperm⟩ := hok
        have hr := hres (Option.isNone_iff_eq_none.mp hfault)
        rw [hfs] at hr
        cases hr with
        -- what waits goes on with what the environment has kept
        | cons below hat hrely goes =>
          obtain ⟨hev, hsat⟩ := goes _ _ _ hat hrely hperm
          simp only [Option.map_eq_some_iff] at hm
          obtain ⟨out, hout, rfl⟩ := hm
          refine Act.Sat.exec_good below (hlog.concat hev) ?_ hout
          rwa [Monitor.run_concat]
      · cases hm

/-- **Soundness of contracts.**  When the promise holds at the start and every
entry point meets the contract, every reachable configuration is good. -/
theorem Contract.sound {code : S.Entry → Code S σ S.Value} (hcode : K.Meets D code) {s₀ : σ}
    (hinit : K.At [] M.init s₀) {cfg : Config S σ} (h : Reachable D code s₀ cfg) :
    cfg.Good K D := by
  induction h with
  | start => exact ⟨Log.obeys_nil M _, fun _ => .nil hinit⟩
  | step _ m hm ih => exact ih.step hcode hm

/-- The events of every run satisfy the contract. -/
theorem Contract.log_obeys {code : S.Entry → Code S σ S.Value} (hcode : K.Meets D code) {s₀ : σ}
    (hinit : K.At [] M.init s₀) {cfg : Config S σ} (h : Reachable D code s₀ cfg) :
    cfg.log.Obeys M K.Every :=
  (Contract.sound hcode hinit h).1

/-- The promise holds whenever the environment has control. -/
theorem Contract.holds_at {code : S.Entry → Code S σ S.Value} (hcode : K.Meets D code) {s₀ : σ}
    (hinit : K.At [] M.init s₀) {cfg : Config S σ} (h : Reachable D code s₀ cfg)
    (hf : cfg.fault = none) : K.At (pending cfg.frames) (M.run cfg.log) cfg.state :=
  ((Contract.sound hcode hinit h).2 hf).at

/-! ## Contracts on top of contracts -/

/-- What `K` promises and relies on covers what `K₁` does. -/
structure Contract.Refines (K K₁ : Contract M σ) : Prop where
  promise : ∀ stk g s, K.At stk g s → K₁.At stk g s
  rely : ∀ stk g s g' s', K.Rely stk g s g' s' → K₁.Rely stk g s g' s'

/-- A body that meets both contracts ends as both say. -/
theorem Act.Sat.and {K₁ : Contract M σ} (hle : K.Refines K₁) {Q₁ Q : Post M σ α} :
    ∀ {m : Act S σ α} {g : M.Obs}, m.Sat K₁ D e stk Q₁ g → m.Sat K D e stk Q g →
      m.Sat K D e stk (fun g v s => Q₁ g v s ∧ Q g v s) g := by
  intro m
  induction m with
  | done s a => intro g h₁ h; exact ⟨h₁, h⟩
  | raise s => intro g h₁ h; exact ⟨h₁, h⟩
  | halt s w => intro g _ _; trivial
  | ask s q k ih =>
    intro g h₁ h a ha
    exact ⟨(h a ha).1, ih a (h₁ a ha).2 (h a ha).2⟩
  | call s c k ih =>
    intro g h₁ h
    refine ⟨h.1, h.2.1, fun r g' s' hat hrely hok => ?_⟩
    have hk₁ := h₁.2.2 r g' s' (hle.promise _ _ _ hat) (hle.rely _ _ _ _ _ hrely) hok
    have hk := h.2.2 r g' s' hat hrely hok
    exact ⟨hk.1, ih r s' hk₁.2 hk.2⟩

/-- To meet `K` on top of a contract `K₁` that is met already, an entry point has to
keep only the part `R` of the rely that `K₁` leaves open. -/
theorem Contract.Meets.above {K₁ : Contract M σ} {code : S.Entry → Code S σ S.Value}
    (h₁ : K₁.Meets D code) (hle : K.Refines K₁)
    {R : List S.Call → M.Obs → σ → M.Obs → σ → Prop}
    (hrely : ∀ stk g s g' s', K₁.Rely stk g s g' s' → R stk g s g' s' → K.Rely stk g s g' s')
    (h : ∀ stk e g s, D.permits stk g s (.enter e) = true → K.At stk g s →
      K.Every g s (.enter e) ∧ (code e).Sat K D e stk (fun g' v s' =>
        K.Every g' s' (.leave e v) ∧ K.At stk (M.next g' (.leave e v)) s' ∧
          R stk g s (M.next g' (.leave e v)) s') (M.next g (.enter e)) s) : K.Meets D code := by
  intro stk e g s hperm hat
  obtain ⟨hev, hsat⟩ := h stk e g s hperm hat
  obtain ⟨_, hsat₁⟩ := h₁ stk e g s hperm (hle.promise _ _ _ hat)
  refine ⟨hev, (Act.Sat.and hle hsat₁ hsat).mono fun g' v s' hpost => ?_⟩
  exact ⟨hpost.2.1, hpost.2.2.1, hrely _ _ _ _ _ hpost.1.2.2 hpost.2.2.2⟩

/-- A monitor that observes nothing. -/
def Monitor.blind (S : Signature) : Monitor S where
  Obs := Unit
  init := ()
  next := fun _ _ => ()

/-- A contract about the state alone, under any monitor. -/
def Contract.see (K : Contract (Monitor.blind S) σ) (M : Monitor S) : Contract M σ where
  At := fun stk _ s => K.At stk () s
  Rely := fun stk _ s _ s' => K.Rely stk () s () s'
  Every := fun _ s x => K.Every () s x
  refl := fun stk _ s => K.refl stk () s
  trans := fun stk _ s₁ _ s₂ _ s₃ => K.trans stk () s₁ () s₂ () s₃

/-- What a body does to the state does not depend on who observes it. -/
theorem Act.Sat.see {K₀ : Contract (Monitor.blind S) σ} {D₀ : Discipline (Monitor.blind S) σ}
    (hperm : ∀ stk g s x, D.permits stk g s x = true → D₀.permits stk () s x = true)
    {Q : Post (Monitor.blind S) σ α} :
    ∀ {m : Act S σ α} (g : M.Obs), m.Sat K₀ D₀ e stk Q () →
      m.Sat (K₀.see M) D e stk (fun _ v s => Q () v s) g := by
  intro m
  induction m with
  | done s a => intro g h; exact h
  | raise s => intro g h; exact h
  | halt s w => intro g _; trivial
  | ask s q k ih =>
    intro g h a ha
    obtain ⟨hev, hk⟩ := h a (hperm _ _ _ _ ha)
    exact ⟨hev, ih a _ hk⟩
  | call s c k ih =>
    intro g h
    refine ⟨h.1, h.2.1, fun r g' s' hat hrely hok => ?_⟩
    have hk := h.2.2 r () s' hat hrely (hperm _ _ _ _ hok)
    exact ⟨hk.1, ih r s' _ hk.2⟩

/-- What holds without observations holds with any. -/
theorem Contract.Meets.see {K₀ : Contract (Monitor.blind S) σ}
    {D₀ : Discipline (Monitor.blind S) σ} {code : S.Entry → Code S σ S.Value}
    (h : K₀.Meets D₀ code)
    (hperm : ∀ stk g s x, D.permits stk g s x = true → D₀.permits stk () s x = true) :
    (K₀.see M).Meets D code := by
  intro stk e g s hok hat
  obtain ⟨hev, hsat⟩ := h stk e () s (hperm _ _ _ _ hok) hat
  exact ⟨hev, Act.Sat.see hperm _ hsat⟩

/-- `π` reads off an observation of `M` what `M₀` has observed. -/
structure Monitor.Reads (M M₀ : Monitor S) (π : M.Obs → M₀.Obs) : Prop where
  init : π M.init = M₀.init
  next : ∀ g x, π (M.next g x) = M₀.next (π g) x

/-- A contract about a part of what is observed. -/
def Contract.pull {M₀ : Monitor S} (K : Contract M₀ σ) (π : M.Obs → M₀.Obs) : Contract M σ where
  At := fun stk g s => K.At stk (π g) s
  Rely := fun stk g s g' s' => K.Rely stk (π g) s (π g') s'
  Every := fun g s x => K.Every (π g) s x
  refl := fun stk g s => K.refl stk (π g) s
  trans := fun stk g₁ s₁ g₂ s₂ g₃ s₃ => K.trans stk (π g₁) s₁ (π g₂) s₂ (π g₃) s₃

section pull

variable {M₀ : Monitor S} {K₀ : Contract M₀ σ} {D₀ : Discipline M₀ σ} {π : M.Obs → M₀.Obs}
  (hπ : M.Reads M₀ π)
  (hperm : ∀ stk g s x, D.permits stk g s x = true → D₀.permits stk (π g) s x = true)
include hπ hperm

/-- Observing more does not hurt. -/
theorem Act.Sat.pull {Q : Post M₀ σ α} :
    ∀ {m : Act S σ α} (g : M.Obs), m.Sat K₀ D₀ e stk Q (π g) →
      m.Sat (K₀.pull π) D e stk (fun g v s => Q (π g) v s) g := by
  intro m
  induction m with
  | done s a => intro g h; exact h
  | raise s => intro g h; exact h
  | halt s w => intro g _; trivial
  | ask s q k ih =>
    intro g h a ha
    obtain ⟨hev, hk⟩ := h a (hperm _ _ _ _ ha)
    refine ⟨hev, ih a _ ?_⟩
    rw [hπ.next]
    exact hk
  | call s c k ih =>
    intro g h
    have hnext := hπ.next g (.calls e c)
    refine ⟨h.1, ?_, fun r g' s' hat hrely hok => ?_⟩
    · show K₀.At (c :: stk) (π (M.next g (.calls e c))) s
      rw [hnext]
      exact h.2.1
    · have hrely' : K₀.Rely (c :: stk) (M₀.next (π g) (.calls e c)) s (π g') s' := by
        rw [← hnext]
        exact hrely
      obtain ⟨hev, hk⟩ := h.2.2 r (π g') s' hat hrely' (hperm _ _ _ _ hok)
      refine ⟨hev, ih r s' _ ?_⟩
      rw [hπ.next]
      exact hk

/-- What holds of a part of the observations holds of all. -/
theorem Contract.Meets.pull {code : S.Entry → Code S σ S.Value} (h : K₀.Meets D₀ code) :
    (K₀.pull π).Meets D code := by
  intro stk e g s hok hat
  obtain ⟨hev, hsat⟩ := h stk e (π g) s (hperm _ _ _ _ hok) hat
  refine ⟨hev, ?_⟩
  rw [← hπ.next] at hsat
  refine (Act.Sat.pull hπ hperm _ hsat).mono fun g' v s' hpost => ?_
  obtain ⟨hleave, hpromise, hrely⟩ := hpost
  rw [← hπ.next] at hpromise hrely
  exact ⟨hleave, hpromise, hrely⟩

end pull

/-! ## Calls inside of which nothing happens -/

/-- The contract that also relies on nothing happening while the calls of `still` are pending. -/
def Contract.still (K : Contract M σ) (still : List S.Call → Bool) : Contract M σ where
  At := K.At
  Rely := fun stk g s g' s' => K.Rely stk g s g' s' ∧ (still stk = true → g' = g ∧ s' = s)
  Every := K.Every
  refl := fun stk g s => ⟨K.refl stk g s, fun _ => ⟨rfl, rfl⟩⟩
  trans := by
    intro stk g₁ s₁ g₂ s₂ g₃ s₃ h h'
    refine ⟨K.trans _ _ _ _ _ _ _ h.1 h'.1, fun hstill => ?_⟩
    obtain ⟨hg, hs⟩ := h.2 hstill
    obtain ⟨hg', hs'⟩ := h'.2 hstill
    exact ⟨hg'.trans hg, hs'.trans hs⟩

/-- Nothing happens inside of the calls that are still. -/
theorem Act.Sat.still (st : List S.Call → Bool) {Q : Post M σ α} :
    ∀ {m : Act S σ α} {g : M.Obs}, m.Sat K D e stk Q g → m.Sat (K.still st) D e stk Q g := by
  intro m
  induction m with
  | done s a => intro g h; exact h
  | raise s => intro g h; exact h
  | halt s w => intro g _; trivial
  | ask s q k ih =>
    intro g h a ha
    exact ⟨(h a ha).1, ih a (h a ha).2⟩
  | call s c k ih =>
    intro g h
    refine ⟨h.1, h.2.1, fun r g' s' hat hrely hok => ?_⟩
    have hk := h.2.2 r g' s' hat hrely.1 hok
    exact ⟨hk.1, ih r s' hk.2⟩

/-- An entry point that is entered where something may happen. -/
theorem Contract.post_still {st : List S.Call → Bool} {e : S.Entry} (hstill : st stk = false)
    {g₀ g : M.Obs} {s₀ s : σ} {v : Option S.Value} (h : K.post stk e g₀ s₀ g v s) :
    (K.still st).post stk e g₀ s₀ g v s := by
  refine ⟨h.1, h.2.1, h.2.2, fun hst => ?_⟩
  rw [hstill] at hst
  cases hst

/-! ## What holds whenever control passes -/

/-- `P` holds of the state of an event at which control passes between the component
and its environment, with the observation that goes with that state. -/
def Monitor.AtPassage (M : Monitor S) (P : M.Obs → σ → Prop) (g : M.Obs) (s : σ) :
    Label S → Prop
  | .enter _ => P g s
  | .leave e v => P (M.next g (.leave e v)) s
  | .asked _ _ => True
  | .calls e c => P (M.next g (.calls e c)) s
  | .resumes _ _ => P g s

/-- A decidable property of the states in which control passes. -/
theorem Monitor.passes_of_atPassage {P : M.Obs → σ → Prop} {p : M.Obs → σ → Bool}
    (hp : ∀ g s, P g s → p g s = true) {g : M.Obs} {s : σ} {x : Label S}
    (h : M.AtPassage P g s x) : M.passes p g s x = true := by
  cases x with
  | asked q a => rfl
  | _ => exact hp _ _ h

/-- The contract that also asks for `P` at every passage. -/
def Contract.passing (K : Contract M σ) (P : M.Obs → σ → Prop) : Contract M σ where
  At := K.At
  Rely := K.Rely
  Every := fun g s x => K.Every g s x ∧ M.AtPassage P g s x
  refl := K.refl
  trans := K.trans

/-- What the contract gives at a passage may be promised there. -/
theorem Act.Sat.passing {P : M.Obs → σ → Prop} (hP : ∀ stk g s, K.At stk g s → P g s) {g₀ : M.Obs}
    {s₀ : σ} : ∀ {m : Act S σ S.Value} {g : M.Obs}, m.Sat K D e stk (K.post stk e g₀ s₀) g →
      m.Sat (K.passing P) D e stk ((K.passing P).post stk e g₀ s₀) g := by
  intro m
  induction m with
  | done s a => intro g h; exact ⟨⟨h.1, hP _ _ _ h.2.1⟩, h.2⟩
  | raise s => intro g h; exact ⟨⟨h.1, hP _ _ _ h.2.1⟩, h.2⟩
  | halt s w => intro g _; trivial
  | ask s q k ih =>
    intro g h a ha
    obtain ⟨hev, hk⟩ := h a ha
    exact ⟨⟨hev, trivial⟩, ih a hk⟩
  | call s c k ih =>
    intro g h
    refine ⟨⟨h.1, hP _ _ _ h.2.1⟩, h.2.1, fun r g' s' hat hrely hok => ?_⟩
    obtain ⟨hev, hk⟩ := h.2.2 r g' s' hat hrely hok
    exact ⟨⟨hev, hP _ _ _ hat⟩, ih r s' hk⟩

/-- What the promise of a contract implies holds at every passage of every run. -/
theorem Contract.log_passes {code : S.Entry → Code S σ S.Value} (hcode : K.Meets D code)
    {P : M.Obs → σ → Prop} (hP : ∀ stk g s, K.At stk g s → P g s) {s₀ : σ}
    (hinit : K.At [] M.init s₀) {cfg : Config S σ} (h : Reachable D code s₀ cfg) :
    cfg.log.Obeys M (M.AtPassage P) := by
  have hpassing : (K.passing P).Meets D code := by
    intro stk e g s hperm hat
    obtain ⟨hev, hsat⟩ := hcode stk e g s hperm hat
    exact ⟨⟨hev, hP _ _ _ hat⟩, Act.Sat.passing hP hsat⟩
  intro before x after hl
  exact (Contract.log_obeys hpassing hinit h before x after hl).2

end Reentrant
