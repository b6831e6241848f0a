/-
# Components that call out and are called back

The general machine under the development.  A component has a state, a list of
entry points and a body for each.  A body may *ask* the environment a question
that is answered on the spot, or *call* the environment; while a call is
pending the environment has control and may enter the component again, to any
depth, before it lets the call return.

* `Act` is a body after its first look at the state: a tree of questions and
  calls (`Code` is the state monad over it);
* `Config` is a state, the stack of suspended bodies and the log of what has
  happened; `Config.step` is one move of the environment;
* a `Monitor` is an automaton that reads the log, a `Discipline` says which
  moves the environment may make, and `Reachable` collects the configurations
  of all runs.

Nothing in this module is about a particular component.
-/
import Mathlib.Data.List.Basic

namespace Reentrant

/-! ## Signatures and bodies -/

/-- What a component exchanges with its environment: questions with their
answers, calls with their results, entry points with their values, and the
reasons for which a body can stop for good. -/
structure Signature where
  Query : Type
  Answer : Query → Type
  Call : Type
  Result : Call → Type
  Entry : Type
  Value : Type
  Fault : Type

variable {S : Signature} {σ α β : Type}

/-- A running body.  The state is stored at every point where the environment
sees it; after a call it is whatever the environment left. -/
inductive Act (S : Signature) (σ α : Type) : Type where
  | done (s : σ) (a : α)
  | raise (s : σ)
  | halt (s : σ) (w : S.Fault)
  | ask (s : σ) (q : S.Query) (k : S.Answer q → Act S σ α)
  | call (s : σ) (c : S.Call) (k : S.Result c → σ → Act S σ α)

/-- Run `m`, then `f` on its value; an exception or a fault skips `f`. -/
def Act.bind : Act S σ α → (α → σ → Act S σ β) → Act S σ β
  | .done s a, f => f a s
  | .raise s, _ => .raise s
  | .halt s w, _ => .halt s w
  | .ask s q k, f => .ask s q (fun a => (k a).bind f)
  | .call s c k, f => .call s c (fun r s' => (k r s').bind f)

/-- Run `clean` when `m` ends with an exception, which then goes on. -/
def Act.onRaise : Act S σ α → (σ → Act S σ Unit) → Act S σ α
  | .done s a, _ => .done s a
  | .raise s, clean => (clean s).bind (fun _ s' => .raise s')
  | .halt s w, _ => .halt s w
  | .ask s q k, clean => .ask s q (fun a => (k a).onRaise clean)
  | .call s c k, clean => .call s c (fun r s' => (k r s').onRaise clean)

/-- A body that has not looked at the state yet. -/
def Code (S : Signature) (σ α : Type) : Type := σ → Act S σ α

namespace Code

instance : Monad (Code S σ) where
  pure a := fun s => .done s a
  bind m f := fun s => (m s).bind f

instance : MonadStateOf σ (Code S σ) where
  get := fun s => .done s s
  set s' := fun _ => .done s' ()
  modifyGet f := fun s => .done (f s).2 (f s).1

/-- Ask a question; the environment does not get control. -/
def ask (q : S.Query) : Code S σ (S.Answer q) := fun s => .ask s q (fun a => .done s a)

/-- Call the environment, which may enter the component before it returns. -/
def call (c : S.Call) : Code S σ (S.Result c) := fun s => .call s c (fun r s' => .done s' r)

/-- Leave the entry point with an exception. -/
def raise : Code S σ α := fun s => .raise s

/-- Stop for good. -/
def halt (w : S.Fault) : Code S σ α := fun s => .halt s w

/-- Run `clean` when `m` ends with an exception, which then goes on. -/
def onRaise (m : Code S σ α) (clean : Code S σ Unit) : Code S σ α := fun s =>
  (m s).onRaise clean

end Code

/-! ## Logs and monitors -/

/-- One event of a run; a call comes with the entry point that makes it. -/
inductive Label (S : Signature) : Type where
  | enter (e : S.Entry)
  | leave (e : S.Entry) (v : Option S.Value)
  | asked (q : S.Query) (a : S.Answer q)
  | calls (e : S.Entry) (c : S.Call)
  | resumes (c : S.Call) (r : S.Result c)

/-- The events of a run in order, each with the state it happened in. -/
abbrev Log (S : Signature) (σ : Type) : Type := List (σ × Label S)

/-- A deterministic automaton over events. -/
structure Monitor (S : Signature) where
  Obs : Type
  init : Obs
  next : Obs → Label S → Obs

/-- What the monitor has observed after a log. -/
def Monitor.run (M : Monitor S) (l : Log S σ) : M.Obs :=
  l.foldl (fun g x => M.next g x.2) M.init

@[simp] theorem Monitor.run_nil (M : Monitor S) : M.run ([] : Log S σ) = M.init := rfl

/-- The last event is observed last. -/
@[simp] theorem Monitor.run_concat (M : Monitor S) (l : Log S σ) (x : σ × Label S) :
    M.run (l ++ [x]) = M.next (M.run l) x.2 := by
  simp [Monitor.run]

/-- Every event of the log satisfies `P` in the observation made before it. -/
def Log.Obeys (M : Monitor S) (P : M.Obs → σ → Label S → Prop) (l : Log S σ) : Prop :=
  ∀ before x after, l = before ++ x :: after → P (M.run before) x.1 x.2

theorem Log.obeys_nil (M : Monitor S) (P : M.Obs → σ → Label S → Prop) :
    Log.Obeys M P ([] : Log S σ) := by
  intro before x after h
  simp at h

/-- A log obeys `P` when its beginning does and its last event satisfies `P`. -/
theorem Log.Obeys.concat {M : Monitor S} {P : M.Obs → σ → Label S → Prop} {l : Log S σ}
    (hl : Log.Obeys M P l) {x : σ × Label S} (hx : P (M.run l) x.1 x.2) :
    Log.Obeys M P (l ++ [x]) := by
  intro before y after h
  rcases List.eq_nil_or_concat after with rfl | ⟨after', z, rfl⟩
  · obtain ⟨rfl, hy⟩ := List.append_inj' h rfl
    simp only [List.cons.injEq, and_true] at hy
    rwa [← hy]
  · rw [List.concat_eq_append, ← List.cons_append, ← List.append_assoc] at h
    exact hl before y after' (List.append_inj' h rfl).1

/-- Whether a log obeys a decided `P`, from observation `g` on. -/
def Log.check (M : Monitor S) (P : M.Obs → σ → Label S → Bool) : M.Obs → Log S σ → Bool
  | _, [] => true
  | g, x :: l => P g x.1 x.2 && Log.check M P (M.next g x.2) l

/-- A log that obeys `P` passes the check, after any beginning. -/
theorem Log.Obeys.check_from {M : Monitor S} {P : M.Obs → σ → Label S → Bool} (l : Log S σ) :
    ∀ before : Log S σ, Log.Obeys M (fun g s x => P g s x = true) (before ++ l) →
      Log.check M P (M.run before) l = true := by
  induction l with
  | nil => intro before _; rfl
  | cons x l ih =>
    intro before h
    have hx := h before x l rfl
    have hl := ih (before ++ [x]) (by rwa [List.append_assoc, List.singleton_append])
    rw [Monitor.run_concat] at hl
    simp [Log.check, hx, hl]

/-- A decidable property can be checked. -/
theorem Log.Obeys.check {M : Monitor S} {P : M.Obs → σ → Label S → Bool} {l : Log S σ}
    (h : Log.Obeys M (fun g s x => P g s x = true) l) : Log.check M P M.init l = true :=
  check_from l [] h

/-- A log that passes the check goes on obeying `P`, after a beginning that does. -/
theorem Log.Obeys.of_check_from {M : Monitor S} {P : M.Obs → σ → Label S → Bool} (l : Log S σ) :
    ∀ before : Log S σ, Log.Obeys M (fun g s x => P g s x = true) before →
      Log.check M P (M.run before) l = true →
      Log.Obeys M (fun g s x => P g s x = true) (before ++ l) := by
  induction l with
  | nil =>
    intro before hbefore _
    rwa [List.append_nil]
  | cons x l ih =>
    intro before hbefore hcheck
    simp only [Log.check, Bool.and_eq_true] at hcheck
    obtain ⟨hx, hl⟩ := hcheck
    have hrest := ih (before ++ [x]) (hbefore.concat hx) (by rwa [Monitor.run_concat])
    rwa [List.append_assoc, List.singleton_append] at hrest

/-- What has been checked holds. -/
theorem Log.Obeys.of_check {M : Monitor S} {P : M.Obs → σ → Label S → Bool} {l : Log S σ}
    (h : Log.check M P M.init l = true) : Log.Obeys M (fun g s x => P g s x = true) l :=
  of_check_from l [] (Log.obeys_nil M _) h

/-- Whether `P` holds of the state of an event at which control passes between the
component and its environment, with the observation that goes with that state. -/
def Monitor.passes (M : Monitor S) (P : M.Obs → σ → Bool) (g : M.Obs) (s : σ) : Label S → Bool
  | .enter _ => P g s
  | .leave e v => P (M.next g (.leave e v)) s
  | .asked _ _ => true
  | .calls e c => P (M.next g (.calls e c)) s
  | .resumes _ _ => P g s

/-! ## The machine -/

/-- Which moves the environment may make: entering, answering and letting a
call return, given the pending calls (innermost first), the observation so far
and the state. -/
structure Discipline (M : Monitor S) (σ : Type) where
  permits : List S.Call → M.Obs → σ → Label S → Bool

/-- How the run of a body up to its next call ends. -/
inductive Stop (S : Signature) (σ α : Type) : Type where
  | done (s : σ) (a : α)
  | raise (s : σ)
  | halt (s : σ) (w : S.Fault)
  | call (s : σ) (c : S.Call) (k : S.Result c → σ → Act S σ α)

/-- The answers of the environment to the questions of one stretch, by rank. -/
abbrev Answers (S : Signature) : Type := ℕ → (q : S.Query) → S.Answer q

/-- Run a body up to its next call, asking the `n`-th question next. -/
def Act.exec {M : Monitor S} (D : Discipline M σ) (stk : List S.Call) (o : Answers S) :
    Act S σ α → ℕ → Log S σ → Option (Log S σ × Stop S σ α)
  | .done s a, _, l => some (l, .done s a)
  | .raise s, _, l => some (l, .raise s)
  | .halt s w, _, l => some (l, .halt s w)
  | .call s c k, _, l => some (l, .call s c k)
  | .ask s q k, n, l =>
    if D.permits stk (M.run l) s (.asked q (o n q)) then
      (k (o n q)).exec D stk o (n + 1) (l ++ [(s, .asked q (o n q))])
    else none

/-- A body suspended at a call, with the entry point it belongs to. -/
structure Frame (S : Signature) (σ : Type) where
  entry : S.Entry
  call : S.Call
  next : S.Result call → σ → Act S σ S.Value

/-- A component between two moves of the environment. -/
structure Config (S : Signature) (σ : Type) where
  state : σ
  frames : List (Frame S σ)
  log : Log S σ
  fault : Option S.Fault

/-- The calls the environment has not returned from, innermost first. -/
def pending (fs : List (Frame S σ)) : List S.Call := fs.map Frame.call

@[simp] theorem pending_nil : pending ([] : List (Frame S σ)) = [] := rfl

@[simp] theorem pending_cons (f : Frame S σ) (fs : List (Frame S σ)) :
    pending (f :: fs) = f.call :: pending fs := rfl

/-- The configuration in which a stretch of entry `e` over `fs` leaves the
component. -/
def settle (e : S.Entry) (fs : List (Frame S σ)) :
    Log S σ × Stop S σ S.Value → Config S σ
  | (l, .done s v) => ⟨s, fs, l ++ [(s, .leave e (some v))], none⟩
  | (l, .raise s) => ⟨s, fs, l ++ [(s, .leave e none)], none⟩
  | (l, .halt s w) => ⟨s, fs, l, some w⟩
  | (l, .call s c k) => ⟨s, ⟨e, c, k⟩ :: fs, l ++ [(s, .calls e c)], none⟩

/-- A move of the environment: enter an entry point, or let the innermost call
return.  The results are given for every call, of which the pending one is
taken. -/
inductive Move (S : Signature) : Type where
  | enter (e : S.Entry) (o : Answers S)
  | resume (r : (c : S.Call) → S.Result c) (o : Answers S)

/-- One move and the stretch of the component that follows it. -/
def Config.step {M : Monitor S} (D : Discipline M σ) (code : S.Entry → Code S σ S.Value)
    (cfg : Config S σ) : Move S → Option (Config S σ)
  | .enter e o =>
    if cfg.fault.isNone ∧ D.permits (pending cfg.frames) (M.run cfg.log) cfg.state (.enter e) then
      ((code e cfg.state).exec D (pending cfg.frames) o 0
        (cfg.log ++ [(cfg.state, .enter e)])).map (settle e cfg.frames)
    else none
  | .resume r o =>
    match cfg.frames with
    | [] => none
    | f :: fs =>
      if cfg.fault.isNone ∧ D.permits (f.call :: pending fs) (M.run cfg.log) cfg.state
          (.resumes f.call (r f.call)) then
        ((f.next (r f.call) cfg.state).exec D (pending fs) o 0
          (cfg.log ++ [(cfg.state, .resumes f.call (r f.call))])).map (settle f.entry fs)
      else none

/-- The configuration before the first move. -/
def Config.start (s : σ) : Config S σ := ⟨s, [], [], none⟩

/-- The configurations of all runs from `s₀`. -/
inductive Reachable {M : Monitor S} (D : Discipline M σ) (code : S.Entry → Code S σ S.Value)
    (s₀ : σ) : Config S σ → Prop where
  | start : Reachable D code s₀ (Config.start s₀)
  | step {cfg cfg' : Config S σ} (h : Reachable D code s₀ cfg) (m : Move S)
      (hm : cfg.step D code m = some cfg') : Reachable D code s₀ cfg'

/-- A whole run, move by move. -/
def Config.run {M : Monitor S} (D : Discipline M σ) (code : S.Entry → Code S σ S.Value)
    (cfg : Config S σ) : List (Move S) → Option (Config S σ)
  | [] => some cfg
  | m :: ms => (cfg.step D code m).bind (fun cfg' => cfg'.run D code ms)

/-- A run from a reachable configuration ends in a reachable configuration. -/
theorem Reachable.of_run {M : Monitor S} {D : Discipline M σ} {code : S.Entry → Code S σ S.Value}
    {s₀ : σ} (ms : List (Move S)) :
    ∀ {cfg cfg' : Config S σ}, Reachable D code s₀ cfg → cfg.run D code ms = some cfg' →
      Reachable D code s₀ cfg' := by
  induction ms with
  | nil =>
    intro cfg cfg' h hrun
    simp only [Config.run, Option.some.injEq] at hrun
    rwa [← hrun]
  | cons m ms ih =>
    intro cfg cfg' h hrun
    simp only [Config.run, Option.bind_eq_some_iff] at hrun
    obtain ⟨mid, hmid, hrest⟩ := hrun
    exact ih (h.step m hmid) hrest

/-- A run whose log passes the check obeys `P`. -/
theorem Config.run_obeys {M : Monitor S} {D : Discipline M σ} {code : S.Entry → Code S σ S.Value}
    {s₀ : σ} {P : M.Obs → σ → Label S → Bool} (ms : List (Move S))
    (hrun : ((Config.start s₀).run D code ms).map (fun cfg => Log.check M P M.init cfg.log) =
      some true) :
    ∃ cfg, (Config.start s₀).run D code ms = some cfg ∧
      Log.Obeys M (fun g s x => P g s x = true) cfg.log := by
  obtain ⟨cfg, hcfg, hcheck⟩ := Option.map_eq_some_iff.mp hrun
  exact ⟨cfg, hcfg, .of_check hcheck⟩

/-- A run whose log fails the check is a run that does not obey `P`. -/
theorem Reachable.not_obeys {M : Monitor S} {D : Discipline M σ}
    {code : S.Entry → Code S σ S.Value} {s₀ : σ} {P : M.Obs → σ → Label S → Bool}
    (ms : List (Move S))
    (hrun : ((Config.start s₀).run D code ms).map (fun cfg => Log.check M P M.init cfg.log) =
      some false) :
    ∃ cfg, Reachable D code s₀ cfg ∧ ¬ Log.Obeys M (fun g s x => P g s x = true) cfg.log := by
  obtain ⟨cfg, hcfg, hcheck⟩ := Option.map_eq_some_iff.mp hrun
  refine ⟨cfg, .of_run ms .start hcfg, fun hobeys => ?_⟩
  rw [hobeys.check] at hcheck
  cases hcheck

end Reentrant
