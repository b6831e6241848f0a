/-
# Calls that one task serves

Several tasks share a memory and an object that one of them owns.  Another task that calls the
object sends a request to the port of the owner and is blocked until it is answered.  The
request does not hold the arguments but says where in the memory they are, and the owner reads
and writes them there when it serves the request, which is later than the call.

A call is as good as one step all the same (`Step.served`): what it gives back, what it does to
the object and what it leaves in the memory is what serving it on the memory *of the call* gives
at one moment between the call and its end.  This rests on what a call lends: the part of the
memory that the request speaks of belongs to the request until the call ends.

Nothing in this module is about a particular object.
-/
import Mathlib.Data.List.Nodup
import Mathlib.Data.Set.Lattice
import Mathlib.Logic.Function.Basic
import Mathlib.Order.CompletePartialOrder
import NewtonTLS.Steps

namespace PortCalls

open Steps

/-! ## Objects -/

/-- An object, and how its owner serves requests: the reply, unless serving ends without one, the
object and the memory afterwards.  Serving looks at and writes to what the request `lends` only. -/
structure Service (World Work Request Reply Address Value : Type) : Type where
  work : Work → World → World
  serve : Request → World → (Address → Value) → Option Reply × World × (Address → Value)
  lends : Request → (Address → Value) → Set Address
  lends_congr : ∀ {q m m'}, (∀ a ∈ lends q m, m' a = m a) → lends q m' = lends q m
  serve_outside : ∀ {q w m a}, a ∉ lends q m → (serve q w m).2.2 a = m a
  serve_congr : ∀ {q w m m'}, (∀ a ∈ lends q m, m' a = m a) →
    (serve q w m').1 = (serve q w m).1 ∧ (serve q w m').2.1 = (serve q w m).2.1 ∧
      ∀ a ∈ lends q m, (serve q w m').2.2 a = (serve q w m).2.2 a

/-- What a task is doing.  A call that has not ended has lent a part of the memory. -/
inductive Status (Request Reply Address : Type) : Type where
  | running
  | waiting (q : Request) (lent : Set Address)
  | served (r : Option Reply) (lent : Set Address)

variable {Task World Work Request Reply Address Value : Type}

/-- What is lent. -/
def Status.lent : Status Request Reply Address → Set Address
  | .running => ∅
  | .waiting _ lent => lent
  | .served _ lent => lent

/-- The object, the memory, the tasks other than the owner, and the port: the tasks whose
requests are there, in the order in which they came. -/
structure State (Task World Request Reply Address Value : Type) : Type where
  world : World
  mem : Address → Value
  status : Task → Status Request Reply Address
  port : List Task

/-- What happens.  `resume` ends a call that is answered, `fail` one that is not, with an error;
`own` is a call by the owner itself, `work` something else that happens to the object, and
`write` something that a running task does to the memory. -/
inductive Action (Task Work Request Address Value : Type) : Type where
  | call (t : Task) (q : Request)
  | serve
  | resume (t : Task)
  | fail (t : Task)
  | own (q : Request)
  | work (k : Work)
  | write (m : Address → Value)

/-- No call has lent any of `F`. -/
def State.Free (s : State Task World Request Reply Address Value) (F : Set Address) : Prop :=
  ∀ t, Disjoint (s.status t).lent F

variable [DecidableEq Task]

/-- The steps.  Tasks lend and write only what has not been lent. -/
inductive Step (S : Service World Work Request Reply Address Value)
    (s : State Task World Request Reply Address Value) :
    Action Task Work Request Address Value → State Task World Request Reply Address Value →
      Prop where
  | call {t q} (hrunning : s.status t = .running) (hfree : s.Free (S.lends q s.mem)) :
      Step S s (.call t q)
        { s with
          status := Function.update s.status t (.waiting q (S.lends q s.mem))
          port := s.port ++ [t] }
  | serve {t port q lent} (hport : s.port = t :: port) (hwaiting : s.status t = .waiting q lent) :
      Step S s .serve
        { world := (S.serve q s.world s.mem).2.1
          mem := (S.serve q s.world s.mem).2.2
          status := Function.update s.status t (.served (S.serve q s.world s.mem).1 lent)
          port := port }
  | resume {t r lent} (hserved : s.status t = .served (some r) lent) :
      Step S s (.resume t) { s with status := Function.update s.status t .running }
  | withdraw {t q lent} (hwaiting : s.status t = .waiting q lent) :
      Step S s (.fail t)
        { s with
          status := Function.update s.status t .running
          port := s.port.erase t }
  | giveUp {t lent} (hserved : s.status t = .served none lent) :
      Step S s (.fail t) { s with status := Function.update s.status t .running }
  | own {q} (hfree : s.Free (S.lends q s.mem)) :
      Step S s (.own q)
        { s with
          world := (S.serve q s.world s.mem).2.1
          mem := (S.serve q s.world s.mem).2.2 }
  | work {k} : Step S s (.work k) { s with world := S.work k s.world }
  | write {m} (hkeeps : ∀ t, ∀ a ∈ (s.status t).lent, m a = s.mem a) :
      Step S s (.write m) { s with mem := m }

variable {S : Service World Work Request Reply Address Value}
  {s s' start : State Task World Request Reply Address Value}
  {a : Action Task Work Request Address Value}
  {l : List (State Task World Request Reply Address Value × Action Task Work Request Address Value)}

/-! ## What is lent stays as it is -/

/-- What every state of a run satisfies: calls have lent different parts of the memory, the port
holds the tasks that wait, each once, and what a waiting task has lent is what its request
speaks of. -/
structure Proper (S : Service World Work Request Reply Address Value)
    (s : State Task World Request Reply Address Value) : Prop where
  disjoint : ∀ t t', t ≠ t' → Disjoint (s.status t).lent (s.status t').lent
  port_iff : ∀ t, t ∈ s.port ↔ ∃ q lent, s.status t = .waiting q lent
  nodup : s.port.Nodup
  lends : ∀ t q lent, s.status t = .waiting q lent → S.lends q s.mem = lent

/-- No task has called. -/
def State.Quiet (s : State Task World Request Reply Address Value) : Prop :=
  (∀ t, s.status t = .running) ∧ s.port = []

omit [DecidableEq Task] in
/-- In a state without calls nothing is lent. -/
theorem State.Quiet.proper (h : s.Quiet) : Proper S s where
  disjoint t t' _ := by
    rw [h.1 t]
    exact Set.empty_disjoint _
  port_iff t := by
    rw [h.2, h.1 t]
    constructor
    · intro hmem
      cases hmem
    · rintro ⟨q, lent, hwaiting⟩
      cases hwaiting
  nodup := by
    rw [h.2]
    exact List.nodup_nil
  lends t q lent hwaiting := by
    rw [h.1 t] at hwaiting
    cases hwaiting

/-- The memory that a step works on for one task, `t`, or for the owner. -/
def Concerns (s : State Task World Request Reply Address Value)
    (a : Action Task Work Request Address Value) (t : Task) : Prop :=
  match a with
  | .call t' _ => t' = t
  | .serve => s.port.head? = some t
  | .resume t' => t' = t
  | .fail t' => t' = t
  | _ => False

omit [DecidableEq Task] in
/-- Serving a request leaves alone what the others have lent. -/
theorem serve_lent (h : Proper S s) {t t' : Task} {q : Request} {lent : Set Address}
    (hwaiting : s.status t = .waiting q lent) (hne : t ≠ t') {x : Address}
    (hx : x ∈ (s.status t').lent) : (S.serve q s.world s.mem).2.2 x = s.mem x := by
  apply S.serve_outside
  rw [h.lends t q lent hwaiting]
  intro hmem
  have hdisjoint := h.disjoint t t' hne
  rw [hwaiting] at hdisjoint
  exact Set.disjoint_left.mp hdisjoint hmem hx

/-- **A step for others changes nothing for a task**: neither what the task is doing nor what it
has lent. -/
theorem Step.other (hstep : Step S s a s') (h : Proper S s) {t : Task} (hother : ¬ Concerns s a t) :
    s'.status t = s.status t ∧ ∀ x ∈ (s.status t).lent, s'.mem x = s.mem x := by
  cases hstep with
  | @call t' q _ _ =>
    have hne : t ≠ t' := fun heq => hother heq.symm
    exact ⟨Function.update_of_ne hne _ _, fun _ _ => rfl⟩
  | @serve t' port q lent hport hwaiting =>
    have hne : t ≠ t' := by
      rintro rfl
      apply hother
      show s.port.head? = some t
      rw [hport, List.head?_cons]
    exact ⟨Function.update_of_ne hne _ _, fun x hx => serve_lent h hwaiting hne.symm hx⟩
  | @resume t' _ _ _ =>
    have hne : t ≠ t' := fun heq => hother heq.symm
    exact ⟨Function.update_of_ne hne _ _, fun _ _ => rfl⟩
  | @withdraw t' _ _ _ =>
    have hne : t ≠ t' := fun heq => hother heq.symm
    exact ⟨Function.update_of_ne hne _ _, fun _ _ => rfl⟩
  | @giveUp t' _ _ =>
    have hne : t ≠ t' := fun heq => hother heq.symm
    exact ⟨Function.update_of_ne hne _ _, fun _ _ => rfl⟩
  | own hfree =>
    refine ⟨rfl, fun x hx => S.serve_outside ?_⟩
    exact Set.disjoint_left.mp (hfree t) hx
  | work => exact ⟨rfl, fun _ _ => rfl⟩
  | write hkeeps => exact ⟨rfl, fun x hx => hkeeps t x hx⟩

omit [DecidableEq Task] in
/-- What a waiting task has lent is still what its request speaks of when the memory that it has
lent is the same. -/
theorem lends_of_eq (h : Proper S s) {t : Task} {q : Request} {lent : Set Address}
    (hwaiting : s.status t = .waiting q lent) {m : Address → Value}
    (hm : ∀ x ∈ lent, m x = s.mem x) : S.lends q m = lent := by
  have hlends := h.lends t q lent hwaiting
  rw [S.lends_congr (m := s.mem) (by rw [hlends]; exact hm), hlends]

/-- Calls that have lent different parts do so after one of them has changed what it lends. -/
theorem disjoint_update {status : Task → Status Request Reply Address}
    (h : ∀ t t', t ≠ t' → Disjoint (status t).lent (status t').lent) {t : Task}
    {x : Status Request Reply Address} (hx : ∀ t', t ≠ t' → Disjoint x.lent (status t').lent) :
    ∀ t₁ t₂, t₁ ≠ t₂ → Disjoint (Function.update status t x t₁).lent
      (Function.update status t x t₂).lent := by
  intro t₁ t₂ hne
  rcases eq_or_ne t₁ t with rfl | h₁
  · rw [Function.update_self, Function.update_of_ne hne.symm]
    exact hx t₂ hne
  · rw [Function.update_of_ne h₁]
    rcases eq_or_ne t₂ t with rfl | h₂
    · rw [Function.update_self]
      exact (hx t₁ hne.symm).symm
    · rw [Function.update_of_ne h₂]
      exact h t₁ t₂ hne

/-- A task that stops waiting leaves the port, and the others stay. -/
theorem mem_update_iff (h : Proper S s) {t : Task} {x : Status Request Reply Address}
    (hx : ∀ q lent, x ≠ .waiting q lent) {port : List Task}
    (hport : ∀ t', t' ∈ port ↔ t' ≠ t ∧ t' ∈ s.port) (t' : Task) :
    t' ∈ port ↔ ∃ q lent, Function.update s.status t x t' = .waiting q lent := by
  rw [hport t']
  rcases eq_or_ne t' t with rfl | hne
  · rw [Function.update_self]
    constructor
    · rintro ⟨hself, -⟩
      exact absurd rfl hself
    · rintro ⟨q, lent, hwaiting⟩
      exact absurd hwaiting (hx q lent)
  · rw [Function.update_of_ne hne, h.port_iff t']
    exact and_iff_right hne

omit [DecidableEq Task] in
/-- A task that is not waiting is not in the port. -/
theorem not_mem_port (h : Proper S s) {t : Task} (hnot : ∀ q lent, s.status t ≠ .waiting q lent) :
    t ∉ s.port := by
  rw [h.port_iff t]
  rintro ⟨q, lent, hwaiting⟩
  exact hnot q lent hwaiting

/-- A task other than `t` waits for the same as before. -/
theorem waiting_of_update {status : Task → Status Request Reply Address} {t t' : Task}
    {x : Status Request Reply Address} (hx : ∀ q lent, x ≠ .waiting q lent) {q : Request}
    {lent : Set Address} (hwaiting : Function.update status t x t' = .waiting q lent) :
    t ≠ t' ∧ status t' = .waiting q lent := by
  rcases eq_or_ne t' t with rfl | hne
  · rw [Function.update_self] at hwaiting
    exact absurd hwaiting (hx q lent)
  · rw [Function.update_of_ne hne] at hwaiting
    exact ⟨hne.symm, hwaiting⟩

/-- A task stops waiting or is given its memory back; nothing else happens. -/
theorem Proper.update (h : Proper S s) {t : Task} {x : Status Request Reply Address}
    (hx : ∀ q lent, x ≠ .waiting q lent) (hlent : x.lent ⊆ (s.status t).lent) {port : List Task}
    (hport : ∀ t', t' ∈ port ↔ t' ≠ t ∧ t' ∈ s.port) (hnodup : port.Nodup) {w : World}
    {m : Address → Value} (hm : ∀ t', t ≠ t' → ∀ y ∈ (s.status t').lent, m y = s.mem y) :
    Proper S { world := w, mem := m, status := Function.update s.status t x, port := port } where
  disjoint := disjoint_update h.disjoint
    fun t' hne => Set.disjoint_of_subset_left hlent (h.disjoint t t' hne)
  port_iff := mem_update_iff h hx hport
  nodup := hnodup
  lends t' q lent hwaiting := by
    obtain ⟨hne, hbefore⟩ := waiting_of_update hx hwaiting
    apply lends_of_eq h hbefore
    intro y hy
    apply hm t' hne
    rw [hbefore]
    exact hy

/-- A task that has been served goes on. -/
theorem Proper.release (h : Proper S s) {t : Task} {r : Option Reply} {lent : Set Address}
    (hserved : s.status t = .served r lent) :
    Proper S { s with status := Function.update s.status t .running } := by
  have hnot : t ∉ s.port := by
    apply not_mem_port h
    intro q lent' hwaiting
    rw [hserved] at hwaiting
    cases hwaiting
  apply h.update
  · intro q lent' heq
    cases heq
  · exact Set.empty_subset _
  · intro t'
    exact ⟨fun hmem => ⟨fun heq => hnot (heq ▸ hmem), hmem⟩, fun hmem => hmem.2⟩
  · exact h.nodup
  · intro _ _ _ _
    rfl

omit [DecidableEq Task] in
/-- The tasks do not change, nor what they have lent. -/
theorem Proper.keep (h : Proper S s) {w : World} {m : Address → Value}
    (hm : ∀ t, ∀ y ∈ (s.status t).lent, m y = s.mem y) :
    Proper S { s with world := w, mem := m } where
  disjoint := h.disjoint
  port_iff := h.port_iff
  nodup := h.nodup
  lends t q lent hwaiting := by
    apply lends_of_eq h hwaiting
    intro y hy
    apply hm t
    rw [hwaiting]
    exact hy

/-- A step keeps the state proper. -/
theorem Step.proper (hstep : Step S s a s') (h : Proper S s) : Proper S s' := by
  cases hstep with
  | @call t q hrunning hfree =>
    have hnot : t ∉ s.port := by
      apply not_mem_port h
      intro q' lent hwaiting
      rw [hrunning] at hwaiting
      cases hwaiting
    constructor
    · apply disjoint_update h.disjoint
      intro t' _
      exact (hfree t').symm
    · intro t'
      rw [List.mem_append, List.mem_singleton]
      dsimp only
      rcases eq_or_ne t' t with rfl | hne
      · rw [Function.update_self]
        exact iff_of_true (.inr rfl) ⟨q, _, rfl⟩
      · rw [Function.update_of_ne hne, ← h.port_iff t']
        exact or_iff_left hne
    · rw [List.nodup_append]
      refine ⟨h.nodup, List.nodup_singleton t, ?_⟩
      rintro t₁ h₁ t₂ h₂ rfl
      rw [List.mem_singleton.mp h₂] at h₁
      exact hnot h₁
    · intro t' q' lent hwaiting
      dsimp only at hwaiting ⊢
      rcases eq_or_ne t' t with rfl | hne
      · rw [Function.update_self] at hwaiting
        cases hwaiting
        rfl
      · rw [Function.update_of_ne hne] at hwaiting
        exact h.lends t' q' lent hwaiting
  | @serve t port q lent hport hwaiting =>
    have hnodup := h.nodup
    rw [hport, List.nodup_cons] at hnodup
    apply h.update
    · intro q' lent' heq
      cases heq
    · rw [hwaiting]
      exact subset_rfl
    · intro t'
      rw [hport, List.mem_cons]
      constructor
      · intro hmem
        exact ⟨fun heq => hnodup.1 (heq ▸ hmem), .inr hmem⟩
      · rintro ⟨hne, rfl | hmem⟩
        · exact absurd rfl hne
        · exact hmem
    · exact hnodup.2
    · intro t' hne y hy
      exact serve_lent h hwaiting hne hy
  | resume hserved => exact h.release hserved
  | @withdraw t q lent hwaiting =>
    apply h.update
    · intro q' lent' heq
      cases heq
    · exact Set.empty_subset _
    · intro t'
      exact h.nodup.mem_erase_iff
    · exact h.nodup.erase t
    · intro _ _ _ _
      rfl
  | giveUp hserved => exact h.release hserved
  | own hfree =>
    apply h.keep
    intro t y hy
    apply S.serve_outside
    exact Set.disjoint_left.mp (hfree t) hy
  | work =>
    apply h.keep
    intro _ _ _
    rfl
  | write hkeeps => exact h.keep hkeeps

/-- Every state of a run is proper. -/
theorem Path.proper (hpath : Path (Step S) start l s) (h : Proper S start) : Proper S s :=
  hpath.invariant h fun _ _ _ hproper hstep => hstep.proper hproper

/-! ## A call is as good as one step -/

/-- The step takes the request of `t` out of the port. -/
def Serves (t : Task)
    (y : State Task World Request Reply Address Value × Action Task Work Request Address Value) :
    Prop :=
  y.2 = .serve ∧ y.1.port.head? = some t

/-- The request is waiting: what it has lent is as it was at the call, when the memory was `m`. -/
structure Waits (S : Service World Work Request Reply Address Value) (t : Task) (q : Request)
    (m : Address → Value)
    (l : List (State Task World Request Reply Address Value ×
      Action Task Work Request Address Value))
    (s : State Task World Request Reply Address Value) : Prop where
  status : s.status t = .waiting q (S.lends q m)
  mem : ∀ x ∈ S.lends q m, s.mem x = m x
  never : ∀ y ∈ l, ¬ Serves t y

/-- The request has been served once, in the state `at'` of the run, and as if on the memory `m`:
so are its reply, what it did to the object and what it has left in the memory. -/
structure ServedAt (S : Service World Work Request Reply Address Value) (t : Task) (q : Request)
    (m : Address → Value)
    (l : List (State Task World Request Reply Address Value ×
      Action Task Work Request Address Value))
    (s at' : State Task World Request Reply Address Value) : Prop where
  waiting : at'.status t = .waiting q (S.lends q m)
  status : s.status t = .served (S.serve q at'.world m).1 (S.lends q m)
  mem : ∀ x ∈ S.lends q m, s.mem x = (S.serve q at'.world m).2.2 x
  world : ∀ next, Step S at' .serve next → next.world = (S.serve q at'.world m).2.1
  once : ∃ pre post, l = pre ++ (at', .serve) :: post ∧ Serves t (at', (.serve : Action Task Work
    Request Address Value)) ∧ (∀ y ∈ pre, ¬ Serves t y) ∧ ∀ y ∈ post, ¬ Serves t y

omit [DecidableEq Task] in
/-- Serving steps and steps that begin or end the call are the ones that concern a task. -/
theorem serves_of_concerns {t : Task} (h : Concerns s a t)
    (hblocked : a ≠ .resume t ∧ a ≠ .fail t) : Serves t (s, a) ∨ ∃ q, a = .call t q := by
  cases a with
  | call t' q =>
    right
    exact ⟨q, by rw [show t' = t from h]⟩
  | serve => exact .inl ⟨rfl, h⟩
  | resume t' => exact absurd (by rw [show t' = t from h]) hblocked.1
  | fail t' => exact absurd (by rw [show t' = t from h]) hblocked.2
  | own _ => cases h
  | work _ => cases h
  | write _ => cases h

/-- The step that serves a waiting request. -/
theorem Step.serves (hstep : Step S s .serve s') {t : Task} (hhead : s.port.head? = some t)
    {q : Request} {lent : Set Address} (hwaiting : s.status t = .waiting q lent) :
    s'.world = (S.serve q s.world s.mem).2.1 ∧ s'.mem = (S.serve q s.world s.mem).2.2 ∧
      s'.status t = .served (S.serve q s.world s.mem).1 lent := by
  cases hstep with
  | @serve t' port q' lent' hport hwaiting' =>
    have hsame : t' = t := by
      rw [hport, List.head?_cons] at hhead
      exact Option.some.inj hhead
    subst hsame
    rw [hwaiting] at hwaiting'
    cases hwaiting'
    exact ⟨rfl, rfl, Function.update_self _ _ _⟩

/-- A task that waits or has been served does not call. -/
theorem Step.not_call {t : Task} {q : Request} (hstep : Step S s (.call t q) s')
    (hnot : s.status t ≠ .running) : False := by
  cases hstep with
  | call hrunning _ => exact hnot hrunning

/-- A waiting request goes on waiting, or the step serves it. -/
theorem Waits.step {t : Task} {q : Request} {m : Address → Value} (hwaits : Waits S t q m l s)
    (hproper : Proper S s) (hstep : Step S s a s') (hblocked : a ≠ .resume t ∧ a ≠ .fail t) :
    Waits S t q m (l ++ [(s, a)]) s' ∨ ServedAt S t q m (l ++ [(s, a)]) s' s := by
  have hlent : (s.status t).lent = S.lends q m := by rw [hwaits.status]; rfl
  by_cases hconcerns : Concerns s a t
  · rcases serves_of_concerns hconcerns hblocked with hserves | ⟨q', rfl⟩
    · right
      obtain ⟨rfl, hhead⟩ := hserves
      obtain ⟨hworld, hmem, hstatus⟩ := hstep.serves hhead hwaits.status
      -- the memory is not that of the call, but the request does not see the difference
      obtain ⟨hreply, hobject, hleft⟩ := S.serve_congr (w := s.world) hwaits.mem
      constructor
      · exact hwaits.status
      · rw [hstatus, hreply]
      · intro x hx
        rw [hmem, hleft x hx]
      · intro next hnext
        rw [(hnext.serves hhead hwaits.status).1, hobject]
      · exact ⟨l, [], rfl, ⟨rfl, hhead⟩, hwaits.never, List.forall_mem_nil _⟩
    · exact (hstep.not_call (by rw [hwaits.status]; simp)).elim
  · left
    obtain ⟨hstatus, hmem⟩ := hstep.other hproper hconcerns
    rw [hlent] at hmem
    constructor
    · rw [hstatus, hwaits.status]
    · intro x hx
      rw [hmem x hx, hwaits.mem x hx]
    · rw [forall_mem_concat]
      refine ⟨hwaits.never, ?_⟩
      rintro ⟨hserve, hhead⟩
      apply hconcerns
      rw [show a = .serve from hserve]
      exact hhead

/-- A request that has been served is not served again, and nobody touches what it has left. -/
theorem ServedAt.step {t : Task} {q : Request} {m : Address → Value}
    {at' : State Task World Request Reply Address Value} (hserved : ServedAt S t q m l s at')
    (hproper : Proper S s) (hstep : Step S s a s') (hblocked : a ≠ .resume t ∧ a ≠ .fail t) :
    ServedAt S t q m (l ++ [(s, a)]) s' at' := by
  have hlent : (s.status t).lent = S.lends q m := by rw [hserved.status]; rfl
  have hconcerns : ¬ Concerns s a t := by
    intro hconcerns
    rcases serves_of_concerns hconcerns hblocked with ⟨rfl, hhead⟩ | ⟨q', rfl⟩
    · -- it is not in the port any more
      have hmem : t ∈ s.port := List.mem_of_mem_head? hhead
      obtain ⟨q', lent, hwaiting⟩ := (hproper.port_iff t).mp hmem
      rw [hserved.status] at hwaiting
      cases hwaiting
    · exact hstep.not_call (by rw [hserved.status]; simp)
  obtain ⟨hstatus, hmem⟩ := hstep.other hproper hconcerns
  rw [hlent] at hmem
  constructor
  · exact hserved.waiting
  · rw [hstatus, hserved.status]
  · intro x hx
    rw [hmem x hx, hserved.mem x hx]
  · exact hserved.world
  · obtain ⟨pre, post, hl, hat, hpre, hpost⟩ := hserved.once
    refine ⟨pre, post ++ [(s, a)], ?_, hat, hpre, ?_⟩
    · rw [hl, List.append_assoc, List.cons_append]
    · rw [forall_mem_concat]
      refine ⟨hpost, ?_⟩
      rintro ⟨hserve, hhead⟩
      apply hconcerns
      rw [show a = .serve from hserve]
      exact hhead

/-- **A call is as good as one step.**  From the call of a task on, until it resumes or fails, its
request waits, with what it has lent untouched, or it has been served once, and as if it had been
served on the memory of the call. -/
theorem Step.served {t : Task} {q : Request} (hproper : Proper S s)
    (hcall : Step S s (.call t q) start) (hpath : Path (Step S) start l s')
    (hblocked : ∀ y ∈ l, y.2 ≠ .resume t ∧ y.2 ≠ .fail t) :
    Waits S t q s.mem l s' ∨ ∃ at', ServedAt S t q s.mem l s' at' := by
  have hstart : Proper S start := hcall.proper hproper
  induction hpath with
  | start =>
    left
    cases hcall with
    | call _ _ =>
      exact ⟨Function.update_self _ _ _, fun _ _ => rfl, List.forall_mem_nil _⟩
  | step hbefore hstep ih =>
    obtain ⟨hbefore', hlast⟩ := forall_mem_concat.mp hblocked
    have hproper' := Path.proper hbefore hstart
    rcases ih hbefore' with hwaits | ⟨at', hserved⟩
    · rcases hwaits.step hproper' hstep hlast with hwaits' | hserved'
      · exact .inl hwaits'
      · exact .inr ⟨_, hserved'⟩
    · exact .inr ⟨at', hserved.step hproper' hstep hlast⟩

/-- A request that has been served once has been served in no other state. -/
theorem ServedAt.unique {t : Task} {q : Request} {m : Address → Value}
    {at' at'' : State Task World Request Reply Address Value}
    (hserved : ServedAt S t q m l s at') (hmem : (at'', .serve) ∈ l)
    (hhead : at''.port.head? = some t) : at'' = at' := by
  obtain ⟨pre, post, rfl, -, hpre, hpost⟩ := hserved.once
  rcases List.mem_append.mp hmem with hmem | hmem
  · exact absurd ⟨rfl, hhead⟩ (hpre _ hmem)
  · rcases List.mem_cons.mp hmem with heq | hmem
    · exact congrArg Prod.fst heq
    · exact absurd ⟨rfl, hhead⟩ (hpost _ hmem)

/-! ## What happens to the object -/

/-- The request that a step serves. -/
def request? (s : State Task World Request Reply Address Value) :
    Action Task Work Request Address Value → Option Request
  | .serve =>
    match s.port with
    | t :: _ =>
      match s.status t with
      | .waiting q _ => some q
      | _ => none
    | [] => none
  | .own q => some q
  | _ => none

/-- The object changes when a request is served and when its owner changes it. -/
theorem Step.world_cases (hstep : Step S s a s') :
    (∃ q, request? s a = some q ∧ s'.world = (S.serve q s.world s.mem).2.1) ∨
      (request? s a = none ∧ ∃ k, a = .work k ∧ s'.world = S.work k s.world) ∨
      (request? s a = none ∧ (∀ k, a ≠ .work k) ∧ s'.world = s.world) := by
  cases hstep with
  | @serve t port q lent hport hwaiting =>
    left
    refine ⟨q, ?_, rfl⟩
    unfold request?
    rw [hport]
    dsimp only
    rw [hwaiting]
  | own _ => exact .inl ⟨_, rfl, rfl⟩
  | work => exact .inr (.inl ⟨rfl, _, rfl, rfl⟩)
  | call _ _ => exact .inr (.inr ⟨rfl, fun _ => by simp, rfl⟩)
  | resume _ => exact .inr (.inr ⟨rfl, fun _ => by simp, rfl⟩)
  | withdraw _ => exact .inr (.inr ⟨rfl, fun _ => by simp, rfl⟩)
  | giveUp _ => exact .inr (.inr ⟨rfl, fun _ => by simp, rfl⟩)
  | write _ => exact .inr (.inr ⟨rfl, fun _ => by simp, rfl⟩)

end PortCalls
