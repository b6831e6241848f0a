/-
# The schedule of the entropy collector

`CollectEntropy`, the functions that pause and resume it, and `InstallScript` of
`NTK Projects/mbedTLS.f`, with the delayed sends of `CollectEntropy` that are pending.  Each
firing of a send makes the next one; the flag `scheduled` should say that one is pending.

`InstallScript` makes a send without the flag, and a firing at a full store makes none:

* the number of pending sends is that of the flag exactly when a send has fired while the flag
  was not set (`one_pending_iff`);
* a collector that is not paused and not full has a send pending throughout a run exactly when
  no step that makes room in the store finds it without one (`collects_iff`).
-/
import NewtonTLS.EntropyStream
import NewtonTLS.Steps

namespace NewtonTLS

namespace CollectionSchedule

open EntropyStream Steps

/-! ## The collector and its sends -/

/-- The collector, and how many delayed sends of `CollectEntropy` are pending. -/
structure Scheduler : Type where
  collector : Collector
  sends : ℕ
  deriving DecidableEq, Repr

namespace Scheduler

/-- `AddDelayedSend(entropyCollector, 'CollectEntropy, [], …)`. -/
def addDelayedSend (w : Scheduler) : Scheduler := { w with sends := w.sends + 1 }

/-- `scheduled := true` and the send. -/
def schedule (w : Scheduler) : Scheduler :=
  addDelayedSend { w with collector := { w.collector with scheduled := true } }

/-- `InstallScript`: a send is made, and `scheduled` stays nil. -/
def installScript (entropy : Option (List Byte)) : Scheduler :=
  addDelayedSend ⟨.install entropy, 0⟩

/-- The part of `CollectEntropy` that looks at the pen. -/
def collectPen (c : Collector) (pen : Option PenFrame) : Collector :=
  let collected := c.newPen pen
  let c := if pen.map PenFrame.ref ≠ c.previousPen then
      { c with previousPen := pen.map PenFrame.ref }
    else c
  match collected with
  | some pen => c.addNibble (Collector.penEntropyInt pen)
  | none => c

/-- A pending send fires: `CollectEntropy`. -/
def collectEntropy (w : Scheduler) (pen : Option PenFrame) : Scheduler :=
  let w := { w with sends := w.sends - 1 }
  let w := { w with collector := { w.collector with scheduled := false } }
  if w.collector.full then w
  else
    let w := { w with collector := collectPen w.collector pen }
    if !w.collector.scheduled && !w.collector.paused then w.schedule else w

/-- `PauseBackgroundCollection`, which leaves a pending call alone. -/
def pauseBackgroundCollection (w : Scheduler) : Scheduler :=
  { w with collector := w.collector.pauseBackgroundCollection }

/-- `ResumeBackgroundCollection`, which schedules a call unless one is noted in `scheduled`. -/
def resumeBackgroundCollection (w : Scheduler) : Scheduler :=
  if w.collector.paused then
    let w := { w with collector := { w.collector with paused := false } }
    if !w.collector.scheduled then w.schedule else w
  else w

/-- `ResetBackgroundCollectionRate`. -/
def resetBackgroundCollectionRate (w : Scheduler) : Scheduler :=
  { w with collector := w.collector.resetBackgroundCollectionRate }

/-- `SetBackgroundCollectionRate`. -/
def setBackgroundCollectionRate (w : Scheduler) (rate : ℕ) (limit : Option ℕ) : Scheduler :=
  { w with collector := w.collector.setBackgroundCollectionRate rate limit }

/-- `GetEntropyData(count)`, for what it leaves. -/
def getEntropyData (w : Scheduler) (count : ℕ) : Scheduler :=
  { w with collector := (w.collector.getEntropyData count).2 }

end Scheduler

/-! ## Runs -/

/-- What happens to the collector; `pen` is what `PenPos` gives. -/
inductive Action : Type where
  | collectEntropy (pen : Option PenFrame)
  | pauseBackgroundCollection
  | resumeBackgroundCollection
  | resetBackgroundCollectionRate
  | setBackgroundCollectionRate (rate : ℕ) (limit : Option ℕ)
  | getEntropyData (count : ℕ)
  deriving DecidableEq, Repr

/-- `CollectEntropy` fires only when a send is pending. -/
def Action.enabled (w : Scheduler) : Action → Prop
  | .collectEntropy _ => 0 < w.sends
  | _ => True

/-- What an action does. -/
def Scheduler.after (w : Scheduler) : Action → Scheduler
  | .collectEntropy pen => w.collectEntropy pen
  | .pauseBackgroundCollection => w.pauseBackgroundCollection
  | .resumeBackgroundCollection => w.resumeBackgroundCollection
  | .resetBackgroundCollectionRate => w.resetBackgroundCollectionRate
  | .setBackgroundCollectionRate rate limit => w.setBackgroundCollectionRate rate limit
  | .getEntropyData count => w.getEntropyData count

/-- One action. -/
def step (w : Scheduler) (a : Action) (w' : Scheduler) : Prop := a.enabled w ∧ w' = w.after a

theorem step_after (w : Scheduler) (a : Action) (h : a.enabled w) : step w a (w.after a) := ⟨h, rfl⟩

/-! ## What a step does to the sends -/

/-- A nibble leaves the schedule alone. -/
theorem addNibble_flags (c : Collector) (n : ℕ) :
    (c.addNibble n).scheduled = c.scheduled ∧ (c.addNibble n).paused = c.paused := by
  unfold Collector.addNibble
  dsimp only
  split
  · exact ⟨rfl, rfl⟩
  · exact ⟨rfl, rfl⟩

theorem collectPen_flags (c : Collector) (pen : Option PenFrame) :
    (Scheduler.collectPen c pen).scheduled = c.scheduled ∧
      (Scheduler.collectPen c pen).paused = c.paused := by
  have hnibble : ∀ c' : Collector, c'.scheduled = c.scheduled → c'.paused = c.paused →
      (match c.newPen pen with
        | some pen => c'.addNibble (Collector.penEntropyInt pen)
        | none => c').scheduled = c.scheduled ∧
      (match c.newPen pen with
        | some pen => c'.addNibble (Collector.penEntropyInt pen)
        | none => c').paused = c.paused := by
    intro c' hscheduled hpaused
    cases c.newPen pen with
    | none => exact ⟨hscheduled, hpaused⟩
    | some pen' =>
      obtain ⟨hadded, hadded'⟩ := addNibble_flags c' (Collector.penEntropyInt pen')
      exact ⟨hadded.trans hscheduled, hadded'.trans hpaused⟩
  unfold Scheduler.collectPen
  by_cases hmoved : pen.map PenFrame.ref ≠ c.previousPen
  · rw [if_pos hmoved]
    exact hnibble _ rfl rfl
  · rw [if_neg hmoved]
    exact hnibble c rfl rfl

/-- Taking entropy out leaves the flags alone. -/
theorem getEntropyData_flags (c : Collector) (count : ℕ) :
    (c.getEntropyData count).2.scheduled = c.scheduled ∧
      (c.getEntropyData count).2.paused = c.paused ∧
      (c.getEntropyData count).2.limit = c.limit := by
  cases hentropy : c.entropy with
  | none =>
    unfold Collector.getEntropyData
    rw [hentropy]
    exact ⟨rfl, rfl, rfl⟩
  | some entropy =>
    rw [Collector.getEntropyData_eq hentropy, Collector.takeEntropy_eq]
    unfold Collector.ready
    split
    · exact ⟨rfl, rfl, rfl⟩
    · exact ⟨rfl, rfl, rfl⟩

/-- A firing at a full store leaves no flag and no send behind. -/
theorem collectEntropy_full {w : Scheduler} (pen : Option PenFrame) (h : w.collector.full = true) :
    w.collectEntropy pen =
      ⟨{ w.collector with scheduled := false }, w.sends - 1⟩ := by
  unfold Scheduler.collectEntropy
  exact if_pos h

/-- Any other firing leaves a flag and a send behind, unless the collector is paused. -/
theorem collectEntropy_spec {w : Scheduler} (pen : Option PenFrame)
    (h : ¬ w.collector.full = true) :
    (w.collectEntropy pen).collector.paused = w.collector.paused ∧
      (w.collectEntropy pen).collector.scheduled = !w.collector.paused ∧
      (w.collectEntropy pen).sends = w.sends - 1 + if w.collector.paused then 0 else 1 := by
  have hfull : ¬ ({ w.collector with scheduled := false } : Collector).full = true := h
  obtain ⟨hscheduled, hpaused⟩ := collectPen_flags { w.collector with scheduled := false } pen
  unfold Scheduler.collectEntropy
  dsimp only
  rw [if_neg hfull]
  generalize Scheduler.collectPen { w.collector with scheduled := false } pen = c at *
  dsimp only at hscheduled hpaused
  rw [hscheduled, hpaused]
  cases hw : w.collector.paused with
  | true =>
    rw [hw] at hpaused
    exact ⟨hpaused, hscheduled, rfl⟩
  | false =>
    rw [hw] at hpaused
    exact ⟨hpaused, rfl, rfl⟩

/-! ## One pending send -/

/-- At most one send is pending, and one is exactly when `scheduled` says so. -/
def AtMostOne (w : Scheduler) : Prop := w.sends ≤ 1 ∧ (w.sends = 1 ↔ w.collector.scheduled = true)

/-- How many sends there are for the flag. -/
def flagged (w : Scheduler) : ℕ := if w.collector.scheduled then 1 else 0

/-- There is at most one delayed call when the flag counts them. -/
theorem atMostOne_iff {w : Scheduler} : AtMostOne w ↔ w.sends = flagged w := by
  unfold AtMostOne flagged
  cases hscheduled : w.collector.scheduled with
  | true => grind
  | false => grind

/-- There is a send too many. -/
def Surplus (w : Scheduler) : Prop := w.sends = flagged w + 1

theorem Surplus.not_atMostOne {w : Scheduler} (h : Surplus w) : ¬ AtMostOne w := by
  rw [atMostOne_iff, h]
  exact Nat.succ_ne_self _

/-- The installation sends a call without setting the flag. -/
theorem surplus_installScript (entropy : Option (List Byte)) :
    Surplus (Scheduler.installScript entropy) := rfl

/-- Anything but a firing adds sends only together with the flag. -/
theorem after_balance {w : Scheduler} {a : Action} (h : ∀ pen, a ≠ .collectEntropy pen) :
    (w.after a).sends + flagged w = w.sends + flagged (w.after a) := by
  unfold flagged
  cases a with
  | collectEntropy pen => exact absurd rfl (h pen)
  | pauseBackgroundCollection => rfl
  | resetBackgroundCollectionRate => rfl
  | setBackgroundCollectionRate rate limit => rfl
  | getEntropyData count =>
    obtain ⟨hscheduled, -, -⟩ := getEntropyData_flags w.collector count
    show w.sends + _ = w.sends + if (w.collector.getEntropyData count).2.scheduled then 1 else 0
    rw [hscheduled]
  | resumeBackgroundCollection =>
    show w.resumeBackgroundCollection.sends + _ =
      _ + if w.resumeBackgroundCollection.collector.scheduled then 1 else 0
    unfold Scheduler.resumeBackgroundCollection
    by_cases hpaused : w.collector.paused
    · rw [if_pos hpaused]
      cases hscheduled : w.collector.scheduled with
      | true => simp [hscheduled]
      | false => simp [hscheduled, Scheduler.schedule, Scheduler.addDelayedSend]
    · rw [if_neg hpaused]

/-- A firing takes one send away that the flag does not count. -/
theorem collectEntropy_balance {w : Scheduler} (pen : Option PenFrame) (h : 0 < w.sends) :
    (w.collectEntropy pen).sends + 1 = w.sends + flagged (w.collectEntropy pen) := by
  unfold flagged
  by_cases hfull : w.collector.full = true
  · rw [collectEntropy_full pen hfull]
    exact Nat.sub_add_cancel h
  · obtain ⟨-, hscheduled, hsends⟩ := collectEntropy_spec pen hfull
    rw [hscheduled, hsends]
    cases w.collector.paused with
    | true => exact Nat.sub_add_cancel h
    | false => exact congrArg (· + 1) (Nat.sub_add_cancel h)

/-- `CollectEntropy` fires while `scheduled` is not set. -/
def Unscheduled (x : Scheduler × Action) : Prop :=
  (∃ pen, x.2 = .collectEntropy pen) ∧ x.1.collector.scheduled = false

/-- A step keeps the number of sends too many, unless it is a firing without the flag. -/
theorem surplus_step {w w' : Scheduler} {a : Action} (h : Surplus w) (hstep : step w a w') :
    (Unscheduled (w, a) ∧ AtMostOne w') ∨ (¬ Unscheduled (w, a) ∧ Surplus w') := by
  obtain ⟨henabled, rfl⟩ := hstep
  rw [atMostOne_iff]
  unfold Surplus at h ⊢
  by_cases hfires : ∃ pen, a = .collectEntropy pen
  · obtain ⟨pen, rfl⟩ := hfires
    have hbalance := collectEntropy_balance pen henabled
    cases hscheduled : w.collector.scheduled with
    | true =>
      have hflagged : flagged w = 1 := if_pos hscheduled
      refine Or.inr ⟨fun hun => ?_, ?_⟩
      · rw [hun.2] at hscheduled
        exact Bool.noConfusion hscheduled
      · show (w.collectEntropy pen).sends = flagged (w.collectEntropy pen) + 1
        omega
    | false =>
      have hflagged : flagged w = 0 := if_neg (by rw [hscheduled]; exact Bool.false_ne_true)
      refine Or.inl ⟨⟨⟨pen, rfl⟩, hscheduled⟩, ?_⟩
      show (w.collectEntropy pen).sends = flagged (w.collectEntropy pen)
      omega
  · have hbalance := after_balance (w := w) (not_exists.mp hfires)
    refine Or.inr ⟨fun hun => hfires hun.1, ?_⟩
    omega

/-- Once there is none too many, it stays so. -/
theorem atMostOne_step {w w' : Scheduler} {a : Action} (h : AtMostOne w) (hstep : step w a w') :
    AtMostOne w' := by
  obtain ⟨henabled, rfl⟩ := hstep
  rw [atMostOne_iff] at h ⊢
  by_cases hfires : ∃ pen, a = .collectEntropy pen
  · obtain ⟨pen, rfl⟩ := hfires
    have hpending : 0 < w.sends := henabled
    have hbalance := collectEntropy_balance pen henabled
    have hone : flagged w ≤ 1 := by
      unfold flagged
      split
      · exact le_rfl
      · exact Nat.zero_le 1
    show (w.collectEntropy pen).sends = flagged (w.collectEntropy pen)
    omega
  · have hbalance := after_balance (w := w) (not_exists.mp hfires)
    omega

/-- The send of `InstallScript` is one too many until a firing finds the flag not set. -/
theorem surplus_or_atMostOne {entropy : Option (List Byte)} {l : List (Scheduler × Action)}
    {w : Scheduler} (h : Path step (.installScript entropy) l w) :
    ((∃ x ∈ l, Unscheduled x) ∧ AtMostOne w) ∨ ((∀ x ∈ l, ¬ Unscheduled x) ∧ Surplus w) := by
  induction h with
  | start => exact Or.inr ⟨List.forall_mem_nil _, surplus_installScript entropy⟩
  | step hpath hstep ih =>
    rcases ih with ⟨⟨x, hx, hun⟩, hone⟩ | ⟨hnone, hsurplus⟩
    · exact Or.inl ⟨⟨x, List.mem_append_left _ hx, hun⟩, atMostOne_step hone hstep⟩
    · rcases surplus_step hsurplus hstep with ⟨hun, hone⟩ | ⟨hun, hkept⟩
      · exact Or.inl ⟨⟨_, List.mem_concat_self, hun⟩, hone⟩
      · exact Or.inr ⟨forall_mem_concat.mpr ⟨hnone, hun⟩, hkept⟩

/-- **In no run is there at most one send, with the flag, throughout**: it is so in the states that
come after a firing that has found the flag not set, and in no other. -/
theorem one_pending_iff (entropy : Option (List Byte)) (l : List (Scheduler × Action))
    (w : Scheduler) (h : Path step (.installScript entropy) l w) :
    ¬ Throughout AtMostOne l w ∧ (AtMostOne w ↔ ∃ x ∈ l, Unscheduled x) := by
  constructor
  · rintro ⟨hsteps, hend⟩
    have hfirst : ¬ AtMostOne (Scheduler.installScript entropy) :=
      (surplus_installScript entropy).not_atMostOne
    exact hfirst (h.throughout_start ⟨hsteps, hend⟩)
  · rcases surplus_or_atMostOne h with ⟨hun, hone⟩ | ⟨hnone, hsurplus⟩
    · exact iff_of_true hone hun
    · refine iff_of_false hsurplus.not_atMostOne ?_
      rintro ⟨x, hx, hun⟩
      exact hnone x hx hun

/-- The first firing settles it when nothing has happened before, after one state in which it was
not so. -/
theorem one_pending_iff_fired :
    Path step (.installScript none) [(.installScript none, .collectEntropy none)]
        ((Scheduler.installScript none).after (.collectEntropy none)) ∧
      ¬ Throughout AtMostOne [(Scheduler.installScript none, Action.collectEntropy none)]
        ((Scheduler.installScript none).after (.collectEntropy none)) ∧
      AtMostOne ((Scheduler.installScript none).after (.collectEntropy none)) := by
  have hrun : Path step (.installScript none) [(.installScript none, .collectEntropy none)]
      ((Scheduler.installScript none).after (.collectEntropy none)) :=
    Path.step .start ⟨Nat.one_pos, rfl⟩
  obtain ⟨hnever, hiff⟩ := one_pending_iff none _ _ hrun
  exact ⟨hrun, hnever, hiff.mpr ⟨_, List.mem_singleton_self _, ⟨none, rfl⟩, rfl⟩⟩

/-- The user pauses and resumes before the first firing: two sends are pending. -/
theorem not_one_pending : ¬ ∀ (entropy : Option (List Byte)) (l : List (Scheduler × Action))
    (w : Scheduler), Path step (.installScript entropy) l w → AtMostOne w := by
  intro hall
  have hpaused := Path.step Path.start (step_after (.installScript none)
    .pauseBackgroundCollection trivial)
  have hresumed := Path.step hpaused (step_after _ .resumeBackgroundCollection trivial)
  have htwo := (hall none _ _ hresumed).1
  exact absurd htwo (by decide)

/-! ## Collecting below the limit -/

/-- A collector that is neither paused nor full has a send pending. -/
def Collects (w : Scheduler) : Prop :=
  w.collector.paused = false → w.collector.full = false → 0 < w.sends

/-- Nothing is pending for a collector that is not paused. -/
def Stopped (w : Scheduler) : Prop := w.collector.paused = false ∧ w.sends = 0

/-- The action leaves a store that is full, of one that is. -/
def KeepsFull (c : Collector) : Action → Prop
  | .resetBackgroundCollectionRate => 4096 ≤ (c.entropy.getD []).length
  | .setBackgroundCollectionRate _ limit => ∃ n, limit = some n ∧ n ≤ (c.entropy.getD []).length
  | .getEntropyData count =>
    let n := (stored c (c.entropy.getD []) count).length
    count < n ∧ c.limit.getD 0 + count ≤ n
  | _ => True

/-- A store is full when there is a limit and it is reached. -/
theorem full_iff (c : Collector) : c.full = true ↔
    ∃ entropy limit, c.entropy = some entropy ∧ c.limit = some limit ∧ limit ≤ entropy.length := by
  unfold Collector.full
  cases c.entropy with
  | none => simp
  | some entropy =>
    cases c.limit with
    | none => simp
    | some limit => simp

/-- The flag stands for a send. -/
theorem scheduled_step {w w' : Scheduler} {a : Action}
    (h : w.collector.scheduled = true → 0 < w.sends) (hstep : step w a w') :
    w'.collector.scheduled = true → 0 < w'.sends := by
  obtain ⟨henabled, rfl⟩ := hstep
  intro hscheduled
  have hafter : flagged (w.after a) = 1 := if_pos hscheduled
  by_cases hfires : ∃ pen, a = .collectEntropy pen
  · obtain ⟨pen, rfl⟩ := hfires
    have hpending : 0 < w.sends := henabled
    have hbalance := collectEntropy_balance pen henabled
    have hone : flagged (w.collectEntropy pen) = 1 := hafter
    show 0 < (w.collectEntropy pen).sends
    omega
  · have hbalance := after_balance (w := w) (not_exists.mp hfires)
    cases hbefore : w.collector.scheduled with
    | true =>
      have hflagged : flagged w = 1 := if_pos hbefore
      have hsends := h hbefore
      omega
    | false =>
      have hflagged : flagged w = 0 := if_neg (by rw [hbefore]; exact Bool.false_ne_true)
      omega

/-- A firing keeps the collector going: it makes a new send unless the store is full. -/
theorem collects_collectEntropy (w : Scheduler) (pen : Option PenFrame) :
    Collects (w.collectEntropy pen) := by
  intro hpaused hfull
  by_cases hbefore : w.collector.full = true
  · rw [collectEntropy_full pen hbefore] at hfull
    exact absurd (hbefore.symm.trans hfull) (by decide)
  · obtain ⟨hkept, -, hsends⟩ := collectEntropy_spec pen hbefore
    rw [hsends, ← hkept, hpaused]
    exact Nat.succ_pos _

/-- Resuming makes a send when the flag stands for none. -/
theorem collects_resumeBackgroundCollection {w : Scheduler}
    (hflag : w.collector.scheduled = true → 0 < w.sends) (h : Collects w) :
    Collects w.resumeBackgroundCollection := by
  unfold Scheduler.resumeBackgroundCollection
  by_cases hpaused : w.collector.paused
  · rw [if_pos hpaused]
    intro _ _
    cases hscheduled : w.collector.scheduled with
    | true => simpa [hscheduled] using hflag hscheduled
    | false => simp [hscheduled, Scheduler.schedule, Scheduler.addDelayedSend]
  · rwa [if_neg hpaused]

/-- What makes no send leaves the collector going exactly when it is not stopped, or stays full. -/
theorem collects_of_quiet {w w' : Scheduler} {C : Prop}
    (hpaused : w'.collector.paused = w.collector.paused) (hsends : w'.sends = w.sends)
    (hfull : Stopped w → (w'.collector.full = true ↔ C)) : Collects w' ↔ (Stopped w → C) := by
  unfold Collects
  rw [hpaused, hsends]
  constructor
  · intro hgoes hstopped
    refine (hfull hstopped).mp ?_
    by_contra hroom
    have hpending := hgoes hstopped.1 (Bool.eq_false_of_not_eq_true hroom)
    exact absurd hstopped.2 hpending.ne'
  · intro hkept hrunning hroom
    refine Nat.pos_of_ne_zero fun hnone => ?_
    have hstays := (hfull ⟨hrunning, hnone⟩).mpr (hkept ⟨hrunning, hnone⟩)
    rw [hroom] at hstays
    exact Bool.noConfusion hstays

/-- A store that is not nil is full under a new limit when it has as many bytes. -/
theorem full_limit_iff {c : Collector} {entropy : List Byte} (h : c.entropy = some entropy)
    (rate : ℕ) (limit : Option ℕ) : (c.setBackgroundCollectionRate rate limit).full = true ↔
      ∃ n, limit = some n ∧ n ≤ (c.entropy.getD []).length := by
  rw [full_iff, h]
  constructor
  · rintro ⟨entropy', n, hentropy, hlimit, hreached⟩
    have hsame : entropy = entropy' := Option.some.inj (h.symm.trans hentropy)
    rw [← hsame] at hreached
    exact ⟨n, hlimit, hreached⟩
  · rintro ⟨n, hlimit, hreached⟩
    exact ⟨entropy, n, h, hlimit, hreached⟩

/-- What `GetEntropyData` leaves of a full store is full when the bytes behind the first `count`
are as many as the limit. -/
theorem full_getEntropyData_iff {c : Collector} {entropy : List Byte} {limit : ℕ}
    (hentropy : c.entropy = some entropy) (hlimit : c.limit = some limit) (count : ℕ) :
    (c.getEntropyData count).2.full = true ↔
      count < (stored c entropy count).length ∧
        limit + count ≤ (stored c entropy count).length := by
  obtain ⟨-, -, hkept⟩ := getEntropyData_flags c count
  rw [full_iff, hkept, hlimit, Collector.getEntropyData_eq hentropy,
    Collector.takeEntropy_eq]
  dsimp only
  by_cases hwhole : (stored c entropy count).length ≤ count
  · rw [if_pos hwhole]
    refine iff_of_false ?_ fun hmore => absurd hwhole (Nat.not_le.mpr hmore.1)
    rintro ⟨_, _, hnone, -⟩
    exact Option.noConfusion rfl (heq_of_eq hnone)
  · rw [if_neg hwhole]
    have hmore := Nat.not_le.mp hwhole
    constructor
    · rintro ⟨rest, n, hrest, hn, hreached⟩
      rw [← Option.some.inj hrest, ← Option.some.inj hn, List.length_drop] at hreached
      exact ⟨hmore, by omega⟩
    · rintro ⟨-, hreached⟩
      refine ⟨_, limit, rfl, rfl, ?_⟩
      rw [List.length_drop]
      omega

/-- A step keeps the collector going exactly when it leaves no room in a store with which
collection has stopped. -/
theorem collects_step {w w' : Scheduler} {a : Action}
    (hflag : w.collector.scheduled = true → 0 < w.sends) (h : Collects w) (hstep : step w a w') :
    Collects w' ↔ (Stopped w → KeepsFull w.collector a) := by
  obtain ⟨henabled, rfl⟩ := hstep
  -- A collector has stopped at a full store.
  have hfull : Stopped w → ∃ entropy limit, w.collector.entropy = some entropy ∧
      w.collector.limit = some limit ∧ limit ≤ entropy.length := by
    rintro ⟨hrunning, hnone⟩
    refine (full_iff _).mp ?_
    by_contra hroom
    exact absurd hnone (h hrunning (Bool.eq_false_of_not_eq_true hroom)).ne'
  cases a with
  | collectEntropy pen => exact iff_of_true (collects_collectEntropy w pen) fun _ => trivial
  | pauseBackgroundCollection =>
    refine iff_of_true (fun hrunning => ?_) fun _ => trivial
    have hpaused : (w.after .pauseBackgroundCollection).collector.paused = true := rfl
    exact absurd (hpaused.symm.trans hrunning) (by decide)
  | resumeBackgroundCollection =>
    exact iff_of_true (collects_resumeBackgroundCollection hflag h) fun _ => trivial
  | resetBackgroundCollectionRate =>
    refine collects_of_quiet (w := w) rfl rfl fun hstopped => ?_
    obtain ⟨entropy, limit, hentropy, -, -⟩ := hfull hstopped
    refine (full_limit_iff hentropy 200 (some 4096)).trans ?_
    constructor
    · rintro ⟨n, hn, hreached⟩
      rwa [← Option.some.inj hn] at hreached
    · exact fun hreached => ⟨4096, rfl, hreached⟩
  | setBackgroundCollectionRate rate limit =>
    refine collects_of_quiet (w := w) rfl rfl fun hstopped => ?_
    obtain ⟨entropy, _, hentropy, -, -⟩ := hfull hstopped
    exact full_limit_iff hentropy rate limit
  | getEntropyData count =>
    obtain ⟨-, hpaused, -⟩ := getEntropyData_flags w.collector count
    refine collects_of_quiet (w := w) hpaused rfl fun hstopped => ?_
    obtain ⟨entropy, limit, hentropy, hlimit, -⟩ := hfull hstopped
    unfold KeepsFull
    rw [hentropy, hlimit]
    exact full_getEntropyData_iff hentropy hlimit count

/-- The collection is on after the installation. -/
theorem collects_installScript (entropy : Option (List Byte)) :
    Collects (.installScript entropy) := fun _ _ => Nat.one_pos

/-- **Collection goes on below the limit**: throughout a run a collector that is neither paused nor
full has a send pending, if and only if no step makes room in the store of one that has stopped. -/
theorem collects_iff (entropy : Option (List Byte)) (l : List (Scheduler × Action))
    (w : Scheduler) (h : Path step (.installScript entropy) l w) :
    Throughout Collects l w ↔ ∀ x ∈ l, Stopped x.1 → KeepsFull x.1.collector x.2 :=
  h.throughout_iff (I := fun w => w.collector.scheduled = true → 0 < w.sends)
    (fun hscheduled => Bool.noConfusion hscheduled) (collects_installScript entropy)
    (fun _ _ _ => scheduled_step) fun _ _ _ => collects_step

/-- The pending send finds three bytes over a limit of one.  mbedTLS takes one byte, and the store
is still full. -/
theorem collects_iff_full : ∃ l w, Path step (.installScript (some [1, 2, 3])) l w ∧
    Stopped w ∧ Throughout Collects l w := by
  have hlimit := Path.step Path.start (step_after (.installScript (some [1, 2, 3]))
    (.setBackgroundCollectionRate 200 (some 1)) trivial)
  have hfired := Path.step hlimit (step_after _ (.collectEntropy none) Nat.one_pos)
  have htaken := Path.step hfired (step_after _ (.getEntropyData 1) trivial)
  refine ⟨_, _, htaken, ⟨rfl, rfl⟩, (collects_iff _ _ _ htaken).mpr ?_⟩
  rw [forall_mem_concat, forall_mem_concat, List.nil_append, List.forall_mem_singleton]
  exact ⟨⟨fun hstopped => absurd hstopped.2 (by decide), fun _ => trivial⟩,
    fun _ => ⟨by decide, by decide⟩⟩

/-- The limit is lowered to the two bytes that are stored, the pending send finds the store full,
and mbedTLS takes both bytes: nothing is pending. -/
theorem not_collects : ¬ ∀ (entropy : Option (List Byte)) (l : List (Scheduler × Action))
    (w : Scheduler), Path step (.installScript entropy) l w → Collects w := by
  intro hall
  have hlimit := Path.step Path.start (step_after (.installScript (some [1, 2]))
    (.setBackgroundCollectionRate 200 (some 2)) trivial)
  have hfired := Path.step hlimit (step_after _ (.collectEntropy none) Nat.one_pos)
  have htaken := Path.step hfired (step_after _ (.getEntropyData 2) trivial)
  exact absurd (hall (some [1, 2]) _ _ htaken rfl rfl) (by decide)

end CollectionSchedule

end NewtonTLS
