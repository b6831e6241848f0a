/-
# The object that implements the interface

The package keeps the object that implements the interface under a name in the name server, where
every function of the module looks it up.  Any of these calls may fail.  `interface_live_iff` says
after which failures the name server still knows an object that is gone.
-/
import Mathlib.Data.List.Nodup
import NewtonTLS.Installation

namespace NewtonTLS

namespace Installation

open ClassRegistry Steps

variable {ClassInfo : Type} [DecidableEq ClassInfo]

/-! ## The object under the name -/

/-- The object that the name server knows has not been deleted. -/
def Named (w : World ClassInfo) : Prop := ∀ p, w.interface = some p → p ∈ w.live

/-- A removal of the package that deletes the object takes its name away.  It does not delete the
object when the removal of the connection end is ended by an exception. -/
def RemovalOrderly (own : ClassInfo) (w : World ClassInfo) (x : Event × ScriptAnswers) : Prop :=
  x.1 = .packageRemoved → x.2.names.lookup = none → w.interface.isSome = true →
    (ClassRegistry.removeConnectionEnd own x.2.classes w.registries).1 ≠ .nullPointer →
    x.2.names.unRegisterName = 0

/-- No object is made twice. -/
def Fresh (w : World ClassInfo) : Prop := w.live.Nodup ∧ ∀ p ∈ w.live, p < w.made

/-- What all scripts but the removal keep, whatever fails. -/
structure Follows (w w' : World ClassInfo) : Prop where
  fresh : Fresh w → Fresh w'
  named : Named w → Named w'
  dangling : Named w → w'.dangling = w.dangling

section scripts

variable {own original : ClassInfo} {w w' w'' : World ClassInfo} {a : ScriptAnswers}

omit [DecidableEq ClassInfo] in
theorem Follows.refl (w : World ClassInfo) : Follows w w := ⟨id, id, fun _ => rfl⟩

omit [DecidableEq ClassInfo] in
theorem Follows.trans (h : Follows w w') (h' : Follows w' w'') : Follows w w'' where
  fresh := h'.fresh ∘ h.fresh
  named := h'.named ∘ h.named
  dangling hnamed := (h'.dangling (h.named hnamed)).trans (h.dangling hnamed)

omit [DecidableEq ClassInfo] in
/-- A script that does nothing to the objects. -/
theorem Follows.of_eq (hinterface : w'.interface = w.interface) (hlive : w'.live = w.live)
    (hmade : w'.made = w.made) (hdangling : w'.dangling = w.dangling) : Follows w w' where
  fresh := by
    unfold Fresh
    rw [hlive, hmade]
    exact id
  named := by
    unfold Named
    rw [hinterface, hlive]
    exact id
  dangling _ := hdangling

omit [DecidableEq ClassInfo] in
/-- A new object is the one under the name, or it has no name. -/
theorem follows_getInterfaceSingleton (a : NameAnswers) (create : Bool) (w : World ClassInfo) :
    Follows w (getInterfaceSingleton a create w).2 := by
  have hnew : Fresh w → Fresh { w with live := w.made :: w.live, made := w.made + 1 } := by
    rintro ⟨hnodup, hlt⟩
    constructor
    · rw [List.nodup_cons]
      exact ⟨fun hmem => (hlt _ hmem).false, hnodup⟩
    · intro p hp
      rcases List.mem_cons.mp hp with rfl | hp
      · exact Nat.lt_succ_self _
      · exact (hlt p hp).trans (Nat.lt_succ_self _)
  cases hlookup : a.lookup with
  | some e =>
    simp only [getInterfaceSingleton, hlookup]
    exact .refl w
  | none =>
    cases hinterface : w.interface with
    | some p =>
      simp only [getInterfaceSingleton, hlookup, hinterface]
      exact .refl w
    | none =>
      simp only [getInterfaceSingleton, hlookup, hinterface]
      by_cases hcreate : create = true
      · by_cases hmakes : a.new = true
        · rw [if_pos hcreate, if_pos hmakes]
          by_cases hregister : a.registerName = 0
          · rw [if_neg (not_not_intro hregister)]
            refine ⟨hnew, ?_, fun _ => rfl⟩
            rintro - p hp
            cases hp
            exact List.mem_cons_self
          · rw [if_pos hregister]
            refine ⟨hnew, ?_, fun _ => rfl⟩
            rintro - p hp
            cases hp
        · rw [if_pos hcreate, if_neg hmakes]
          exact .refl w
      · rw [if_neg hcreate]
        exact .refl w

omit [DecidableEq ClassInfo] in
/-- The object that is handed out is the one under the name. -/
theorem interface_of_getInterfaceSingleton {a : NameAnswers} {create : Bool} {p : ℕ}
    (h : (getInterfaceSingleton a create w).1 = .ok (some p)) :
    (getInterfaceSingleton a create w).2.interface = some p := by
  unfold getInterfaceSingleton at h ⊢
  cases hlookup : a.lookup with
  | some e => simp [hlookup] at h
  | none =>
    cases hinterface : w.interface with
    | some q => simpa [hlookup, hinterface] using h
    | none =>
      by_cases hcreate : create = true
      · by_cases hmakes : a.new = true
        · by_cases hregister : a.registerName = 0
          · simpa [hlookup, hinterface, hcreate, hmakes, hregister] using h
          · simp [hlookup, hinterface, hcreate, hmakes, hregister] at h
        · simp [hlookup, hinterface, hcreate, hmakes] at h
      · simp [hlookup, hinterface, hcreate] at h

omit [DecidableEq ClassInfo] in
/-- The object under the name may be called. -/
theorem follows_call {p : ℕ} (f : Registries ClassInfo → Result × Registries ClassInfo)
    (h : w.interface = some p) : Follows w (call p f w).2 := by
  by_cases hlive : p ∈ w.live
  · rw [call, if_pos hlive]
    exact .of_eq rfl rfl rfl rfl
  · rw [call, if_neg hlive]
    exact ⟨id, id, fun hnamed => absurd (hnamed p h) hlive⟩

omit [DecidableEq ClassInfo] in
/-- The name of the object is registered, or it is not. -/
theorem follows_install (a : NameAnswers) (w : World ClassInfo) : Follows w (install a w).2 := by
  have hget := follows_getInterfaceSingleton a true w
  unfold install
  split
  next heq =>
    rw [heq] at hget
    exact hget
  next heq =>
    rw [heq] at hget
    exact hget

omit [DecidableEq ClassInfo] in
/-- Installing the connection end. -/
theorem follows_installConnectionEnd (own : ClassInfo) (a : NameAnswers) (b : Answers)
    (w : World ClassInfo) : Follows w (installConnectionEnd own a b w).2 := by
  have hget := follows_getInterfaceSingleton a true w
  have hname : ∀ p, (getInterfaceSingleton a true w).1 = .ok (some p) → _ := fun p =>
    interface_of_getInterfaceSingleton
  unfold installConnectionEnd
  split
  next heq =>
    rw [heq] at hget
    exact hget
  next heq =>
    rw [heq] at hget
    exact hget
  next interface w' heq =>
    rw [heq] at hget hname
    exact hget.trans (follows_call _ (hname interface rfl))

/-- Removing the connection end. -/
theorem follows_removeConnectionEnd (own : ClassInfo) (a : NameAnswers) (b : Answers)
    (w : World ClassInfo) : Follows w (removeConnectionEnd own a b w).2 := by
  have hget := follows_getInterfaceSingleton a false w
  have hname : ∀ p, (getInterfaceSingleton a false w).1 = .ok (some p) → _ := fun p =>
    interface_of_getInterfaceSingleton
  unfold removeConnectionEnd
  split
  next heq =>
    rw [heq] at hget
    exact hget
  next heq =>
    rw [heq] at hget
    exact hget
  next interface w' heq =>
    rw [heq] at hget hname
    exact hget.trans (follows_call _ (hname interface rfl))

omit [DecidableEq ClassInfo] in
theorem follows_setConnectionEndInstalled (value : Bool) (w : World ClassInfo) :
    Follows w (w.setConnectionEndInstalled value) :=
  .of_eq rfl rfl rfl rfl

omit [DecidableEq ClassInfo] in
/-- Installing it when the Internet Enabler is there. -/
theorem follows_maybeInstallConnectionEnd (own : ClassInfo) (a : ScriptAnswers)
    (w : World ClassInfo) : Follows w (maybeInstallConnectionEnd own a w) := by
  have hinstall := follows_installConnectionEnd own a.names a.classes w
  unfold maybeInstallConnectionEnd
  split
  next => exact .refl w
  next =>
    split
    next =>
      split
      next heq =>
        rw [heq] at hinstall
        exact hinstall
      next heq =>
        rw [heq] at hinstall
        exact hinstall.trans (follows_setConnectionEndInstalled true _)
    next => exact .refl w

omit [DecidableEq ClassInfo] in
theorem follows_installScript (own : ClassInfo) (a : ScriptAnswers) (w : World ClassInfo) :
    Follows w (installScript own a w) := by
  have hpresent : Follows w { w with present := true, globalContext := some ⟨false⟩ } :=
    .of_eq rfl rfl rfl rfl
  have hinstall := hpresent.trans (follows_install a.install _)
  unfold installScript
  split
  next heq =>
    rw [heq] at hinstall
    exact hinstall
  next heq =>
    rw [heq] at hinstall
    apply hinstall.trans
    apply Follows.trans _ (follows_maybeInstallConnectionEnd own a _)
    exact .of_eq rfl rfl rfl rfl

/-- The removal of the Internet Enabler. -/
theorem follows_announceRemoval (own : ClassInfo) (a : ScriptAnswers) (w : World ClassInfo) :
    Follows w (announceRemoval own a w) := by
  have hremove := follows_removeConnectionEnd own a.names a.classes w
  unfold announceRemoval importDisabled
  split
  next =>
    split
    next =>
      split
      next heq =>
        rw [heq] at hremove
        exact hremove
      next heq =>
        rw [heq] at hremove
        exact hremove.trans (follows_setConnectionEndInstalled false _)
    next => exact .refl w
  next => exact .refl w

/-- No event but the removal deletes an object. -/
theorem follows_event (own original : ClassInfo) (a : ScriptAnswers) (w : World ClassInfo)
    {e : Event} (he : e ≠ .packageRemoved) : Follows w (e.run own original a w) := by
  cases e with
  | nieInstalled => exact .of_eq rfl rfl rfl rfl
  | nieRemoved =>
    apply (follows_announceRemoval own a w).trans
    exact .of_eq rfl rfl rfl rfl
  | packageInstalled => exact follows_installScript own a w
  | packageRemoved => exact absurd rfl he
  | packagesChanged => exact .of_eq rfl rfl rfl rfl
  | procrastinatedCall =>
    have hfirst : Follows w { w with procrastinated := false } := .of_eq rfl rfl rfl rfl
    apply hfirst.trans
    show Follows _ (procrastinatedCall own a { w with procrastinated := false })
    unfold procrastinatedCall
    split
    next => exact follows_maybeInstallConnectionEnd own a _
    next => exact .refl _

omit [DecidableEq ClassInfo] in
/-- A call makes and deletes no object. -/
theorem Fresh.call {p : ℕ} {f : Registries ClassInfo → Result × Registries ClassInfo}
    (h : Fresh w) : Fresh (Installation.call p f w).2 := by
  unfold Installation.call
  split
  next => exact h
  next => exact h

/-- Deleting an object makes none. -/
theorem Fresh.delete {own : ClassInfo} {b : Answers} {p : ℕ} (h : Fresh w) :
    Fresh (Installation.delete own b p w).2 := by
  have hcall : Fresh (Installation.call p (ClassRegistry.removeConnectionEnd own b) w).2 := h.call
  unfold Installation.delete
  split
  next heq =>
    rw [heq] at hcall
    exact hcall
  next heq =>
    rw [heq] at hcall
    exact ⟨hcall.1.erase p, fun q hq => hcall.2 q (List.mem_of_mem_erase hq)⟩

/-- Objects that are made later are new, after a deletion. -/
theorem Fresh.deleteInterfaceSingleton {a : NameAnswers} {b : Answers} (h : Fresh w) :
    Fresh (Installation.deleteInterfaceSingleton own a b w) := by
  have hget := (follows_getInterfaceSingleton a false w).fresh h
  unfold Installation.deleteInterfaceSingleton
  split
  next heq =>
    rw [heq] at hget
    exact hget
  next heq =>
    rw [heq] at hget
    exact hget
  next interface w' heq =>
    rw [heq] at hget
    have hdelete : Fresh (Installation.delete own b interface w').2 := hget.delete
    split
    next heq' =>
      rw [heq'] at hdelete
      exact hdelete
    next heq' =>
      rw [heq'] at hdelete
      split
      next => exact hdelete
      next => exact hdelete

/-- The removal deletes the object under the name, and takes the name away or not, unless an
exception ends it before. -/
theorem removeScript_cases (own : ClassInfo) (a : ScriptAnswers) (hfresh : Fresh w)
    (hnamed : Named w) :
    (removeScript own a w).dangling = w.dangling ∧
      (Named (removeScript own a w) ↔ RemovalOrderly own w (.packageRemoved, a)) := by
  unfold removeScript deleteInterfaceSingleton getInterfaceSingleton
  cases hlookup : a.names.lookup with
  | some e =>
    refine ⟨rfl, iff_of_true hnamed ?_⟩
    intro _ hnone
    rw [hlookup] at hnone
    cases hnone
  | none =>
    cases hinterface : w.interface with
    | none =>
      refine ⟨rfl, iff_of_true ?_ ?_⟩
      · intro p hp
        cases hp
      · intro _ _ hsome
        rw [hinterface] at hsome
        cases hsome
    | some p =>
      have hlive := hnamed p hinterface
      have hgone : p ∉ w.live.erase p := hfresh.1.not_mem_erase
      by_cases hthrown :
          (ClassRegistry.removeConnectionEnd own a.classes w.registries).1 = .nullPointer
      · have horderly : RemovalOrderly own w (.packageRemoved, a) :=
          fun _ _ _ hreturns => absurd hthrown hreturns
        simp [delete, call, hlive, hthrown, Named, horderly]
      · by_cases hname : a.names.unRegisterName = 0
        · have horderly : RemovalOrderly own w (.packageRemoved, a) := fun _ _ _ _ => hname
          simp [hname, delete, call, hlive, hthrown, Named, horderly]
        · have hdisorderly : ¬ RemovalOrderly own w (.packageRemoved, a) := by
            intro horderly
            exact hname (horderly rfl hlookup (by rw [hinterface]; rfl) hthrown)
          simp [hname, delete, call, hlive, hthrown, Named, hdisorderly, hgone]

end scripts

section runs

variable {own original : ClassInfo} {l : List (World ClassInfo × Event × ScriptAnswers)}
  {w w' : World ClassInfo}

theorem Fresh.step {x : Event × ScriptAnswers} (h : Fresh w) (hstep : Step own original w x w') :
    Fresh w' := by
  obtain ⟨e, a⟩ := x
  obtain ⟨-, rfl⟩ := hstep
  by_cases he : e = .packageRemoved
  · subst he
    have hbefore : Fresh { w with
        present := false, regSoupChangeCb := false, globalContext := none } := h
    exact hbefore.deleteInterfaceSingleton
  · exact (follows_event own original a w he).fresh h

/-- One step, while the name is that of an object that is there. -/
theorem step_cases {x : Event × ScriptAnswers} (hfresh : Fresh w) (hnamed : Named w)
    (hstep : Step own original w x w') :
    w'.dangling = w.dangling ∧ (Named w' ↔ RemovalOrderly own w x) := by
  obtain ⟨e, a⟩ := x
  obtain ⟨-, rfl⟩ := hstep
  by_cases he : e = .packageRemoved
  · subst he
    exact removeScript_cases own a hfresh hnamed
  · have hfollows := follows_event own original a w he
    exact ⟨hfollows.dangling hnamed,
      iff_of_true (hfollows.named hnamed) fun h => absurd h he⟩

omit [DecidableEq ClassInfo] in
/-- At the beginning no object has been made. -/
theorem fresh_start : Fresh (World.start : World ClassInfo) :=
  ⟨List.nodup_nil, List.forall_mem_nil _⟩

/-- **The name server knows a deleted object** at some time of a run exactly if a removal of the
package fails to take the name away, whatever else fails.  Until then no deleted object is
called. -/
theorem interface_live_iff (own original : ClassInfo)
    (l : List (World ClassInfo × Event × ScriptAnswers)) (w : World ClassInfo)
    (h : Path (Step own original) World.start l w) :
    (Throughout Named l w ↔ ∀ x ∈ l, RemovalOrderly own x.1 x.2) ∧
      (Throughout Named l w → w.dangling = false) := by
  constructor
  · apply h.throughout_iff fresh_start
    · intro p hp
      cases hp
    · intro s x s' hfresh hstep
      exact hfresh.step hstep
    · intro s x s' hfresh hnamed hstep
      exact (step_cases hfresh hnamed hstep).2
  · intro hnamed
    induction h with
    | start => rfl
    | step hpath hstep ih =>
      rw [throughout_concat] at hnamed
      have hfresh := hpath.invariant fresh_start fun s x s' hs hx => hs.step hx
      rw [(step_cases hfresh hnamed.1.2 hstep).1]
      exact ih hnamed.1

/-- The name stays behind once, and the package is installed again. -/
def reinstalled : List (World ℕ × Event × ScriptAnswers) × World ℕ :=
  play 1 0 [] World.start [(.nieInstalled, fine), (.packageInstalled, fine),
    (.packageRemoved, { fine with names := ⟨none, true, 0, -10003⟩ }), (.packageInstalled, fine)]

/-- A removal that fails leaves a name without an object. -/
theorem interface_live_iff_reinstalled : reinstalled.2.dangling = true ∧
    (Throughout Named reinstalled.1 reinstalled.2 ↔
      ∀ x ∈ reinstalled.1, RemovalOrderly 1 x.1 x.2) ∧
      (Throughout Named reinstalled.1 reinstalled.2 → reinstalled.2.dangling = false) :=
  ⟨rfl, interface_live_iff 1 0 reinstalled.1 reinstalled.2
    (path_play _ .start ⟨rfl, rfl, rfl, rfl, trivial⟩)⟩

end runs

end Installation

end NewtonTLS
