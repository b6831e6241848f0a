/-
# Paths of a system

A system makes steps, each with a label.  A path records every step with the state that it
starts in, so that a statement can speak of all states of a run and of all its steps.  Two rules
are about whole paths: what every step keeps holds throughout (`Path.throughout`), and a property
that each step keeps exactly under a condition holds throughout exactly when every step meets
that condition (`Path.throughout_iff`).

Nothing in this module is about a particular system.
-/
import Mathlib.Data.List.Basic

namespace Steps

variable {σ α : Type} {step : σ → α → σ → Prop} {start s : σ} {l : List (σ × α)}

/-- The paths from `start`, with their steps and the state in which they end. -/
inductive Path (step : σ → α → σ → Prop) (start : σ) : List (σ × α) → σ → Prop where
  | start : Path step start [] start
  | step {l : List (σ × α)} {s : σ} {a : α} {s' : σ} (h : Path step start l s)
      (hstep : step s a s') : Path step start (l ++ [(s, a)]) s'

/-- All states of a path satisfy `P`. -/
def Throughout (P : σ → Prop) (l : List (σ × α)) (s : σ) : Prop := (∀ x ∈ l, P x.1) ∧ P s

/-- All steps, with the last one. -/
theorem forall_mem_concat {P : σ × α → Prop} {x : σ × α} :
    (∀ y ∈ l ++ [x], P y) ↔ (∀ y ∈ l, P y) ∧ P x := by
  rw [List.forall_mem_append, List.forall_mem_singleton]

/-- All states, with the last one. -/
theorem throughout_concat {P : σ → Prop} {x : σ × α} :
    Throughout P (l ++ [x]) s ↔ Throughout P l x.1 ∧ P s := by
  unfold Throughout
  rw [forall_mem_concat]

/-- A path begins in its start. -/
theorem Path.throughout_start {P : σ → Prop} (h : Path step start l s) (hP : Throughout P l s) :
    P start := by
  induction h with
  | start => exact hP.2
  | step _ _ ih => exact ih (throughout_concat.mp hP).1

/-- What every step keeps holds throughout. -/
theorem Path.throughout {I : σ → Prop} (h : Path step start l s) (hstart : I start)
    (hI : ∀ s a s', I s → step s a s' → I s') : Throughout I l s := by
  induction h with
  | start => exact ⟨List.forall_mem_nil _, hstart⟩
  | step _ hstep ih =>
    rw [throughout_concat]
    exact ⟨ih, hI _ _ _ ih.2 hstep⟩

/-- An invariant of the steps holds at the end. -/
theorem Path.invariant {I : σ → Prop} (h : Path step start l s) (hstart : I start)
    (hI : ∀ s a s', I s → step s a s' → I s') : I s :=
  (h.throughout hstart hI).2

/-- A property that a step keeps exactly when it meets `C` holds throughout exactly when every
step meets `C`. -/
theorem Path.throughout_iff {I P : σ → Prop} {C : σ → α → Prop} (h : Path step start l s)
    (hstart : I start) (hP : P start) (hI : ∀ s a s', I s → step s a s' → I s')
    (hC : ∀ s a s', I s → P s → step s a s' → (P s' ↔ C s a)) :
    Throughout P l s ↔ ∀ x ∈ l, C x.1 x.2 := by
  induction h with
  | start => exact iff_of_true ⟨List.forall_mem_nil _, hP⟩ (List.forall_mem_nil _)
  | step hpath hstep ih =>
    rw [throughout_concat, forall_mem_concat, ih]
    constructor
    · rintro ⟨hsteps, hend⟩
      have hbefore := (ih.mpr hsteps).2
      exact ⟨hsteps, (hC _ _ _ (hpath.invariant hstart hI) hbefore hstep).mp hend⟩
    · rintro ⟨hsteps, hlast⟩
      have hbefore := (ih.mpr hsteps).2
      exact ⟨hsteps, (hC _ _ _ (hpath.invariant hstart hI) hbefore hstep).mpr hlast⟩

/-- A property that every step of this path keeps holds in the end. -/
theorem Path.kept {I : σ → Prop} (h : Path step start l s) (hstart : I start)
    (hI : ∀ x ∈ l, ∀ s', I x.1 → step x.1 x.2 s' → I s') : I s := by
  induction h with
  | start => exact hstart
  | step _ hstep ih =>
    rw [forall_mem_concat] at hI
    exact hI.2 _ (ih hI.1) hstep

/-- A path leads through every step that it records, and goes on from where the step ends. -/
theorem Path.split {pre post : List (σ × α)} {x : σ × α}
    (h : Path step start (pre ++ x :: post) s) :
    Path step start pre x.1 ∧ ∃ s', step x.1 x.2 s' ∧ Path step s' post s := by
  obtain ⟨l, hl⟩ : ∃ l, l = pre ++ x :: post := ⟨_, rfl⟩
  rw [← hl] at h
  induction h generalizing post with
  | start => exact absurd hl.symm (List.append_ne_nil_of_right_ne_nil _ (List.cons_ne_nil _ _))
  | step hpath hstep ih =>
    rcases List.eq_nil_or_concat post with rfl | ⟨post', y, rfl⟩
    · -- it is the last step
      obtain ⟨rfl, heq⟩ := List.append_inj' hl rfl
      rw [List.cons.injEq] at heq
      rw [← heq.1]
      exact ⟨hpath, _, hstep, .start⟩
    · rw [List.concat_eq_append] at hl ⊢
      rw [← List.cons_append, ← List.append_assoc] at hl
      obtain ⟨hl', heq⟩ := List.append_inj' hl rfl
      obtain ⟨hpre, s', hfirst, hpost⟩ := ih hl'
      rw [List.cons.injEq] at heq
      rw [← heq.1]
      exact ⟨hpre, s', hfirst, .step hpost hstep⟩

end Steps
