/-
# Several programs in one memory

The linker places the sections of a program where it likes, and other programs are there too.  An
image is a list of programs that share no address.  What one of them does by itself it does in the
image (`Image.leads_of_mem`), and the rules of composition carry over, so that a proof can follow a
call from one program into another.

Nothing in this module is about a particular program.
-/
import NewtonTLS.Arm

namespace Arm

variable {L : Type}

/-! ## Programs apart -/

namespace Program

variable {p q : Program L}

/-- A program ends before another begins, and that one ends before the memory does. -/
def Below (p q : Program L) : Prop :=
  p.base.toNat + 4 * (instrs p.text).length ≤ q.base.toNat ∧
    q.base.toNat + 4 * (instrs q.text).length ≤ 2 ^ 32

instance (p q : Program L) : Decidable (p.Below q) :=
  inferInstanceAs (Decidable (_ ∧ _))

/-- What is fetched is in the text. -/
theorem lt_of_fetch {a : Word} (h : p.fetch a ≠ none) :
    (a - p.base).toNat < 4 * (instrs p.text).length := by
  unfold fetch at h
  by_cases hmod : (a - p.base).toNat % 4 = 0
  · rw [if_pos hmod] at h
    have hlt : (a - p.base).toNat / 4 < (instrs p.text).length := by
      by_contra hge
      exact h (List.getElem?_eq_none (Nat.le_of_not_lt hge))
    omega
  · rw [if_neg hmod] at h
    exact absurd rfl h

/-- Such programs share no address. -/
theorem Below.apart (h : p.Below q) (a : Word) : p.fetch a = none ∨ q.fetch a = none := by
  by_contra hboth
  rw [not_or] at hboth
  obtain ⟨hp, hq⟩ := hboth
  have hlow := lt_of_fetch hp
  have hhigh := lt_of_fetch hq
  obtain ⟨hends, hfits⟩ := h
  rw [BitVec.toNat_sub] at hlow hhigh
  have ha := a.isLt
  omega

end Program

/-- Programs that share no address. -/
structure Image (L : Type) where
  programs : List (Program L)
  apart : programs.Pairwise fun p q => ∀ a, p.fetch a = none ∨ q.fetch a = none

namespace Image

variable [DecidableEq L] {m : Image L} {p : Program L} {s s' : State}

/-- One instruction, of the program that has one at the program counter. -/
def step (m : Image L) (s : State) : Option State := m.programs.findSome? fun p => p.step s

/-- A number of instructions. -/
def run (m : Image L) : ℕ → State → Option State
  | 0, s => some s
  | n + 1, s => (m.step s).bind (run m n)

/-- Outside of the text a program does nothing. -/
theorem step_of_fetch (h : p.fetch s.pc = none) : p.step s = none := by
  unfold Program.step
  rw [h]

/-- A program of the image goes on as it does alone. -/
theorem step_of_mem (hp : p ∈ m.programs) (h : p.step s = some s') : m.step s = some s' := by
  have hfetch : p.fetch s.pc ≠ none := by
    intro hnone
    rw [step_of_fetch hnone] at h
    cases h
  obtain ⟨programs, apart⟩ := m
  unfold step
  induction apart with
  | nil => cases hp
  | @cons q rest hq _ ih =>
    rw [List.findSome?_cons]
    rcases List.mem_cons.mp hp with rfl | hp
    · rw [h]
    · have hnone : q.fetch s.pc = none := (hq p hp s.pc).resolve_right hfetch
      rw [step_of_fetch hnone]
      exact ih hp

/-- A run of one program is one of the image. -/
theorem run_of_mem (hp : p ∈ m.programs) {n : ℕ} (h : p.run n s = some s') :
    m.run n s = some s' := by
  induction n generalizing s with
  | zero => exact h
  | succ n ih =>
    rw [Program.run_succ] at h
    cases hstep : p.step s with
    | none =>
      rw [hstep] at h
      cases h
    | some s₁ =>
      rw [hstep] at h
      rw [run, step_of_mem hp hstep]
      exact ih h

theorem run_add (i j : ℕ) (s : State) : m.run (i + j) s = (m.run i s).bind (m.run j) := by
  induction i generalizing s with
  | zero =>
    rw [Nat.zero_add]
    rfl
  | succ i ih =>
    rw [Nat.succ_add, run, run]
    cases m.step s with
    | none => rfl
    | some s₁ => exact ih s₁

/-! ## Total correctness -/

variable {i n : ℕ} {a a' a'' : Word} {P P' Q Q' R : Cpu → Prop}

/-- Within `n` instructions every processor at `a` with `P` becomes one at `a'` with `Q`. -/
def Leads (m : Image L) (n : ℕ) (a : Word) (P : Cpu → Prop) (a' : Word) (Q : Cpu → Prop) : Prop :=
  ∀ cpu, P cpu → ∃ j ≤ n, ∃ cpu', m.run j ⟨cpu, a⟩ = some ⟨cpu', a'⟩ ∧ Q cpu'

/-- What a program does it does in the image. -/
theorem leads_of_mem (hp : p ∈ m.programs) (h : p.Leads n a P a' Q) : m.Leads n a P a' Q := by
  intro cpu hcpu
  obtain ⟨j, hj, cpu', hrun, hQ⟩ := h cpu hcpu
  exact ⟨j, hj, cpu', run_of_mem hp hrun, hQ⟩

/-- The rule of consequence. -/
theorem Leads.imp (h : m.Leads i a P a' Q) (hn : i ≤ n) (hP : ∀ cpu, P' cpu → P cpu)
    (hQ : ∀ cpu, Q cpu → Q' cpu) : m.Leads n a P' a' Q' := by
  intro cpu hcpu
  obtain ⟨j, hj, cpu', hrun, hcpu'⟩ := h cpu (hP cpu hcpu)
  exact ⟨j, hj.trans hn, cpu', hrun, hQ cpu' hcpu'⟩

/-- The rule of composition. -/
theorem Leads.seq (h : m.Leads i a P a' Q) (h' : m.Leads n a' Q a'' R) :
    m.Leads (i + n) a P a'' R := by
  intro cpu hcpu
  obtain ⟨j, hj, cpu', hrun, hcpu'⟩ := h cpu hcpu
  obtain ⟨k, hk, cpu'', hrun', hcpu''⟩ := h' cpu' hcpu'
  refine ⟨j + k, Nat.add_le_add hj hk, cpu'', ?_, hcpu''⟩
  rw [run_add, hrun]
  exact hrun'

end Image

end Arm
