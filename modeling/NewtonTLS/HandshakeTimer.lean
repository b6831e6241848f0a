/-
# The timer of the handshake

`SSLSetTimerCallback`, `SSLGetTimerCallback` and `HandleTimerTick` of
`Protocol/PMbedTLSConnectionEnd.cpp`.  The two deadlines are sums of the clock, a counter of
milliseconds of 32 bits that wraps every seven weeks, and are compared with it as they are.
The comparison is right as long as neither the last deadline nor the reading passes the end of
the counter, or both do (`timer_correct_iff`).
-/
import NewtonTLS.ConnectionEndRuns
import NewtonTLS.MachineInt
import NewtonTLS.ReentrantTriple

open Reentrant

namespace NewtonTLS

namespace HandshakeTimer

open MachineInt

variable {G : Type} {E : Environment CESig ConnectionEnd} {next : G → Happening CESig → G} {g : G}

/-! ## The timer fields -/

/-- The fields that the timer callbacks use. -/
structure TimerFields : Type where
  mSSLTimerInt : UInt32
  mSSLTimerFin : UInt32
  mSSLTimerFired : Bool
  deriving DecidableEq

/-- The timer of the connection end. -/
def timerFields (s : ConnectionEnd) : TimerFields :=
  ⟨s.mSSLTimerInt, s.mSSLTimerFin, s.mSSLTimerFired⟩

/-- The object with other timer fields. -/
def withTimer (s : ConnectionEnd) (f : TimerFields) : ConnectionEnd :=
  { s with
    mSSLTimerInt := f.mSSLTimerInt
    mSSLTimerFin := f.mSSLTimerFin
    mSSLTimerFired := f.mSSLTimerFired }

@[simp] theorem timerFields_withTimer (s : ConnectionEnd) (f : TimerFields) :
    timerFields (withTimer s f) = f := rfl

/-- The clock stands at `t`. -/
def ClockAt (E : Environment CESig ConnectionEnd) (t : UInt32) : Prop :=
  ∀ n, E.answer n Query.getGlobalTime = t

/-- The timer was last set with these delays when the clock read `t`: the fields are still those
that `SSLSetTimerCallback` has left. -/
def SetAt (int_ms fin_ms t : UInt32) (s : ConnectionEnd) : Prop :=
  ∃ E n s₀ s₁, ClockAt E t ∧ ((sslSetTimerCallback int_ms fin_ms).drive E n s₀).2 = .done s₁ () ∧
    timerFields s = timerFields s₁

/-- What `SSLSetTimerCallback` leaves. -/
def deadlines (int_ms fin_ms t : UInt32) : TimerFields :=
  if fin_ms = 0 then ⟨0, 0, false⟩ else ⟨int_ms + t, fin_ms + t, false⟩

/-- The callback sets the deadlines. -/
theorem leads_sslSetTimerCallback {t : UInt32} (hE : ClockAt E t) (int_ms fin_ms : UInt32)
    (s : ConnectionEnd) :
    (sslSetTimerCallback int_ms fin_ms).Leads E next
      (fun _ r => r = .done (withTimer s (deadlines int_ms fin_ms t)) ()) g s := by
  unfold sslSetTimerCallback deadlines
  by_cases hfin : fin_ms = 0
  · rw [if_pos hfin, if_pos hfin]
    exact Code.leads_modify rfl
  · rw [if_neg hfin, if_neg hfin]
    apply Code.leads_ask_bind
    intro n
    rw [hE n]
    exact Code.leads_modify rfl

theorem set_eq {t : UInt32} (hE : ClockAt E t) (int_ms fin_ms : UInt32) (n : ℕ)
    (s : ConnectionEnd) : ((sslSetTimerCallback int_ms fin_ms).drive E n s).2 =
      .done (withTimer s (deadlines int_ms fin_ms t)) () := by
  have hset : (sslSetTimerCallback int_ms fin_ms).Leads E (fun u _ => u)
      (fun (_ : Unit) r => r = .done (withTimer s (deadlines int_ms fin_ms t)) ()) () s :=
    leads_sslSetTimerCallback hE int_ms fin_ms s
  exact hset n

/-- The timer was set at `t` exactly when it has the deadlines of `t`. -/
theorem setAt_iff {int_ms fin_ms t : UInt32} {s : ConnectionEnd} (hE : ClockAt E t) :
    SetAt int_ms fin_ms t s ↔ timerFields s = deadlines int_ms fin_ms t := by
  constructor
  · rintro ⟨E', n, s₀, s₁, hE', hset, hfields⟩
    rw [set_eq hE'] at hset
    rw [hfields, ← (Ending.done.inj hset).1, timerFields_withTimer]
  · intro hfields
    exact ⟨E, 0, s, _, hE, set_eq hE int_ms fin_ms 0 s, hfields⟩

/-! ## Readings -/

/-- A call of `mbedtls_ssl_handshake`. -/
def IsHandshake : Happening CESig → Prop
  | .called .mbedtlsSslHandshake _ => True
  | _ => False

/-- What `SSLGetTimerCallback` makes of the fields. -/
def reading (f : TimerFields) (now : UInt32) : ℤ :=
  if f.mSSLTimerFin = 0 then -1
  else if f.mSSLTimerFin ≤ now then 2
  else if f.mSSLTimerInt ≤ now then 1
  else 0

/-- The callback reads the timer and leaves it as it is, but for the flag. -/
theorem leads_sslGetTimerCallback {now : UInt32} (hE : ClockAt E now) (s : ConnectionEnd) :
    sslGetTimerCallback.Leads E next
      (fun _ r => r = .done s (reading (timerFields s) now)) g s := by
  unfold sslGetTimerCallback reading
  apply Code.leads_get_bind
  by_cases hfin : s.mSSLTimerFin = 0
  · rw [if_pos hfin, if_pos (show (timerFields s).mSSLTimerFin = 0 from hfin)]
    exact Code.leads_pure rfl
  · rw [if_neg hfin, if_neg (show ¬ (timerFields s).mSSLTimerFin = 0 from hfin)]
    apply Code.leads_ask_bind
    intro n
    rw [hE n]
    by_cases hover : s.mSSLTimerFin ≤ now
    · rw [if_pos hover, if_pos (show (timerFields s).mSSLTimerFin ≤ now from hover)]
      exact Code.leads_pure rfl
    · rw [if_neg hover, if_neg (show ¬ (timerFields s).mSSLTimerFin ≤ now from hover)]
      by_cases hint : s.mSSLTimerInt ≤ now
      · rw [if_pos hint, if_pos (show (timerFields s).mSSLTimerInt ≤ now from hint)]
        exact Code.leads_pure rfl
      · rw [if_neg hint, if_neg (show ¬ (timerFields s).mSSLTimerInt ≤ now from hint)]
        exact Code.leads_pure rfl

/-- A tick shakes hands only when the last deadline is over. -/
theorem leads_handleTimerTick (now : UInt32) (s : ConnectionEnd) :
    (handleTimerTick now).Leads E (any IsHandshake)
      (fun hands _ => hands → (timerFields s).mSSLTimerFin ≤ now) False s := by
  unfold handleTimerTick
  apply Code.leads_get_bind
  by_cases hover : s.mSSLTimerFin ≤ now
  · exact (Code.leads_true _).mono fun _ _ _ _ => hover
  · have hinner : (inner .handleTimerTick).Leads E (any IsHandshake)
        (fun hands _ => hands → (timerFields s).mSSLTimerFin ≤ now) False s := by
      apply Code.leads_call_bind
      intro n
      apply Code.leads_pure
      rintro (hands | hands)
      · exact hands.elim
      · exact hands.elim
    dsimp only
    split
    · exact hinner
    · exact hinner

/-! ## The law of the timer -/

/-- What mbedTLS asks of the timer `e` milliseconds after it has been set. -/
def expected (int_ms fin_ms e : UInt32) : ℤ :=
  if e < int_ms then 0 else if e < fin_ms then 1 else 2

/-- Set when the clock read `t`, the timer is right `e` milliseconds later. -/
def Right (int_ms fin_ms t e : UInt32) : Prop :=
  ∀ s, SetAt int_ms fin_ms t s → ∀ E, ClockAt E (t + e) → ∀ n,
    (sslGetTimerCallback.drive E n s).2 = .done s (expected int_ms fin_ms e) ∧
    ((∃ x ∈ ((handleTimerTick (t + e)).drive E n s).1, IsHandshake x) → fin_ms ≤ e)

/-- Neither the last deadline nor the reading passes the end of the counter, or both do and the
intermediate deadline too, unless the last one is over; and the last one is not 0. -/
def InStep (int_ms fin_ms t e : UInt32) : Prop :=
  (¬ Wraps t fin_ms ∧ ¬ Wraps t e) ∨
    (t + fin_ms ≠ 0 ∧ Wraps t fin_ms ∧ Wraps t e ∧ (fin_ms ≤ e ∨ Wraps t int_ms))

instance (int_ms fin_ms t e : UInt32) : Decidable (InStep int_ms fin_ms t e) := by
  unfold InStep
  infer_instance

/-- A sum that does not wrap adds less than one that does. -/
theorem lt_of_wraps {a b c : UInt32} (hb : ¬ Wraps a b) (hc : Wraps a c) : b < c := by
  rw [UInt32.lt_iff_toNat_lt]
  unfold Wraps at hb hc
  omega

/-- Adding more wraps all the more. -/
theorem wraps_of_le {a b c : UInt32} (hbc : b ≤ c) (hb : Wraps a b) : Wraps a c := by
  have hle := UInt32.le_iff_toNat_le.mp hbc
  unfold Wraps at hb ⊢
  omega

theorem wraps_of_add_eq_zero {a b : UInt32} (hb : b ≠ 0) (h : a + b = 0) : Wraps a b := by
  unfold Wraps
  rcases add_eq_zero_iff.mp h with hsum | hsum
  · exact hsum.ge
  · have hnat : b.toNat = 0 := by omega
    exact absurd (UInt32.toNat_inj.mp hnat) hb

/-- The deadlines are compared with the time as they are. -/
theorem reading_deadlines (int_ms t now : UInt32) {fin_ms : UInt32} (hfin : fin_ms ≠ 0) :
    reading (deadlines int_ms fin_ms t) now =
      if t + fin_ms = 0 then -1
      else if t + fin_ms ≤ now then 2 else if t + int_ms ≤ now then 1 else 0 := by
  unfold reading deadlines
  rw [if_neg hfin, UInt32.add_comm int_ms, UInt32.add_comm fin_ms]

variable {int_ms fin_ms t e : UInt32}

/-- Before the first delay has passed. -/
theorem expected_of_lt (h : e < int_ms) : expected int_ms fin_ms e = 0 := if_pos h

theorem expected_of_between (hint : int_ms ≤ e) (hfin : e < fin_ms) :
    expected int_ms fin_ms e = 1 := by
  unfold expected
  rw [if_neg (UInt32.not_lt.mpr hint), if_pos hfin]

theorem expected_of_le (hle : int_ms ≤ fin_ms) (h : fin_ms ≤ e) :
    expected int_ms fin_ms e = 2 := by
  unfold expected
  rw [if_neg (UInt32.not_lt.mpr (UInt32.le_trans hle h)), if_neg (UInt32.not_lt.mpr h)]

/-- The reading of the deadlines is what is expected exactly when they are in step. -/
theorem reading_deadlines_iff (hle : int_ms ≤ fin_ms) (hfin : fin_ms ≠ 0) :
    reading (deadlines int_ms fin_ms t) (t + e) = expected int_ms fin_ms e ↔
      InStep int_ms fin_ms t e := by
  have hfinal := add_le_add_iff t (b := fin_ms) (c := e)
  have hinter := add_le_add_iff t (b := int_ms) (c := e)
  rw [reading_deadlines int_ms t (t + e) hfin]
  unfold InStep
  by_cases hzero : t + fin_ms = 0
  · -- a timer that is set reads as one that is cancelled
    have hwf := wraps_of_add_eq_zero hfin hzero
    rw [if_pos hzero]
    unfold expected
    constructor
    · intro h
      split at h
      · cases h
      · split at h <;> cases h
    · rintro (⟨hnot, -⟩ | ⟨hnot, -⟩)
      · exact absurd hwf hnot
      · exact absurd hzero hnot
  rw [if_neg hzero]
  by_cases hwf : Wraps t fin_ms
  · by_cases hwe : Wraps t e
    · -- past the end of the counter: only the intermediate deadline may be left behind
      simp only [hwf, hwe, hzero, not_true_eq_false, and_false, false_or, iff_true, true_and,
        ne_eq, not_false_eq_true] at hfinal hinter ⊢
      by_cases hover : fin_ms ≤ e
      · rw [if_pos (hfinal.mpr hover), expected_of_le hle hover]
        simp only [hover, true_or]
      · have hbefore : e < fin_ms := UInt32.not_le.mp hover
        rw [if_neg (mt hfinal.mp hover)]
        by_cases hint : int_ms ≤ e
        · rw [expected_of_between hint hbefore]
          by_cases hwi : Wraps t int_ms
          · rw [if_pos (hinter.mpr ⟨hwi, hint⟩)]
            simp only [hwi, or_true]
          · rw [if_neg fun h => hwi (hinter.mp h).1]
            simp only [hover, hwi, or_self, iff_false]
            decide
        · -- the intermediate deadline comes after the reading, and so has wrapped
          have hwi : Wraps t int_ms := wraps_of_le (UInt32.le_of_lt (UInt32.not_le.mp hint)) hwe
          rw [expected_of_lt (UInt32.not_le.mp hint), if_neg fun h => hint (hinter.mp h).2]
          simp only [hwi, or_true]
    · -- the last deadline has wrapped and reads as past
      have hbefore := lt_of_wraps hwe hwf
      have hpast : t + fin_ms ≤ t + e := hfinal.mpr (.inl ⟨hwf, hwe⟩)
      rw [if_pos hpast]
      simp only [hwf, hwe, not_true_eq_false, false_and, and_false, or_false, iff_false]
      by_cases hint : int_ms ≤ e
      · rw [expected_of_between hint hbefore]
        decide
      · rw [expected_of_lt (UInt32.not_le.mp hint)]
        decide
  · have hwi : ¬ Wraps t int_ms := mt (wraps_of_le hle) hwf
    by_cases hwe : Wraps t e
    · -- the reading has wrapped and reads as before both deadlines
      have hover := lt_of_wraps hwf hwe
      simp only [hwf, hwi, hwe, false_and, false_iff, not_true_eq_false, or_false] at hfinal hinter
      rw [if_neg hfinal.mp, if_neg hinter.mp, expected_of_le hle (UInt32.le_of_lt hover)]
      simp only [hwf, hwe, not_true_eq_false, and_false, false_and, or_false, iff_false]
      decide
    · simp only [hwf, hwi, hwe, false_and, true_and, false_or] at hfinal hinter
      simp only [hwf, hwe, not_false_eq_true, and_self, true_or, iff_true]
      by_cases hover : fin_ms ≤ e
      · rw [if_pos (hfinal.mpr hover), expected_of_le hle hover]
      · rw [if_neg (mt hfinal.mp hover)]
        by_cases hint : int_ms ≤ e
        · rw [if_pos (hinter.mpr hint), expected_of_between hint (UInt32.not_le.mp hover)]
        · rw [if_neg (mt hinter.mp hint), expected_of_lt (UInt32.not_le.mp hint)]

/-! ## When the timer is right -/

/-- The answers when the clock stands at `t`. -/
def clockAnswer (t : UInt32) : (q : Query) → q.Answer
  | .getGlobalTime => t
  | q => plainAnswer q

/-- An environment in which it is always the tick `t`. -/
def clock (t : UInt32) : Environment CESig ConnectionEnd where
  answer := fun _ => clockAnswer t
  result := fun _ c s => (results 0 (.error MBEDTLS_ERR_SSL_WANT_READ) c, s)

theorem clockAt_clock (t : UInt32) : ClockAt (clock t) t := fun _ => rfl

theorem get_eq {now : UInt32} (hE : ClockAt E now) (n : ℕ) (s : ConnectionEnd) :
    (sslGetTimerCallback.drive E n s).2 = .done s (reading (timerFields s) now) := by
  have hget : sslGetTimerCallback.Leads E (fun u _ => u)
      (fun (_ : Unit) r => r = .done s (reading (timerFields s) now)) () s :=
    leads_sslGetTimerCallback hE s
  exact hget n

/-- A tick after a timer has been set. -/
theorem hands_of_tick {now : UInt32} {n : ℕ} {s : ConnectionEnd}
    (h : ∃ x ∈ ((handleTimerTick now).drive E n s).1, IsHandshake x) :
    (timerFields s).mSSLTimerFin ≤ now := by
  have htick : (handleTimerTick now).Leads E (any IsHandshake)
      (fun hands _ => hands → (timerFields s).mSSLTimerFin ≤ now) False s :=
    leads_handleTimerTick now s
  exact htick n ((foldl_any IsHandshake _ False).mpr (.inr h))

/-- The result is right when the deadlines are in step with the time. -/
theorem right_iff (hle : int_ms ≤ fin_ms) (hfin : fin_ms ≠ 0) :
    Right int_ms fin_ms t e ↔ InStep int_ms fin_ms t e := by
  rw [← reading_deadlines_iff hle hfin]
  constructor
  · intro h
    have hset : SetAt int_ms fin_ms t (withTimer (new zeroMemory) (deadlines int_ms fin_ms t)) :=
      (setAt_iff (clockAt_clock t)).mpr rfl
    have hget := (h _ hset (clock (t + e)) (clockAt_clock _) 0).1
    rw [get_eq (clockAt_clock _)] at hget
    exact (Ending.done.inj hget).2
  · intro h s hset E hE n
    have hfields := (setAt_iff (clockAt_clock t)).mp hset
    constructor
    · rw [get_eq hE, hfields, h]
    · -- a tick shakes hands when the reading says that both delays are over
      intro hhands
      have hover := hands_of_tick hhands
      rw [hfields] at hover
      unfold reading at h
      rw [if_pos hover] at h
      by_contra hbefore
      have hlt : e < fin_ms := UInt32.not_le.mp hbefore
      unfold expected at h
      rw [if_pos hlt] at h
      split at h
      · split at h <;> cases h
      · split at h <;> cases h

/-- **The timer across the end of the counter.**  A timer that is set reads as it should and its
ticks shake hands in time if and only if the deadlines and the reading are in step, and a timer
that is cancelled reads -1. -/
theorem timer_right_iff (int_ms fin_ms t e : UInt32) :
    (int_ms ≤ fin_ms → 0 < fin_ms → (Right int_ms fin_ms t e ↔ InStep int_ms fin_ms t e)) ∧
    ∀ (now : UInt32) (s : ConnectionEnd), SetAt int_ms 0 t s →
      ∀ E, ClockAt E now → ∀ n, (sslGetTimerCallback.drive E n s).2 = .done s (-1) := by
  constructor
  · intro hle hfin
    apply right_iff hle
    rintro rfl
    exact absurd hfin (UInt32.lt_irrefl 0)
  · intro now s hset E hE n
    rw [get_eq hE, (setAt_iff (clockAt_clock t)).mp hset]
    rfl

/-- A timer that is set half a second before the end of the counter, after three seconds. -/
theorem timer_right_iff_crossing :
    (1000 : UInt32) ≤ 4000 ∧ (0 : UInt32) < 4000 ∧ Right 1000 4000 4294966796 3000 :=
  ⟨by decide, by decide,
    ((timer_right_iff 1000 4000 4294966796 3000).1 (by decide) (by decide)).mpr (by decide)⟩

/-- Set 100 ms before the end of the counter, a timer of 200 ms is over at once. -/
theorem not_timer_right :
    ¬ ∀ int_ms fin_ms t e : UInt32, int_ms ≤ fin_ms → 0 < fin_ms → fin_ms.toNat < 2 ^ 31 →
      e.toNat < 2 ^ 31 → Right int_ms fin_ms t e := by
  intro hall
  have hright := hall 50 200 4294967196 0 (by decide) (by decide) (by decide) (by decide)
  have hstep := (right_iff (by decide) (by decide)).mp hright
  exact absurd hstep (by decide)

end HandshakeTimer

end NewtonTLS
