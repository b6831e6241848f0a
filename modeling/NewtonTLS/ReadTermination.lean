/-
# The loop of `DoSSLRead`

`DoSSLRead` calls `mbedtls_ssl_read` until it fails or the threshold is reached.  A result of 0
below the threshold is neither: when the transport is at its end, or when the buffer is full
and the threshold is above its size, every further result is 0 too, and the loop goes on
for ever.  In every other case it ends (`ends_iff_not_stuck`).
-/
import NewtonTLS.ConnectionEndTraffic
import NewtonTLS.ReentrantDrive

open Reentrant

namespace NewtonTLS

namespace ReadTermination

/-! ## The results of `mbedtls_ssl_read` -/

/-- The bytes that a result brings. -/
def bytesRead : Except Int (List Byte) → ℕ
  | .ok bs => bs.length
  | .error _ => 0

/-- The bytes that the first `k` results bring. -/
def total (reads : ℕ → Except Int (List Byte)) : ℕ → ℕ
  | 0 => 0
  | k + 1 => total reads k + bytesRead (reads k)

/-- The contract of `mbedtls_ssl_read`, for a buffer of `size` bytes that holds `count` of them
at first: a result fits into the rest of the buffer; it is 0 when there is no rest, or at the
end of the transport, and then so are all later ones; and a failure is a negative code. -/
structure Allowed (size count : ℕ) (reads : ℕ → Except Int (List Byte)) : Prop where
  fits : ∀ k bs, reads k = .ok bs → bs.length ≤ size - (count + total reads k)
  zero : ∀ k, reads k = .ok [] → size - (count + total reads k) = 0 ∨
    ∀ j, k ≤ j → reads j = .ok []
  negative : ∀ k e, reads k = .error e → e < 0

/-- No result is a failure up to some call from which on every result is 0, and the threshold has
not been reached then. -/
def Stuck (count : ℕ) (threshold : Int) (reads : ℕ → Except Int (List Byte)) : Prop :=
  ∃ k, (∀ j, j < k → ∃ bs, reads j = .ok bs) ∧ ((count + total reads k : ℕ) : Int) < threshold ∧
    ∀ j, k ≤ j → reads j = .ok []

/-! ## The loop -/

/-- An environment of `DoSSLRead`: the results of `mbedtls_ssl_read`, and whatever else is asked
and called.  What happens during the functions of mbedTLS leaves the core alone. -/
structure ReadEnvironment : Type where
  answer : ℕ → (q : Query) → q.Answer
  reads : ℕ → Except Int (List Byte)
  others : ℕ → (c : Call) → c.Result
  leaves : ℕ → Call → ConnectionEnd → ConnectionEnd
  core : ∀ n c s, c.isTLS = true → SameCore s (leaves n c s)

/-- The environment, in which the calls to mbedTLS and the client leave the connection end alone. -/
def ReadEnvironment.toEnvironment (E : ReadEnvironment) : Environment CESig ConnectionEnd where
  answer := E.answer
  result := fun n c s =>
    (match c with
      | .mbedtlsSslRead _ => E.reads n
      | c => E.others n c, E.leaves n c s)

/-- The get is completed, or it is left outstanding. -/
def Settled (l : List (Happening CESig)) (r : Ending CESig ConnectionEnd Unit) : Prop :=
  ∃ s, r = .done s () ∧
    ((∃ err n, .called (.client (.getComplete err true n)) () ∈ l) ∨ s.mSSLReadBuffer.isSome = true)

/-- The loop ends after finitely many rounds. -/
def Ends (E : ReadEnvironment) (b : ℕ) (threshold : Int) (s : ConnectionEnd) : Prop :=
  ∃ fuel, (doSSLRead fuel (.client b) threshold).Drives E.toEnvironment Settled 0 s

/-- The loop is left after result `k`: it is a failure, or reaches the threshold. -/
def Leaves (count : ℕ) (threshold : Int) (reads : ℕ → Except Int (List Byte)) (k : ℕ) : Prop :=
  (∃ e, reads k = .error e) ∨ threshold ≤ ((count + total reads (k + 1) : ℕ) : Int)

/-! ## The end of the loop -/

section loop

variable {E : ReadEnvironment} {b n : ℕ} {threshold : Int} {s : ConnectionEnd}

/-- What is settled stays so behind other happenings. -/
theorem Settled.after (before : List (Happening CESig)) {l : List (Happening CESig)}
    {r : Ending CESig ConnectionEnd Unit} (h : Settled l r) : Settled (before ++ l) r := by
  obtain ⟨s', hr, hend⟩ := h
  refine ⟨s', hr, hend.imp_left fun hcompleted => ?_⟩
  obtain ⟨err, m, hmem⟩ := hcompleted
  exact ⟨err, m, List.mem_append_right before hmem⟩

/-- The functions of mbedTLS leave the buffer as it is. -/
theorem ReadEnvironment.core_eq (n : ℕ) {c : Call} (hc : c.isTLS = true) :
    (E.leaves n c s).mSSLReadBuffer = s.mSSLReadBuffer ∧
      (E.leaves n c s).mSSLReadBufferSize = s.mSSLReadBufferSize ∧
      (E.leaves n c s).mSSLReadCount = s.mSSLReadCount :=
  ⟨(E.core n c s hc).mSSLReadBuffer, (E.core n c s hc).mSSLReadBufferSize,
    (E.core n c s hc).mSSLReadCount⟩

/-- What has been read is put into the client's list. -/
theorem drives_putnReadBuffer {Q : List (Happening CESig) → Ending CESig ConnectionEnd Unit → Prop}
    (buf : Block) (hQ : ∀ l s', Q l (.done s' ())) :
    (putnReadBuffer (.client b) buf).Drives E.toEnvironment Q n s := by
  simp only [putnReadBuffer, Code.drives_bind, Code.drives_get, Ending.andThen_done_nil]
  exact hQ _ _

theorem drives_runTimerCalls (ts : TimerCalls) :
    ∀ {n : ℕ} {s : ConnectionEnd}
      {Q : List (Happening CESig) → Ending CESig ConnectionEnd Unit → Prop},
      (∀ l s', Q l (.done s' ())) → (runTimerCalls ts).Drives E.toEnvironment Q n s := by
  induction ts with
  | nil =>
    intro n s Q hQ
    exact hQ _ _
  | cons t ts ih =>
    intro n s Q hQ
    simp only [runTimerCalls, sslSetTimerCallback, nowms, Code.drives_bind, Code.drives_ite,
      Code.drives_modify, Ending.andThen_done_nil]
    exact ⟨fun _ => ih hQ, fun _ => ih fun l s' => hQ _ s'⟩

theorem drives_sessionReset {Q : List (Happening CESig) → Ending CESig ConnectionEnd Unit → Prop}
    (hQ : ∀ l s', Q l (.done s' ())) :
    mbedtlsSslSessionReset.Drives E.toEnvironment Q n s := by
  simp only [mbedtlsSslSessionReset, Code.drives_bind]
  exact drives_runTimerCalls _ fun l s' => hQ _ _

/-- Telling the client of the end of a get settles it. -/
theorem drives_getComplete (err : NewtonErr) (m : ℕ) :
    (client (.getComplete err true m)).Drives E.toEnvironment Settled n s := by
  simp only [client, Code.drives_bind]
  exact ⟨_, rfl, .inl ⟨err, m, List.mem_cons_self⟩⟩

/-- The end of `DoSSLRead` after a failure. -/
theorem drives_failed (err : Int) {buf : Block} (hbuf : s.mSSLReadBuffer = some buf) :
    Code.Drives E.toEnvironment Settled (do
      modify fun s : ConnectionEnd => { s with mEstablished := false, mClosing := true }
      let s ← get
      if 0 < s.mSSLReadCount then
        let buf ← deref s.mSSLReadBuffer
        putnReadBuffer (.client b) buf
      mbedtlsSslSessionReset
      client (.getComplete (.code err) true s.mSSLReadCount)) n s := by
  have htell : ∀ n s m, Code.Drives E.toEnvironment Settled (do
      mbedtlsSslSessionReset
      client (.getComplete (.code err) true m)) n s := by
    intro n s m
    rw [Code.drives_bind]
    exact drives_sessionReset fun l s' =>
      (drives_getComplete (.code err) m).mono fun l' r h => h.after l
  simp only [Code.drives_bind, Code.drives_modify, Code.drives_get, Ending.andThen_done_nil,
    Code.drives_ite]
  refine ⟨fun _ => ?_, fun _ => ?_⟩
  · simp only [hbuf, deref, Code.drives_pure, Ending.andThen_done_nil, Code.drives_bind]
    exact drives_putnReadBuffer buf fun l s' => (htell _ s' _).mono fun l' r h => h.after l
  · rw [← Code.drives_bind]
    exact htell _ _ _

/-- A failure is told to the client. -/
theorem drives_readFails (e : Int) {buf : Block} (hbuf : s.mSSLReadBuffer = some buf) :
    (readFails (.client b) e).Drives E.toEnvironment Settled n s := by
  simp only [readFails, Code.drives_bind, Code.drives_ite, Code.drives_pure,
    Ending.andThen_done_nil]
  refine ⟨fun _ => ?_, fun _ => ⟨fun _ => drives_failed 0 hbuf, fun _ => drives_failed e hbuf⟩⟩
  have hkept : (E.leaves n .mbedtlsSslCloseNotify s).mSSLReadBuffer = some buf :=
    (E.core_eq n rfl).1.trans hbuf
  exact (drives_failed 0 hkept).mono fun l r h => h.after [_]

theorem drives_read (len : ℕ)
    {Q : List (Happening CESig) → Ending CESig ConnectionEnd (Except Int (List Byte)) → Prop} :
    (Code.call (S := CESig) (.mbedtlsSslRead len)).Drives E.toEnvironment Q n s ↔
      Q [.called (.mbedtlsSslRead len) (E.reads n)]
        (.done (E.leaves n (.mbedtlsSslRead len) s) (E.reads n)) := Iff.rfl

/-- The object before result `k`: the buffer is there, and holds what has been read. -/
structure Reading (s₀ : ConnectionEnd) (reads : ℕ → Except Int (List Byte)) (k : ℕ)
    (s : ConnectionEnd) : Prop where
  buffer : s.mSSLReadBuffer.isSome = true
  count : s.mSSLReadCount = s₀.mSSLReadCount + total reads k

/-- One round of the loop. -/
theorem drives_round {s₀ : ConnectionEnd} {k fuel : ℕ} (h : Reading s₀ E.reads k s)
    {Q : List (Happening CESig) → Ending CESig ConnectionEnd Unit → Prop}
    (hleaves : Leaves s₀.mSSLReadCount threshold E.reads k → ∀ l r, Settled l r → Q l r)
    (hgoes : ¬ Leaves s₀.mSSLReadCount threshold E.reads k →
      ∀ x s', Reading s₀ E.reads (k + 1) s' →
        (doSSLRead fuel (.client b) threshold).Drives E.toEnvironment (fun l => Q (x :: l))
          (k + 1) s') :
    (doSSLRead (fuel + 1) (.client b) threshold).Drives E.toEnvironment Q k s := by
  obtain ⟨buf, hbuf⟩ := Option.isSome_iff_exists.mp h.buffer
  obtain ⟨s', hs'⟩ :
      ∃ s', s' = E.leaves k (.mbedtlsSslRead (s.mSSLReadBufferSize - s.mSSLReadCount)) s :=
    ⟨_, rfl⟩
  have hback : s'.mSSLReadBuffer = s.mSSLReadBuffer ∧ s'.mSSLReadBufferSize = s.mSSLReadBufferSize ∧
      s'.mSSLReadCount = s.mSSLReadCount := hs' ▸ E.core_eq k rfl
  have hbuf' : s'.mSSLReadBuffer = some buf := hback.1.trans hbuf
  simp only [doSSLRead, Code.drives_bind, Code.drives_get, Ending.andThen_done_nil]
  rw [drives_read, ← hs', Ending.andThen_done_singleton]
  cases hread : E.reads k with
  | error e =>
    have hleave := hleaves (.inl ⟨e, hread⟩)
    simp only [Code.drives_ite, Code.drives_pure]
    -- a wait leaves the loop with the read open; any other failure is told
    refine ⟨fun _ => hleave _ _ ⟨s', rfl, .inr (by rw [hbuf', Option.isSome_some])⟩, fun _ => ?_⟩
    exact (drives_readFails e hbuf').mono fun l r h => hleave _ _ (h.after [_])
  | ok bs =>
    have hcount : s'.mSSLReadCount + bs.length = s₀.mSSLReadCount + total E.reads (k + 1) := by
      rw [hback.2.2, h.count, total, hread, Nat.add_assoc]
      rfl
    simp only [Code.drives_bind, Code.drives_get, Ending.andThen_done_nil, hbuf', deref,
      Code.drives_pure, Code.drives_modify, Code.drives_ite]
    refine ⟨fun hreached => ?_, fun hbelow => ?_⟩
    · rw [hcount] at hreached
      refine drives_putnReadBuffer _ fun l s'' => ?_
      rw [Ending.andThen_done, Code.drives_bind]
      simp only [client, Code.drives_bind]
      exact hleaves (.inr hreached) _ _
        (Settled.after (_ :: l) ⟨_, rfl, .inl ⟨_, _, List.mem_cons_self⟩⟩)
    · refine hgoes ?_ _ _ ⟨rfl, hcount⟩
      -- below the threshold there is another round
      rintro (⟨e, he⟩ | hreached)
      · rw [hread] at he
        cases he
      · rw [hcount] at hbelow
        exact hbelow hreached

/-- A loop that is left after some result ends settled, with rounds enough. -/
theorem drives_settled {s₀ : ConnectionEnd} (fuel : ℕ) :
    ∀ {k m : ℕ} {s : ConnectionEnd}, Reading s₀ E.reads k s → k ≤ m → m < k + fuel →
      Leaves s₀.mSSLReadCount threshold E.reads m →
      (doSSLRead fuel (.client b) threshold).Drives E.toEnvironment Settled k s := by
  induction fuel with
  | zero =>
    intro k m s _ hle hlt _
    omega
  | succ fuel ih =>
    intro k m s h hle hlt hm
    refine drives_round h (fun _ _ _ hsettled => hsettled) fun hgoes x s' h' => ?_
    have hne : k ≠ m := by
      rintro rfl
      exact hgoes hm
    exact (ih h' (by omega) (by omega) hm).mono fun l r hsettled => hsettled.after [x]

/-- A loop that is never left has no rounds enough. -/
theorem drives_outOfFuel {s₀ : ConnectionEnd}
    (hnever : ∀ k, ¬ Leaves s₀.mSSLReadCount threshold E.reads k) (fuel : ℕ) :
    ∀ {k : ℕ} {s : ConnectionEnd}, Reading s₀ E.reads k s →
      (doSSLRead fuel (.client b) threshold).Drives E.toEnvironment
        (fun _ r => ∃ s', r = .halt s' Fault.outOfFuel) k s := by
  induction fuel with
  | zero => exact fun _ => ⟨_, rfl⟩
  | succ fuel ih =>
    intro k s h
    exact drives_round h (fun hleaves => absurd hleaves (hnever k)) fun _ _ _ h' => ih h'

/-- The loop ends if and only if some result is a failure or reaches the threshold. -/
theorem ends_iff_leaves (hbuf : s.mSSLReadBuffer.isSome = true) :
    Ends E b threshold s ↔ ∃ k, Leaves s.mSSLReadCount threshold E.reads k := by
  have hstart : Reading s E.reads 0 s := ⟨hbuf, rfl⟩
  constructor
  · rintro ⟨fuel, hends⟩
    by_contra hnever
    obtain ⟨s', hhalt⟩ := drives_outOfFuel (b := b) (fun k hk => hnever ⟨k, hk⟩) fuel hstart
    obtain ⟨s'', hdone, -⟩ := hends
    rw [hhalt] at hdone
    cases hdone
  · rintro ⟨k, hk⟩
    exact ⟨k + 1, drives_settled (k + 1) hstart (Nat.zero_le k) (by omega) hk⟩

end loop

/-! ## When the loop does not end -/

section stuck

variable {size count : ℕ} {threshold : Int} {reads : ℕ → Except Int (List Byte)}

theorem total_mono {k j : ℕ} (h : k ≤ j) : total reads k ≤ total reads j := by
  induction h with
  | refl => exact le_rfl
  | step _ ih => exact ih.trans (Nat.le_add_right _ _)

/-- The results never bring more than the buffer takes. -/
theorem Allowed.total_le (h : Allowed size count reads) (k : ℕ) : total reads k ≤ size := by
  induction k with
  | zero => exact Nat.zero_le _
  | succ k ih =>
    rw [total]
    cases hread : reads k with
    | error e => exact ih
    | ok bs =>
      have hfits := h.fits k bs hread
      simp only [bytesRead]
      omega

/-- Without a failure the results are 0 from some call on, because each of the others fills the
buffer further. -/
theorem Allowed.eventually_zero (h : Allowed size count reads)
    (hok : ∀ k, ∃ bs, reads k = .ok bs) :
    ∀ room k, size - total reads k ≤ room → ∃ m, k ≤ m ∧ ∀ j, m ≤ j → reads j = .ok [] := by
  intro room
  induction room with
  | zero =>
    intro k hroom
    refine ⟨k, le_rfl, fun j hj => ?_⟩
    obtain ⟨bs, hbs⟩ := hok j
    have hbefore : total reads k ≤ total reads j := total_mono hj
    have hafter := h.total_le (j + 1)
    rw [total, hbs, bytesRead] at hafter
    have hempty : bs.length = 0 := by omega
    rw [hbs, List.eq_nil_of_length_eq_zero hempty]
  | succ room ih =>
    intro k hroom
    by_cases hzero : ∀ j, k ≤ j → reads j = .ok []
    · exact ⟨k, le_rfl, hzero⟩
    · simp only [not_forall] at hzero
      obtain ⟨j, hj, hsome⟩ := hzero
      obtain ⟨bs, hbs⟩ := hok j
      have hpos : 0 < bs.length := by
        -- this result takes some of the room, of which there is less from here on
        rw [List.length_pos_iff]
        rintro rfl
        exact hsome hbs
      have hbefore : total reads k ≤ total reads j := total_mono hj
      have hstep : total reads (j + 1) = total reads j + bs.length := by rw [total, hbs, bytesRead]
      obtain ⟨m, hm, hend⟩ := ih (j + 1) (by omega)
      exact ⟨m, by omega, hend⟩

/-- Being stuck is never leaving. -/
theorem Allowed.stuck_iff (h : Allowed size count reads) :
    Stuck count threshold reads ↔ ∀ k, ¬ Leaves count threshold reads k := by
  constructor
  · rintro ⟨k, hok, hbelow, hzero⟩ j hleaves
    rcases hleaves with ⟨e, he⟩ | hreached
    · rcases Nat.lt_or_ge j k with hj | hj
      · obtain ⟨bs, hbs⟩ := hok j hj
        rw [hbs] at he
        cases he
      · rw [hzero j hj] at he
        cases he
    -- zeros add nothing, so that the total stays below the threshold
    · have hsame : total reads (j + 1) ≤ total reads k := by
        rcases Nat.lt_or_ge j k with hj | hj
        · exact total_mono hj
        · have hconst : ∀ d, total reads (k + d) = total reads k := by
            intro d
            induction d with
            | zero => rfl
            | succ d ih =>
              rw [← Nat.add_assoc, total, hzero (k + d) (by omega), ih]
              rfl
          have hj' := hconst (j + 1 - k)
          rw [show k + (j + 1 - k) = j + 1 by omega] at hj'
          exact hj'.le
      omega
  · intro hnever
    have hok : ∀ k, ∃ bs, reads k = .ok bs := by
      intro k
      cases hread : reads k with
      | ok bs => exact ⟨bs, rfl⟩
      | error e => exact absurd (.inl ⟨e, hread⟩) (hnever k)
    obtain ⟨m, -, hzero⟩ := h.eventually_zero hok _ 0 le_rfl
    refine ⟨m, fun j _ => hok j, ?_, hzero⟩
    by_contra hreached
    refine hnever m (.inr ?_)
    have hmono : total reads m ≤ total reads m.succ := total_mono (Nat.le_succ m)
    rw [Nat.succ_eq_add_one] at hmono
    omega

end stuck

/-- **`DoSSLRead` ends** if and only if the results of `mbedtls_ssl_read` are not 0 for ever, from
some call on, before one is a failure or the threshold is reached. -/
theorem ends_iff_not_stuck (E : ReadEnvironment) (b : ℕ) (threshold : Int) (s : ConnectionEnd)
    (hbuf : s.mSSLReadBuffer.isSome = true)
    (h : Allowed s.mSSLReadBufferSize s.mSSLReadCount E.reads) :
    Ends E b threshold s ↔ ¬ Stuck s.mSSLReadCount threshold E.reads := by
  rw [ends_iff_leaves hbuf, h.stuck_iff, not_forall_not]

/-- An environment in which nothing is entered. -/
def quietly (reads : ℕ → Except Int (List Byte)) : ReadEnvironment where
  answer := fun _ => plainAnswer
  reads := reads
  others := fun _ => results 0 (.error MBEDTLS_ERR_SSL_WANT_READ)
  leaves := fun _ _ s => s
  core := fun _ _ s _ => .refl s

/-- A get with a buffer of `size` bytes, of which none is filled. -/
def outstanding (size : ℕ) : ConnectionEnd :=
  { zeroMemory with mSSLReadBuffer := some ⟨0, List.replicate size 0⟩, mSSLReadBufferSize := size }

/-- Two bytes, and then nothing is there. -/
def twoBytes : ℕ → Except Int (List Byte)
  | 0 => .ok [1, 2]
  | _ + 1 => .error MBEDTLS_ERR_SSL_WANT_READ

/-- Two bytes, and then there is nothing to be read yet. -/
theorem allowed_twoBytes : Allowed 4 0 twoBytes where
  fits := by
    intro k bs hbs
    cases k with
    | zero =>
      cases hbs
      decide
    | succ k => cases hbs
  zero := by
    intro k hk
    cases k with
    | zero => cases hk
    | succ k => cases hk
  negative := by
    intro k e he
    cases k with
    | zero => cases he
    | succ k =>
      cases he
      decide

/-- The read for three bytes ends after two, with the get outstanding. -/
theorem ends_iff_not_stuck_twoBytes :
    (outstanding 4).mSSLReadBuffer.isSome = true ∧ ¬ Stuck 0 3 twoBytes ∧
      Ends (quietly twoBytes) 0 3 (outstanding 4) := by
  have hnot : ¬ Stuck 0 3 twoBytes := by
    rintro ⟨k, -, -, hzero⟩
    cases hzero (k + 1) (Nat.le_succ k)
  exact ⟨rfl, hnot,
    (ends_iff_not_stuck (quietly twoBytes) 0 3 (outstanding 4) rfl allowed_twoBytes).mpr hnot⟩

/-- At the end of the transport the loop does not end. -/
theorem not_ends : ¬ ∀ (E : ReadEnvironment) (b : ℕ) (threshold : Int) (s : ConnectionEnd),
    s.mSSLReadBuffer.isSome = true → Allowed s.mSSLReadBufferSize s.mSSLReadCount E.reads →
      Ends E b threshold s := by
  intro hall
  have hallowed : Allowed 1 0 fun _ => .ok [] :=
    ⟨fun _ bs hbs => by cases hbs; exact Nat.zero_le _, fun _ _ => .inr fun _ _ => rfl,
      fun _ _ he => by cases he⟩
  have hends := hall (quietly fun _ => .ok []) 0 1 (outstanding 1) rfl hallowed
  obtain ⟨k, hk⟩ := (ends_iff_leaves rfl).mp hends
  refine hallowed.stuck_iff.mp ⟨0, ?_, by decide, fun _ _ => rfl⟩ k hk
  intro j hj
  cases hj

end ReadTermination

end NewtonTLS
