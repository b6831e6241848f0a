/-
# What mbedTLS is told to wait for

When `SSLRecvCallback` returns `MBEDTLS_ERR_SSL_WANT_READ`, something has to wake the
connection end up again: a get that is still pending at the inner end, whose completion
sends the message, or a message that has been sent already.

`GetCompleteCB` sends no message while `mSSLReceiveInProgress` says that `SSLRecvCallback`
is on the stack, which looks at the outcome itself.  It looks at the error and at the bytes
that are held, but not at `mPeerClosed` again: when the inner end reports the end of file at
once, and nothing is held, mbedTLS is told to wait for nothing (`not_awaited`).  It is not in
other runs, where it is told 0 at the end of file (`wait_answered`).
-/
import NewtonTLS.ConnectionEndStreams

open Reentrant

namespace NewtonTLS

namespace ReceiveWakeUp

/-! ## What is observed -/

/-- A completion reports the end of file: no error and no bytes. -/
def endOfFile (result : Int) (count : ℕ) : Bool := decide (result = 0) && decide (count = 0)

/-- Whether the inner end has reported the end of file or an error since the configuration, and
how many bytes it has delivered that have not been handed out. -/
structure Seen : Type where
  eof : Bool
  failed : Bool
  held : ℕ
  deriving DecidableEq

/-- A completion. -/
def completed (result : Int) (count : ℕ) (g : Seen) : Seen :=
  ⟨g.eof || endOfFile result count, g.failed || decide (result ≠ 0),
    g.held + if result = 0 then count else 0⟩

/-- What `SSLRecvCallback` returns is a number of bytes while there has been no error. -/
def returned (n : Int) (g : Seen) : Seen :=
  if g.failed then g else { g with held := g.held - n.toNat }

/-- One event. -/
def next (g : Seen) : Label CESig → Seen
  | .asked .sslConfigured _ => ⟨false, false, 0⟩
  | .enter (.getCompleteCB _ _ result _ count) => completed result count g
  | .leave (.sslRecvCallback _) (some (.recv n _)) => returned n g
  | _ => g

/-- How many wake-up messages are queued. -/
def queue (n : ℕ) : Label CESig → ℕ
  | .asked .sslConfigured _ => 0
  | .asked .sendAsyncReadMessage a => if a = (0 : Int) then n + 1 else n
  | .enter (.handleRequest .kAsyncReadMessageType) => n - 1
  | _ => n

/-- What has come: nothing yet. -/
abbrev endMonitor : Monitor CESig where
  Obs := Seen
  init := ⟨false, false, 0⟩
  next := next

/-- What has come, and the number of queued messages. -/
abbrev monitor : Monitor CESig where
  Obs := Seen × ℕ
  init := (⟨false, false, 0⟩, 0)
  next := fun g x => (next g.1 x, queue g.2 x)

/-- mbedTLS asks for at least one byte. -/
def asksForBytes : Label CESig → Bool
  | .enter (.sslRecvCallback len) => decide (0 < len)
  | _ => true

/-- While nothing is held, the inner end does not report the end of file from inside of
`GetBytesImmediateStart` or after an error, nor an error after the end of file; and none of its
errors has the number of `MBEDTLS_ERR_SSL_WANT_READ`. -/
def reportsLater (s : ConnectionEnd) : Label CESig → Bool
  | .enter (.getCompleteCB _ _ result _ count) =>
    !s.mSSLConfigured || decide (result ≠ MBEDTLS_ERR_SSL_WANT_READ) &&
      (decide (s.mSSLRecvBufferSize ≠ 0) ||
        (!endOfFile result count || !s.mSSLReceiveInProgress && decide (s.mRecvError = 0)) &&
          (decide (result = 0) || !s.mPeerClosed))
  | _ => true

/-- After the end of file, and when all bytes have been handed out, `SSLRecvCallback` returns 0. -/
def ends (g : Seen) (n : Int) : Bool := !(g.eof && decide (g.held = 0)) || decide (n = 0)

/-- A wait is for something: a get is pending or a message is queued. -/
def awaited (g : Seen × ℕ) (s : ConnectionEnd) : Label CESig → Bool
  | .leave (.sslRecvCallback _) (some (.recv n _)) =>
    !s.mSSLConfigured || (ends g.1 n &&
      (decide (n ≠ MBEDTLS_ERR_SSL_WANT_READ) || s.mRecvPending || decide (0 < g.2)))
  | _ => true

/-! ## The invariant -/

/-- The end of file and the bytes are remembered, no error is taken for a wait, and there is none
at the end of file unless bytes are held. -/
structure Remembers (g : Seen) (s : ConnectionEnd) : Prop where
  closed : g.eof = true → s.mPeerClosed = true
  size : g.held = s.mSSLRecvBufferSize
  empty : s.mSSLRecvBuffer = none → s.mSSLRecvBufferSize = 0
  failed : g.failed = decide (s.mRecvError ≠ 0)
  error : s.mRecvError ≠ MBEDTLS_ERR_SSL_WANT_READ
  holds : g.eof = true → s.mRecvError ≠ 0 → 0 < s.mSSLRecvBufferSize

/-- The receiver of a configured end remembers. -/
def Informed (g : Seen) (s : ConnectionEnd) : Prop := s.mSSLConfigured = true → Remembers g s

/-- Without SSL nothing is claimed. -/
theorem Informed.plain {g : Seen} {s : ConnectionEnd} (h : s.mSSLConfigured = false) :
    Informed g s := by
  intro hconf
  rw [h] at hconf
  cases hconf

/-- The invariant looks at the mode, the error, the end of file and the bytes. -/
theorem Informed.same {g : Seen} {s s' : ConnectionEnd} (h : Informed g s)
    (hconf : s'.mSSLConfigured = s.mSSLConfigured) (hclosed : s'.mPeerClosed = s.mPeerClosed)
    (herror : s'.mRecvError = s.mRecvError) (hbuffer : s'.mSSLRecvBuffer = s.mSSLRecvBuffer)
    (hsize : s'.mSSLRecvBufferSize = s.mSSLRecvBufferSize) : Informed g s' := by
  intro hconf'
  obtain ⟨hc, hs, hn, hf, he, hh⟩ := h (hconf ▸ hconf')
  refine ⟨?_, ?_, ?_, ?_, ?_, ?_⟩
  · rw [hclosed]
    exact hc
  · rw [hsize]
    exact hs
  · rw [hbuffer, hsize]
    exact hn
  · rw [herror]
    exact hf
  · rw [herror]
    exact he
  · rw [herror, hsize]
    exact hh

/-- `SSLRecvCallback` will find out what has happened: the get is pending, or there are bytes or
an error; and at the end of file there are bytes. -/
structure FindsOut (s : ConnectionEnd) : Prop where
  outcome : s.mRecvPending = true ∨ 0 < s.mSSLRecvBufferSize ∨ s.mRecvError ≠ 0
  bytes : s.mPeerClosed = true → 0 < s.mSSLRecvBufferSize

/-- A wait is for a pending get. -/
def Awaits (g : Seen) (s : ConnectionEnd) : Label CESig → Prop
  | .leave (.sslRecvCallback _) (some (.recv n _)) => s.mSSLConfigured = true →
    ends g n = true ∧ (n = MBEDTLS_ERR_SSL_WANT_READ → s.mRecvPending = true)
  | _ => True

/-- The contract.  While `mSSLReceiveInProgress` is set, what `SSLRecvCallback` finds out about
stays so. -/
def stream : StreamContract endMonitor where
  Inv := Informed
  Every := Awaits
  Within := fun s s' => s.mSSLReceiveInProgress = true →
    s'.mSSLReceiveInProgress = true ∧ (FindsOut s → FindsOut s')
  refl := fun _ hprogress => ⟨hprogress, id⟩
  trans := fun _ _ _ h h' hprogress =>
    ⟨(h' (h hprogress).1).1, (h' (h hprogress).1).2 ∘ (h hprogress).2⟩

/-- The contract looks at the receiving direction only. -/
theorem sees : stream.Sees Label.isReceive where
  every := by
    intro eof s x hx
    cases x with
    | leave e v =>
      cases e with
      | sslRecvCallback len => cases hx
      | _ => trivial
    | _ => trivial
  quiet := by
    intro eof x hx
    cases x with
    | enter e => cases e <;> first | rfl | cases hx
    | asked q => cases q <;> first | rfl | cases hx
    | leave e v => cases e <;> first | rfl | cases hx
    | _ => rfl

/-! ## Completions -/

section receive

variable {extra : List Call → Seen → ConnectionEnd → Label CESig → Bool} {e : Entry}
  {stk : List Call} {g : Seen} {s : ConnectionEnd}

/-- What the inner end writes is not looked at. -/
theorem innerWrites_same (of : ListRef) (wrote : List Byte) (s : ConnectionEnd) :
    ∃ v, innerWrites of wrote s = s.withReceive { s.receiveValues with list := v } := by
  unfold innerWrites
  split
  · next getl hget =>
    split
    · exact ⟨_, rfl⟩
    · exact ⟨s.mGetDataBuffer, rfl⟩
  · exact ⟨s.mGetDataBuffer, rfl⟩

/-- Appending bytes leaves mode, error and end of file alone, and holds them with the others. -/
theorem sat_appendReceived {count : ℕ}
    (hempty : s.mSSLRecvBuffer = none → s.mSSLRecvBufferSize = 0)
    {Q : Post endMonitor ConnectionEnd Unit}
    (hQ : ∀ s', s'.mSSLConfigured = s.mSSLConfigured → s'.mRecvError = s.mRecvError →
      s'.mPeerClosed = s.mPeerClosed → s'.mSSLReceiveInProgress = s.mSSLReceiveInProgress →
      s'.mSSLRecvBuffer ≠ none → s'.mSSLRecvBufferSize = s.mSSLRecvBufferSize + count →
      Q g (some ()) s') :
    (appendReceived count).Sat stream.toContract (discipline endMonitor extra) e stk Q g s := by
  simp only [appendReceived, Code.sat_bind, Code.sat_get, Post.andThen_some]
  cases hbuffer : s.mSSLRecvBuffer with
  | some b =>
    simp only [reallocPtr, Code.sat_bind]
    refine sat_ask fun _ _ => ⟨trivial, ?_⟩
    simp only [Post.andThen_some, Code.sat_pure, Code.sat_bind]
    refine sat_deref _ fun getl _ => ?_
    exact hQ _ rfl rfl rfl rfl (Option.some_ne_none _) rfl
  | none =>
    simp only [newPtr, freshPtr, Code.sat_bind, Code.sat_get, Post.andThen_some, Code.sat_set,
      Code.sat_pure]
    refine sat_ask fun _ _ => ⟨trivial, ?_⟩
    simp only [Post.andThen_some, Code.sat_pure, Code.sat_bind]
    refine sat_deref _ fun getl _ => ?_
    refine hQ _ rfl rfl rfl rfl (Option.some_ne_none _) ?_
    show 0 + count = s.mSSLRecvBufferSize + count
    rw [hempty hbuffer]

/-- A completion that is not the end of file is not counted as one. -/
theorem eof_or_of_count {g : Seen} {result : Int} {count : ℕ} (h : count ≠ 0) :
    (g.eof || endOfFile result count) = g.eof := by
  rw [endOfFile, decide_eq_false h, Bool.and_false, Bool.or_false]

theorem eof_or_of_error {g : Seen} {result : Int} {count : ℕ} (h : result ≠ 0) :
    (g.eof || endOfFile result count) = g.eof := by
  rw [endOfFile, decide_eq_false h, Bool.false_and, Bool.or_false]

/-- A completion without an error is not counted as one. -/
theorem failed_of_noErr {g : Seen} {result : Int} {count : ℕ} (h : result = 0) :
    (completed result count g).failed = g.failed := by
  rw [completed, decide_eq_false (not_not_intro h), Bool.or_false]

/-- What the condition says about a completion for a configured end that holds nothing. -/
theorem reportsLater_idle {of : ListRef} {wrote : List Byte} {result : Int} {endOfFrame : Bool}
    {count : ℕ}
    (hok : reportsLater s (.enter (.getCompleteCB of wrote result endOfFrame count)) = true)
    (hconf : s.mSSLConfigured = true) :
    result ≠ MBEDTLS_ERR_SSL_WANT_READ ∧ (s.mSSLRecvBufferSize = 0 →
      (result = 0 → count = 0 → s.mSSLReceiveInProgress = false ∧ s.mRecvError = 0) ∧
      (result ≠ 0 → s.mPeerClosed = false)) := by
  simp only [reportsLater, hconf, Bool.not_true, Bool.false_or, Bool.and_eq_true,
    decide_eq_true_eq] at hok
  refine ⟨hok.1, fun hnone => ?_⟩
  have hidle := hok.2
  simp only [hnone, ne_eq, not_true_eq_false, decide_false, Bool.false_or, Bool.and_eq_true,
    Bool.or_eq_true, Bool.not_eq_true', decide_eq_true_eq, endOfFile] at hidle
  obtain ⟨hend, herror⟩ := hidle
  refine ⟨fun hresult hcount => ?_, fun hresult => herror.resolve_left hresult⟩
  rw [hresult, hcount] at hend
  simpa using hend

/-- The end of file is remembered, if bytes are held or there has been no error. -/
theorem Remembers.closes {s' : ConnectionEnd} {result : Int} {count : ℕ} (h : Remembers g s)
    (hresult : result = 0) (hcount : count = 0)
    (hnofail : s.mSSLRecvBufferSize = 0 → s.mRecvError = 0) (hclosed : s'.mPeerClosed = true)
    (herror : s'.mRecvError = s.mRecvError) (hbuffer : s'.mSSLRecvBuffer = s.mSSLRecvBuffer)
    (hsize : s'.mSSLRecvBufferSize = s.mSSLRecvBufferSize) :
    Remembers (completed result count g) s' := by
  refine ⟨fun _ => hclosed, ?_, ?_, ?_, ?_, fun _ hfail => ?_⟩
  · show g.held + (if result = 0 then count else 0) = _
    rw [if_pos hresult, hcount, hsize]
    exact h.size
  · rw [hbuffer, hsize]
    exact h.empty
  · rw [herror]
    exact (failed_of_noErr hresult).trans h.failed
  · rw [herror]
    exact h.error
  · rw [herror] at hfail
    rw [hsize]
    by_contra hnone
    exact hfail (hnofail (Nat.eq_zero_of_not_pos hnone))

/-- Bytes that are delivered are held from then on. -/
theorem Remembers.delivers {s' : ConnectionEnd} {result : Int} {count : ℕ} (h : Remembers g s)
    (hresult : result = 0) (hcount : count ≠ 0) (hclosed : s'.mPeerClosed = s.mPeerClosed)
    (herror : s'.mRecvError = s.mRecvError) (hsome : s'.mSSLRecvBuffer ≠ none)
    (hmore : s'.mSSLRecvBufferSize = s.mSSLRecvBufferSize + count) :
    Remembers (completed result count g) s' := by
  refine ⟨fun heof => ?_, ?_, fun hnone => absurd hnone hsome, ?_, ?_, fun _ _ => ?_⟩
  · exact hclosed.trans (h.closed ((eof_or_of_count hcount).symm.trans heof))
  · show g.held + (if result = 0 then count else 0) = _
    rw [if_pos hresult, hmore, h.size]
  · rw [herror]
    exact (failed_of_noErr hresult).trans h.failed
  · rw [herror]
    exact h.error
  · omega

/-- An error is kept, if bytes are held or the end of file has not come before. -/
theorem Remembers.fails {s' : ConnectionEnd} {result : Int} {count : ℕ} (h : Remembers g s)
    (hresult : result ≠ 0) (hcode : result ≠ MBEDTLS_ERR_SSL_WANT_READ)
    (hopen : s.mSSLRecvBufferSize = 0 → s.mPeerClosed = false)
    (hclosed : s'.mPeerClosed = s.mPeerClosed) (herror : s'.mRecvError = result)
    (hbuffer : s'.mSSLRecvBuffer = s.mSSLRecvBuffer)
    (hsize : s'.mSSLRecvBufferSize = s.mSSLRecvBufferSize) :
    Remembers (completed result count g) s' := by
  have heof : (completed result count g).eof = true → s.mPeerClosed = true :=
    fun hseen => h.closed ((eof_or_of_error hresult).symm.trans hseen)
  refine ⟨fun hseen => hclosed.trans (heof hseen), ?_, ?_, ?_, ?_, fun hseen _ => ?_⟩
  · show g.held + (if result = 0 then count else 0) = _
    rw [if_neg hresult, hsize]
    exact h.size
  · rw [hbuffer, hsize]
    exact h.empty
  · show (g.failed || decide (result ≠ 0)) = decide (s'.mRecvError ≠ 0)
    rw [herror, decide_eq_true hresult, Bool.or_true]
  · rw [herror]
    exact hcode
  · rw [hsize]
    by_contra hnone
    have hnot := hopen (Nat.eq_zero_of_not_pos hnone)
    rw [heof hseen] at hnot
    cases hnot

/-- `GetCompleteCB` keeps the contract, whoever it is called from. -/
theorem sat_getCompleteCB {of : ListRef} {wrote : List Byte} {result : Int} {endOfFrame : Bool}
    {count : ℕ}
    (hok : reportsLater s (.enter (.getCompleteCB of wrote result endOfFrame count)) = true)
    (h : Informed g s) {Q : Post endMonitor ConnectionEnd Unit}
    (hQ : ∀ g' s', stream.Kept stk s g' s' → Q g' (some ()) s') :
    (getCompleteCB result endOfFrame count).Sat stream.toContract (discipline endMonitor extra) e
      stk Q (next g (.enter (.getCompleteCB of wrote result endOfFrame count)))
      (innerWrites of wrote s) := by
  obtain ⟨v, hv⟩ := innerWrites_same of wrote s
  rw [hv]
  simp only [getCompleteCB, Code.sat_bind, Code.sat_get, Post.andThen_some, Code.sat_ite,
    Code.sat_modify]
  refine ⟨fun hconf => ?_, fun hplain => ?_⟩
  · have hremembers : Remembers g s := h hconf
    obtain ⟨hcode, hidle⟩ := reportsLater_idle hok hconf
    -- a completion inside of the receive must leave something to be found out there
    have hend : ∀ s', s'.mSSLReceiveInProgress = s.mSSLReceiveInProgress →
        Remembers (completed result count g) s' →
        (s.mSSLReceiveInProgress = true → FindsOut s → FindsOut s') →
        Q (completed result count g) (some ()) s' :=
      fun s' hprogress h' hfinds =>
        hQ _ s' ⟨fun _ => h', fun _ hin => ⟨hprogress.trans hin, hfinds hin⟩⟩
    refine ⟨fun hresult => ⟨fun hcount => ?_, fun hcount => ?_⟩, fun hresult => ?_⟩
    · -- the end of file: while the receive is in progress something is held
      have hdone := hend
        { s.withReceive { s.receiveValues with list := v } with
          mRecvPending := false
          mPeerClosed := true } rfl
        (hremembers.closes hresult hcount (fun hnone => ((hidle hnone).1 hresult hcount).2)
          rfl rfl rfl rfl) fun hin _ => by
        have hheld : 0 < s.mSSLRecvBufferSize := by
          by_contra hnone
          rw [((hidle (Nat.eq_zero_of_not_pos hnone)).1 hresult hcount).1] at hin
          cases hin
        exact ⟨.inr (.inl hheld), fun _ => hheld⟩
      exact ⟨fun _ => sat_ask fun _ _ => ⟨trivial, hdone⟩, fun _ => hdone⟩
    · refine sat_appendReceived ?_ fun s' hmode herror hclosed hprogress hsome hmore => ?_
      · exact hremembers.empty
      have hheld : 0 < s'.mSSLRecvBufferSize := by
        rw [hmore]
        exact Nat.add_pos_right _ (Nat.pos_of_ne_zero hcount)
      have hdone := hend s' hprogress
        (hremembers.delivers hresult hcount hclosed herror hsome hmore)
        fun _ _ => ⟨.inr (.inl hheld), fun _ => hheld⟩
      simp only [Post.andThen_some, Code.sat_bind, Code.sat_get, Code.sat_ite]
      exact ⟨fun _ => sat_ask fun _ _ => ⟨trivial, hdone⟩, fun _ => hdone⟩
    · -- an error is found out: each later receive gives it back
      have hdone := hend
        { s.withReceive { s.receiveValues with list := v } with
          mRecvPending := false
          mRecvError := result } rfl
        (hremembers.fails hresult hcode (fun hnone => (hidle hnone).2 hresult) rfl rfl rfl rfl)
        fun _ hfinds => ⟨.inr (.inr hresult), hfinds.bytes⟩
      exact ⟨fun _ => sat_ask fun _ _ => ⟨trivial, hdone⟩, fun _ => hdone⟩
  · -- without a configuration the client is told, and this may call back
    have hkept : stream.Kept stk s (completed result count g)
        (s.withReceive { s.receiveValues with list := v }) :=
      ⟨.plain (by simpa using hplain),
        fun _ hin => ⟨hin, fun hfinds => ⟨hfinds.outcome, hfinds.bytes⟩⟩⟩
    have hcall : CallKept stream.toContract (discipline endMonitor extra) e stk (stream.Kept stk s)
        (completed result count g) (s.withReceive { s.receiveValues with list := v })
        (.client (.getComplete (.code result) endOfFrame count)) :=
      hkept.callKept rfl ⟨trivial, hkept.1⟩ fun _ _ _ h' _ => ⟨trivial, h'⟩
    exact hcall.sat_client hQ

/-! ## `SSLRecvCallback` -/

/-- What is returned for an error, and for no bytes, hands out nothing. -/
theorem returned_same {n : Int} {g : Seen} (h : g.failed = true ∨ n ≤ 0) : returned n g = g := by
  unfold returned
  split
  · rfl
  · next hnot =>
    rw [Int.toNat_of_nonpos (h.resolve_left hnot)]
    rfl

/-- The bytes that are returned are not held any more. -/
theorem held_returned {n : ℕ} {g : Seen} (h : g.failed = false) :
    returned n g = { g with held := g.held - n } := by
  rw [returned, h]
  rfl

/-- What is handed out is counted. -/
theorem sat_takeReceived (len : ℕ) (h : Informed g s) (hnofail : s.mRecvError = 0)
    {Q : Post endMonitor ConnectionEnd Value}
    (hQ : ∀ (n : ℕ) bytes s', s'.mSSLConfigured = s.mSSLConfigured → Informed (returned n g) s' →
      Q g (some (.recv n bytes)) s') :
    (takeReceived len).Sat stream.toContract (discipline endMonitor extra) e stk Q g s := by
  simp only [takeReceived, Code.sat_bind, Code.sat_get, Post.andThen_some]
  refine sat_deref _ fun b _ => ?_
  simp only [Post.andThen_some, Code.sat_bind, Code.sat_ite, disposPtr, reallocPtr]
  refine ⟨fun hall => sat_ask fun _ _ => ⟨trivial, ?_⟩,
    fun _ => sat_ask fun junk _ => ⟨trivial, ?_⟩⟩
  · refine hQ _ _ _ rfl fun hconf => ?_
    obtain ⟨hclosed, hsize, -, hfailed, herror, -⟩ := h hconf
    rw [held_returned (hfailed.trans (decide_eq_false (not_not_intro hnofail)))]
    refine ⟨hclosed, ?_, fun _ => rfl, hfailed, herror, fun _ hfail => absurd hnofail hfail⟩
    show g.held - _ = 0
    rw [hall, hsize]
    exact Nat.sub_self _
  · simp only [Post.andThen_some, Code.sat_bind]
    refine sat_ask fun _ _ => ⟨trivial, ?_⟩
    refine hQ _ _ _ rfl fun hconf => ?_
    obtain ⟨hclosed, hsize, -, hfailed, herror, -⟩ := h hconf
    rw [held_returned (hfailed.trans (decide_eq_false (not_not_intro hnofail)))]
    refine ⟨hclosed, ?_, fun hnone => absurd hnone (Option.some_ne_none _), hfailed, herror,
      fun _ hfail => absurd hnofail hfail⟩
    show g.held - _ = _
    rw [hsize]

/-- The object when `SSLRecvCallback` asks the inner end for what is missing. -/
def requesting (s : ConnectionEnd) (getl : OwnList) (len : ℕ) : ConnectionEnd :=
  { s with
    mRecvPending := true
    mGetDataBuffer := some { getl with
      list := getl.list.insertLast (List.replicate (len - s.mSSLRecvBufferSize) 0) }
    mSSLReceiveInProgress := true }

/-- What is fine for a callback to return. -/
def Returns (len : ℕ) (n : Int) (bytes : List Byte) (g : Seen) (s : ConnectionEnd) : Prop :=
  Awaits g s (.leave (.sslRecvCallback len) (some (.recv n bytes))) ∧ Informed (returned n g) s

/-- An error is returned only while bytes are held, if the end of file has been reported. -/
theorem returns_error {len : ℕ} (h : Informed g s) (herror : s.mRecvError ≠ 0) :
    Returns len s.mRecvError [] g s := by
  refine ⟨fun hconf => ⟨?_, fun hwait => absurd hwait (h hconf).error⟩, fun hconf => ?_⟩
  · obtain ⟨-, hsize, -, -, -, hholds⟩ := h hconf
    rw [ends, Bool.or_eq_true, Bool.not_eq_true', Bool.and_eq_false_iff]
    cases heof : g.eof with
    | false => exact .inl (.inl rfl)
    | true =>
      have hheld := hholds heof herror
      exact .inl (.inr (decide_eq_false (by omega)))
  · rw [returned_same (.inl ((h hconf).failed.trans (decide_eq_true herror)))]
    exact h hconf

/-- At the end of file 0 is returned. -/
theorem returns_zero {len : ℕ} (h : Informed g s) : Returns len 0 [] g s := by
  refine ⟨fun _ => ⟨?_, fun hwait => absurd hwait (by decide)⟩, ?_⟩
  · rw [ends, decide_eq_true rfl, Bool.or_true]
  · rw [returned_same (.inr le_rfl)]
    exact h

/-- A wait is returned while a get is pending and the end of file has not been reported. -/
theorem returns_wait {len : ℕ} (h : Informed g s) (hopen : s.mSSLConfigured = true → g.eof = false)
    (hpending : s.mRecvPending = true) : Returns len MBEDTLS_ERR_SSL_WANT_READ [] g s := by
  refine ⟨fun hconf => ⟨?_, fun _ => hpending⟩, ?_⟩
  · rw [ends, hopen hconf]
    rfl
  · rw [returned_same (.inr (by decide))]
    exact h

/-- A number of bytes is returned while some are held. -/
theorem returns_count {len n : ℕ} {bytes : List Byte} {s' : ConnectionEnd} (h : Informed g s)
    (hheld : 0 < s.mSSLRecvBufferSize) (hmode : s'.mSSLConfigured = s.mSSLConfigured)
    (h' : Informed (returned n g) s') : Returns len n bytes g s' := by
  refine ⟨fun hconf => ⟨?_, fun hwait => ?_⟩, h'⟩
  · have hsize := (h (hmode ▸ hconf)).size
    rw [ends, decide_eq_false (show ¬ g.held = 0 by omega), Bool.and_false]
    rfl
  · have hnot : (n : Int) ≠ MBEDTLS_ERR_SSL_WANT_READ := by
      unfold MBEDTLS_ERR_SSL_WANT_READ
      omega
    exact absurd hwait hnot

/-- `SSLRecvCallback` returns 0 at the end of file, and waits for a get only. -/
theorem sat_sslRecvCallback {len : ℕ} (hlen : 0 < len) (hstk : inTLS stk = true)
    (h : Informed g s) {Q : Post endMonitor ConnectionEnd Value}
    (hQ : ∀ n bytes g' s', Returns len n bytes g' s' → Q g' (some (.recv n bytes)) s') :
    (sslRecvCallback len).Sat stream.toContract (discipline endMonitor extra) e stk Q g s := by
  simp only [sslRecvCallback, Code.sat_bind, Code.sat_get, Post.andThen_some, Code.sat_ite,
    Code.sat_pure]
  refine ⟨fun herror => hQ _ _ _ _ (returns_error h herror), fun herror =>
    ⟨fun _ => hQ _ _ _ _ (returns_zero h), fun hopen => ⟨fun hask => ?_, fun hwaits =>
      ⟨fun herror' => absurd herror' herror, fun _ => ⟨fun hnone => ?_, fun hsome => ?_⟩⟩⟩⟩⟩
  · refine sat_deref _ fun getl hget => ?_
    simp only [Post.andThen_some, Code.sat_bind, Code.sat_modify]
    -- the get that is made now is what the callback finds out about
    have hfinds : FindsOut (requesting s getl len) :=
      ⟨.inl rfl, fun hclosed => absurd hclosed hopen⟩
    have hkept : CallKept stream.toContract (discipline endMonitor extra) e stk
        (fun g' s' => Informed g' s' ∧ FindsOut s') g
        (requesting s getl len) (.inner (.getBytesImmediateStart (.own getl.ptr) 1)) := by
      refine ⟨trivial, h.same rfl rfl rfl rfl rfl, fun _ g' s' hat hrely _ =>
        ⟨trivial, hat, ?_⟩⟩
      obtain ⟨-, hwithin⟩ := StreamContract.rely_nested rfl hstk hrely
      exact (hwithin rfl).2 hfinds
    refine hkept.sat_inner fun g' s' h' => ?_
    obtain ⟨hinformed, houtcome, hbytes⟩ := h'
    have hdone : Informed g' { s' with mSSLReceiveInProgress := false } :=
      hinformed.same rfl rfl rfl rfl rfl
    simp only [Post.andThen_some, Code.sat_bind, Code.sat_get, Code.sat_modify, Code.sat_ite,
      Code.sat_pure]
    refine ⟨fun herror' => hQ _ _ _ _ (returns_error hdone herror'), fun herror' =>
      ⟨fun hnone => hQ _ _ _ _ (returns_wait hdone (fun hconf => ?_) ?_), fun hsome => ?_⟩⟩
    · by_contra heof
      have hheld := hbytes ((hinformed hconf).closed (by simpa using heof))
      omega
    -- nothing is held and there is no error: the get must be pending still
    · rcases houtcome with hpending | hheld | hfailed
      · exact hpending
      · omega
      · exact absurd hfailed herror'
    · exact sat_takeReceived len hdone (not_not.mp herror') fun n bytes s'' hmode h'' =>
        hQ _ _ _ _ (returns_count hdone (Nat.pos_of_ne_zero hsome) hmode h'')
  · -- nothing is held, and nothing was asked for: a get is pending already
    refine hQ _ _ _ _ (returns_wait h (fun hconf => ?_) ?_)
    · by_contra heof
      exact hopen ((h hconf).closed (by simpa using heof))
    · by_contra hidle
      exact hwaits ⟨by omega, by simpa using hidle⟩
  · exact sat_takeReceived len h (not_not.mp herror) fun n bytes s'' hmode h'' =>
      hQ _ _ _ _ (returns_count h (Nat.pos_of_ne_zero hsome) hmode h'')

/-- The receiving side serves the contract. -/
theorem serves_receive {fuel : ℕ} (he : e.receives = true) (hmay : mayEnter stk e = true)
    (hasks : asksForBytes (.enter e) = true) (hok : reportsLater s (.enter e) = true)
    (h : Informed g s) : stream.Serves extra fuel e stk g s := by
  refine ⟨by cases e <;> trivial, ?_⟩
  cases e with
  | getCompleteCB of wrote result eof count =>
    simp only [code, unit, Code.sat_bind, Code.sat_modify, Post.andThen_some]
    exact sat_getCompleteCB hok h fun g' s' h' => ⟨trivial, h'.1, h'.2⟩
  | sslRecvCallback len =>
    have htop : atTLS stk = true := hmay
    refine sat_sslRecvCallback (of_decide_eq_true hasks) (inTLS_of_atTLS htop) h
      fun n bytes g' s' h' => ⟨h'.1, h'.2, fun hnested => ?_⟩
    rw [nested, htop] at hnested
    simp at hnested
  | _ => cases he

end receive

/-! ## The requests -/

/-- A new configuration is open, holds nothing and has no error. -/
theorem fresh (s : ConnectionEnd) (v : SetupValues) :
    Informed ⟨false, false, 0⟩ (s.configured v) := by
  refine fun _ => ⟨fun hnot => ?_, rfl, fun _ => rfl, rfl, ?_, fun hnot => ?_⟩
  · cases hnot
  · show (0 : Int) ≠ MBEDTLS_ERR_SSL_WANT_READ
    decide
  · cases hnot

/-- The rules for bodies outside of the traffic. -/
theorem rules (extra : List Call → Seen → ConnectionEnd → Label CESig → Bool) :
    stream.Rules extra := by
  refine sees.rules_of_plain (fun _ hx => (Label.isReceive_apart hx).1) (fun _ _ => .plain) ?_
    (fun _ _ _ _ => trivial) fun _ s v => ⟨trivial, fresh s v⟩
  · intro g s s' hvalues h
    simp only [ConnectionEnd.streamValues, ConnectionEnd.receiveValues, Prod.mk.injEq,
      ReceiveValues.mk.injEq] at hvalues
    obtain ⟨hconf, -, -, -, hclosed, -, hbuffer, hsize, herror, -⟩ := hvalues
    exact h.same hconf hclosed herror hbuffer hsize

/-! ## Waiting -/

/-- Every function meets the contract. -/
theorem meets (fuel : ℕ) :
    stream.toContract.Meets
      (discipline endMonitor fun _ _ s x => asksForBytes x && reportsLater s x) (code fuel) := by
  refine stream.meets (rules _).requestRules fuel fun e stk g s he hmay hok h => ?_
  obtain ⟨hasks, hlater⟩ := (Bool.and_eq_true _ _).mp hok
  rcases e.isTraffic_cases he with hreceive | hsend | hrest
  · exact serves_receive hreceive hmay hasks hlater h
  · exact stream.serves_send sees.quiet_send (fun _ _ _ h => h.same rfl rfl rfl rfl rfl)
      (fun _ _ hprogress => ⟨hprogress, fun hfinds => ⟨hfinds.outcome, hfinds.bytes⟩⟩) hsend h
  · exact stream.serves_rest sees.quiet_rest (fun _ _ _ _ _ h => h.same rfl rfl rfl rfl rfl)
      (fun _ _ _ _ hprogress => ⟨hprogress, fun hfinds => ⟨hfinds.outcome, hfinds.bytes⟩⟩) hrest h

/-- A wait for a pending get is a wait for something. -/
theorem Awaits.awaited {g : Seen × ℕ} {s : ConnectionEnd} {x : Label CESig} (h : Awaits g.1 s x) :
    awaited g s x = true := by
  unfold ReceiveWakeUp.awaited
  split
  · next n _ =>
    cases hconf : s.mSSLConfigured with
    | false => rfl
    | true =>
      obtain ⟨hends, hwait⟩ := h hconf
      rw [hends]
      by_cases hn : n = MBEDTLS_ERR_SSL_WANT_READ
      · simp [hwait hn]
      · simp [hn]
  · rfl

/-- **mbedTLS is told to wait only for what will come**, and is told 0 once the end of file has been
reported and all bytes have been handed out, in every run in which the inner end, while nothing is
held, does not report the end of file from inside of `GetBytesImmediateStart`, nor an error and
the end of file both. -/
theorem wait_answered {fuel : ℕ} {memory : ConnectionEnd} {cfg : Config CESig ConnectionEnd}
    (h : Reachable (discipline monitor fun _ _ s x => asksForBytes x && reportsLater s x)
      (code fuel) (new memory) cfg) :
    cfg.log.Obeys monitor fun g s x => awaited g s x = true := by
  have hreads : monitor.Reads endMonitor Prod.fst := ⟨rfl, fun _ _ => rfl⟩
  have hmeets := (meets fuel).pull hreads (D := discipline monitor
    fun _ _ s x => asksForBytes x && reportsLater s x) fun _ _ _ _ hperm => hperm
  intro before x after hl
  exact (Contract.log_obeys hmeets (.plain rfl) h before x after hl).awaited

/-- Connect with SSL and begin the handshake. -/
def handshaking : List (Move CESig) :=
  [enter .openStart, back, enter (.processOptionStart (.sslEnable true)), enter .connectStart,
    back, enter (.connectCompleteCB 0)]

/-- mbedTLS waits for a get that completes later, takes what has come, and learns of the end of
file, which comes between two calls. -/
def waiting : List (Move CESig) :=
  [enter (.sslRecvCallback 5), back, backWith MBEDTLS_ERR_SSL_WANT_READ,
    enter (.getCompleteCB (.own 5) [1, 2, 3, 4, 5] 0 true 5),
    enter (.handleRequest .kAsyncReadMessageType), enter (.sslRecvCallback 5),
    enter (.sslRecvCallback 4), back, backWith MBEDTLS_ERR_SSL_WANT_READ,
    back, enter (.getCompleteCB (.own 5) [] 0 true 0),
    enter (.handleRequest .kAsyncReadMessageType), enter (.sslRecvCallback 4)]

/-- The callback waits for a get, and is answered up to the end of the file. -/
theorem wait_answered_waiting :
    ∃ cfg, (Config.start (new zeroMemory)).run (discipline monitor
          fun _ _ s x => asksForBytes x && reportsLater s x) (code 0) (handshaking ++ waiting) =
        some cfg ∧
      monitor.run cfg.log = (⟨true, false, 0⟩, 0) ∧
      cfg.log.Obeys monitor fun g s x => awaited g s x = true := by
  have hrun : ((Config.start (new zeroMemory)).run (discipline monitor
      fun _ _ s x => asksForBytes x && reportsLater s x) (code 0) (handshaking ++ waiting)).map
        (fun cfg => monitor.run cfg.log) = some (⟨true, false, 0⟩, 0) := by decide +kernel
  obtain ⟨cfg, hcfg, hseen⟩ := Option.map_eq_some_iff.mp hrun
  exact ⟨cfg, hcfg, hseen, wait_answered (.of_run _ .start hcfg)⟩

/-- The inner end reports the end of file at once: no get is pending, and no message is queued. -/
theorem not_awaited :
    ¬ ∀ (fuel : ℕ) (memory : ConnectionEnd) (cfg : Config CESig ConnectionEnd),
      Reachable (discipline monitor fun _ _ _ => asksForBytes) (code fuel) (new memory) cfg →
        cfg.log.Obeys monitor fun g s x => awaited g s x = true := by
  intro hall
  have hbad : ((Config.start (new zeroMemory)).run (discipline monitor fun _ _ _ => asksForBytes)
      (code 0) (handshaking ++ [enter (.sslRecvCallback 5),
        enter (.getCompleteCB (.own 5) [] 0 true 0), back])).map
        (fun cfg => Log.check monitor awaited monitor.init cfg.log) = some false := by
    decide +kernel
  obtain ⟨cfg, hreach, hnot⟩ := Reachable.not_obeys _ hbad
  exact hnot (hall 0 zeroMemory cfg hreach)

end ReceiveWakeUp

end NewtonTLS
