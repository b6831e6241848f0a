/-
# Rules for the requests

What the entry points other than traffic do, said once for all contracts: which
calls they make in which states, how they change the mode on the way, and what
brings `DoSSLHandshake` about.  A contract with an invariant `Inv` is met when
the invariant obeys

* `CallRules`, about calls, returns and the flags that change on the way;
* `EntryRules`, about the entry points one by one: what configures, reads, writes,
  terminates and shakes hands is left to the contract.

A contract that does not look at the traffic of the session has less to show:

* `SendRules`, with which writing and terminating keep the invariant;
* `BasicRules` and `ReadRules`, with which reading does;
* `RequestRules`, the entry rules without these.

`EntryRules.meets` and `RequestRules.meets` are the rules of the module.
-/
import NewtonTLS.ConnectionEndSetup
import NewtonTLS.ConnectionEndTraffic

open Reentrant

namespace NewtonTLS

/-! ## Calls -/

/-- The list a call hands to the inner end, to send or to fill. -/
def InnerCall.list? : InnerCall → Option ListRef
  | .putBytesStart l => some l
  | .putFramedBytesStart l _ => some l
  | .getBytesStart l => some l
  | .getFramedBytesStart l => some l
  | .getBytesImmediateStart l _ => some l
  | _ => none

/-- When a call of `e` is made that has nothing to do with reading or a handshake.  A list that
is handed to the inner end is one of the client, and SSL is not configured.  A connect is complete
when SSL cannot be configured for it, and when the inner end says so: with its failure, or with
success if there is no SSL to follow. -/
def Call.fits (e : Entry) (s : ConnectionEnd) : Call → Prop
  | .inner c => ∀ l, c.list? = some l → (∃ b, l = .client b) ∧ s.mSSLConfigured = false
  | .client (.processOptionComplete _) => False
  | .client (.connectComplete r) =>
    (∃ k, e = .connectStart ∧ r = .code k ∧ k ≠ 0) ∨
      ∃ k, e = .connectCompleteCB k ∧ r = .code k ∧ (k = 0 → s.mSSLEnabled = false)
  | .client (.getComplete _ b n) => b = false ∧ n = 0
  | .client _ => True
  | .mbedtlsSslHandshake => False
  | .mbedtlsSslRead _ => False
  | .mbedtlsSslWrite _ => s.mSSLConfigured = true ∧ s.mEstablished = true
  | .mbedtlsSslCloseNotify => True

/-- Calls after whose return nothing is decided by how they return, or only what
the client is told. -/
def Call.returnsPlainly : Call → Bool
  | .inner .closeStart => false
  | .mbedtlsSslHandshake => false
  | .mbedtlsSslRead _ => false
  | _ => true

/-- Questions about a list of the client that is to be sent. -/
def Query.isPutList : Query → Bool
  | .listGetSize _ => true
  | .listPosition _ => true
  | .listGetn _ _ => true
  | .listSeek _ _ _ => true
  | _ => false

/-- Questions about a list of the client that is to be filled. -/
def Query.isGetList : Query → Bool
  | .listPutn _ _ => true
  | .getCurGetNonBlocking => true
  | .getCurGetThreshold => true
  | .getCurGetData => true
  | _ => false

/-! ## Fields that change on the way -/

/-- What requests change besides the configuration, the options and the read
buffer. -/
structure FlagValues : Type where
  enabled : Bool
  established : Bool
  upgradable : Bool
  closing : Bool
  timerInt : UInt32
  timerFin : UInt32
  timerFired : Bool
  rootHeap : HeapRef
  nextPtr : ℕ

/-- The flags as they are. -/
def ConnectionEnd.flagValues (s : ConnectionEnd) : FlagValues :=
  ⟨s.mSSLEnabled, s.mEstablished, s.mUpgradable, s.mClosing, s.mSSLTimerInt, s.mSSLTimerFin,
    s.mSSLTimerFired, s.mRootCertificatesHeap, s.nextPtr⟩

/-- The object with other flags. -/
def ConnectionEnd.withFlags (s : ConnectionEnd) (v : FlagValues) : ConnectionEnd :=
  { s with
    mSSLEnabled := v.enabled
    mEstablished := v.established
    mUpgradable := v.upgradable
    mClosing := v.closing
    mSSLTimerInt := v.timerInt
    mSSLTimerFin := v.timerFin
    mSSLTimerFired := v.timerFired
    mRootCertificatesHeap := v.rootHeap
    nextPtr := v.nextPtr }

/-- What reading changes. -/
structure ReadValues : Type where
  buffer : Option Block
  size : ℕ
  count : ℕ
  nextPtr : ℕ

/-- The object with another read buffer. -/
def ConnectionEnd.withReading (s : ConnectionEnd) (v : ReadValues) : ConnectionEnd :=
  { s with
    mSSLReadBuffer := v.buffer
    mSSLReadBufferSize := v.size
    mSSLReadCount := v.count
    nextPtr := v.nextPtr }

variable {M : Monitor CESig} {K : Contract M ConnectionEnd}
  {extra : List Call → M.Obs → ConnectionEnd → Label CESig → Bool}
  {Inv : M.Obs → ConnectionEnd → Prop}
  {Conf : M.Obs → ConnectionEnd → M.Obs → ConnectionEnd → Prop}
  {e : Entry} {stk : List Call} {g : M.Obs} {s : ConnectionEnd}

/-! ## Basic rules -/

/-- The entry point is not one of traffic, and is entered with no mbedTLS function
running. -/
structure OutsideTLS (e : Entry) (stk : List Call) : Prop where
  notTraffic : e.isTraffic = false
  out : inTLS stk = false

/-- The rules about calls.  Outside of mbedTLS, and right below one of its
functions, the contract promises the invariant; nothing else is asked of the
environment there, and inside mbedTLS it leaves the core alone. -/
structure CallRules (K : Contract M ConnectionEnd)
    (extra : List Call → M.Obs → ConnectionEnd → Label CESig → Bool)
    (Inv : M.Obs → ConnectionEnd → Prop) : Prop where
  at_iff : ∀ stk g s, inTLS stk = false ∨ inTLS stk.tail = false → (K.At stk g s ↔ Inv g s)
  rely_out : ∀ stk e g s g' s', inTLS stk = false → extra stk g s (.enter e) = true →
    K.Rely stk g s g' s'
  rely_tls : ∀ c stk g s g' s', c.isTLS = true → K.Rely (c :: stk) g s g' s' → SameCore s s'
  timer : ∀ g s i f b, Inv g s → Inv g (s.withTimer i f b)
  clock : Quiet K .getGlobalTime
  calls : ∀ e stk g s c, OutsideTLS e stk → c.isTLS = false → Inv g s → c.fits e s →
    K.Every g s (.calls e c) ∧ Inv (M.next g (.calls e c)) s
  resumes : ∀ stk g s c r, inTLS stk = false → c.isTLS = false → Inv g s →
    c.returnsPlainly = true → extra (c :: stk) g s (.resumes c r) = true →
    K.Every g s (.resumes c r) ∧ Inv (M.next g (.resumes c r)) s

namespace CallRules

variable (B : CallRules K extra Inv)
include B

/-- A call outside of mbedTLS comes back with the invariant. -/
theorem sat_call (hout : OutsideTLS e stk) {c : Call} (hc : c.isTLS = false)
    (hcall : K.Every g s (.calls e c) ∧ Inv (M.next g (.calls e c)) s)
    {Q : Post M ConnectionEnd c.Result}
    (hback : ∀ r g' s', Inv g' s' → K.Rely (c :: stk) (M.next g (.calls e c)) s g' s' →
      extra (c :: stk) g' s' (.resumes c r) = true →
      K.Every g' s' (.resumes c r) ∧ Q (M.next g' (.resumes c r)) (some r) s') :
    (Code.call (S := CESig) c).Sat K (discipline M extra) e stk Q g s := by
  have hcons : inTLS (c :: stk) = false := by rw [inTLS_cons, hc, hout.out, Bool.or_false]
  rw [Code.sat_call]
  refine ⟨hcall.1, (B.at_iff _ _ _ (.inl hcons)).mpr hcall.2, fun r g' s' hat hrely hperm => ?_⟩
  simp only [discipline, Bool.and_eq_true] at hperm
  exact hback r g' s' ((B.at_iff _ _ _ (.inl hcons)).mp hat) hrely hperm.2

/-- A function of mbedTLS comes back with the invariant and the same core. -/
theorem sat_tls (hout : OutsideTLS e stk) {c : Call} (hc : c.isTLS = true)
    (hcall : K.Every g s (.calls e c) ∧ Inv (M.next g (.calls e c)) s)
    {Q : Post M ConnectionEnd c.Result}
    (hback : ∀ r g' s', Inv g' s' → K.Rely (c :: stk) (M.next g (.calls e c)) s g' s' →
      SameCore s s' → extra (c :: stk) g' s' (.resumes c r) = true →
      K.Every g' s' (.resumes c r) ∧ Q (M.next g' (.resumes c r)) (some r) s') :
    (Code.call (S := CESig) c).Sat K (discipline M extra) e stk Q g s := by
  rw [Code.sat_call]
  refine ⟨hcall.1, (B.at_iff (c :: stk) _ _ (.inr hout.out)).mpr hcall.2,
    fun r g' s' hat hrely hperm => ?_⟩
  simp only [discipline, Bool.and_eq_true] at hperm
  exact hback r g' s' ((B.at_iff (c :: stk) _ _ (.inr hout.out)).mp hat) hrely
    (B.rely_tls _ _ _ _ _ _ hc hrely) hperm.2

/-- A request to the inner end, in the middle of a body. -/
theorem sat_inner (hout : OutsideTLS e stk) {c : InnerCall} (hinv : Inv g s)
    (hfits : (Call.inner c).fits e s) (hc : (Call.inner c).returnsPlainly = true)
    {Q : Post M ConnectionEnd Unit} (hQ : ∀ g' s', Inv g' s' → Q g' (some ()) s') :
    (inner c).Sat K (discipline M extra) e stk Q g s := by
  simp only [inner, Code.sat_bind]
  refine B.sat_call hout rfl (B.calls e stk g s _ hout rfl hinv hfits) fun r g' s' h' _ hok => ?_
  obtain ⟨hev, hnext⟩ := B.resumes stk g' s' _ r hout.out rfl h' hc hok
  exact ⟨hev, hQ _ _ hnext⟩

/-- Telling the client something. -/
theorem sat_tell (hout : OutsideTLS e stk) {c : ClientCall}
    (hcall : K.Every g s (.calls e (.client c)) ∧ Inv (M.next g (.calls e (.client c))) s)
    {Q : Post M ConnectionEnd Unit} (hQ : ∀ g' s', Inv g' s' → Q g' (some ()) s') :
    (client c).Sat K (discipline M extra) e stk Q g s := by
  simp only [client, Code.sat_bind]
  refine B.sat_call hout rfl hcall fun r g' s' h' _ hok => ?_
  obtain ⟨hev, hnext⟩ := B.resumes stk g' s' _ r hout.out rfl h' rfl hok
  exact ⟨hev, hQ _ _ hnext⟩

/-- A completion for the client, in the middle of a body. -/
theorem sat_client (hout : OutsideTLS e stk) {c : ClientCall} (hinv : Inv g s)
    (hfits : (Call.client c).fits e s) {Q : Post M ConnectionEnd Unit}
    (hQ : ∀ g' s', Inv g' s' → Q g' (some ()) s') :
    (client c).Sat K (discipline M extra) e stk Q g s :=
  B.sat_tell hout (B.calls e stk g s _ hout rfl hinv hfits) hQ

/-- The last part of `Delete`, after which the object is gone. -/
theorem sat_release (hout : OutsideTLS e stk) {P : Post M ConnectionEnd Value}
    (hinv : Inv g s) : Code.Sat K (discipline M extra) e stk P (do
      inner .delete
      client .delete
      Code.halt Fault.freed) g s := by
  simp only [Code.sat_bind]
  refine B.sat_inner hout hinv (fun _ h => by cases h) rfl fun g₁ s₁ h₁ => ?_
  simp only [Post.andThen_some, Code.sat_bind]
  exact B.sat_client hout h₁ (by trivial) fun _ _ _ => trivial

omit B in
/-- The first part of `Delete`, after which `Gone` holds. -/
theorem sat_unconfigureFirst {α : Type} {m : CE α} {P : Post M ConnectionEnd α}
    (Gone : M.Obs → ConnectionEnd → Prop)
    (hgone : s.mSSLConfigured = false → Gone g s) (hun : s.mSSLConfigured = true →
      sslUnconfigure.Sat K (discipline M extra) e stk (fun g' v s' => v = some () ∧ Gone g' s') g s)
    (hm : ∀ g' s', Gone g' s' → m.Sat K (discipline M extra) e stk P g' s') :
    Code.Sat K (discipline M extra) e stk P (do
      if (← get).mSSLConfigured then
        sslUnconfigure
      m) g s := by
  simp only [Code.sat_bind, Code.sat_get, Post.andThen_some, Code.sat_ite]
  refine ⟨fun hconf => (hun hconf).mono ?_, fun hplain => hm _ _ (hgone (by simpa using hplain))⟩
  rintro g' v s' ⟨rfl, h'⟩
  exact hm _ _ h'

/-- `Delete`: with `Gone` the contexts can be freed. -/
theorem sat_delete_of_gone (hout : OutsideTLS e stk) (Gone : M.Obs → ConnectionEnd → Prop)
    (hfree : ∀ g s a, Gone g s →
      K.Every g s (.asked .freeContexts a) ∧ Inv (M.next g (.asked .freeContexts a)) s)
    (hdestroy : ∀ heap, Quiet K (.destroyVMHeap heap))
    (hheap : ∀ g s heap, Inv g s → Inv g { s with mRootCertificatesHeap := heap })
    (hgone : s.mSSLConfigured = false → Gone g s) (hun : s.mSSLConfigured = true →
      sslUnconfigure.Sat K (discipline M extra) e stk (fun g' v s' => v = some () ∧ Gone g' s') g s)
    {P : Post M ConnectionEnd Value} :
    (delete (α := Value)).Sat K (discipline M extra) e stk P g s := by
  refine sat_unconfigureFirst Gone hgone hun fun g' s' h' => ?_
  simp only [Code.sat_bind]
  refine sat_ask fun a _ => ?_
  obtain ⟨hev, hnext⟩ := hfree g' s' a h'
  refine ⟨hev, ?_⟩
  simp only [Post.andThen_some, Code.sat_bind, Code.sat_get]
  cases s'.mRootCertificatesHeap with
  | none => exact B.sat_release hout hnext
  | some heap =>
    simp only [Code.sat_bind]
    exact (hdestroy heap).sat_ask fun _ => B.sat_release hout (hheap _ _ none hnext)

/-- `Delete` under a contract that does not look at the contexts. -/
theorem sat_delete (hout : OutsideTLS e stk) (hfree : Quiet K .freeContexts)
    (hdestroy : ∀ heap, Quiet K (.destroyVMHeap heap))
    (hheap : ∀ g s heap, Inv g s → Inv g { s with mRootCertificatesHeap := heap })
    (hinv : Inv g s) (hun : s.mSSLConfigured = true →
      sslUnconfigure.Sat K (discipline M extra) e stk (fun g' v s' => v = some () ∧ Inv g' s') g s)
    {P : Post M ConnectionEnd Value} :
    (delete (α := Value)).Sat K (discipline M extra) e stk P g s := by
  refine B.sat_delete_of_gone hout Inv (fun g s a h => ?_) hdestroy hheap (fun _ => hinv) hun
  obtain ⟨hev, hnext⟩ := hfree g s a
  rw [hnext]
  exact ⟨hev, h⟩

end CallRules

/-! ## Writing and terminating -/

/-- The rules of a contract that does not look at what the entry points `On` write: a connection
that is not established any more when a write has failed, and one that closes, keep the
invariant. -/
structure SendRules (K : Contract M ConnectionEnd)
    (extra : List Call → M.Obs → ConnectionEnd → Label CESig → Bool)
    (Inv : M.Obs → ConnectionEnd → Prop) (On : Entry → Prop) : Prop where
  basic : CallRules K extra Inv
  putList : ∀ q, q.isPutList = true → Quiet K q
  tlsCalls : ∀ e stk g s c, On e → OutsideTLS e stk → c.isTLS = true → Inv g s → c.fits e s →
    K.Every g s (.calls e c) ∧ Inv (M.next g (.calls e c)) s
  tlsResumes : ∀ stk g s c r, inTLS stk = false → c.isTLS = true → Inv g s →
    c.returnsPlainly = true → extra (c :: stk) g s (.resumes c r) = true →
    K.Every g s (.resumes c r) ∧ Inv (M.next g (.resumes c r)) s
  lost : ∀ g s buf r, r < 0 → Inv (M.next g (.resumes (.mbedtlsSslWrite buf) r)) s →
    Inv (M.next g (.resumes (.mbedtlsSslWrite buf) r)) { s with mEstablished := false }
  closing : ∀ g s, Inv g s → Inv g { s with mEstablished := false, mClosing := true }
  reset : ∀ g s a, Inv g s → s.mEstablished = false →
    K.Every g s (.asked .mbedtlsSslSessionReset a) ∧
      Inv (M.next g (.asked .mbedtlsSslSessionReset a)) s

namespace SendRules

variable {On : Entry → Prop} (B : SendRules K extra Inv On) {Q : Post M ConnectionEnd Unit}
include B

/-- `mbedtls_ssl_write` and `mbedtls_ssl_close_notify`. -/
theorem sat_send (he : On e) (hout : OutsideTLS e stk) {c : Call} (hc : c.isTLS = true)
    (hplain : c.returnsPlainly = true) (hinv : Inv g s) (hfits : c.fits e s)
    {Q : Post M ConnectionEnd c.Result}
    (hQ : ∀ r g' s', Inv (M.next g' (.resumes c r)) s' → Q (M.next g' (.resumes c r)) (some r) s') :
    (Code.call (S := CESig) c).Sat K (discipline M extra) e stk Q g s := by
  refine B.basic.sat_tls hout hc (B.tlsCalls e stk g s _ he hout hc hinv hfits)
    fun r g' s' h' _ _ hok => ?_
  obtain ⟨hev, hnext⟩ := B.tlsResumes stk g' s' _ r hout.out hc h' hplain hok
  exact ⟨hev, hQ r _ _ hnext⟩

/-- `mbedtls_ssl_session_reset` on a connection that is not established. -/
theorem sat_sessionReset (hinv : Inv g s) (hest : s.mEstablished = false)
    (hQ : ∀ g' s', Inv g' s' → Q g' (some ()) s') :
    mbedtlsSslSessionReset.Sat K (discipline M extra) e stk Q g s := by
  refine sat_mbedtlsSslSessionReset B.basic.clock
    (fun a => (B.reset g s a hinv hest).1) fun a i f b => hQ _ _ ?_
  exact B.basic.timer _ _ i f b (B.reset g s a hinv hest).2

/-- `TerminateStart` keeps the invariant. -/
theorem sat_terminateStart (he : On e) (hout : OutsideTLS e stk) (hinv : Inv g s)
    (hQ : ∀ g' s', Inv g' s' → Q g' (some ()) s') :
    terminateStart.Sat K (discipline M extra) e stk Q g s := by
  have hgo : ∀ g' s', Inv g' s' →
      (inner .terminateStart).Sat K (discipline M extra) e stk Q g' s' := fun g' s' h' =>
    B.basic.sat_inner hout h' (fun _ h => by cases h) rfl hQ
  simp only [terminateStart, Code.sat_bind, Code.sat_get, Post.andThen_some, Code.sat_ite]
  refine ⟨fun _ => ?_, fun _ => hgo _ _ hinv⟩
  exact B.sat_send he hout rfl rfl hinv (by trivial) fun r g' s' h' => hgo _ _ (B.closing _ _ h')

/-- A put of the client keeps it, also when it fails. -/
theorem sat_putToSSL (he : On e) (hout : OutsideTLS e stk) (clientBuffer : ℕ) (hinv : Inv g s)
    (hconf : s.mSSLConfigured = true) (hest : s.mEstablished = true)
    (hQ : ∀ g' s', Inv g' s' → Q g' (some ()) s') :
    (putToSSL clientBuffer).Sat K (discipline M extra) e stk Q g s := by
  have htell : ∀ r n g' s', Inv g' s' →
      (client (.putComplete r n)).Sat K (discipline M extra) e stk Q g' s' := fun r n g' s' h' =>
    B.basic.sat_client hout h' (by trivial) hQ
  simp only [putToSSL, Code.sat_bind]
  refine (B.putList _ rfl).sat_ask fun totalSize => ?_
  simp only [Post.andThen_some, Code.sat_bind]
  refine (B.putList _ rfl).sat_ask fun pos => ?_
  simp only [Post.andThen_some, Code.sat_bind]
  refine (B.putList _ rfl).sat_ask fun buf => ?_
  simp only [Post.andThen_some, Code.sat_bind]
  refine B.sat_send he hout rfl rfl hinv (by exact ⟨hconf, hest⟩) fun r g' s' h' => ?_
  simp only [Post.andThen_some, Code.sat_ite, Code.sat_bind, Code.sat_modify]
  refine ⟨fun _ => ⟨fun _ => ?_, fun _ => htell _ _ _ _ h'⟩, fun hfailed => ?_⟩
  · exact (B.putList _ rfl).sat_ask fun _ => htell _ _ _ _ h'
  · exact B.sat_sessionReset (B.lost _ _ _ r (not_le.mp hfailed) h') rfl
      fun g₁ s₁ h₁ => htell _ _ _ _ h₁

end SendRules

/-! ## The loop of `DoSSLRead` -/

/-- The object after `mbedtls_ssl_read` has written `bs` into the read buffer `buf`. -/
def ConnectionEnd.withRead (s : ConnectionEnd) (buf : Block) (bs : List Byte) : ConnectionEnd :=
  { s with
    mSSLReadBuffer := some { buf with bytes := writeAt buf.bytes s.mSSLReadCount bs }
    mSSLReadCount := s.mSSLReadCount + bs.length }

/-- The end of `DoSSLRead` at the threshold. -/
def completeRead (clientBuffer : ListRef) (buf : Block) (count : ℕ) : CE Unit := do
  putnReadBuffer clientBuffer buf
  client (.getComplete (.code 0) true count)
  modify fun s => { s with mSSLReadCount := 0 }

/-- What a round of `DoSSLRead` has left to do when `mbedtls_ssl_read` has returned. -/
def RoundEnds (K : Contract M ConnectionEnd) (D : Discipline M ConnectionEnd) (e : Entry)
    (stk : List Call) (clientBuffer : ListRef) (threshold : Int)
    (Active : M.Obs → ConnectionEnd → Prop) (Q : Post M ConnectionEnd Unit) (g : M.Obs)
    (s : ConnectionEnd) : Except Int (List Byte) → Prop
  | .ok bs => ∀ buf, s.mSSLReadBuffer = some buf →
    (threshold ≤ ((s.mSSLReadCount + bs.length : ℕ) : Int) →
      (completeRead clientBuffer { buf with bytes := writeAt buf.bytes s.mSSLReadCount bs }
        (s.mSSLReadCount + bs.length)).Sat K D e stk Q g (s.withRead buf bs)) ∧
    (¬ threshold ≤ ((s.mSSLReadCount + bs.length : ℕ) : Int) → Active g (s.withRead buf bs))
  | .error err =>
    (err = MBEDTLS_ERR_SSL_WANT_READ ∨ err = MBEDTLS_ERR_SSL_WANT_WRITE → Q g (some ()) s) ∧
    (¬ (err = MBEDTLS_ERR_SSL_WANT_READ ∨ err = MBEDTLS_ERR_SSL_WANT_WRITE) →
      (readFails clientBuffer err).Sat K D e stk Q g s)

/-- The end of `DoSSLRead` after a failure, which is reported as `err`. -/
def failRead (clientBuffer : ListRef) (err : Int) : CE Unit := do
  modify fun s : ConnectionEnd => { s with mEstablished := false, mClosing := true }
  let s ← get
  if 0 < s.mSSLReadCount then
    let buf ← deref s.mSSLReadBuffer
    putnReadBuffer clientBuffer buf
  mbedtlsSslSessionReset
  client (.getComplete (.code err) true s.mSSLReadCount)

/-- A failure of `mbedtls_ssl_read`, where `Failing` holds before and after the close notify. -/
theorem CallRules.sat_readFails (B : CallRules K extra Inv) (hout : OutsideTLS e stk)
    {clientBuffer : ListRef} {r : Int} (Failing : M.Obs → ConnectionEnd → Prop)
    {Q : Post M ConnectionEnd Unit} (h : Failing g s)
    (hcall : Failing g s → K.Every g s (.calls e .mbedtlsSslCloseNotify) ∧
      Inv (M.next g (.calls e .mbedtlsSslCloseNotify)) s)
    (hback : ∀ r g' s', Inv g' s' →
      K.Rely (.mbedtlsSslCloseNotify :: stk) (M.next g (.calls e .mbedtlsSslCloseNotify)) s g' s' →
      SameCore s s' →
      extra (.mbedtlsSslCloseNotify :: stk) g' s' (.resumes .mbedtlsSslCloseNotify r) = true →
      K.Every g' s' (.resumes .mbedtlsSslCloseNotify r) ∧
        Failing (M.next g' (.resumes .mbedtlsSslCloseNotify r)) s')
    (hend : ∀ err g s, Failing g s →
      (failRead clientBuffer err).Sat K (discipline M extra) e stk Q g s) :
    (readFails clientBuffer r).Sat K (discipline M extra) e stk Q g s := by
  simp only [readFails, Code.sat_bind, Code.sat_ite]
  refine ⟨fun _ => ?_, fun _ => ⟨fun _ => hend 0 g s h, fun _ => hend r g s h⟩⟩
  refine B.sat_tls hout rfl (hcall h) fun r' g' s' h' hrely hcore hok => ?_
  obtain ⟨hev, hfailing⟩ := hback r' g' s' h' hrely hcore hok
  exact ⟨hev, hend 0 _ _ hfailing⟩

/-- How much room the read buffer has left. -/
abbrev ConnectionEnd.readRoom (s : ConnectionEnd) : ℕ := s.mSSLReadBufferSize - s.mSSLReadCount

/-- `DoSSLRead` reads round after round, while `Active` holds. -/
theorem CallRules.sat_doSSLRead (B : CallRules K extra Inv) (hout : OutsideTLS e stk)
    {clientBuffer : ListRef} {threshold : Int} (Active : M.Obs → ConnectionEnd → Prop)
    {Q : Post M ConnectionEnd Unit}
    (hcall : ∀ g s, Active g s → K.Every g s (.calls e (.mbedtlsSslRead s.readRoom)) ∧
      Inv (M.next g (.calls e (.mbedtlsSslRead s.readRoom))) s)
    (hback : ∀ g s g' s' r, Active g s → Inv g' s' →
      K.Rely (.mbedtlsSslRead s.readRoom :: stk)
        (M.next g (.calls e (.mbedtlsSslRead s.readRoom))) s g' s' → SameCore s s' →
      extra (.mbedtlsSslRead s.readRoom :: stk) g' s'
        (.resumes (.mbedtlsSslRead s.readRoom) r) = true →
      K.Every g' s' (.resumes (.mbedtlsSslRead s.readRoom) r) ∧
        RoundEnds K (discipline M extra) e stk clientBuffer threshold Active Q
          (M.next g' (.resumes (.mbedtlsSslRead s.readRoom) r)) s' r) (fuel : ℕ) :
    ∀ {g : M.Obs} {s : ConnectionEnd}, Active g s →
      (doSSLRead fuel clientBuffer threshold).Sat K (discipline M extra) e stk Q g s := by
  induction fuel with
  | zero => intro g s _; exact trivial
  | succ fuel ih =>
    intro g s hactive
    simp only [doSSLRead, Code.sat_bind, Code.sat_get, Post.andThen_some]
    refine B.sat_tls hout rfl (hcall g s hactive) fun r g' s' h' hrely hcore hok => ?_
    obtain ⟨hev, hround⟩ := hback g s g' s' r hactive h' hrely hcore hok
    refine ⟨hev, ?_⟩
    rcases r with err | bs
    · simp only [Post.andThen_some, Code.sat_ite]
      exact ⟨hround.1, hround.2⟩
    · simp only [Post.andThen_some, Code.sat_bind, Code.sat_get]
      refine sat_deref _ fun buf hbuf => ?_
      obtain ⟨hcomplete, hagain⟩ := hround buf hbuf
      simp only [Post.andThen_some, Code.sat_bind, Code.sat_get, Code.sat_modify, Code.sat_ite]
      refine ⟨fun hdone => ?_, fun hless => ih (hagain hless)⟩
      simp only [deref, Code.sat_bind, Code.sat_pure, Post.andThen_some]
      have hend := hcomplete hdone
      simp only [completeRead, Code.sat_bind] at hend
      exact hend

/-- The rules of a contract that does not look at writing and terminating: a connection that is
not established any more, and one that has become upgradable, keep the invariant. -/
structure BasicRules (K : Contract M ConnectionEnd)
    (extra : List Call → M.Obs → ConnectionEnd → Label CESig → Bool)
    (Inv : M.Obs → ConnectionEnd → Prop) : Prop where
  at_iff : ∀ stk g s, inTLS stk = false ∨ inTLS stk.tail = false → (K.At stk g s ↔ Inv g s)
  rely_out : ∀ stk g s g' s', inTLS stk = false → K.Rely stk g s g' s'
  rely_tls : ∀ c stk g s g' s', c.isTLS = true → K.Rely (c :: stk) g s g' s' → SameCore s s'
  frame : ∀ g s v, Inv g s → (v.established = s.mEstablished ∨ v.established = false) →
    (v.upgradable = s.mUpgradable ∨ v.upgradable = true) → Inv g (s.withFlags v)
  memory : MemoryQuiet K
  putList : ∀ q, q.isPutList = true → Quiet K q
  calls : ∀ e stk g s c, OutsideTLS e stk → Inv g s → c.fits e s →
    K.Every g s (.calls e c) ∧ Inv (M.next g (.calls e c)) s
  resumes : ∀ stk g s c r, inTLS stk = false → Inv g s → c.returnsPlainly = true →
    extra (c :: stk) g s (.resumes c r) = true →
    K.Every g s (.resumes c r) ∧ Inv (M.next g (.resumes c r)) s
  reset : ∀ g s a, Inv g s → s.mEstablished = false →
    K.Every g s (.asked .mbedtlsSslSessionReset a) ∧
      Inv (M.next g (.asked .mbedtlsSslSessionReset a)) s

namespace BasicRules

variable (B : BasicRules K extra Inv)
include B

theorem callRules : CallRules K extra Inv where
  at_iff := B.at_iff
  rely_out := fun stk _ g s g' s' hout _ => B.rely_out stk g s g' s' hout
  rely_tls := B.rely_tls
  timer := fun g s i f b hinv =>
    B.frame g s { s.flagValues with timerInt := i, timerFin := f, timerFired := b } hinv (.inl rfl)
      (.inl rfl)
  clock := B.memory _ rfl
  calls := fun e stk g s c hout _ hinv hfits => B.calls e stk g s c hout hinv hfits
  resumes := fun stk g s c r hout _ hinv hc hok => B.resumes stk g s c r hout hinv hc hok

theorem sendRules : SendRules K extra Inv fun _ => True where
  basic := B.callRules
  putList := B.putList
  tlsCalls := fun e stk g s c _ hout _ hinv hfits => B.calls e stk g s c hout hinv hfits
  tlsResumes := fun stk g s c r hout _ hinv hc hok => B.resumes stk g s c r hout hinv hc hok
  lost := fun _ s _ _ _ hinv =>
    B.frame _ s { s.flagValues with established := false } hinv (.inr rfl) (.inl rfl)
  closing := fun g s hinv =>
    B.frame g s { s.flagValues with established := false, closing := true } hinv (.inr rfl)
      (.inl rfl)
  reset := B.reset

end BasicRules

/-! ## Reading -/

/-- The rules of a contract that does not look at reading. -/
structure ReadRules (K : Contract M ConnectionEnd) (Inv : M.Obs → ConnectionEnd → Prop) :
    Prop where
  getList : ∀ q, q.isGetList = true → Quiet K q
  frame : ∀ g s v, Inv g s → Inv g (s.withReading v)
  read : ∀ e g s n, Inv g s → s.mEstablished = true →
    K.Every g s (.calls e (.mbedtlsSslRead n)) ∧ Inv (M.next g (.calls e (.mbedtlsSslRead n))) s
  readEnds : ∀ g s n r, Inv g s →
    K.Every g s (.resumes (.mbedtlsSslRead n) r) ∧ Inv (M.next g (.resumes (.mbedtlsSslRead n) r)) s
  completes : ∀ e g s r b n, e.isTraffic = false → Inv g s →
    K.Every g s (.calls e (.client (.getComplete r b n))) ∧
      Inv (M.next g (.calls e (.client (.getComplete r b n)))) s

/-- The rules of a contract that may look at the read buffer: what is in it changes (`filled`),
and it is disposed of (`emptied`). -/
structure ReadBufferRules (K : Contract M ConnectionEnd) (Inv : M.Obs → ConnectionEnd → Prop) :
    Prop where
  getList : ∀ q, q.isGetList = true → Quiet K q
  filled : ∀ g s buf bytes count, s.mSSLReadBuffer = some buf → Inv g s → Inv g
    (s.withReading ⟨some { buf with bytes := bytes }, s.mSSLReadBufferSize, count, s.nextPtr⟩)
  emptied : ∀ g s buf a, s.mSSLReadBuffer = some buf → Inv g s →
    K.Every g s (.asked (.disposPtr buf.ptr) a) ∧
      Inv (M.next g (.asked (.disposPtr buf.ptr) a)) s.withoutReadBuffer
  cleared : ∀ g s, Inv g s → Inv g { s with mSSLReadCount := 0 }
  read : ∀ e g s n, Inv g s → s.mEstablished = true →
    K.Every g s (.calls e (.mbedtlsSslRead n)) ∧ Inv (M.next g (.calls e (.mbedtlsSslRead n))) s
  readEnds : ∀ g s n r, Inv g s →
    K.Every g s (.resumes (.mbedtlsSslRead n) r) ∧ Inv (M.next g (.resumes (.mbedtlsSslRead n) r)) s
  completes : ∀ e g s r b n, e.isTraffic = false → Inv g s →
    K.Every g s (.calls e (.client (.getComplete r b n))) ∧
      Inv (M.next g (.calls e (.client (.getComplete r b n)))) s

/-- A contract that does not look at reading does not look at the read buffer. -/
theorem ReadRules.bufferRules (R : ReadRules K Inv) (hmem : MemoryQuiet K) :
    ReadBufferRules K Inv where
  getList := R.getList
  filled := fun g s _ _ _ _ h => R.frame g s _ h
  emptied := by
    intro g s buf a _ h
    obtain ⟨hev, hnext⟩ := hmem (.disposPtr buf.ptr) rfl g s a
    rw [hnext]
    exact ⟨hev, R.frame g s ⟨none, 0, s.mSSLReadCount, s.nextPtr⟩ h⟩
  cleared := fun g s h =>
    R.frame g s ⟨s.mSSLReadBuffer, s.mSSLReadBufferSize, 0, s.nextPtr⟩ h
  read := R.read
  readEnds := R.readEnds
  completes := R.completes

/-- Nor at the allocation of the read buffer. -/
theorem ReadRules.started (R : ReadRules K Inv) (hmem : MemoryQuiet K) (hinv : Inv g s) (size : ℕ)
    (a : Unit) :
    K.Every g { s with mSSLReadBufferSize := size, nextPtr := s.nextPtr + 1 }
        (.asked (.newPtr s.nextPtr size) a) ∧
      Inv (M.next g (.asked (.newPtr s.nextPtr size) a))
        (s.withReading ⟨some ⟨s.nextPtr, List.replicate size 0⟩, size, 0, s.nextPtr + 1⟩) := by
  obtain ⟨hev, hnext⟩ := hmem (.newPtr s.nextPtr size) rfl g
    { s with mSSLReadBufferSize := size, nextPtr := s.nextPtr + 1 } a
  rw [hnext]
  exact ⟨hev, R.frame g s _ hinv⟩

/-- What has been read goes to the client. -/
theorem ReadBufferRules.sat_putnReadBuffer (R : ReadBufferRules K Inv) (hinv : Inv g s)
    (clientBuffer : ListRef) {buf : Block} (hbuf : s.mSSLReadBuffer = some buf)
    {Q : Post M ConnectionEnd Unit}
    (hQ : ∀ g', Inv g' s.withoutReadBuffer → Q g' (some ()) s.withoutReadBuffer) :
    (putnReadBuffer clientBuffer buf).Sat K (discipline M extra) e stk Q g s := by
  simp only [putnReadBuffer, Code.sat_bind, Code.sat_get, Post.andThen_some]
  cases clientBuffer with
  | client b =>
    simp only [Code.sat_bind]
    refine (R.getList _ rfl).sat_ask fun _ => ?_
    simp only [Post.andThen_some, Code.sat_bind]
    refine sat_ask fun a _ => ?_
    obtain ⟨hev, hnext⟩ := R.emptied g s buf a hbuf hinv
    exact ⟨hev, hQ _ hnext⟩
  | own p => exact trivial
  | null => exact trivial

namespace SendRules

variable {On : Entry → Prop} (B : SendRules K extra Inv On) (R : ReadBufferRules K Inv)
  {Q : Post M ConnectionEnd Unit}
include B R

/-- A read that fails is completed with an error. -/
theorem sat_readFails (he : On e) (hout : OutsideTLS e stk) (hinv : Inv g s)
    (clientBuffer : ListRef)
    (r : Int) (hQ : ∀ g' s', Inv g' s' → Q g' (some ()) s') :
    (readFails clientBuffer r).Sat K (discipline M extra) e stk Q g s := by
  refine B.basic.sat_readFails hout Inv hinv
    (fun h => B.tlsCalls e stk _ _ _ he hout rfl h (by trivial))
    (fun r g' s' h' _ _ hok => B.tlsResumes stk g' s' _ r hout.out rfl h' rfl hok)
    fun err g s hinv => ?_
  have hreset : ∀ g' s', Inv g' s' → (client (.getComplete (.code err) true s.mSSLReadCount)).Sat
      K (discipline M extra) e stk Q g' s' :=
    fun g' s' h' => B.basic.sat_tell hout (R.completes _ g' s' _ _ _ hout.notTraffic h') hQ
  simp only [failRead, Code.sat_bind, Code.sat_get, Code.sat_modify, Post.andThen_some,
    Code.sat_ite]
  refine ⟨fun _ => sat_deref _ fun buf hbuf => ?_, fun _ => ?_⟩
  · simp only [Post.andThen_some, Code.sat_bind]
    refine R.sat_putnReadBuffer (B.closing _ _ hinv) _ hbuf fun g' h' => ?_
    simp only [Post.andThen_some, Code.sat_bind]
    exact B.sat_sessionReset h' rfl hreset
  · exact B.sat_sessionReset (B.closing _ _ hinv) rfl hreset

/-- `DoSSLRead` reads from an established connection, round after round. -/
theorem sat_doSSLRead (he : On e) (hout : OutsideTLS e stk) (clientBuffer : ListRef)
    (threshold : Int)
    (hQ : ∀ g' s', Inv g' s' → Q g' (some ()) s') (fuel : ℕ) (hinv : Inv g s)
    (hest : s.mEstablished = true) :
    (doSSLRead fuel clientBuffer threshold).Sat K (discipline M extra) e stk Q g s := by
  refine B.basic.sat_doSSLRead hout (fun g s => Inv g s ∧ s.mEstablished = true)
    (fun g s h => R.read _ g s _ h.1 h.2) ?_ fuel ⟨hinv, hest⟩
  intro g s g' s' r hactive h' _ hcore _
  obtain ⟨hev, hnext⟩ := R.readEnds g' s' _ r h'
  refine ⟨hev, ?_⟩
  rcases r with err | bs
  · exact ⟨fun _ => hQ _ _ hnext, fun _ => B.sat_readFails R he hout hnext _ _ hQ⟩
  · intro buf hbuf
    have hread := R.filled _ _ buf (writeAt buf.bytes s'.mSSLReadCount bs)
      (s'.mSSLReadCount + bs.length) hbuf hnext
    refine ⟨fun _ => ?_, fun _ => ⟨hread, hcore.mEstablished.trans hactive.2⟩⟩
    simp only [completeRead, Code.sat_bind]
    refine R.sat_putnReadBuffer hread _ rfl fun g₁ h₁ => ?_
    simp only [Post.andThen_some, Code.sat_bind]
    refine B.basic.sat_tell hout (R.completes _ _ _ _ _ _ hout.notTraffic h₁) fun g₂ s₂ h₂ => ?_
    exact hQ _ _ (R.cleared _ _ h₂)

/-- A get allocates the read buffer and reads into it. -/
theorem sat_getFromSSL (he : On e)
    (hout : OutsideTLS e stk) (fuel clientBuffer : ℕ) (threshold : Int) (hinv : Inv g s)
    (hstarted : ∀ size a, s.mSSLReadBuffer = none →
      K.Every g { s with mSSLReadBufferSize := size, nextPtr := s.nextPtr + 1 }
          (.asked (.newPtr s.nextPtr size) a) ∧
        Inv (M.next g (.asked (.newPtr s.nextPtr size) a))
          (s.withReading ⟨some ⟨s.nextPtr, List.replicate size 0⟩, size, 0, s.nextPtr + 1⟩))
    (hQ : ∀ g' s', Inv g' s' → Q g' (some ()) s') :
    (getFromSSL fuel clientBuffer threshold).Sat K (discipline M extra) e stk Q g s := by
  simp only [getFromSSL, Code.sat_bind, Code.sat_get, Post.andThen_some, Code.sat_ite]
  refine ⟨fun hest => ?_, fun _ => B.basic.sat_client hout hinv (by exact ⟨rfl, rfl⟩) hQ⟩
  cases hbuf : s.mSSLReadBuffer with
  | some _ => exact B.basic.sat_client hout hinv (by exact ⟨rfl, rfl⟩) hQ
  | none =>
    simp only [Code.sat_bind]
    refine (B.putList _ rfl).sat_ask fun totalSize => ?_
    simp only [Post.andThen_some, Code.sat_bind]
    refine (B.putList _ rfl).sat_ask fun pos => ?_
    simp only [Post.andThen_some, Code.sat_bind, Code.sat_modify, newPtr]
    refine sat_freshPtr ?_
    simp only [Post.andThen_some, Code.sat_bind]
    refine sat_ask fun a _ => ?_
    obtain ⟨hev, hstart⟩ := hstarted (totalSize - pos) a hbuf
    refine ⟨hev, ?_⟩
    simp only [Post.andThen_some, Code.sat_bind, Code.sat_pure, Code.sat_modify]
    exact B.sat_doSSLRead R he hout _ _ hQ fuel hstart hest

theorem sat_retryRead (he : On e) (hout : OutsideTLS e stk) (fuel : ℕ) (hinv : Inv g s)
    (hest : s.mEstablished = true) (hQ : ∀ g' s', Inv g' s' → Q g' (some ()) s') :
    (retryRead fuel).Sat K (discipline M extra) e stk Q g s := by
  have hread : ∀ threshold, Code.Sat K (discipline M extra) e stk Q (do
      let clientBuffer ← ask .getCurGetData
      doSSLRead fuel clientBuffer threshold) g s := by
    intro threshold
    simp only [Code.sat_bind]
    refine (R.getList _ rfl).sat_ask fun clientBuffer => ?_
    exact B.sat_doSSLRead R he hout _ _ hQ fuel hinv hest
  simp only [retryRead, Code.sat_bind]
  refine (R.getList _ rfl).sat_ask fun nonBlocking => ?_
  simp only [Post.andThen_some, Code.sat_bind, Code.sat_ite]
  refine ⟨fun _ => ?_, fun _ => hread 0⟩
  exact (R.getList _ rfl).sat_ask fun threshold => hread threshold

end SendRules

namespace BasicRules

variable (B : BasicRules K extra Inv) (R : ReadRules K Inv) {Q : Post M ConnectionEnd Unit}
include B R

/-- A get of the client reads at once. -/
theorem sat_getFromSSL (hout : OutsideTLS e stk) (fuel clientBuffer : ℕ) (threshold : Int)
    (hinv : Inv g s) (hQ : ∀ g' s', Inv g' s' → Q g' (some ()) s') :
    (getFromSSL fuel clientBuffer threshold).Sat K (discipline M extra) e stk Q g s :=
  B.sendRules.sat_getFromSSL (R.bufferRules B.memory) trivial hout fuel clientBuffer threshold hinv
    (fun size a _ => R.started B.memory hinv size a) hQ

theorem sat_retryRead (hout : OutsideTLS e stk) (fuel : ℕ) (hinv : Inv g s)
    (hest : s.mEstablished = true) (hQ : ∀ g' s', Inv g' s' → Q g' (some ()) s') :
    (retryRead fuel).Sat K (discipline M extra) e stk Q g s :=
  B.sendRules.sat_retryRead (R.bufferRules B.memory) trivial hout fuel hinv hest hQ

end BasicRules

/-! ## Handshakes -/

/-- What brings `DoSSLHandshake` about: the observation and the state in which
`mbedtls_ssl_handshake` is called. -/
inductive Cause (M : Monitor CESig)
    (extra : List Call → M.Obs → ConnectionEnd → Label CESig → Bool)
    (Inv : M.Obs → ConnectionEnd → Prop)
    (Conf : M.Obs → ConnectionEnd → M.Obs → ConnectionEnd → Prop)
    (stk : List Call) : M.Obs → ConnectionEnd → Prop where
  | tick {g : M.Obs} {s : ConnectionEnd} (nowms : UInt32)
      (hok : extra stk g s (.enter (.handleTimerTick nowms)) = true) (hinv : Inv g s)
      (hdue : s.mSSLConfigured = true ∧ s.mEstablished = false ∧ s.mClosing = false ∧
        s.mSSLTimerFin ≠ 0 ∧ s.mSSLTimerFired = false ∧ s.mSSLTimerFin ≤ nowms) :
      Cause M extra Inv Conf stk (M.next g (.enter (.handleTimerTick nowms))) s
  | wakeUp {g : M.Obs} {s : ConnectionEnd}
      (hok : extra stk g s (.enter (.handleRequest .kAsyncReadMessageType)) = true)
      (hinv : Inv g s) (hclosing : s.mClosing = false) (hest : s.mEstablished = false) :
      Cause M extra Inv Conf stk (M.next g (.enter (.handleRequest .kAsyncReadMessageType))) s
  | connected {g : M.Obs} {s : ConnectionEnd}
      (hok : extra stk g s (.enter (.connectCompleteCB 0)) = true) (hinv : Inv g s)
      (henabled : s.mSSLEnabled = true) :
      Cause M extra Inv Conf stk
        (M.next (M.next g (.enter (.connectCompleteCB 0)))
          (.asked (.handshakeBegins .connect) ())) s
  | upgrade {g g' : M.Obs} {s s' : ConnectionEnd}
      (hok : extra stk g s (.enter (.processOptionStart (.sslEnable true))) = true)
      (hinv : Inv g s) (hup : s.mUpgradable = true)
      (hconf : Conf (M.next g (.enter (.processOptionStart (.sslEnable true))))
        { s with mSSLEnabled := true } g' s') :
      Cause M extra Inv Conf stk (M.next g' (.asked (.handshakeBegins .option) ())) s'

/-- What holds after each of the causes holds at the handshake. -/
theorem Cause.elim {P : M.Obs → ConnectionEnd → Prop} (h : Cause M extra Inv Conf stk g s)
    (htick : ∀ g s nowms, Inv g s → P (M.next g (.enter (.handleTimerTick nowms))) s)
    (hwake : ∀ g s, Inv g s → P (M.next g (.enter (.handleRequest .kAsyncReadMessageType))) s)
    (hconnected : ∀ g s, Inv g s → s.mSSLEnabled = true → P (M.next
      (M.next g (.enter (.connectCompleteCB 0))) (.asked (.handshakeBegins .connect) ())) s)
    (hupgrade : ∀ g s g' s', Conf g s g' s' →
      P (M.next g' (.asked (.handshakeBegins .option) ())) s') : P g s := by
  cases h with
  | tick nowms _ hinv _ => exact htick _ _ nowms hinv
  | wakeUp _ hinv _ _ => exact hwake _ _ hinv
  | connected _ hinv henabled => exact hconnected _ _ hinv henabled
  | upgrade _ _ _ hconf => exact hupgrade _ _ _ _ hconf

/-- The invariant holds when a handshake is called, if entering, configuring and the
mark of the handshake keep it. -/
theorem Cause.inv
    (henter : ∀ stk e g s, e.isTraffic = false → extra stk g s (.enter e) = true → Inv g s →
      Inv (M.next g (.enter e)) s)
    (hconf : ∀ g s g' s', Conf g s g' s' → Inv g' s')
    (hbegins : ∀ g s r, Inv g s → Inv (M.next g (.asked (.handshakeBegins r) ())) s)
    (h : Cause M extra Inv Conf stk g s) : Inv g s := by
  cases h with
  | tick nowms hok hinv _ => exact henter _ _ _ _ rfl hok hinv
  | wakeUp hok hinv _ _ => exact henter _ _ _ _ rfl hok hinv
  | connected hok hinv _ => exact hbegins _ _ _ (henter _ _ _ _ rfl hok hinv)
  | upgrade hok hinv hup hc => exact hbegins _ _ _ (hconf _ _ _ _ hc)

/-- The client can be told `c`. -/
def Tells (K : Contract M ConnectionEnd) (Inv : M.Obs → ConnectionEnd → Prop) (e : Entry)
    (g : M.Obs) (s : ConnectionEnd) (c : ClientCall) : Prop :=
  K.Every g s (.calls e (.client c)) ∧ Inv (M.next g (.calls e (.client c))) s

/-- The completion of a handshake that succeeded. -/
def successReport (s : ConnectionEnd) : ClientCall :=
  if s.mUpgradable then .processOptionComplete .opSuccess else .connectComplete (.code 0)

/-- The handshake is to be called again. -/
def wantsMore (r : Int) : Bool :=
  r = MBEDTLS_ERR_SSL_WANT_READ ∨ r = MBEDTLS_ERR_SSL_WANT_WRITE

/-- What is left to do when the handshake has returned `r`. -/
structure Outcome (K : Contract M ConnectionEnd) (Inv : M.Obs → ConnectionEnd → Prop)
    (e : Entry) (g : M.Obs) (s : ConnectionEnd) (r : Int) : Prop where
  success : r = 0 → Tells K Inv e g { s with mEstablished := true } (successReport s)
  failure : r ≠ 0 → wantsMore r = false → ∀ a i f b,
    K.Every g { s with mEstablished := false, mClosing := true }
      (.asked .mbedtlsSslSessionReset a) ∧
    Tells K Inv e (M.next g (.asked .mbedtlsSslSessionReset a))
      (({ s with mEstablished := false, mClosing := true } : ConnectionEnd).withTimer i f b)
      (.connectComplete (.code r))
  again : wantsMore r = true → Inv g s

/-! ## Requests -/

/-- How `SSLConfigure` must end. -/
def ConfigureEnds (Inv : M.Obs → ConnectionEnd → Prop)
    (Conf : M.Obs → ConnectionEnd → M.Obs → ConnectionEnd → Prop) (g : M.Obs)
    (s : ConnectionEnd) : Post M ConnectionEnd Int := fun g' r s' =>
  (r = some 0 → Conf g s g' s') ∧ (r ≠ some 0 → Inv g' s')

/-- The entry points that change a setting before anything else happens. -/
def Entry.sets : Entry → Bool
  | .openStart => true
  | .connectStart => true
  | .connectCompleteCB _ => true
  | .processOptionStart (.other _) => false
  | .processOptionStart _ => true
  | _ => false

/-- The object when `ConnectCompleteCB` has looked at the result. -/
def ConnectionEnd.connected (s : ConnectionEnd) (result : Int) : ConnectionEnd :=
  if s.mSSLEnabled = false ∧ result = 0 then { s with mUpgradable := true } else s

/-- A connect sets `mUpgradable` at most. -/
theorem ConnectionEnd.of_connected {P : ConnectionEnd → Prop} (result : Int) (h : P s)
    (hup : P { s with mUpgradable := true }) : P (s.connected result) := by
  unfold ConnectionEnd.connected
  split
  · exact hup
  · exact h

/-- The two requests that run `SSLConfigure`, and the state in which they do. -/
inductive Begins (M : Monitor CESig)
    (extra : List Call → M.Obs → ConnectionEnd → Label CESig → Bool)
    (Inv : M.Obs → ConnectionEnd → Prop) (stk : List Call) :
    Entry → M.Obs → ConnectionEnd → Prop where
  | connect {g : M.Obs} {s : ConnectionEnd} (hok : extra stk g s (.enter .connectStart) = true)
      (hinv : Inv g s) (henabled : s.mSSLEnabled = true) :
      Begins M extra Inv stk .connectStart (M.next g (.enter .connectStart)) s
  | option {g : M.Obs} {s : ConnectionEnd}
      (hok : extra stk g s (.enter (.processOptionStart (.sslEnable true))) = true)
      (hinv : Inv g s) (hup : s.mUpgradable = true) :
      Begins M extra Inv stk (.processOptionStart (.sslEnable true))
        (M.next g (.enter (.processOptionStart (.sslEnable true)))) { s with mSSLEnabled := true }

/-- What both requests make of the invariant holds when they configure. -/
theorem Begins.elim {P : M.Obs → ConnectionEnd → Prop} (h : Begins M extra Inv stk e g s)
    (hconnect : ∀ g s, extra stk g s (.enter .connectStart) = true → Inv g s →
      s.mSSLEnabled = true → P (M.next g (.enter .connectStart)) s)
    (hoption : ∀ g s, extra stk g s (.enter (.processOptionStart (.sslEnable true))) = true →
      Inv g s → s.mUpgradable = true →
      P (M.next g (.enter (.processOptionStart (.sslEnable true))))
        { s with mSSLEnabled := true }) :
    P g s := by
  cases h with
  | connect hok hinv henabled => exact hconnect _ _ hok hinv henabled
  | option hok hinv hup => exact hoption _ _ hok hinv hup

/-- The list that a get is to fill. -/
def Entry.gets? : Entry → Option ℕ
  | .getBytesStart b => some b
  | .getBytesImmediateStart b _ => some b
  | _ => none

theorem Entry.sets_of_gets {b : ℕ} (h : e.gets? = some b) : e.sets = false := by
  unfold Entry.gets? at h
  split at h <;> first | rfl | cases h

/-- The rules about entry points.  `Conf` relates observation and state before
and after a `SSLConfigure` that returns 0.  `closed`, `delete`, `configure`, `setter`,
`getSSL`, `reread`, `put` and `terminate` are about the functions that these entry points
run. -/
structure EntryRules (K : Contract M ConnectionEnd)
    (extra : List Call → M.Obs → ConnectionEnd → Label CESig → Bool)
    (Inv : M.Obs → ConnectionEnd → Prop)
    (Conf : M.Obs → ConnectionEnd → M.Obs → ConnectionEnd → Prop) : Prop where
  basic : CallRules K extra Inv
  enter : ∀ stk e g s, e.isTraffic = false → extra stk g s (.enter e) = true → Inv g s →
    K.Every g s (.enter e) ∧ (e.sets = false → Inv (M.next g (.enter e)) s)
  leave : ∀ e v g s, e.isTraffic = false → Inv g s →
    K.Every g s (.leave e v) ∧ Inv (M.next g (.leave e v)) s
  opened : ∀ stk g s, extra stk g s (.enter .openStart) = true → Inv g s →
    Inv (M.next g (.enter .openStart)) { s with mSSLEnabled := false, mSSLConfigured := false }
  connects : ∀ stk g s, extra stk g s (.enter .connectStart) = true → Inv g s →
    s.mSSLEnabled = false → Inv (M.next g (.enter .connectStart)) s
  connected : ∀ stk r g s, extra stk g s (.enter (.connectCompleteCB r)) = true → Inv g s →
    ¬ (s.mSSLEnabled = true ∧ r = 0) →
    Inv (M.next g (.enter (.connectCompleteCB r))) (s.connected r)
  enabled : ∀ stk b g s, extra stk g s (.enter (.processOptionStart (.sslEnable b))) = true →
    Inv g s → Inv (M.next g (.enter (.processOptionStart (.sslEnable b))))
      { s with mSSLEnabled := b }
  closed : ∀ stk g s, inTLS stk = false → Inv g s →
    extra (.inner .closeStart :: stk) g s (.resumes (.inner .closeStart) ()) = true →
    K.Every g s (.resumes (.inner .closeStart) ()) ∧
      Inv (M.next g (.resumes (.inner .closeStart) ())) s ∧
      (s.mSSLConfigured = true → sslUnconfigure.Sat K (discipline M extra) .closeStart stk
        (fun g' _ s' => Inv g' s') (M.next g (.resumes (.inner .closeStart) ())) s)
  delete : ∀ stk g s, inTLS stk = false → extra stk g s (.enter .delete) = true → Inv g s →
    (delete (α := Value)).Sat K (discipline M extra) .delete stk (fun g' _ s' => Inv g' s')
      (M.next g (.enter .delete)) s
  configure : ∀ e stk fuel g s, OutsideTLS e stk → Begins M extra Inv stk e g s →
    (sslConfigure fuel).Sat K (discipline M extra) e stk (ConfigureEnds Inv Conf g s) g s
  configured : ∀ g s g' s', Conf g s g' s' → Inv g' s'
  setter : ∀ e stk fuel o g s, OutsideTLS e stk → o.isSetter = true →
    extra stk g s (.enter (.processOptionStart o)) = true → Inv g s →
    (processOptionStart fuel o).Sat K (discipline M extra) e stk (fun g' _ s' => Inv g' s')
      (M.next g (.enter (.processOptionStart o))) s
  getSSL : ∀ e stk fuel b threshold g s, OutsideTLS e stk → e.gets? = some b →
    extra stk g s (.enter e) = true → Inv g s → s.mSSLConfigured = true →
    (getFromSSL fuel b threshold).Sat K (discipline M extra) e stk (fun g' _ s' => Inv g' s')
      (M.next g (.enter e)) s
  reread : ∀ stk fuel g s, inTLS stk = false → Inv g s → s.mClosing = false →
    s.mEstablished = true → s.mSSLReadBuffer.isSome = true →
    (retryRead fuel).Sat K (discipline M extra) (.handleRequest .kAsyncReadMessageType) stk
      (fun g' _ s' => Inv g' s') g s
  put : ∀ stk b g s, inTLS stk = false → Inv g s → s.mSSLConfigured = true →
    s.mClosing = false → s.mEstablished = true →
    (putToSSL b).Sat K (discipline M extra) (.putBytesStart b) stk (fun g' _ s' => Inv g' s') g s
  terminate : ∀ stk g s, inTLS stk = false → extra stk g s (.enter .terminateStart) = true →
    Inv g s → terminateStart.Sat K (discipline M extra) .terminateStart stk
      (fun g' _ s' => Inv g' s') (M.next g (.enter .terminateStart)) s
  begins : ∀ stk g s, extra stk g s (.enter (.connectCompleteCB 0)) = true → Inv g s →
    s.mSSLEnabled = true →
    K.Every (M.next g (.enter (.connectCompleteCB 0))) s (.asked (.handshakeBegins .connect) ())
  upgrades : ∀ g s, Inv g s → K.Every g s (.asked (.handshakeBegins .option) ())
  handshake : ∀ e stk g s, OutsideTLS e stk → Cause M extra Inv Conf stk g s →
    K.Every g s (.calls e .mbedtlsSslHandshake) ∧ Inv (M.next g (.calls e .mbedtlsSslHandshake)) s
  outcome : ∀ e stk g s g' s' r, OutsideTLS e stk → Cause M extra Inv Conf stk g s → Inv g' s' →
    K.Rely (.mbedtlsSslHandshake :: stk) (M.next g (.calls e .mbedtlsSslHandshake)) s g' s' →
    extra (.mbedtlsSslHandshake :: stk) g' s' (.resumes .mbedtlsSslHandshake r) = true →
    K.Every g' s' (.resumes .mbedtlsSslHandshake r) ∧
      Outcome K Inv e (M.next g' (.resumes .mbedtlsSslHandshake r)) s' r

/-- The rules of a contract that does not look at the traffic of the session. -/
structure RequestRules (K : Contract M ConnectionEnd)
    (extra : List Call → M.Obs → ConnectionEnd → Label CESig → Bool)
    (Inv : M.Obs → ConnectionEnd → Prop)
    (Conf : M.Obs → ConnectionEnd → M.Obs → ConnectionEnd → Prop) : Prop where
  basic : BasicRules K extra Inv
  enter : ∀ stk e g s, e.isTraffic = false → extra stk g s (.enter e) = true → Inv g s →
    K.Every g s (.enter e) ∧ Inv (M.next g (.enter e)) s
  leave : ∀ e v g s, e.isTraffic = false → Inv g s →
    K.Every g s (.leave e v) ∧ Inv (M.next g (.leave e v)) s
  opened : ∀ stk g s, extra stk g s (.enter .openStart) = true → Inv g s →
    Inv (M.next g (.enter .openStart)) { s with mSSLEnabled := false, mSSLConfigured := false }
  closed : ∀ stk g s, inTLS stk = false → Inv g s →
    extra (.inner .closeStart :: stk) g s (.resumes (.inner .closeStart) ()) = true →
    K.Every g s (.resumes (.inner .closeStart) ()) ∧
      Inv (M.next g (.resumes (.inner .closeStart) ())) s ∧
      (s.mSSLConfigured = true → Inv (M.next g (.resumes (.inner .closeStart) ())) s.unconfigured)
  deleted : ∀ stk g s, extra stk g s (.enter .delete) = true → Inv g s →
    s.mSSLConfigured = true → Inv (M.next g (.enter .delete)) s.unconfigured
  configure : ∀ e stk fuel g s, OutsideTLS e stk → Inv g s →
    (sslConfigure fuel).Sat K (discipline M extra) e stk (ConfigureEnds Inv Conf g s) g s
  configured : ∀ g s g' s', Conf g s g' s' → Inv g' s'
  setter : ∀ e stk fuel o g s, OutsideTLS e stk → o.isSetter = true →
    extra stk g s (.enter (.processOptionStart o)) = true →
    Inv (M.next g (.enter (.processOptionStart o))) s →
    (processOptionStart fuel o).Sat K (discipline M extra) e stk (fun g' _ s' => Inv g' s')
      (M.next g (.enter (.processOptionStart o))) s
  getSSL : ∀ e stk fuel b threshold g s, OutsideTLS e stk → Inv g s → s.mSSLConfigured = true →
    (getFromSSL fuel b threshold).Sat K (discipline M extra) e stk (fun g' _ s' => Inv g' s') g s
  reread : ∀ e stk fuel g s, OutsideTLS e stk → Inv g s → s.mEstablished = true →
    (retryRead fuel).Sat K (discipline M extra) e stk (fun g' _ s' => Inv g' s') g s
  begins : ∀ g s r, Inv g s → K.Every g s (.asked (.handshakeBegins r) ())
  handshake : ∀ e stk g s, OutsideTLS e stk → Cause M extra Inv Conf stk g s →
    K.Every g s (.calls e .mbedtlsSslHandshake) ∧ Inv (M.next g (.calls e .mbedtlsSslHandshake)) s
  outcome : ∀ e stk g s g' s' r, OutsideTLS e stk → Cause M extra Inv Conf stk g s → Inv g' s' →
    K.Rely (.mbedtlsSslHandshake :: stk) (M.next g (.calls e .mbedtlsSslHandshake)) s g' s' →
    extra (.mbedtlsSslHandshake :: stk) g' s' (.resumes .mbedtlsSslHandshake r) = true →
    K.Every g' s' (.resumes .mbedtlsSslHandshake r) ∧
      Outcome K Inv e (M.next g' (.resumes .mbedtlsSslHandshake r)) s' r

/-- `SSLConfigure` under a contract that looks at its success only. -/
theorem sat_configure_of_quiet (hK : SetupQuiet K)
    (hload : ∀ g s v, Inv g s → Inv g (s.loaded v))
    (hconf : ∀ stk g s v, inTLS stk = false → Inv g s →
      extra stk g (s.configured v) (.asked .sslConfigured ()) = true →
      K.Every g (s.configured v) (.asked .sslConfigured ()) ∧
        Conf g s (M.next g (.asked .sslConfigured ())) (s.configured v))
    (fuel : ℕ) (hout : OutsideTLS e stk) (hinv : Inv g s) :
    (sslConfigure fuel).Sat K (discipline M extra) e stk (ConfigureEnds Inv Conf g s) g s := by
  refine sat_sslConfigure (hK.rules g) fuel rfl (fun r g' v hr hg => ?_) (fun g' v hg => ?_)
    fun g' v hg hperm => ?_
  · subst hg
    exact ⟨fun h => absurd (Option.some.inj h) hr, fun _ => hload _ s v hinv⟩
  · subst hg
    exact ⟨fun h => (by cases h), fun _ => hload _ s v hinv⟩
  · subst hg
    simp only [discipline, Bool.and_eq_true] at hperm
    obtain ⟨hev, hc⟩ := hconf stk _ s v hout.out hinv hperm.2
    exact ⟨hev, fun _ => hc, fun h => absurd rfl h⟩

/-- The options that start nothing, under a contract that does not look at them. -/
theorem sat_setter_of_quiet (hK : SetupQuiet K) (hpeer : Quiet K .mbedtlsSslGetPeerCert)
    (hopt : ∀ g s v, Inv g s → Inv g (s.withOptions v)) (fuel : ℕ) (o : TOption)
    (ho : o.isSetter = true) (hinv : Inv g s) :
    (processOptionStart fuel o).Sat K (discipline M extra) e stk (fun g' _ s' => Inv g' s')
      g s := by
  refine sat_setterOption (hK.rules g) hpeer (fun _ _ _ _ h => h) fuel o ho rfl
    (fun _ _ _ _ _ => trivial) (fun _ g' v hg => ?_) fun g' v hg => ?_
  · subst hg
    exact hopt _ s v hinv
  · subst hg
    exact hopt _ s v hinv

namespace EntryRules

variable (R : EntryRules K extra Inv Conf) {Q : Post M ConnectionEnd Unit}
include R

/-- The handshake, for one of its causes. -/
theorem sat_doSSLHandshake (hout : OutsideTLS e stk) (hcause : Cause M extra Inv Conf stk g s)
    (hQ : ∀ g' s', Inv g' s' → Q g' (some ()) s') :
    doSSLHandshake.Sat K (discipline M extra) e stk Q g s := by
  simp only [doSSLHandshake, Code.sat_bind]
  refine R.basic.sat_tls hout rfl (R.handshake e stk g s hout hcause)
    fun r g' s' h' hrely hcore hok => ?_
  obtain ⟨hev, hend⟩ := R.outcome e stk g s g' s' r hout hcause h' hrely hok
  refine ⟨hev, ?_⟩
  simp only [Post.andThen_some, Code.sat_ite, Code.sat_bind, Code.sat_modify, Code.sat_get]
  refine ⟨fun hr => ?_, fun hr => ⟨fun hfinal => ?_, fun hwant => ?_⟩⟩
  · have htell := hend.success hr
    refine ⟨fun hup => ?_, fun hup => ?_⟩
    · rw [successReport, if_pos hup] at htell
      exact R.basic.sat_tell hout htell hQ
    · rw [successReport, if_neg hup] at htell
      exact R.basic.sat_tell hout htell hQ
  · have hmore : wantsMore r = false := by simpa [wantsMore] using hfinal
    refine sat_mbedtlsSslSessionReset R.basic.clock
      (fun a => (hend.failure hr hmore a 0 0 false).1) fun a i f b => ?_
    exact R.basic.sat_tell hout (hend.failure hr hmore a i f b).2 hQ
  · refine hQ _ _ (hend.again ?_)
    by_contra hmore
    exact hwant (by simpa [wantsMore] using hmore)

theorem sat_openStart (hout : OutsideTLS e stk)
    (hinv : Inv g { s with mSSLEnabled := false, mSSLConfigured := false })
    (hQ : ∀ g' s', Inv g' s' → Q g' (some ()) s') :
    openStart.Sat K (discipline M extra) e stk Q g s := by
  simp only [openStart, Code.sat_bind, Code.sat_modify, Post.andThen_some]
  exact R.basic.sat_inner hout hinv (fun _ h => by cases h) rfl hQ

/-- `CloseStart` unconfigures after the inner end has returned. -/
theorem sat_closeStart (hout : OutsideTLS .closeStart stk) (hinv : Inv g s)
    (hQ : ∀ g' v s', Inv g' s' → Q g' v s') :
    closeStart.Sat K (discipline M extra) .closeStart stk Q g s := by
  simp only [closeStart, inner, Code.sat_bind]
  refine R.basic.sat_call hout rfl
    (R.basic.calls .closeStart stk g s (.inner .closeStart) hout rfl hinv (fun _ h => by cases h))
    fun r g' s' h' _ hok => ?_
  obtain ⟨hev, hinv', hun⟩ := R.closed stk g' s' hout.out h' hok
  refine ⟨hev, ?_⟩
  simp only [Post.andThen_some, Code.sat_bind, Code.sat_pure, Code.sat_get, Code.sat_ite]
  exact ⟨fun hconf => (hun hconf).mono fun g'' v s'' h'' => hQ _ _ _ h'', fun _ => hQ _ _ _ hinv'⟩

/-- `ConnectStart` configures, or passes the request on. -/
theorem sat_connectStart (hout : OutsideTLS .connectStart stk) (fuel : ℕ) (hinv : Inv g s)
    (hok : extra stk g s (.enter .connectStart) = true) (hQ : ∀ g' v s', Inv g' s' → Q g' v s') :
    (connectStart fuel).Sat K (discipline M extra) .connectStart stk Q
      (M.next g (.enter .connectStart)) s := by
  have hgo : ∀ g' s', Inv g' s' →
      (inner .connectStart).Sat K (discipline M extra) .connectStart stk Q g' s' := fun g' s' h' =>
    R.basic.sat_inner hout h' (fun _ h => by cases h) rfl fun g' s' => hQ g' _ s'
  simp only [connectStart, Code.sat_bind, Code.sat_get, Post.andThen_some, Code.sat_ite]
  refine ⟨fun henabled => ?_,
    fun hplain => hgo _ _ (R.connects stk g s hok hinv (by simpa using hplain))⟩
  refine (R.configure _ stk fuel _ s hout (.connect hok hinv henabled)).mono fun g' r s' hend => ?_
  cases r with
  | none => exact hQ _ _ _ (hend.2 (by simp))
  | some r =>
    simp only [Post.andThen_some, Code.sat_ite]
    refine ⟨fun hr => ?_, fun hr => hgo _ _ ?_⟩
    · refine R.basic.sat_client hout (hend.2 (by simpa using hr)) ?_ fun g' s' => hQ g' _ s'
      exact .inl ⟨r, rfl, rfl, hr⟩
    · exact R.configured _ s g' s' (hend.1 (by simpa using hr))

/-- `PutBytesStart` keeps the invariant. -/
theorem sat_putBytesStart {clientBuffer : ℕ} (hout : OutsideTLS (.putBytesStart clientBuffer) stk)
    (hinv : Inv g s) (hQ : ∀ g' v s', Inv g' s' → Q g' v s') :
    (putBytesStart clientBuffer).Sat K (discipline M extra) (.putBytesStart clientBuffer) stk
      Q g s := by
  have htell : ∀ r n g' s', Inv g' s' → (client (.putComplete r n)).Sat K (discipline M extra)
      (.putBytesStart clientBuffer) stk Q g' s' := fun r n g' s' h' =>
    R.basic.sat_client hout h' (by trivial) fun g'' s'' => hQ g'' _ s''
  simp only [putBytesStart, Code.sat_bind, Code.sat_get, Post.andThen_some, Code.sat_ite]
  refine ⟨fun hconf => ⟨fun _ => htell _ _ _ _ hinv, fun hclosing => ⟨fun hest => ?_,
    fun _ => htell _ _ _ _ hinv⟩⟩, fun hconf => ?_⟩
  · exact (R.put stk clientBuffer g s hout.out hinv hconf (by simpa using hclosing) hest).mono hQ
  · refine R.basic.sat_inner hout hinv ?_ rfl fun g' s' => hQ g' _ s'
    rintro l ⟨⟩
    exact ⟨⟨clientBuffer, rfl⟩, by simpa using hconf⟩

/-- A request that SSL refuses. -/
theorem sat_unlessConfigured (hout : OutsideTLS e stk) {refuse : ClientCall}
    {request : InnerCall} (hrefuse : (Call.client refuse).fits e s)
    (hlist : ∀ l, request.list? = some l → ∃ b, l = .client b)
    (hrequest : (Call.inner request).returnsPlainly = true) (hinv : Inv g s)
    (hQ : ∀ g' s', Inv g' s' → Q g' (some ()) s') :
    (unlessConfigured refuse request).Sat K (discipline M extra) e stk Q g s := by
  simp only [unlessConfigured, Code.sat_bind, Code.sat_get, Post.andThen_some, Code.sat_ite]
  refine ⟨fun _ => R.basic.sat_client hout hinv hrefuse hQ, fun hconf => ?_⟩
  exact R.basic.sat_inner hout hinv (fun l hl => ⟨hlist l hl, by simpa using hconf⟩) hrequest hQ

/-- A get that goes to SSL or to the inner end. -/
theorem sat_getBytes (hout : OutsideTLS e stk) (fuel : ℕ) {b : ℕ} (hb : e.gets? = some b)
    (threshold : Int) {request : InnerCall}
    (hlist : ∀ l, request.list? = some l → ∃ b, l = .client b)
    (hrequest : (Call.inner request).returnsPlainly = true) (hinv : Inv g s)
    (hok : extra stk g s (.enter e) = true) (hQ : ∀ g' v s', Inv g' s' → Q g' v s') :
    Code.Sat K (discipline M extra) e stk Q (do
      if (← get).mSSLConfigured then
        getFromSSL fuel b threshold
      else
        inner request) (M.next g (.enter e)) s := by
  simp only [Code.sat_bind, Code.sat_get, Post.andThen_some, Code.sat_ite]
  refine ⟨fun hconf => ?_, fun hconf => ?_⟩
  · exact (R.getSSL _ stk fuel b threshold g s hout hb hok hinv hconf).mono hQ
  · have hentered := (R.enter stk e g s hout.notTraffic hok hinv).2 (Entry.sets_of_gets hb)
    exact R.basic.sat_inner hout hentered (fun l hl => ⟨hlist l hl, by simpa using hconf⟩) hrequest
      fun g' s' h' => hQ g' _ s' h'

/-- A tick is a cause of the handshake when it is due. -/
theorem sat_handleTimerTick (hout : OutsideTLS e stk) (nowms : UInt32) (hinv : Inv g s)
    (hok : extra stk g s (.enter (.handleTimerTick nowms)) = true)
    (hQ : ∀ g' s', Inv g' s' → Q g' (some ()) s') :
    (handleTimerTick nowms).Sat K (discipline M extra) e stk Q
      (M.next g (.enter (.handleTimerTick nowms))) s := by
  have htick : ∀ g' s', Inv g' s' →
      (inner .handleTimerTick).Sat K (discipline M extra) e stk Q g' s' := fun g' s' h' =>
    R.basic.sat_inner hout h' (fun _ h => by cases h) rfl hQ
  have hentered := (R.enter stk _ g s rfl hok hinv).2 rfl
  simp only [handleTimerTick, Code.sat_bind, Code.sat_get, Post.andThen_some, Code.sat_ite]
  refine ⟨fun hdue => ⟨fun hnow => ?_, fun _ => htick _ _ hentered⟩, fun _ => htick _ _ hentered⟩
  refine R.sat_doSSLHandshake hout (.tick nowms hok hinv ?_) htick
  simpa [hnow] using hdue

/-- A wake-up retries the handshake or the read, or does nothing. -/
theorem sat_retry (hout : OutsideTLS (.handleRequest .kAsyncReadMessageType) stk) (fuel : ℕ)
    (hinv : Inv g s) (hok : extra stk g s (.enter (.handleRequest .kAsyncReadMessageType)) = true)
    (hQ : ∀ g' v s', Inv g' s' → Q g' v s') :
    (retry fuel).Sat K (discipline M extra) (.handleRequest .kAsyncReadMessageType) stk Q
      (M.next g (.enter (.handleRequest .kAsyncReadMessageType))) s := by
  have hentered := (R.enter stk _ g s rfl hok hinv).2 rfl
  simp only [retry, Code.sat_bind, Code.sat_get, Post.andThen_some, Code.sat_ite]
  refine ⟨fun hclosing => ⟨fun hest => ?_,
      fun hest => ⟨fun hread => ?_, fun _ => hQ _ _ _ hentered⟩⟩,
    fun _ => hQ _ _ _ hentered⟩
  · exact R.sat_doSSLHandshake hout
      (.wakeUp hok hinv (by simpa using hclosing) (by simpa using hest))
      fun g' s' h' => hQ _ _ _ h'
  · exact (R.reread stk fuel _ s hout.out hentered (by simpa using hclosing) (by simpa using hest)
      hread).mono hQ

/-- A wake-up is a cause of the handshake while there is no session. -/
theorem sat_handleRequest (fuel : ℕ) {msgType : MsgType}
    (hout : OutsideTLS (.handleRequest msgType) stk) (hinv : Inv g s)
    (hok : extra stk g s (.enter (.handleRequest msgType)) = true)
    (hQ : ∀ g' v s', Inv g' s' → Q g' v s') :
    (handleRequest fuel msgType).Sat K (discipline M extra) (.handleRequest msgType) stk Q
      (M.next g (.enter (.handleRequest msgType))) s := by
  simp only [handleRequest]
  cases msgType with
  | kAsyncReadMessageType =>
    simp only [Code.sat_bind]
    refine R.sat_retry hout fuel hinv hok fun g' v s' h' => ?_
    cases v with
    | none => exact hQ _ _ _ h'
    | some _ => exact R.basic.sat_client hout h' (by trivial) fun g' s' => hQ g' _ s'
  | other t =>
    exact R.basic.sat_inner hout ((R.enter stk _ g s rfl hok hinv).2 rfl) (fun _ h => by cases h)
      rfl fun g' s' => hQ g' _ s'

/-- A connect that has completed is a cause when SSL is enabled. -/
theorem sat_connectCompleteCB {result : Int} (hout : OutsideTLS (.connectCompleteCB result) stk)
    (hinv : Inv g s) (hok : extra stk g s (.enter (.connectCompleteCB result)) = true)
    (hQ : ∀ g' s', Inv g' s' → Q g' (some ()) s') :
    (connectCompleteCB result).Sat K (discipline M extra) (.connectCompleteCB result) stk Q
      (M.next g (.enter (.connectCompleteCB result))) s := by
  simp only [connectCompleteCB, Code.sat_bind, Code.sat_get, Post.andThen_some, Code.sat_ite,
    Code.sat_modify]
  refine ⟨fun hSSL => ?_, fun hplain => ?_⟩
  · obtain ⟨henabled, rfl⟩ := hSSL
    refine sat_ask fun _ _ => ⟨R.begins stk g s hok hinv henabled, ?_⟩
    exact R.sat_doSSLHandshake hout (.connected hok hinv henabled) hQ
  · have hconnected := R.connected stk result g s hok hinv hplain
    refine ⟨fun hzero => ?_, fun hfailed => ?_⟩
    · subst hzero
      have hdisabled : s.mSSLEnabled = false := by simpa using hplain
      rw [ConnectionEnd.connected, if_pos ⟨hdisabled, rfl⟩] at hconnected
      refine R.basic.sat_client hout hconnected ?_ hQ
      exact .inr ⟨0, rfl, rfl, fun _ => hdisabled⟩
    · rw [ConnectionEnd.connected, if_neg (fun h => hfailed h.2)] at hconnected
      refine R.basic.sat_client hout hconnected ?_ hQ
      exact .inr ⟨result, rfl, rfl, fun hzero => absurd hzero hfailed⟩

/-- Enabling SSL on a connected end configures and begins a handshake. -/
theorem sat_sslEnableOption {enabled : Bool}
    (hout : OutsideTLS (.processOptionStart (.sslEnable enabled)) stk) (fuel : ℕ) (hinv : Inv g s)
    (hok : extra stk g s (.enter (.processOptionStart (.sslEnable enabled))) = true)
    {P : Post M ConnectionEnd OptionResult} (hP : ∀ g' v s', Inv g' s' → P g' v s') :
    (sslEnableOption fuel enabled).Sat K (discipline M extra)
      (.processOptionStart (.sslEnable enabled)) stk P
      (M.next g (.enter (.processOptionStart (.sslEnable enabled)))) s := by
  have hentered := R.enabled stk enabled g s hok hinv
  simp only [sslEnableOption, Code.sat_bind, Code.sat_get, Code.sat_modify, Post.andThen_some,
    Code.sat_ite]
  refine ⟨fun hup => ?_, fun _ => hP _ _ _ hentered⟩
  obtain ⟨hup, rfl⟩ := hup
  refine (R.configure _ stk fuel _ _ hout (.option hok hinv hup)).mono fun g' r s' hend => ?_
  cases r with
  | none => exact hP _ _ _ (hend.2 (by simp))
  | some r =>
    simp only [Post.andThen_some, Code.sat_ite, Code.sat_bind]
    refine ⟨fun hr => ?_, fun hr => hP _ _ _ (hend.2 (by simpa using hr))⟩
    have hconf := hend.1 (by simpa using hr)
    have hnew := R.configured _ _ _ _ hconf
    refine sat_ask fun _ _ => ⟨R.upgrades _ _ hnew, ?_⟩
    simp only [Post.andThen_some, Code.sat_bind]
    exact R.sat_doSSLHandshake hout (.upgrade hok hinv hup hconf) fun g' s' h' => hP _ _ _ h'

/-- The options, of which one may configure. -/
theorem sat_processOptionStart {theOption : TOption}
    (hout : OutsideTLS (.processOptionStart theOption) stk) (fuel : ℕ) (hinv : Inv g s)
    (hok : extra stk g s (.enter (.processOptionStart theOption)) = true)
    {P : Post M ConnectionEnd (OptionResult × TOption)} (hP : ∀ g' v s', Inv g' s' → P g' v s') :
    (processOptionStart fuel theOption).Sat K (discipline M extra) (.processOptionStart theOption)
      stk P (M.next g (.enter (.processOptionStart theOption))) s := by
  by_cases ho : theOption.isSetter = true
  · exact (R.setter _ stk fuel theOption g s hout ho hok hinv).mono fun g' v s' h' => hP g' v s' h'
  · cases theOption with
    | sslEnable enabled =>
      simp only [processOptionStart, Code.sat_bind]
      refine R.sat_sslEnableOption hout fuel hinv hok fun g' v s' h' => ?_
      cases v with
      | none => exact hP _ _ _ h'
      | some r => exact hP _ _ _ h'
    | other label =>
      have hentered := (R.enter stk _ g s rfl hok hinv).2 rfl
      simp only [processOptionStart, Code.sat_bind]
      refine R.basic.sat_call hout rfl
        (R.basic.calls _ stk _ s _ hout rfl hentered (by intro _ h; cases h))
        fun r g' s' h' _ hret => ?_
      obtain ⟨hev, hnext⟩ := R.basic.resumes stk g' s' _ r hout.out rfl h' rfl hret
      exact ⟨hev, hP _ _ _ hnext⟩
    | _ => exact absurd rfl ho

/-- **The rule of requests.**  A contract whose invariant obeys the rules is met by
every entry point that is not traffic. -/
theorem meets (fuel : ℕ) {e : Entry} (he : e.isTraffic = false)
    (hperm : (discipline M extra).permits stk g s (.enter e) = true) (hat : K.At stk g s) :
    K.Every g s (.enter e) ∧
      (code fuel e).Sat K (discipline M extra) e stk (K.post stk e g s)
        (M.next g (.enter e)) s := by
  simp only [discipline, permitsBase, Bool.and_eq_true] at hperm
  obtain ⟨hmay, hok⟩ := hperm
  have hout : OutsideTLS e stk := ⟨he, inTLS_of_mayEnter he hmay⟩
  have hinv : Inv g s := (R.basic.at_iff stk g s (.inl hout.out)).mp hat
  obtain ⟨hev, hkept⟩ := R.enter stk e g s he hok hinv
  have hend : ∀ g' v s', Inv g' s' → K.post stk e g s g' v s' := by
    intro g' v s' h'
    -- the invariant is all that is needed at the end of an entry point
    obtain ⟨hleave, hleft⟩ := R.leave e v g' s' he h'
    exact ⟨hleave, (R.basic.at_iff stk _ _ (.inl hout.out)).mpr hleft,
      R.basic.rely_out _ _ _ _ _ _ hout.out hok⟩
  have hany : ∀ g' v s', Inv g' s' → Post.andThen K (discipline M extra) e stk (K.post stk e g s)
      (fun _ : Unit => pure Value.unit) g' v s' := by
    intro g' v s' h'
    cases v <;> exact hend _ _ _ h'
  have hunit : ∀ g' s', Inv g' s' → Post.andThen K (discipline M extra) e stk (K.post stk e g s)
      (fun _ : Unit => pure Value.unit) g' (some ()) s' :=
    fun g' s' h' => hany g' _ s' h'
  refine ⟨hev, ?_⟩
  cases e with
  | openStart =>
    simp only [code, unit, Code.sat_bind]
    -- one case for each entry point, each with the rule for its function
    exact R.sat_openStart hout (R.opened stk g s hok hinv) hunit
  | closeStart =>
    simp only [code, unit, Code.sat_bind]
    exact R.sat_closeStart hout (hkept rfl) hany
  | connectStart =>
    simp only [code, unit, Code.sat_bind]
    exact R.sat_connectStart hout fuel hinv hok hany
  | terminateStart =>
    simp only [code, unit, Code.sat_bind]
    exact (R.terminate stk g s hout.out hok hinv).mono hany
  | putBytesStart b =>
    simp only [code, unit, Code.sat_bind]
    exact R.sat_putBytesStart hout (hkept rfl) hany
  | putFramedBytesStart b eof =>
    simp only [code, unit, putFramedBytesStart, Code.sat_bind]
    exact R.sat_unlessConfigured hout trivial (by simp [InnerCall.list?]) rfl (hkept rfl) hunit
  | killPutStart =>
    simp only [code, unit, killPutStart, Code.sat_bind]
    exact R.sat_unlessConfigured hout trivial (by simp [InnerCall.list?]) rfl (hkept rfl) hunit
  | getBytesStart b =>
    simp only [code, unit, getBytesStart, Code.sat_bind]
    exact R.sat_getBytes hout fuel rfl 0 (by simp [InnerCall.list?]) rfl hinv hok hany
  | getFramedBytesStart b =>
    simp only [code, unit, getFramedBytesStart, Code.sat_bind]
    exact R.sat_unlessConfigured hout ⟨rfl, rfl⟩ (by simp [InnerCall.list?]) rfl (hkept rfl) hunit
  | getBytesImmediateStart b threshold =>
    simp only [code, unit, getBytesImmediateStart, Code.sat_bind]
    exact R.sat_getBytes hout fuel rfl threshold (by simp [InnerCall.list?]) rfl hinv hok hany
  | killGetStart =>
    simp only [code, unit, killGetStart, Code.sat_bind]
    exact R.sat_unlessConfigured hout trivial (by simp [InnerCall.list?]) rfl (hkept rfl) hunit
  | handleTimerTick nowms =>
    simp only [code, unit, Code.sat_bind]
    exact R.sat_handleTimerTick hout nowms hinv hok hunit
  | handleRequest msgType =>
    simp only [code, unit, Code.sat_bind]
    exact R.sat_handleRequest fuel hout hinv hok hany
  | processOptionStart o =>
    simp only [code, Code.sat_bind]
    refine R.sat_processOptionStart hout fuel hinv hok fun g' v s' h' => ?_
    cases v <;> exact hend _ _ _ h'
  | plainRequest r =>
    simp only [code, unit, Code.sat_bind]
    exact R.basic.sat_inner hout (hkept rfl) (fun _ h => by cases h) rfl hunit
  | delete =>
    exact (R.delete stk g s hout.out hok hinv).mono hend
  | connectCompleteCB result =>
    simp only [code, unit, Code.sat_bind]
    exact R.sat_connectCompleteCB hout hinv hok hunit
  | _ => cases he

end EntryRules

namespace RequestRules

variable (R : RequestRules K extra Inv Conf)
include R

theorem entryRules : EntryRules K extra Inv Conf where
  basic := R.basic.callRules
  enter := by
    intro stk e g s he hok hinv
    obtain ⟨hev, hentered⟩ := R.enter stk e g s he hok hinv
    exact ⟨hev, fun _ => hentered⟩
  leave := R.leave
  opened := R.opened
  connects := fun stk g s hok hinv _ => (R.enter stk _ g s rfl hok hinv).2
  connected := by
    intro stk r g s hok hinv _
    have hentered := (R.enter stk _ g s rfl hok hinv).2
    exact ConnectionEnd.of_connected r hentered
      (R.basic.frame _ s { s.flagValues with upgradable := true } hentered (.inl rfl) (.inr rfl))
  enabled := fun stk b g s hok hinv =>
    R.basic.frame _ s { s.flagValues with enabled := b } (R.enter stk _ g s rfl hok hinv).2
      (.inl rfl) (.inl rfl)
  closed := by
    intro stk g s hout hinv hok
    obtain ⟨hev, hinv', hun⟩ := R.closed stk g s hout hinv hok
    exact ⟨hev, hinv', fun hconf => sat_sslUnconfigure R.basic.memory (hun hconf)⟩
  delete := by
    intro stk g s hout hok hinv
    refine R.basic.callRules.sat_delete ⟨rfl, hout⟩ (R.basic.memory _ rfl)
      (fun _ => R.basic.memory _ rfl) ?_ (R.enter stk _ g s rfl hok hinv).2
      fun hconf => sat_sslUnconfigure R.basic.memory ⟨rfl, R.deleted stk g s hok hinv hconf⟩
    exact fun g s heap h =>
      R.basic.frame g s { s.flagValues with rootHeap := heap } h (.inl rfl) (.inl rfl)
  configure := by
    intro e stk fuel g s hout hbegins
    refine R.configure e stk fuel g s hout (hbegins.elim ?_ ?_)
    · exact fun g s hok hinv _ => (R.enter stk _ g s rfl hok hinv).2
    · exact fun g s hok hinv _ => R.basic.frame _ s { s.flagValues with enabled := true }
        (R.enter stk _ g s rfl hok hinv).2 (.inl rfl) (.inl rfl)
  configured := R.configured
  setter := fun e stk fuel o g s hout ho hok hinv =>
    R.setter e stk fuel o g s hout ho hok (R.enter stk _ g s rfl hok hinv).2
  getSSL := fun e stk fuel b threshold g s hout _ hok hinv hconf =>
    R.getSSL e stk fuel b threshold _ s hout (R.enter stk e g s hout.notTraffic hok hinv).2 hconf
  reread := fun stk fuel g s hout hinv _ hest _ =>
    R.reread _ stk fuel g s ⟨rfl, hout⟩ hinv hest
  put := fun _ b _ _ hout hinv hconf _ hest =>
    R.basic.sendRules.sat_putToSSL trivial ⟨rfl, hout⟩ b hinv hconf hest fun _ _ h' => h'
  terminate := fun stk g s hout hok hinv =>
    R.basic.sendRules.sat_terminateStart trivial ⟨rfl, hout⟩ (R.enter stk _ g s rfl hok hinv).2
      fun _ _ h' => h'
  begins := fun stk g s hok hinv _ => R.begins _ s _ (R.enter stk _ g s rfl hok hinv).2
  upgrades := fun g s hinv => R.begins g s _ hinv
  handshake := R.handshake
  outcome := R.outcome

/-- **The rule of requests** for a contract that does not look at the traffic of the session. -/
theorem meets (fuel : ℕ) {e : Entry} (he : e.isTraffic = false)
    (hperm : (discipline M extra).permits stk g s (.enter e) = true) (hat : K.At stk g s) :
    K.Every g s (.enter e) ∧
      (code fuel e).Sat K (discipline M extra) e stk (K.post stk e g s) (M.next g (.enter e)) s :=
  R.entryRules.meets fuel he hperm hat

end RequestRules

/-! ## Contracts about the core -/

namespace CoreContract

variable {C : CoreContract M}

/-- Nothing is relied on outside of mbedTLS. -/
theorem rely_out (hout : inTLS stk = false) {g' : M.Obs} {s' : ConnectionEnd} :
    C.toContract.Rely stk g s g' s' := by
  intro ht
  rw [hout] at ht
  cases ht

/-- Inside of mbedTLS the core and the observations stay. -/
theorem rely_tls {c : Call} (hc : c.isTLS = true) {g' : M.Obs} {s' : ConnectionEnd}
    (h : C.toContract.Rely (c :: stk) g s g' s') : g' = g ∧ SameCore s s' :=
  h (by rw [inTLS_cons, hc, Bool.true_or])

/-- A contract about the core is met when its invariant obeys the rules. -/
theorem meets_entries (R : EntryRules C.toContract extra C.Inv Conf) (fuel : ℕ) :
    C.toContract.Meets (discipline M extra) (code fuel) := by
  intro stk e g s hperm hat
  by_cases he : e.isTraffic = true
  · exact C.traffic he hat
  · exact R.meets fuel (by simpa using he) hperm hat

/-- Every function meets the contract. -/
theorem meets (R : RequestRules C.toContract extra C.Inv Conf) (fuel : ℕ) :
    C.toContract.Meets (discipline M extra) (code fuel) :=
  meets_entries R.entryRules fuel

/-- The same for runs in which nothing is entered while the calls of `st` are pending. -/
theorem meets_still {st : List Call → Bool}
    (R : EntryRules (C.toContract.still st) extra C.Inv Conf)
    (hstill : ∀ stk e g s, extra stk g s (.enter e) = true → st stk = false) (fuel : ℕ) :
    (C.toContract.still st).Meets (discipline M extra) (code fuel) := by
  intro stk e g s hperm hat
  by_cases he : e.isTraffic = true
  · obtain ⟨hev, hsat⟩ := C.traffic he hat
    refine ⟨hev, Act.Sat.mono (fun g' v s' hpost => ?_) (Act.Sat.still st hsat)⟩
    simp only [discipline, Bool.and_eq_true] at hperm
    exact Contract.post_still (hstill _ _ _ _ hperm.2) hpost
  · exact R.meets fuel (by simpa using he) hperm hat

end CoreContract

end NewtonTLS
