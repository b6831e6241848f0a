/-
# Runs of the connection end

Which moves the environment of a connection end may make, and what the
functions that several proofs meet do to the object, stated once for all
contracts:

* mbedTLS calls its callbacks back only from inside its own functions;
* the inner end calls back from inside a request or between two events;
* the client makes requests between two events or from inside one of its
  completions, and none while an mbedTLS function is running.
-/
import NewtonTLS.ReentrantLogic
import NewtonTLS.ConnectionEnd

open Reentrant

namespace NewtonTLS

/-! ## The discipline -/

/-- Calls of mbedTLS functions. -/
def Call.isTLS : Call → Bool
  | .mbedtlsSslHandshake => true
  | .mbedtlsSslRead _ => true
  | .mbedtlsSslWrite _ => true
  | .mbedtlsSslCloseNotify => true
  | _ => false

/-- An mbedTLS function is running. -/
def inTLS (stk : List Call) : Bool := stk.any Call.isTLS

/-- The innermost pending call goes to the inner end, or nothing is pending. -/
def atInner : List Call → Bool
  | [] => true
  | .inner _ :: _ => true
  | _ => false

/-- The innermost pending call goes to the client, or nothing is pending. -/
def atClient : List Call → Bool
  | [] => true
  | .client _ :: _ => true
  | _ => false

/-- The innermost pending call is a function of mbedTLS. -/
def atTLS : List Call → Bool
  | c :: _ => c.isTLS
  | [] => false

/-- Which entry points can be entered while `stk` is pending. -/
def mayEnter (stk : List Call) : Entry → Bool
  | .sslSendCallback _ => atTLS stk
  | .sslRecvCallback _ => atTLS stk
  | .sslSetTimerCallback _ _ => atTLS stk
  | .sslGetTimerCallback => atTLS stk
  | .connectCompleteCB _ => atInner stk && !inTLS stk
  | .putCompleteCB _ _ _ _ => atInner stk
  | .getCompleteCB _ _ _ _ _ => atInner stk
  | .getCurPutDataCB => atInner stk
  | .getCurPutFrameDataCB => atInner stk
  | .getCurPutEndOfFrameCB => atInner stk
  | .getCurGetDataCB => atInner stk
  | .getCurGetFrameDataCB => atInner stk
  | .getCurGetNonBlockingCB => atInner stk
  | .getCurGetThresholdCB => atInner stk
  | .plainCallback _ => atInner stk
  | _ => atClient stk && !inTLS stk

/-- What every environment respects: who may enter when, and a failure of
`mbedtls_ssl_read` is a negative code. -/
def permitsBase (stk : List Call) : Label CESig → Bool
  | .enter e => mayEnter stk e
  | .resumes (.mbedtlsSslRead _) (.error e) => e < 0
  | _ => true

/-- The discipline of all runs, with what a claim adds to it. -/
def discipline (M : Monitor CESig)
    (extra : List Call → M.Obs → ConnectionEnd → Label CESig → Bool) :
    Discipline M ConnectionEnd where
  permits := fun stk g s x => permitsBase stk x && extra stk g s x

/-- An environment in which nothing fails, nothing is stored and the clock stands
still: its answers. -/
def plainAnswer : (q : Query) → q.Answer
  | .getConnectionEndPort => ()
  | .mbedtlsEntropyAddSource => ()
  | .getSerialNumber => []
  | .mbedtlsCtrDrbgSeed _ => (0 : Int)
  | .newVMHeap => ((0, 0) : Int × ℕ)
  | .listRootCertificates _ => ListAnswer.mk 0 []
  | .getRootCertificate _ _ => CertAnswer.mk (-1) none
  | .mbedtlsX509CrtParse _ => ParseAnswer.parsed 0 []
  | .mbedtlsSslConfigDefaults => ()
  | .mbedtlsSslConfRng => ()
  | .mbedtlsSslConfCaChain _ => ()
  | .mbedtlsSslConfAuthmode _ => ()
  | .mbedtlsSslSetup => ()
  | .mbedtlsSslSetBio => ()
  | .mbedtlsSslSetTimerCb => ([] : TimerCalls)
  | .mbedtlsSslSetHostname _ => ()
  | .mbedtlsSslSessionReset => ([] : TimerCalls)
  | .mbedtlsSslGetPeerCert => ([] : List Certificate)
  | .freeContexts => ()
  | .destroyVMHeap _ => ()
  | .newPtr _ _ => ()
  | .reallocPtr _ _ => ()
  | .disposPtr _ => ()
  | .newBufferList _ => ()
  | .deleteBufferList _ => ()
  | .newAsyncMessage _ => ()
  | .deleteAsyncMessage _ => ()
  | .bytesBehindBlock _ _ => fun _ => (0 : Byte)
  | .sendAsyncReadMessage => (0 : Int)
  | .getGlobalTime => (0 : UInt32)
  | .getCurPutData => ListRef.client 0
  | .getCurPutFrameData => false
  | .getCurPutEndOfFrame => false
  | .getCurGetData => ListRef.client 0
  | .getCurGetFrameData => false
  | .getCurGetNonBlocking => false
  | .getCurGetThreshold => (0 : Int)
  | .listGetSize _ => (0 : ℕ)
  | .listPosition _ => (0 : ℕ)
  | .listGetn _ _ => ([] : List Byte)
  | .listSeek _ _ _ => ()
  | .listPutn _ bytes => bytes.length
  | .handshakeBegins _ => ()
  | .sslConfigured => ()
  | .sslAccepts _ => ()

/-- Entering with the plain answers. -/
def enter (e : Entry) : Move CESig := .enter e fun _ => plainAnswer

/-- The results of an environment in which the functions of mbedTLS return `tls`,
reading gives `read`, and everything else succeeds. -/
def results (tls : Int) (read : Except Int (List Byte)) : (c : Call) → c.Result
  | .inner (.processOptionStart _) => OptionResult.opSuccess
  | .inner .openStart => ()
  | .inner .closeStart => ()
  | .inner .connectStart => ()
  | .inner .terminateStart => ()
  | .inner (.putBytesStart _) => ()
  | .inner (.putFramedBytesStart _ _) => ()
  | .inner .killPutStart => ()
  | .inner (.getBytesStart _) => ()
  | .inner (.getFramedBytesStart _) => ()
  | .inner (.getBytesImmediateStart _ _) => ()
  | .inner .killGetStart => ()
  | .inner .handleTimerTick => ()
  | .inner (.handleRequest _) => ()
  | .inner (.plain _) => ()
  | .inner .delete => ()
  | .client _ => ()
  | .mbedtlsSslHandshake => tls
  | .mbedtlsSslRead _ => read
  | .mbedtlsSslWrite _ => tls
  | .mbedtlsSslCloseNotify => tls

/-- The pending call returns: a function of mbedTLS with `tls`. -/
def backWith (tls : Int) : Move CESig :=
  .resume (results tls (.error MBEDTLS_ERR_SSL_WANT_READ)) fun _ => plainAnswer

/-- The pending call returns, reading gives `bs`. -/
def backRead (bs : List Byte) : Move CESig :=
  .resume (results 0 (.ok bs)) fun _ => plainAnswer

/-- The pending call returns without an error. -/
def back : Move CESig := backWith 0

/-- Memory full of zeros. -/
def zeroMemory : ConnectionEnd where
  mAsyncReadMessage := none
  mRootCertificatesHeap := none
  mSSLEnabled := false
  mSSLConfigured := false
  mSendPending := false
  mRecvPending := false
  mSSLReceiveInProgress := false
  mEstablished := false
  mUpgradable := false
  mClosing := false
  mPeerClosed := false
  mSSLLoadRootCertificates := false
  mSSLTimerFired := false
  mSSLHostname := none
  mSSLAuthMode := 0
  mSSLCAChain := []
  mPutDataBuffer := none
  mGetDataBuffer := none
  mSendBuffer := none
  mSSLRecvBuffer := none
  mSSLRecvBufferSize := 0
  mSSLReadBuffer := none
  mSSLReadBufferSize := 0
  mSSLReadCount := 0
  mSendError := 0
  mRecvError := 0
  mSSLTimerInt := 0
  mSSLTimerFin := 0
  currentHeap := none
  nextPtr := 0

/-- Enable SSL, connect and shake hands. -/
def connectRun : List (Move CESig) :=
  [enter .openStart, back, enter (.processOptionStart (.sslEnable true)), enter .connectStart,
    back, enter (.connectCompleteCB 0), back, back]

/-- A call into mbedTLS is pending: the last one, or one before. -/
@[simp] theorem inTLS_cons (c : Call) (stk : List Call) :
    inTLS (c :: stk) = (c.isTLS || inTLS stk) := by
  simp [inTLS]

/-- What mbedTLS calls back runs inside of mbedTLS. -/
theorem inTLS_of_atTLS {stk : List Call} (h : atTLS stk = true) : inTLS stk = true := by
  cases stk with
  | nil => cases h
  | cons c stk => rw [inTLS_cons, show c.isTLS = true from h, Bool.true_or]

/-! ## Quiet questions -/

variable {M : Monitor CESig} {K : Contract M ConnectionEnd} {D : Discipline M ConnectionEnd}
  {e : Entry} {stk : List Call} {g : M.Obs} {s : ConnectionEnd}

/-- A question, answer by answer. -/
theorem sat_ask {q : Query} {Q : Post M ConnectionEnd q.Answer}
    (h : ∀ a, D.permits stk g s (.asked q a) = true →
      K.Every g s (.asked q a) ∧ Q (M.next g (.asked q a)) (some a) s) :
    (ask q).Sat K D e stk Q g s := h

/-- Neither the contract nor its monitor looks at the question. -/
def Quiet (K : Contract M ConnectionEnd) (q : Query) : Prop :=
  ∀ g s a, K.Every g s (.asked q a) ∧ M.next g (.asked q a) = g

/-- A question that is not observed. -/
theorem Quiet.sat_ask {q : Query} (hq : Quiet K q) {Q : Post M ConnectionEnd q.Answer}
    (h : ∀ a, Q g (some a) s) : (ask q).Sat K D e stk Q g s := by
  refine NewtonTLS.sat_ask fun a _ => ?_
  obtain ⟨hev, hnext⟩ := hq g s a
  refine ⟨hev, ?_⟩
  rw [hnext]
  exact h a

/-- The questions of memory and clock. -/
def Query.isMemory : Query → Bool
  | .freeContexts => true
  | .destroyVMHeap _ => true
  | .newPtr _ _ => true
  | .reallocPtr _ _ => true
  | .disposPtr _ => true
  | .newBufferList _ => true
  | .deleteBufferList _ => true
  | .newAsyncMessage _ => true
  | .deleteAsyncMessage _ => true
  | .getGlobalTime => true
  | _ => false

/-- The contract does not look at the questions of memory and clock. -/
def MemoryQuiet (K : Contract M ConnectionEnd) : Prop := ∀ q, q.isMemory = true → Quiet K q

/-! ## Memory and timers -/

/-- A NULL pointer ends the run, which meets every contract. -/
theorem sat_deref {α : Type} (x : Option α) {Q : Post M ConnectionEnd α}
    (hQ : ∀ a, x = some a → Q g (some a) s) : (deref x).Sat K D e stk Q g s := by
  cases x with
  | none => exact trivial
  | some a => exact hQ a rfl

theorem sat_freshPtr {Q : Post M ConnectionEnd ℕ}
    (h : Q g (some s.nextPtr) { s with nextPtr := s.nextPtr + 1 }) :
    freshPtr.Sat K D e stk Q g s := by
  simpa [freshPtr] using h

theorem sat_newPtr (hK : MemoryQuiet K) (size : ℕ) {Q : Post M ConnectionEnd Block}
    (h : Q g (some ⟨s.nextPtr, List.replicate size 0⟩) { s with nextPtr := s.nextPtr + 1 }) :
    (newPtr size).Sat K D e stk Q g s := by
  simp only [newPtr, Code.sat_bind]
  refine sat_freshPtr ?_
  simp only [Post.andThen_some, Code.sat_bind]
  exact (hK _ rfl).sat_ask fun _ => h

theorem sat_disposPtr (hK : MemoryQuiet K) (b : Block) {Q : Post M ConnectionEnd Unit}
    (h : Q g (some ()) s) : (disposPtr b).Sat K D e stk Q g s :=
  (hK _ rfl).sat_ask fun _ => h

theorem sat_newBufferList (hK : MemoryQuiet K) {Q : Post M ConnectionEnd OwnList}
    (h : Q g (some ⟨s.nextPtr, BufferList.empty⟩) { s with nextPtr := s.nextPtr + 1 }) :
    newBufferList.Sat K D e stk Q g s := by
  simp only [newBufferList, Code.sat_bind]
  refine sat_freshPtr ?_
  simp only [Post.andThen_some, Code.sat_bind]
  exact (hK _ rfl).sat_ask fun _ => h

/-- The object with its timer set. -/
def ConnectionEnd.withTimer (s : ConnectionEnd) (int fin : UInt32) (fired : Bool) :
    ConnectionEnd :=
  { s with mSSLTimerInt := int, mSSLTimerFin := fin, mSSLTimerFired := fired }

/-- The timer changes and nothing else. -/
theorem sat_sslSetTimerCallback (hK : Quiet K .getGlobalTime) (int_ms fin_ms : UInt32)
    {Q : Post M ConnectionEnd Unit} (h : ∀ i f b, Q g (some ()) (s.withTimer i f b)) :
    (sslSetTimerCallback int_ms fin_ms).Sat K D e stk Q g s := by
  simp only [sslSetTimerCallback, Code.sat_ite]
  refine ⟨fun _ => h 0 0 false, fun _ => ?_⟩
  simp only [nowms, Code.sat_bind]
  exact hK.sat_ask fun now => h (int_ms + now) (fin_ms + now) false

/-- Whatever mbedTLS sets from inside a question, only the timer changes. -/
theorem sat_runTimerCalls (hK : Quiet K .getGlobalTime) (ts : TimerCalls) :
    ∀ {s : ConnectionEnd} {Q : Post M ConnectionEnd Unit},
      (∀ i f b, Q g (some ()) (s.withTimer i f b)) → (runTimerCalls ts).Sat K D e stk Q g s := by
  induction ts with
  | nil => intro s Q h; exact h s.mSSLTimerInt s.mSSLTimerFin s.mSSLTimerFired
  | cons t ts ih =>
    intro s Q h
    simp only [runTimerCalls, Code.sat_bind]
    refine sat_sslSetTimerCallback hK _ _ fun i f b => ?_
    exact ih fun i' f' b' => h i' f' b'

/-- `mbedtls_ssl_session_reset` is one event, after which only the timer differs. -/
theorem sat_mbedtlsSslSessionReset (hK : Quiet K .getGlobalTime) {Q : Post M ConnectionEnd Unit}
    (hev : ∀ a, K.Every g s (.asked .mbedtlsSslSessionReset a))
    (h : ∀ a i f b, Q (M.next g (.asked .mbedtlsSslSessionReset a)) (some ())
      (s.withTimer i f b)) :
    mbedtlsSslSessionReset.Sat K D e stk Q g s := by
  simp only [mbedtlsSslSessionReset, Code.sat_bind]
  intro a _
  exact ⟨hev a, sat_runTimerCalls hK a fun i f b => h a i f b⟩

/-! ## The read buffer -/

/-- The object without its read buffer. -/
def ConnectionEnd.withoutReadBuffer (s : ConnectionEnd) : ConnectionEnd :=
  { s with mSSLReadBuffer := none, mSSLReadBufferSize := 0 }

/-- The bytes read go into a list of the client, or the run ends. -/
theorem sat_putnReadBuffer (hK : MemoryQuiet K) {clientBuffer : ListRef} {buf : Block}
    {Q : Post M ConnectionEnd Unit}
    (h : ∀ b, clientBuffer = .client b →
      (ask (.listPutn b (buf.bytes.take s.mSSLReadCount))).Sat K D e stk
        (fun g' _ s' => Q g' (some ()) s'.withoutReadBuffer) g s) :
    (putnReadBuffer clientBuffer buf).Sat K D e stk Q g s := by
  simp only [putnReadBuffer, Code.sat_bind, Code.sat_get, Post.andThen_some]
  cases clientBuffer with
  | client b =>
    simp only [Code.sat_bind]
    refine sat_ask fun n hn => ⟨(h b rfl n hn).1, ?_⟩
    simp only [Post.andThen_some, Code.sat_bind]
    exact sat_disposPtr hK _ (h b rfl n hn).2
  | own p => exact trivial
  | null => exact trivial

end NewtonTLS
