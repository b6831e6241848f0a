/-
# Traffic does not touch the mode

While an mbedTLS function runs, the connection end is entered through the
callbacks of mbedTLS and the completions of the inner end only.  These move
bytes between buffers and leave everything else alone: the mode flags, the
options, the trust anchors and the read buffer (`SameCore`).

The entry points of traffic receive, send, or do neither.  For each of the three
sides a frame (`ReceiveFrame`, `SendFrame`, `RestFrame`) says what a predicate has to
put up with to hold through the functions of that side; the functions are run once
for all frames.

A `CoreContract` is a contract about what traffic leaves alone.
`CoreContract.traffic` proves all entry points of the traffic for every such
contract.
-/
import NewtonTLS.ConnectionEndRuns

open Reentrant

namespace NewtonTLS

/-! ## What traffic leaves alone -/

/-- The fields that traffic does not touch are the same. -/
structure SameCore (s s' : ConnectionEnd) : Prop where
  mAsyncReadMessage : s'.mAsyncReadMessage = s.mAsyncReadMessage
  mRootCertificatesHeap : s'.mRootCertificatesHeap = s.mRootCertificatesHeap
  mSSLEnabled : s'.mSSLEnabled = s.mSSLEnabled
  mSSLConfigured : s'.mSSLConfigured = s.mSSLConfigured
  mEstablished : s'.mEstablished = s.mEstablished
  mUpgradable : s'.mUpgradable = s.mUpgradable
  mClosing : s'.mClosing = s.mClosing
  mSSLLoadRootCertificates : s'.mSSLLoadRootCertificates = s.mSSLLoadRootCertificates
  mSSLHostname : s'.mSSLHostname = s.mSSLHostname
  mSSLAuthMode : s'.mSSLAuthMode = s.mSSLAuthMode
  mSSLCAChain : s'.mSSLCAChain = s.mSSLCAChain
  mSSLReadBuffer : s'.mSSLReadBuffer = s.mSSLReadBuffer
  mSSLReadBufferSize : s'.mSSLReadBufferSize = s.mSSLReadBufferSize
  mSSLReadCount : s'.mSSLReadCount = s.mSSLReadCount
  currentHeap : s'.currentHeap = s.currentHeap

theorem SameCore.refl (s : ConnectionEnd) : SameCore s s := by
  constructor <;> rfl

theorem SameCore.trans {s₁ s₂ s₃ : ConnectionEnd} (h : SameCore s₁ s₂) (h' : SameCore s₂ s₃) :
    SameCore s₁ s₃ := by
  constructor
  · rw [h'.mAsyncReadMessage, h.mAsyncReadMessage]
  · rw [h'.mRootCertificatesHeap, h.mRootCertificatesHeap]
  · rw [h'.mSSLEnabled, h.mSSLEnabled]
  · rw [h'.mSSLConfigured, h.mSSLConfigured]
  · rw [h'.mEstablished, h.mEstablished]
  · rw [h'.mUpgradable, h.mUpgradable]
  · rw [h'.mClosing, h.mClosing]
  · rw [h'.mSSLLoadRootCertificates, h.mSSLLoadRootCertificates]
  · rw [h'.mSSLHostname, h.mSSLHostname]
  · rw [h'.mSSLAuthMode, h.mSSLAuthMode]
  · rw [h'.mSSLCAChain, h.mSSLCAChain]
  · rw [h'.mSSLReadBuffer, h.mSSLReadBuffer]
  · rw [h'.mSSLReadBufferSize, h.mSSLReadBufferSize]
  · rw [h'.mSSLReadCount, h.mSSLReadCount]
  · rw [h'.currentHeap, h.currentHeap]

/-- The timer is not part of the core. -/
theorem SameCore.withTimer (s : ConnectionEnd) (i f : UInt32) (b : Bool) :
    SameCore s (s.withTimer i f b) := by
  constructor <;> rfl

/-! ## The events of traffic -/

/-- The entry points that receive. -/
def Entry.receives : Entry → Bool
  | .getCompleteCB _ _ _ _ _ => true
  | .sslRecvCallback _ => true
  | _ => false

/-- The entry points that send. -/
def Entry.sends : Entry → Bool
  | .putCompleteCB _ _ _ _ => true
  | .sslSendCallback _ => true
  | _ => false

/-- The entry points of traffic that neither receive nor send. -/
def Entry.rests : Entry → Bool
  | .getCurPutDataCB => true
  | .getCurPutFrameDataCB => true
  | .getCurPutEndOfFrameCB => true
  | .getCurGetDataCB => true
  | .getCurGetFrameDataCB => true
  | .getCurGetNonBlockingCB => true
  | .getCurGetThresholdCB => true
  | .plainCallback _ => true
  | .sslSetTimerCallback _ _ => true
  | .sslGetTimerCallback => true
  | _ => false

/-- The entry points of traffic. -/
def Entry.isTraffic (e : Entry) : Bool := e.receives || e.sends || e.rests

/-- Traffic is received, sent, or neither. -/
theorem Entry.isTraffic_cases {e : Entry} (he : e.isTraffic = true) :
    e.receives = true ∨ e.sends = true ∨ e.rests = true := by
  simpa [isTraffic, or_assoc] using he

/-- The questions of traffic. -/
def Query.isTraffic : Query → Bool
  | .newPtr _ _ => true
  | .reallocPtr _ _ => true
  | .disposPtr _ => true
  | .getGlobalTime => true
  | .bytesBehindBlock _ _ => true
  | .sendAsyncReadMessage => true
  | .sslAccepts _ => true
  | .getCurPutData => true
  | .getCurPutFrameData => true
  | .getCurPutEndOfFrame => true
  | .getCurGetData => true
  | .getCurGetFrameData => true
  | .getCurGetNonBlocking => true
  | .getCurGetThreshold => true
  | _ => false

/-- The calls of traffic in state `s`: completions go to the client only as long
as SSL is not configured. -/
def Call.isTraffic (s : ConnectionEnd) : Call → Bool
  | .inner (.putBytesStart (.own _)) => true
  | .inner (.getBytesImmediateStart (.own _) _) => true
  | .client (.putComplete _ _) => !s.mSSLConfigured
  | .client (.getComplete _ _ _) => !s.mSSLConfigured
  | .client (.plain _) => true
  | _ => false

/-- Calls of traffic, whatever the mode. -/
def Call.mayBeTraffic : Call → Bool
  | .inner (.putBytesStart (.own _)) => true
  | .inner (.getBytesImmediateStart (.own _) _) => true
  | .client (.putComplete _ _) => true
  | .client (.getComplete _ _ _) => true
  | .client (.plain _) => true
  | _ => false

/-- The calls of traffic one by one. -/
theorem Call.isTraffic_cases {s : ConnectionEnd} {c : Call} (h : c.isTraffic s = true) :
    (∃ p, c = .inner (.putBytesStart (.own p))) ∨
    (∃ p n, c = .inner (.getBytesImmediateStart (.own p) n)) ∨
    (∃ r n, c = .client (.putComplete r n) ∧ s.mSSLConfigured = false) ∨
    (∃ r b n, c = .client (.getComplete r b n) ∧ s.mSSLConfigured = false) ∨
    (∃ cb, c = .client (.plain cb)) := by
  unfold Call.isTraffic at h
  split at h
  · next p => exact .inl ⟨p, rfl⟩
  · next p n => exact .inr (.inl ⟨p, n, rfl⟩)
  · next r n => exact .inr (.inr (.inl ⟨r, n, rfl, by simpa using h⟩))
  · next r b n => exact .inr (.inr (.inr (.inl ⟨r, b, n, rfl, by simpa using h⟩)))
  · next cb => exact .inr (.inr (.inr (.inr ⟨cb, rfl⟩)))
  · cases h

/-- The events of traffic in state `s`. -/
def Traffic (s : ConnectionEnd) : Label CESig → Prop
  | .enter e => e.isTraffic = true
  | .leave e _ => e.isTraffic = true
  | .asked q _ => q.isTraffic = true
  | .calls e c => e.isTraffic = true ∧ c.isTraffic s = true
  | .resumes c _ => c.mayBeTraffic = true

/-! ## What traffic changes -/

/-- What the receiving side changes. -/
structure ReceiveValues : Type where
  pending : Bool
  inProgress : Bool
  peerClosed : Bool
  list : Option OwnList
  buffer : Option Block
  size : ℕ
  error : Int
  nextPtr : ℕ

/-- The object with another receiving side. -/
def ConnectionEnd.withReceive (s : ConnectionEnd) (v : ReceiveValues) : ConnectionEnd :=
  { s with
    mRecvPending := v.pending
    mSSLReceiveInProgress := v.inProgress
    mPeerClosed := v.peerClosed
    mGetDataBuffer := v.list
    mSSLRecvBuffer := v.buffer
    mSSLRecvBufferSize := v.size
    mRecvError := v.error
    nextPtr := v.nextPtr }

/-- The receiving side as it is. -/
def ConnectionEnd.receiveValues (s : ConnectionEnd) : ReceiveValues :=
  ⟨s.mRecvPending, s.mSSLReceiveInProgress, s.mPeerClosed, s.mGetDataBuffer, s.mSSLRecvBuffer,
    s.mSSLRecvBufferSize, s.mRecvError, s.nextPtr⟩

/-- What the sending side changes. -/
structure SendValues : Type where
  pending : Bool
  put : Option OwnList
  send : Option OwnList
  error : Int

/-- The object with another sending side. -/
def ConnectionEnd.withSend (s : ConnectionEnd) (v : SendValues) : ConnectionEnd :=
  { s with
    mSendPending := v.pending
    mPutDataBuffer := v.put
    mSendBuffer := v.send
    mSendError := v.error }

/-- The sending side as it is. -/
def ConnectionEnd.sendValues (s : ConnectionEnd) : SendValues :=
  ⟨s.mSendPending, s.mPutDataBuffer, s.mSendBuffer, s.mSendError⟩

/-- What is received is not part of the core. -/
theorem SameCore.withReceive (s : ConnectionEnd) (v : ReceiveValues) :
    SameCore s (s.withReceive v) := by
  constructor <;> rfl

theorem SameCore.withSend (s : ConnectionEnd) (v : SendValues) : SameCore s (s.withSend v) := by
  constructor <;> rfl

/-- The receiving side has the same list and the same block, whatever is in them. -/
structure ReceiveValues.SameOwned (v : ReceiveValues) (s : ConnectionEnd) : Prop where
  list : listRef v.list = listRef s.mGetDataBuffer
  buffer : v.buffer.map Block.ptr = s.mSSLRecvBuffer.map Block.ptr
  nextPtr : v.nextPtr = s.nextPtr

/-- The sending side has the same lists, whatever is in them. -/
structure SendValues.SameOwned (v : SendValues) (s : ConnectionEnd) : Prop where
  put : listRef v.put = listRef s.mPutDataBuffer
  send : listRef v.send = listRef s.mSendBuffer

/-- Reading from `mPutDataBuffer` is a change of the sending side. -/
theorem innerReads_eq_withSend (of : ListRef) (n : ℕ) (s : ConnectionEnd) :
    ∃ v : SendValues, innerReads of n s = s.withSend v ∧ v.SameOwned s := by
  unfold innerReads
  split
  · next put hput =>
    split
    · exact ⟨{ s.sendValues with put := _ }, rfl, by rw [hput]; rfl, rfl⟩
    · exact ⟨s.sendValues, rfl, rfl, rfl⟩
  · exact ⟨s.sendValues, rfl, rfl, rfl⟩

/-- Writing into `mGetDataBuffer` is a change of the receiving side. -/
theorem innerWrites_eq_withReceive (of : ListRef) (bs : List Byte) (s : ConnectionEnd) :
    ∃ v : ReceiveValues, innerWrites of bs s = s.withReceive v ∧ v.SameOwned s := by
  unfold innerWrites
  split
  · next getl hget =>
    split
    · exact ⟨{ s.receiveValues with list := _ }, rfl, by rw [hget]; rfl, rfl, rfl⟩
    · exact ⟨s.receiveValues, rfl, rfl, rfl, rfl⟩
  · exact ⟨s.receiveValues, rfl, rfl, rfl, rfl⟩

/-! ## Frames -/

/-- The questions of the receiving side. -/
def Query.isReceive : Query → Bool
  | .newPtr _ _ => true
  | .reallocPtr _ _ => true
  | .disposPtr _ => true
  | .bytesBehindBlock _ _ => true
  | .sendAsyncReadMessage => true
  | _ => false

/-- Those that leave the blocks of the heap where they are. -/
def Query.keepsBlocks : Query → Bool
  | .newPtr _ _ => false
  | .disposPtr _ => false
  | _ => true

/-- The questions of timers and getters. -/
def Query.isRest : Query → Bool
  | .getGlobalTime => true
  | .getCurPutData => true
  | .getCurPutFrameData => true
  | .getCurPutEndOfFrame => true
  | .getCurGetData => true
  | .getCurGetFrameData => true
  | .getCurGetNonBlocking => true
  | .getCurGetThreshold => true
  | _ => false

variable {M : Monitor CESig}

/-- The call `c` can be made, and `Done` holds when it comes back. -/
structure CallKept (K : Contract M ConnectionEnd) (D : Discipline M ConnectionEnd) (e : Entry)
    (stk : List Call) (Done : M.Obs → ConnectionEnd → Prop) (g : M.Obs) (s : ConnectionEnd)
    (c : Call) : Prop where
  every : K.Every g s (.calls e c)
  promise : K.At (c :: stk) (M.next g (.calls e c)) s
  back : ∀ r g' s', K.At (c :: stk) g' s' → K.Rely (c :: stk) (M.next g (.calls e c)) s g' s' →
    D.permits (c :: stk) g' s' (.resumes c r) = true →
    K.Every g' s' (.resumes c r) ∧ Done (M.next g' (.resumes c r)) s'

/-- `Done` holds through what the receiving side does by itself: it changes what is in its list
and its block (`frame`), allocates a block when it has none (`filled`) and disposes of it
(`emptied`). -/
structure ReceiveFrame (K : Contract M ConnectionEnd) (Done : M.Obs → ConnectionEnd → Prop) :
    Prop where
  ask : ∀ q, q.isReceive = true → q.keepsBlocks = true → ∀ g s a, Done g s →
    K.Every g s (.asked q a) ∧ Done (M.next g (.asked q a)) s
  frame : ∀ g s (v : ReceiveValues), v.SameOwned s → Done g s → Done g (s.withReceive v)
  filled : ∀ g s size bytes a, s.mSSLConfigured = true → s.mSSLRecvBuffer = none → Done g s →
    K.Every g { s with nextPtr := s.nextPtr + 1 } (.asked (.newPtr s.nextPtr size) a) ∧
    Done (M.next g (.asked (.newPtr s.nextPtr size) a)) (s.withReceive { s.receiveValues with
      buffer := some ⟨s.nextPtr, bytes⟩
      nextPtr := s.nextPtr + 1 })
  emptied : ∀ g s b a, s.mSSLRecvBuffer = some b → Done g s →
    K.Every g s (.asked (.disposPtr b.ptr) a) ∧
    Done (M.next g (.asked (.disposPtr b.ptr) a)) (s.withReceive { s.receiveValues with
      buffer := none
      size := 0 })

/-- `Done` holds through what the sending side does by itself. -/
structure SendFrame (K : Contract M ConnectionEnd) (Done : M.Obs → ConnectionEnd → Prop) :
    Prop where
  accept : ∀ g s buf a, Done g s →
    K.Every g s (.asked (.sslAccepts buf) a) ∧ Done (M.next g (.asked (.sslAccepts buf) a)) s
  frame : ∀ g s (v : SendValues), v.SameOwned s → Done g s → Done g (s.withSend v)

/-- `Done` holds through timers and getters. -/
structure RestFrame (K : Contract M ConnectionEnd) (Done : M.Obs → ConnectionEnd → Prop) :
    Prop where
  ask : ∀ q, q.isRest = true → ∀ g s a, Done g s →
    K.Every g s (.asked q a) ∧ Done (M.next g (.asked q a)) s
  timer : ∀ g s i f b, Done g s → Done g (s.withTimer i f b)

variable {K : Contract M ConnectionEnd} {D : Discipline M ConnectionEnd} {e : Entry}
  {stk : List Call} {Done Done' : M.Obs → ConnectionEnd → Prop} {g : M.Obs} {s : ConnectionEnd}

/-- A call that keeps what is to be proved. -/
theorem CallKept.sat_call {c : Call} (h : CallKept K D e stk Done g s c)
    {Q : Post M ConnectionEnd c.Result} (hQ : ∀ r g' s', Done g' s' → Q g' (some r) s') :
    (Code.call (S := CESig) c).Sat K D e stk Q g s := by
  rw [Code.sat_call]
  refine ⟨h.every, h.promise, fun r g' s' hat hrely hperm => ?_⟩
  obtain ⟨hev, hdone⟩ := h.back r g' s' hat hrely hperm
  exact ⟨hev, hQ r _ _ hdone⟩

theorem CallKept.sat_inner {c : InnerCall} (h : CallKept K D e stk Done g s (.inner c))
    {Q : Post M ConnectionEnd Unit} (hQ : ∀ g' s', Done g' s' → Q g' (some ()) s') :
    (inner c).Sat K D e stk Q g s := by
  simp only [inner, Code.sat_bind]
  exact h.sat_call fun _ g' s' h' => hQ g' s' h'

theorem CallKept.sat_client {c : ClientCall} (h : CallKept K D e stk Done g s (.client c))
    {Q : Post M ConnectionEnd Unit} (hQ : ∀ g' s', Done g' s' → Q g' (some ()) s') :
    (client c).Sat K D e stk Q g s := by
  simp only [client, Code.sat_bind]
  exact h.sat_call fun _ g' s' h' => hQ g' s' h'

/-! ## The receiving side -/

section receive

/-- A predicate that does not look at the block of the receiving side. -/
theorem ReceiveFrame.of_blind
    (hask : ∀ q, q.isReceive = true → ∀ g s a, Done g s →
      K.Every g s (.asked q a) ∧ Done (M.next g (.asked q a)) s)
    (hframe : ∀ g s v, listRef v.list = listRef s.mGetDataBuffer → Done g s →
      Done g (s.withReceive v)) : ReceiveFrame K Done where
  ask := fun q hq _ => hask q hq
  frame := fun g s v hv => hframe g s v hv.list
  filled := by
    intro g s size bytes a _ _ h
    have hnext := hframe g s { s.receiveValues with nextPtr := s.nextPtr + 1 } rfl h
    obtain ⟨hev, hdone⟩ := hask (.newPtr s.nextPtr size) rfl g _ a hnext
    exact ⟨hev, hframe _ (s.withReceive { s.receiveValues with nextPtr := s.nextPtr + 1 })
      { s.receiveValues with buffer := some ⟨s.nextPtr, bytes⟩, nextPtr := s.nextPtr + 1 }
      rfl hdone⟩
  emptied := by
    intro g s b a _ h
    obtain ⟨hev, hdone⟩ := hask (.disposPtr b.ptr) rfl g s a h
    exact ⟨hev, hframe _ _ { s.receiveValues with buffer := none, size := 0 } rfl hdone⟩

variable (F : ReceiveFrame K Done)
include F

/-- A question of the receiving side. -/
theorem ReceiveFrame.sat_ask (h : Done g s) {q : Query} (hq : q.isReceive = true)
    (hkeep : q.keepsBlocks = true) {Q : Post M ConnectionEnd q.Answer}
    (hQ : ∀ a g', Done g' s → Q g' (some a) s) : (NewtonTLS.ask q).Sat K D e stk Q g s := by
  refine NewtonTLS.sat_ask fun a _ => ?_
  obtain ⟨hev, hdone⟩ := F.ask q hq hkeep g s a h
  exact ⟨hev, hQ a _ hdone⟩

/-- What the inner end writes is a change of the receiving side. -/
theorem ReceiveFrame.innerWrites (of : ListRef) (bs : List Byte) (h : Done g s) :
    Done g (innerWrites of bs s) := by
  obtain ⟨v, hv, hlist⟩ := innerWrites_eq_withReceive of bs s
  rw [hv]
  exact F.frame g s v hlist h

/-- Bytes that have arrived are appended. -/
theorem ReceiveFrame.sat_appendReceived (h : Done g s) (hconf : s.mSSLConfigured = true) (count : ℕ)
    {Q : Post M ConnectionEnd Unit} (hQ : ∀ g' s', Done g' s' → Q g' (some ()) s') :
    (appendReceived count).Sat K D e stk Q g s := by
  -- the end, in a state that has the block already
  have hend : ∀ g' s' (buf : Block) (size : ℕ) (getl : OwnList) (bytes : List Byte),
      s'.mGetDataBuffer = some getl → s'.mSSLRecvBuffer.map Block.ptr = some buf.ptr → Done g' s' →
      Done g' (s'.withReceive { s'.receiveValues with
        buffer := some { buf with bytes := bytes }
        list := some { getl with list := getl.list.deleteAll }
        size := size + count }) := by
    intro g' s' buf size getl bytes hget hbuf h'
    exact F.frame g' s' _ ⟨by rw [hget]; rfl, hbuf.symm, rfl⟩ h'
  simp only [appendReceived, Code.sat_bind, Code.sat_get, Post.andThen_some]
  cases hbuf : s.mSSLRecvBuffer with
  | some b =>
    simp only [reallocPtr, Code.sat_bind]
    refine F.sat_ask h rfl rfl fun _ g' h' => ?_
    simp only [Post.andThen_some, Code.sat_bind, Code.sat_pure]
    refine sat_deref _ fun getl hget => hQ _ _ ?_
    exact hend g' s _ _ getl _ hget (by rw [hbuf]; rfl) h'
  | none =>
    simp only [newPtr, freshPtr, Code.sat_bind, Code.sat_get, Post.andThen_some, Code.sat_set,
      Code.sat_pure]
    refine NewtonTLS.sat_ask fun a _ => ?_
    obtain ⟨hev, h'⟩ := F.filled g s count (List.replicate count 0) a hconf hbuf h
    refine ⟨hev, ?_⟩
    simp only [Post.andThen_some, Code.sat_bind, Code.sat_pure]
    refine sat_deref _ fun getl hget => hQ _ _ ?_
    have hdone := hend _ (s.withReceive { s.receiveValues with
      buffer := some ⟨s.nextPtr, List.replicate count 0⟩
      nextPtr := s.nextPtr + 1 }) ⟨s.nextPtr, _⟩ 0 getl
      (writeAt (List.replicate count 0) 0 (getl.list.reset.getn count).1) hget rfl h'
    exact hdone

/-- `GetCompleteCB`, which forwards what is not its own. -/
theorem ReceiveFrame.sat_getCompleteCB (h : Done g s) (result : Int) (eof : Bool) (count : ℕ)
    (hforward : s.mSSLConfigured = false →
      CallKept K D e stk Done g s (.client (.getComplete (.code result) eof count)))
    {Q : Post M ConnectionEnd Unit} (hQ : ∀ g' s', Done g' s' → Q g' (some ()) s') :
    (getCompleteCB result eof count).Sat K D e stk Q g s := by
  have hsend : ∀ g' s', Done g' s' → (NewtonTLS.ask .sendAsyncReadMessage).Sat K D e stk
      (Post.andThen K D e stk Q fun _ => pure ()) g' s' :=
    fun g' s' h' => F.sat_ask h' rfl rfl fun _ g'' h'' => hQ _ _ h''
  have h1 := F.frame g s { s.receiveValues with pending := false } ⟨rfl, rfl, rfl⟩ h
  simp only [getCompleteCB, Code.sat_bind, Code.sat_get, Post.andThen_some, Code.sat_ite,
    Code.sat_modify]
  refine ⟨fun hconf => ⟨fun _ => ⟨fun _ => ?_, fun _ => ?_⟩, fun _ => ?_⟩, fun hplain => ?_⟩
  · have h2 := F.frame g s { s.receiveValues with pending := false, peerClosed := true }
      ⟨rfl, rfl, rfl⟩ h
    exact ⟨fun _ => hsend _ _ h2, fun _ => hQ _ _ h2⟩
  · refine F.sat_appendReceived h1 hconf _ fun g' s' h2 => ?_
    simp only [Post.andThen_some, Code.sat_bind, Code.sat_get, Code.sat_ite]
    exact ⟨fun _ => hsend _ _ h2, fun _ => hQ _ _ h2⟩
  · have h2 := F.frame g s { s.receiveValues with pending := false, error := result }
      ⟨rfl, rfl, rfl⟩ h
    exact ⟨fun _ => hsend _ _ h2, fun _ => hQ _ _ h2⟩
  · exact (hforward (by simpa using hplain)).sat_client hQ

/-- Bytes are taken out of the front. -/
theorem ReceiveFrame.sat_takeReceived (h : Done g s) (len : ℕ) {Q : Post M ConnectionEnd Value}
    (hQ : ∀ v g' s', Done g' s' → Q g' (some v) s') :
    (takeReceived len).Sat K D e stk Q g s := by
  simp only [takeReceived, Code.sat_bind, Code.sat_get, Post.andThen_some]
  refine sat_deref _ fun buf hbuf => ?_
  simp only [Post.andThen_some, Code.sat_bind, Code.sat_ite, disposPtr, reallocPtr]
  refine ⟨fun _ => NewtonTLS.sat_ask fun a _ => ?_,
    fun _ => F.sat_ask h rfl rfl fun junk g' h' => ?_⟩
  · obtain ⟨hev, h'⟩ := F.emptied g s buf a hbuf h
    exact ⟨hev, hQ _ _ _ h'⟩
  · simp only [Post.andThen_some, Code.sat_bind]
    refine F.sat_ask h' rfl rfl fun _ g'' h'' => hQ _ _ _ ?_
    exact F.frame g'' s { s.receiveValues with buffer := some ⟨buf.ptr, _⟩, size := _ }
      ⟨rfl, by rw [hbuf]; rfl, rfl⟩ h''

/-- `SSLRecvCallback`, which may request a get. -/
theorem ReceiveFrame.sat_sslRecvCallback (h : Done g s) (len : ℕ)
    (hrequest : ∀ g' s' getl, Done g' s' → s'.mGetDataBuffer = some getl →
      CallKept K D e stk Done g' s' (.inner (.getBytesImmediateStart (.own getl.ptr) 1)))
    {Q : Post M ConnectionEnd Value} (hQ : ∀ v g' s', Done g' s' → Q g' (some v) s') :
    (sslRecvCallback len).Sat K D e stk Q g s := by
  simp only [sslRecvCallback, Code.sat_bind, Code.sat_get, Post.andThen_some, Code.sat_ite,
    Code.sat_pure]
  refine ⟨fun _ => hQ _ _ _ h, fun _ => ⟨fun _ => hQ _ _ _ h, fun _ => ⟨fun _ => ?_, fun _ => ?_⟩⟩⟩
  · refine sat_deref _ fun getl hget => ?_
    simp only [Post.andThen_some, Code.sat_bind, Code.sat_modify]
    have h1 := F.frame g s { s.receiveValues with
      pending := true
      list := some { getl with
        list := getl.list.insertLast (List.replicate (len - s.mSSLRecvBufferSize) 0) }
      inProgress := true } ⟨by rw [hget]; rfl, rfl, rfl⟩ h
    refine (hrequest _ _ _ h1 rfl).sat_inner fun g' s' h' => ?_
    have h2 := F.frame g' s' { s'.receiveValues with inProgress := false } ⟨rfl, rfl, rfl⟩ h'
    simp only [Post.andThen_some, Code.sat_bind, Code.sat_get, Code.sat_modify, Code.sat_ite,
      Code.sat_pure]
    exact ⟨fun _ => hQ _ _ _ h2, fun _ => ⟨fun _ => hQ _ _ _ h2,
      fun _ => F.sat_takeReceived h2 len hQ⟩⟩
  · exact ⟨fun _ => hQ _ _ _ h,
      fun _ => ⟨fun _ => hQ _ _ _ h, fun _ => F.sat_takeReceived h len hQ⟩⟩

/-- The entry points of the receiving side. -/
theorem ReceiveFrame.sat_code (fuel : ℕ) {e' : Entry} (he : e'.receives = true) (h : Done g s)
    (hrequest : ∀ g' s' getl, Done g' s' → s'.mGetDataBuffer = some getl →
      CallKept K D e stk Done g' s' (.inner (.getBytesImmediateStart (.own getl.ptr) 1)))
    (hforward : ∀ g' s' r b n, Done g' s' → s'.mSSLConfigured = false →
      CallKept K D e stk Done g' s' (.client (.getComplete r b n)))
    {Q : Post M ConnectionEnd Value} (hQ : ∀ v g' s', Done g' s' → Q g' (some v) s') :
    (code fuel e').Sat K D e stk Q g s := by
  cases e' with
  | getCompleteCB of bs r b n =>
    simp only [code, unit, Code.sat_bind, Code.sat_modify, Post.andThen_some]
    have h1 := F.innerWrites of bs h
    exact F.sat_getCompleteCB h1 _ _ _ (hforward _ _ _ _ _ h1) fun g' s' h' => hQ _ _ _ h'
  | sslRecvCallback len => exact F.sat_sslRecvCallback h len hrequest hQ
  | _ => cases he

end receive

/-! ## The sending side -/

section send

variable (F : SendFrame K Done)
include F

/-- What the inner end reads is a change of the sending side. -/
theorem SendFrame.innerReads (of : ListRef) (n : ℕ) (h : Done g s) :
    Done g (innerReads of n s) := by
  obtain ⟨v, hv, hput⟩ := innerReads_eq_withSend of n s
  rw [hv]
  exact F.frame g s v hput h

variable (hrequest : ∀ g' s' put, Done g' s' → s'.mPutDataBuffer = some put →
  CallKept K D e stk Done' g' s' (.inner (.putBytesStart (.own put.ptr))))
  (hdone : ∀ g' s', Done g' s' → Done' g' s')
include hrequest

theorem SendFrame.sat_putPutDataBuffer (h : Done g s) {put : OwnList}
    (hput : s.mPutDataBuffer = some put) {Q : Post M ConnectionEnd Unit}
    (hQ : ∀ g' s', Done' g' s' → Q g' (some ()) s') :
    putPutDataBuffer.Sat K D e stk Q g s := by
  simp only [putPutDataBuffer, Code.sat_bind, Code.sat_modify, Post.andThen_some, Code.sat_get]
  rw [hput]
  have h1 := F.frame g s { s.sendValues with pending := true, put := some put }
    ⟨by rw [hput], rfl⟩ h
  exact (hrequest _ _ _ h1 rfl).sat_inner hQ

include hdone

/-- `PutCompleteCB`, which forwards what is not its own. -/
theorem SendFrame.sat_putCompleteCB (h : Done g s) (result : Int) (count : ℕ)
    (hforward : s.mSSLConfigured = false →
      CallKept K D e stk Done' g s (.client (.putComplete (.code result) count)))
    {Q : Post M ConnectionEnd Unit} (hQ : ∀ g' s', Done' g' s' → Q g' (some ()) s') :
    (putCompleteCB result count).Sat K D e stk Q g s := by
  have h1 := F.frame g s { s.sendValues with pending := false } ⟨rfl, rfl⟩ h
  simp only [putCompleteCB, Code.sat_bind, Code.sat_get, Post.andThen_some, Code.sat_ite,
    Code.sat_modify]
  refine ⟨fun _ => ⟨fun _ => ?_, fun _ => ?_⟩, fun hplain => ?_⟩
  · exact hQ _ _ (hdone _ _
      (F.frame g s { s.sendValues with pending := false, error := result } ⟨rfl, rfl⟩ h))
  · refine sat_deref _ fun put hput => ?_
    simp only [Post.andThen_some, Code.sat_ite, Code.sat_bind, Code.sat_get]
    refine ⟨fun _ => sat_deref _ fun send hsend => ?_,
      fun _ => F.sat_putPutDataBuffer hrequest h1 hput hQ⟩
    have h2 := F.frame g s { s.sendValues with
      pending := false
      send := some { send with list := (BufferList.moveAll send.list put.list.deleteAll).1 }
      put := some { put with list := (BufferList.moveAll send.list put.list.deleteAll).2 } }
      ⟨by rw [show s.mPutDataBuffer = some put from hput]; rfl,
        by rw [show s.mSendBuffer = some send from hsend]; rfl⟩ h
    simp only [Post.andThen_some, Code.sat_ite, Code.sat_bind, Code.sat_modify]
    exact ⟨fun _ => F.sat_putPutDataBuffer hrequest h2 rfl hQ, fun _ => hQ _ _ (hdone _ _ h2)⟩
  · exact (hforward (by simpa using hplain)).sat_client hQ

theorem SendFrame.sat_sslSendCallback (h : Done g s) (buf : List Byte)
    {Q : Post M ConnectionEnd Int} (hQ : ∀ r g' s', Done' g' s' → Q g' (some r) s') :
    (sslSendCallback buf).Sat K D e stk Q g s := by
  simp only [sslSendCallback, Code.sat_bind, Code.sat_get, Post.andThen_some, Code.sat_ite]
  refine ⟨fun _ => hQ _ _ _ (hdone _ _ h), fun _ => sat_deref _ fun send hsend => ?_⟩
  simp only [Post.andThen_some, Code.sat_bind]
  refine sat_ask fun a _ => ⟨(F.accept g s buf a h).1, ?_⟩
  have h1 := (F.accept g s buf a h).2
  simp only [Post.andThen_some, Code.sat_bind, Code.sat_ite, Code.sat_modify]
  refine ⟨fun _ => hQ _ _ _ (hdone _ _ ?_), fun _ => sat_deref _ fun put hput => ?_⟩
  · exact F.frame _ s { s.sendValues with
      send := some { send with list := send.list.insertLast buf } } ⟨rfl, by rw [hsend]; rfl⟩ h1
  · simp only [Post.andThen_some, Code.sat_bind, Code.sat_modify]
    have h2 := F.frame _ s { s.sendValues with
      send := some { send with list := (BufferList.moveAll (send.list.insertLast buf) put.list).1 }
      put := some { put with list := (BufferList.moveAll (send.list.insertLast buf) put.list).2 } }
      ⟨by rw [hput]; rfl, by rw [hsend]; rfl⟩ h1
    exact F.sat_putPutDataBuffer hrequest h2 rfl fun g' s' h' => hQ _ _ _ h'

/-- The entry points of the sending side. -/
theorem SendFrame.sat_code (fuel : ℕ) {e' : Entry} (he : e'.sends = true) (h : Done g s)
    (hforward : ∀ g' s' r n, Done g' s' → s'.mSSLConfigured = false →
      CallKept K D e stk Done' g' s' (.client (.putComplete r n)))
    {Q : Post M ConnectionEnd Value} (hQ : ∀ v g' s', Done' g' s' → Q g' (some v) s') :
    (code fuel e').Sat K D e stk Q g s := by
  cases e' with
  | putCompleteCB of bs r n =>
    simp only [code, unit, Code.sat_bind, Code.sat_modify, Post.andThen_some]
    have h1 := F.innerReads of bs.length h
    exact F.sat_putCompleteCB hrequest hdone h1 _ _ (hforward _ _ _ _ h1)
      fun g' s' h' => hQ _ _ _ h'
  | sslSendCallback buf =>
    simp only [code, Code.sat_bind]
    exact F.sat_sslSendCallback hrequest hdone h buf fun r g' s' h' => hQ _ _ _ h'
  | _ => cases he

end send

/-! ## The rest -/

section rest

variable (F : RestFrame K Done)
include F

/-- A question of the other functions. -/
theorem RestFrame.sat_ask (h : Done g s) {q : Query} (hq : q.isRest = true)
    {Q : Post M ConnectionEnd q.Answer} (hQ : ∀ a g', Done g' s → Q g' (some a) s) :
    (NewtonTLS.ask q).Sat K D e stk Q g s := by
  refine NewtonTLS.sat_ask fun a _ => ?_
  obtain ⟨hev, hdone⟩ := F.ask q hq g s a h
  exact ⟨hev, hQ a _ hdone⟩

/-- The getters ask the client, or answer themselves. -/
theorem RestFrame.sat_configuredOr (h : Done g s) (own : ConnectionEnd → Value) {q : Query}
    (hq : q.isRest = true) (answer : q.Answer → Value) {Q : Post M ConnectionEnd Value}
    (hQ : ∀ v g' s', Done g' s' → Q g' (some v) s') :
    (configuredOr own q answer).Sat K D e stk Q g s := by
  simp only [configuredOr, Code.sat_bind, Code.sat_get, Post.andThen_some, Code.sat_ite]
  exact ⟨fun _ => hQ _ _ _ h, fun _ => F.sat_ask h hq fun a g' h' => hQ _ _ _ h'⟩

theorem RestFrame.sat_sslSetTimerCallback (h : Done g s) (int_ms fin_ms : UInt32)
    {Q : Post M ConnectionEnd Unit} (hQ : ∀ g' s', Done g' s' → Q g' (some ()) s') :
    (sslSetTimerCallback int_ms fin_ms).Sat K D e stk Q g s := by
  simp only [sslSetTimerCallback, Code.sat_ite, Code.sat_modify, Code.sat_bind, nowms]
  exact ⟨fun _ => hQ _ _ (F.timer g s 0 0 false h),
    fun _ => F.sat_ask h rfl fun now g' h' => hQ _ _ (F.timer g' s _ _ false h')⟩

theorem RestFrame.sat_sslGetTimerCallback (h : Done g s) {Q : Post M ConnectionEnd Int}
    (hQ : ∀ r g' s', Done g' s' → Q g' (some r) s') :
    sslGetTimerCallback.Sat K D e stk Q g s := by
  simp only [sslGetTimerCallback, Code.sat_bind, Code.sat_get, Post.andThen_some, Code.sat_ite,
    Code.sat_pure, nowms]
  refine ⟨fun _ => hQ _ _ _ h, fun _ => F.sat_ask h rfl fun now g' h' => ?_⟩
  simp only [Post.andThen_some, Code.sat_ite, Code.sat_pure]
  exact ⟨fun _ => hQ _ _ _ h', fun _ => ⟨fun _ => hQ _ _ _ h', fun _ => hQ _ _ _ h'⟩⟩

/-- The other entry points of traffic. -/
theorem RestFrame.sat_code (fuel : ℕ) {e' : Entry} (he : e'.rests = true) (h : Done g s)
    (hcallback : ∀ g' s' cb, Done g' s' → CallKept K D e stk Done g' s' (.client (.plain cb)))
    {Q : Post M ConnectionEnd Value} (hQ : ∀ v g' s', Done g' s' → Q g' (some v) s') :
    (code fuel e').Sat K D e stk Q g s := by
  cases e' with
  | getCurPutDataCB => exact F.sat_configuredOr h _ rfl _ hQ
  | getCurPutFrameDataCB => exact F.sat_configuredOr h _ rfl _ hQ
  | getCurPutEndOfFrameCB => exact F.sat_configuredOr h _ rfl _ hQ
  | getCurGetDataCB => exact F.sat_configuredOr h _ rfl _ hQ
  | getCurGetFrameDataCB => exact F.sat_configuredOr h _ rfl _ hQ
  | getCurGetNonBlockingCB => exact F.sat_configuredOr h _ rfl _ hQ
  | getCurGetThresholdCB => exact F.sat_configuredOr h _ rfl _ hQ
  | plainCallback cb =>
    simp only [code, unit, Code.sat_bind]
    exact (hcallback g s cb h).sat_client fun g' s' h' => hQ _ _ _ h'
  | sslSetTimerCallback i f =>
    simp only [code, unit, Code.sat_bind]
    exact F.sat_sslSetTimerCallback h i f fun g' s' h' => hQ _ _ _ h'
  | sslGetTimerCallback =>
    simp only [code, Code.sat_bind]
    exact F.sat_sslGetTimerCallback h fun r g' s' h' => hQ _ _ _ h'
  | _ => cases he

end rest

/-! ## Contracts about the rest -/

/-- A contract about what traffic leaves alone: the invariant depends on the
core, and the events of traffic are always in order and not observed. -/
structure CoreContract (M : Monitor CESig) : Type 1 where
  Inv : M.Obs → ConnectionEnd → Prop
  Every : M.Obs → ConnectionEnd → Label CESig → Prop
  inv_core : ∀ g s s', Inv g s → SameCore s s' → Inv g s'
  quiet : ∀ g s x, Inv g s → Traffic s x → Every g s x ∧ M.next g x = g

/-- The contract: the invariant holds whenever the environment has control, and
as long as mbedTLS runs the environment does nothing but traffic. -/
def CoreContract.toContract (C : CoreContract M) : Contract M ConnectionEnd where
  At := fun _ => C.Inv
  Rely := fun stk g s g' s' => inTLS stk = true → g' = g ∧ SameCore s s'
  Every := C.Every
  refl := fun _ _ s _ => ⟨rfl, .refl s⟩
  trans := fun _ _ _ _ _ _ _ h h' ht =>
    ⟨(h' ht).1.trans (h ht).1, (h ht).2.trans (h' ht).2⟩

@[simp] theorem CoreContract.toContract_every (C : CoreContract M) :
    C.toContract.Every = C.Every := rfl

variable {C : CoreContract M}

/-- A traffic entry that has started from `g` and `s₀` may end in `g'` and `s'`. -/
def TrafficDone (C : CoreContract M) (stk : List Call) (g : M.Obs) (s₀ : ConnectionEnd)
    (g' : M.Obs) (s' : ConnectionEnd) : Prop :=
  C.Inv g' s' ∧ (inTLS stk = true → g' = g ∧ SameCore s₀ s')

/-- At the beginning of a function. -/
theorem TrafficDone.start (hinv : C.Inv g s) : TrafficDone C stk g s g s :=
  ⟨hinv, fun _ => ⟨rfl, .refl s⟩⟩

/-- The rest of the function may leave the core. -/
theorem TrafficDone.core {s₀ : ConnectionEnd} {g' : M.Obs} {s' s'' : ConnectionEnd}
    (h : TrafficDone C stk g s₀ g' s') (hcore : SameCore s' s'') :
    TrafficDone C stk g s₀ g' s'' :=
  ⟨C.inv_core _ _ _ h.1 hcore, fun ht => ⟨(h.2 ht).1, (h.2 ht).2.trans hcore⟩⟩

/-- A question of traffic. -/
theorem TrafficDone.ask {s₀ : ConnectionEnd} {g' : M.Obs} {s' : ConnectionEnd}
    (h : TrafficDone C stk g s₀ g' s') {q : Query} (hq : q.isTraffic = true) (a : q.Answer) :
    C.toContract.Every g' s' (.asked q a) ∧ TrafficDone C stk g s₀ (M.next g' (.asked q a)) s' := by
  obtain ⟨hev, hnext⟩ := C.quiet g' s' (.asked q a) h.1 hq
  refine ⟨hev, ?_⟩
  rw [hnext]
  exact h

/-- A call of traffic: what comes back is still traffic. -/
theorem TrafficDone.callKept {s₀ : ConnectionEnd} {g' : M.Obs} {s' : ConnectionEnd}
    (h : TrafficDone C stk g s₀ g' s') (he : e.isTraffic = true) {c : Call}
    (hc : c.isTraffic s' = true) (hc' : c.mayBeTraffic = true) :
    CallKept C.toContract D e stk (TrafficDone C stk g s₀) g' s' c := by
  obtain ⟨hev, hnext⟩ := C.quiet g' s' (.calls e c) h.1 ⟨he, hc⟩
  refine ⟨hev, ?_, fun r g'' s'' hat hrely _ => ?_⟩
  · rw [hnext]
    exact h.1
  · obtain ⟨hev', hnext'⟩ := C.quiet g'' s'' (.resumes c r) hat hc'
    refine ⟨hev', ?_⟩
    rw [hnext']
    refine ⟨hat, fun ht => ?_⟩
    obtain ⟨hg, hs⟩ := hrely (by rw [inTLS_cons, ht, Bool.or_true])
    rw [hg, hnext]
    exact ⟨(h.2 ht).1, (h.2 ht).2.trans hs⟩

/-- The receiving functions keep the invariant of the core. -/
theorem TrafficDone.receiveFrame (C : CoreContract M) (stk : List Call) (g : M.Obs)
    (s : ConnectionEnd) : ReceiveFrame C.toContract (TrafficDone C stk g s) := by
  refine .of_blind (fun q hq g' s' a h => h.ask ?_ a)
    fun _ s' v _ h => h.core (.withReceive s' v)
  cases q <;> first | rfl | cases hq

theorem TrafficDone.sendFrame (C : CoreContract M) (stk : List Call) (g : M.Obs)
    (s : ConnectionEnd) : SendFrame C.toContract (TrafficDone C stk g s) where
  accept := fun _ _ buf a h => h.ask (q := .sslAccepts buf) rfl a
  frame := fun _ s' v _ h => h.core (.withSend s' v)

theorem TrafficDone.restFrame (C : CoreContract M) (stk : List Call) (g : M.Obs)
    (s : ConnectionEnd) : RestFrame C.toContract (TrafficDone C stk g s) where
  ask := by
    intro q hq g' s' a h
    refine h.ask ?_ a
    cases q <;> first | rfl | cases hq
  timer := fun _ s' i f b h => h.core (.withTimer s' i f b)

/-- **Traffic meets every contract about the rest.** -/
theorem CoreContract.traffic {fuel : ℕ} {e : Entry} (he : e.isTraffic = true)
    (hinv : C.Inv g s) :
    C.Every g s (.enter e) ∧
      (code fuel e).Sat C.toContract D e stk (C.toContract.post stk e g s)
        (M.next g (.enter e)) s := by
  obtain ⟨hev, hnext⟩ := C.quiet g s (.enter e) hinv he
  refine ⟨hev, ?_⟩
  rw [hnext]
  have hstart : TrafficDone C stk g s g s := .start hinv
  have hQ : ∀ v g' s', TrafficDone C stk g s g' s' →
      C.toContract.post stk e g s g' (some v) s' := by
    intro v g' s' h
    obtain ⟨hev', hnext'⟩ := C.quiet g' s' (.leave e (some v)) h.1 he
    refine ⟨hev', ?_, ?_⟩
    · rw [hnext']
      exact h.1
    · rw [hnext']
      exact h.2
  rcases e.isTraffic_cases he with hreceive | hsend | hrest
  · exact (TrafficDone.receiveFrame C stk g s).sat_code fuel hreceive hstart
      (fun _ _ _ h _ => h.callKept he rfl rfl)
      (fun _ _ _ _ _ h hplain => h.callKept he (by simp [Call.isTraffic, hplain]) rfl) hQ
  · exact (TrafficDone.sendFrame C stk g s).sat_code
      (fun _ _ _ h _ => h.callKept he rfl rfl) (fun _ _ h => h) fuel hsend
      hstart (fun _ _ _ _ h hplain => h.callKept he (by simp [Call.isTraffic, hplain]) rfl) hQ
  · exact (TrafficDone.restFrame C stk g s).sat_code fuel hrest hstart
      (fun _ _ _ h => h.callKept he rfl rfl) hQ

/-- Everything but traffic is entered with no mbedTLS function running. -/
theorem inTLS_of_mayEnter {e : Entry} (he : e.isTraffic = false) (h : mayEnter stk e = true) :
    inTLS stk = false := by
  have hout : (atClient stk && !inTLS stk) = true ∨ (atInner stk && !inTLS stk) = true := by
    cases e <;> first | exact .inl h | exact .inr h | cases he
  simp only [Bool.and_eq_true, Bool.not_eq_true'] at hout
  rcases hout with hclient | hinner
  · exact hclient.2
  · exact hinner.2

end NewtonTLS
