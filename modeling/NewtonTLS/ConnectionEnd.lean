/-
# The functions of the connection end

`Protocol/PMbedTLSConnectionEnd.cpp`, function by function, over the data model
of `ConnectionEndInterface.lean`.  Names are those of the source.

`fuel` bounds the rounds of the two loops whose number of rounds depends on the
environment (`DoSSLRead` and the loading of root certificates); a loop that has
more rounds stops with the fault `outOfFuel`.  Statements about runs hold for
every `fuel`.
-/
import NewtonTLS.ConnectionEndInterface

open Reentrant

namespace NewtonTLS

/-! ## Calls and questions -/

/-- A call to the inner end that returns nothing. -/
def inner (c : InnerCall) : CE Unit := do
  let _ ← Code.call (S := CESig) (.inner c)
  pure ()

/-- A call to the client's callback object. -/
def client (c : ClientCall) : CE Unit := do
  let _ ← Code.call (S := CESig) (.client c)
  pure ()

/-- A question. -/
def ask (q : Query) : CE q.Answer := Code.ask (S := CESig) q

/-- Use a pointer, which must not be NULL. -/
def deref {α : Type} : Option α → CE α
  | some x => pure x
  | none => Code.halt Fault.nullPointer

/-- The number of the next allocation. -/
def freshPtr : CE ℕ := do
  let s ← get
  set { s with nextPtr := s.nextPtr + 1 }
  pure s.nextPtr

/-- `NewPtr`. The content of a new block is not specified. -/
def newPtr (size : ℕ) : CE Block := do
  let p ← freshPtr
  let _ ← ask (.newPtr p size)
  pure ⟨p, List.replicate size 0⟩

/-- `DisposPtr`. -/
def disposPtr (b : Block) : CE Unit := ask (.disposPtr b.ptr)

/-- `ReallocPtr`: the content up to the new size stays. -/
def reallocPtr (b : Block) (size : ℕ) : CE Block := do
  let _ ← ask (.reallocPtr b.ptr size)
  pure ⟨b.ptr, b.bytes.take size ++ List.replicate (size - b.bytes.length) 0⟩

/-- `New__11CBufferListFv` and `Init`. -/
def newBufferList : CE OwnList := do
  let p ← freshPtr
  let _ ← ask (.newBufferList p)
  pure ⟨p, BufferList.empty⟩

/-! ## Timer callbacks -/

/-- `GetGlobalTime` and `ConvertTo(kMilliseconds)`. -/
def nowms : CE UInt32 := ask .getGlobalTime

/-- `SSLSetTimerCallback`. -/
def sslSetTimerCallback (int_ms fin_ms : UInt32) : CE Unit := do
  if fin_ms = 0 then
    -- a delay of 0 cancels the timer
    modify fun s => { s with mSSLTimerInt := 0, mSSLTimerFin := 0, mSSLTimerFired := false }
  else
    let now ← nowms
    modify fun s => { s with
      mSSLTimerInt := int_ms + now, mSSLTimerFin := fin_ms + now, mSSLTimerFired := false }

/-- `SSLGetTimerCallback`, which notes that the final delay has passed. -/
def sslGetTimerCallback : CE Int := do
  let s ← get
  if s.mSSLTimerFin = 0 then
    -- cancelled
    pure (-1)
  else
    let now ← nowms
    if s.mSSLTimerFin ≤ now then
      -- both delays are over
      pure 2
    else if s.mSSLTimerInt ≤ now then
      -- only the intermediate one is
      pure 1
    else
      pure 0

/-- The settings of the timer that mbedTLS makes inside one of its functions. -/
def runTimerCalls : TimerCalls → CE Unit
  | [] => pure ()
  | t :: ts => do
    sslSetTimerCallback t.1 t.2
    runTimerCalls ts

/-- `mbedtls_ssl_session_reset`, with the timer calls that it makes. -/
def mbedtlsSslSessionReset : CE Unit := do
  let ts ← ask .mbedtlsSslSessionReset
  runTimerCalls ts

/-! ## Root certificates -/

/-- `GetHeap` and `SetHeap`. -/
def setHeap (h : HeapRef) : CE Unit := modify fun s => { s with currentHeap := h }

/-- `NewVMHeap(0, ROOT_CERTIFICATES_HEAP_SIZE, &mRootCertificatesHeap, 0)`. -/
def newVMHeap : CE Int := do
  let a ← ask .newVMHeap
  if a.1 = 0 then
    modify fun s => { s with mRootCertificatesHeap := some a.2 }
  pure a.1

/-- `mbedtls_x509_crt_parse(&mSSLCAChain, buf, len)`. -/
def mbedtlsX509CrtParse (buf : List Byte) : CE Int := do
  match ← ask (.mbedtlsX509CrtParse buf) with
  | .exception => Code.raise
  | .parsed result added =>
    modify fun s => { s with mSSLCAChain := s.mSSLCAChain ++ added }
    pure result

/-- The C string at the start of a buffer and what follows its terminator. -/
def splitName : List Byte → Option (List Byte × List Byte)
  | [] => none
  | c :: rest =>
    if c = 0 then some ([], rest)
    else (splitName rest).map fun p => (c :: p.1, p.2)

/-- `cert` after `GetRootCertificate` has copied into it. -/
def blockAfter (cert : Block) : Option (List Byte) → Block
  | some bs => { cert with bytes := bs ++ cert.bytes.drop bs.length }
  | none => cert

/-- `certSize` after `GetRootCertificate`. -/
def sizeAfter (certPtrSize : ℕ) : Option (List Byte) → ℕ
  | some bs => bs.length
  | none => certPtrSize

/-- `while (name < bufEnd)`: the names from `name` up to `bufEnd` are left, and
`cert` is a block of `certPtrSize` bytes.  Gives back the last block. -/
def loadNames : ℕ → List Byte → Block → ℕ → CE Block
  | _, [], cert, _ => pure cert
  | 0, _ :: _, _, _ => Code.halt Fault.outOfFuel
  | fuel + 1, c :: names, cert, certPtrSize =>
    match splitName (c :: names) with
    -- `strlen` runs past `bufEnd`
    | none => Code.halt Fault.overread
    | some (name, rest) => do
      let a ← ask (.getRootCertificate name certPtrSize)
      let cert := blockAfter cert a.copied
      let certSize := sizeAfter certPtrSize a.copied
      if 0 ≤ a.result then
        if certSize < a.result.toNat then
          -- the block is too small: grow it and look the same name up again
          disposPtr cert
          let cert ← newPtr a.result.toNat
          loadNames fuel (c :: names) cert a.result.toNat
        else
          -- a certificate that cannot be parsed is passed over
          let _ ← mbedtlsX509CrtParse (cert.bytes.take certSize)
          loadNames fuel rest cert certPtrSize
      else
        -- so is one that cannot be looked up
        loadNames fuel rest cert certPtrSize

/-- The protected region of `SSLConfigure`: list the root certificates and parse
them one by one.  `some r` is an early `return r`. -/
def loadListed (fuel : ℕ) : CE (Option Int) := do
  let a ← ask (.listRootCertificates none)
  if a.result < 0 then
    pure (some a.result)
  else
    -- the store is not locked between the two listings
    let list ← newPtr a.result.toNat
    let a' ← ask (.listRootCertificates (some a.result.toNat))
    if a'.result < 0 then
      disposPtr list
      pure (some a'.result)
    else
      let cert ← newPtr 0
      let cert ← loadNames fuel a'.written cert 0
      disposPtr cert
      disposPtr list
      pure none

/-- The end of the protected region: a `return` leaves it without its `on_unwind`
part. -/
def leaveRegion (callerHeap : HeapRef) : Option Int → CE (Option Int)
  | some r => pure (some r)
  | none => do
    setHeap callerHeap
    pure none

/-- The region of `SSLConfigure` between `SetHeap(mRootCertificatesHeap)` and
`end_unwind`. -/
def loadInHeap (fuel : ℕ) : CE (Option Int) := do
  let s ← get
  let callerHeap := s.currentHeap
  setHeap s.mRootCertificatesHeap
  let early ← (loadListed fuel).onRaise (setHeap callerHeap)
  leaveRegion callerHeap early

/-- The part of `SSLConfigure` under `if (mSSLLoadRootCertificates)`. -/
def loadRootCertificates (fuel : ℕ) : CE (Option Int) := do
  if (← get).mRootCertificatesHeap = none then
    let _ ← newVMHeap
  loadInHeap fuel

/-! ## Configuration -/

/-- `if (mSSLHostname)` in `SSLConfigure`. -/
def passHostname : Option Block → CE Unit
  | none => pure ()
  | some h => do
    let _ ← ask (.mbedtlsSslSetHostname h.bytes)
    disposPtr h
    modify fun s => { s with mSSLHostname := none }

/-- The message, the lists and the flags of a new configuration. -/
def setUpFields : CE Int := do
  let msg ← freshPtr
  let _ ← ask (.newAsyncMessage msg)
  let put ← newBufferList
  let send ← newBufferList
  let getl ← newBufferList
  modify fun s => { s with
    mAsyncReadMessage := some msg
    mPutDataBuffer := some put
    mSendBuffer := some send
    mSendPending := false
    mSendError := 0
    mGetDataBuffer := some getl
    mSSLRecvBuffer := none
    mSSLRecvBufferSize := 0
    mRecvPending := false
    mSSLReceiveInProgress := false
    mRecvError := 0
    mSSLConfigured := true
    mEstablished := false
    mClosing := false
    mPeerClosed := false
    mSSLReadBuffer := none
    mSSLReadBufferSize := 0 }
  let _ ← ask .sslConfigured
  pure 0

/-- `SSLConfigure` from `mbedtls_ssl_config_defaults` on: nothing fails any more. -/
def setUpSSL : CE Int := do
  let s ← get
  let _ ← ask .mbedtlsSslConfigDefaults
  let _ ← ask .mbedtlsSslConfRng
  let _ ← ask (.mbedtlsSslConfCaChain s.mSSLCAChain)
  let _ ← ask (.mbedtlsSslConfAuthmode s.mSSLAuthMode)
  let _ ← ask .mbedtlsSslSetup
  let _ ← ask .mbedtlsSslSetBio
  let ts ← ask .mbedtlsSslSetTimerCb
  runTimerCalls ts
  passHostname s.mSSLHostname
  setUpFields

/-- `SSLConfigure`: the root certificates are loaded when the option for them has not been given,
and then the session is set up. -/
def sslConfigure (fuel : ℕ) : CE Int := do
  let _ ← ask .getConnectionEndPort
  let _ ← ask .mbedtlsEntropyAddSource
  let serialNumber ← ask .getSerialNumber
  let r ← ask (.mbedtlsCtrDrbgSeed serialNumber)
  if r ≠ 0 then
    pure r
  else
    let s ← get
    let early ← if s.mSSLLoadRootCertificates then loadRootCertificates fuel else pure none
    early.elim setUpSSL pure

/-- Delete a buffer list unless it is NULL. -/
def deleteList : Option OwnList → CE Unit
  | some l => ask (.deleteBufferList l.ptr)
  | none => pure ()

/-- Dispose of a block unless it is NULL. -/
def disposBlock : Option Block → CE Unit
  | some b => disposPtr b
  | none => pure ()

/-- Delete the message unless it is NULL. -/
def deleteMessage : Option ℕ → CE Unit
  | some p => ask (.deleteAsyncMessage p)
  | none => pure ()

/-- `SSLUnconfigure`, which releases the buffers and the contexts of the session. -/
def sslUnconfigure : CE Unit := do
  let s ← get
  deleteList s.mPutDataBuffer
  deleteList s.mSendBuffer
  deleteList s.mGetDataBuffer
  disposBlock s.mSSLRecvBuffer
  disposBlock s.mSSLReadBuffer
  deleteMessage s.mAsyncReadMessage
  disposBlock s.mSSLHostname
  set { s with
    mPutDataBuffer := none
    mSendBuffer := none
    mGetDataBuffer := none
    mSSLRecvBuffer := none
    mSSLReadBuffer := none
    mAsyncReadMessage := none
    mSSLHostname := none
    mSSLConfigured := false }

/-! ## Handshake and reading -/

/-- `DoSSLHandshake`: its result is reported, unless it has to wait. -/
def doSSLHandshake : CE Unit := do
  let r ← Code.call (S := CESig) .mbedtlsSslHandshake
  if r = 0 then
    modify fun s => { s with mEstablished := true }
    if (← get).mUpgradable then
      -- who has started it is told: the option, or the connect
      client (.processOptionComplete .opSuccess)
    else
      client (.connectComplete (.code 0))
  else if r ≠ MBEDTLS_ERR_SSL_WANT_READ ∧ r ≠ MBEDTLS_ERR_SSL_WANT_WRITE then
    -- it is up to a wake-up to go on when bytes are wanted
    modify fun s => { s with mEstablished := false, mClosing := true }
    mbedtlsSslSessionReset
    client (.connectComplete (.code r))

/-- `clientBuffer->Putn(mSSLReadBuffer, mSSLReadCount)`, after which the read
buffer is disposed of. -/
def putnReadBuffer (clientBuffer : ListRef) (buf : Block) : CE Unit := do
  let s ← get
  match clientBuffer with
  | .client b =>
    let _ ← ask (.listPutn b (buf.bytes.take s.mSSLReadCount))
    disposPtr buf
    modify fun s => { s with mSSLReadBuffer := none, mSSLReadBufferSize := 0 }
  | _ => Code.halt Fault.nullPointer

/-- The last branch of `DoSSLRead`: `mbedtls_ssl_read` failed with `r`. -/
def readFails (clientBuffer : ListRef) (r : Int) : CE Unit := do
  -- the two ways in which a stream ends are no errors
  let err : Int ←
    if r = MBEDTLS_ERR_SSL_PEER_CLOSE_NOTIFY then do
      let _ ← Code.call (S := CESig) .mbedtlsSslCloseNotify
      pure 0
    else if r = MBEDTLS_ERR_SSL_CONN_EOF then
      pure 0
    else
      pure r
  modify fun s => { s with mEstablished := false, mClosing := true }
  let s ← get
  if 0 < s.mSSLReadCount then
    -- what has been read before is not lost
    let buf ← deref s.mSSLReadBuffer
    putnReadBuffer clientBuffer buf
  mbedtlsSslSessionReset
  client (.getComplete (.code err) true s.mSSLReadCount)

/-- The bytes of a block after `bs` has been written at offset `start`. -/
def writeAt (bytes : List Byte) (start : ℕ) (bs : List Byte) : List Byte :=
  bytes.take start ++ bs ++ bytes.drop (start + bs.length)

/-- `DoSSLRead`: one round for each call of `mbedtls_ssl_read`. -/
def doSSLRead : ℕ → ListRef → Int → CE Unit
  | 0, _, _ => Code.halt Fault.outOfFuel
  | fuel + 1, clientBuffer, threshold => do
    let s ← get
    let r ← Code.call (S := CESig) (.mbedtlsSslRead (s.mSSLReadBufferSize - s.mSSLReadCount))
    match r with
    | .ok bs =>
      let buf ← deref (← get).mSSLReadBuffer
      modify fun s => { s with
        mSSLReadBuffer := some { buf with bytes := writeAt buf.bytes s.mSSLReadCount bs }
        mSSLReadCount := s.mSSLReadCount + bs.length }
      let s ← get
      -- `GetComplete` comes before the count is reset, and may call back
      if threshold ≤ (s.mSSLReadCount : Int) then
        let buf ← deref s.mSSLReadBuffer
        putnReadBuffer clientBuffer buf
        client (.getComplete (.code 0) true s.mSSLReadCount)
        modify fun s => { s with mSSLReadCount := 0 }
      else
        doSSLRead fuel clientBuffer threshold
    | .error e =>
      if e = MBEDTLS_ERR_SSL_WANT_READ ∨ e = MBEDTLS_ERR_SSL_WANT_WRITE then
        -- the read stays open
        pure ()
      else
        readFails clientBuffer e

/-! ## Requests of the client -/

/-- `OpenStart`, which does not reset the fields of the last session. -/
def openStart : CE Unit := do
  modify fun s => { s with mSSLEnabled := false, mSSLConfigured := false }
  inner .openStart

/-- `CloseStart`: the inner connection end closes first. -/
def closeStart : CE Unit := do
  inner .closeStart
  if (← get).mSSLConfigured then
    sslUnconfigure

/-- `ConnectStart`: when SSL is enabled it is configured first. -/
def connectStart (fuel : ℕ) : CE Unit := do
  if (← get).mSSLEnabled then
    let r ← sslConfigure fuel
    if r ≠ 0 then
      client (.connectComplete (.code r))
    else
      inner .connectStart
  else
    inner .connectStart

/-- `TerminateStart`, which notifies the peer of an established session. -/
def terminateStart : CE Unit := do
  let s ← get
  if s.mSSLConfigured ∧ s.mEstablished then
    let _ ← Code.call (S := CESig) .mbedtlsSslCloseNotify
    modify fun s => { s with mEstablished := false, mClosing := true }
  inner .terminateStart

/-- The branch of `PutBytesStart` that sends to SSL. -/
def putToSSL (clientBuffer : ℕ) : CE Unit := do
  let totalSize ← ask (.listGetSize clientBuffer)
  let pos ← ask (.listPosition clientBuffer)
  let buf ← ask (.listGetn clientBuffer (totalSize - pos))
  let len := buf.length
  let r ← Code.call (S := CESig) (.mbedtlsSslWrite buf)
  if 0 ≤ r then
    if r < len then
      -- what SSL has not taken stays in front of the position
      let _ ← ask (.listSeek clientBuffer (pos + r) (-1))
    client (.putComplete (.code 0) r.toNat)
  else
    modify fun s => { s with mEstablished := false }
    mbedtlsSslSessionReset
    client (.putComplete .kCommErrConnectionAborted 0)

/-- `PutBytesStart`: with SSL it completes at once, and fails when there is no session. -/
def putBytesStart (clientBuffer : ℕ) : CE Unit := do
  let s ← get
  if s.mSSLConfigured then
    if s.mClosing then
      client (.putComplete .kCommErrConnectionAborted 0)
    else if s.mEstablished then
      putToSSL clientBuffer
    else
      client (.putComplete .kCommErrNotConnected 0)
  else
    inner (.putBytesStart (.client clientBuffer))

/-- A request that SSL does not implement: refused when SSL is configured, passed
on otherwise. -/
def unlessConfigured (refuse : ClientCall) (request : InnerCall) : CE Unit := do
  if (← get).mSSLConfigured then
    client refuse
  else
    inner request

/-- `PutFramedBytesStart`, which is not implemented with SSL. -/
def putFramedBytesStart (clientBuffer : ℕ) (endOfFrame : Bool) : CE Unit :=
  unlessConfigured (.putComplete .kCommErrMethodNotImplemented 0)
    (.putFramedBytesStart (.client clientBuffer) endOfFrame)

/-- `KillPutStart`, which is not implemented with SSL. -/
def killPutStart : CE Unit :=
  unlessConfigured (.killPutComplete .kCommErrMethodNotImplemented) .killPutStart

/-- `GetFramedBytesStart`, which is not implemented with SSL. -/
def getFramedBytesStart (clientBuffer : ℕ) : CE Unit :=
  unlessConfigured (.getComplete .kCommErrMethodNotImplemented false 0)
    (.getFramedBytesStart (.client clientBuffer))

/-- `KillGetStart`, which is not implemented with SSL. -/
def killGetStart : CE Unit :=
  unlessConfigured (.killGetComplete .kCommErrMethodNotImplemented) .killGetStart

/-- What `GetBytesStart` and `GetBytesImmediateStart` do when SSL is configured. -/
def getFromSSL (fuel : ℕ) (clientBuffer : ℕ) (threshold : Int) : CE Unit := do
  let s ← get
  if s.mEstablished then
    match s.mSSLReadBuffer with
    -- the read buffer is also the mark of a read that is open
    | some _ => client (.getComplete .kCommErrCommandInProgress false 0)
    | none =>
      let totalSize ← ask (.listGetSize clientBuffer)
      let pos ← ask (.listPosition clientBuffer)
      modify fun s => { s with mSSLReadBufferSize := totalSize - pos }
      let buf ← newPtr (totalSize - pos)
      modify fun s => { s with mSSLReadBuffer := some buf, mSSLReadCount := 0 }
      doSSLRead fuel (.client clientBuffer) threshold
  else
    client (.getComplete .kCommErrNotConnected false 0)

/-- `GetBytesStart`: with SSL it completes as soon as there is something. -/
def getBytesStart (fuel : ℕ) (clientBuffer : ℕ) : CE Unit := do
  if (← get).mSSLConfigured then
    getFromSSL fuel clientBuffer 0
  else
    inner (.getBytesStart (.client clientBuffer))

/-- `GetBytesImmediateStart`, with a threshold. -/
def getBytesImmediateStart (fuel : ℕ) (clientBuffer : ℕ) (threshold : Int) : CE Unit := do
  if (← get).mSSLConfigured then
    getFromSSL fuel clientBuffer threshold
  else
    inner (.getBytesImmediateStart (.client clientBuffer) threshold)

/-- `nowms` is what `GetGlobalTime` gives. -/
def handleTimerTick (nowms : UInt32) : CE Unit := do
  let s ← get
  if s.mSSLConfigured ∧ !s.mEstablished ∧ !s.mClosing ∧ s.mSSLTimerFin ≠ 0 ∧
      !s.mSSLTimerFired then
    if s.mSSLTimerFin ≤ nowms then
      -- the intermediate delay does not retry
      doSSLHandshake
  inner .handleTimerTick

/-- `retry read` in `HandleRequest`. -/
def retryRead (fuel : ℕ) : CE Unit := do
  let nonBlocking ← ask .getCurGetNonBlocking
  let threshold ← if nonBlocking then ask .getCurGetThreshold else pure 0
  let clientBuffer ← ask .getCurGetData
  doSSLRead fuel clientBuffer threshold

/-- What a TLS wake-up message does: retry the handshake or the read. -/
def retry (fuel : ℕ) : CE Unit := do
  let s ← get
  if !s.mClosing then
    if !s.mEstablished then
      doSSLHandshake
    else if s.mSSLReadBuffer.isSome then
      retryRead fuel

/-- `HandleRequest`: its own message wakes the connection end up, any other goes to the inner one.
-/
def handleRequest (fuel : ℕ) (msgType : MsgType) : CE Unit := do
  match msgType with
  | .kAsyncReadMessageType =>
    retry fuel
    client (.handleRequest msgType)
  | .other _ => inner (.handleRequest msgType)

/-! ## Options -/

/-- `strlen` and the bytes up to it. -/
def cString (bytes : List Byte) : List Byte := bytes.takeWhile (· ≠ 0)

/-- `kSSLEnableLabel`: on a connection that is open already it begins an upgrade. -/
def sslEnableOption (fuel : ℕ) (enabled : Bool) : CE OptionResult := do
  modify fun s => { s with mSSLEnabled := enabled }
  let s ← get
  if s.mUpgradable ∧ s.mSSLEnabled then
    let r ← sslConfigure fuel
    if r = 0 then
      let _ ← ask (.handshakeBegins .option)
      doSSLHandshake
      pure .opInProgress
    else
      pure .opFailure
  else
    pure .opSuccess

/-- `kSSLHostnameLabel`: a second name is ignored. -/
def sslHostnameOption (hostname : List Byte) : CE OptionResult := do
  -- the first hostname stays, and the option has succeeded all the same
  match (← get).mSSLHostname with
  | some _ => pure .opSuccess
  | none =>
    let b ← newPtr ((cString hostname).length + 1)
    modify fun s => { s with mSSLHostname := some { b with bytes := cString hostname ++ [0] } }
    pure .opSuccess

/-- `kSSLVerifyModeLabel`: without verification no root certificates are loaded. -/
def sslVerifyModeOption (verifyMode : UInt32) : CE OptionResult := do
  modify fun s => { s with mSSLAuthMode := verifyMode }
  if verifyMode = MBEDTLS_SSL_VERIFY_NONE then
    modify fun s => { s with mSSLLoadRootCertificates := false }
  pure .opSuccess

/-- The region of the certificate-authority option under `SetHeap`. -/
def parseAuthority (o : TCMOSSLCertificate) : CE OptionResult := do
  let s ← get
  let callerHeap := s.currentHeap
  setHeap s.mRootCertificatesHeap
  let result ← (mbedtlsX509CrtParse (o.certificate.take o.length.toNat)).onRaise
    (setHeap callerHeap)
  setHeap callerHeap
  if result < 0 then
    pure .opFailure
  else
    pure .opSuccess

/-- `kSSLCertificateAuthorityLabel`: the certificate is added to the chain of trust anchors. -/
def sslCertificateAuthorityOption (o : TCMOSSLCertificate) : CE OptionResult := do
  -- the flag is cleared before anything can fail
  modify fun s => { s with mSSLLoadRootCertificates := false }
  let theErr ← if (← get).mRootCertificatesHeap = none then newVMHeap else pure 0
  if theErr ≠ 0 then
    pure (.error theErr)
  else
    parseAuthority o

/-- `while (ix > 0)`: the certificate at index `ix`, `none` past the end of the
chain. An empty chain is a NULL pointer. -/
def peerCertAt : List Certificate → ℕ → CE (Option Certificate)
  | [], _ => Code.halt Fault.nullPointer
  | c :: _, 0 => pure (some c)
  | [_], _ + 1 => pure none
  | _ :: c :: rest, ix + 1 => peerCertAt (c :: rest) ix

/-- `kSSLPeerCertificateLabel`, which gives the certificate back in the option. -/
def sslPeerCertificateOption (o : TCMOSSLCertificate) :
    CE (OptionResult × TCMOSSLCertificate) := do
  let s ← get
  if s.mSSLConfigured ∧ s.mEstablished then
    let chain ← ask .mbedtlsSslGetPeerCert
    match ← peerCertAt chain o.indexInChain.toNat with
    | none => pure (.opFailure, o)
    | some c =>
      let certSize := UInt32.ofNat c.length
      let copied := if certSize ≤ o.length then c ++ o.certificate.drop c.length
        else o.certificate
      pure (.opSuccess, { o with length := certSize, certificate := copied })
  else
    pure (.opNotSupported, o)

/-- `ProcessOptionStart`: the option and its result. -/
def processOptionStart (fuel : ℕ) (theOption : TOption) : CE (OptionResult × TOption) := do
  match theOption with
  | .sslEnable enabled =>
    let r ← sslEnableOption fuel enabled
    pure (r, theOption)
  | .sslHostname hostname =>
    let r ← sslHostnameOption hostname
    pure (r, theOption)
  | .sslVerifyMode verifyMode =>
    let r ← sslVerifyModeOption verifyMode
    pure (r, theOption)
  | .sslCertificateAuthority o =>
    let r ← sslCertificateAuthorityOption o
    pure (r, theOption)
  | .sslPeerCertificate o =>
    let p ← sslPeerCertificateOption o
    pure (p.1, .sslPeerCertificate p.2)
  | .other _ =>
    let r ← Code.call (S := CESig) (.inner (.processOptionStart theOption))
    pure (r, theOption)

/-- `Delete`, from which there is no way back. -/
def delete {α : Type} : CE α := do
  if (← get).mSSLConfigured then
    sslUnconfigure
  let _ ← ask .freeContexts
  match (← get).mRootCertificatesHeap with
  | none => pure ()
  | some h =>
    let _ ← ask (.destroyVMHeap h)
    modify fun s => { s with mRootCertificatesHeap := none }
  inner .delete
  client .delete
  Code.halt Fault.freed

/-! ## Callbacks of the inner end -/

/-- `ConnectCompleteCB`: the handshake follows, or an upgrade becomes possible. -/
def connectCompleteCB (result : Int) : CE Unit := do
  if (← get).mSSLEnabled ∧ result = 0 then
    let _ ← ask (.handshakeBegins .connect)
    doSSLHandshake
  else
    if result = 0 then
      -- a connection without SSL, which an option can upgrade
      modify fun s => { s with mUpgradable := true }
    client (.connectComplete (.code result))

/-- The inner end has read `n` bytes of the list `of`. -/
def innerReads (of : ListRef) (n : ℕ) (s : ConnectionEnd) : ConnectionEnd :=
  match s.mPutDataBuffer with
  | some l =>
    if of = .own l.ptr then { s with mPutDataBuffer := some { l with list := l.list.skip n } }
    else s
  | none => s

/-- The inner end has written `bs` into the list `of`. -/
def innerWrites (of : ListRef) (bs : List Byte) (s : ConnectionEnd) : ConnectionEnd :=
  match s.mGetDataBuffer with
  | some l =>
    if of = .own l.ptr then { s with mGetDataBuffer := some { l with list := l.list.putn bs } }
    else s
  | none => s

/-- Pass `mPutDataBuffer` to the inner end. -/
def putPutDataBuffer : CE Unit := do
  modify fun s => { s with mSendPending := true }
  let s ← get
  inner (.putBytesStart (listRef s.mPutDataBuffer))

/-- `PutCompleteCB`. -/
def putCompleteCB (result : Int) (putBytesCount : ℕ) : CE Unit := do
  if (← get).mSSLConfigured then
    modify fun s => { s with mSendPending := false }
    if result ≠ 0 then
      modify fun s => { s with mSendError := result }
    else
      let put ← deref (← get).mPutDataBuffer
      -- all of it is gone: what was queued meanwhile comes next
      if put.list.atEOF then
        let send ← deref (← get).mSendBuffer
        let moved := BufferList.moveAll send.list put.list.deleteAll
        modify fun s => { s with
          mSendBuffer := some { send with list := moved.1 }
          mPutDataBuffer := some { put with list := moved.2 } }
        if send.list.first.isSome then
          putPutDataBuffer
      else
        putPutDataBuffer
  -- the inner end has taken a part only
  else
    client (.putComplete (.code result) putBytesCount)

/-- What `GetCompleteCB` does with data: append it to `mSSLRecvBuffer`. -/
def appendReceived (getBytesCount : ℕ) : CE Unit := do
  let s ← get
  let buf ← match s.mSSLRecvBuffer with
    | some b => reallocPtr b (s.mSSLRecvBufferSize + getBytesCount)
    | none => newPtr getBytesCount
  let size := if s.mSSLRecvBuffer.isSome then s.mSSLRecvBufferSize else 0
  let getl ← deref s.mGetDataBuffer
  let data := (getl.list.reset.getn getBytesCount).1
  modify fun s => { s with
    mSSLRecvBuffer := some { buf with bytes := writeAt buf.bytes size data }
    mGetDataBuffer := some { getl with list := getl.list.deleteAll }
    mSSLRecvBufferSize := size + getBytesCount }

/-- `GetCompleteCB`. -/
def getCompleteCB (result : Int) (endOfFrame : Bool) (getBytesCount : ℕ) : CE Unit := do
  if (← get).mSSLConfigured then
    modify fun s => { s with mRecvPending := false }
    if result = 0 then
      if getBytesCount = 0 then
        -- no bytes is how the inner end tells that the peer has closed
        modify fun s => { s with mPeerClosed := true }
      else
        appendReceived getBytesCount
    else
      modify fun s => { s with mRecvError := result }
    -- inside `SSLRecvCallback` nobody needs to be woken up
    if !(← get).mSSLReceiveInProgress then
      let _ ← ask .sendAsyncReadMessage
  else
    client (.getComplete (.code result) endOfFrame getBytesCount)

/-- A getter of the inner end: `own` of the state when SSL is configured, the
client's answer to `q` otherwise. -/
def configuredOr (own : ConnectionEnd → Value) (q : Query) (answer : q.Answer → Value) :
    CE Value := do
  let s ← get
  if s.mSSLConfigured then
    pure (own s)
  else
    let a ← ask q
    pure (answer a)

/-- `GetCurPutDataCB`: the list of the connection end when SSL is configured. -/
def getCurPutDataCB : CE Value :=
  configuredOr (fun s => .list (listRef s.mPutDataBuffer)) .getCurPutData .list

/-- `GetCurPutFrameDataCB`. -/
def getCurPutFrameDataCB : CE Value :=
  configuredOr (fun _ => .bool false) .getCurPutFrameData .bool

/-- `GetCurPutEndOfFrameCB`. -/
def getCurPutEndOfFrameCB : CE Value :=
  configuredOr (fun _ => .bool false) .getCurPutEndOfFrame .bool

/-- `GetCurGetDataCB`: the list of the connection end when SSL is configured. -/
def getCurGetDataCB : CE Value :=
  configuredOr (fun s => .list (listRef s.mGetDataBuffer)) .getCurGetData .list

/-- `GetCurGetFrameDataCB`. -/
def getCurGetFrameDataCB : CE Value :=
  configuredOr (fun _ => .bool false) .getCurGetFrameData .bool

/-- `GetCurGetNonBlockingCB`. -/
def getCurGetNonBlockingCB : CE Value :=
  configuredOr (fun _ => .bool false) .getCurGetNonBlocking .bool

/-- `GetCurGetThresholdCB`. -/
def getCurGetThresholdCB : CE Value :=
  configuredOr (fun _ => .int 0) .getCurGetThreshold .int

/-! ## Callbacks of mbedTLS -/

/-- `SSLSendCallback`: one put at a time, and the rest has to wait. -/
def sslSendCallback (buf : List Byte) : CE Int := do
  let s ← get
  if s.mSendError ≠ 0 then
    pure s.mSendError
  else
    let send ← deref s.mSendBuffer
    let _ ← ask (.sslAccepts buf)
    let queued := send.list.insertLast buf
    if s.mSendPending then
      -- behind the put that is under way
      modify fun s => { s with mSendBuffer := some { send with list := queued } }
    else
      let put ← deref s.mPutDataBuffer
      let moved := BufferList.moveAll queued put.list
      modify fun s => { s with
        mSendBuffer := some { send with list := moved.1 }
        mPutDataBuffer := some { put with list := moved.2 } }
      putPutDataBuffer
    pure buf.length

/-- The end of `SSLRecvCallback`: hand out up to `len` of the bytes received. -/
def takeReceived (len : ℕ) : CE Value := do
  let s ← get
  let buf ← deref s.mSSLRecvBuffer
  let copied := if len < s.mSSLRecvBufferSize then len else s.mSSLRecvBufferSize
  if copied = s.mSSLRecvBufferSize then
    disposPtr buf
    modify fun s => { s with mSSLRecvBuffer := none, mSSLRecvBufferSize := 0 }
  else
    -- the source of the move starts `mSSLRecvBufferSize` bytes into the block,
    -- where the block ends
    let junk ← ask (.bytesBehindBlock buf.ptr (s.mSSLRecvBufferSize - copied))
    let moved := (List.range (s.mSSLRecvBufferSize - copied)).map junk
    let buf' ← reallocPtr { buf with bytes := writeAt buf.bytes 0 moved }
      (s.mSSLRecvBufferSize - copied)
    modify fun s => { s with
      mSSLRecvBuffer := some buf', mSSLRecvBufferSize := s.mSSLRecvBufferSize - copied }
  pure (.recv copied (buf.bytes.take copied))

/-- `SSLRecvCallback`: the result, and the bytes that are written to the buffer of mbedTLS. -/
def sslRecvCallback (len : ℕ) : CE Value := do
  let s ← get
  if s.mRecvError ≠ 0 then
    pure (.recv s.mRecvError [])
  else if s.mPeerClosed then
    pure (.recv 0 [])
  else
    -- ask the inner end for the rest; it may answer before it returns
    if s.mSSLRecvBufferSize < len ∧ !s.mRecvPending then
      let getl ← deref s.mGetDataBuffer
      let segment := List.replicate (len - s.mSSLRecvBufferSize) 0
      modify fun s => { s with
        mRecvPending := true
        mGetDataBuffer := some { getl with list := getl.list.insertLast segment }
        mSSLReceiveInProgress := true }
      inner (.getBytesImmediateStart (.own getl.ptr) 1)
      modify fun s => { s with mSSLReceiveInProgress := false }
    let s ← get
    if s.mRecvError ≠ 0 then
      pure (.recv s.mRecvError [])
    -- so look again at what there is now
    else if s.mSSLRecvBufferSize = 0 then
      pure (.recv MBEDTLS_ERR_SSL_WANT_READ [])
    else
      takeReceived len

/-! ## The component -/

/-- Run code that returns nothing. -/
def unit (m : CE Unit) : CE Value := do
  m
  pure .unit

/-- The body of an entry point. -/
def code (fuel : ℕ) : Entry → CE Value
  | .openStart => unit openStart
  | .closeStart => unit closeStart
  | .connectStart => unit (connectStart fuel)
  | .terminateStart => unit terminateStart
  | .putBytesStart b => unit (putBytesStart b)
  | .putFramedBytesStart b eof => unit (putFramedBytesStart b eof)
  | .killPutStart => unit killPutStart
  | .getBytesStart b => unit (getBytesStart fuel b)
  | .getFramedBytesStart b => unit (getFramedBytesStart b)
  | .getBytesImmediateStart b threshold => unit (getBytesImmediateStart fuel b threshold)
  | .killGetStart => unit killGetStart
  | .handleTimerTick nowms => unit (handleTimerTick nowms)
  | .handleRequest msgType => unit (handleRequest fuel msgType)
  | .processOptionStart o => do
    let p ← processOptionStart fuel o
    pure (.option p.1 p.2)
  | .plainRequest r => unit (inner (.plain r))
  | .delete => delete
  | .connectCompleteCB result => unit (connectCompleteCB result)
  | .putCompleteCB of bs result count => do
    modify (innerReads of bs.length)
    unit (putCompleteCB result count)
  | .getCompleteCB of bs result eof count => do
    modify (innerWrites of bs)
    unit (getCompleteCB result eof count)
  | .getCurPutDataCB => getCurPutDataCB
  | .getCurPutFrameDataCB => getCurPutFrameDataCB
  | .getCurPutEndOfFrameCB => getCurPutEndOfFrameCB
  | .getCurGetDataCB => getCurGetDataCB
  | .getCurGetFrameDataCB => getCurGetFrameDataCB
  | .getCurGetNonBlockingCB => getCurGetNonBlockingCB
  | .getCurGetThresholdCB => getCurGetThresholdCB
  | .plainCallback cb => unit (client (.plain cb))
  | .sslSendCallback buf => do
    let r ← sslSendCallback buf
    pure (.int r)
  | .sslRecvCallback len => sslRecvCallback len
  | .sslSetTimerCallback i f => unit (sslSetTimerCallback i f)
  | .sslGetTimerCallback => do
    let r ← sslGetTimerCallback
    pure (.int r)

/-- The object `New` makes of the memory it is given: the fields that `New` does
not set keep what was there. -/
def new (memory : ConnectionEnd) : ConnectionEnd :=
  { memory with
    mSSLConfigured := false
    mUpgradable := false
    mPutDataBuffer := none
    mGetDataBuffer := none
    mSendBuffer := none
    mSSLRecvBuffer := none
    mSSLReadBuffer := none
    mAsyncReadMessage := none
    mSSLHostname := none
    mSSLAuthMode := MBEDTLS_SSL_VERIFY_REQUIRED
    mSSLCAChain := []
    mSSLLoadRootCertificates := true
    mRootCertificatesHeap := none }

end NewtonTLS
