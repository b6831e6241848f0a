/-
# The connection end and what it talks to

The data model of `PMbedTLSConnectionEnd` (`Protocol/PMbedTLSConnectionEnd.impl.h`):
its fields, its entry points, and the three parties it exchanges calls with,

* the inner end (`mInetPConnectionEnd`, the TCP end of NIE) and its callbacks,
* the client's callback object (`mInetCECallBack`),
* mbedTLS, whose `ssl` functions call `SSLSendCallback`, `SSLRecvCallback` and
  the timer callbacks back.

What cannot call back (configuration of mbedTLS, the Newton task, the heap, the
clock, the client's buffer lists) is a question answered on the spot.
-/
import NewtonTLS.Reentrant
import NewtonTLS.BufferList

open Reentrant

namespace NewtonTLS

/-! ## Values -/

/-- A byte of a stream. -/
abbrev Byte : Type := UInt8

/-- A parsed X.509 certificate, as its raw DER bytes. -/
abbrev Certificate : Type := List Byte

/-- A heap, or NULL. -/
abbrev HeapRef : Type := Option ℕ

/-- A result handed to the client or reported by the inner end: a number (`0` is
`noErr`) or one of the codes of `CommErrors.h` this component makes itself. -/
inductive NewtonErr : Type where
  | code (n : Int)
  | kCommErrConnectionAborted
  | kCommErrNotConnected
  | kCommErrCommandInProgress
  | kCommErrMethodNotImplemented
  deriving DecidableEq, Repr

/-- The result of an option call. -/
inductive OptionResult : Type where
  | opSuccess
  | opFailure
  | opNotSupported
  | opInProgress
  | error (n : Int)
  deriving DecidableEq, Repr

/-- A pointer to a `CBufferList`: one of the client's, one allocated here, or
NULL. -/
inductive ListRef : Type where
  | client (b : ℕ)
  | own (p : ℕ)
  | null
  deriving DecidableEq, Repr

/-- A block of the heap and what it holds. -/
structure Block : Type where
  ptr : ℕ
  bytes : List Byte
  deriving DecidableEq, Repr

/-- An allocated `CBufferList` of this component and what it holds. -/
structure OwnList : Type where
  ptr : ℕ
  list : BufferList Byte
  deriving DecidableEq, Repr

/-- `TCMOSSLCertificate`, the option record of two labels. -/
structure TCMOSSLCertificate : Type where
  length : UInt32
  indexInChain : UInt32
  certificate : List Byte
  deriving DecidableEq, Repr

/-- An option with its label (`Protocol/PMbedTLSCEOptions.h`). -/
inductive TOption : Type where
  | sslEnable (enabled : Bool)
  | sslHostname (hostname : List Byte)
  | sslVerifyMode (verifyMode : UInt32)
  | sslCertificateAuthority (o : TCMOSSLCertificate)
  | sslPeerCertificate (o : TCMOSSLCertificate)
  | other (label : UInt32)
  deriving DecidableEq, Repr

/-- The type of a message, up to `kMsgType_ReservedMask`. -/
inductive MsgType : Type where
  | kAsyncReadMessageType
  | other (t : UInt32)
  deriving DecidableEq, Repr

/-! ## Constants of mbedTLS -/

/-- There is nothing to be read yet. -/
def MBEDTLS_ERR_SSL_WANT_READ : Int := -0x6900

/-- The last put has not been completed yet. -/
def MBEDTLS_ERR_SSL_WANT_WRITE : Int := -0x6880

/-- The peer has closed the session. -/
def MBEDTLS_ERR_SSL_PEER_CLOSE_NOTIFY : Int := -0x7880

/-- The stream has ended. -/
def MBEDTLS_ERR_SSL_CONN_EOF : Int := -0x7280

/-- Certificates are not verified. -/
def MBEDTLS_SSL_VERIFY_NONE : UInt32 := 0

/-- A certificate that cannot be verified ends the handshake. -/
def MBEDTLS_SSL_VERIFY_REQUIRED : UInt32 := 2

/-! ## The object -/

/-- The fields of `PMbedTLSConnectionEnd`.  The mbedTLS contexts are behind the
questions and calls below, except for the chain of trust anchors.  `currentHeap`
is the heap of the task, `nextPtr` numbers the allocations. -/
structure ConnectionEnd : Type where
  mAsyncReadMessage : Option ℕ
  mRootCertificatesHeap : HeapRef
  mSSLEnabled : Bool
  mSSLConfigured : Bool
  mSendPending : Bool
  mRecvPending : Bool
  mSSLReceiveInProgress : Bool
  mEstablished : Bool
  mUpgradable : Bool
  mClosing : Bool
  mPeerClosed : Bool
  mSSLLoadRootCertificates : Bool
  mSSLTimerFired : Bool
  mSSLHostname : Option Block
  mSSLAuthMode : UInt32
  mSSLCAChain : List Certificate
  mPutDataBuffer : Option OwnList
  mGetDataBuffer : Option OwnList
  mSendBuffer : Option OwnList
  mSSLRecvBuffer : Option Block
  mSSLRecvBufferSize : ℕ
  mSSLReadBuffer : Option Block
  mSSLReadBufferSize : ℕ
  mSSLReadCount : ℕ
  mSendError : Int
  mRecvError : Int
  mSSLTimerInt : UInt32
  mSSLTimerFin : UInt32
  currentHeap : HeapRef
  nextPtr : ℕ

/-- The pointer a field holds. -/
def listRef : Option OwnList → ListRef
  | some l => .own l.ptr
  | none => .null

/-! ## Questions -/

/-- What `ListRootCertificates` gives back: its result and the bytes it wrote,
whose number is the new `*ioSize`. -/
structure ListAnswer : Type where
  result : Int
  written : List Byte
  deriving DecidableEq

/-- What `GetRootCertificate` gives back: its result and, when it copied a
certificate, the bytes, whose number is the new `*ioSize`. -/
structure CertAnswer : Type where
  result : Int
  copied : Option (List Byte)
  deriving DecidableEq

/-- What `mbedtls_x509_crt_parse` does: an exception of the allocator, or a
result and the certificates it appended to the chain. -/
inductive ParseAnswer : Type where
  | parsed (result : Int) (added : List Certificate)
  | exception

/-- The request that begins a handshake. -/
inductive Starter : Type where
  | connect
  | option
  deriving DecidableEq, Repr

/-- Questions to code that does not call back, and marks for the log:
`handshakeBegins` when a request (and not a retry) runs `DoSSLHandshake`,
`sslConfigured` when `SSLConfigure` returns 0, `sslAccepts` when `SSLSendCallback`
takes a buffer. -/
inductive Query : Type where
  | getConnectionEndPort
  | mbedtlsEntropyAddSource
  | getSerialNumber
  | mbedtlsCtrDrbgSeed (custom : List Byte)
  | newVMHeap
  | listRootCertificates (ioSize : Option ℕ)
  | getRootCertificate (name : List Byte) (ioSize : ℕ)
  | mbedtlsX509CrtParse (buf : List Byte)
  | mbedtlsSslConfigDefaults
  | mbedtlsSslConfRng
  | mbedtlsSslConfCaChain (chain : List Certificate)
  | mbedtlsSslConfAuthmode (mode : UInt32)
  | mbedtlsSslSetup
  | mbedtlsSslSetBio
  | mbedtlsSslSetTimerCb
  | mbedtlsSslSetHostname (hostname : List Byte)
  | mbedtlsSslSessionReset
  | mbedtlsSslGetPeerCert
  | freeContexts
  | destroyVMHeap (heap : ℕ)
  | newPtr (p : ℕ) (size : ℕ)
  | reallocPtr (p : ℕ) (size : ℕ)
  | disposPtr (p : ℕ)
  | newBufferList (p : ℕ)
  | deleteBufferList (p : ℕ)
  | newAsyncMessage (p : ℕ)
  | deleteAsyncMessage (p : ℕ)
  | bytesBehindBlock (p : ℕ) (n : ℕ)
  | sendAsyncReadMessage
  | getGlobalTime
  | getCurPutData
  | getCurPutFrameData
  | getCurPutEndOfFrame
  | getCurGetData
  | getCurGetFrameData
  | getCurGetNonBlocking
  | getCurGetThreshold
  | listGetSize (b : ℕ)
  | listPosition (b : ℕ)
  | listGetn (b : ℕ) (n : ℕ)
  | listSeek (b : ℕ) (off : Int) (dir : Int)
  | listPutn (b : ℕ) (bytes : List Byte)
  | handshakeBegins (r : Starter)
  | sslConfigured
  | sslAccepts (buf : List Byte)

/-- A setting of the timer that mbedTLS makes from inside a function that is
otherwise a question: `int_ms`, `fin_ms`. -/
abbrev TimerCalls : Type := List (UInt32 × UInt32)

/-- The answers. -/
abbrev Query.Answer : Query → Type
  | .getSerialNumber => List Byte
  | .mbedtlsCtrDrbgSeed _ => Int
  | .newVMHeap => Int × ℕ
  | .listRootCertificates _ => ListAnswer
  | .getRootCertificate _ _ => CertAnswer
  | .mbedtlsX509CrtParse _ => ParseAnswer
  | .mbedtlsSslSetTimerCb => TimerCalls
  | .mbedtlsSslSessionReset => TimerCalls
  | .mbedtlsSslGetPeerCert => List Certificate
  | .bytesBehindBlock _ _ => ℕ → Byte
  | .sendAsyncReadMessage => Int
  | .getGlobalTime => UInt32
  | .getCurPutData => ListRef
  | .getCurPutFrameData => Bool
  | .getCurPutEndOfFrame => Bool
  | .getCurGetData => ListRef
  | .getCurGetFrameData => Bool
  | .getCurGetNonBlocking => Bool
  | .getCurGetThreshold => Int
  | .listGetSize _ => ℕ
  | .listPosition _ => ℕ
  | .listGetn _ _ => List Byte
  | .listPutn _ _ => ℕ
  | _ => Unit

/-! ## Calls -/

/-- Requests of the client that go to the inner end unchanged. -/
inductive PlainRequest : Type where
  | handleInternalRequest
  | handleInternalEvent
  | bindStart
  | unbindStart
  | listenStart
  | acceptStart
  | releaseStart
  | handleReply
  | killControlStart
  | killGetCommEventStart
  | getCommEvent
  | processPutBytesOptionStart
  | processGetBytesOptionStart
  | resArbReleaseStart
  | resArbClaimNotification
  | forwardOptions
  deriving DecidableEq, Repr

/-- Callbacks of the inner end that go to the client unchanged. -/
inductive PlainCallback : Type where
  | init
  | openComplete
  | closeComplete
  | bindComplete
  | unbindComplete
  | listenComplete
  | acceptComplete
  | terminateComplete
  | killPutComplete
  | killGetComplete
  | handleRequest
  | handleReply
  | killControlComplete
  | killGetCommEventComplete
  | getCommEvent
  | postCommEvent
  | processOptionComplete
  | processPutBytesOptionComplete
  | processGetBytesOptionComplete
  | resArbReleaseComplete
  | flushChannel
  | startAbort
  | getAbortErr
  | getTerminationEvent
  | setTerminationEvent
  | initAsyncRPCMsg
  | getToolConnectState
  | setToolConnectState
  | getConnectInfo
  | setConnectInfo
  | getCMOTransportInfo
  | setCMOTransportInfo
  | getReceiveMessageBufSize
  | getConnectionEndPort
  | getControlOptionsInfo
  | getGetBytesOptionsInfo
  | getPutBytesOptionsInfo
  | getPassiveClaim
  | setPassiveClaim
  | getPassiveState
  | setPassiveState
  | getWaitingForResNotify
  | setWaitingForResNotify
  | getCurRequestOpCode
  deriving DecidableEq, Repr

/-- Calls to the inner end. -/
inductive InnerCall : Type where
  | openStart
  | closeStart
  | connectStart
  | terminateStart
  | putBytesStart (l : ListRef)
  | putFramedBytesStart (l : ListRef) (endOfFrame : Bool)
  | killPutStart
  | getBytesStart (l : ListRef)
  | getFramedBytesStart (l : ListRef)
  | getBytesImmediateStart (l : ListRef) (threshold : Int)
  | killGetStart
  | handleTimerTick
  | handleRequest (msgType : MsgType)
  | processOptionStart (theOption : TOption)
  | plain (r : PlainRequest)
  | delete
  deriving DecidableEq, Repr

/-- Calls to the client's callback object. -/
inductive ClientCall : Type where
  | connectComplete (result : NewtonErr)
  | putComplete (result : NewtonErr) (putBytesCount : ℕ)
  | killPutComplete (result : NewtonErr)
  | getComplete (result : NewtonErr) (endOfFrame : Bool) (getBytesCount : ℕ)
  | killGetComplete (result : NewtonErr)
  | processOptionComplete (optResult : OptionResult)
  | handleRequest (msgType : MsgType)
  | plain (cb : PlainCallback)
  | delete
  deriving DecidableEq, Repr

/-- Calls during which the component can be entered again. -/
inductive Call : Type where
  | inner (c : InnerCall)
  | client (c : ClientCall)
  | mbedtlsSslHandshake
  | mbedtlsSslRead (len : ℕ)
  | mbedtlsSslWrite (buf : List Byte)
  | mbedtlsSslCloseNotify
  deriving DecidableEq, Repr

/-- The results. `mbedtls_ssl_read` gives the bytes it put into the buffer, or a
negative code. -/
abbrev Call.Result : Call → Type
  | .inner (.processOptionStart _) => OptionResult
  | .mbedtlsSslHandshake => Int
  | .mbedtlsSslRead _ => Except Int (List Byte)
  | .mbedtlsSslWrite _ => Int
  | .mbedtlsSslCloseNotify => Int
  | _ => Unit

/-! ## Entry points -/

/-- The entry points: requests of the client, callbacks of the inner end and
callbacks of mbedTLS.  A timer tick carries what the clock reads.  A completion
of a put or a get carries, besides the arguments of the source, the list of the
inner request that ends with it and what the inner end did to that list: which
bytes it read, or which bytes it wrote. -/
inductive Entry : Type where
  | openStart
  | closeStart
  | connectStart
  | terminateStart
  | putBytesStart (clientBuffer : ℕ)
  | putFramedBytesStart (clientBuffer : ℕ) (endOfFrame : Bool)
  | killPutStart
  | getBytesStart (clientBuffer : ℕ)
  | getFramedBytesStart (clientBuffer : ℕ)
  | getBytesImmediateStart (clientBuffer : ℕ) (threshold : Int)
  | killGetStart
  | handleTimerTick (nowms : UInt32)
  | handleRequest (msgType : MsgType)
  | processOptionStart (theOption : TOption)
  | plainRequest (r : PlainRequest)
  | delete
  | connectCompleteCB (result : Int)
  | putCompleteCB (of : ListRef) (read : List Byte) (result : Int) (putBytesCount : ℕ)
  | getCompleteCB (of : ListRef) (wrote : List Byte) (result : Int) (endOfFrame : Bool)
      (getBytesCount : ℕ)
  | getCurPutDataCB
  | getCurPutFrameDataCB
  | getCurPutEndOfFrameCB
  | getCurGetDataCB
  | getCurGetFrameDataCB
  | getCurGetNonBlockingCB
  | getCurGetThresholdCB
  | plainCallback (cb : PlainCallback)
  | sslSendCallback (buf : List Byte)
  | sslRecvCallback (len : ℕ)
  | sslSetTimerCallback (int_ms fin_ms : UInt32)
  | sslGetTimerCallback
  deriving DecidableEq, Repr

/-- What an entry point returns.  `SSLRecvCallback` returns its result and the
bytes it put into the buffer, an option call the option as it leaves it. -/
inductive Value : Type where
  | unit
  | int (r : Int)
  | recv (result : Int) (buf : List Byte)
  | option (r : OptionResult) (theOption : TOption)
  | list (l : ListRef)
  | bool (b : Bool)
  deriving DecidableEq, Repr

/-- Why a run stops for good: a call through a NULL pointer, a read past the end
of a name, a loop that has not ended after the given number of rounds, or the
object has been freed. -/
inductive Fault : Type where
  | nullPointer
  | overread
  | outOfFuel
  | freed
  deriving DecidableEq, Repr

/-- Everything the connection end exchanges with its environment. -/
abbrev CESig : Signature where
  Query := Query
  Answer := Query.Answer
  Call := Call
  Result := Call.Result
  Entry := Entry
  Value := Value
  Fault := Fault

/-- Code of the connection end. -/
abbrev CE (α : Type) : Type := Code CESig ConnectionEnd α

end NewtonTLS
