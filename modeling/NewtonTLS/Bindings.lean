/-
# The bindings of mbed TLS

The functions of `Protocol/PMbedTLS.cpp` that NewtonScript calls.  A handle is a binary object
without a type: `WITH_COBJECT_PTR` casts the pointer in it to whatever the function names.  The
model keeps what is in every native block, and records every call of mbed TLS with the contexts
that it is given and what their blocks hold then.

NewtonScript that runs in a callback calls other functions while one is in its call of mbed TLS.
All that a function does with handles comes before that call, so that the calls are a sequence all
the same.  `InstallConnectionEnd` and `RemoveConnectionEnd`, which call nothing of mbed TLS, are
in `ClassRegistry`.
-/
import NewtonTLS.ConnectionEndInterface
import NewtonTLS.ContextHandles
import NewtonTLS.CertificateChain
import NewtonTLS.Ownership

namespace NewtonTLS

namespace Bindings

open Function (update)
open ContextHandles CertificateChain CertificateDates Ownership

/-! ## Contexts and destructors -/

/-- The context types of mbed TLS. -/
inductive Kind : Type where
  | entropy | ctrDrbg | pk | ssl | sslCache | sslConfig | sslSession | x509Crt | x509Crl
  deriving DecidableEq, Repr

/-- The functions that are given as destructors: those that free a context of their kind and
dispose of the block, `NOPDtor`, and `DisposePtr`. -/
inductive Dtor : Type where
  | context (kind : Kind)
  | nop
  | disposePtr
  deriving DecidableEq, Repr

/-- `mbedtls_entropy_free` and `DisposePtr`, for the handles of `EntropyNew`. -/
def EntropyDtor : Dtor := .context .entropy

/-- The destructor of the handles of `CtrDrbgNew`. -/
def CtrDrbgDtor : Dtor := .context .ctrDrbg

/-- The destructor of the handles of `PKNew`. -/
def PKDtor : Dtor := .context .pk

/-- The destructor of the handles of `SSLNew`. -/
def SSLDtor : Dtor := .context .ssl

/-- The destructor of the handles of `SSLCacheNew`. -/
def SSLCacheDtor : Dtor := .context .sslCache

/-- The destructor of the handles of `SSLConfigNew`. -/
def SSLConfigDtor : Dtor := .context .sslConfig

/-- The destructor of the sessions, which `SSLGetSession` also calls itself. -/
def SSLSessionDtor : Dtor := .context .sslSession

/-- The destructor of the handles of `X509CrtNew`. -/
def X509CrtDtor : Dtor := .context .x509Crt

/-- The destructor of the handles of `X509CrlNew`. -/
def X509CrlDtor : Dtor := .context .x509Crl

/-- It does nothing: the context belongs to mbed TLS. -/
def NOPDtor : Dtor := .nop

/-- Where the destructors are in memory. -/
class Image : Type where
  address : Dtor → CObjectBinaryProc
  dtorAt : CObjectBinaryProc → Dtor
  dtorAt_address : ∀ dtor, dtorAt (address dtor) = dtor
  dtorAt_disposePtr : dtorAt DISPOSE_PTR_PUBLIC_JT = .disposePtr

attribute [simp] Image.dtorAt_address Image.dtorAt_disposePtr

/-! ## Objects of NewtonScript -/

/-- The objects that the functions tell apart.  The characters of a string include the 0 at its
end, and an array has its integers, or `none` for anything else in it. -/
inductive Ref : Type where
  | nil
  | true
  | int (n : ℤ)
  | symbol (name : String)
  | string (chars : List ℕ)
  | binary (length : ℕ)
  | array (slots : List (Option ℤ))
  | handle (h : ℕ)
  | other (id : ℕ)
  deriving DecidableEq, Repr

/-- The codes of `ThrowBadTypeWithFrameData`. -/
inductive NSErr : Type where
  | kNSErrBadArgs | kNSErrNotAnInteger | kNSErrNotAString | kNSErrNotABinaryObject
  | kNSErrNotASymbol | kNSErrNotTrueOrNil | kNSErrNotAnArrayOrString | kNSErrOutOfBounds
  deriving DecidableEq, Repr

/-- The exceptions: those of the bindings, one that the ROM raises, and the abort of a task that
writes at NULL. -/
inductive Exn : Type where
  | badType (err : NSErr) (value : Ref)
  | mbedTLS (err : ℤ)
  | msg (text : String)
  | rom
  | abort
  deriving DecidableEq, Repr

namespace Ref

/-- `IsBinary`; strings, symbols and handles are binary objects, too. -/
def isBinary : Ref → Bool
  | symbol _ | string _ | binary _ | handle _ => Bool.true
  | _ => false

/-- `Length`, as far as it does not depend on what the model leaves out. -/
def length? : Ref → Option ℕ
  | string chars => some (2 * chars.length)
  | binary length => some length
  | array slots => some slots.length
  | _ => none

end Ref

/-! ## Calls of mbed TLS -/

/-- The functions of mbed TLS that the bindings call. -/
inductive NativeFunction : Type where
  | free (kind : Kind)
  | entropyAddSource | ctrDrbgSeed | versionGetString
  | sslListCiphersuites | sslGetCiphersuiteName
  | sslCheckPending | sslCloseNotify | sslGetAlpnProtocol | sslGetBytesAvail | sslGetCiphersuite
  | sslGetMaxFragLen | sslGetPeerCert | sslGetRecordExpansion | sslGetSession
  | sslGetVerifyResult | sslGetVersion | sslHandshake | sslHandshakeStep | sslRead
  | sslRenegotiate | sslSendAlertMessage | sslSessionReset | sslSetBio
  | sslSetClientTransportId | sslSetDatagramPacking | sslSetHostname | sslSetHsAuthmode
  | sslSetHsCaChain | sslSetHsOwnCert | sslSetHsPsk | sslSetMtu | sslSetSession | sslSetTimerCb
  | sslSetup | sslWrite
  | sslCacheSetMaxEntries | sslCacheSetTimeout
  | sslConfAuthmode | sslConfCaChain | sslConfEndpoint | sslConfHandshakeTimeout
  | sslConfLegacyRenegotiation | sslConfMaxFragLen | sslConfMaxVersion | sslConfMinVersion
  | sslConfOwnCert | sslConfPsk | sslConfRenegotiation | sslConfRenegotiationEnforced | sslConfRng
  | sslConfSessionTickets | sslConfSni | sslConfTransport | sslConfTruncatedHmac | sslConfVerify
  | sslConfigDefaults
  | x509CrtParse | x509SerialGets | x509DnGets | x509SigAlgGets
  deriving DecidableEq, Repr

/-- The constants and the callbacks that are passed to mbed TLS. -/
inductive Constant : Type where
  | mbedtlsHardclockPoll | MBEDTLS_ENTROPY_SOURCE_WEAK | mbedtlsEntropyFunc | mbedtlsCtrDrbgRandom
  | SSLSendCallback | SSLRecvCallback | SSLSetTimerCallback | SSLGetTimerCallback
  | SSLConfSNICallback | SSLConfVerifyCallback
  | MBEDTLS_SSL_VERIFY_NONE | MBEDTLS_SSL_VERIFY_OPTIONAL | MBEDTLS_SSL_VERIFY_REQUIRED
  | MBEDTLS_SSL_IS_SERVER | MBEDTLS_SSL_IS_CLIENT
  | MBEDTLS_SSL_TRANSPORT_STREAM | MBEDTLS_SSL_TRANSPORT_DATAGRAM
  | MBEDTLS_SSL_LEGACY_NO_RENEGOTIATION | MBEDTLS_SSL_LEGACY_ALLOW_RENEGOTIATION
  | MBEDTLS_SSL_LEGACY_BREAK_HANDSHAKE
  | MBEDTLS_SSL_MAX_FRAG_LEN_512 | MBEDTLS_SSL_MAX_FRAG_LEN_1024 | MBEDTLS_SSL_MAX_FRAG_LEN_2048
  | MBEDTLS_SSL_MAX_FRAG_LEN_4096
  | MBEDTLS_SSL_RENEGOTIATION_DISABLED | MBEDTLS_SSL_RENEGOTIATION_ENABLED
  | MBEDTLS_SSL_SESSION_TICKETS_DISABLED | MBEDTLS_SSL_SESSION_TICKETS_ENABLED
  | MBEDTLS_SSL_TRUNC_HMAC_DISABLED | MBEDTLS_SSL_TRUNC_HMAC_ENABLED
  | MBEDTLS_SSL_PRESET_DEFAULT
  deriving DecidableEq, Repr

/-- What is passed besides contexts: integers, constants, buffers and references. -/
inductive Value : Type where
  | null
  | int (n : ℤ)
  | constant (c : Constant)
  | address (ptr : ℕ)
  | bytes (bytes : List ℕ)
  | ref (r : Ref)
  deriving DecidableEq, Repr

/-- Who makes a call: a function that NewtonScript has called, or a destructor that the collector
or `Delete` has called. -/
inductive Caller : Type where
  | binding
  | destructor
  deriving DecidableEq, Repr

/-- A context in a call: the type of the pointer, the pointer, and what its block holds. -/
structure Object : Type where
  type : Kind
  ptr : ℕ
  found : Option (Content Kind)
  deriving DecidableEq, Repr

/-- A call of mbed TLS: who has made it, which function it is, the contexts with what is behind
their pointers, and the other arguments. -/
structure NativeCall : Type where
  caller : Caller
  function : NativeFunction
  objects : List Object
  values : List Value
  deriving DecidableEq, Repr

/-! ## States and computations -/

/-- What is at the addresses of native blocks. -/
abbrev Blocks : Type := ℕ → Option (Content Kind)

/-- The handles, the native blocks, and the calls of mbed TLS so far. -/
structure State : Type where
  contexts : Contexts
  blocks : Blocks
  calls : List NativeCall

/-- What the rest of the system does during one call: the memory manager, the ROM, mbed TLS and
the collector.  `lockedBinaryPtr` and `length` are asked about objects without a native block, and
raise with `none`; `ret` is what the function of mbed TLS returns, unless one of its callbacks
raises; `misuse` is what happens to the blocks when it is given a context of another type. -/
structure Env : Type where
  newPtr : ℕ
  lockedBinaryPtr : Ref → Option ℕ
  length : Ref → Option ℕ
  ret : Except Exn ℤ
  text : Option (List ℕ)
  ciphersuites : List ℤ
  peerCert : ℕ
  crt : Context
  misuse : Blocks → Blocks
  deadAtAllocate : ℕ → Bool
  deadAtAdd : ℕ → Bool

/-- A computation that can raise. -/
def Native (α : Type) : Type := Env → State → Except Exn α × State

instance : Monad Native where
  pure a := fun _ s => (.ok a, s)
  bind m f := fun env s =>
    match m env s with
    | (.ok a, s) => f a env s
    | (.error e, s) => (.error e, s)

/-- `Throw`: an exception ends the function, and undoes nothing. -/
def throw {α : Type} (e : Exn) : Native α := fun _ s => (.error e, s)

/-- `ThrowBadTypeWithFrameData`. -/
def throwBadTypeWithFrameData {α : Type} (err : NSErr) (value : Ref) : Native α :=
  throw (.badType err value)

/-- What comes from outside during this call. -/
def environment : Native Env := fun env s => (.ok env, s)

/-- A change of the state. -/
def modify (f : State → State) : Native Unit := fun _ s => (.ok (), f s)

/-- A check that may raise. -/
def ofExcept {α : Type} : Except Exn α → Native α
  | .ok a => pure a
  | .error e => throw e

/-- What the ROM gives, or its exception. -/
def ofOption {α : Type} : Option α → Native α
  | some a => pure a
  | none => throw .rom

namespace State

/-- A call of mbed TLS.  It leaves contexts of its own types as such; what happens when it is
given something else is not known. -/
def call (s : State) (misuse : Blocks → Blocks) (caller : Caller) (f : NativeFunction)
    (objects : List (Kind × ℕ)) (values : List Value) : State :=
  { s with
    blocks :=
      if ∀ o ∈ objects, o.2 = 0 ∨ s.blocks o.2 = some (.context o.1) then s.blocks
      else misuse s.blocks
    calls := s.calls ++ [⟨caller, f, objects.map fun o => ⟨o.1, o.2, s.blocks o.2⟩, values⟩] }

/-- `DisposePtr`, which does nothing for NULL. -/
def disposePtr (s : State) (ptr : ℕ) : State :=
  if ptr = 0 then s else { s with blocks := update s.blocks ptr none }

/-- Handles are not native blocks. -/
@[simp] theorem disposePtr_contexts (s : State) (ptr : ℕ) :
    (s.disposePtr ptr).contexts = s.contexts := by
  unfold disposePtr
  split_ifs <;> rfl

/-- `DisposePtr` is no call of mbed TLS. -/
@[simp] theorem disposePtr_calls (s : State) (ptr : ℕ) : (s.disposePtr ptr).calls = s.calls := by
  unfold disposePtr
  split_ifs <;> rfl

/-- The destructors: `mbedtls_…_free` and `DisposePtr`, or nothing, or `DisposePtr` alone. -/
def runDtor (misuse : Blocks → Blocks) (dtor : Dtor) (ptr : ℕ) (s : State) : State :=
  match dtor with
  | .context kind => (s.call misuse .destructor (.free kind) [(kind, ptr)] []).disposePtr ptr
  | .nop => s
  | .disposePtr => s.disposePtr ptr

variable [Image]

/-- A destructor that is called for a handle. -/
def destroy (misuse : Blocks → Blocks) (s : State) (call : DtorCall) : State :=
  s.runDtor misuse (Image.dtorAt call.destructor) call.ptr

/-- The handles become `contexts`, where more destructors have been called. -/
def withContexts (s : State) (misuse : Blocks → Blocks) (contexts : Contexts) : State :=
  (contexts.calls.drop s.contexts.calls.length).foldl (destroy misuse)
    { s with contexts := contexts }

end State

/-! ## The functions of the ROM and of the binding library -/

/-- `NewPtr`, or `new` of a structure that begins with the context. -/
def newPtr : Native ℕ := do
  let ptr := (← environment).newPtr
  modify fun s => { s with blocks := if ptr = 0 then s.blocks else update s.blocks ptr (some .raw) }
  return ptr

/-- `mbedtls_…_init`, which writes the whole context. -/
def initialise (kind : Kind) (ptr : ℕ) : Native Unit :=
  if ptr = 0 then throw .abort
  else modify fun s => { s with blocks := update s.blocks ptr (some (.context kind)) }

/-- `LockedBinaryPtr`, with the cast of its result in `WITH_COBJECT_PTR`. -/
def lockedBinaryPtr : Ref → Native ℕ
  | .handle h => fun _ s => match s.contexts.objects h with
    | some obj => (.ok obj.ptr, s)
    | none => (.error .rom, s)
  | r => do ofOption ((← environment).lockedBinaryPtr r)

/-- `WITH_COBJECT_PTR_OPT`. -/
def lockedBinaryPtrOpt (r : Ref) : Native ℕ := if r = .nil then pure 0 else lockedBinaryPtr r

/-- `Length`. -/
def length (r : Ref) : Native ℕ :=
  match r.length? with
  | some len => pure len
  | none => do ofOption ((← environment).length r)

/-- `WITH_LOCKED_BINARY_MAYBE_STRING`: the low bytes of the characters of a string, or the data of
any other object, and the length. -/
def lockedBinaryMaybeString (r : Ref) : Native (Value × ℕ) := do
  let len ← length r
  let ptr ← lockedBinaryPtr r
  match r with
  | .string chars => return (.bytes (chars.map (· % 256)), len / 2)
  | _ => return (.address ptr, len)

/-- `RINT`. -/
def rint : Ref → Native ℤ
  | .int n => pure n
  | _ => throw .rom

/-- `AllocateBinary`. -/
def allocateBinary (len : ℤ) : Native Ref :=
  if 0 ≤ len then pure (.binary len.toNat) else throw .rom

/-- `MakeString`: the characters and a null character. -/
def makeString (text : List ℕ) : Ref := .string (text ++ [0])

/-- A call whose result is not used. -/
def call (f : NativeFunction) (objects : List (Kind × ℕ)) (values : List Value) : Native Unit := do
  let env ← environment
  modify fun s => s.call env.misuse .binding f objects values

/-- What the function of mbed TLS has returned. -/
def returned : Native ℤ := do ofExcept (← environment).ret

section

variable [Image]

/-- `DoAllocateCObjectBinary`, in which handles can be collected and their destructors run. -/
def doAllocateCObjectBinary (ptr : ℕ) (dtor : Dtor) : Native Ref := fun env s =>
  (.ok (.handle s.contexts.nextHandle),
    s.withContexts env.misuse (s.contexts.doAllocateCObjectBinary ptr (Image.address dtor)
      env.deadAtAllocate env.deadAtAdd))

end

/-- An error code of mbed TLS that is a status, like the two that follow. -/
def MBEDTLS_ERR_SSL_ASYNC_IN_PROGRESS : ℤ := -0x6500

/-- A cryptographic operation is in progress. -/
def MBEDTLS_ERR_SSL_CRYPTO_IN_PROGRESS : ℤ := -0x7000

/-- A DTLS client has to send its hello again. -/
def MBEDTLS_ERR_SSL_HELLO_VERIFY_REQUIRED : ℤ := -0x6a80

/-- `CastOrThrowError`: a status becomes a symbol, another error an exception, and a count an
integer. -/
def castOrThrowError (err : ℤ) : Native Ref :=
  if err = 0 then pure (.symbol "ok")
  else if err = MBEDTLS_ERR_SSL_WANT_READ then pure (.symbol "want_read")
  else if err = MBEDTLS_ERR_SSL_WANT_WRITE then pure (.symbol "want_write")
  else if err = MBEDTLS_ERR_SSL_ASYNC_IN_PROGRESS then pure (.symbol "async_in_progress")
  else if err = MBEDTLS_ERR_SSL_CRYPTO_IN_PROGRESS then pure (.symbol "crypto_in_progress")
  else if err = MBEDTLS_ERR_SSL_HELLO_VERIFY_REQUIRED then pure (.symbol "hello_verify_required")
  else if err = MBEDTLS_ERR_SSL_PEER_CLOSE_NOTIFY then pure (.symbol "peer_close_notify")
  else if err < 0 then throw (.mbedTLS err)
  else pure (.int err)

/-- `CastAuthMode`: the symbols for the verification of certificates. -/
def castAuthMode : Ref → Except Exn Constant
  | .symbol "none" => .ok .MBEDTLS_SSL_VERIFY_NONE
  | .symbol "optional" => .ok .MBEDTLS_SSL_VERIFY_OPTIONAL
  | .symbol "required" => .ok .MBEDTLS_SSL_VERIFY_REQUIRED
  | .symbol name => .error (.badType .kNSErrBadArgs (.symbol name))
  | r => .error (.badType .kNSErrNotASymbol r)

/-- `CastEndpoint`: the symbols for the sides of a connection. -/
def castEndpoint : Ref → Except Exn Constant
  | .symbol "server" => .ok .MBEDTLS_SSL_IS_SERVER
  | .symbol "client" => .ok .MBEDTLS_SSL_IS_CLIENT
  | .symbol name => .error (.badType .kNSErrBadArgs (.symbol name))
  | r => .error (.badType .kNSErrNotASymbol r)

/-- `CastTransport`: the symbols for TLS and DTLS. -/
def castTransport : Ref → Except Exn Constant
  | .symbol "stream" => .ok .MBEDTLS_SSL_TRANSPORT_STREAM
  | .symbol "datagram" => .ok .MBEDTLS_SSL_TRANSPORT_DATAGRAM
  | .symbol name => .error (.badType .kNSErrBadArgs (.symbol name))
  | r => .error (.badType .kNSErrNotASymbol r)

/-- The tests of `SSLConfLegacyRenegotiation`. -/
def castLegacy : Ref → Except Exn Constant
  | .symbol "no_renegotiation" => .ok .MBEDTLS_SSL_LEGACY_NO_RENEGOTIATION
  | .symbol "allow_renegotiation" => .ok .MBEDTLS_SSL_LEGACY_ALLOW_RENEGOTIATION
  | .symbol "break_handshake" => .ok .MBEDTLS_SSL_LEGACY_BREAK_HANDSHAKE
  | .symbol name => .error (.badType .kNSErrBadArgs (.symbol name))
  | r => .error (.badType .kNSErrNotASymbol r)

/-- The tests of `SSLConfRenegotiation`, `SSLConfSessionTickets` and `SSLConfTruncatedHMAC`. -/
def castEnabled (enabled disabled : Constant) : Ref → Except Exn Constant
  | .symbol "enabled" => .ok enabled
  | .symbol "disabled" => .ok disabled
  | .nil => .ok disabled
  | .true => .ok enabled
  | r => .error (.badType .kNSErrNotTrueOrNil r)

/-- The tests of `SSLConfMaxFragLen`. -/
def castMaxFragLen : Ref → Except Exn Constant
  | .int 512 => .ok .MBEDTLS_SSL_MAX_FRAG_LEN_512
  | .int 1024 => .ok .MBEDTLS_SSL_MAX_FRAG_LEN_1024
  | .int 2048 => .ok .MBEDTLS_SSL_MAX_FRAG_LEN_2048
  | .int 4096 => .ok .MBEDTLS_SSL_MAX_FRAG_LEN_4096
  | .int n => .error (.badType .kNSErrBadArgs (.int n))
  | r => .error (.badType .kNSErrNotAnInteger r)

/-- The tests of `SSLSendAlertMessage`, whose results are not used. -/
def castLevel : Ref → Except Exn Unit
  | .int _ => .ok ()
  | .symbol "warning" => .ok ()
  | .symbol "fatal" => .ok ()
  | r => .error (.badType .kNSErrBadArgs r)

/-- `if (!ISINT(r)) ThrowBadTypeWithFrameData(kNSErrNotAnInteger, r)`. -/
def castInt : Ref → Except Exn ℤ
  | .int n => .ok n
  | r => .error (.badType .kNSErrNotAnInteger r)

/-- `if (!IsBinary(r)) ThrowBadTypeWithFrameData(kNSErrNotABinaryObject, r)`. -/
def castBinary (r : Ref) : Except Exn Unit :=
  if r.isBinary then .ok () else .error (.badType .kNSErrNotABinaryObject r)

/-! ## What the functions have in common -/

/-- A new context: `NewPtr`, `mbedtls_…_init` and `DoAllocateCObjectBinary`. -/
def newContext [Image] (kind : Kind) (dtor : Dtor) : Native Ref := do
  let context ← newPtr
  initialise kind context
  doAllocateCObjectBinary context dtor

/-- The context of a handle, and then the other arguments, are given to a function. -/
def callOn (kind : Kind) (f : NativeFunction) (bin : Ref) (values : Native (List Value)) :
    Native Unit := do
  let context ← lockedBinaryPtr bin
  let values ← values
  call f [(kind, context)] values

/-- Nothing but a handle, and the result is a status. -/
def sslStatus (f : NativeFunction) (inSSLBin : Ref) : Native Ref := do
  callOn .ssl f inSSLBin (pure [])
  castOrThrowError (← returned)

/-- Nothing but a handle, and the result is an integer. -/
def sslInt (f : NativeFunction) (inSSLBin : Ref) : Native Ref := do
  callOn .ssl f inSSLBin (pure [])
  return .int (← returned)

/-- `if (ret >= 0) return MAKEINT(ret)`, and the status of an error. -/
def intOrError (ret : ℤ) : Native Ref := if 0 ≤ ret then pure (.int ret) else castOrThrowError ret

/-- Nothing but a handle, and the result is a string or NULL. -/
def sslText (f : NativeFunction) (inSSLBin : Ref) : Native Ref := do
  callOn .ssl f inSSLBin (pure [])
  match (← environment).text with
  | none => return .nil
  | some text => return makeString text

/-- A setting of the configuration that is checked first. -/
def confConstant (f : NativeFunction) (inSSLConfigBin : Ref) (cast : Except Exn Constant) :
    Native Ref := do
  let c ← ofExcept cast
  callOn .sslConfig f inSSLConfigBin (pure [.constant c])
  return .nil

/-- `ThrowMsg("Unimplemented")`, with the configuration locked. -/
def unimplemented (inSSLConfigBin : Ref) : Native Ref := do
  let _ ← lockedBinaryPtr inSSLConfigBin
  throw (.msg "Unimplemented")

/-- The certificate at an index of the chain. -/
def x509CrtAt (inX509CrtBin inIndex : Ref) : Native (ℕ × ℤ × Crt) := do
  let index ← rint inIndex
  let crt ← lockedBinaryPtr inX509CrtBin
  match x509CrtGet Except.ok (← environment).crt index with
  | .ok node => return (crt, index, node)
  | .error _ => throwBadTypeWithFrameData .kNSErrOutOfBounds inIndex

/-- A string function on a field of the certificate at an index, which is given as the context and
the index. -/
def x509CrtGets (f : NativeFunction) (result : Crt → Native Ref) (inX509CrtBin inIndex : Ref) :
    Native Ref := do
  let (crt, index, node) ← x509CrtAt inX509CrtBin inIndex
  call f [(.x509Crt, crt)] [.int index]
  let r ← returned
  if r < 0 then throw (.mbedTLS r) else result node

/-- `MakeString(buf)`. -/
def bufferString (_node : Crt) : Native Ref := do
  return makeString ((← environment).text.getD [])

/-- `MAKEINT(TimeToLocal1904Minutes(time))`; the product can overflow. -/
def bufferMinutes (time : Crt → CalendarTime.X509Time) (node : Crt) : Native Ref := do
  match minutesRef id (time node) with
  | some minutes => return .int minutes
  | none => return .other 0

/-! ## The functions -/

/-- `GetVersion`, which needs no handle. -/
def getVersion : Native Ref := do
  call .versionGetString [] []
  return makeString ((← environment).text.getD [])

/-- The names are asked for one after the other. -/
def ciphersuiteNames : List ℤ → Native Unit
  | [] => pure ()
  | ciphersuite :: rest => do
    call .sslGetCiphersuiteName [] [.int ciphersuite]
    ciphersuiteNames rest

/-- `SSLListCiphersuites`: an array with a string for each name. -/
def sslListCiphersuites : Native Ref := do
  call .sslListCiphersuites [] []
  let ciphersuites := (← environment).ciphersuites
  ciphersuiteNames ciphersuites
  return .array (ciphersuites.map fun _ => none)

/-- `CtrDrbgSeed`: both contexts are locked before the personalization is read. -/
def ctrDrbgSeed (inCtrDrbgContextBin inEntropyContextBin inPersBin : Ref) : Native Ref := do
  let ctr_drbg ← lockedBinaryPtr inCtrDrbgContextBin
  let entropy ← lockedBinaryPtr inEntropyContextBin
  let (pers, persLen) ← lockedBinaryMaybeString inPersBin
  call .ctrDrbgSeed [(.ctrDrbg, ctr_drbg), (.entropy, entropy)]
    [.constant .mbedtlsEntropyFunc, pers, .int persLen]
  return .int (← returned)

section

variable [Image]

/-- `EntropyNew`, which adds the hardware clock as a weak source of entropy. -/
def entropyNew : Native Ref := do
  let context ← newPtr
  initialise .entropy context
  call .entropyAddSource [(.entropy, context)]
    [.constant .mbedtlsHardclockPoll, .null, .int 4, .constant .MBEDTLS_ENTROPY_SOURCE_WEAK]
  doAllocateCObjectBinary context EntropyDtor

/-- `CtrDrbgNew`. -/
def ctrDrbgNew : Native Ref := newContext .ctrDrbg CtrDrbgDtor

/-- `PKNew`. -/
def pkNew : Native Ref := newContext .pk PKDtor

/-- `SSLNew`. -/
def sslNew : Native Ref := newContext .ssl SSLDtor

/-- `SSLCacheNew`. -/
def sslCacheNew : Native Ref := newContext .sslCache SSLCacheDtor

/-- `SSLConfigNew`. -/
def sslConfigNew : Native Ref := newContext .sslConfig SSLConfigDtor

/-- `SSLSessionNew`. -/
def sslSessionNew : Native Ref := newContext .sslSession SSLSessionDtor

/-- `X509CrtNew`. -/
def x509CrtNew : Native Ref := newContext .x509Crt X509CrtDtor

/-- `X509CrlNew`. -/
def x509CrlNew : Native Ref := newContext .x509Crl X509CrlDtor

/-- A handle for a context of mbed TLS.  `SSLConfSNICallback` and `SSLConfVerifyCallback` make one
for the context that they are given, before they call NewtonScript. -/
def borrow (ptr : ℕ) : Native Ref := doAllocateCObjectBinary ptr NOPDtor

/-- `SSLGetPeerCert`: the certificate is that of the session, and its handle owns nothing. -/
def sslGetPeerCert (inSSLBin : Ref) : Native Ref := do
  callOn .ssl .sslGetPeerCert inSSLBin (pure [])
  let ret := (← environment).peerCert
  if ret = 0 then return .nil else borrow ret

/-- A session of which mbed TLS has made a copy gets a handle. -/
def sessionHandle (session : ℕ) : Native Ref := do
  let ret ← returned
  if ret = 0 then doAllocateCObjectBinary session SSLSessionDtor
  else do
    let env ← environment
    modify (State.runDtor env.misuse SSLSessionDtor session)
    castOrThrowError ret

/-- `SSLGetSession`: a new session is filled by mbed TLS. -/
def sslGetSession (inSSLBin : Ref) : Native Ref := do
  let session ← newPtr
  initialise .sslSession session
  let context ← lockedBinaryPtr inSSLBin
  call .sslGetSession [(.ssl, context), (.sslSession, session)] []
  sessionHandle session

end

/-- `SSLCheckPending`. -/
def sslCheckPending : Ref → Native Ref := sslInt .sslCheckPending

/-- `SSLCloseNotify`. -/
def sslCloseNotify : Ref → Native Ref := sslStatus .sslCloseNotify

/-- `SSLGetALPNProtocol`, nil when there is none. -/
def sslGetALPNProtocol : Ref → Native Ref := sslText .sslGetAlpnProtocol

/-- `SSLGetBytesAvail`. -/
def sslGetBytesAvail : Ref → Native Ref := sslInt .sslGetBytesAvail

/-- `SSLGetCiphersuite`, nil before the handshake. -/
def sslGetCiphersuite : Ref → Native Ref := sslText .sslGetCiphersuite

/-- `SSLGetMaxFragLen`. -/
def sslGetMaxFragLen : Ref → Native Ref := sslInt .sslGetMaxFragLen

/-- It asks for the length of a fragment, as the function before. -/
def sslGetMaxOutRecordPayload (inSSLBin : Ref) : Native Ref := do
  callOn .ssl .sslGetMaxFragLen inSSLBin (pure [])
  intOrError (← returned)

/-- `SSLGetRecordExpansion`, whose result can be an error. -/
def sslGetRecordExpansion (inSSLBin : Ref) : Native Ref := do
  callOn .ssl .sslGetRecordExpansion inSSLBin (pure [])
  intOrError (← returned)

/-- `if (ret == -1u)`, where `ret` has 32 bits. -/
def sslGetVerifyResult (inSSLBin : Ref) : Native Ref := do
  callOn .ssl .sslGetVerifyResult inSSLBin (pure [])
  let ret := (← returned) % 2 ^ 32
  if ret = 2 ^ 32 - 1 then return .nil else return .int ret

/-- `SSLGetVersion`. -/
def sslGetVersion : Ref → Native Ref := sslText .sslGetVersion

/-- `SSLHandshake`. -/
def sslHandshake : Ref → Native Ref := sslStatus .sslHandshake

/-- `SSLHandshakeStep`. -/
def sslHandshakeStep : Ref → Native Ref := sslStatus .sslHandshakeStep

/-- `SSLRead`: the data is read into a new binary, which is cut to the length read. -/
def sslRead (inSSLBin inLen : Ref) : Native Ref := do
  let len ← rint inLen
  let result ← allocateBinary len
  callOn .ssl .sslRead inSSLBin do
    let buf ← lockedBinaryPtr result
    return [.address buf, .int len]
  let ret ← returned
  if ret = 0 then return .symbol "eof"
  else if ret < 0 then castOrThrowError ret
  else return .binary ret.toNat

/-- `SSLRenegotiate`. -/
def sslRenegotiate : Ref → Native Ref := sslStatus .sslRenegotiate

/-- It is the references that are passed, not what has been made of them. -/
def sslSendAlertMessage (inSSLBin inLevel inMessage : Ref) : Native Ref := do
  ofExcept (castLevel inLevel)
  let _ ← ofExcept (castInt inMessage)
  callOn .ssl .sslSendAlertMessage inSSLBin (pure [.ref inLevel, .ref inMessage])
  castOrThrowError (← returned)

/-- `SSLSessionReset`. -/
def sslSessionReset : Ref → Native Ref := sslStatus .sslSessionReset

/-- The callbacks are kept with the context, which is also what they are given. -/
def sslSetBio (inSSLBin _inSendCb _inRecvCb : Ref) : Native Ref := do
  let ctx ← lockedBinaryPtr inSSLBin
  call .sslSetBio [(.ssl, ctx)]
    [.address ctx, .constant .SSLSendCallback, .constant .SSLRecvCallback, .null]
  return .nil

/-- `SSLSetClientTransportID`, whose data may be a string. -/
def sslSetClientTransportID (inSSLBin inTransportLevelInfo : Ref) : Native Ref := do
  let _ ← length inTransportLevelInfo
  callOn .ssl .sslSetClientTransportId inSSLBin do
    let (info, len) ← lockedBinaryMaybeString inTransportLevelInfo
    return [info, .int len]
  castOrThrowError (← returned)

/-- `SSLSetDatagramPacking`, where anything but nil is true. -/
def sslSetDatagramPacking (inSSLBin inAllowPacking : Ref) : Native Ref := do
  let allow_packing := if inAllowPacking = .nil then 0 else 1
  callOn .ssl .sslSetDatagramPacking inSSLBin (pure [.int allow_packing])
  return .nil

/-- The name, NULL for nil. -/
def hostname (inHostname : Ref) : Native Value :=
  if inHostname.isBinary then do return (← lockedBinaryMaybeString inHostname).1
  else if inHostname = .nil then pure .null
  else throwBadTypeWithFrameData .kNSErrNotAString inHostname

/-- `SSLSetHostname`. -/
def sslSetHostname (inSSLBin inHostname : Ref) : Native Ref := do
  let hostname ← hostname inHostname
  callOn .ssl .sslSetHostname inSSLBin (pure [hostname])
  castOrThrowError (← returned)

/-- `SSLSetHsAuthMode`, which checks the symbol before it locks the handle. -/
def sslSetHsAuthMode (inSSLBin inAuthmode : Ref) : Native Ref := do
  let authMode ← ofExcept (castAuthMode inAuthmode)
  callOn .ssl .sslSetHsAuthmode inSSLBin (pure [.constant authMode])
  return .nil

/-- `SSLSetHsCAChain`; both lists may be nil. -/
def sslSetHsCAChain (inSSLBin inX509CrtBin inX509CrlBin : Ref) : Native Ref := do
  let context ← lockedBinaryPtr inSSLBin
  let crt ← lockedBinaryPtrOpt inX509CrtBin
  let crl ← lockedBinaryPtrOpt inX509CrlBin
  call .sslSetHsCaChain [(.ssl, context), (.x509Crt, crt), (.x509Crl, crl)] []
  return .nil

/-- `SSLSetHsOwnCert`: a certificate and its key. -/
def sslSetHsOwnCert (inSSLBin inX509CrtBin inPKBin : Ref) : Native Ref := do
  let context ← lockedBinaryPtr inSSLBin
  let crt ← lockedBinaryPtr inX509CrtBin
  let pk ← lockedBinaryPtr inPKBin
  call .sslSetHsOwnCert [(.ssl, context), (.x509Crt, crt), (.pk, pk)] []
  castOrThrowError (← returned)

/-- `SSLSetHsPSK`, with a key that has to be a binary. -/
def sslSetHsPSK (inSSLBin inPSKBin : Ref) : Native Ref := do
  ofExcept (castBinary inPSKBin)
  let len ← length inPSKBin
  callOn .ssl .sslSetHsPsk inSSLBin do
    let psk ← lockedBinaryPtr inPSKBin
    return [.address psk, .int len]
  castOrThrowError (← returned)

/-- `SSLSetMTU`. -/
def sslSetMTU (inSSLBin inMTU : Ref) : Native Ref := do
  let mtu ← ofExcept (castInt inMTU)
  callOn .ssl .sslSetMtu inSSLBin (pure [.int mtu])
  return .nil

/-- The session is taken from `inSSLBin`. -/
def sslSetSession (inSSLBin _inSession : Ref) : Native Ref := do
  let context ← lockedBinaryPtr inSSLBin
  let session ← lockedBinaryPtr inSSLBin
  call .sslSetSession [(.ssl, context), (.sslSession, session)] []
  castOrThrowError (← returned)

/-- `SSLSetTimerCb`, where the context of the callbacks is again the SSL context. -/
def sslSetTimerCb (inSSLBin _inSetTimerCb _inGetTimerCb : Ref) : Native Ref := do
  let ctx ← lockedBinaryPtr inSSLBin
  call .sslSetTimerCb [(.ssl, ctx)]
    [.address ctx, .constant .SSLSetTimerCallback, .constant .SSLGetTimerCallback]
  return .nil

/-- `SSLSetup`: the context refers to the configuration from now on. -/
def sslSetup (inSSLBin inSSLConfigBin : Ref) : Native Ref := do
  let context ← lockedBinaryPtr inSSLBin
  let config ← lockedBinaryPtr inSSLConfigBin
  call .sslSetup [(.ssl, context), (.sslConfig, config)] []
  castOrThrowError (← returned)

/-- `SSLWrite`: the number of the bytes written, or a status. -/
def sslWrite (inSSLBin inData : Ref) : Native Ref := do
  ofExcept (castBinary inData)
  let len ← length inData
  callOn .ssl .sslWrite inSSLBin do
    let data ← lockedBinaryPtr inData
    return [.address data, .int len]
  intOrError (← returned)

/-- `SSLCacheSetMaxEntries`. -/
def sslCacheSetMaxEntries (inSSLCacheBin inMaxEntries : Ref) : Native Ref := do
  let n ← ofExcept (castInt inMaxEntries)
  callOn .sslCache .sslCacheSetMaxEntries inSSLCacheBin (pure [.int n])
  return .nil

/-- `SSLCacheSetTimeout`. -/
def sslCacheSetTimeout (inSSLCacheBin inTimeout : Ref) : Native Ref := do
  let n ← ofExcept (castInt inTimeout)
  callOn .sslCache .sslCacheSetTimeout inSSLCacheBin (pure [.int n])
  return .nil

/-- `SSLConfALPNProtocol`, the first of the settings that are not implemented. -/
def sslConfALPNProtocol (inSSLConfigBin _inProtos : Ref) : Native Ref :=
  unimplemented inSSLConfigBin

/-- `SSLConfARC4Support`. -/
def sslConfARC4Support (inSSLConfigBin _inARC4 : Ref) : Native Ref :=
  unimplemented inSSLConfigBin

/-- `SSLConfCbcRecordSplitting`. -/
def sslConfCbcRecordSplitting (inSSLConfigBin _inSplit : Ref) : Native Ref :=
  unimplemented inSSLConfigBin

/-- `SSLConfCertProfile`. -/
def sslConfCertProfile (inSSLConfigBin _inCrtbin : Ref) : Native Ref :=
  unimplemented inSSLConfigBin

/-- `SSLConfCertReqCAList`. -/
def sslConfCertReqCAList (inSSLConfigBin _inCertReqCAList : Ref) : Native Ref :=
  unimplemented inSSLConfigBin

/-- `SSLConfCiphersuites`. -/
def sslConfCiphersuites (inSSLConfigBin _inCiphersuites : Ref) : Native Ref :=
  unimplemented inSSLConfigBin

/-- `SSLConfCiphersuitesForVersion`. -/
def sslConfCiphersuitesForVersion (inSSLConfigBin _inCiphersuites _inMajor _inMinor : Ref) :
    Native Ref := unimplemented inSSLConfigBin

/-- `SSLConfCurves`. -/
def sslConfCurves (inSSLConfigBin _inCurves : Ref) : Native Ref :=
  unimplemented inSSLConfigBin

/-- `SSLConfDbg`. -/
def sslConfDbg (inSSLConfigBin _inDebugCb : Ref) : Native Ref :=
  unimplemented inSSLConfigBin

/-- `SSLConfDHParamBin`. -/
def sslConfDHParamBin (inSSLConfigBin _inDHMP _inDHMG : Ref) : Native Ref :=
  unimplemented inSSLConfigBin

/-- `SSLConfDHParamCtx`, whose second handle is not looked at. -/
def sslConfDHParamCtx (inSSLConfigBin _inDHMContextBin : Ref) : Native Ref :=
  unimplemented inSSLConfigBin

/-- `SSLConfDHMMinBitlen`. -/
def sslConfDHMMinBitlen (inSSLConfigBin _inBitlen : Ref) : Native Ref :=
  unimplemented inSSLConfigBin

/-- `SSLConfDTLSAntiReplay`. -/
def sslConfDTLSAntiReplay (inSSLConfigBin _inMode : Ref) : Native Ref :=
  unimplemented inSSLConfigBin

/-- `SSLConfDTLSBadMACLimit`. -/
def sslConfDTLSBadMACLimit (inSSLConfigBin _inLimit : Ref) : Native Ref :=
  unimplemented inSSLConfigBin

/-- `SSLConfDTLSCookies`. -/
def sslConfDTLSCookies (inSSLConfigBin _inCookiesWriteCb _inCookiesCheckCb : Ref) : Native Ref :=
  unimplemented inSSLConfigBin

/-- `SSLConfEncryptThenMac`. -/
def sslConfEncryptThenMac (inSSLConfigBin _inETM : Ref) : Native Ref :=
  unimplemented inSSLConfigBin

/-- `SSLConfExportKeysCb`. -/
def sslConfExportKeysCb (inSSLConfigBin _inExportKeysCb : Ref) : Native Ref :=
  unimplemented inSSLConfigBin

/-- `SSLConfExtendedMasterSecret`. -/
def sslConfExtendedMasterSecret (inSSLConfigBin _inEMS : Ref) : Native Ref :=
  unimplemented inSSLConfigBin

/-- `SSLConfFallback`. -/
def sslConfFallback (inSSLConfigBin _inFallback : Ref) : Native Ref :=
  unimplemented inSSLConfigBin

/-- `SSLConfPSKCb`. -/
def sslConfPSKCb (inSSLConfigBin _inPSKCb : Ref) : Native Ref :=
  unimplemented inSSLConfigBin

/-- `SSLConfRenegotiationPeriod`. -/
def sslConfRenegotiationPeriod (inSSLConfigBin _inPeriod : Ref) : Native Ref :=
  unimplemented inSSLConfigBin

/-- `SSLConfSessionCache`, whose second handle is not looked at. -/
def sslConfSessionCache (inSSLConfigBin _inCacheBin : Ref) : Native Ref :=
  unimplemented inSSLConfigBin

/-- `SSLConfSessionTicketsCb`. -/
def sslConfSessionTicketsCb (inSSLConfigBin _inTicketWriteCb _inTicketParseCb : Ref) : Native Ref :=
  unimplemented inSSLConfigBin

/-- `SSLConfSigHashes`, the last of the settings that are not implemented. -/
def sslConfSigHashes (inSSLConfigBin _inSigHashes : Ref) : Native Ref :=
  unimplemented inSSLConfigBin

/-- `SSLConfAuthMode`. -/
def sslConfAuthMode (inSSLConfigBin inAuthMode : Ref) : Native Ref :=
  confConstant .sslConfAuthmode inSSLConfigBin (castAuthMode inAuthMode)

/-- `SSLConfEndpoint`. -/
def sslConfEndpoint (inSSLConfigBin inEndpoint : Ref) : Native Ref :=
  confConstant .sslConfEndpoint inSSLConfigBin (castEndpoint inEndpoint)

/-- `SSLConfTransport`. -/
def sslConfTransport (inSSLConfigBin inTransport : Ref) : Native Ref :=
  confConstant .sslConfTransport inSSLConfigBin (castTransport inTransport)

/-- `SSLConfLegacyRenegotiation`. -/
def sslConfLegacyRenegotiation (inSSLConfigBin inAllowLegacy : Ref) : Native Ref :=
  confConstant .sslConfLegacyRenegotiation inSSLConfigBin (castLegacy inAllowLegacy)

/-- `SSLConfRenegotiation`. -/
def sslConfRenegotiation (inSSLConfigBin inRenegotiation : Ref) : Native Ref :=
  confConstant .sslConfRenegotiation inSSLConfigBin
    (castEnabled .MBEDTLS_SSL_RENEGOTIATION_ENABLED .MBEDTLS_SSL_RENEGOTIATION_DISABLED
      inRenegotiation)

/-- `SSLConfSessionTickets`. -/
def sslConfSessionTickets (inSSLConfigBin inUseTickets : Ref) : Native Ref :=
  confConstant .sslConfSessionTickets inSSLConfigBin
    (castEnabled .MBEDTLS_SSL_SESSION_TICKETS_ENABLED .MBEDTLS_SSL_SESSION_TICKETS_DISABLED
      inUseTickets)

/-- `SSLConfTruncatedHMAC`. -/
def sslConfTruncatedHMAC (inSSLConfigBin inTruncate : Ref) : Native Ref :=
  confConstant .sslConfTruncatedHmac inSSLConfigBin
    (castEnabled .MBEDTLS_SSL_TRUNC_HMAC_ENABLED .MBEDTLS_SSL_TRUNC_HMAC_DISABLED inTruncate)

/-- `SSLConfMaxFragLen`, the only one of these settings that returns a status. -/
def sslConfMaxFragLen (inSSLConfigBin inMaxFragLen : Ref) : Native Ref := do
  let mfl_code ← ofExcept (castMaxFragLen inMaxFragLen)
  callOn .sslConfig .sslConfMaxFragLen inSSLConfigBin (pure [.constant mfl_code])
  castOrThrowError (← returned)

/-- `SSLConfCAChain`; both lists may be nil. -/
def sslConfCAChain (inSSLConfigBin inX509CrtBin inX509CrlBin : Ref) : Native Ref := do
  let config ← lockedBinaryPtr inSSLConfigBin
  let crl ← lockedBinaryPtrOpt inX509CrlBin
  let crt ← lockedBinaryPtrOpt inX509CrtBin
  call .sslConfCaChain [(.sslConfig, config), (.x509Crt, crt), (.x509Crl, crl)] []
  return .nil

/-- Two integers that are read while the configuration is locked. -/
def confInts (f : NativeFunction) (inSSLConfigBin a b : Ref) : Native Ref := do
  callOn .sslConfig f inSSLConfigBin do
    return [.int (← rint a), .int (← rint b)]
  return .nil

/-- `SSLConfHandshakeTimeout`. -/
def sslConfHandshakeTimeout (inSSLConfigBin inMin inMax : Ref) : Native Ref :=
  confInts .sslConfHandshakeTimeout inSSLConfigBin inMin inMax

/-- `SSLConfMaxVersion`. -/
def sslConfMaxVersion (inSSLConfigBin inMajor inMinor : Ref) : Native Ref :=
  confInts .sslConfMaxVersion inSSLConfigBin inMajor inMinor

/-- `SSLConfMinVersion`. -/
def sslConfMinVersion (inSSLConfigBin inMajor inMinor : Ref) : Native Ref :=
  confInts .sslConfMinVersion inSSLConfigBin inMajor inMinor

/-- `SSLConfRenegotiationEnforced`, with one integer. -/
def sslConfRenegotiationEnforced (inSSLConfigBin inMaxRecords : Ref) : Native Ref := do
  callOn .sslConfig .sslConfRenegotiationEnforced inSSLConfigBin do
    return [.int (← rint inMaxRecords)]
  return .nil

/-- `SSLConfOwnCert`: a certificate and its key. -/
def sslConfOwnCert (inSSLConfigBin inCrtBin inPKBin : Ref) : Native Ref := do
  let config ← lockedBinaryPtr inSSLConfigBin
  let crt ← lockedBinaryPtr inCrtBin
  let pk ← lockedBinaryPtr inPKBin
  call .sslConfOwnCert [(.sslConfig, config), (.x509Crt, crt), (.pk, pk)] []
  castOrThrowError (← returned)

/-- `SSLConfPSK`, whose two lengths are taken before anything is locked. -/
def sslConfPSK (inSSLConfigBin inPSK inPSKIdentity : Ref) : Native Ref := do
  let pskLen ← length inPSK
  let pskIdentityLen ← length inPSKIdentity
  callOn .sslConfig .sslConfPsk inSSLConfigBin do
    let psk ← lockedBinaryPtr inPSK
    let pskIdentity ← lockedBinaryPtr inPSKIdentity
    return [.address psk, .int pskLen, .address pskIdentity, .int pskIdentityLen]
  castOrThrowError (← returned)

/-- The generator is taken from a variable that nothing has been assigned to. -/
def sslConfRng (inSSLConfigBin _inCtrDrbgContextBin : Ref) : Native Ref := do
  let config ← lockedBinaryPtr inSSLConfigBin
  let ctrDrbgBin := .nil
  let ctr_drbg ← lockedBinaryPtr ctrDrbgBin
  call .sslConfRng [(.sslConfig, config), (.ctrDrbg, ctr_drbg)]
    [.constant .mbedtlsCtrDrbgRandom]
  return .nil

/-- `SSLConfSNI`: the callback is kept with the configuration. -/
def sslConfSNI (inSSLConfigBin _inSNICb : Ref) : Native Ref := do
  let cfg ← lockedBinaryPtr inSSLConfigBin
  call .sslConfSni [(.sslConfig, cfg)] [.constant .SSLConfSNICallback, .address cfg]
  return .nil

/-- `SSLConfVerify`: the callback is kept with the configuration. -/
def sslConfVerify (inSSLConfigBin _inVerifyCb : Ref) : Native Ref := do
  let cfg ← lockedBinaryPtr inSSLConfigBin
  call .sslConfVerify [(.sslConfig, cfg)] [.constant .SSLConfVerifyCallback, .address cfg]
  return .nil

/-- `SSLConfigDefaults`: both symbols are checked first. -/
def sslConfigDefaults (inSSLConfigBin inEndpoint inTransport : Ref) : Native Ref := do
  let endpoint ← ofExcept (castEndpoint inEndpoint)
  let transport ← ofExcept (castTransport inTransport)
  callOn .sslConfig .sslConfigDefaults inSSLConfigBin
    (pure [.constant endpoint, .constant transport, .constant .MBEDTLS_SSL_PRESET_DEFAULT])
  castOrThrowError (← returned)

/-- The bytes of an array of integers. -/
def certificateBytes : List (Option ℤ) → Native (List ℕ)
  | [] => pure []
  | slot :: slots => do
    let n ← ofOption slot
    let bytes ← certificateBytes slots
    return (n % 256).toNat :: bytes

/-- The two forms of a certificate, with their length. -/
def certificateData (inCertificate : Ref) : Native (List Value) :=
  if inCertificate.isBinary then do
    let (data, len) ← lockedBinaryMaybeString inCertificate
    return [data, .int len]
  else
    match inCertificate with
    | .array slots => do
      let bytes ← certificateBytes slots
      return [.bytes bytes, .int slots.length]
    | r => throwBadTypeWithFrameData .kNSErrNotAnArrayOrString r

/-- `X509CrtParse`: the certificates are added to the chain of the handle. -/
def x509CrtParse (inX509CrtBin inCertificate : Ref) : Native Ref := do
  callOn .x509Crt .x509CrtParse inX509CrtBin (certificateData inCertificate)
  castOrThrowError (← returned)

/-- `X509CrtCount`. -/
def x509CrtCount (inX509CrtBin : Ref) : Native Ref := do
  let _ ← lockedBinaryPtr inX509CrtBin
  return .int (CertificateChain.x509CrtCount (← environment).crt)

/-- The index is not read. -/
def x509CrtGetDER (inX509CrtBin _inIndex : Ref) : Native Ref := do
  let _ ← lockedBinaryPtr inX509CrtBin
  match (← environment).crt.crt.raw with
  | some raw => allocateBinary raw.length
  | none => return .nil

/-- `X509CrtGetVersion`. -/
def x509CrtGetVersion (inX509CrtBin inIndex : Ref) : Native Ref := do
  let (_, _, node) ← x509CrtAt inX509CrtBin inIndex
  return .int node.version

/-- `X509CrtGetSerialNumber`. -/
def x509CrtGetSerialNumber : Ref → Ref → Native Ref := x509CrtGets .x509SerialGets bufferString

/-- `X509CrtGetIssuerName`. -/
def x509CrtGetIssuerName : Ref → Ref → Native Ref := x509CrtGets .x509DnGets bufferString

/-- `X509CrtGetSubjectName`. -/
def x509CrtGetSubjectName : Ref → Ref → Native Ref := x509CrtGets .x509DnGets bufferString

/-- `X509CrtGetIssueDate`, which formats a name, too, and reads the date from the certificate. -/
def x509CrtGetIssueDate : Ref → Ref → Native Ref :=
  x509CrtGets .x509DnGets (bufferMinutes Crt.valid_from)

/-- `X509CrtGetExpirationDate`, which is made in the same way. -/
def x509CrtGetExpirationDate : Ref → Ref → Native Ref :=
  x509CrtGets .x509DnGets (bufferMinutes Crt.valid_to)

/-- `X509CrtGetSignatureAlgorithm`. -/
def x509CrtGetSignatureAlgorithm : Ref → Ref → Native Ref :=
  x509CrtGets .x509SigAlgGets bufferString

/-- The list is locked as a certificate, and parsed as one. -/
def x509CrlParse (inX509CrlBin inCRLBin : Ref) : Native Ref := do
  let (data, len) ← lockedBinaryMaybeString inCRLBin
  let crt ← lockedBinaryPtr inX509CrlBin
  call .x509CrtParse [(.x509Crt, crt)] [data, .int len]
  castOrThrowError (← returned)

/-! ## Calls from NewtonScript -/

/-- A call of a function, with its arguments. -/
inductive Binding : Type where
  | getVersion
  | sslListCiphersuites
  | entropyNew
  | ctrDrbgNew
  | pkNew
  | sslNew
  | sslCacheNew
  | sslConfigNew
  | sslSessionNew
  | x509CrtNew
  | x509CrlNew
  | ctrDrbgSeed (inCtrDrbgContextBin inEntropyContextBin inPersBin : Ref)
  | sslCheckPending (inSSLBin : Ref)
  | sslCloseNotify (inSSLBin : Ref)
  | sslGetALPNProtocol (inSSLBin : Ref)
  | sslGetBytesAvail (inSSLBin : Ref)
  | sslGetCiphersuite (inSSLBin : Ref)
  | sslGetMaxFragLen (inSSLBin : Ref)
  | sslGetMaxOutRecordPayload (inSSLBin : Ref)
  | sslGetPeerCert (inSSLBin : Ref)
  | sslGetRecordExpansion (inSSLBin : Ref)
  | sslGetSession (inSSLBin : Ref)
  | sslGetVerifyResult (inSSLBin : Ref)
  | sslGetVersion (inSSLBin : Ref)
  | sslHandshake (inSSLBin : Ref)
  | sslHandshakeStep (inSSLBin : Ref)
  | sslRead (inSSLBin inLen : Ref)
  | sslRenegotiate (inSSLBin : Ref)
  | sslSendAlertMessage (inSSLBin inLevel inMessage : Ref)
  | sslSessionReset (inSSLBin : Ref)
  | sslSetBio (inSSLBin inSendCb inRecvCb : Ref)
  | sslSetClientTransportID (inSSLBin inTransportLevelInfo : Ref)
  | sslSetDatagramPacking (inSSLBin inAllowPacking : Ref)
  | sslSetHostname (inSSLBin inHostname : Ref)
  | sslSetHsAuthMode (inSSLBin inAuthmode : Ref)
  | sslSetHsCAChain (inSSLBin inX509CrtBin inX509CrlBin : Ref)
  | sslSetHsOwnCert (inSSLBin inX509CrtBin inPKBin : Ref)
  | sslSetHsPSK (inSSLBin inPSKBin : Ref)
  | sslSetMTU (inSSLBin inMTU : Ref)
  | sslSetSession (inSSLBin inSession : Ref)
  | sslSetTimerCb (inSSLBin inSetTimerCb inGetTimerCb : Ref)
  | sslSetup (inSSLBin inSSLConfigBin : Ref)
  | sslWrite (inSSLBin inData : Ref)
  | sslCacheSetMaxEntries (inSSLCacheBin inMaxEntries : Ref)
  | sslCacheSetTimeout (inSSLCacheBin inTimeout : Ref)
  | sslConfALPNProtocol (inSSLConfigBin inProtos : Ref)
  | sslConfARC4Support (inSSLConfigBin inARC4 : Ref)
  | sslConfCbcRecordSplitting (inSSLConfigBin inSplit : Ref)
  | sslConfCertProfile (inSSLConfigBin inCrtbin : Ref)
  | sslConfCertReqCAList (inSSLConfigBin inCertReqCAList : Ref)
  | sslConfCiphersuites (inSSLConfigBin inCiphersuites : Ref)
  | sslConfCiphersuitesForVersion (inSSLConfigBin inCiphersuites inMajor inMinor : Ref)
  | sslConfCurves (inSSLConfigBin inCurves : Ref)
  | sslConfDbg (inSSLConfigBin inDebugCb : Ref)
  | sslConfDHParamBin (inSSLConfigBin inDHMP inDHMG : Ref)
  | sslConfDHParamCtx (inSSLConfigBin inDHMContextBin : Ref)
  | sslConfDHMMinBitlen (inSSLConfigBin inBitlen : Ref)
  | sslConfDTLSAntiReplay (inSSLConfigBin inMode : Ref)
  | sslConfDTLSBadMACLimit (inSSLConfigBin inLimit : Ref)
  | sslConfDTLSCookies (inSSLConfigBin inCookiesWriteCb inCookiesCheckCb : Ref)
  | sslConfEncryptThenMac (inSSLConfigBin inETM : Ref)
  | sslConfExportKeysCb (inSSLConfigBin inExportKeysCb : Ref)
  | sslConfExtendedMasterSecret (inSSLConfigBin inEMS : Ref)
  | sslConfFallback (inSSLConfigBin inFallback : Ref)
  | sslConfPSKCb (inSSLConfigBin inPSKCb : Ref)
  | sslConfRenegotiationPeriod (inSSLConfigBin inPeriod : Ref)
  | sslConfSessionCache (inSSLConfigBin inCacheBin : Ref)
  | sslConfSessionTicketsCb (inSSLConfigBin inTicketWriteCb inTicketParseCb : Ref)
  | sslConfSigHashes (inSSLConfigBin inSigHashes : Ref)
  | sslConfAuthMode (inSSLConfigBin inAuthMode : Ref)
  | sslConfCAChain (inSSLConfigBin inX509CrtBin inX509CrlBin : Ref)
  | sslConfEndpoint (inSSLConfigBin inEndpoint : Ref)
  | sslConfHandshakeTimeout (inSSLConfigBin inMin inMax : Ref)
  | sslConfLegacyRenegotiation (inSSLConfigBin inAllowLegacy : Ref)
  | sslConfMaxFragLen (inSSLConfigBin inMaxFragLen : Ref)
  | sslConfMaxVersion (inSSLConfigBin inMajor inMinor : Ref)
  | sslConfMinVersion (inSSLConfigBin inMajor inMinor : Ref)
  | sslConfOwnCert (inSSLConfigBin inCrtBin inPKBin : Ref)
  | sslConfPSK (inSSLConfigBin inPSK inPSKIdentity : Ref)
  | sslConfRenegotiation (inSSLConfigBin inRenegotiation : Ref)
  | sslConfRenegotiationEnforced (inSSLConfigBin inMaxRecords : Ref)
  | sslConfRng (inSSLConfigBin inCtrDrbgContextBin : Ref)
  | sslConfSessionTickets (inSSLConfigBin inUseTickets : Ref)
  | sslConfSNI (inSSLConfigBin inSNICb : Ref)
  | sslConfTransport (inSSLConfigBin inTransport : Ref)
  | sslConfTruncatedHMAC (inSSLConfigBin inTruncate : Ref)
  | sslConfVerify (inSSLConfigBin inVerifyCb : Ref)
  | sslConfigDefaults (inSSLConfigBin inEndpoint inTransport : Ref)
  | x509CrtParse (inX509CrtBin inCertificate : Ref)
  | x509CrtCount (inX509CrtBin : Ref)
  | x509CrtGetDER (inX509CrtBin inIndex : Ref)
  | x509CrtGetVersion (inX509CrtBin inIndex : Ref)
  | x509CrtGetSerialNumber (inX509CrtBin inIndex : Ref)
  | x509CrtGetIssuerName (inX509CrtBin inIndex : Ref)
  | x509CrtGetSubjectName (inX509CrtBin inIndex : Ref)
  | x509CrtGetIssueDate (inX509CrtBin inIndex : Ref)
  | x509CrtGetExpirationDate (inX509CrtBin inIndex : Ref)
  | x509CrtGetSignatureAlgorithm (inX509CrtBin inIndex : Ref)
  | x509CrlParse (inX509CrlBin inCRLBin : Ref)
  deriving DecidableEq, Repr

namespace Binding

/-- What a call does. -/
def run [Image] : Binding → Native Ref
  | .getVersion => Bindings.getVersion
  | .sslListCiphersuites => Bindings.sslListCiphersuites
  | .entropyNew => Bindings.entropyNew
  | .ctrDrbgNew => Bindings.ctrDrbgNew
  | .pkNew => Bindings.pkNew
  | .sslNew => Bindings.sslNew
  | .sslCacheNew => Bindings.sslCacheNew
  | .sslConfigNew => Bindings.sslConfigNew
  | .sslSessionNew => Bindings.sslSessionNew
  | .x509CrtNew => Bindings.x509CrtNew
  | .x509CrlNew => Bindings.x509CrlNew
  | .ctrDrbgSeed a b c => Bindings.ctrDrbgSeed a b c
  | .sslCheckPending a => Bindings.sslCheckPending a
  | .sslCloseNotify a => Bindings.sslCloseNotify a
  | .sslGetALPNProtocol a => Bindings.sslGetALPNProtocol a
  | .sslGetBytesAvail a => Bindings.sslGetBytesAvail a
  | .sslGetCiphersuite a => Bindings.sslGetCiphersuite a
  | .sslGetMaxFragLen a => Bindings.sslGetMaxFragLen a
  | .sslGetMaxOutRecordPayload a => Bindings.sslGetMaxOutRecordPayload a
  | .sslGetPeerCert a => Bindings.sslGetPeerCert a
  | .sslGetRecordExpansion a => Bindings.sslGetRecordExpansion a
  | .sslGetSession a => Bindings.sslGetSession a
  | .sslGetVerifyResult a => Bindings.sslGetVerifyResult a
  | .sslGetVersion a => Bindings.sslGetVersion a
  | .sslHandshake a => Bindings.sslHandshake a
  | .sslHandshakeStep a => Bindings.sslHandshakeStep a
  | .sslRead a b => Bindings.sslRead a b
  | .sslRenegotiate a => Bindings.sslRenegotiate a
  | .sslSendAlertMessage a b c => Bindings.sslSendAlertMessage a b c
  | .sslSessionReset a => Bindings.sslSessionReset a
  | .sslSetBio a b c => Bindings.sslSetBio a b c
  | .sslSetClientTransportID a b => Bindings.sslSetClientTransportID a b
  | .sslSetDatagramPacking a b => Bindings.sslSetDatagramPacking a b
  | .sslSetHostname a b => Bindings.sslSetHostname a b
  | .sslSetHsAuthMode a b => Bindings.sslSetHsAuthMode a b
  | .sslSetHsCAChain a b c => Bindings.sslSetHsCAChain a b c
  | .sslSetHsOwnCert a b c => Bindings.sslSetHsOwnCert a b c
  | .sslSetHsPSK a b => Bindings.sslSetHsPSK a b
  | .sslSetMTU a b => Bindings.sslSetMTU a b
  | .sslSetSession a b => Bindings.sslSetSession a b
  | .sslSetTimerCb a b c => Bindings.sslSetTimerCb a b c
  | .sslSetup a b => Bindings.sslSetup a b
  | .sslWrite a b => Bindings.sslWrite a b
  | .sslCacheSetMaxEntries a b => Bindings.sslCacheSetMaxEntries a b
  | .sslCacheSetTimeout a b => Bindings.sslCacheSetTimeout a b
  | .sslConfALPNProtocol a b => Bindings.sslConfALPNProtocol a b
  | .sslConfARC4Support a b => Bindings.sslConfARC4Support a b
  | .sslConfCbcRecordSplitting a b => Bindings.sslConfCbcRecordSplitting a b
  | .sslConfCertProfile a b => Bindings.sslConfCertProfile a b
  | .sslConfCertReqCAList a b => Bindings.sslConfCertReqCAList a b
  | .sslConfCiphersuites a b => Bindings.sslConfCiphersuites a b
  | .sslConfCiphersuitesForVersion a b c d => Bindings.sslConfCiphersuitesForVersion a b c d
  | .sslConfCurves a b => Bindings.sslConfCurves a b
  | .sslConfDbg a b => Bindings.sslConfDbg a b
  | .sslConfDHParamBin a b c => Bindings.sslConfDHParamBin a b c
  | .sslConfDHParamCtx a b => Bindings.sslConfDHParamCtx a b
  | .sslConfDHMMinBitlen a b => Bindings.sslConfDHMMinBitlen a b
  | .sslConfDTLSAntiReplay a b => Bindings.sslConfDTLSAntiReplay a b
  | .sslConfDTLSBadMACLimit a b => Bindings.sslConfDTLSBadMACLimit a b
  | .sslConfDTLSCookies a b c => Bindings.sslConfDTLSCookies a b c
  | .sslConfEncryptThenMac a b => Bindings.sslConfEncryptThenMac a b
  | .sslConfExportKeysCb a b => Bindings.sslConfExportKeysCb a b
  | .sslConfExtendedMasterSecret a b => Bindings.sslConfExtendedMasterSecret a b
  | .sslConfFallback a b => Bindings.sslConfFallback a b
  | .sslConfPSKCb a b => Bindings.sslConfPSKCb a b
  | .sslConfRenegotiationPeriod a b => Bindings.sslConfRenegotiationPeriod a b
  | .sslConfSessionCache a b => Bindings.sslConfSessionCache a b
  | .sslConfSessionTicketsCb a b c => Bindings.sslConfSessionTicketsCb a b c
  | .sslConfSigHashes a b => Bindings.sslConfSigHashes a b
  | .sslConfAuthMode a b => Bindings.sslConfAuthMode a b
  | .sslConfCAChain a b c => Bindings.sslConfCAChain a b c
  | .sslConfEndpoint a b => Bindings.sslConfEndpoint a b
  | .sslConfHandshakeTimeout a b c => Bindings.sslConfHandshakeTimeout a b c
  | .sslConfLegacyRenegotiation a b => Bindings.sslConfLegacyRenegotiation a b
  | .sslConfMaxFragLen a b => Bindings.sslConfMaxFragLen a b
  | .sslConfMaxVersion a b c => Bindings.sslConfMaxVersion a b c
  | .sslConfMinVersion a b c => Bindings.sslConfMinVersion a b c
  | .sslConfOwnCert a b c => Bindings.sslConfOwnCert a b c
  | .sslConfPSK a b c => Bindings.sslConfPSK a b c
  | .sslConfRenegotiation a b => Bindings.sslConfRenegotiation a b
  | .sslConfRenegotiationEnforced a b => Bindings.sslConfRenegotiationEnforced a b
  | .sslConfRng a b => Bindings.sslConfRng a b
  | .sslConfSessionTickets a b => Bindings.sslConfSessionTickets a b
  | .sslConfSNI a b => Bindings.sslConfSNI a b
  | .sslConfTransport a b => Bindings.sslConfTransport a b
  | .sslConfTruncatedHMAC a b => Bindings.sslConfTruncatedHMAC a b
  | .sslConfVerify a b => Bindings.sslConfVerify a b
  | .sslConfigDefaults a b c => Bindings.sslConfigDefaults a b c
  | .x509CrtParse a b => Bindings.x509CrtParse a b
  | .x509CrtCount a => Bindings.x509CrtCount a
  | .x509CrtGetDER a b => Bindings.x509CrtGetDER a b
  | .x509CrtGetVersion a b => Bindings.x509CrtGetVersion a b
  | .x509CrtGetSerialNumber a b => Bindings.x509CrtGetSerialNumber a b
  | .x509CrtGetIssuerName a b => Bindings.x509CrtGetIssuerName a b
  | .x509CrtGetSubjectName a b => Bindings.x509CrtGetSubjectName a b
  | .x509CrtGetIssueDate a b => Bindings.x509CrtGetIssueDate a b
  | .x509CrtGetExpirationDate a b => Bindings.x509CrtGetExpirationDate a b
  | .x509CrtGetSignatureAlgorithm a b => Bindings.x509CrtGetSignatureAlgorithm a b
  | .x509CrlParse a b => Bindings.x509CrlParse a b

end Binding

end Bindings

end NewtonTLS
