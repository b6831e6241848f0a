/-
# Handles in the bindings

What a function of `Bindings` does with the handles that it is given.  `params` lists the handle
parameters of every function, with the kind of context that each is named for.  A computation is
quiet (`NativeQuiet`) when it leaves the handles and the native blocks as they are, and calls
mbed TLS with the contexts that were passed in the parameters of their kinds.  Each of the
functions is quiet, but for those that make or borrow a context and for three that use a handle as
something else (`quiet_run`).
-/
import NewtonTLS.Bindings

namespace NewtonTLS

namespace BindingRules

open Bindings ContextHandles Ownership

/-! ## The parameters for handles -/

/-- A parameter for a handle: the kind of context that it is named for, what is passed, and
whether that may be nil. -/
structure Param : Type where
  kind : Kind
  ref : Ref
  optional : Bool
  deriving DecidableEq

/-- A handle of an entropy source. -/
def inEntropyContextBin (r : Ref) : Param := ⟨.entropy, r, false⟩

/-- A handle of a random generator. -/
def inCtrDrbgContextBin (r : Ref) : Param := ⟨.ctrDrbg, r, false⟩

/-- A handle of a key. -/
def inPKBin (r : Ref) : Param := ⟨.pk, r, false⟩

/-- A handle of a connection. -/
def inSSLBin (r : Ref) : Param := ⟨.ssl, r, false⟩

/-- A handle of a cache of sessions. -/
def inSSLCacheBin (r : Ref) : Param := ⟨.sslCache, r, false⟩

/-- A handle of a configuration. -/
def inSSLConfigBin (r : Ref) : Param := ⟨.sslConfig, r, false⟩

/-- A handle of a session. -/
def inSession (r : Ref) : Param := ⟨.sslSession, r, false⟩

/-- A handle of a chain of certificates. -/
def inX509CrtBin (r : Ref) : Param := ⟨.x509Crt, r, false⟩

/-- A handle of a revocation list. -/
def inX509CrlBin (r : Ref) : Param := ⟨.x509Crl, r, false⟩

/-- The parameters of `WITH_COBJECT_PTR_OPT`. -/
def inX509CrtBinOpt (r : Ref) : Param := ⟨.x509Crt, r, true⟩

/-- A handle of a revocation list, or nil. -/
def inX509CrlBinOpt (r : Ref) : Param := ⟨.x509Crl, r, true⟩

/-- The handle parameters of a call. -/
def params : Binding → List Param
  | .ctrDrbgSeed a b _ => [inCtrDrbgContextBin a, inEntropyContextBin b]
  | .sslSetHsCAChain a b c => [inSSLBin a, inX509CrtBinOpt b, inX509CrlBinOpt c]
  | .sslSetHsOwnCert a b c => [inSSLBin a, inX509CrtBin b, inPKBin c]
  | .sslSetSession a b => [inSSLBin a, inSession b]
  | .sslSetup a b => [inSSLBin a, inSSLConfigBin b]
  | .sslConfCAChain a b c => [inSSLConfigBin a, inX509CrtBinOpt b, inX509CrlBinOpt c]
  | .sslConfOwnCert a b c => [inSSLConfigBin a, inX509CrtBin b, inPKBin c]
  | .sslConfRng a b => [inSSLConfigBin a, inCtrDrbgContextBin b]
  | .x509CrlParse a _ => [inX509CrlBin a]
  | .sslCacheSetMaxEntries a _ | .sslCacheSetTimeout a _ => [inSSLCacheBin a]
  | .x509CrtParse a _ | .x509CrtCount a | .x509CrtGetDER a _ | .x509CrtGetVersion a _
  | .x509CrtGetSerialNumber a _ | .x509CrtGetIssuerName a _ | .x509CrtGetSubjectName a _
  | .x509CrtGetIssueDate a _ | .x509CrtGetExpirationDate a _
  | .x509CrtGetSignatureAlgorithm a _ => [inX509CrtBin a]
  | .getVersion | .sslListCiphersuites | .entropyNew | .ctrDrbgNew | .pkNew | .sslNew
  | .sslCacheNew | .sslConfigNew | .sslSessionNew | .x509CrtNew | .x509CrlNew => []
  | .sslCheckPending a | .sslCloseNotify a | .sslGetALPNProtocol a | .sslGetBytesAvail a
  | .sslGetCiphersuite a | .sslGetMaxFragLen a | .sslGetMaxOutRecordPayload a | .sslGetPeerCert a
  | .sslGetRecordExpansion a | .sslGetSession a | .sslGetVerifyResult a | .sslGetVersion a
  | .sslHandshake a | .sslHandshakeStep a | .sslRead a _ | .sslRenegotiate a
  | .sslSendAlertMessage a _ _ | .sslSessionReset a | .sslSetBio a _ _
  | .sslSetClientTransportID a _ | .sslSetDatagramPacking a _ | .sslSetHostname a _
  | .sslSetHsAuthMode a _ | .sslSetHsPSK a _ | .sslSetMTU a _ | .sslSetTimerCb a _ _
  | .sslWrite a _ => [inSSLBin a]
  | .sslConfALPNProtocol a _ | .sslConfARC4Support a _ | .sslConfCbcRecordSplitting a _
  | .sslConfCertProfile a _ | .sslConfCertReqCAList a _ | .sslConfCiphersuites a _
  | .sslConfCiphersuitesForVersion a _ _ _ | .sslConfCurves a _ | .sslConfDbg a _
  | .sslConfDHParamBin a _ _ | .sslConfDHParamCtx a _ | .sslConfDHMMinBitlen a _
  | .sslConfDTLSAntiReplay a _ | .sslConfDTLSBadMACLimit a _ | .sslConfDTLSCookies a _ _
  | .sslConfEncryptThenMac a _ | .sslConfExportKeysCb a _ | .sslConfExtendedMasterSecret a _
  | .sslConfFallback a _ | .sslConfPSKCb a _ | .sslConfRenegotiationPeriod a _
  | .sslConfSessionCache a _ | .sslConfSessionTicketsCb a _ _ | .sslConfSigHashes a _
  | .sslConfAuthMode a _ | .sslConfEndpoint a _ | .sslConfHandshakeTimeout a _ _
  | .sslConfLegacyRenegotiation a _ | .sslConfMaxFragLen a _ | .sslConfMaxVersion a _ _
  | .sslConfMinVersion a _ _ | .sslConfPSK a _ _ | .sslConfRenegotiation a _
  | .sslConfRenegotiationEnforced a _ | .sslConfSessionTickets a _ | .sslConfSNI a _
  | .sslConfTransport a _ | .sslConfTruncatedHMAC a _ | .sslConfVerify a _
  | .sslConfigDefaults a _ _ => [inSSLConfigBin a]

/-- No function has two parameters for handles of one kind. -/
theorem params_distinct (b : Binding) {q q' : Param} (hq : q ∈ params b) (hq' : q' ∈ params b)
    (hkind : q.kind = q'.kind) : q = q' := by
  have hnodup : ((params b).map Param.kind).Nodup := by
    cases b with
    | _ => simp [params, inEntropyContextBin, inCtrDrbgContextBin, inPKBin, inSSLBin,
        inSSLCacheBin, inSSLConfigBin, inSession, inX509CrtBin, inX509CrlBin, inX509CrtBinOpt,
        inX509CrlBinOpt]
  exact List.inj_on_of_nodup_map hnodup hq hq' hkind

/-! ## Calls that are right -/

/-- The pointer in a handle; NULL stands for nil. -/
def pointer (s : State) : Ref → ℕ
  | .handle h => ((s.contexts.objects h).map CObject.ptr).getD 0
  | _ => 0

/-- What has been passed in the parameters for handles: the kinds, and the pointers. -/
def given (s : State) (ps : List Param) : List (Kind × ℕ) :=
  ps.map fun q => (q.kind, pointer s q.ref)

/-- A call of mbed TLS during a call that has been given `given`. -/
structure GivenCall : Type where
  given : List (Kind × ℕ)
  call : NativeCall
  deriving DecidableEq

/-- The call is right.  Every context in it is the one that was passed in the parameter of its
kind, if there is such a parameter; this is not asked of destructors.  And its block holds a
context of its type, or it is NULL because nil was passed. -/
def GivenCall.Sound (e : GivenCall) : Prop :=
  ∀ o ∈ e.call.objects,
    (e.call.caller = .binding → ∀ g ∈ e.given, g.1 = o.type → o.ptr = g.2) ∧
    (o.found = some (.context o.type) ∨ o.ptr = 0 ∧ (o.type, 0) ∈ e.given)

/-- The calls that have been made on the way from `s` to `s'` satisfy `P`. -/
def Extends (P : NativeCall → Prop) (s s' : State) : Prop :=
  ∃ new, s'.calls = s.calls ++ new ∧ ∀ c ∈ new, P c

section extends_

variable {P Q : NativeCall → Prop} {s s' s'' : State}

theorem Extends.refl (s : State) : Extends P s s :=
  ⟨[], (List.append_nil _).symm, fun _ h => absurd h List.not_mem_nil⟩

theorem extends_of_eq (h : s'.calls = s.calls) : Extends P s s' := by
  obtain ⟨new, hnew, hP⟩ := Extends.refl (P := P) s
  exact ⟨new, h.trans hnew, hP⟩

/-- One extension after the other. -/
theorem Extends.trans (h : Extends P s s') (h' : Extends P s' s'') : Extends P s s'' := by
  obtain ⟨new, hnew, hP⟩ := h
  obtain ⟨new', hnew', hP'⟩ := h'
  refine ⟨new ++ new', ?_, ?_⟩
  · rw [hnew', hnew, List.append_assoc]
  · exact List.forall_mem_append.mpr ⟨hP, hP'⟩

theorem Extends.mono (h : Extends P s s') (hle : ∀ c, P c → Q c) : Extends Q s s' := by
  obtain ⟨new, hnew, hP⟩ := h
  exact ⟨new, hnew, fun c hc => hle c (hP c hc)⟩

end extends_

/-! ## Quiet computations -/

/-- What a function finds: each of its parameters for handles has a handle of its kind, or nil
where that may be. -/
structure Ready (ps : List Param) (s : State) : Prop where
  held : ∀ q ∈ ps, (∃ h obj, q.ref = .handle h ∧ s.contexts.objects h = some obj ∧
    s.blocks obj.ptr = some (.context q.kind)) ∨ q.optional = true ∧ q.ref = .nil
  distinct : ∀ q ∈ ps, ∀ q' ∈ ps, q.kind = q'.kind → q = q'

/-- The calls on the way from `s` to `s'` are right for a call that was given `ps` in `s₀`. -/
abbrev RightCalls (ps : List Param) (s₀ s s' : State) : Prop :=
  Extends (fun c => GivenCall.Sound ⟨given s₀ ps, c⟩) s s'

/-- The handles and the blocks are those of `s₀`. -/
def Same (s₀ s : State) : Prop := s.contexts = s₀.contexts ∧ s.blocks = s₀.blocks

/-- From a state with the handles and blocks of `s₀`, the computation keeps these, makes calls that
are right for the parameters, and its result satisfies `Q`. -/
def NativeQuiet {α : Type} (ps : List Param) (s₀ : State) (m : Native α) (Q : α → Prop) : Prop :=
  ∀ env s, Same s₀ s →
    Same s₀ (m env s).2 ∧ RightCalls ps s₀ s (m env s).2 ∧
      ∀ a, (m env s).1 = .ok a → Q a

section rules

variable {α β : Type} {ps : List Param} {s₀ : State} {Q Q' : α → Prop} {R : β → Prop}

/-- The second computation goes on with the value. -/
theorem bind_of_ok {m : Native α} {f : α → Native β} {env : Env} {s s' : State} {a : α}
    (h : m env s = (.ok a, s')) : (m >>= f) env s = f a env s' := by
  simp only [bind, h]

theorem bind_of_error {m : Native α} {f : α → Native β} {env : Env} {s s' : State} {e : Exn}
    (h : m env s = (.error e, s')) : (m >>= f) env s = (.error e, s') := by
  simp only [bind, h]

theorem quiet_pure {a : α} (h : Q a) : NativeQuiet ps s₀ (pure a) Q := by
  intro env s hs
  refine ⟨hs, Extends.refl s, fun b hb => ?_⟩
  cases hb
  exact h

theorem quiet_throw (e : Exn) : NativeQuiet ps s₀ (throw e) Q :=
  fun _ s hs => ⟨hs, Extends.refl s, fun _ h => by cases h⟩

theorem quiet_environment : NativeQuiet ps s₀ environment fun _ => True :=
  fun _ s hs => ⟨hs, Extends.refl s, fun _ _ => trivial⟩

theorem NativeQuiet.mono {m : Native α} (h : NativeQuiet ps s₀ m Q) (hle : ∀ a, Q a → Q' a) :
    NativeQuiet ps s₀ m Q' := by
  intro env s hs
  obtain ⟨hsame, hcalls, hQ⟩ := h env s hs
  exact ⟨hsame, hcalls, fun a ha => hle a (hQ a ha)⟩

/-- Two quiet computations, one after the other. -/
theorem NativeQuiet.bind {m : Native α} {f : α → Native β} (h : NativeQuiet ps s₀ m Q)
    (hf : ∀ a, Q a → NativeQuiet ps s₀ (f a) R) : NativeQuiet ps s₀ (m >>= f) R := by
  intro env s hs
  obtain ⟨hsame, hcalls, hQ⟩ := h env s hs
  rcases hm : m env s with ⟨e | a, s'⟩
  · rw [hm] at hsame hcalls
    rw [bind_of_error hm]
    exact ⟨hsame, hcalls, fun _ h => by cases h⟩
  · rw [hm] at hsame hcalls hQ
    rw [bind_of_ok hm]
    obtain ⟨hsame', hcalls', hR⟩ := hf a (hQ a rfl) env s' hsame
    exact ⟨hsame', hcalls.trans hcalls', hR⟩

/-- The value of the first one is not used. -/
theorem NativeQuiet.andThen {m : Native α} {n : Native β} (h : NativeQuiet ps s₀ m Q)
    (hn : NativeQuiet ps s₀ n R) : NativeQuiet ps s₀ (m >>= fun _ => n) R :=
  h.bind fun _ _ => hn

theorem quiet_ofExcept (x : Except Exn α) : NativeQuiet ps s₀ (ofExcept x) fun _ => True := by
  cases x with
  | error e => exact quiet_throw e
  | ok a => exact quiet_pure trivial

theorem quiet_ofOption (x : Option α) : NativeQuiet ps s₀ (ofOption x) fun _ => True := by
  cases x with
  | none => exact quiet_throw .rom
  | some a => exact quiet_pure trivial

theorem quiet_ite {p : Prop} [Decidable p] {m n : Native α} (hm : NativeQuiet ps s₀ m Q)
    (hn : NativeQuiet ps s₀ n Q) : NativeQuiet ps s₀ (if p then m else n) Q := by
  by_cases hp : p
  · rw [if_pos hp]
    exact hm
  · rw [if_neg hp]
    exact hn

theorem quiet_returned : NativeQuiet ps s₀ returned fun _ => True :=
  quiet_environment.bind fun env _ => quiet_ofExcept env.ret

/-- An argument is read as an integer. -/
theorem quiet_rint (r : Ref) : NativeQuiet ps s₀ (rint r) fun _ => True := by
  cases r with
  | int n => exact quiet_pure trivial
  | _ => exact quiet_throw .rom

/-- A binary that is not a handle. -/
theorem quiet_allocateBinary (len : ℤ) : NativeQuiet ps s₀ (allocateBinary len) fun _ => True :=
  quiet_ite (quiet_pure trivial) (quiet_throw .rom)

theorem quiet_length (r : Ref) : NativeQuiet ps s₀ (length r) fun _ => True := by
  unfold length
  cases r.length? with
  | some len => exact quiet_pure trivial
  | none => exact quiet_environment.bind fun env _ => quiet_ofOption (env.length r)

theorem lockedBinaryPtr_some {env : Env} {s : State} {h : ℕ} {obj : CObject}
    (hobj : s.contexts.objects h = some obj) :
    lockedBinaryPtr (.handle h) env s = (.ok obj.ptr, s) := by
  unfold lockedBinaryPtr
  simp only [hobj]

/-- A handle that has been collected. -/
theorem lockedBinaryPtr_none {env : Env} {s : State} {h : ℕ}
    (hobj : s.contexts.objects h = none) :
    lockedBinaryPtr (.handle h) env s = (.error .rom, s) := by
  unfold lockedBinaryPtr
  simp only [hobj]

/-- A pointer of a handle is the one that is in it. -/
theorem quiet_lockedBinaryPtr (r : Ref) :
    NativeQuiet ps s₀ (lockedBinaryPtr r) fun p => (∃ h, r = .handle h) → p = pointer s₀ r := by
  cases r with
  | handle h =>
    intro env s hs
    cases hobj : s.contexts.objects h with
    | none =>
      rw [lockedBinaryPtr_none hobj]
      exact ⟨hs, Extends.refl s, fun _ h => by cases h⟩
    | some obj =>
      rw [lockedBinaryPtr_some hobj]
      refine ⟨hs, Extends.refl s, fun p hp _ => ?_⟩
      cases hp
      rw [pointer, ← hs.1, hobj]
      rfl
  | _ =>
    refine quiet_environment.bind fun env _ => (quiet_ofOption _).mono fun p _ => ?_
    rintro ⟨h, heq⟩
    cases heq

/-- The data of an object, whose address is not looked at. -/
theorem quiet_data (r : Ref) : NativeQuiet ps s₀ (lockedBinaryPtr r) fun _ => True :=
  (quiet_lockedBinaryPtr r).mono fun _ _ => trivial

/-- What a parameter holds is a context of its kind, or nil. -/
theorem Ready.found (hready : Ready ps s₀) {q : Param} (hq : q ∈ ps) :
    s₀.blocks (pointer s₀ q.ref) = some (.context q.kind) ∨
      pointer s₀ q.ref = 0 ∧ (q.kind, 0) ∈ given s₀ ps := by
  have hmem : (q.kind, pointer s₀ q.ref) ∈ given s₀ ps := List.mem_map.mpr ⟨q, hq, rfl⟩
  rcases hready.held q hq with ⟨h, obj, href, hobj, hblock⟩ | ⟨-, hnil⟩
  · left
    rw [href, pointer, hobj]
    exact hblock
  · right
    rw [hnil] at hmem ⊢
    exact ⟨rfl, hmem⟩

/-- The handle of a parameter that cannot be nil. -/
theorem Ready.handle (hready : Ready ps s₀) {q : Param} (hq : q ∈ ps)
    (hhandle : q.optional = false) :
    ∃ h obj, q.ref = .handle h ∧ s₀.contexts.objects h = some obj ∧
      s₀.blocks obj.ptr = some (.context q.kind) ∧ pointer s₀ q.ref = obj.ptr := by
  rcases hready.held q hq with ⟨h, obj, href, hobj, hblock⟩ | ⟨hopt, -⟩
  · refine ⟨h, obj, href, hobj, hblock, ?_⟩
    rw [href, pointer, hobj]
    rfl
  · rw [hhandle] at hopt
    cases hopt

/-- What the parameters that cannot be nil lock. -/
theorem quiet_param (hready : Ready ps s₀) {q : Param} (hq : q ∈ ps)
    (hhandle : q.optional = false) :
    NativeQuiet ps s₀ (lockedBinaryPtr q.ref) fun p => p = pointer s₀ q.ref := by
  refine (quiet_lockedBinaryPtr q.ref).mono fun p hp => hp ?_
  obtain ⟨h, -, href, -⟩ := hready.handle hq hhandle
  exact ⟨h, href⟩

/-- A handle or nil gives its pointer or NULL. -/
theorem quiet_paramOpt (hready : Ready ps s₀) {q : Param} (hq : q ∈ ps) :
    NativeQuiet ps s₀ (lockedBinaryPtrOpt q.ref) fun p => p = pointer s₀ q.ref := by
  unfold lockedBinaryPtrOpt
  by_cases hnil : q.ref = .nil
  · rw [if_pos hnil, hnil]
    exact quiet_pure rfl
  · rw [if_neg hnil]
    refine (quiet_lockedBinaryPtr q.ref).mono fun p hp => hp ?_
    rcases hready.held q hq with ⟨h, -, href, -⟩ | ⟨-, href⟩
    · exact ⟨h, href⟩
    · exact absurd href hnil

/-- The data of a string or of a binary. -/
theorem quiet_lockedBinaryMaybeString (r : Ref) :
    NativeQuiet ps s₀ (lockedBinaryMaybeString r) fun _ => True := by
  refine (quiet_length r).bind fun len _ => (quiet_data r).bind fun ptr _ => ?_
  cases r with
  | _ => exact quiet_pure trivial

theorem quiet_castOrThrowError (err : ℤ) :
    NativeQuiet ps s₀ (castOrThrowError err) fun _ => True := by
  unfold castOrThrowError
  split_ifs
  · exact quiet_pure trivial
  · exact quiet_pure trivial
  · exact quiet_pure trivial
  · exact quiet_pure trivial
  · exact quiet_pure trivial
  · exact quiet_pure trivial
  · exact quiet_pure trivial
  · exact quiet_throw _
  · exact quiet_pure trivial

/-- The contexts of a call are those of parameters. -/
def Passed (ps : List Param) (s₀ : State) (objects : List (Kind × ℕ)) : Prop :=
  ∀ o ∈ objects, ∃ q ∈ ps, q.kind = o.1 ∧ pointer s₀ q.ref = o.2

/-- Contexts that were passed can be given to mbed TLS. -/
theorem quiet_call (hready : Ready ps s₀) {objects : List (Kind × ℕ)}
    (hpassed : Passed ps s₀ objects) (f : NativeFunction) (values : List Bindings.Value) :
    NativeQuiet ps s₀ (call f objects values) fun _ => True := by
  intro env s hs
  obtain ⟨hcontexts, hblocks⟩ := hs
  have hfits : ∀ o ∈ objects, o.2 = 0 ∨ s.blocks o.2 = some (.context o.1) := by
    intro o ho
    obtain ⟨q, hq, hkind, hptr⟩ := hpassed o ho
    rw [hblocks, ← hkind, ← hptr]
    exact (hready.found hq).symm.imp_left And.left
  refine ⟨⟨hcontexts, (if_pos hfits).trans hblocks⟩, ⟨_, rfl, ?_⟩, fun _ _ => trivial⟩
  rw [List.forall_mem_singleton]
  intro o ho
  obtain ⟨o', ho', rfl⟩ := List.mem_map.mp ho
  obtain ⟨q, hq, hkind, hptr⟩ := hpassed o' ho'
  constructor
  · -- the parameter of this kind is the only one
    intro _ g hg hsame
    obtain ⟨q', hq', rfl⟩ := List.mem_map.mp hg
    rw [← hptr, hready.distinct q' hq' q hq (hsame.trans hkind.symm)]
  · rw [hblocks, ← hkind, ← hptr]
    exact hready.found hq

end rules

/-! ## The functions -/

section functions

variable {ps : List Param} {s₀ : State} {a b c : Ref}

/-- `NativeQuiet`, with nothing known about the result. -/
def QuietAny {α : Type} (ps : List Param) (s₀ : State) (m : Native α) : Prop :=
  NativeQuiet ps s₀ m fun _ => True

/-- What mbed TLS has returned, as a status. -/
theorem quiet_status : QuietAny ps s₀ (returned >>= castOrThrowError) :=
  quiet_returned.bind fun ret _ => quiet_castOrThrowError ret

theorem quiet_int : QuietAny ps s₀ (returned >>= fun ret => pure (Ref.int ret)) :=
  quiet_returned.bind fun _ _ => quiet_pure trivial

theorem quiet_intOrError : QuietAny ps s₀ (returned >>= intOrError) :=
  quiet_returned.bind fun ret _ => quiet_ite (quiet_pure trivial) (quiet_castOrThrowError ret)

theorem quiet_result {r : Ref} : QuietAny ps s₀ (pure r) := quiet_pure trivial

theorem passed_nil : Passed ps s₀ [] := List.forall_mem_nil _

/-- A context whose pointer is that of a parameter. -/
theorem passed_cons {q : Param} (hq : q ∈ ps) {p : ℕ} (hp : p = pointer s₀ q.ref)
    {objects : List (Kind × ℕ)} (hrest : Passed ps s₀ objects) :
    Passed ps s₀ ((q.kind, p) :: objects) := by
  rw [Passed, List.forall_mem_cons]
  exact ⟨⟨q, hq, rfl, hp.symm⟩, hrest⟩

/-- One pointer is passed, that of a parameter. -/
theorem passed_one {q : Param} (hq : q ∈ ps) {p : ℕ} (hp : p = pointer s₀ q.ref) :
    Passed ps s₀ [(q.kind, p)] :=
  passed_cons hq hp passed_nil

/-- The context of a parameter is given to a function. -/
theorem quiet_callOn (hready : Ready ps s₀) {q : Param} (hq : q ∈ ps) (hhandle : q.optional = false)
    (f : NativeFunction) {values : Native (List Bindings.Value)} (hvalues : QuietAny ps s₀ values) :
    QuietAny ps s₀ (callOn q.kind f q.ref values) := by
  refine (quiet_param hready hq hhandle).bind fun p hp => hvalues.bind fun values _ => ?_
  exact quiet_call hready (passed_one hq hp) f values

/-- A function is called on a connection. -/
theorem quiet_onSSL (hready : Ready ps s₀) (h : inSSLBin a ∈ ps) (f : NativeFunction)
    {values : Native (List Bindings.Value)} (hvalues : QuietAny ps s₀ values) :
    QuietAny ps s₀ (callOn .ssl f a values) :=
  quiet_callOn hready h rfl f hvalues

/-- A function is called on a configuration. -/
theorem quiet_onSSLConfig (hready : Ready ps s₀) (h : inSSLConfigBin a ∈ ps) (f : NativeFunction)
    {values : Native (List Bindings.Value)} (hvalues : QuietAny ps s₀ values) :
    QuietAny ps s₀ (callOn .sslConfig f a values) :=
  quiet_callOn hready h rfl f hvalues

/-- The functions with a status. -/
theorem quiet_sslStatus (hready : Ready ps s₀) (h : inSSLBin a ∈ ps) (f : NativeFunction) :
    QuietAny ps s₀ (sslStatus f a) :=
  (quiet_onSSL hready h f (quiet_pure trivial)).andThen quiet_status

/-- The functions with an integer. -/
theorem quiet_sslInt (hready : Ready ps s₀) (h : inSSLBin a ∈ ps) (f : NativeFunction) :
    QuietAny ps s₀ (sslInt f a) :=
  (quiet_onSSL hready h f (quiet_pure trivial)).andThen quiet_int

/-- The functions with a string. -/
theorem quiet_sslText (hready : Ready ps s₀) (h : inSSLBin a ∈ ps) (f : NativeFunction) :
    QuietAny ps s₀ (sslText f a) := by
  refine (quiet_onSSL hready h f (quiet_pure trivial)).andThen (quiet_environment.bind ?_)
  intro env _
  cases env.text with
  | none => exact quiet_result
  | some text => exact quiet_result

/-- The settings that are checked first. -/
theorem quiet_confConstant (hready : Ready ps s₀) (h : inSSLConfigBin a ∈ ps)
    (f : NativeFunction) (cast : Except Exn Constant) :
    QuietAny ps s₀ (confConstant f a cast) :=
  (quiet_ofExcept cast).bind fun _ _ =>
    (quiet_onSSLConfig hready h f (quiet_pure trivial)).andThen quiet_result

/-- The settings of two integers. -/
theorem quiet_confInts (hready : Ready ps s₀) (h : inSSLConfigBin a ∈ ps) (f : NativeFunction) :
    QuietAny ps s₀ (confInts f a b c) := by
  refine (quiet_onSSLConfig hready h f ?_).andThen quiet_result
  exact (quiet_rint b).bind fun _ _ => (quiet_rint c).bind fun _ _ => quiet_pure trivial

/-- A certificate and its key are given with the context that takes them. -/
theorem quiet_ownCert {q : Param} (hready : Ready [q, inX509CrtBin b, inPKBin c] s₀)
    (hhandle : q.optional = false) (f : NativeFunction) :
    QuietAny [q, inX509CrtBin b, inPKBin c] s₀ (do
      let context ← lockedBinaryPtr q.ref
      let crt ← lockedBinaryPtr b
      let pk ← lockedBinaryPtr c
      call f [(q.kind, context), (.x509Crt, crt), (.pk, pk)] []
      castOrThrowError (← returned)) := by
  have hq : q ∈ [q, inX509CrtBin b, inPKBin c] := List.mem_cons_self
  have hcrt : inX509CrtBin b ∈ [q, inX509CrtBin b, inPKBin c] :=
    List.mem_cons_of_mem _ List.mem_cons_self
  have hpk : inPKBin c ∈ [q, inX509CrtBin b, inPKBin c] :=
    List.mem_cons_of_mem _ (List.mem_cons_of_mem _ List.mem_cons_self)
  refine (quiet_param hready hq hhandle).bind fun context hp => ?_
  refine (quiet_param hready hcrt rfl).bind fun crt hp' => ?_
  refine (quiet_param hready hpk rfl).bind fun pk hp'' => ?_
  have hpassed := passed_cons hq hp (passed_cons hcrt hp' (passed_one hpk hp''))
  exact (quiet_call hready hpassed _ _).andThen quiet_status

/-- The settings that are not implemented. -/
theorem quiet_unimplemented : QuietAny ps s₀ (unimplemented a) :=
  (quiet_data a).bind fun _ _ => quiet_throw _

/-- A certificate is looked up in the chain of its handle. -/
theorem quiet_x509CrtAt (hready : Ready ps s₀) (h : inX509CrtBin a ∈ ps) :
    NativeQuiet ps s₀ (x509CrtAt a b) fun x => x.1 = pointer s₀ a := by
  refine (quiet_rint b).bind fun index _ => (quiet_param hready h rfl).bind fun p hp => ?_
  refine quiet_environment.bind fun env _ => ?_
  cases CertificateChain.x509CrtGet Except.ok env.crt index with
  | error _ => exact quiet_throw _
  | ok node => exact quiet_pure hp

/-- The functions on a field of a certificate. -/
theorem quiet_x509CrtGets (hready : Ready ps s₀) (h : inX509CrtBin a ∈ ps) (f : NativeFunction)
    {result : CertificateChain.Crt → Native Ref} (hresult : ∀ node, QuietAny ps s₀ (result node)) :
    QuietAny ps s₀ (x509CrtGets f result a b) := by
  refine (quiet_x509CrtAt hready h).bind ?_
  rintro ⟨crt, index, node⟩ hcrt
  refine (quiet_call hready (passed_one h hcrt) f _).andThen ?_
  exact quiet_returned.bind fun r _ => quiet_ite (quiet_throw _) (hresult node)

theorem quiet_bufferString (node : CertificateChain.Crt) : QuietAny ps s₀ (bufferString node) :=
  quiet_environment.bind fun _ _ => quiet_pure trivial

theorem quiet_bufferMinutes (time : CertificateChain.Crt → CalendarTime.X509Time)
    (node : CertificateChain.Crt) : QuietAny ps s₀ (bufferMinutes time node) := by
  unfold bufferMinutes
  cases CertificateDates.minutesRef id (time node) with
  | none => exact quiet_result
  | some minutes => exact quiet_result

theorem quiet_ciphersuiteNames (hready : Ready ps s₀) (ciphersuites : List ℤ) :
    QuietAny ps s₀ (ciphersuiteNames ciphersuites) := by
  induction ciphersuites with
  | nil => exact quiet_pure trivial
  | cons ciphersuite rest ih =>
    exact (quiet_call hready passed_nil _ _).andThen ih

/-- An array of integers is read. -/
theorem quiet_certificateBytes (slots : List (Option ℤ)) :
    QuietAny ps s₀ (certificateBytes slots) := by
  induction slots with
  | nil => exact quiet_pure trivial
  | cons slot slots ih =>
    exact (quiet_ofOption slot).bind fun n _ => ih.bind fun _ _ => quiet_pure trivial

/-- The two forms of a certificate are read. -/
theorem quiet_certificateData (r : Ref) : QuietAny ps s₀ (certificateData r) := by
  refine quiet_ite ?_ ?_
  · exact (quiet_lockedBinaryMaybeString r).bind fun _ _ => quiet_pure trivial
  · cases r with
    | array slots => exact (quiet_certificateBytes slots).bind fun _ _ => quiet_pure trivial
    | _ => exact quiet_throw _

theorem quiet_hostname (r : Ref) : QuietAny ps s₀ (hostname r) := by
  refine quiet_ite ?_ (quiet_ite (quiet_pure trivial) (quiet_throw _))
  exact (quiet_lockedBinaryMaybeString r).bind fun _ _ => quiet_pure trivial

end functions

/-- The functions that use their handles as what they are, and neither make nor borrow a context. -/
def Plain : Binding → Prop
  | .entropyNew | .ctrDrbgNew | .pkNew | .sslNew | .sslCacheNew | .sslConfigNew | .sslSessionNew
  | .x509CrtNew | .x509CrlNew | .sslGetSession _ | .sslGetPeerCert _ => False
  | .sslSetSession _ _ | .sslConfRng _ _ | .x509CrlParse _ _ => False
  | _ => True

/-- The functions that are plain are quiet. -/
theorem quiet_run [Image] {s₀ : State} {b : Binding} (hplain : Plain b)
    (hready : Ready (params b) s₀) : QuietAny (params b) s₀ b.run := by
  cases b with
  | entropyNew | ctrDrbgNew | pkNew | sslNew | sslCacheNew | sslConfigNew | sslSessionNew
  | x509CrtNew | x509CrlNew | sslGetSession _ | sslGetPeerCert _ | sslSetSession _ _
  | sslConfRng _ _ | x509CrlParse _ _ => exact hplain.elim
  | getVersion =>
    exact (quiet_call hready passed_nil _ _).andThen
      (quiet_environment.bind fun _ _ => quiet_result)
  | sslListCiphersuites =>
    refine (quiet_call hready passed_nil _ _).andThen (quiet_environment.bind fun env _ => ?_)
    exact (quiet_ciphersuiteNames hready env.ciphersuites).andThen quiet_result
  | ctrDrbgSeed a b c =>
    have hctrDrbg : inCtrDrbgContextBin a ∈ params (.ctrDrbgSeed a b c) := List.mem_cons_self
    have hentropy : inEntropyContextBin b ∈ params (.ctrDrbgSeed a b c) :=
      List.mem_cons_of_mem _ List.mem_cons_self
    refine (quiet_param hready hctrDrbg rfl).bind fun ctr_drbg hp => ?_
    refine (quiet_param hready hentropy rfl).bind fun entropy hp' => ?_
    refine (quiet_lockedBinaryMaybeString c).bind fun _ _ => ?_
    exact (quiet_call hready (passed_cons hctrDrbg hp (passed_one hentropy hp')) _ _).andThen
      quiet_int
  | sslCloseNotify a | sslHandshake a | sslHandshakeStep a | sslRenegotiate a | sslSessionReset a =>
    exact quiet_sslStatus hready List.mem_cons_self _
  | sslCheckPending a | sslGetBytesAvail a | sslGetMaxFragLen a =>
    exact quiet_sslInt hready List.mem_cons_self _
  | sslGetALPNProtocol a | sslGetCiphersuite a | sslGetVersion a =>
    exact quiet_sslText hready List.mem_cons_self _
  | sslGetMaxOutRecordPayload a | sslGetRecordExpansion a =>
    exact (quiet_onSSL hready List.mem_cons_self _ (quiet_pure trivial)).andThen quiet_intOrError
  | sslGetVerifyResult a =>
    refine (quiet_onSSL hready List.mem_cons_self _ (quiet_pure trivial)).andThen ?_
    exact quiet_returned.bind fun _ _ => quiet_ite quiet_result quiet_result
  | sslRead a b =>
    refine (quiet_rint b).bind fun len _ => (quiet_allocateBinary len).bind fun result _ => ?_
    refine (quiet_onSSL hready List.mem_cons_self _
      ((quiet_data result).bind fun _ _ => quiet_pure trivial)).andThen ?_
    refine quiet_returned.bind fun ret _ => ?_
    exact quiet_ite quiet_result (quiet_ite (quiet_castOrThrowError ret) quiet_result)
  | sslSendAlertMessage a b c =>
    refine (quiet_ofExcept _).bind fun _ _ => (quiet_ofExcept _).bind fun _ _ => ?_
    exact (quiet_onSSL hready List.mem_cons_self _ (quiet_pure trivial)).andThen quiet_status
  | sslSetBio a b c | sslSetTimerCb a b c =>
    have hssl : inSSLBin a ∈ [inSSLBin a] := List.mem_cons_self
    refine (quiet_param hready hssl rfl).bind fun ctx hp => ?_
    exact (quiet_call hready (passed_one hssl hp) _ _).andThen quiet_result
  | sslSetClientTransportID a b =>
    refine (quiet_length b).bind fun _ _ => ?_
    refine (quiet_onSSL hready List.mem_cons_self _ ?_).andThen quiet_status
    exact (quiet_lockedBinaryMaybeString b).bind fun _ _ => quiet_pure trivial
  | sslSetDatagramPacking a b =>
    exact (quiet_onSSL hready List.mem_cons_self _ (quiet_pure trivial)).andThen quiet_result
  | sslSetHostname a b =>
    refine (quiet_hostname b).bind fun _ _ => ?_
    exact (quiet_onSSL hready List.mem_cons_self _ (quiet_pure trivial)).andThen quiet_status
  | sslSetHsAuthMode a b | sslSetMTU a b =>
    refine (quiet_ofExcept _).bind fun _ _ => ?_
    exact (quiet_onSSL hready List.mem_cons_self _ (quiet_pure trivial)).andThen quiet_result
  | sslSetHsCAChain a b c =>
    have hssl : inSSLBin a ∈ params (.sslSetHsCAChain a b c) := List.mem_cons_self
    have hcrt : inX509CrtBinOpt b ∈ params (.sslSetHsCAChain a b c) :=
      List.mem_cons_of_mem _ List.mem_cons_self
    have hcrl : inX509CrlBinOpt c ∈ params (.sslSetHsCAChain a b c) :=
      List.mem_cons_of_mem _ (List.mem_cons_of_mem _ List.mem_cons_self)
    refine (quiet_param hready hssl rfl).bind fun context hp => ?_
    refine (quiet_paramOpt hready hcrt).bind fun crt hp' => ?_
    refine (quiet_paramOpt hready hcrl).bind fun crl hp'' => ?_
    have hpassed := passed_cons hssl hp (passed_cons hcrt hp' (passed_one hcrl hp''))
    exact (quiet_call hready hpassed _ _).andThen quiet_result
  | sslSetHsOwnCert a b c => exact quiet_ownCert (q := inSSLBin a) hready rfl _
  | sslSetHsPSK a b =>
    refine (quiet_ofExcept _).bind fun _ _ => (quiet_length b).bind fun _ _ => ?_
    refine (quiet_onSSL hready List.mem_cons_self _ ?_).andThen quiet_status
    exact (quiet_data b).bind fun _ _ => quiet_pure trivial
  | sslSetup a b =>
    have hssl : inSSLBin a ∈ params (.sslSetup a b) := List.mem_cons_self
    have hconfig : inSSLConfigBin b ∈ params (.sslSetup a b) :=
      List.mem_cons_of_mem _ List.mem_cons_self
    refine (quiet_param hready hssl rfl).bind fun context hp => ?_
    refine (quiet_param hready hconfig rfl).bind fun config hp' => ?_
    have hpassed := passed_cons hssl hp (passed_one hconfig hp')
    exact (quiet_call hready hpassed _ _).andThen quiet_status
  | sslWrite a b =>
    refine (quiet_ofExcept _).bind fun _ _ => (quiet_length b).bind fun _ _ => ?_
    refine (quiet_onSSL hready List.mem_cons_self _ ?_).andThen quiet_intOrError
    exact (quiet_data b).bind fun _ _ => quiet_pure trivial
  | sslCacheSetMaxEntries a b | sslCacheSetTimeout a b =>
    have hcache : inSSLCacheBin a ∈ [inSSLCacheBin a] := List.mem_cons_self
    refine (quiet_ofExcept _).bind fun _ _ => ?_
    exact (quiet_callOn hready hcache rfl _ (quiet_pure trivial)).andThen quiet_result
  | sslConfALPNProtocol | sslConfARC4Support | sslConfCbcRecordSplitting | sslConfCertProfile
  | sslConfCertReqCAList | sslConfCiphersuites | sslConfCiphersuitesForVersion | sslConfCurves
  | sslConfDbg | sslConfDHParamBin | sslConfDHParamCtx | sslConfDHMMinBitlen
  | sslConfDTLSAntiReplay | sslConfDTLSBadMACLimit | sslConfDTLSCookies | sslConfEncryptThenMac
  | sslConfExportKeysCb | sslConfExtendedMasterSecret | sslConfFallback | sslConfPSKCb
  | sslConfRenegotiationPeriod | sslConfSessionCache | sslConfSessionTicketsCb
  | sslConfSigHashes => exact quiet_unimplemented
  | sslConfAuthMode a b | sslConfEndpoint a b | sslConfTransport a b
  | sslConfLegacyRenegotiation a b | sslConfRenegotiation a b | sslConfSessionTickets a b
  | sslConfTruncatedHMAC a b => exact quiet_confConstant hready List.mem_cons_self _ _
  | sslConfHandshakeTimeout a b c | sslConfMaxVersion a b c | sslConfMinVersion a b c =>
    exact quiet_confInts hready List.mem_cons_self _
  | sslConfMaxFragLen a b =>
    refine (quiet_ofExcept _).bind fun _ _ => ?_
    exact (quiet_onSSLConfig hready List.mem_cons_self _ (quiet_pure trivial)).andThen quiet_status
  | sslConfRenegotiationEnforced a b =>
    refine (quiet_onSSLConfig hready List.mem_cons_self _ ?_).andThen quiet_result
    exact (quiet_rint b).bind fun _ _ => quiet_pure trivial
  | sslConfCAChain a b c =>
    have hconfig : inSSLConfigBin a ∈ params (.sslConfCAChain a b c) := List.mem_cons_self
    have hcrt : inX509CrtBinOpt b ∈ params (.sslConfCAChain a b c) :=
      List.mem_cons_of_mem _ List.mem_cons_self
    have hcrl : inX509CrlBinOpt c ∈ params (.sslConfCAChain a b c) :=
      List.mem_cons_of_mem _ (List.mem_cons_of_mem _ List.mem_cons_self)
    refine (quiet_param hready hconfig rfl).bind fun config hp => ?_
    refine (quiet_paramOpt hready hcrl).bind fun crl hp'' => ?_
    refine (quiet_paramOpt hready hcrt).bind fun crt hp' => ?_
    have hpassed := passed_cons hconfig hp (passed_cons hcrt hp' (passed_one hcrl hp''))
    exact (quiet_call hready hpassed _ _).andThen quiet_result
  | sslConfOwnCert a b c => exact quiet_ownCert (q := inSSLConfigBin a) hready rfl _
  | sslConfPSK a b c =>
    refine (quiet_length b).bind fun _ _ => (quiet_length c).bind fun _ _ => ?_
    refine (quiet_onSSLConfig hready List.mem_cons_self _ ?_).andThen quiet_status
    exact (quiet_data b).bind fun _ _ => (quiet_data c).bind fun _ _ => quiet_pure trivial
  | sslConfSNI a b | sslConfVerify a b =>
    have hconfig : inSSLConfigBin a ∈ [inSSLConfigBin a] := List.mem_cons_self
    refine (quiet_param hready hconfig rfl).bind fun cfg hp => ?_
    exact (quiet_call hready (passed_one hconfig hp) _ _).andThen quiet_result
  | sslConfigDefaults a b c =>
    refine (quiet_ofExcept _).bind fun _ _ => (quiet_ofExcept _).bind fun _ _ => ?_
    exact (quiet_onSSLConfig hready List.mem_cons_self _ (quiet_pure trivial)).andThen quiet_status
  | x509CrtParse a b =>
    have hcrt : inX509CrtBin a ∈ params (.x509CrtParse a b) := List.mem_cons_self
    exact (quiet_callOn hready hcrt rfl _ (quiet_certificateData b)).andThen quiet_status
  | x509CrtCount a =>
    exact (quiet_data a).bind fun _ _ => quiet_environment.bind fun _ _ => quiet_result
  | x509CrtGetDER a b =>
    refine (quiet_data a).bind fun _ _ => quiet_environment.bind fun env _ => ?_
    cases env.crt.crt.raw with
    | none => exact quiet_result
    | some raw => exact quiet_allocateBinary raw.length
  | x509CrtGetVersion a b =>
    exact (quiet_x509CrtAt hready List.mem_cons_self).bind fun _ _ => quiet_result
  | x509CrtGetSerialNumber a b | x509CrtGetIssuerName a b | x509CrtGetSubjectName a b
  | x509CrtGetSignatureAlgorithm a b =>
    exact quiet_x509CrtGets hready List.mem_cons_self _ quiet_bufferString
  | x509CrtGetIssueDate a b | x509CrtGetExpirationDate a b =>
    exact quiet_x509CrtGets hready List.mem_cons_self _ (quiet_bufferMinutes _)

end BindingRules

end NewtonTLS
