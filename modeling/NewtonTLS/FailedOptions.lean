/-
# Options that fail

What an option that fails leaves behind.  `ProcessOptionStart` sets `mSSLEnabled` before it runs
`SSLConfigure`, and clears `mSSLLoadRootCertificates` before it makes the heap and parses the
certificate, and neither is undone when these fail.  All else that options control is as it was
(`failed_unchanged_iff`).
-/
import NewtonTLS.LoadingRules
import NewtonTLS.ConnectionEndRuns

open Reentrant

namespace NewtonTLS

namespace FailedOptions

open LoadingRules

/-! ## Failures -/

/-- What options control. -/
structure OptionState : Type where
  mSSLEnabled : Bool
  mSSLHostname : Option Block
  mSSLAuthMode : UInt32
  mSSLLoadRootCertificates : Bool
  mSSLCAChain : List Certificate
  mSSLConfigured : Bool
  deriving DecidableEq

/-- What options set, in the state of the connection end. -/
def optionState (s : ConnectionEnd) : OptionState where
  mSSLEnabled := s.mSSLEnabled
  mSSLHostname := s.mSSLHostname
  mSSLAuthMode := s.mSSLAuthMode
  mSSLLoadRootCertificates := s.mSSLLoadRootCertificates
  mSSLCAChain := s.mSSLCAChain
  mSSLConfigured := s.mSSLConfigured

/-- The option is one of this component. -/
def IsSSL : TOption → Prop
  | .other _ => False
  | _ => True

/-- The results that say that an option has failed. -/
def Failed : OptionResult → Prop
  | .opFailure => True
  | .opNotSupported => True
  | .error _ => True
  | .opSuccess => False
  | .opInProgress => False

/-- `mbedtls_x509_crt_parse` gives a negative result only when no certificate could be parsed. -/
def ParsesOrFails (E : Environment CESig ConnectionEnd) : Prop :=
  ∀ n buf result added, E.answer n (Query.mbedtlsX509CrtParse buf) =
    ParseAnswer.parsed result added → result < 0 → added = []

/-- When the option fails, what options control is as it was. -/
def Unchanged (s : ConnectionEnd) (_ : List (Happening CESig))
    (r : Ending CESig ConnectionEnd (OptionResult × TOption)) : Prop :=
  ∀ s' p, r = .done s' p → Failed p.1 → optionState s' = optionState s

/-- What is set before something can fail is set already. -/
def SetAlready (s : ConnectionEnd) : TOption → Prop
  | .sslEnable enabled => enabled = true → s.mUpgradable = true → s.mSSLEnabled = true
  | .sslCertificateAuthority _ => s.mSSLLoadRootCertificates = false
  | _ => True

/-! ## `SSLConfigure` that fails -/

/-- The sum of nothing. -/
def blind (_ : Unit) (_ : Happening CESig) : Unit := ()

section configure

variable {E : Environment CESig ConnectionEnd} {fuel : ℕ} {s : ConnectionEnd} {u : Unit}

/-- A body that ends early, or fails, leaves what options control. -/
abbrev EarlyUnchanged {α : Type} (early : α → Prop) (s : ConnectionEnd) :
    Unit → Ending CESig ConnectionEnd α → Prop :=
  WhenDone fun _ s' a => early a → optionState s' = optionState s

/-- A listing that fails leaves the options alone. -/
theorem leads_loadListed_unchanged :
    (loadListed fuel).Leads E blind (EarlyUnchanged (fun early => early.isSome = true) s) u s := by
  refine leads_loadListed ?_ ?_ ?_
  · intro n _
    exact whenDone_done fun _ => rfl
  · intro n m k j size _ _ _
    exact whenDone_done fun _ => rfl
  · -- after the loop nothing fails
    intro n m k j size _ _ _
    refine Code.leads_true_done.mono fun g' r hr => released_whenDone hr ?_
    rintro s' cert i i' - ⟨⟩

theorem leads_loadInHeap_unchanged :
    (loadInHeap fuel).Leads E blind (EarlyUnchanged (fun early => early.isSome = true) s) u s := by
  refine leads_loadInHeap (leads_loadListed_unchanged.mono fun g' r hr => ?_)
  refine restored_whenDone hr (fun _ _ hearly => hearly) ?_
  rintro s' - ⟨⟩

/-- When `SSLConfigure` fails it leaves what options control. -/
theorem leads_sslConfigure_unchanged :
    (sslConfigure fuel).Leads E blind (EarlyUnchanged (fun r => r ≠ 0) s) u s := by
  have hkeeps : SetUpKeeps blind fun _ => True := fun _ _ _ _ _ => trivial
  have hset : ∀ g s', setUpSSL.Leads E blind (EarlyUnchanged (fun r => r ≠ 0) s) g s' := by
    intro g s'
    refine hkeeps.leads_setUpSSL trivial ?_
    intro g' s'' _ _
    exact whenDone_done fun hr => absurd rfl hr
  refine leads_sslConfigure (I := fun _ => True) (fun _ _ _ _ _ => trivial) trivial ?_ ?_
    fun _ g' _ => hset g' s
  · intro g' n custom r _ _ _
    exact whenDone_done fun _ => rfl
  · intro _ g' _
    refine Code.Leads.mono (leads_loadRootCertificates
      (Q := EarlyUnchanged (fun early => early.isSome = true) s)
      (fun _ => leads_loadInHeap_unchanged) (fun n heap _ _ => leads_loadInHeap_unchanged)
      fun n _ _ => leads_loadInHeap_unchanged) fun g'' r hr => ?_
    exact configured_whenDone hr (fun _ _ hearly _ => hearly rfl) fun s' _ => hset g'' s'

/-! ## The options -/

/-- Whatever `SSLConfigure` does, `mSSLEnabled` is set. -/
theorem leads_sslEnableOption {enabled : Bool} (hset : SetAlready s (.sslEnable enabled)) :
    (sslEnableOption fuel enabled).Leads E blind (EarlyUnchanged Failed s) u s := by
  refine Code.leads_modify_bind (Code.leads_get_bind ?_)
  split
  · rename_i hupgrade
    obtain ⟨hupgradable, henabled⟩ := hupgrade
    have hsame : optionState { s with mSSLEnabled := enabled } = optionState s := by
      have hbefore : s.mSSLEnabled = true := hset henabled hupgradable
      simp only [optionState, hbefore]
      rw [show enabled = true from henabled]
    refine Code.Leads.bindDone leads_sslConfigure_unchanged ?_
    intro g' s' r hr
    split
    · refine Code.leads_ask_bind fun n => ?_
      refine Code.leads_true_done.bindDone fun g'' s'' a _ => ?_
      refine Code.leads_pure_done ?_
      rintro ⟨⟩
    · rename_i hfailed
      refine Code.leads_pure_done ?_
      intro _
      exact (hr hfailed).trans hsame
  · refine Code.leads_pure_done ?_
    rintro ⟨⟩

/-- The hostname option does not fail. -/
theorem leads_sslHostnameOption {hostname : List Byte} :
    (sslHostnameOption hostname).Leads E blind (EarlyUnchanged Failed s) u s := by
  refine Code.leads_get_bind ?_
  split
  · refine Code.leads_pure_done ?_
    rintro ⟨⟩
  · refine Code.leads_bind (leads_newPtr fun n => Code.leads_modify_bind ?_)
    refine Code.leads_pure_done ?_
    rintro ⟨⟩

theorem leads_sslVerifyModeOption {verifyMode : UInt32} :
    (sslVerifyModeOption verifyMode).Leads E blind (EarlyUnchanged Failed s) u s := by
  refine Code.leads_modify_bind ?_
  split
  · refine Code.leads_modify_bind (Code.leads_pure_done ?_)
    rintro ⟨⟩
  · refine Code.leads_pure_done ?_
    rintro ⟨⟩

/-- A certificate that cannot be parsed leaves the chain. -/
theorem leads_parseAuthority (hE : ParsesOrFails E) (o : TCMOSSLCertificate) {s₀ : ConnectionEnd}
    (hsame : optionState s = optionState s₀) :
    (parseAuthority o).Leads E blind (EarlyUnchanged Failed s₀) u s := by
  have hparse : (mbedtlsX509CrtParse (o.certificate.take o.length.toNat)).Leads E blind
      (EarlyUnchanged (fun result => result < 0) s₀) u
      { s with currentHeap := s.mRootCertificatesHeap } := by
    refine leads_crtParse ?_ fun _ _ => whenDone_raise
    intro n result added hanswer
    refine whenDone_done fun hfailed => ?_
    rw [hE n _ result added hanswer hfailed, List.append_nil]
    exact hsame
  refine Code.leads_get_bind (Code.leads_modify_bind (hparse.onRaiseDone.bindDone ?_))
  intro g' s' result hr
  refine Code.leads_modify_bind ?_
  split
  · rename_i hfailed
    exact Code.leads_pure_done fun _ => hr hfailed
  · refine Code.leads_pure_done ?_
    rintro ⟨⟩

/-- When the flag is cleared already, the option changes nothing but the chain. -/
theorem leads_sslCertificateAuthorityOption (hE : ParsesOrFails E) (o : TCMOSSLCertificate)
    (hset : SetAlready s (.sslCertificateAuthority o)) :
    (sslCertificateAuthorityOption o).Leads E blind (EarlyUnchanged Failed s) u s := by
  have hsame : optionState { s with mSSLLoadRootCertificates := false } = optionState s := by
    have hbefore : s.mSSLLoadRootCertificates = false := hset
    simp only [optionState, hbefore]
  refine Code.leads_modify_bind (Code.leads_get_bind ?_)
  split
  · refine Code.leads_bind (leads_newVMHeap ?_ ?_)
    · intro n heap _
      exact leads_parseAuthority hE o hsame
    · intro n r hr _
      show (if r ≠ 0 then _ else _ : CE OptionResult).Leads E blind _ _ _
      rw [if_pos hr]
      exact Code.leads_pure_done fun _ => hsame
  · exact Code.leads_bind (Code.leads_pure (leads_parseAuthority hE o hsame))

/-- The chain of the peer is only read. -/
theorem leads_peerCertAt : ∀ (chain : List Certificate) (ix : ℕ),
    (peerCertAt chain ix).Leads E blind (WhenDone fun _ s' _ => s' = s) u s
  | [], _ => Code.leads_halt whenDone_halt
  | _ :: _, 0 => Code.leads_pure_done rfl
  | [_], _ + 1 => Code.leads_pure_done rfl
  | _ :: c :: rest, ix + 1 => leads_peerCertAt (c :: rest) ix

/-- The certificate of the peer is only read. -/
theorem leads_sslPeerCertificateOption (o : TCMOSSLCertificate) :
    (sslPeerCertificateOption o).Leads E blind
      (EarlyUnchanged (fun p => Failed p.1) s) u s := by
  refine Code.leads_get_bind ?_
  split
  · refine Code.leads_ask_bind fun n => (leads_peerCertAt _ _).bindDone ?_
    rintro g' s' found rfl
    split
    · exact Code.leads_pure_done fun _ => rfl
    · refine Code.leads_pure_done ?_
      rintro ⟨⟩
  · exact Code.leads_pure_done fun _ => rfl

/-- The result of an option. -/
theorem leads_result {m : CE OptionResult} {o : TOption}
    (hm : m.Leads E blind (EarlyUnchanged Failed s) u s) :
    (do let r ← m; pure (r, o) : CE (OptionResult × TOption)).Leads E blind
      (EarlyUnchanged (fun p => Failed p.1) s) u s :=
  hm.bindDone fun _ _ _ hr => Code.leads_pure_done hr

/-- What is set already is not changed by an option that fails. -/
theorem leads_processOptionStart (hE : ParsesOrFails E) {o : TOption} (hssl : IsSSL o)
    (hset : SetAlready s o) :
    (processOptionStart fuel o).Leads E blind (EarlyUnchanged (fun p => Failed p.1) s) u s := by
  cases o with
  | sslEnable enabled => exact leads_result (leads_sslEnableOption hset)
  | sslHostname hostname => exact leads_result leads_sslHostnameOption
  | sslVerifyMode verifyMode => exact leads_result leads_sslVerifyModeOption
  | sslCertificateAuthority o => exact leads_result (leads_sslCertificateAuthorityOption hE o hset)
  | sslPeerCertificate o =>
    exact (leads_sslPeerCertificateOption o).bindDone fun _ _ _ hr => Code.leads_pure_done hr
  | other label => exact absurd hssl id

end configure

/-! ## What is left behind -/

/-- The generator cannot be seeded, and no certificate can be parsed. -/
def failingAnswer : (q : Query) → q.Answer
  | .mbedtlsCtrDrbgSeed _ => (-0x34 : Int)
  | .mbedtlsX509CrtParse _ => ParseAnswer.parsed (-0x2180) []
  | q => plainAnswer q

/-- An environment in which what can fail fails. -/
def failing : Environment CESig ConnectionEnd where
  answer := fun _ => failingAnswer
  result := fun _ c s => (results 0 (.error MBEDTLS_ERR_SSL_WANT_READ) c, s)

/-- In this environment the parser fails. -/
theorem parsesOrFails_failing : ParsesOrFails failing := by
  rintro n buf result added ⟨⟩ -
  rfl

/-- The option has failed, and what options control is not as it was. -/
def LeftBehind (s : ConnectionEnd) (_ : Unit)
    (r : Ending CESig ConnectionEnd (OptionResult × TOption)) : Prop :=
  ∃ s' p, r = .done s' p ∧ Failed p.1 ∧ optionState s' ≠ optionState s

/-- An upgrade that fails leaves SSL enabled. -/
theorem leads_sslEnableOption_failing {s : ConnectionEnd} (hupgradable : s.mUpgradable = true)
    (hbefore : s.mSSLEnabled = false) :
    (processOptionStart 0 (.sslEnable true)).Leads failing blind (LeftBehind s) () s := by
  have hnow : { s with mSSLEnabled := true }.mUpgradable = true ∧
      { s with mSSLEnabled := true }.mSSLEnabled = true := ⟨hupgradable, rfl⟩
  refine Code.leads_bind (Code.leads_modify_bind (Code.leads_get_bind ?_))
  rw [if_pos hnow]
  refine Code.leads_bind (Code.leads_ask_bind fun _ => Code.leads_ask_bind fun _ => ?_)
  refine Code.leads_ask_bind fun _ => Code.leads_ask_bind fun _ => Code.leads_pure ?_
  refine Code.leads_pure (Code.leads_pure ⟨_, _, rfl, trivial, fun hsame => ?_⟩)
  have henabled : true = s.mSSLEnabled := congrArg OptionState.mSSLEnabled hsame
  rw [hbefore] at henabled
  cases henabled

/-- A certificate that is refused leaves the flag cleared. -/
theorem leads_sslCertificateAuthorityOption_failing {s : ConnectionEnd} (o : TCMOSSLCertificate)
    (hbefore : s.mSSLLoadRootCertificates = true) :
    (processOptionStart 0 (.sslCertificateAuthority o)).Leads failing blind (LeftBehind s) ()
      s := by
  have hleft : ∀ s' : ConnectionEnd, s'.mSSLLoadRootCertificates = false →
      optionState s' ≠ optionState s := by
    intro s' hafter hsame
    have hload := congrArg OptionState.mSSLLoadRootCertificates hsame
    simp only [optionState, hafter, hbefore] at hload
    cases hload
  -- the parser rejects the certificate after the flag has been cleared
  have hparse : ∀ s' : ConnectionEnd, s'.mSSLLoadRootCertificates = false →
      (parseAuthority o).Leads failing blind (Code.thenLeads failing blind (LeftBehind s)
        fun r => pure (r, TOption.sslCertificateAuthority o)) () s' := by
    intro s' hafter
    refine Code.leads_get_bind (Code.leads_modify_bind (Code.leads_bind ?_))
    refine (leads_crtParse ?_ ?_ : Code.Leads _ _ _ (fun _ r => ∃ t : ConnectionEnd,
      r = .done t (-0x2180) ∧ t.mSSLLoadRootCertificates = false) _ _).onRaise ?_ ?_ ?_
    · rintro n result added ⟨⟩
      exact ⟨_, rfl, hafter⟩
    · rintro n ⟨⟩
    · rintro g' t a ⟨_, ⟨⟩, ht⟩
      exact Code.leads_modify_bind (Code.leads_pure (Code.leads_pure
        ⟨_, _, rfl, trivial, hleft _ ht⟩))
    · rintro g' t ⟨_, ⟨⟩, -⟩
    · rintro g' t w ⟨_, ⟨⟩, -⟩
  refine Code.leads_bind (Code.leads_modify_bind (Code.leads_get_bind ?_))
  split
  · exact Code.leads_bind (Code.leads_ask_bind fun _ => Code.leads_modify_bind (Code.leads_pure
      (hparse _ rfl)))
  · exact Code.leads_bind (Code.leads_pure (hparse _ rfl))

/-- **Options that fail.**  Whatever happens, an option that fails leaves what options control as it
was, if and only if what it sets before something can fail is set already. -/
theorem failed_unchanged_iff {o : TOption} (hssl : IsSSL o) (s : ConnectionEnd) :
    (∀ E, ParsesOrFails E → ∀ fuel n, (processOptionStart fuel o).Drives E (Unchanged s) n s) ↔
      SetAlready s o := by
  constructor
  · intro h
    by_contra hset
    have hleft : (processOptionStart 0 o).Leads failing blind (LeftBehind s) () s := by
      cases o with
      | sslEnable enabled =>
        simp only [SetAlready, Classical.not_imp, Bool.not_eq_true] at hset
        obtain ⟨rfl, hupgradable, hbefore⟩ := hset
        exact leads_sslEnableOption_failing hupgradable hbefore
      | sslCertificateAuthority o =>
        exact leads_sslCertificateAuthorityOption_failing o (Bool.eq_true_of_not_eq_false hset)
      | sslHostname hostname => exact absurd trivial hset
      | sslVerifyMode verifyMode => exact absurd trivial hset
      | sslPeerCertificate o => exact absurd trivial hset
      | other label => exact absurd hssl id
    obtain ⟨s', p, hdone, hfailed, hchanged⟩ := hleft 0
    exact hchanged (h failing parsesOrFails_failing 0 0 s' p hdone hfailed)
  · intro hset E hE fuel n
    exact leads_processOptionStart (u := ()) hE hssl hset n

/-- The second certificate authority of a connection. -/
theorem failed_unchanged_iff_again :
    IsSSL (.sslCertificateAuthority ⟨0, 0, []⟩) ∧
      ∀ E, ParsesOrFails E → ∀ fuel n,
        (processOptionStart fuel (.sslCertificateAuthority ⟨0, 0, []⟩)).Drives E
          (Unchanged { new zeroMemory with mSSLLoadRootCertificates := false }) n
          { new zeroMemory with mSSLLoadRootCertificates := false } :=
  ⟨trivial, (failed_unchanged_iff (o := .sslCertificateAuthority ⟨0, 0, []⟩) trivial _).mpr rfl⟩

/-- A certificate that cannot be parsed, on a new connection end: no roots are loaded after it. -/
theorem not_failed_unchanged : ¬ ∀ (o : TOption) (s : ConnectionEnd), IsSSL o →
    ∀ E, ParsesOrFails E → ∀ fuel n, (processOptionStart fuel o).Drives E (Unchanged s) n s := by
  intro hall
  have h := hall (.sslCertificateAuthority ⟨1, 0, [0]⟩) (new zeroMemory) trivial failing
    parsesOrFails_failing 0 0 _ _ rfl trivial
  cases congrArg OptionState.mSSLLoadRootCertificates h

end FailedOptions

end NewtonTLS
