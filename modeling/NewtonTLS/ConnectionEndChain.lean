/-
# Contracts about the trust anchors

The chain of trust anchors is changed where `SSLConfigure` loads root certificates and
where a certificate-authority option is handled, and nowhere else.  A `ChainContract` has
an invariant on the observation and the chain.  `ChainContract.meets` is the rule of the
module: it is met when the questions of the configuration keep the invariant.
-/
import NewtonTLS.ConnectionEndRules

open Reentrant

namespace NewtonTLS

variable {M : Monitor CESig} {extra : List Call → M.Obs → ConnectionEnd → Label CESig → Bool}

/-- The events that have to do with the chain: those of the certificate store and the parser,
and the beginning and the end of requests. -/
def Label.isChain : Label CESig → Bool
  | .enter e => !e.isTraffic
  | .leave e _ => !e.isTraffic
  | .asked (.getRootCertificate _ _) _ => true
  | .asked (.mbedtlsX509CrtParse _) _ => true
  | .asked (.mbedtlsSslConfCaChain _) _ => true
  | _ => false

/-- A contract about the chain of trust anchors. -/
structure ChainContract (M : Monitor CESig) : Type 1 where
  Holds : M.Obs → List Certificate → Prop
  Every : M.Obs → ConnectionEnd → Label CESig → Prop
  quiet : ∀ g s x, Label.isChain x = false → Every g s x ∧ M.next g x = g

namespace ChainContract

variable (C : ChainContract M)

/-- The contract, as one about what traffic leaves alone. -/
def core : CoreContract M where
  Inv := fun g s => C.Holds g s.mSSLCAChain
  Every := C.Every
  inv_core := by
    intro g s s' h hcore
    rw [hcore.mSSLCAChain]
    exact h
  quiet := by
    intro g s x _ hx
    apply C.quiet
    cases x with
    | enter e => rw [Label.isChain, show e.isTraffic = true from hx, Bool.not_true]
    | leave e v => rw [Label.isChain, show e.isTraffic = true from hx, Bool.not_true]
    | asked q a => cases q <;> first | rfl | cases hx
    | calls e c => rfl
    | resumes c r => rfl

/-- What is asked of a contract about the chain.  `During` is what is known while an option is
handled. -/
structure Rules (extra : List Call → M.Obs → ConnectionEnd → Label CESig → Bool)
    (During : TOption → M.Obs → Prop) (Good : M.Obs → List Byte → Prop) : Prop where
  enter : ∀ e g s, e.isTraffic = false → C.Holds g s.mSSLCAChain →
    C.Every g s (.enter e) ∧ C.Holds (M.next g (.enter e)) s.mSSLCAChain
  leave : ∀ e v g s, e.isTraffic = false → C.Holds g s.mSSLCAChain →
    C.Every g s (.leave e v) ∧ C.Holds (M.next g (.leave e v)) s.mSSLCAChain
  setup : ∀ stk, SetupRules C.core.toContract (discipline M extra) stk C.core.Inv Good
  during : ∀ o g, During o (M.next g (.enter (.processOptionStart o)))
  asked : ∀ o g q a, During o g → During o (M.next g (.asked q a))
  supplied : ∀ o g, During (.sslCertificateAuthority o) g →
    Good g (o.certificate.take o.length.toNat)

variable {C} {During : TOption → M.Obs → Prop} {Good : M.Obs → List Byte → Prop}

/-- Only the questions about the chain are observed. -/
theorem quietQuery {q : Query} (hq : ∀ a, Label.isChain (.asked q a) = false) :
    Quiet C.core.toContract q := fun g s a => C.quiet g s (.asked q a) (hq a)

theorem memoryQuiet : MemoryQuiet C.core.toContract := by
  intro q hq
  apply quietQuery
  intro a
  cases q <;> first | rfl | cases hq

theorem putListQuiet {q : Query} (hq : q.isPutList = true) : Quiet C.core.toContract q := by
  apply quietQuery
  intro a
  cases q <;> first | rfl | cases hq

/-- The contract looks at the chain only. -/
theorem sameChain {g : M.Obs} {s : ConnectionEnd} {v : LoadValues} (hv : v.chain = s.mSSLCAChain)
    (h : C.core.Inv g s) : C.core.Inv g (s.loaded v) := by
  show C.Holds g v.chain
  rw [hv]
  exact h

namespace Rules

variable (R : C.Rules extra During Good) {e : Entry} {stk : List Call} {g : M.Obs}
  {s : ConnectionEnd}

/-- An event that has nothing to do with the chain keeps the invariant. -/
theorem kept {x : Label CESig} (hx : Label.isChain x = false) (h : C.core.Inv g s) :
    C.core.toContract.Every g s x ∧ C.core.Inv (M.next g x) s := by
  obtain ⟨hev, hnext⟩ := C.quiet g s x hx
  rw [hnext]
  exact ⟨hev, h⟩

theorem basicRules : BasicRules C.core.toContract extra C.core.Inv where
  at_iff := fun _ _ _ _ => Iff.rfl
  rely_out := fun _ _ _ _ _ hout => C.core.rely_out hout
  rely_tls := fun _ _ _ _ _ _ hc h => (C.core.rely_tls hc h).2
  frame := fun _ _ _ h _ _ => h
  memory := memoryQuiet
  putList := fun _ => putListQuiet
  calls := fun _ _ _ _ _ _ h _ => kept rfl h
  resumes := fun _ _ _ _ _ _ h _ _ => kept rfl h
  reset := fun _ _ _ h _ => kept rfl h

theorem readRules : ReadRules C.core.toContract C.core.Inv where
  getList := by
    intro q hq
    apply quietQuery
    intro a
    cases q <;> first | rfl | cases hq
  frame := fun _ _ _ h => h
  read := fun _ _ _ _ h _ => kept rfl h
  readEnds := fun _ _ _ _ h => kept rfl h
  completes := fun _ _ _ _ _ _ _ h => kept rfl h

include R

/-- The questions that are asked while an option is handled. -/
theorem option (stk : List Call) (o : TOption) :
    SetupRules C.core.toContract (discipline M extra) stk
      (fun g s => C.core.Inv g s ∧ During o g) Good where
  memory := memoryQuiet
  same := fun _ _ _ hv h => ⟨sameChain hv h.1, h.2⟩
  timer := fun _ _ _ _ _ h => h
  consumed := fun g s b a hb h =>
    ⟨(R.setup stk).consumed g s b a hb h.1, R.asked o g (.mbedtlsSslSetHostname b.bytes) a h.2⟩
  stored := fun g s name size a cert h => (R.setup stk).stored g s name size a cert h.1
  ask := by
    intro g s q a hq hfits h hperm
    obtain ⟨hev, hnext⟩ := (R.setup stk).ask g s q a hq hfits h.1 hperm
    exact ⟨hev, hnext, R.asked o g q a h.2⟩
  parse := by
    intro g s buf a h hgood hperm
    obtain ⟨hev, hnext⟩ := (R.setup stk).parse g s buf a h.1 hgood hperm
    exact ⟨hev, hnext, R.asked o g _ a h.2⟩

/-- `SSLConfigure` keeps the invariant, however it ends. -/
theorem sat_configure (fuel : ℕ) (h : C.core.Inv g s) :
    (sslConfigure fuel).Sat C.core.toContract (discipline M extra) e stk
      (ConfigureEnds C.core.Inv (fun _ _ g' s' => C.core.Inv g' s') g s) g s := by
  refine sat_sslConfigure (R.setup stk) fuel h (fun r g' v hr h' => ?_) (fun g' v h' => ?_)
    fun g' v h' _ => ?_
  · exact ⟨fun h0 => absurd (Option.some.inj h0) hr, fun _ => h'⟩
  · exact ⟨fun h0 => (by cases h0), fun _ => h'⟩
  · obtain ⟨hev, hinv⟩ := kept (x := .asked .sslConfigured ()) rfl
      (show C.core.Inv g' (s.configured v) from h')
    exact ⟨hev, fun _ => hinv, fun h0 => absurd rfl h0⟩

/-- The rules for requests, whose configurations keep the invariant. -/
theorem requestRules :
    RequestRules C.core.toContract extra C.core.Inv fun _ _ g' s' => C.core.Inv g' s' where
  basic := basicRules
  enter := fun _ e g s he _ h => R.enter e g s he h
  leave := fun e v g s he h => R.leave e v g s he h
  opened := fun _ g s _ h => (R.enter .openStart g s rfl h).2
  closed := fun _ _ _ _ h _ =>
    ⟨(kept rfl h).1, (kept rfl h).2,
      fun _ => (kept (x := .resumes (.inner .closeStart) ()) rfl h).2⟩
  deleted := fun _ g s _ h _ => (R.enter .delete g s rfl h).2
  configure := fun _ _ fuel _ _ _ h => R.sat_configure fuel h
  configured := fun _ _ _ _ h => h
  setter := fun _ stk fuel o g _ _ ho _ h =>
    sat_setterOption (R.option stk o) (quietQuery fun _ => rfl)
      (fun _ _ v hv h' => ⟨sameChain (v := v.load) hv h'.1, h'.2⟩) fuel o ho ⟨h, R.during o g⟩
      (fun o' g' _ ho' h' => R.supplied o' g' (ho' ▸ h'.2)) (fun _ _ _ h' => h'.1)
      fun _ _ h' => h'.1
  getSSL := fun _ _ fuel b threshold _ _ hout h _ =>
    basicRules.sat_getFromSSL readRules hout fuel b threshold h fun _ _ h => h
  reread := fun _ _ fuel _ _ hout h hest =>
    basicRules.sat_retryRead readRules hout fuel h hest fun _ _ h => h
  begins := fun _ _ _ h => (kept rfl h).1
  handshake := by
    intro e stk g s _ hcause
    refine kept rfl (hcause.inv ?_ (fun _ _ _ _ h => h) fun g s r h => (kept rfl h).2)
    intro _ e g s he _ h
    exact (R.enter e g s he h).2
  outcome := by
    intro e stk g s g' s' r _ _ h _ _
    obtain ⟨hev, hinv⟩ := kept (x := .resumes .mbedtlsSslHandshake r) rfl h
    refine ⟨hev, fun _ => kept rfl hinv, fun _ _ a i f b => ?_, fun _ => hinv⟩
    have hafter := (kept (x := .asked .mbedtlsSslSessionReset a) rfl hinv).2
    exact ⟨(C.quiet _ _ _ rfl).1, kept rfl hafter⟩

/-- **The rule of contracts about the chain.** -/
theorem meets (fuel : ℕ) : C.core.toContract.Meets (discipline M extra) (code fuel) :=
  C.core.meets R.requestRules fuel

end Rules

end ChainContract

end NewtonTLS
