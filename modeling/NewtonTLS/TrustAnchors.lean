/-
# Trust anchors over several connections

A certificate-authority option should replace the default roots, and without one
each default root should be trusted once.  An option stops the roots from being
loaded, but `mSSLCAChain` is only ever appended to: what an earlier `SSLConfigure`
has loaded, or a refused option has left, is still in it.  `fresh` says that this
does no harm, and a run configures the right anchors exactly as long as it holds.
-/
import NewtonTLS.ConnectionEndRules
import Mathlib.Data.List.Perm.Basic

open Reentrant

namespace NewtonTLS

namespace TrustAnchors

/-! ## What is observed -/

/-- The certificates parsed so far: default roots, for earlier configurations and for the
current or last one, those of accepted and of refused certificate-authority options, and those of
the option that is being handled. -/
structure Seen : Type where
  inOption : Bool
  accepted : Bool
  earlier : List Certificate
  current : List Certificate
  supplied : List Certificate
  refused : List Certificate
  option : List Certificate
  deriving DecidableEq

/-- What neither the current configuration has loaded nor an accepted option has supplied. -/
def Seen.others (g : Seen) : List Certificate := g.earlier ++ g.refused ++ g.option

/-- All certificates parsed so far. -/
def Seen.parsed (g : Seen) : List Certificate := g.current ++ g.others ++ g.supplied

/-- Certificates are parsed. -/
def Seen.parse (g : Seen) (added : List Certificate) : Seen :=
  if g.inOption then { g with option := g.option ++ added }
  else { g with current := g.current ++ added }

/-- The option that is being handled is answered. -/
def Seen.answer (g : Seen) (v : Option Value) : Seen :=
  match g.inOption, v with
  | true, some (.option .opSuccess _) =>
    { g with inOption := false, accepted := true, supplied := g.supplied ++ g.option, option := [] }
  | true, _ => { g with inOption := false, refused := g.refused ++ g.option, option := [] }
  | false, _ => g

/-- A configuration begins. -/
def Seen.configure (g : Seen) : Seen :=
  { g with earlier := g.earlier ++ g.current, current := [] }

/-- One event. -/
def next (g : Seen) : Label CESig → Seen
  | .enter (.processOptionStart (.sslCertificateAuthority _)) => { g with inOption := true }
  | .leave (.processOptionStart (.sslCertificateAuthority _)) v => g.answer v
  | .asked .getConnectionEndPort _ => g.configure
  | .asked (.mbedtlsX509CrtParse _) a => g.parse (ParseAnswer.added a)
  | _ => g

/-- No option has been sent, and nothing has been loaded. -/
abbrev monitor : Monitor CESig where
  Obs := Seen
  init := ⟨false, false, [], [], [], [], []⟩
  next := next

/-- After a certificate-authority option was accepted the anchors are certificates of
accepted options, and before each default root that has been loaded is an anchor once. -/
def anchored (g : Seen) (_ : ConnectionEnd) : Label CESig → Bool
  | .asked (.mbedtlsSslConfCaChain chain) _ =>
    if g.accepted then chain.all (· ∈ g.supplied)
    else g.current.all fun c => chain.count c = g.current.count c
  | _ => true

/-- What earlier configurations have loaded and refused options have left was supplied by
accepted options too, or, before one was accepted, is not loaded now. -/
def fresh (g : Seen) (_ : ConnectionEnd) : Label CESig → Bool
  | .asked (.mbedtlsSslConfCaChain _) _ =>
    if g.accepted then g.others.all (· ∈ g.supplied) else g.others.all (· ∉ g.current)
  | _ => true

/-! ## The invariant -/

/-- The chain holds what has been parsed, and an option stops the roots from being loaded. -/
structure Holds (g : Seen) (s : ConnectionEnd) : Prop where
  chain : s.mSSLCAChain.Perm g.parsed
  stops : g.accepted = true → s.mSSLLoadRootCertificates = false
  handled : g.inOption = true → s.mSSLLoadRootCertificates = false
  supplied : g.accepted = false → g.supplied = []

/-- The invariant looks at the chain and at the flag. -/
theorem Holds.same {g : Seen} {s s' : ConnectionEnd} (h : Holds g s)
    (hchain : s'.mSSLCAChain = s.mSSLCAChain)
    (hload : s'.mSSLLoadRootCertificates = s.mSSLLoadRootCertificates ∨
      s'.mSSLLoadRootCertificates = false) : Holds g s' := by
  have hstopped : s.mSSLLoadRootCertificates = false → s'.mSSLLoadRootCertificates = false := by
    intro hs
    rcases hload with hsame | hnone
    · rw [hsame, hs]
    · exact hnone
  refine ⟨?_, fun hacc => hstopped (h.stops hacc), fun hin => hstopped (h.handled hin), h.supplied⟩
  rw [hchain]
  exact h.chain

/-- Roots are loaded while no option has been accepted. -/
theorem Holds.not_accepted {g : Seen} {s : ConnectionEnd} (h : Holds g s)
    (hload : s.mSSLLoadRootCertificates = true) : g.accepted = false := by
  by_contra hacc
  rw [h.stops (by simpa using hacc)] at hload
  cases hload

/-- A configuration begins with nothing loaded. -/
theorem Holds.configure {g : Seen} {s : ConnectionEnd} (h : Holds g s) : Holds g.configure s := by
  refine ⟨List.perm_iff_count.mpr fun c => ?_, h.stops, h.handled, h.supplied⟩
  have hc := List.perm_iff_count.mp h.chain c
  simp only [Seen.configure, Seen.parsed, Seen.others, List.count_append, List.count_nil] at hc ⊢
  omega

/-- Parsing appends the same certificates on both sides. -/
theorem Holds.parse {g : Seen} {s : ConnectionEnd} (h : Holds g s) (added : List Certificate) :
    Holds (g.parse added) { s with mSSLCAChain := s.mSSLCAChain ++ added } := by
  have hperm : (s.mSSLCAChain ++ added).Perm (g.parse added).parsed := by
    refine List.perm_iff_count.mpr fun c => ?_
    have hc := List.perm_iff_count.mp h.chain c
    unfold Seen.parse
    split <;> simp only [Seen.parsed, Seen.others, List.count_append] at hc ⊢ <;> omega
  unfold Seen.parse at hperm ⊢
  split at hperm
  · next hin =>
    rw [if_pos hin]
    exact ⟨hperm, h.stops, h.handled, h.supplied⟩
  · next hout =>
    rw [if_neg hout]
    exact ⟨hperm, h.stops, h.handled, h.supplied⟩

/-- The answer to an option decides whose certificates they are, and parses none. -/
theorem Holds.answer {g : Seen} {s : ConnectionEnd} (h : Holds g s) (v : Option Value) :
    Holds (g.answer v) s := by
  unfold Seen.answer
  split
  · next hin =>
    refine ⟨List.perm_iff_count.mpr fun c => ?_, fun _ => h.handled hin, by simp, by simp⟩
    have hc := List.perm_iff_count.mp h.chain c
    simp only [Seen.parsed, Seen.others, List.count_append, List.count_nil] at hc ⊢
    omega
  · refine ⟨List.perm_iff_count.mpr fun c => ?_, h.stops, by simp, h.supplied⟩
    have hc := List.perm_iff_count.mp h.chain c
    simp only [Seen.parsed, Seen.others, List.count_append, List.count_nil] at hc ⊢
    omega
  · exact h

/-- When the chain becomes the anchors: after an accepted option nothing has been loaded. -/
theorem Holds.anchored_iff {g : Seen} {s : ConnectionEnd} (h : Holds g s)
    (hnone : g.accepted = true → g.current = []) (a : Unit) :
    anchored g s (.asked (.mbedtlsSslConfCaChain s.mSSLCAChain) a) = true ↔
      fresh g s (.asked (.mbedtlsSslConfCaChain s.mSSLCAChain) a) = true := by
  simp only [anchored, fresh]
  split
  · next hacc =>
    simp only [List.all_eq_true, h.chain.mem_iff, Seen.parsed, hnone hacc, List.nil_append,
      List.mem_append, decide_eq_true_eq]
    exact ⟨fun hall c hc => hall c (.inl hc), fun hall c hc => hc.elim (hall c) id⟩
  · next hacc =>
    simp only [List.all_eq_true, h.chain.count_eq, Seen.parsed, h.supplied (by simpa using hacc),
      List.append_nil, List.count_append, decide_eq_true_eq]
    constructor
    · intro hall c hother hcurrent
      have hcount := hall c hcurrent
      have hpos := List.count_pos_iff.mpr hother
      omega
    · intro hall c hcurrent
      have hzero := List.count_eq_zero.mpr fun hother => hall c hother hcurrent
      omega

/-! ## The rules -/

/-- Data that is sent or received is not observed. -/
theorem traffic_quiet (g : Seen) (s : ConnectionEnd) (x : Label CESig) (hx : Traffic s x) :
    (anchored g s x = true ↔ fresh g s x = true) ∧ next g x = g := by
  cases x with
  | enter e => cases e <;> first | exact ⟨Iff.rfl, rfl⟩ | cases hx
  | leave e v => cases e <;> first | exact ⟨Iff.rfl, rfl⟩ | cases hx
  | asked q a => cases q <;> first | exact ⟨Iff.rfl, rfl⟩ | cases hx
  | calls _ c => exact ⟨Iff.rfl, rfl⟩
  | resumes c r => exact ⟨Iff.rfl, rfl⟩

/-- The contract: the anchors of every configuration are right if and only if what was parsed
before it does no harm. -/
def core : CoreContract monitor where
  Inv := Holds
  Every := fun g s x => anchored g s x = true ↔ fresh g s x = true
  inv_core := fun _ _ _ h hcore => h.same hcore.mSSLCAChain (.inl hcore.mSSLLoadRootCertificates)
  quiet := fun g s x _ hx => traffic_quiet g s x hx

/-- The questions that are observed. -/
def isObserved : Query → Bool
  | .getConnectionEndPort => true
  | .mbedtlsX509CrtParse _ => true
  | .mbedtlsSslConfCaChain _ => true
  | _ => false

/-- The other questions are not observed. -/
theorem quietQuery {q : Query} (hq : isObserved q = false) : Quiet core.toContract q := by
  intro g s a
  cases q <;> first | exact ⟨Iff.rfl, rfl⟩ | cases hq

theorem memoryQuiet : MemoryQuiet core.toContract := by
  intro q hq
  apply quietQuery
  cases q <;> first | rfl | cases hq

theorem basicRules : BasicRules core.toContract (fun _ _ _ _ => true) Holds where
  at_iff := fun _ _ _ _ => Iff.rfl
  rely_out := fun _ _ _ _ _ hout => core.rely_out hout
  rely_tls := fun _ _ _ _ _ _ hc h => (core.rely_tls hc h).2
  frame := fun _ _ _ h _ _ => h.same rfl (.inl rfl)
  memory := memoryQuiet
  putList := by
    intro q hq
    apply quietQuery
    cases q <;> first | rfl | cases hq
  calls := fun _ _ _ _ _ _ h _ => ⟨Iff.rfl, h⟩
  resumes := fun _ _ _ _ _ _ h _ _ => ⟨Iff.rfl, h⟩
  reset := fun _ _ _ h _ => ⟨Iff.rfl, h⟩

theorem readRules : ReadRules core.toContract Holds where
  getList := by
    intro q hq
    apply quietQuery
    cases q <;> first | rfl | cases hq
  frame := fun _ _ _ h => h.same rfl (.inl rfl)
  read := fun _ _ _ _ h _ => ⟨Iff.rfl, h⟩
  readEnds := fun _ _ _ _ h => ⟨Iff.rfl, h⟩
  completes := fun _ _ _ _ _ _ _ h => ⟨Iff.rfl, h⟩

/-! ## Configuring -/

/-- Certificates are parsed for an option, or as default roots while these are loaded. -/
def Parsing (g : Seen) (s : ConnectionEnd) : Prop :=
  Holds g s ∧ (g.inOption = true ∨ s.mSSLLoadRootCertificates = true)

/-- The default roots are noted as they are parsed. -/
theorem loadRules (D : Discipline monitor ConnectionEnd) (stk : List Call) :
    LoadRules core.toContract D stk Parsing (fun _ _ => True) fun _ => True where
  alloc := fun _ s size a h => memoryQuiet.alloc_kept (J := Parsing)
    (s := { s with nextPtr := s.nextPtr + 1 }) _ size a ⟨h.1.same rfl (.inl rfl), h.2⟩
  release := fun _ _ p a h _ => memoryQuiet.release_kept p a h
  same := fun _ _ _ hchain _ h => ⟨h.1.same hchain (.inl rfl), h.2⟩
  load := by
    intro g s q a hq h _
    obtain ⟨hev, hnext⟩ := quietQuery (q := q) (by cases q <;> first | rfl | cases hq) g s a
    rw [hnext]
    exact ⟨hev, h⟩
  stored := fun _ _ _ _ _ _ _ _ _ _ => trivial
  parse := by
    intro g s buf a h _ _
    refine ⟨Iff.rfl, h.1.parse _, ?_⟩
    show (g.parse (ParseAnswer.added a)).inOption = true ∨ s.mSSLLoadRootCertificates = true
    unfold Seen.parse
    split
    · next hin => exact .inl hin
    · next hout => exact .inr (h.2.resolve_left hout)

section configure

variable {e : Entry} {stk : List Call} {g : Seen} {s : ConnectionEnd}
  {extra : List Call → Seen → ConnectionEnd → Label CESig → Bool}

/-- The rest of the configuration leaves chain and flag as they are. -/
theorem sat_setUpSSL (h : Holds g s) (hnone : g.accepted = true → g.current = [])
    {Q : Post monitor ConnectionEnd Int} (hQ : ∀ s', Holds g s' → Q g (some 0) s') :
    setUpSSL.Sat core.toContract (discipline monitor extra) e stk Q g s := by
  refine sat_setUpSSL_phases (J := fun g' _ => g' = g) (quietQuery rfl) rfl ?_ ?_
  · rintro q a _ hq hfits rfl _
    cases q with
    | mbedtlsSslConfCaChain chain =>
      rw [show chain = s.mSSLCAChain from hfits]
      exact ⟨h.anchored_iff hnone a, rfl⟩
    | _ => first | exact ⟨Iff.rfl, rfl⟩ | cases hq
  · intro g' i f b (hsame : g' = g)
    rw [hsame]
    have hend : setUpFields.Sat core.toContract (discipline monitor extra) e stk Q g
        ({ s.withTimer i f b with mSSLHostname := none } : ConnectionEnd) :=
      sat_setUpFields memoryQuiet (s := s) s.loadValues i f b rfl fun w hw _ =>
        ⟨Iff.rfl, hQ (s.configured w) (h.same hw (.inl rfl))⟩
    simp only [Code.sat_bind]
    cases hhost : s.mSSLHostname with
    | none =>
      have hsame : ({ s.withTimer i f b with mSSLHostname := none } : ConnectionEnd) =
          s.withTimer i f b := by
        rw [← hhost]
        rfl
      rwa [hsame] at hend
    | some host =>
      simp only [passHostname, Code.sat_bind]
      refine (quietQuery rfl).sat_ask fun _ => ?_
      simp only [Post.andThen_some, Code.sat_bind]
      exact sat_disposPtr memoryQuiet host hend

/-- `SSLConfigure` loads roots only while no option has been accepted. -/
theorem sat_configure (fuel : ℕ) (h : Holds g s) :
    (sslConfigure fuel).Sat core.toContract (discipline monitor extra) e stk
      (ConfigureEnds (M := monitor) Holds (fun _ _ g' s' => Holds g' s') g s) g s := by
  have hend : ∀ (g' : Seen) (r : Option Int) (s' : ConnectionEnd), Holds g' s' →
      ConfigureEnds (M := monitor) Holds (fun _ _ g' s' => Holds g' s') g s g' r s' :=
    fun g' r s' h' => ⟨fun _ => h', fun _ => h'⟩
  simp only [sslConfigure, Code.sat_bind]
  refine sat_ask fun a _ => ⟨Iff.rfl, ?_⟩
  have hasked : Holds (next g (.asked .getConnectionEndPort a)) s := h.configure
  simp only [Post.andThen_some, Code.sat_bind]
  refine (quietQuery rfl).sat_ask fun _ => ?_
  simp only [Post.andThen_some, Code.sat_bind]
  refine (quietQuery rfl).sat_ask fun serialNumber => ?_
  simp only [Post.andThen_some, Code.sat_bind]
  refine (quietQuery rfl).sat_ask fun r => ?_
  simp only [Post.andThen_some, Code.sat_ite]
  refine ⟨fun _ => hend _ _ _ hasked, fun _ => ?_⟩
  simp only [Code.sat_bind, Code.sat_get, Post.andThen_some, Code.sat_ite]
  refine ⟨fun hroots => ?_, fun _ => ?_⟩
  · refine sat_loadRootCertificates (loadRules _ stk).toParseRules (loadRules _ stk) ?_ fuel
      ⟨hasked, .inr hroots⟩ (fun _ _ _ _ h' => hend _ _ _ h'.1) (fun g' v h' => ?_)
      fun _ _ h' => hend _ _ _ h'.1
    · exact fun _ _ _ h' _ => ⟨Iff.rfl, h'⟩
    · refine sat_setUpSSL h'.1 (fun hacc => ?_) fun _ => hend _ _ _
      rw [h'.1.not_accepted hroots] at hacc
      cases hacc
  · exact sat_setUpSSL hasked (fun _ => rfl) fun _ => hend _ _ _

end configure

/-! ## Options -/

/-- An option that is handled keeps the invariant: the authority option clears the flag before
anything else, and no option sets it. -/
theorem sat_setter {e : Entry} {stk : List Call} {g : Seen} {s : ConnectionEnd} (fuel : ℕ)
    {o : TOption} (ho : o.isSetter = true) (h : Holds g s) :
    (processOptionStart fuel o).Sat core.toContract (discipline monitor fun _ _ _ _ => true) e stk
      (fun g' _ s' => Holds g' s') (next g (.enter (.processOptionStart o))) s := by
  cases o with
  | sslHostname hostname =>
    simp only [processOptionStart, Code.sat_bind]
    exact sat_sslHostnameOption memoryQuiet hostname (fun _ => h) fun _ => h.same rfl (.inl rfl)
  | sslVerifyMode verifyMode =>
    simp only [processOptionStart, Code.sat_bind]
    refine sat_sslVerifyModeOption verifyMode (h.same rfl ?_)
    show (if verifyMode = MBEDTLS_SSL_VERIFY_NONE then false else s.mSSLLoadRootCertificates) = _ ∨
      (if verifyMode = MBEDTLS_SSL_VERIFY_NONE then false else s.mSSLLoadRootCertificates) = false
    split
    · exact .inr rfl
    · exact .inl rfl
  | sslCertificateAuthority o =>
    simp only [processOptionStart, Code.sat_bind]
    have hcleared :
        Holds { g with inOption := true } { s with mSSLLoadRootCertificates := false } :=
      ⟨h.chain, fun _ => rfl, fun _ => rfl, h.supplied⟩
    exact sat_sslCertificateAuthorityOption (loadRules _ stk).toParseRules o
      ⟨hcleared, .inl rfl⟩ (fun _ _ _ => trivial) (fun _ _ _ h' => h'.1) fun _ _ h' => h'.1
  | sslPeerCertificate o =>
    simp only [processOptionStart, Code.sat_bind]
    exact sat_sslPeerCertificateOption (quietQuery rfl) o fun _ => h
  | sslEnable enabled => cases ho
  | other label => cases ho

/-! ## Requests -/

/-- Entering a function leaves the chain. -/
theorem entered {e : Entry} {g : Seen} {s : ConnectionEnd} (he : e.sets = false)
    (h : Holds g s) : Holds (next g (.enter e)) s := by
  cases e with
  | processOptionStart o => cases o <;> first | exact h | cases he
  | _ => exact h

theorem left {g : Seen} {s : ConnectionEnd} (e : Entry) (v : Option Value) (h : Holds g s) :
    Holds (next g (.leave e v)) s := by
  cases e with
  | processOptionStart o =>
    cases o with
    | sslCertificateAuthority o => exact h.answer v
    | _ => exact h
  | _ => exact h

theorem entryRules : EntryRules core.toContract (fun _ _ _ _ => true) Holds
    fun _ _ g' s' => Holds g' s' where
  basic := basicRules.callRules
  enter := by
    intro stk e g s _ _ h
    exact ⟨by cases e <;> exact Iff.rfl, fun he => entered he h⟩
  leave := fun e v _ _ _ h => ⟨by cases e <;> exact Iff.rfl, left e v h⟩
  opened := fun _ _ _ _ h => h.same rfl (.inl rfl)
  connects := fun _ _ _ _ h _ => h
  connected := fun _ r _ _ _ h _ => ConnectionEnd.of_connected r h (h.same rfl (.inl rfl))
  enabled := fun _ _ _ _ _ h => h.same rfl (.inl rfl)
  closed := fun _ _ _ _ h _ =>
    ⟨Iff.rfl, h, fun _ => sat_sslUnconfigure memoryQuiet (h.same rfl (.inl rfl))⟩
  delete := by
    intro stk g s hout _ h
    refine basicRules.callRules.sat_delete ⟨rfl, hout⟩ (memoryQuiet _ rfl)
      (fun _ => memoryQuiet _ rfl) (fun _ _ _ h => h.same rfl (.inl rfl))
      (entered (e := .delete) rfl h) fun _ => ?_
    exact sat_sslUnconfigure memoryQuiet ⟨rfl, h.same rfl (.inl rfl)⟩
  configure := by
    intro e stk fuel g s _ hbegins
    refine sat_configure fuel (hbegins.elim (fun _ _ _ h _ => h) ?_)
    exact fun _ _ _ h _ => h.same rfl (.inl rfl)
  configured := fun _ _ _ _ h => h
  setter := fun _ _ fuel _ _ _ _ ho _ h => sat_setter fuel ho h
  getSSL := fun _ _ fuel b threshold _ _ hout hb _ h _ =>
    basicRules.sat_getFromSSL readRules hout fuel b threshold (entered (Entry.sets_of_gets hb) h)
      fun _ _ h' => h'
  reread := fun _ fuel _ _ hout h _ hest _ =>
    basicRules.sat_retryRead readRules ⟨rfl, hout⟩ fuel h hest fun _ _ h' => h'
  put := fun _ b _ _ hout h hconf _ hest =>
    basicRules.sendRules.sat_putToSSL trivial ⟨rfl, hout⟩ b h hconf hest fun _ _ h' => h'
  terminate := fun _ _ _ hout _ h =>
    basicRules.sendRules.sat_terminateStart trivial ⟨rfl, hout⟩
      (entered (e := .terminateStart) rfl h) fun _ _ h' => h'
  begins := fun _ _ _ _ _ _ => Iff.rfl
  upgrades := fun _ _ _ => Iff.rfl
  handshake := fun _ _ _ _ _ hcause => ⟨Iff.rfl, hcause.elim (fun _ _ _ h => h) (fun _ _ h => h)
    (fun _ _ h _ => h) fun _ _ _ _ h => h⟩
  outcome := by
    intro e stk g s g' s' r _ _ h _ _
    refine ⟨Iff.rfl, fun _ => ⟨Iff.rfl, h.same rfl (.inl rfl)⟩, fun _ _ a i f b => ?_, fun _ => h⟩
    exact ⟨Iff.rfl, Iff.rfl, h.same rfl (.inl rfl)⟩

/-! ## The anchors of every configuration -/

/-- One root is listed; the parser takes what it is given as one certificate. -/
def storeAnswer : (q : Query) → q.Answer
  | .listRootCertificates none => ListAnswer.mk 2 []
  | .listRootCertificates (some _) => ListAnswer.mk 2 [65, 0]
  | .getRootCertificate _ 0 => CertAnswer.mk 1 none
  | .getRootCertificate _ (_ + 1) => CertAnswer.mk 1 (some [7])
  | .mbedtlsX509CrtParse buf => ParseAnswer.parsed 0 [buf]
  | q => plainAnswer q

/-- An option with a certificate. -/
def authority (certificate : List Byte) : Move CESig :=
  .enter (.processOptionStart (.sslCertificateAuthority
    ⟨UInt32.ofNat certificate.length, 0, certificate⟩)) fun _ => storeAnswer

/-- Connect with SSL, and close. -/
def session : List (Move CESig) :=
  [.enter .connectStart fun _ => storeAnswer, back, enter (.connectCompleteCB 0), back, back,
    enter .closeStart, back]

/-- Open with SSL enabled. -/
def opening : List (Move CESig) :=
  [enter .openStart, back, enter (.processOptionStart (.sslEnable true))]

end TrustAnchors

end NewtonTLS
