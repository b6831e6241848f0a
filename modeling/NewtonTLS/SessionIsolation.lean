/-
# Sessions do not influence each other

A session begins with `OpenStart` and ends with `CloseStart` or `Delete`.  What SSL does
in it is decided by six settings of the object (`Settings`), which should be those that
the options and events of the session make of the settings of a new object.  The observer
forgets everything at `OpenStart` and computes them from the events of the session alone.

`OpenStart` itself resets one of the six.  As long as it finds the others as `New` makes
them, the settings are at every moment those of the session, everything that SSL is told
is told by them, and two sessions with the same events have the same settings
(`session_isolated`).  Otherwise a verify mode reaches the next session (`not_isolated`).
-/
import NewtonTLS.ConnectionEndRules
import Mathlib.Data.List.Induction

open Reentrant

namespace NewtonTLS

namespace SessionIsolation

/-! ## Settings -/

/-- What decides whether and how SSL is used, and where a handshake reports to. -/
structure Settings : Type where
  enabled : Bool
  upgradable : Bool
  authMode : UInt32
  loadRoots : Bool
  hostname : Option (List Byte)
  chain : List Certificate
  deriving DecidableEq

/-- The settings of the object. -/
def settings (s : ConnectionEnd) : Settings where
  enabled := s.mSSLEnabled
  upgradable := s.mUpgradable
  authMode := s.mSSLAuthMode
  loadRoots := s.mSSLLoadRootCertificates
  hostname := s.mSSLHostname.map Block.bytes
  chain := s.mSSLCAChain

/-- The settings of a session before its first option. -/
def unset : Settings where
  enabled := false
  upgradable := false
  authMode := MBEDTLS_SSL_VERIFY_REQUIRED
  loadRoots := true
  hostname := none
  chain := []

/-- An option of the session. -/
def Settings.option (t : Settings) : TOption → Settings
  | .sslEnable enabled => { t with enabled := enabled }
  | .sslHostname hostname =>
    { t with hostname := some (t.hostname.getD (cString hostname ++ [0])) }
  | .sslVerifyMode verifyMode =>
    { t with
      authMode := verifyMode
      loadRoots := if verifyMode = MBEDTLS_SSL_VERIFY_NONE then false else t.loadRoots }
  | .sslCertificateAuthority _ => { t with loadRoots := false }
  | _ => t

/-- What happens to the settings. -/
inductive Event : Type where
  | opened
  | option (o : TOption)
  | connected (result : Int)
  | parsed (added : List Certificate)
  | configured
  | closed
  deriving DecidableEq

/-- What an event of a run is to the settings. -/
def Event.of : Label CESig → Option Event
  | .enter .openStart => some .opened
  | .enter (.processOptionStart o) => some (.option o)
  | .enter (.connectCompleteCB r) => some (.connected r)
  | .asked (.mbedtlsX509CrtParse _) a => some (.parsed (ParseAnswer.added a))
  | .asked .sslConfigured _ => some .configured
  | .enter .closeStart => some .closed
  | .enter .delete => some .closed
  | _ => none

/-- One event of the session.  A connection without SSL can be upgraded; a configuration
consumes the hostname. -/
def Settings.next (t : Settings) : Event → Settings
  | .opened => unset
  | .option o => t.option o
  | .connected r => if t.enabled = false ∧ r = 0 then { t with upgradable := true } else t
  | .parsed added => { t with chain := t.chain ++ added }
  | .configured => { t with hostname := none }
  | .closed => t

/-- The events since `OpenStart` in their order, if a session is in progress. -/
def sessionNext (session : Option (List Event)) : Event → Option (List Event)
  | .opened => some []
  | .closed => none
  | e => session.map (· ++ [e])

/-- The events of the session that is in progress at the end of a run. -/
def sessionOf (l : Log CESig ConnectionEnd) : Option (List Event) :=
  l.foldl (fun session x => (Event.of x.2).elim session (sessionNext session)) none

/-! ## What is observed -/

/-- A session: whether it is in progress, its settings, whether `ConnectStart` has still to
configure SSL and `ConnectCompleteCB` to begin a handshake, and whether the configuration that
is made has listed the default roots and passed the hostname. -/
structure Session : Type where
  live : Bool
  settings : Settings
  configures : Bool
  handshakes : Bool
  listed : Bool
  named : Bool

/-- Whether a session is in progress. -/
def liveNext (live : Bool) : Event → Bool
  | .opened => true
  | .closed => false
  | _ => live

/-- One event. -/
def next (g : Session) (x : Label CESig) : Session :=
  let g := { g with
    live := (Event.of x).elim g.live (liveNext g.live)
    settings := (Event.of x).elim g.settings g.settings.next }
  match x with
  | .enter .openStart =>
    { g with configures := false, handshakes := false, listed := false, named := false }
  | .enter .connectStart => { g with configures := g.settings.enabled }
  | .enter (.connectCompleteCB r) => { g with handshakes := g.settings.enabled && r == 0 }
  | .asked .getConnectionEndPort _ =>
    { g with configures := false, listed := false, named := false }
  | .asked (.listRootCertificates _) _ => { g with listed := true }
  | .asked (.mbedtlsSslSetHostname _) _ => { g with named := true }
  | .asked (.handshakeBegins .connect) _ => { g with handshakes := false }
  | _ => g

/-- No session, whose fields are those of a new object. -/
abbrev monitor : Monitor CESig where
  Obs := Session
  init := ⟨false, unset, false, false, false, false⟩
  next := next

/-- What SSL is told, and who is told of a handshake, follows from the settings of the
session. -/
def behaves (g : Session) : Label CESig → Bool
  | .asked .getConnectionEndPort _ => g.settings.enabled
  | .asked .mbedtlsSslConfigDefaults _ => g.listed == g.settings.loadRoots
  | .asked (.mbedtlsSslConfCaChain chain) _ => chain == g.settings.chain
  | .asked (.mbedtlsSslConfAuthmode mode) _ => mode == g.settings.authMode
  | .asked (.mbedtlsSslSetHostname hostname) _ => g.settings.hostname == some hostname
  | .asked .sslConfigured _ => g.named == g.settings.hostname.isSome
  | .asked (.handshakeBegins .connect) _ => g.handshakes
  | .calls _ (.client (.processOptionComplete _)) => g.settings.upgradable
  | .calls e (.client (.connectComplete r)) =>
    r != .code 0 || !g.settings.upgradable || (e == .connectCompleteCB 0 && !g.settings.enabled)
  | _ => true

/-- The object has the settings of the session, and what is due has been done. -/
def agrees (g : Session) (s : ConnectionEnd) : Bool :=
  settings s == g.settings && !g.configures && !g.handshakes

/-- In a session the object behaves and is set as the session says. -/
def isolated (g : Session) (s : ConnectionEnd) (x : Label CESig) : Bool :=
  (!g.live || behaves g x) && monitor.passes (fun g s => !g.live || agrees g s) g s x

/-- `OpenStart` finds the settings, up to the one that it resets, as `New` makes them, and a
`CloseStart` that returns in a later session finds SSL not configured. -/
def opensUnset (_ : List Call) (g : Session) (s : ConnectionEnd) : Label CESig → Bool
  | .enter .openStart => { settings s with enabled := false } = unset
  | .resumes (.inner .closeStart) _ => !g.live || !s.mSSLConfigured
  | _ => true

/-! ## The invariant -/

/-- In a session the settings are those of the session, and nothing is due. -/
def Agrees (g : Session) (s : ConnectionEnd) : Prop :=
  g.live = true → settings s = g.settings ∧ g.configures = false ∧ g.handshakes = false

/-- The invariant says what is to be shown of a session. -/
theorem agrees_of_agrees {g : Session} {s : ConnectionEnd} (h : Agrees g s) :
    (!g.live || agrees g s) = true := by
  cases hlive : g.live with
  | false => rfl
  | true =>
    obtain ⟨hset, hconf, hshake⟩ := h hlive
    simp [agrees, hset, hconf, hshake]

/-- The settings are all that matters. -/
theorem Agrees.same {g : Session} {s s' : ConnectionEnd} (h : Agrees g s)
    (hset : settings s' = settings s) : Agrees g s' := by
  intro hlive
  rw [hset]
  exact h hlive

/-- An event that changes the settings as the object does, and leaves nothing due. -/
theorem Agrees.set {g g' : Session} {s s' : ConnectionEnd} (h : Agrees g s)
    (hlive : g'.live = g.live) (hconf : g'.configures = g.configures)
    (hshake : g'.handshakes = g.handshakes)
    (hset : settings s = g.settings → settings s' = g'.settings) : Agrees g' s' := by
  intro hl
  obtain ⟨h₁, h₂, h₃⟩ := h (hlive ▸ hl)
  exact ⟨hset h₁, hconf.trans h₂, hshake.trans h₃⟩

/-- Outside of a session nothing is asked. -/
theorem Agrees.closed {g : Session} (s : ConnectionEnd) (hlive : g.live = false) : Agrees g s := by
  intro hl
  rw [hlive] at hl
  cases hl

/-- The events that the observer looks at. -/
def Label.isSession : Label CESig → Bool
  | .enter .openStart => true
  | .enter .closeStart => true
  | .enter .delete => true
  | .enter .connectStart => true
  | .enter (.connectCompleteCB _) => true
  | .enter (.processOptionStart _) => true
  | .asked .getConnectionEndPort _ => true
  | .asked (.listRootCertificates _) _ => true
  | .asked (.mbedtlsX509CrtParse _) _ => true
  | .asked (.mbedtlsSslSetHostname _) _ => true
  | .asked .sslConfigured _ => true
  | .asked (.handshakeBegins .connect) _ => true
  | _ => false

/-- The other events are not observed. -/
theorem next_eq {x : Label CESig} (hx : Label.isSession x = false) (g : Session) :
    next g x = g := by
  cases x with
  | enter e => cases e <;> first | rfl | cases hx
  | asked q a =>
    cases q with
    | handshakeBegins r => cases r <;> first | rfl | cases hx
    | _ => first | rfl | cases hx
  | _ => rfl

/-- The contract. -/
def core : CoreContract monitor where
  Inv := Agrees
  Every := fun g _ x => g.live = true → behaves g x = true
  inv_core := by
    intro g s s' h hcore
    refine h.same ?_
    simp only [settings, hcore.mSSLEnabled, hcore.mUpgradable, hcore.mSSLAuthMode,
      hcore.mSSLLoadRootCertificates, hcore.mSSLHostname, hcore.mSSLCAChain]
  quiet := by
    intro g s x _ hx
    cases x with
    | enter e => exact ⟨fun _ => rfl, next_eq (by cases e <;> first | rfl | cases hx) g⟩
    | leave e v => exact ⟨fun _ => rfl, rfl⟩
    | asked q a => cases q <;> first | exact ⟨fun _ => rfl, rfl⟩ | cases hx
    | calls e c =>
      rcases Call.isTraffic_cases hx.2 with ⟨_, rfl⟩ | ⟨_, _, rfl⟩ | ⟨_, _, rfl, _⟩ |
        ⟨_, _, _, rfl, _⟩ | ⟨_, rfl⟩ <;> exact ⟨fun _ => rfl, rfl⟩
    | resumes c r => exact ⟨fun _ => rfl, rfl⟩

/-- The questions that are observed or have to follow from the settings. -/
def isObserved : Query → Bool
  | .getConnectionEndPort => true
  | .listRootCertificates _ => true
  | .mbedtlsX509CrtParse _ => true
  | .mbedtlsSslConfigDefaults => true
  | .mbedtlsSslConfCaChain _ => true
  | .mbedtlsSslConfAuthmode _ => true
  | .mbedtlsSslSetHostname _ => true
  | .sslConfigured => true
  | .handshakeBegins _ => true
  | _ => false

/-- The other questions are not observed. -/
theorem quietQuery {q : Query} (hq : isObserved q = false) : Quiet core.toContract q := by
  intro g s a
  cases q <;> first | exact ⟨fun _ => rfl, rfl⟩ | cases hq

theorem memoryQuiet : MemoryQuiet core.toContract := by
  intro q hq
  apply quietQuery
  cases q <;> first | rfl | cases hq

/-- A call that fits the state is not observed, and says what the settings say. -/
theorem behaves_call {e : Entry} {g : Session} {s : ConnectionEnd} {c : Call} (h : Agrees g s)
    (hfits : c.fits e s) : g.live = true → behaves g (.calls e c) = true := by
  intro hlive
  have hset := (h hlive).1
  cases c with
  | client c =>
    cases c with
    | processOptionComplete r => exact hfits.elim
    | connectComplete r =>
      rcases hfits with ⟨k, rfl, rfl, hk⟩ | ⟨k, rfl, rfl, hplain⟩
      · simp [behaves, hk]
      · by_cases hk : k = 0
        · have henabled : g.settings.enabled = false := by rw [← hset]; exact hplain hk
          simp [behaves, hk, henabled]
        · simp [behaves, hk]
    | _ => rfl
  | _ => rfl

theorem callRules (extra : List Call → Session → ConnectionEnd → Label CESig → Bool) :
    CallRules core.toContract extra Agrees where
  at_iff := fun _ _ _ _ => Iff.rfl
  rely_out := fun _ _ _ _ _ _ hout _ => core.rely_out hout
  rely_tls := fun _ _ _ _ _ _ hc h => (core.rely_tls hc h).2
  timer := fun _ _ _ _ _ h => h.same rfl
  clock := quietQuery rfl
  calls := fun _ _ _ _ _ _ _ h hfits => ⟨behaves_call h hfits, h⟩
  resumes := fun _ _ _ _ _ _ _ h _ _ => ⟨fun _ => rfl, h⟩

theorem sendRules (extra : List Call → Session → ConnectionEnd → Label CESig → Bool) :
    SendRules core.toContract extra Agrees fun _ => True where
  basic := callRules extra
  putList := by
    intro q hq
    apply quietQuery
    cases q <;> first | rfl | cases hq
  tlsCalls := fun _ _ _ _ _ _ _ _ h hfits => ⟨behaves_call h hfits, h⟩
  tlsResumes := fun _ _ _ _ _ _ _ h _ _ => ⟨fun _ => rfl, h⟩
  lost := fun _ _ _ _ _ h => h.same rfl
  closing := fun _ _ h => h.same rfl
  reset := fun _ _ _ h _ => ⟨fun _ => rfl, h⟩

theorem readRules : ReadRules core.toContract Agrees where
  getList := by
    intro q hq
    apply quietQuery
    cases q <;> first | rfl | cases hq
  frame := fun _ _ _ h => h.same rfl
  read := fun _ _ _ _ h _ => ⟨fun _ => rfl, h⟩
  readEnds := fun _ _ _ _ h => ⟨fun _ => rfl, h⟩
  completes := fun _ _ _ _ _ _ _ h => ⟨fun _ => rfl, h⟩

/-! ## Configuring -/

/-- While certificates are loaded: `listed` when the default roots have been listed. -/
def Loading (listed named : Bool) (g : Session) (s : ConnectionEnd) : Prop :=
  Agrees g s ∧ (g.live = true → (listed = true → g.listed = true) ∧ g.named = named)

/-- Loading keeps the settings of the session up to date. -/
theorem loadRules (D : Discipline monitor ConnectionEnd) (stk : List Call) (listed named : Bool) :
    LoadRules core.toContract D stk (Loading listed named) (fun _ _ => True) fun _ => True where
  alloc := fun _ _ size a h =>
    memoryQuiet.alloc_kept (J := Loading listed named) _ size a ⟨h.1.same rfl, h.2⟩
  release := fun _ _ p a h _ => memoryQuiet.release_kept p a h
  same := by
    intro g s v hv _ h
    exact ⟨h.1.same (by simp [settings, ConnectionEnd.loaded, hv]), h.2⟩
  load := by
    intro g s q a hq h _
    cases q with
    | listRootCertificates size =>
      exact ⟨fun _ => rfl, h.1, fun hlive => ⟨fun _ => rfl, (h.2 hlive).2⟩⟩
    | _ => first | exact ⟨fun _ => rfl, h⟩ | cases hq
  stored := fun _ _ _ _ _ _ _ _ _ _ => trivial
  parse := by
    intro g s buf a h _ _
    refine ⟨fun _ => rfl, h.1.set rfl rfl rfl fun hset => ?_, h.2⟩
    show _ = { g.settings with chain := g.settings.chain ++ ParseAnswer.added a }
    rw [← hset]
    rfl

section configure

variable {e : Entry} {stk : List Call} {g : Session} {s : ConnectionEnd}
  {extra : List Call → Session → ConnectionEnd → Label CESig → Bool}

/-- The hostname is passed when there is one, and the mark of the configuration consumes it. -/
theorem sat_setUpNamed {host : Option Block} (hhost : s.mSSLHostname = host) (h : Agrees g s)
    (hnamed : g.live = true → g.named = false) {Q : Post monitor ConnectionEnd Int}
    (hQ : ∀ g' s', Agrees g' s' → Q g' (some 0) s') :
    Code.Sat core.toContract (discipline monitor extra) e stk Q (do
      passHostname host
      setUpFields) g s := by
  -- the same end, whether a hostname was passed or not
  have hend : ∀ g', Agrees g' s →
      (g'.live = true → g'.named = g'.settings.hostname.isSome) →
      setUpFields.Sat core.toContract (discipline monitor extra) e stk Q g'
        ({ s with mSSLHostname := none } : ConnectionEnd) := by
    intro g' h' hnamed'
    refine sat_setUpFields memoryQuiet (s := s) s.loadValues s.mSSLTimerInt s.mSSLTimerFin
      s.mSSLTimerFired rfl fun w hw _ => ⟨fun hlive => ?_, ?_⟩
    · simp [behaves, hnamed' hlive]
    · refine hQ _ _ (h'.set rfl rfl rfl fun hset => ?_)
      show _ = { g'.settings with hostname := none }
      rw [← hset]
      simp only [settings, ConnectionEnd.configured, ConnectionEnd.loaded, ConnectionEnd.withTimer,
        hw]
      rfl
  simp only [Code.sat_bind]
  cases host with
  | none =>
    -- there is no hostname to be consumed
    have hsame : ({ s with mSSLHostname := none } : ConnectionEnd) = s := by rw [← hhost]
    rw [hsame] at hend
    refine hend g h fun hlive => ?_
    rw [hnamed hlive, ← (h hlive).1, settings, hhost]
    rfl
  | some b =>
    have hname : g.live = true → g.settings.hostname = some b.bytes := by
      intro hlive
      rw [← (h hlive).1, settings, hhost]
      rfl
    simp only [passHostname, Code.sat_bind]
    refine sat_ask fun _ _ => ⟨fun hlive => by simp [behaves, hname hlive], ?_⟩
    simp only [Post.andThen_some, Code.sat_bind]
    refine sat_disposPtr memoryQuiet b (hend _ (h.set rfl rfl rfl fun hset => hset) fun hlive => ?_)
    show true = g.settings.hostname.isSome
    rw [hname hlive]
    rfl

/-- SSL is told the settings of the session. -/
theorem sat_setUpSSL (h : Agrees g s)
    (hready : g.live = true → g.listed = s.mSSLLoadRootCertificates ∧ g.named = false)
    {Q : Post monitor ConnectionEnd Int} (hQ : ∀ g' s', Agrees g' s' → Q g' (some 0) s') :
    setUpSSL.Sat core.toContract (discipline monitor extra) e stk Q g s := by
  refine sat_setUpSSL_phases (J := fun g' _ => g' = g) (quietQuery rfl) rfl ?_ ?_
  · rintro q a _ hq hfits rfl _
    cases q with
    | mbedtlsSslConfigDefaults =>
      refine ⟨fun hlive => ?_, rfl⟩
      rw [behaves, (hready hlive).1, ← (h hlive).1]
      exact beq_self_eq_true _
    | mbedtlsSslConfCaChain chain =>
      refine ⟨fun hlive => ?_, rfl⟩
      rw [behaves, show chain = s.mSSLCAChain from hfits, ← (h hlive).1]
      exact beq_self_eq_true _
    | mbedtlsSslConfAuthmode mode =>
      refine ⟨fun hlive => ?_, rfl⟩
      rw [behaves, show mode = s.mSSLAuthMode from hfits, ← (h hlive).1]
      exact beq_self_eq_true _
    | _ => first | exact ⟨fun _ => rfl, rfl⟩ | cases hq
  · rintro _ i f b rfl
    exact sat_setUpNamed (s := s.withTimer i f b) rfl (h.same rfl)
      (fun hlive => (hready hlive).2) hQ

/-- What a request that configures has made of the observation. -/
def Starting (g : Session) (s : ConnectionEnd) : Prop :=
  g.live = true → settings s = g.settings ∧ s.mSSLEnabled = true ∧ g.handshakes = false

/-- A configuration begins with the settings of the session. -/
theorem starting_of_begins (h : Begins monitor extra Agrees stk e g s) : Starting g s := by
  refine h.elim (fun g s _ hinv henabled hlive => ?_) fun g s _ hinv _ hlive => ?_
  · exact ⟨(hinv hlive).1, henabled, (hinv hlive).2.2⟩
  · refine ⟨?_, rfl, (hinv hlive).2.2⟩
    show _ = { g.settings with enabled := true }
    rw [← (hinv hlive).1]
    rfl

theorem sat_configure (fuel : ℕ) (h : Starting g s) :
    (sslConfigure fuel).Sat core.toContract (discipline monitor extra) e stk
      (ConfigureEnds (M := monitor) Agrees (fun _ _ g' s' => Agrees g' s') g s) g s := by
  have hend : ∀ (g' : Session) (r : Option Int) (s' : ConnectionEnd), Agrees g' s' →
      ConfigureEnds (M := monitor) Agrees (fun _ _ g' s' => Agrees g' s') g s g' r s' :=
    fun g' r s' h' => ⟨fun _ => h', fun _ => h'⟩
  simp only [sslConfigure, Code.sat_bind]
  refine sat_ask fun a _ => ⟨fun hlive => ?_, ?_⟩
  · obtain ⟨hset, henabled, _⟩ := h hlive
    -- only an end for which SSL is enabled is configured
    show g.settings.enabled = true
    rw [← hset]
    exact henabled
  have hasked : Agrees (next g (.asked .getConnectionEndPort a)) s :=
    fun hlive => ⟨(h hlive).1, rfl, (h hlive).2.2⟩
  simp only [Post.andThen_some, Code.sat_bind]
  refine (quietQuery rfl).sat_ask fun _ => ?_
  simp only [Post.andThen_some, Code.sat_bind]
  refine (quietQuery rfl).sat_ask fun serialNumber => ?_
  simp only [Post.andThen_some, Code.sat_bind]
  refine (quietQuery rfl).sat_ask fun r => ?_
  simp only [Post.andThen_some, Code.sat_ite]
  refine ⟨fun _ => hend _ _ _ hasked, fun _ => ?_⟩
  simp only [Code.sat_bind, Code.sat_get, Post.andThen_some, Code.sat_ite]
  refine ⟨fun hroots => ?_, fun hroots => ?_⟩
  · refine sat_loadRootCertificates (loadRules _ stk false false).toParseRules
      (loadRules _ stk true false) ?_ fuel ⟨hasked, fun _ => ⟨fun hf => (by cases hf), rfl⟩⟩
      (fun _ _ _ _ h' => hend _ _ _ h'.1)
      (fun g' v h' => ?_) fun _ _ h' => hend _ _ _ h'.1
    · intro g' s' a' h' _
      exact ⟨fun _ => rfl, h'.1, fun hlive => ⟨fun _ => rfl, (h'.2 hlive).2⟩⟩
    · refine sat_setUpSSL h'.1 (fun hlive => ?_) fun _ _ => hend _ _ _
      obtain ⟨hlisted, hnamed⟩ := h'.2 hlive
      exact ⟨(hlisted rfl).trans hroots.symm, hnamed⟩
  · exact sat_setUpSSL hasked (fun _ => ⟨(Bool.eq_false_iff.mpr hroots).symm, rfl⟩)
      fun _ _ => hend _ _ _

end configure

/-! ## The requests -/

section requests

variable {stk : List Call} {g : Session} {s : ConnectionEnd}

/-- Outside of the events that are observed nothing changes. -/
theorem entered {e : Entry} (he : e.isTraffic = false) (hsets : e.sets = false) (h : Agrees g s) :
    Agrees (next g (.enter e)) s := by
  cases e with
  | closeStart => exact .closed s rfl
  | delete => exact .closed s rfl
  | processOptionStart o => cases o <;> first | exact h | cases hsets
  | openStart => cases hsets
  | connectStart => cases hsets
  | connectCompleteCB r => cases hsets
  | _ => exact h

/-- The hostname is set once, as in the session. -/
theorem settings_hostname (hset : settings s = g.settings) (hostname : List Byte) (p : ℕ)
    (hnone : s.mSSLHostname = none) :
    settings { s with
        nextPtr := s.nextPtr + 1
        mSSLHostname := some ⟨p, cString hostname ++ [0]⟩ } =
      g.settings.option (.sslHostname hostname) := by
  rw [← hset]
  simp only [settings, Settings.option, hnone]
  rfl

/-- A second hostname changes nothing. -/
theorem settings_hostname_kept (hset : settings s = g.settings) (hostname : List Byte)
    (hsome : s.mSSLHostname.isSome = true) :
    settings s = g.settings.option (.sslHostname hostname) := by
  obtain ⟨b, hb⟩ := Option.isSome_iff_exists.mp hsome
  rw [← hset]
  simp only [settings, Settings.option, hb]
  rfl

/-- An option that starts nothing changes the settings as in the session. -/
theorem sat_setter {e : Entry} (fuel : ℕ) (o : TOption) (ho : o.isSetter = true) (h : Agrees g s) :
    (processOptionStart fuel o).Sat core.toContract (discipline monitor opensUnset) e stk
      (fun g' _ s' => Agrees g' s') (next g (.enter (.processOptionStart o))) s := by
  cases o with
  | sslHostname hostname =>
    simp only [processOptionStart, Code.sat_bind]
    refine sat_sslHostnameOption memoryQuiet hostname (fun hsome => ?_) fun hnone => ?_
    · exact h.set rfl rfl rfl fun hset => settings_hostname_kept hset hostname hsome
    · exact h.set rfl rfl rfl fun hset => settings_hostname hset hostname _ hnone
  | sslVerifyMode verifyMode =>
    simp only [processOptionStart, Code.sat_bind]
    refine sat_sslVerifyModeOption verifyMode (h.set rfl rfl rfl fun hset => ?_)
    show _ = g.settings.option (.sslVerifyMode verifyMode)
    rw [← hset]
    rfl
  | sslCertificateAuthority o =>
    have hstart : Agrees (next g (.enter (.processOptionStart (.sslCertificateAuthority o))))
        { s with mSSLLoadRootCertificates := false } := by
      refine h.set rfl rfl rfl fun hset => ?_
      show _ = g.settings.option (.sslCertificateAuthority o)
      rw [← hset]
      rfl
    simp only [processOptionStart, Code.sat_bind]
    exact sat_sslCertificateAuthorityOption (loadRules _ stk false g.named).toParseRules o
      ⟨hstart, fun _ => ⟨fun hf => (by cases hf), rfl⟩⟩ (fun _ _ _ => trivial)
      (fun _ _ _ h' => h'.1) fun _ _ h' => h'.1
  | sslPeerCertificate o =>
    simp only [processOptionStart, Code.sat_bind]
    exact sat_sslPeerCertificateOption (quietQuery rfl) o fun _ => h
  | sslEnable enabled => cases ho
  | other label => cases ho

/-- The inner end has connected and SSL is not enabled, or it has failed. -/
theorem connected_agrees {r : Int} (hplain : ¬ (s.mSSLEnabled = true ∧ r = 0)) (h : Agrees g s) :
    Agrees (next g (.enter (.connectCompleteCB r))) (s.connected r) := by
  intro hlive
  obtain ⟨hset, hconf, _⟩ := h hlive
  refine ⟨?_, hconf, ?_⟩
  · show _ = g.settings.next (.connected r)
    rw [← hset, ConnectionEnd.connected, Settings.next]
    show _ = if s.mSSLEnabled = false ∧ r = 0 then _ else _
    split
    · rfl
    · rfl
  · show ((g.settings.next (.connected r)).enabled && r == 0) = false
    rw [← hset, Settings.next]
    by_cases hr : r = 0
    · have hoff : s.mSSLEnabled = false := by simpa [hr] using hplain
      rw [if_pos ⟨hoff, hr⟩]
      show (s.mSSLEnabled && r == 0) = false
      rw [hoff, Bool.false_and]
    · rw [beq_eq_false_iff_ne.mpr hr, Bool.and_false]

end requests

/-- The handshake begins with the settings of the session. -/
theorem handshake_agrees {stk : List Call} {g : Session} {s : ConnectionEnd}
    (h : Cause monitor opensUnset Agrees (fun _ _ g' s' => Agrees g' s') stk g s) :
    Agrees g s := by
  refine h.elim (fun _ _ _ h => h) (fun _ _ h => h) (fun g s h henabled hlive => ?_)
    fun _ _ _ _ h => h
  obtain ⟨hset, hconf, _⟩ := h hlive
  refine ⟨?_, hconf, rfl⟩
  show _ = g.settings.next (.connected 0)
  rw [Settings.next, ← hset]
  exact (if_neg (by simp [settings, henabled])).symm

theorem entryRules :
    EntryRules core.toContract opensUnset Agrees fun _ _ g' s' => Agrees g' s' where
  basic := callRules opensUnset
  enter := fun _ e _ _ he _ h => ⟨fun _ => by cases e <;> rfl, fun hsets => entered he hsets h⟩
  leave := fun _ _ _ _ _ h => ⟨fun _ => rfl, h⟩
  opened := by
    intro stk g s hok h _
    -- what an `OpenStart` must find for a session to start from nothing
    have hunset : { settings s with enabled := false } = unset := of_decide_eq_true hok
    exact ⟨hunset, rfl, rfl⟩
  connects := by
    intro stk g s _ h hplain hlive
    obtain ⟨hset, _, hshake⟩ := h hlive
    refine ⟨hset, ?_, hshake⟩
    show g.settings.enabled = false
    rw [← hset]
    exact hplain
  connected := fun _ _ _ _ _ h hplain => connected_agrees hplain h
  enabled := by
    intro stk b g s _ h
    refine h.set rfl rfl rfl fun hset => ?_
    show _ = { g.settings with enabled := b }
    rw [← hset]
    rfl
  closed := by
    intro stk g s _ h hok
    refine ⟨fun _ => rfl, h, fun hconf => sat_sslUnconfigure memoryQuiet ?_⟩
    simp only [opensUnset, hconf, Bool.not_true, Bool.or_false, Bool.not_eq_true'] at hok
    exact .closed _ hok
  delete := by
    intro stk g s hout _ _
    exact (callRules opensUnset).sat_delete ⟨rfl, hout⟩ (quietQuery rfl) (fun _ => quietQuery rfl)
      (fun _ _ _ h => h.same rfl) (.closed s rfl)
      fun _ => sat_sslUnconfigure memoryQuiet ⟨rfl, .closed _ rfl⟩
  configure := fun _ _ fuel _ _ _ hbegins => sat_configure fuel (starting_of_begins hbegins)
  configured := fun _ _ _ _ h => h
  setter := fun _ _ fuel o _ _ _ ho _ h => sat_setter fuel o ho h
  getSSL := by
    intro e stk fuel b threshold g s hout hgets _ h _
    have hentered := entered hout.notTraffic (Entry.sets_of_gets hgets) h
    exact (sendRules opensUnset).sat_getFromSSL (readRules.bufferRules memoryQuiet) trivial hout
      fuel b threshold hentered (fun size a _ => readRules.started memoryQuiet hentered size a)
      fun _ _ h' => h'
  reread := fun _ fuel _ _ hout h _ hest _ =>
    (sendRules opensUnset).sat_retryRead (readRules.bufferRules memoryQuiet) trivial ⟨rfl, hout⟩
      fuel h hest fun _ _ h' => h'
  put := fun _ b _ _ hout h hconf _ hest =>
    (sendRules opensUnset).sat_putToSSL trivial ⟨rfl, hout⟩ b h hconf hest fun _ _ h' => h'
  terminate := fun _ _ _ hout _ h =>
    (sendRules opensUnset).sat_terminateStart trivial ⟨rfl, hout⟩ h fun _ _ h' => h'
  begins := by
    intro stk g s _ h henabled hlive
    have hset := (h hlive).1
    show ((g.settings.next (.connected 0)).enabled && (0 : Int) == 0) = true
    rw [Settings.next, ← hset, if_neg (by simp [settings, henabled])]
    simpa [settings] using henabled
  upgrades := fun _ _ _ _ => rfl
  handshake := fun _ _ _ _ _ hcause => ⟨fun _ => rfl, handshake_agrees hcause⟩
  outcome := by
    intro e stk g s g' s' r _ _ h _ _
    refine ⟨fun _ => rfl, fun _ => ⟨fun hlive => ?_, h.same rfl⟩, fun hr _ a i f b => ?_,
      fun _ => h⟩
    · have hset := (h hlive).1
      -- who is told of a handshake is settled by the setting that makes it an upgrade
      have hup : g'.settings.upgradable = s'.mUpgradable := by rw [← hset]; rfl
      show behaves g' (.calls e (.client (successReport s'))) = true
      unfold successReport
      split
      · next hs => rw [behaves, hup, hs]
      · next hs => simp [behaves, hup, hs]
    · exact ⟨fun _ => rfl, fun _ => by simp [behaves, hr], h.same rfl⟩

/-- Every function meets the contract. -/
theorem meets (fuel : ℕ) : core.toContract.Meets (discipline monitor opensUnset) (code fuel) :=
  core.meets_entries entryRules fuel

/-! ## Sessions -/

/-- Whether a session is in progress depends on its events. -/
theorem next_live (g : Session) (x : Label CESig) :
    (next g x).live = (Event.of x).elim g.live (liveNext g.live) := by
  unfold next
  split <;> rfl

theorem next_settings (g : Session) (x : Label CESig) :
    (next g x).settings = (Event.of x).elim g.settings g.settings.next := by
  unfold next
  split <;> rfl

/-- What the observer knows of a session is what the events of the session say. -/
theorem run_of_session (l : Log CESig ConnectionEnd) :
    ∀ {session : List Event}, sessionOf l = some session →
      (monitor.run l).live = true ∧
        (monitor.run l).settings = session.foldl Settings.next unset := by
  induction l using List.reverseRecOn with
  | nil => rintro session ⟨⟩
  | append_singleton l x ih =>
    intro session hsession
    rw [sessionOf, List.foldl_append, List.foldl_cons, List.foldl_nil] at hsession
    rw [Monitor.run_concat]
    show (next (monitor.run l) x.2).live = true ∧ (next (monitor.run l) x.2).settings = _
    rw [next_live, next_settings]
    cases hx : Event.of x.2 with
    | none =>
      rw [hx] at hsession
      exact ih hsession
    | some e =>
      rw [hx] at hsession
      -- an event in a session is added to those before it
      have hadd : ∀ e : Event, (sessionOf l).map (· ++ [e]) = some session →
          liveNext (monitor.run l).live e = (monitor.run l).live →
          liveNext (monitor.run l).live e = true ∧
            (monitor.run l).settings.next e = session.foldl Settings.next unset := by
        intro e hmap hlive
        obtain ⟨before, hbefore, rfl⟩ := Option.map_eq_some_iff.mp hmap
        obtain ⟨h₁, h₂⟩ := ih hbefore
        refine ⟨hlive.trans h₁, ?_⟩
        rw [List.foldl_append, List.foldl_cons, List.foldl_nil, h₂]
      cases e with
      | opened =>
        cases hsession
        exact ⟨rfl, rfl⟩
      | closed => cases hsession
      | option o => exact hadd _ hsession rfl
      | connected r => exact hadd _ hsession rfl
      | parsed added => exact hadd _ hsession rfl
      | configured => exact hadd _ hsession rfl

/-- **Sessions are isolated** in every run in which `OpenStart` finds the settings as `New` makes
them: the object behaves and is set as the events of the session say, and two sessions with the
same events, of whatever objects, have the same settings. -/
theorem session_isolated {fuel fuel' : ℕ} {memory memory' : ConnectionEnd}
    {cfg cfg' : Config CESig ConnectionEnd}
    (h : Reachable (discipline monitor opensUnset) (code fuel) (new memory) cfg)
    (h' : Reachable (discipline monitor opensUnset) (code fuel') (new memory') cfg') :
    (cfg.log.Obeys monitor fun g s x => isolated g s x = true) ∧
    ∀ session, sessionOf cfg.log = some session → sessionOf cfg'.log = some session →
      cfg.fault = none → cfg'.fault = none → settings cfg.state = settings cfg'.state := by
  have hstart : ∀ memory, core.toContract.At [] monitor.init (new memory) :=
    fun memory => .closed _ rfl
  constructor
  · intro before x after hl
    have hevery := Contract.log_obeys (meets fuel) (hstart memory) h before x after hl
    have hpasses := Contract.log_passes (meets fuel) (fun _ _ _ h => h) (hstart memory) h before x
      after hl
    rw [isolated, Bool.and_eq_true]
    refine ⟨?_, Monitor.passes_of_atPassage (fun _ _ => agrees_of_agrees) hpasses⟩
    cases hlive : (monitor.run before).live with
    | false => rfl
    | true => exact hevery hlive
  · intro session hsession hsession' hf hf'
    obtain ⟨hlive, hset⟩ := run_of_session cfg.log hsession
    obtain ⟨hlive', hset'⟩ := run_of_session cfg'.log hsession'
    -- both objects agree with their observers, who know the same events
    have hcfg := (Contract.holds_at (meets fuel) (hstart memory) h hf hlive).1
    have hcfg' := (Contract.holds_at (meets fuel') (hstart memory') h' hf' hlive').1
    rw [hcfg, hcfg', hset, hset']

/-- Open a session, with an option before SSL is enabled, and connect. -/
def sessionWith (o : List TOption) : List (Move CESig) :=
  [enter .openStart, back] ++ o.map (fun o => enter (.processOptionStart o)) ++
    [enter (.processOptionStart (.sslEnable true)), enter .connectStart, back,
      enter (.connectCompleteCB 0), back, back]

/-- A session with a hostname, and another one in which nothing of it is left. -/
theorem session_isolated_hostnameRun :
    ∃ cfg cfg', (Config.start (new zeroMemory)).run (discipline monitor opensUnset) (code 3)
        (sessionWith [.sslHostname [65, 0]] ++ [enter .closeStart, back] ++ sessionWith []) =
          some cfg ∧
      (Config.start (new zeroMemory)).run (discipline monitor opensUnset) (code 3)
        (sessionWith []) = some cfg' ∧
      (cfg.log.Obeys monitor fun g s x => isolated g s x = true) ∧
      ∀ session, sessionOf cfg.log = some session → sessionOf cfg'.log = some session →
        cfg.fault = none → cfg'.fault = none → settings cfg.state = settings cfg'.state := by
  have hrun : ((Config.start (new zeroMemory)).run (discipline monitor opensUnset) (code 3)
      (sessionWith [.sslHostname [65, 0]] ++ [enter .closeStart, back] ++
        sessionWith [])).isSome = true := by decide +kernel
  have hrun' : ((Config.start (new zeroMemory)).run (discipline monitor opensUnset) (code 3)
      (sessionWith [])).isSome = true := by decide +kernel
  obtain ⟨cfg, hcfg⟩ := Option.isSome_iff_exists.mp hrun
  obtain ⟨cfg', hcfg'⟩ := Option.isSome_iff_exists.mp hrun'
  exact ⟨cfg, cfg', hcfg, hcfg',
    session_isolated (.of_run _ .start hcfg) (.of_run _ .start hcfg')⟩

/-- What two sessions with the same events are set to. -/
def sessionEnd (cfg : Config CESig ConnectionEnd) : Bool × Option (List Event) × Settings :=
  (cfg.fault.isNone, sessionOf cfg.log, settings cfg.state)

/-- The verify mode `NONE` of a first session is that of a second one, which a new object with
the same events does not have. -/
theorem not_isolated :
    ¬ ∀ (fuel : ℕ) (memory : ConnectionEnd) (cfg cfg' : Config CESig ConnectionEnd),
      Reachable (discipline monitor fun _ _ _ _ => true) (code fuel) (new memory) cfg →
      Reachable (discipline monitor fun _ _ _ _ => true) (code fuel) (new memory) cfg' →
      (cfg.log.Obeys monitor fun g s x => isolated g s x = true) ∧
      ∀ session, sessionOf cfg.log = some session → sessionOf cfg'.log = some session →
        cfg.fault = none → cfg'.fault = none → settings cfg.state = settings cfg'.state := by
  intro hall
  have hfirst : ((Config.start (new zeroMemory)).run (discipline monitor fun _ _ _ _ => true)
      (code 3) (sessionWith [.sslVerifyMode MBEDTLS_SSL_VERIFY_NONE] ++ [enter .closeStart, back] ++
        sessionWith [])).map sessionEnd =
      some (true, some [.option (.sslEnable true), .configured, .connected 0],
        { unset with
          enabled := true
          authMode := MBEDTLS_SSL_VERIFY_NONE
          loadRoots := false }) := by
    decide +kernel
  have hnew : ((Config.start (new zeroMemory)).run (discipline monitor fun _ _ _ _ => true)
      (code 3) (sessionWith [])).map sessionEnd =
      some (true, some [.option (.sslEnable true), .configured, .connected 0],
        { unset with enabled := true }) := by decide +kernel
  obtain ⟨cfg, hcfg, hend⟩ := Option.map_eq_some_iff.mp hfirst
  obtain ⟨cfg', hcfg', hend'⟩ := Option.map_eq_some_iff.mp hnew
  simp only [sessionEnd, Prod.mk.injEq, Option.isNone_iff_eq_none] at hend hend'
  obtain ⟨hf, hsession, hset⟩ := hend
  obtain ⟨hf', hsession', hset'⟩ := hend'
  have hsame := (hall 3 zeroMemory cfg cfg' (.of_run _ .start hcfg) (.of_run _ .start hcfg')).2 _
    hsession hsession' hf hf'
  rw [hset, hset'] at hsame
  cases hsame

end SessionIsolation

end NewtonTLS
