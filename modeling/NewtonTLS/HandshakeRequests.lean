/-
# Handshakes and the requests that ask for them

`mbedtls_ssl_handshake` should be called only while SSL is configured and a
connect or an upgrade is outstanding.  The code has no record of requests: a
wake-up message handshakes whenever `mClosing` and `mEstablished` are false,
configured or not, a timer tick whenever both are false and SSL is configured,
and the completion of the inner connect whenever SSL is enabled.

Both flags are false before `SSLConfigure`, during the handshake, and again after a
put that failed; neither `TerminateStart` during the handshake nor `CloseStart` nor
the failure of the inner connect sets one.  `timely` says that no message, tick or
completion comes then.
-/
import NewtonTLS.ConnectionEndRules

open Reentrant

namespace NewtonTLS

namespace HandshakeRequests

/-! ## What is observed -/

/-- How far the handshake of the last configuration is. -/
inductive Phase : Type where
  /-- SSL has not been configured, or the request it was configured for is over; or a put has
  failed since the handshake ended. -/
  | idle
  /-- SSL has been configured for a request, and its handshake has not ended. -/
  | active
  /-- The handshake has ended, with or without success. -/
  | ended
  deriving DecidableEq

/-- The phase when SSL is configured no more. -/
def Phase.unconfigured : Phase → Phase
  | .active => .idle
  | p => p

/-- How many connects and upgrades have been started and neither completed nor
given up, and the phase of the handshake. -/
structure Seen : Type where
  connects : ℕ
  upgrades : ℕ
  phase : Phase
  deriving DecidableEq

/-- A request for a handshake is outstanding. -/
def Seen.outstanding (g : Seen) : Bool := 0 < g.connects ∨ 0 < g.upgrades

/-- With the last request its handshake is over. -/
def Seen.settled (g : Seen) : Seen :=
  if g.outstanding then g else { g with phase := g.phase.unconfigured }

/-- The option call is not to be completed later. -/
def answered : Option Value → Bool
  | some (.option .opInProgress _) => false
  | _ => true

/-- One event. -/
def next (g : Seen) : Label CESig → Seen
  | .enter .openStart => { g with phase := g.phase.unconfigured }
  | .enter .connectStart => { g with connects := g.connects + 1 }
  | .enter (.processOptionStart (.sslEnable true)) => { g with upgrades := g.upgrades + 1 }
  | .enter .terminateStart => Seen.settled ⟨0, 0, g.phase⟩
  | .enter .closeStart => Seen.settled ⟨0, 0, g.phase⟩
  | .enter .delete => { g with phase := g.phase.unconfigured }
  | .leave (.processOptionStart (.sslEnable true)) v =>
    if answered v then Seen.settled { g with upgrades := g.upgrades - 1 } else g
  | .asked .sslConfigured _ => Seen.settled { g with phase := .active }
  | .calls _ (.client (.connectComplete _)) => Seen.settled { g with connects := g.connects - 1 }
  | .calls _ (.client (.processOptionComplete _)) =>
    Seen.settled { g with upgrades := g.upgrades - 1 }
  | .resumes (.inner .closeStart) _ => { g with phase := g.phase.unconfigured }
  | .resumes .mbedtlsSslHandshake r => if wantsMore r then g else { g with phase := .ended }
  | .resumes (.mbedtlsSslWrite _) r => if r < 0 then { g with phase := .idle } else g
  | _ => g

/-- Nothing is outstanding, and the session is idle. -/
abbrev monitor : Monitor CESig where
  Obs := Seen
  init := ⟨0, 0, .idle⟩
  next := next

/-- A handshake is called, and returns, while SSL is configured and a request for it
is outstanding, and a wake-up or a tick reports a result only then. -/
def asked (g : Seen) (s : ConnectionEnd) : Label CESig → Bool
  | .calls _ .mbedtlsSslHandshake => s.mSSLConfigured && g.outstanding
  | .resumes .mbedtlsSslHandshake _ => s.mSSLConfigured && g.outstanding
  | .calls (.handleRequest .kAsyncReadMessageType) (.client (.connectComplete _)) => g.outstanding
  | .calls (.handleTimerTick _) (.client (.connectComplete _)) => g.outstanding
  | _ => true

/-- `HandleTimerTick` finds that the time of the handshake is over. -/
def due (s : ConnectionEnd) (nowms : UInt32) : Bool :=
  s.mSSLConfigured ∧ !s.mEstablished ∧ !s.mClosing ∧ s.mSSLTimerFin ≠ 0 ∧ !s.mSSLTimerFired ∧
    s.mSSLTimerFin ≤ nowms

/-- No wake-up that finds the connection open and not established, and no due tick, comes in the
idle phase, and the inner end completes a connect with SSL only for an active handshake. -/
def timely (g : Seen) (s : ConnectionEnd) : Label CESig → Bool
  | .enter (.handleRequest .kAsyncReadMessageType) =>
    s.mClosing || s.mEstablished || g.phase ≠ .idle
  | .enter (.handleTimerTick nowms) => !due s nowms || g.phase ≠ .idle
  | .enter (.connectCompleteCB 0) => !s.mSSLEnabled || g.phase = .active
  | _ => true

/-! ## The invariant -/

/-- An active handshake has its configuration and its request, and a handshake that has ended has
left one of the two flags set. -/
structure Tracked (g : Seen) (s : ConnectionEnd) : Prop where
  configured : g.phase = .active → s.mSSLConfigured = true
  outstanding : g.phase = .active → g.outstanding = true
  ended : g.phase = .ended → s.mEstablished = true ∨ s.mClosing = true

/-- In the idle phase nothing is claimed. -/
theorem Tracked.idle {g : Seen} {s : ConnectionEnd} (h : g.phase = .idle) : Tracked g s := by
  constructor <;> rw [h] <;> rintro ⟨⟩

/-- The invariant looks at the mode and the two flags. -/
theorem Tracked.same {g : Seen} {s s' : ConnectionEnd} (h : Tracked g s)
    (hconf : s'.mSSLConfigured = s.mSSLConfigured) (hest : s'.mEstablished = s.mEstablished)
    (hclosing : s'.mClosing = s.mClosing) : Tracked g s' := by
  refine ⟨?_, h.outstanding, ?_⟩
  · rw [hconf]
    exact h.configured
  · rw [hest, hclosing]
    exact h.ended

/-- Without a configuration no handshake is active. -/
@[simp] theorem Phase.unconfigured_ne_active (p : Phase) : p.unconfigured ≠ .active := by
  cases p <;> simp [unconfigured]

/-- An ended handshake stays so. -/
theorem Phase.unconfigured_eq_ended {p : Phase} (h : p.unconfigured = .ended) : p = .ended := by
  cases p <;> simp_all [unconfigured]

/-- SSL may be configured no more when the phase says so. -/
theorem Tracked.unconfigured {g : Seen} {s s' : ConnectionEnd} (h : Tracked g s)
    (hest : s'.mEstablished = s.mEstablished) (hclosing : s'.mClosing = s.mClosing) :
    Tracked { g with phase := g.phase.unconfigured } s' := by
  refine ⟨fun hactive => absurd hactive (by simp), fun hactive => absurd hactive (by simp), ?_⟩
  intro hended
  rw [hest, hclosing]
  exact h.ended (Phase.unconfigured_eq_ended hended)

/-- The phase follows the requests. -/
theorem Tracked.settled {g : Seen} {s : ConnectionEnd}
    (hconf : g.phase = .active → s.mSSLConfigured = true)
    (hended : g.phase = .ended → s.mEstablished = true ∨ s.mClosing = true) :
    Tracked g.settled s := by
  unfold Seen.settled
  split
  · next hout => exact ⟨hconf, fun _ => hout, hended⟩
  · refine ⟨fun hactive => absurd hactive (by simp), fun hactive => absurd hactive (by simp), ?_⟩
    exact fun h => hended (Phase.unconfigured_eq_ended h)

/-- More requests keep the invariant. -/
theorem Tracked.more {g : Seen} {s : ConnectionEnd} {connects upgrades : ℕ} (h : Tracked g s)
    (hconnects : g.connects ≤ connects) (hupgrades : g.upgrades ≤ upgrades) :
    Tracked ⟨connects, upgrades, g.phase⟩ s := by
  refine ⟨h.configured, fun hactive => ?_, h.ended⟩
  have hout := h.outstanding hactive
  simp only [Seen.outstanding, decide_eq_true_eq] at hout ⊢
  omega

/-! ## The rules -/

/-- Data that is sent or received is no part of a handshake. -/
theorem traffic_quiet (g : Seen) (s : ConnectionEnd) (x : Label CESig) (hx : Traffic s x) :
    asked g s x = true ∧ next g x = g := by
  cases x with
  | enter e => cases e <;> first | exact ⟨rfl, rfl⟩ | cases hx
  | leave e v => cases e <;> first | exact ⟨rfl, rfl⟩ | cases hx
  | asked q a => cases q <;> first | exact ⟨rfl, rfl⟩ | cases hx
  | calls _ c =>
    rcases Call.isTraffic_cases hx.2 with ⟨_, rfl⟩ | ⟨_, _, rfl⟩ | ⟨_, _, rfl, _⟩ |
      ⟨_, _, _, rfl, _⟩ | ⟨_, rfl⟩ <;> exact ⟨by simp [asked], rfl⟩
  | resumes c r =>
    cases c with
    | inner c => cases c <;> first | exact ⟨rfl, rfl⟩ | cases hx
    | _ => first | exact ⟨rfl, rfl⟩ | cases hx

/-- The contract. -/
def core : CoreContract monitor where
  Inv := Tracked
  Every := fun g s x => asked g s x = true
  inv_core := fun _ _ _ h hcore => h.same hcore.mSSLConfigured hcore.mEstablished hcore.mClosing
  quiet := fun g s x _ hx => traffic_quiet g s x hx

/-- Of the questions only the mark of a configuration is observed. -/
theorem quietQuery {q : Query} (hq : q ≠ .sslConfigured) : Quiet core.toContract q := by
  intro g s a
  cases q <;> first | exact ⟨rfl, rfl⟩ | exact absurd rfl hq

theorem memoryQuiet : MemoryQuiet core.toContract := by
  intro q hq
  apply quietQuery
  rintro rfl
  cases hq

/-- The questions of the setup are not observed. -/
theorem setupQuiet : SetupQuiet core.toContract := by
  intro q hq
  apply quietQuery
  rintro rfl
  cases hq

/-- A call that fits the state is no handshake, and completes a connect only where the client or
the inner end has asked for it. -/
theorem call_fits {e : Entry} {g : Seen} {s : ConnectionEnd} {c : Call} (h : Tracked g s)
    (hfits : c.fits e s) : asked g s (.calls e c) = true ∧ Tracked (next g (.calls e c)) s := by
  cases c with
  | client c =>
    cases c with
    | connectComplete r =>
      refine ⟨?_, .settled h.configured h.ended⟩
      rcases hfits with ⟨k, rfl, -⟩ | ⟨k, rfl, -⟩ <;> rfl
    | processOptionComplete v => exact hfits.elim
    | _ => exact ⟨by simp [asked], h⟩
  | mbedtlsSslHandshake => exact hfits.elim
  | _ => exact ⟨by simp [asked], h⟩

/-- Calls keep the phases in step. -/
theorem callRules : CallRules core.toContract (fun _ => timely) Tracked where
  at_iff := fun _ _ _ _ => Iff.rfl
  rely_out := fun _ _ _ _ _ _ hout _ => core.rely_out hout
  rely_tls := fun _ _ _ _ _ _ hc h => (core.rely_tls hc h).2
  timer := fun _ _ _ _ _ h => h.same rfl rfl rfl
  clock := memoryQuiet _ rfl
  calls := fun _ _ _ _ _ _ _ h hfits => call_fits h hfits
  resumes := by
    intro stk g s c r _ htls h hc _
    cases c with
    | inner c => cases c <;> first | exact ⟨rfl, h⟩ | cases hc
    | client c => exact ⟨rfl, h⟩
    | _ => cases htls

/-- A put that fails ends the phase. -/
theorem sendRules : SendRules core.toContract (fun _ => timely) Tracked fun _ => True where
  basic := callRules
  putList := by
    intro q hq
    apply quietQuery
    rintro rfl
    cases hq
  tlsCalls := fun _ _ _ _ _ _ _ _ h hfits => call_fits h hfits
  tlsResumes := by
    intro stk g s c r _ htls h hc _
    cases c with
    | mbedtlsSslWrite buf =>
      refine ⟨rfl, ?_⟩
      show Tracked (next g (.resumes (.mbedtlsSslWrite buf) r)) s
      unfold next
      simp only
      split
      · exact .idle rfl
      · exact h
    | mbedtlsSslCloseNotify => exact ⟨rfl, h⟩
    | mbedtlsSslHandshake => cases hc
    | mbedtlsSslRead n => cases hc
    | _ => cases htls
  lost := by
    intro g s buf r hr _
    refine .idle ?_
    show (next g (.resumes (.mbedtlsSslWrite buf) r)).phase = .idle
    simp [next, hr]
  closing := fun _ _ h => ⟨h.configured, h.outstanding, fun _ => .inr rfl⟩
  reset := fun _ _ _ h _ => ⟨rfl, h⟩

theorem readRules : ReadRules core.toContract Tracked where
  getList := by
    intro q hq
    apply quietQuery
    rintro rfl
    cases hq
  frame := fun _ _ _ h => h.same rfl rfl rfl
  read := fun _ _ _ _ h _ => ⟨by simp [core, asked], h⟩
  readEnds := fun _ _ _ _ h => ⟨rfl, h⟩
  completes := fun _ _ _ _ _ _ _ h => ⟨by simp [core, asked], h⟩

/-- A configuration makes the handshake active, if its request is still outstanding. -/
def Fresh (g : Seen) (_ : ConnectionEnd) (g' : Seen) (s' : ConnectionEnd) : Prop :=
  g' = Seen.settled { g with phase := .active } ∧ s'.mSSLConfigured = true

/-- A new configuration is tracked. -/
theorem Fresh.tracked {g g' : Seen} {s s' : ConnectionEnd} (h : Fresh g s g' s') :
    Tracked g' s' := by
  obtain ⟨rfl, hconf⟩ := h
  exact .settled (fun _ => hconf) (by rintro ⟨⟩)

/-- While the connection is open and not established, the handshake is active or the phase
idle. -/
theorem Tracked.active {g : Seen} {s : ConnectionEnd} (h : Tracked g s)
    (hest : s.mEstablished = false) (hclosing : s.mClosing = false) (hphase : g.phase ≠ .idle) :
    s.mSSLConfigured = true ∧ g.outstanding = true := by
  have hactive : g.phase = .active := by
    cases hp : g.phase with
    | idle => exact absurd hp hphase
    | active => rfl
    | ended =>
      have hflags := h.ended hp
      rw [hest, hclosing] at hflags
      simp at hflags
  exact ⟨h.configured hactive, h.outstanding hactive⟩

/-- An upgrade that has configured is outstanding. -/
theorem upgrade_outstanding (g : Seen) : (Seen.settled
    { next g (.enter (.processOptionStart (.sslEnable true))) with phase := .active }).outstanding =
    true := by
  simp [Seen.settled, Seen.outstanding, next]

/-- A handshake that is called has a configuration and a request behind it. -/
theorem requested {stk : List Call} {g : monitor.Obs} {s : ConnectionEnd}
    (h : Cause monitor (fun _ => timely) Tracked Fresh stk g s) :
    Tracked g s ∧ s.mSSLConfigured = true ∧ g.outstanding = true := by
  cases h with
  | @tick g _ nowms hok hinv hdue =>
    have hdue' : due s nowms = true := by simpa [due, and_assoc] using hdue
    have hphase : g.phase ≠ .idle := by simpa [timely, hdue'] using hok
    exact ⟨hinv, hinv.active hdue.2.1 hdue.2.2.1 hphase⟩
  | @wakeUp g _ hok hinv hclosing hest =>
    have hphase : g.phase ≠ .idle := by simpa [timely, hclosing, hest] using hok
    exact ⟨hinv, hinv.active hest hclosing hphase⟩
  | @connected g _ hok hinv henabled =>
    have hactive : g.phase = .active := by simpa [timely, henabled] using hok
    exact ⟨hinv, hinv.configured hactive, hinv.outstanding hactive⟩
  | @upgrade g _ _ _ hok hinv hup hfresh =>
    refine ⟨hfresh.tracked, hfresh.2, ?_⟩
    obtain ⟨rfl, -⟩ := hfresh
    exact upgrade_outstanding g

/-- Entering an entry point that sets nothing keeps the invariant. -/
theorem entered {e : Entry} {g : Seen} {s : ConnectionEnd} (h : Tracked g s)
    (he : e.sets = false) : Tracked (next g (.enter e)) s := by
  cases e with
  | closeStart => exact .settled h.configured h.ended
  | terminateStart => exact .settled h.configured h.ended
  | delete => exact h.unconfigured rfl rfl
  | processOptionStart o => cases o <;> first | exact h | cases he
  | _ => first | exact h | cases he

/-- So does an option that sets something else. -/
theorem setter_entered {o : TOption} {g : Seen} {s : ConnectionEnd} (h : Tracked g s)
    (ho : o.isSetter = true) : Tracked (next g (.enter (.processOptionStart o))) s := by
  cases o <;> first | exact h | cases ho

/-- So does leaving: the request of an option call that has been answered is over. -/
theorem left {e : Entry} {v : Option Value} {g : Seen} {s : ConnectionEnd} (h : Tracked g s) :
    Tracked (next g (.leave e v)) s := by
  cases e with
  | processOptionStart o =>
    cases o with
    | sslEnable b =>
      cases b with
      | false => exact h
      | true =>
        simp only [next]
        split
        · exact .settled h.configured h.ended
        · exact h
    | _ => exact h
  | _ => exact h

/-- The report of a handshake that has ended is one of an outstanding request. -/
theorem tells_connect {e : Entry} {g : Seen} {s : ConnectionEnd} (r : NewtonErr)
    (h : Tracked g s) (hout : g.outstanding = true) :
    Tells core.toContract Tracked e g s (.connectComplete r) := by
  refine ⟨?_, .settled h.configured h.ended⟩
  cases e with
  | handleRequest msgType => cases msgType <;> first | exact hout | rfl
  | handleTimerTick nowms => exact hout
  | _ => rfl

/-- A success is told while a request is outstanding. -/
theorem tells_success {e : Entry} {g : Seen} {s : ConnectionEnd} (h : Tracked g s)
    (hout : g.outstanding = true) : Tells core.toContract Tracked e g s (successReport s) := by
  unfold successReport
  split
  · exact ⟨by simp [core, asked], .settled h.configured h.ended⟩
  · exact tells_connect (.code 0) h hout

/-- The entries keep the phases in step. -/
theorem entryRules : EntryRules core.toContract (fun _ => timely) Tracked Fresh where
  basic := callRules
  enter := fun _ _ _ _ _ _ h => ⟨rfl, entered h⟩
  leave := fun _ _ _ _ _ h => ⟨rfl, left h⟩
  opened := fun _ _ _ _ h => h.unconfigured rfl rfl
  connects := fun _ _ _ _ h _ => h.more (Nat.le_succ _) le_rfl
  connected := by
    intro stk r g s _ h _
    exact ConnectionEnd.of_connected r h (h.same rfl rfl rfl)
  enabled := by
    intro stk b g s _ h
    cases b with
    | false => exact h.same rfl rfl rfl
    | true => exact (h.more le_rfl (Nat.le_succ _)).same rfl rfl rfl
  closed := by
    intro stk g s _ h _
    exact ⟨rfl, h.unconfigured rfl rfl, fun _ =>
      sat_sslUnconfigure memoryQuiet (h.unconfigured rfl rfl)⟩
  delete := by
    intro stk g s hout _ h
    refine callRules.sat_delete ⟨rfl, hout⟩ (memoryQuiet _ rfl) (fun _ => memoryQuiet _ rfl)
      (fun _ _ _ h => h.same rfl rfl rfl) (h.unconfigured rfl rfl) fun _ => ?_
    exact sat_sslUnconfigure memoryQuiet ⟨rfl, h.unconfigured rfl rfl⟩
  configure := by
    intro e stk fuel g s hout hbegins
    have h : Tracked g s := hbegins.elim
      (fun _ _ _ h _ => h.more (Nat.le_succ _) le_rfl)
      (fun _ _ _ h _ => (h.more le_rfl (Nat.le_succ _)).same rfl rfl rfl)
    exact sat_configure_of_quiet setupQuiet (fun _ _ _ h => h.same rfl rfl rfl)
      (fun _ _ _ _ _ _ _ => ⟨rfl, rfl, rfl⟩) fuel hout h
  configured := fun _ _ _ _ h => h.tracked
  setter := fun _ _ fuel o _ _ _ ho _ h =>
    sat_setter_of_quiet setupQuiet (quietQuery (by simp)) (fun _ _ _ h => h.same rfl rfl rfl) fuel
      o ho (setter_entered h ho)
  getSSL := fun e _ fuel b threshold _ _ hout hb _ h _ =>
    sendRules.sat_getFromSSL (readRules.bufferRules memoryQuiet) trivial hout fuel b threshold
      (entered h (Entry.sets_of_gets hb))
      (fun size a _ => readRules.started memoryQuiet (entered h (Entry.sets_of_gets hb)) size a)
      fun _ _ h' => h'
  reread := fun _ fuel _ _ hout h _ hest _ =>
    sendRules.sat_retryRead (readRules.bufferRules memoryQuiet) trivial ⟨rfl, hout⟩ fuel h hest
      fun _ _ h' => h'
  put := fun _ b _ _ hout h hconf _ hest =>
    sendRules.sat_putToSSL trivial ⟨rfl, hout⟩ b h hconf hest fun _ _ h' => h'
  terminate := fun _ _ _ hout _ h =>
    sendRules.sat_terminateStart trivial ⟨rfl, hout⟩ (entered (e := .terminateStart) h rfl)
      fun _ _ h' => h'
  begins := fun _ _ _ _ _ _ => rfl
  upgrades := fun _ _ _ => rfl
  handshake := by
    intro e stk g s _ hcause
    obtain ⟨h, hconf, hout⟩ := requested hcause
    exact ⟨by simp [core, asked, hconf, hout], h⟩
  outcome := by
    intro e stk g s g' s' r _ hcause h' hrely _
    obtain ⟨-, hconf, hout⟩ := requested hcause
    obtain ⟨rfl, hcore⟩ := core.rely_tls rfl hrely
    have hconf' : s'.mSSLConfigured = true := hcore.mSSLConfigured.trans hconf
    refine ⟨by simpa [core, asked, hconf'] using hout, ?_, ?_, ?_⟩
    · rintro rfl
      exact tells_success ⟨by rintro ⟨⟩, by rintro ⟨⟩, fun _ => .inl rfl⟩ hout
    · intro hr hmore a i f b
      have hnext : next g' (.resumes .mbedtlsSslHandshake r) = { g' with phase := .ended } := by
        simp [next, hmore]
      show core.Every _ _ _ ∧ Tells core.toContract Tracked e
        (next (next g' (.resumes .mbedtlsSslHandshake r)) (.asked .mbedtlsSslSessionReset a)) _ _
      rw [hnext]
      exact ⟨rfl, tells_connect _ ⟨by rintro ⟨⟩, by rintro ⟨⟩, fun _ => .inr rfl⟩ hout⟩
    · intro hmore
      have hnext : next g' (.resumes .mbedtlsSslHandshake r) = g' := by simp [next, hmore]
      show Tracked (next g' (.resumes .mbedtlsSslHandshake r)) s'
      rw [hnext]
      exact h'

/-! ## Handshakes -/

/-- **No handshake without a request**, and no report by a wake-up or a tick without one, in every
run in which wake-ups that find the connection open and not established, and due ticks, do not
come in the idle phase, and completed connects with SSL come in the active one. -/
theorem handshake_requested {fuel : ℕ} {memory : ConnectionEnd} {cfg : Config CESig ConnectionEnd}
    (h : Reachable (discipline monitor fun _ => timely) (code fuel) (new memory) cfg) :
    cfg.log.Obeys monitor fun g s x => asked g s x = true :=
  Contract.log_obeys (CoreContract.meets_entries entryRules fuel) (Tracked.idle rfl) h

/-- A handshake that is retried after a wake-up and fails, and a wake-up that comes later. -/
def retriedRun : List (Move CESig) :=
  [enter .openStart, back, enter (.processOptionStart (.sslEnable true)), enter .connectStart,
    back, enter (.connectCompleteCB 0), backWith MBEDTLS_ERR_SSL_WANT_READ,
    enter (.handleRequest .kAsyncReadMessageType), backWith (-1), back, back,
    enter (.handleRequest .kAsyncReadMessageType), back]

/-- The run is timely, and its handshakes have been asked for. -/
theorem handshake_requested_retriedRun :
    ∃ cfg, (Config.start (new zeroMemory)).run (discipline monitor fun _ => timely) (code 0)
        retriedRun = some cfg ∧
      cfg.log.Obeys monitor fun g s x => asked g s x = true := by
  have hrun : ((Config.start (new zeroMemory)).run (discipline monitor fun _ => timely) (code 0)
      retriedRun).isSome = true := by decide +kernel
  obtain ⟨cfg, hcfg⟩ := Option.isSome_iff_exists.mp hrun
  exact ⟨cfg, hcfg, handshake_requested (.of_run _ .start hcfg)⟩

/-- A put fails on an established connection, and a wake-up message follows. -/
def failedPutRun : List (Move CESig) :=
  connectRun ++ [enter (.putBytesStart 0), backWith (-1), back,
    enter (.handleRequest .kAsyncReadMessageType)]

/-- After the put that fails, a wake-up begins a handshake that nobody has asked for. -/
theorem handshake_not_requested :
    ¬ ∀ (fuel : ℕ) (memory : ConnectionEnd) (cfg : Config CESig ConnectionEnd),
      Reachable (discipline monitor fun _ _ _ _ => true) (code fuel) (new memory) cfg →
        cfg.log.Obeys monitor fun g s x => asked g s x = true := by
  intro hall
  have hbad : ((Config.start (new zeroMemory)).run (discipline monitor fun _ _ _ _ => true)
      (code 0) failedPutRun).map (fun cfg => Log.check monitor asked monitor.init cfg.log) =
      some false := by decide +kernel
  obtain ⟨cfg, hreach, hnot⟩ := Reachable.not_obeys failedPutRun hbad
  exact hnot (hall 0 zeroMemory cfg hreach)

end HandshakeRequests

end NewtonTLS
