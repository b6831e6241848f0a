/-
# The data path of a configured connection

From the moment `SSLConfigure` returns 0 until `CloseStart`, `OpenStart` or
`Delete`, no list of the client goes to the inner end, and `mbedtls_ssl_write`
and `mbedtls_ssl_read` are called only after a handshake that succeeded and was
not undone by `mbedtls_ssl_session_reset`.

The flags `mSSLConfigured` and `mEstablished` are to say the same as what was
seen of mbedTLS (`Tracks`).  Two events break this, and `Harmless` names them: a
handshake on an established connection that wants to be called again, which
leaves `mEstablished` set, and a configuration made while `CloseStart` waits for
the inner end, which `CloseStart` then takes away.
-/
import NewtonTLS.ConnectionEndRules

open Reentrant

namespace NewtonTLS

namespace DataPath

/-! ## What is observed -/

/-- Whether a configuration is in force, and whether its latest handshake
succeeded and has not been reset. -/
structure Seen : Type where
  guarded : Bool
  handshakeOk : Bool
  deriving DecidableEq

/-- One event. -/
def next (g : Seen) : Label CESig → Seen
  | .enter .openStart => { g with guarded := false }
  | .enter .closeStart => { g with guarded := false }
  | .enter .delete => { g with guarded := false }
  | .asked .sslConfigured _ => ⟨true, false⟩
  | .asked .mbedtlsSslSessionReset _ => { g with handshakeOk := false }
  | .resumes .mbedtlsSslHandshake r => { g with handshakeOk := decide (r = (0 : Int)) }
  | _ => g

/-- No configuration is in force. -/
abbrev monitor : Monitor CESig where
  Obs := Seen
  init := ⟨false, false⟩
  next := next

/-- The call hands a list of the client to the inner end. -/
def passesClientList : Call → Bool
  | .inner c =>
    match c.list? with
    | some (.client _) => true
    | _ => false
  | _ => false

/-- The call sends or receives application data through mbedTLS. -/
def usesSession : Call → Bool
  | .mbedtlsSslWrite _ => true
  | .mbedtlsSslRead _ => true
  | _ => false

/-- The event respects the data path. -/
def inOrder (g : Seen) (_ : ConnectionEnd) : Label CESig → Bool
  | .calls _ c =>
    !(g.guarded && passesClientList c) && (!(g.guarded && usesSession c) || g.handshakeOk)
  | _ => true

/-- The event is none of the two that set flags and session apart. -/
def harmless (g : Seen) (s : ConnectionEnd) : Label CESig → Bool
  | .resumes .mbedtlsSslHandshake r => !(g.guarded && s.mEstablished && wantsMore r)
  | .resumes (.inner .closeStart) _ => !g.guarded
  | _ => true

/-! ## The invariant -/

/-- The flags say what was seen. -/
def Tracks (g : Seen) (s : ConnectionEnd) : Prop :=
  g.guarded = true → s.mSSLConfigured = true ∧ (s.mEstablished = true → g.handshakeOk = true)

/-- The invariant looks at two flags, and can only gain when a connection is not
established any more. -/
theorem Tracks.flags {g : Seen} {s s' : ConnectionEnd} (h : Tracks g s)
    (hconf : s'.mSSLConfigured = s.mSSLConfigured)
    (hest : s'.mEstablished = s.mEstablished ∨ s'.mEstablished = false) : Tracks g s' := by
  intro hg
  obtain ⟨hc, hok⟩ := h hg
  refine ⟨hconf.trans hc, fun he => ?_⟩
  rcases hest with hsame | hlost
  · exact hok (hsame ▸ he)
  · rw [hlost] at he
    cases he

/-- Outside of a configuration nothing is said. -/
theorem Tracks.outside {g : Seen} {s : ConnectionEnd} (hg : g.guarded = false) : Tracks g s := by
  intro hg'
  rw [hg] at hg'
  cases hg'

/-- Traffic is never out of order and is not observed. -/
theorem traffic_quiet (g : Seen) (s : ConnectionEnd) (x : Label CESig) (hx : Traffic s x) :
    inOrder g s x = true ∧ next g x = g := by
  cases x with
  | enter e => cases e <;> first | exact ⟨rfl, rfl⟩ | cases hx
  | leave e v => exact ⟨rfl, rfl⟩
  | asked q a => cases q <;> first | exact ⟨rfl, rfl⟩ | cases hx
  | calls _ c =>
    refine ⟨?_, rfl⟩
    have hc : passesClientList c = false ∧ usesSession c = false := by
      rcases Call.isTraffic_cases hx.2 with ⟨_, rfl⟩ | ⟨_, _, rfl⟩ | ⟨_, _, rfl, _⟩ |
        ⟨_, _, _, rfl, _⟩ | ⟨_, rfl⟩ <;> exact ⟨rfl, rfl⟩
    simp [inOrder, hc]
  | resumes c r => cases c <;> first | exact ⟨rfl, rfl⟩ | cases hx

/-- The contract of the data path. -/
def core : CoreContract monitor where
  Inv := Tracks
  Every := fun g s x => inOrder g s x = true
  inv_core := fun _ _ _ h hcore => h.flags hcore.mSSLConfigured (.inl hcore.mEstablished)
  quiet := fun g s x _ hx => traffic_quiet g s x hx

/-- The questions of the setup are not observed. -/
theorem setupQuiet : SetupQuiet core.toContract := by
  intro q hq g s a
  cases q <;> first | exact ⟨rfl, rfl⟩ | cases hq

/-- A call that fits the state is in order: lists of the client go to the inner end
in the plain mode, and mbedTLS sends when the connection is established. -/
theorem inOrder_of_fits {g : Seen} {s : ConnectionEnd} (e : Entry) {c : Call} (h : Tracks g s)
    (hfits : c.fits e s) : inOrder g s (.calls e c) = true := by
  cases hg : g.guarded with
  | false => simp [inOrder, hg]
  | true =>
    obtain ⟨hconf, hok⟩ := h hg
    cases c with
    | inner c =>
      cases hl : c.list? with
      | none => simp [inOrder, passesClientList, usesSession, hl]
      | some l =>
        rw [(hfits l hl).2] at hconf
        cases hconf
    | mbedtlsSslWrite buf => simp [inOrder, passesClientList, hok hfits.2]
    | mbedtlsSslRead n => exact absurd hfits id
    | _ => simp [inOrder, passesClientList, usesSession]

theorem basicRules : BasicRules core.toContract (fun _ => harmless) Tracks where
  at_iff := fun _ _ _ _ => Iff.rfl
  rely_out := fun _ _ _ _ _ hout => core.rely_out hout
  rely_tls := fun _ _ _ _ _ _ hc h => (core.rely_tls hc h).2
  frame := fun _ _ _ h hest _ => h.flags rfl hest
  memory := setupQuiet.memory
  putList := by
    intro q hq g s a
    cases q <;> first | exact ⟨rfl, rfl⟩ | cases hq
  calls := fun e _ _ _ _ _ h hfits => ⟨inOrder_of_fits e h hfits, h⟩
  resumes := by
    intro stk g s c r _ h hc _
    cases c <;> first | exact ⟨rfl, h⟩ | cases hc
  reset := by
    intro g s a h hest
    exact ⟨rfl, fun hg => ⟨(h hg).1, fun he => by rw [hest] at he; cases he⟩⟩

theorem readRules : ReadRules core.toContract Tracks where
  getList := by
    intro q hq g s a
    cases q <;> first | exact ⟨rfl, rfl⟩ | cases hq
  frame := fun _ _ _ h => h.flags rfl (.inl rfl)
  read := by
    intro _ g s n h hest
    refine ⟨?_, h⟩
    cases hg : g.guarded with
    | false => simp [core, inOrder, hg]
    | true => simp [core, inOrder, passesClientList, (h hg).2 hest]
  readEnds := fun _ _ _ _ h => ⟨rfl, h⟩
  completes := fun _ _ _ _ _ _ _ h => ⟨by simp [core, inOrder, passesClientList, usesSession], h⟩

/-- A new configuration has no session yet. -/
def Fresh (_ : Seen) (_ : ConnectionEnd) (g' : Seen) (s' : ConnectionEnd) : Prop :=
  g' = ⟨true, false⟩ ∧ s'.mSSLConfigured = true ∧ s'.mEstablished = false

/-- A new configuration is tracked. -/
theorem Fresh.tracks {g g' : Seen} {s s' : ConnectionEnd} (h : Fresh g s g' s') : Tracks g' s' := by
  intro _
  refine ⟨h.2.1, fun he => ?_⟩
  rw [h.2.2] at he
  cases he

/-- After a handshake the flag `mEstablished` is set exactly when it has succeeded,
the harmful case apart. -/
theorem outcome {e : Entry} {g : Seen} {s : ConnectionEnd} {r : Int} (h : Tracks g s)
    (hok : harmless g s (.resumes .mbedtlsSslHandshake r) = true) :
    Outcome core.toContract Tracks e (next g (.resumes .mbedtlsSslHandshake r)) s r where
  success := by
    intro hr
    refine ⟨?_, fun hg => ⟨(h hg).1, fun _ => decide_eq_true hr⟩⟩
    simp [core, inOrder, passesClientList, usesSession]
  failure := by
    intro hr hmore a i f b
    refine ⟨rfl, ?_, fun hg => ⟨(h hg).1, fun he => ?_⟩⟩
    · simp [core, inOrder, passesClientList, usesSession]
    · simp [ConnectionEnd.withTimer] at he
  again := by
    intro hmore hg
    have hg' : g.guarded = true := hg
    refine ⟨(h hg).1, fun he => ?_⟩
    simp [harmless, hg', he, hmore] at hok

/-- Entering a function keeps the flags in step. -/
theorem entered {g : Seen} {s : ConnectionEnd} (e : Entry) (h : Tracks g s) :
    Tracks (next g (.enter e)) s := by
  cases e <;> first | exact h | exact .outside rfl

theorem requestRules : RequestRules core.toContract (fun _ => harmless) Tracks Fresh where
  basic := basicRules
  enter := fun _ e _ _ _ _ h => ⟨rfl, entered e h⟩
  leave := fun _ _ _ _ _ h => ⟨rfl, h⟩
  opened := fun _ _ _ _ _ => .outside rfl
  closed := by
    intro stk g s _ h hok
    have hg : g.guarded = false := by simpa [harmless] using hok
    exact ⟨rfl, h, fun _ => .outside hg⟩
  deleted := fun _ _ _ _ _ _ => .outside rfl
  configure := fun _ _ fuel _ _ hout h =>
    sat_configure_of_quiet setupQuiet (fun _ _ _ h => h.flags rfl (.inl rfl))
      (fun _ _ _ _ _ _ _ => ⟨rfl, rfl, rfl, rfl⟩) fuel hout h
  configured := fun _ _ _ _ h => h.tracks
  setter := fun _ _ fuel o _ _ _ ho _ h =>
    sat_setter_of_quiet setupQuiet (fun _ _ _ => ⟨rfl, rfl⟩)
      (fun _ _ _ h => h.flags rfl (.inl rfl)) fuel o ho h
  getSSL := fun _ _ fuel b threshold _ _ hout h _ =>
    basicRules.sat_getFromSSL readRules hout fuel b threshold h fun _ _ h => h
  reread := fun _ _ fuel _ _ hout h hest =>
    basicRules.sat_retryRead readRules hout fuel h hest fun _ _ h => h
  begins := fun _ _ _ _ => rfl
  handshake := by
    intro _ stk g s _ hcause
    refine ⟨?_, hcause.inv (fun _ e _ _ _ _ h => entered e h) (fun _ _ _ _ h => h.tracks)
      fun _ _ _ h => h⟩
    simp [core, inOrder, passesClientList, usesSession]
  outcome := by
    intro _ stk g s g' s' r _ _ h _ hok
    exact ⟨rfl, outcome h hok⟩

/-! ## The data path -/

/-- **The data path is kept** in every run in which no handshake on an
established connection wants to be called again and no configuration is made
while `CloseStart` waits for the inner end. -/
theorem dataPath_kept {fuel : ℕ} {memory : ConnectionEnd} {cfg : Config CESig ConnectionEnd}
    (h : Reachable (discipline monitor fun _ => harmless) (code fuel) (new memory) cfg) :
    cfg.log.Obeys monitor fun g s x => inOrder g s x = true :=
  Contract.log_obeys (core.meets requestRules fuel) (Tracks.outside rfl) h

/-- A connection that is used. -/
theorem dataPath_connectRun :
    ∃ cfg, (Config.start (new zeroMemory)).run (discipline monitor fun _ => harmless) (code 0)
        (connectRun ++ [enter (.putBytesStart 0), back, back]) = some cfg ∧
      cfg.log.Obeys monitor fun g s x => inOrder g s x = true := by
  have hrun : ((Config.start (new zeroMemory)).run (discipline monitor fun _ => harmless) (code 0)
      (connectRun ++ [enter (.putBytesStart 0), back, back])).isSome = true := by decide +kernel
  obtain ⟨cfg, hcfg⟩ := Option.isSome_iff_exists.mp hrun
  exact ⟨cfg, hcfg, dataPath_kept (.of_run _ .start hcfg)⟩

/-- The client connects once more, without SSL, enables SSL while the inner end
connects, and writes after the handshake that follows has asked for more. -/
def reconnectRun : List (Move CESig) :=
  connectRun ++ [enter (.processOptionStart (.sslEnable false)), enter .connectStart, back,
    enter (.processOptionStart (.sslEnable true)), enter (.connectCompleteCB 0),
    backWith MBEDTLS_ERR_SSL_WANT_READ, enter (.putBytesStart 0)]

/-- Not every run keeps the data path. -/
theorem dataPath_not_kept :
    ¬ ∀ (fuel : ℕ) (memory : ConnectionEnd) (cfg : Config CESig ConnectionEnd),
      Reachable (discipline monitor fun _ _ _ _ => true) (code fuel) (new memory) cfg →
        cfg.log.Obeys monitor fun g s x => inOrder g s x = true := by
  intro hall
  have hbad : ((Config.start (new zeroMemory)).run (discipline monitor fun _ _ _ _ => true)
      (code 0) reconnectRun).map (fun cfg => Log.check monitor inOrder monitor.init cfg.log) =
      some false := by decide +kernel
  obtain ⟨cfg, hreach, hnot⟩ := Reachable.not_obeys reconnectRun hbad
  exact hnot (hall 0 zeroMemory cfg hreach)

end DataPath

end NewtonTLS
