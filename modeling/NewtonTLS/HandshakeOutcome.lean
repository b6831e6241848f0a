/-
# Who is told how a handshake ended

A handshake begun by `ConnectStart` should end with one `ConnectComplete`, one
begun by the SSL option with one `ProcessOptionComplete`, and with nothing else.
`DoSSLHandshake` does not know who began: it reports a success by `mUpgradable`,
which the completion of a connect without SSL sets for good, and a failure always
as `ConnectComplete`.  `rightly` names the handshakes for which this is the right
report: they end with one report each if and only if all are of this kind.
-/
import NewtonTLS.ConnectionEndRules

open Reentrant

namespace NewtonTLS

namespace HandshakeOutcome

/-! ## What is observed -/

/-- The requests that have begun the handshake of the current configuration, and, once
it has ended, who began it and with which result, until that is reported. -/
structure Seen : Type where
  begun : List Starter
  due : Option (List Starter × Int)
  deriving DecidableEq

/-- One event. -/
def next (g : Seen) : Label CESig → Seen
  | .asked .sslConfigured _ => { g with begun := [] }
  | .asked (.handshakeBegins r) _ => { g with begun := g.begun ++ [r] }
  | .resumes .mbedtlsSslHandshake r => if wantsMore r then g else ⟨[], some (g.begun, r)⟩
  | .calls _ _ => { g with due := none }
  | _ => g

/-- No request has begun a handshake, and none has ended. -/
abbrev monitor : Monitor CESig where
  Obs := Seen
  init := ⟨[], none⟩
  next := next

/-- `c` reports result `r` to the request that began the handshake, and there is one
such request. -/
def reports (begun : List Starter) (r : Int) : Call → Bool
  | .client (.connectComplete e) => begun = [.connect] ∧ e = .code r
  | .client (.processOptionComplete v) => begun = [.option] ∧ (v = .opSuccess ↔ r = 0)
  | _ => false

/-- A connect is complete without a handshake: SSL cannot be configured for it, or the inner end
says so, with a failure or without SSL to follow. -/
def withoutHandshake (e : Entry) (s : ConnectionEnd) (err : NewtonErr) : Bool :=
  match e with
  | .connectStart => err ≠ .code 0
  | .connectCompleteCB r => err = .code r ∧ (r = 0 → s.mSSLEnabled = false)
  | _ => false

/-- A handshake that has ended is reported by the next call.  Apart from that no completion of an
upgrade is reported, and no completion of a connect that has a handshake. -/
def reported (g : Seen) (s : ConnectionEnd) : Label CESig → Bool
  | .calls e c =>
    match g.due with
    | some (begun, r) => reports begun r c
    | none =>
      match c with
      | .client (.processOptionComplete _) => false
      | .client (.connectComplete err) => withoutHandshake e s err
      | _ => true
  | .asked _ _ => true
  | _ => g.due = none

/-- The handshake that has ended was begun by one request: by a connect, which has failed or has
not become upgradable before, or by an upgrade, which has succeeded. -/
def rightly (g : Seen) (s : ConnectionEnd) : Label CESig → Bool
  | .calls _ _ =>
    match g.due with
    | some ([.connect], r) => r ≠ 0 || !s.mUpgradable
    | some ([.option], r) => r = 0
    | some _ => false
    | none => true
  | _ => true

/-! ## The rules -/

/-- Between events nothing is due, and upgrades have begun on an upgradable connection only. -/
structure Settled (g : Seen) (s : ConnectionEnd) : Prop where
  notDue : g.due = none
  upgrades : .option ∈ g.begun → s.mUpgradable = true

/-- A connection that has become upgradable stays upgradable. -/
theorem Settled.same {g : Seen} {s s' : ConnectionEnd} (h : Settled g s)
    (hup : s'.mUpgradable = s.mUpgradable ∨ s'.mUpgradable = true) : Settled g s' := by
  refine ⟨h.notDue, fun hoption => ?_⟩
  rcases hup with hsame | hset
  · rw [hsame]
    exact h.upgrades hoption
  · exact hset

/-- The next request has begun a handshake. -/
theorem Settled.begins {g : Seen} {s : ConnectionEnd} (h : Settled g s) (r : Starter)
    (hup : r = .option → s.mUpgradable = true) :
    Settled { g with begun := g.begun ++ [r] } s := by
  refine ⟨h.notDue, fun hoption => ?_⟩
  rw [List.mem_append, List.mem_singleton] at hoption
  rcases hoption with hbegun | hlast
  · exact h.upgrades hbegun
  · exact hup hlast.symm

/-- A call while nothing is due. -/
theorem call_quiet {g : Seen} {s : ConnectionEnd} (h : Settled g s) (e : Entry) {c : Call}
    (hoption : ∀ v, c ≠ .client (.processOptionComplete v))
    (hconnect : ∀ err, c = .client (.connectComplete err) → withoutHandshake e s err = true) :
    (reported g s (.calls e c) = true ↔ rightly g s (.calls e c) = true) ∧
      next g (.calls e c) = g := by
  obtain ⟨begun, due⟩ := g
  obtain ⟨rfl, -⟩ := h
  refine ⟨?_, rfl⟩
  cases c with
  | client c =>
    cases c with
    | connectComplete err => simp only [reported, rightly, hconnect err rfl]
    | processOptionComplete v => exact absurd rfl (hoption v)
    | _ => exact Iff.rfl
  | _ => exact Iff.rfl

/-- Any other event while nothing is due. -/
theorem event_quiet {g : Seen} {s : ConnectionEnd} (h : Settled g s) {x : Label CESig}
    (hx : ∀ e c, x ≠ .calls e c) : reported g s x = true ↔ rightly g s x = true := by
  have hdue : g.due = none := h.notDue
  cases x with
  | calls e c => exact absurd rfl (hx e c)
  | _ => simp [reported, rightly, hdue]

/-- Data that is sent or received is no part of a handshake. -/
theorem traffic_quiet (g : Seen) (s : ConnectionEnd) (x : Label CESig) (h : Settled g s)
    (hx : Traffic s x) : (reported g s x = true ↔ rightly g s x = true) ∧ next g x = g := by
  cases x with
  | enter e => exact ⟨event_quiet h (by simp), rfl⟩
  | leave e v => exact ⟨event_quiet h (by simp), rfl⟩
  | asked q a =>
    refine ⟨event_quiet h (by simp), ?_⟩
    cases q <;> first | rfl | cases hx
  | calls _ c =>
    refine call_quiet h _ ?_ ?_
    · rintro v rfl
      cases hx.2
    · rintro err rfl
      cases hx.2
  | resumes c r =>
    refine ⟨event_quiet h (by simp), ?_⟩
    cases c <;> first | rfl | cases hx

/-- The contract: every event is a right report if and only if it is reported
rightly. -/
def core : CoreContract monitor where
  Inv := Settled
  Every := fun g s x => reported g s x = true ↔ rightly g s x = true
  inv_core := fun _ _ _ h hcore => h.same (.inl hcore.mUpgradable)
  quiet := traffic_quiet

/-- The questions of the setup are not observed. -/
theorem setupQuiet : SetupQuiet core.toContract := by
  intro q hq g s a
  refine ⟨by simp [core, reported, rightly], ?_⟩
  cases q <;> first | rfl | cases hq

/-- A call that fits the state completes a connect only without a handshake. -/
theorem withoutHandshake_of_fits {e : Entry} {s : ConnectionEnd} {err : NewtonErr}
    (h : (Call.client (.connectComplete err)).fits e s) : withoutHandshake e s err = true := by
  rcases h with ⟨k, rfl, rfl, hk⟩ | ⟨k, rfl, rfl, hplain⟩
  · simp [withoutHandshake, hk]
  · simpa [withoutHandshake, imp_iff_not_or] using hplain

theorem basicRules :
    BasicRules core.toContract (fun _ _ _ _ => true) Settled where
  at_iff := fun _ _ _ _ => Iff.rfl
  rely_out := fun _ _ _ _ _ hout => core.rely_out hout
  rely_tls := fun _ _ _ _ _ _ hc h => (core.rely_tls hc h).2
  frame := fun _ _ _ h _ hup => h.same hup
  memory := setupQuiet.memory
  putList := by
    intro q hq g s a
    refine ⟨by simp [core, reported, rightly], ?_⟩
    cases q <;> first | rfl | cases hq
  calls := by
    intro e stk g s c _ h hfits
    have hquiet := call_quiet h e (c := c) (by rintro v rfl; exact hfits)
      (by rintro err rfl; exact withoutHandshake_of_fits hfits)
    refine ⟨hquiet.1, ?_⟩
    show Settled (next g (.calls e c)) s
    rw [hquiet.2]
    exact h
  resumes := by
    intro stk g s c r _ h hc _
    refine ⟨event_quiet h (by simp), ?_⟩
    cases c <;> first | exact h | cases hc
  reset := fun _ _ _ h _ => ⟨event_quiet h (by simp), h⟩

theorem readRules : ReadRules core.toContract Settled where
  getList := by
    intro q hq g s a
    refine ⟨by simp [core, reported, rightly], ?_⟩
    cases q <;> first | rfl | cases hq
  frame := fun _ _ _ h => h.same (.inl rfl)
  read := by
    intro e g s n h _
    exact ⟨(call_quiet h e (by simp) (by simp)).1, rfl, h.upgrades⟩
  readEnds := fun _ _ _ _ h => ⟨event_quiet h (by simp), h⟩
  completes := by
    intro e g s r b n _ h
    exact ⟨(call_quiet h e (by simp) (by simp)).1, rfl, h.upgrades⟩

/-- A configuration begins nothing. -/
structure Fresh (g : Seen) (s : ConnectionEnd) (g' : Seen) (s' : ConnectionEnd) : Prop where
  obs : g' = { g with begun := [] }
  notDue : g.due = none
  upgradable : s'.mUpgradable = s.mUpgradable

/-- After a configuration nothing is due. -/
theorem Fresh.settled {g g' : Seen} {s s' : ConnectionEnd} (h : Fresh g s g' s') :
    Settled g' s' := by
  obtain ⟨rfl, hdue, -⟩ := h
  exact ⟨hdue, by simp⟩

/-- Whatever brings a handshake about, nothing is due. -/
theorem settled_of_cause {stk : List Call} {g : monitor.Obs} {s : ConnectionEnd}
    (h : Cause monitor (fun _ _ _ _ => true) Settled Fresh stk g s) : Settled g s := by
  cases h with
  | tick _ _ hinv _ => exact hinv
  | wakeUp _ hinv _ _ => exact hinv
  | connected _ hinv _ => exact hinv.begins .connect (by rintro ⟨⟩)
  | upgrade _ _ hup hfresh =>
    exact hfresh.settled.begins .option fun _ => hfresh.upgradable.trans hup

/-- A success is reported to the one who began if it was begun rightly: an upgrade has made the
connection upgradable before it began. -/
theorem reports_success (e : Entry) {begun : List Starter} {s : ConnectionEnd}
    (hup : .option ∈ begun → s.mUpgradable = true) :
    reports begun 0 (.client (successReport s)) = true ↔
      rightly ⟨[], some (begun, 0)⟩ s (.calls e (.client (successReport s))) = true := by
  rcases begun with _ | ⟨⟨⟩, _ | ⟨_, _⟩⟩ <;> cases hs : s.mUpgradable
  all_goals simp_all [successReport, reports, rightly]

/-- So is a failure. -/
theorem reports_failure (e : Entry) (begun : List Starter) (s : ConnectionEnd) {r : Int}
    (hr : r ≠ 0) :
    reports begun r (.client (.connectComplete (.code r))) = true ↔
      rightly ⟨[], some (begun, r)⟩ s (.calls e (.client (.connectComplete (.code r)))) = true := by
  rcases begun with _ | ⟨⟨⟩, _ | ⟨_, _⟩⟩ <;> simp [reports, rightly, hr]

/-- What `DoSSLHandshake` does with a result is right exactly when the handshake was
begun rightly. -/
theorem outcome {e : Entry} {g : Seen} {s : ConnectionEnd} {r : Int} (h : Settled g s) :
    Outcome core.toContract Settled e (next g (.resumes .mbedtlsSslHandshake r)) s r where
  success := by
    rintro rfl
    have hnext : next g (.resumes .mbedtlsSslHandshake 0) = ⟨[], some (g.begun, 0)⟩ := rfl
    rw [hnext]
    refine ⟨?_, rfl, by simp [next]⟩
    exact reports_success e (s := { s with mEstablished := true }) h.upgrades
  failure := by
    intro hr hmore a i f b
    have hnext : next g (.resumes .mbedtlsSslHandshake r) = ⟨[], some (g.begun, r)⟩ := by
      simp [next, hmore]
    rw [hnext]
    refine ⟨by simp [core, reported, rightly], ?_, rfl, by simp [next]⟩
    exact reports_failure e g.begun _ hr
  again := by
    intro hmore
    simp only [next, hmore, if_true]
    exact h

theorem requestRules :
    RequestRules core.toContract (fun _ _ _ _ => true) Settled Fresh where
  basic := basicRules
  enter := by
    intro stk e g s _ _ h
    refine ⟨event_quiet h (by simp), ?_⟩
    cases e <;> exact h
  leave := fun _ _ _ _ _ h => ⟨event_quiet h (by simp), h⟩
  opened := fun _ _ _ _ h => h.same (.inl rfl)
  closed := fun _ _ _ _ h _ => ⟨event_quiet h (by simp), h, fun _ => h.same (.inl rfl)⟩
  deleted := fun _ _ _ _ h _ => h.same (.inl rfl)
  configure := fun _ _ fuel _ _ hout h =>
    sat_configure_of_quiet setupQuiet (fun _ _ _ h => h.same (.inl rfl))
      (fun _ _ _ _ _ h _ => ⟨by simp [core, reported, rightly], rfl, h.notDue, rfl⟩) fuel hout h
  configured := fun _ _ _ _ h => h.settled
  setter := fun _ _ fuel o _ _ _ ho _ h =>
    sat_setter_of_quiet setupQuiet (fun _ _ _ => ⟨by simp [core, reported, rightly], rfl⟩)
      (fun _ _ _ h => h.same (.inl rfl)) fuel o ho h
  getSSL := fun _ _ fuel b threshold _ _ hout h _ =>
    basicRules.sat_getFromSSL readRules hout fuel b threshold h fun _ _ h => h
  reread := fun _ _ fuel _ _ hout h hest =>
    basicRules.sat_retryRead readRules hout fuel h hest fun _ _ h => h
  begins := fun _ _ _ h => event_quiet h (by simp)
  handshake := by
    intro e stk g s _ hcause
    have h := settled_of_cause hcause
    exact ⟨(call_quiet h e (by simp) (by simp)).1, rfl, h.upgrades⟩
  outcome := by
    intro _ stk g s g' s' r _ _ h _ _
    exact ⟨event_quiet h (by simp), outcome h⟩

/-! ## The outcome of handshakes -/

/-- **A run reports every handshake to the request that began it** if and only if every
handshake that ends was begun by one request, and that was a connect that failed or was not made
on an upgradable connection, or an upgrade that succeeded. -/
theorem outcome_reported_iff {fuel : ℕ} {memory : ConnectionEnd}
    {cfg : Config CESig ConnectionEnd}
    (h : Reachable (discipline monitor fun _ _ _ _ => true) (code fuel) (new memory) cfg) :
    (cfg.log.Obeys monitor fun g s x => reported g s x = true) ↔
      cfg.log.Obeys monitor fun g s x => rightly g s x = true := by
  have hevery := Contract.log_obeys (core.meets requestRules fuel) ⟨rfl, by simp⟩ h
  constructor
  · intro hrep before x after hl
    exact (hevery before x after hl).mp (hrep before x after hl)
  · intro hright before x after hl
    exact (hevery before x after hl).mpr (hright before x after hl)

/-- A plain connection is upgraded, and the handshake ends with `r` after a wake-up. -/
def upgradeRun (r : Int) : List (Move CESig) :=
  [enter .openStart, back, enter .connectStart, back, enter (.connectCompleteCB 0), back,
    enter (.processOptionStart (.sslEnable true)), backWith MBEDTLS_ERR_SSL_WANT_READ,
    enter (.handleRequest .kAsyncReadMessageType), backWith r]

/-- An upgrade that succeeds is reported to the option. -/
theorem outcome_reported_upgradeRun :
    ∃ cfg, (Config.start (new zeroMemory)).run (discipline monitor fun _ _ _ _ => true) (code 0)
        (upgradeRun 0) = some cfg ∧
      cfg.log.Obeys monitor fun g s x => reported g s x = true := by
  have hrun : ((Config.start (new zeroMemory)).run (discipline monitor fun _ _ _ _ => true)
      (code 0) (upgradeRun 0)).map (fun cfg => Log.check monitor rightly monitor.init cfg.log) =
      some true := by decide +kernel
  obtain ⟨cfg, hcfg, hright⟩ := Config.run_obeys (upgradeRun 0) hrun
  exact ⟨cfg, hcfg, (outcome_reported_iff (.of_run _ .start hcfg)).mpr hright⟩

/-- An upgrade that fails is reported as a connect. -/
theorem outcome_not_reported :
    ¬ ∀ (fuel : ℕ) (memory : ConnectionEnd) (cfg : Config CESig ConnectionEnd),
      Reachable (discipline monitor fun _ _ _ _ => true) (code fuel) (new memory) cfg →
        cfg.log.Obeys monitor fun g s x => reported g s x = true := by
  intro hall
  have hbad : ((Config.start (new zeroMemory)).run (discipline monitor fun _ _ _ _ => true)
      (code 0) (upgradeRun (-1))).map (fun cfg => Log.check monitor reported monitor.init cfg.log) =
      some false := by decide +kernel
  obtain ⟨cfg, hreach, hnot⟩ := Reachable.not_obeys (upgradeRun (-1)) hbad
  exact hnot (hall 0 zeroMemory cfg hreach)

end HandshakeOutcome

end NewtonTLS
