/-
# The get that is outstanding

A get that `GetBytesStart` or `GetBytesImmediateStart` has accepted is outstanding until
`DoSSLRead` completes it.  A wake-up serves it only as long as the connection is
established and does not close.  `mEstablished` is cleared in four places; the two that do
not look at the reading side, `PutBytesStart` and `DoSSLHandshake`, leave the get behind.
-/
import NewtonTLS.ConnectionEndStreams

open Reentrant

namespace NewtonTLS

namespace OutstandingGet

/-! ## What is observed -/

/-- The event completes the get that is outstanding. -/
def completes : Label CESig → Bool
  | .calls e (.client (.getComplete (.code _) true _)) => !e.isTraffic
  | _ => false

/-- The event is the first read for a get that has been accepted. -/
def accepts : Label CESig → Bool
  | .calls e (.mbedtlsSslRead _) => e.gets?.isSome
  | _ => false

/-- Whether a get is outstanding. -/
abbrev monitor : Monitor CESig where
  Obs := Bool
  init := false
  next := fun g x => if completes x then false else accepts x || g

/-- A wake-up serves what is outstanding. -/
def Served (g : Bool) (s : ConnectionEnd) : Prop :=
  g = true → s.mEstablished = true ∧ s.mClosing = false

/-- While SSL is established nothing is terminated or closed. -/
def staysOpen (s : ConnectionEnd) : Label CESig → Bool
  | .enter .terminateStart => !(s.mSSLConfigured && s.mEstablished)
  | .enter .closeStart => !(s.mSSLConfigured && s.mEstablished)
  | _ => true

/-- A request for a get that would be accepted. -/
def wouldAccept (s : ConnectionEnd) (e : Entry) : Bool :=
  e.gets?.isSome && s.mSSLConfigured && s.mEstablished && s.mSSLReadBuffer.isNone

/-- No get is accepted while the connection closes, and while one is outstanding no write
fails, no handshake fails for good and no configuration begins. -/
def sparesGets (g : Bool) (s : ConnectionEnd) : Label CESig → Bool
  | .enter e => !(wouldAccept s e && s.mClosing)
  | .resumes (.mbedtlsSslWrite _) r => !g || decide (0 ≤ r)
  | .resumes .mbedtlsSslHandshake r => !g || decide (r = 0) || wantsMore r
  | .asked .sslConfigured _ => !g
  | _ => true

/-- The condition of the runs. -/
def spares : List Call → Bool → ConnectionEnd → Label CESig → Bool :=
  fun _ g s x => staysOpen s x && sparesGets g s x

/-! ## The contract -/

/-- Only calls are observed. -/
theorem next_eq (g : Bool) {x : Label CESig} (hx : ∀ e c, x ≠ .calls e c) :
    monitor.next g x = g := by
  cases x with
  | calls e c => exact absurd rfl (hx e c)
  | _ => rfl

/-- Other calls complete a get or change nothing. -/
theorem next_call {e : Entry} {c : Call} (hc : ∀ n, c ≠ .mbedtlsSslRead n) (g : Bool) :
    monitor.next g (.calls e c) = false ∨ monitor.next g (.calls e c) = g := by
  have haccept : accepts (.calls e c) = false := by
    cases c with
    | mbedtlsSslRead n => exact absurd rfl (hc n)
    | _ => rfl
  simp only [haccept, Bool.false_or]
  split
  · exact .inl rfl
  · exact .inr rfl

/-- Without a get nothing is claimed. -/
theorem Served.none (s : ConnectionEnd) : Served false s := fun h => by cases h

/-- What is served stays served through calls that read nothing. -/
theorem Served.call {g : Bool} {s : ConnectionEnd} (h : Served g s) {e : Entry} {c : Call}
    (hc : ∀ n, c ≠ .mbedtlsSslRead n) : Served (monitor.next g (.calls e c)) s := by
  rcases next_call (e := e) hc g with hnext | hnext
  · rw [hnext]
    exact .none s
  · rw [hnext]
    exact h

/-- The invariant looks at two flags. -/
theorem Served.same {g : Bool} {s s' : ConnectionEnd} (h : Served g s)
    (hest : s'.mEstablished = s.mEstablished) (hclosing : s'.mClosing = s.mClosing) :
    Served g s' := by
  intro hg
  rw [hest, hclosing]
  exact h hg

/-- What the inner end completes is no get of SSL. -/
theorem traffic_completes {e : Entry} (he : e.isTraffic = true) (c : Call) :
    completes (.calls e c) = false := by
  unfold completes
  split
  · next heq =>
    cases heq
    rw [he, Bool.not_true]
  · rfl

/-- The contract. -/
def core : CoreContract monitor where
  Inv := Served
  Every := fun _ _ _ => True
  inv_core := fun _ _ _ h hcore => h.same hcore.mEstablished hcore.mClosing
  quiet := by
    intro g s x _ hx
    refine ⟨trivial, ?_⟩
    cases x with
    | calls e c =>
      obtain ⟨he, hc⟩ := hx
      have haccept : accepts (.calls e c) = false := by
        rcases Call.isTraffic_cases hc with ⟨_, rfl⟩ | ⟨_, _, rfl⟩ | ⟨_, _, rfl, _⟩ |
          ⟨_, _, _, rfl, _⟩ | ⟨_, rfl⟩ <;> rfl
      simp [traffic_completes he, haccept]
    | _ => rfl

theorem quietQuery (q : Query) : Quiet core.toContract q := fun _ _ _ => ⟨trivial, rfl⟩

theorem callRules : CallRules core.toContract spares Served where
  at_iff := fun _ _ _ _ => Iff.rfl
  rely_out := fun _ _ _ _ _ _ hout _ => core.rely_out hout
  rely_tls := fun _ _ _ _ _ _ hc h => (core.rely_tls hc h).2
  timer := fun _ _ _ _ _ h => h.same rfl rfl
  clock := quietQuery _
  calls := by
    intro e stk g s c _ htls h _
    refine ⟨trivial, h.call ?_⟩
    rintro n rfl
    cases htls
  resumes := fun _ _ _ _ _ _ _ h _ _ => ⟨trivial, h⟩

/-! ## Reading -/

section reading

variable {e : Entry} {stk : List Call} {g : Bool} {s : ConnectionEnd}
  {Q : Post monitor ConnectionEnd Unit}

/-- Telling the client that the get is complete, in any state. -/
theorem sat_complete (hout : OutsideTLS e stk) (r : Int) (n : ℕ)
    (hQ : ∀ g' s', Served g' s' → Q g' (some ()) s') :
    (client (.getComplete (.code r) true n)).Sat core.toContract (discipline monitor spares) e stk
      Q g s := by
  have hdone : monitor.next g (.calls e (.client (.getComplete (.code r) true n))) = false := by
    simp [completes, hout.notTraffic]
  refine callRules.sat_tell hout ⟨trivial, ?_⟩ hQ
  rw [hdone]
  exact .none s

/-- The bytes read go to the client. -/
theorem sat_putn (clientBuffer : ListRef) (buf : Block)
    (hQ : Q g (some ()) s.withoutReadBuffer) :
    (putnReadBuffer clientBuffer buf).Sat core.toContract (discipline monitor spares) e stk Q g s :=
  sat_putnReadBuffer (fun q _ => quietQuery q) fun _ _ => (quietQuery _).sat_ask fun _ => hQ

/-- A failure clears `mEstablished` and completes the get. -/
theorem sat_readFails (hout : OutsideTLS e stk) (h : Served g s) (clientBuffer : ListRef) (r : Int)
    (hQ : ∀ g' s', Served g' s' → Q g' (some ()) s') :
    (readFails clientBuffer r).Sat core.toContract (discipline monitor spares) e stk Q g s := by
  refine callRules.sat_readFails hout Served h (fun h => ⟨trivial, h.call (by rintro n ⟨⟩)⟩)
    (fun _ _ _ h' _ _ _ => ⟨trivial, h'⟩) fun err g s _ => ?_
  have hreset : ∀ s' : ConnectionEnd, mbedtlsSslSessionReset.Sat core.toContract
      (discipline monitor spares) e stk (Post.andThen core.toContract (discipline monitor spares) e
        stk Q fun _ => client (.getComplete (.code err) true s.mSSLReadCount)) g s' :=
    fun s' => sat_mbedtlsSslSessionReset (quietQuery _) (fun _ => trivial)
      fun _ _ _ _ => sat_complete hout _ _ hQ
  simp only [failRead, Code.sat_bind, Code.sat_get, Code.sat_modify, Post.andThen_some,
    Code.sat_ite]
  refine ⟨fun _ => sat_deref _ fun buf _ => ?_, fun _ => hreset _⟩
  simp only [Post.andThen_some, Code.sat_bind]
  refine sat_putn _ _ ?_
  simp only [Post.andThen_some, Code.sat_bind]
  exact hreset _

/-- `DoSSLRead` for a get that is accepted now or outstanding already. -/
theorem sat_doSSLRead (hout : OutsideTLS e stk) (fuel : ℕ) (clientBuffer : ListRef)
    (threshold : Int) (hest : s.mEstablished = true) (hclosing : s.mClosing = false)
    (hQ : ∀ g' s', Served g' s' → Q g' (some ()) s') :
    (doSSLRead fuel clientBuffer threshold).Sat core.toContract (discipline monitor spares) e stk
      Q g s := by
  refine callRules.sat_doSSLRead hout (fun _ s => s.mEstablished = true ∧ s.mClosing = false)
    (fun _ _ h => ⟨trivial, fun _ => h⟩) ?_ fuel ⟨hest, hclosing⟩
  intro g s g' s' r hactive h' _ hcore _
  refine ⟨trivial, ?_⟩
  rcases r with err | bs
  · exact ⟨fun _ => hQ _ _ h', fun _ => sat_readFails hout h' _ _ hQ⟩
  · intro buf _
    refine ⟨fun _ => ?_, fun _ => ?_⟩
    · simp only [completeRead, Code.sat_bind]
      refine sat_putn _ _ ?_
      simp only [Post.andThen_some, Code.sat_bind]
      exact sat_complete hout _ _ fun g₁ s₁ h₁ => hQ _ _ (h₁.same rfl rfl)
    · exact ⟨hcore.mEstablished.trans hactive.1, hcore.mClosing.trans hactive.2⟩

/-- `GetBytesStart` and `GetBytesImmediateStart` accept a get only while it will be served. -/
theorem sat_getFromSSL (hout : OutsideTLS e stk) (fuel clientBuffer : ℕ) (threshold : Int)
    (hgets : e.gets? = some clientBuffer) (hok : spares stk g s (.enter e) = true)
    (h : Served g s) (hconf : s.mSSLConfigured = true)
    (hQ : ∀ g' s', Served g' s' → Q g' (some ()) s') :
    (getFromSSL fuel clientBuffer threshold).Sat core.toContract (discipline monitor spares) e stk
      Q g s := by
  have hrefuse : ∀ r, (client (.getComplete r false 0)).Sat core.toContract
      (discipline monitor spares) e stk Q g s := fun r =>
    callRules.sat_client hout h (by exact ⟨rfl, rfl⟩) hQ
  simp only [getFromSSL, Code.sat_bind, Code.sat_get, Post.andThen_some, Code.sat_ite]
  refine ⟨fun hest => ?_, fun _ => hrefuse _⟩
  cases hbuf : s.mSSLReadBuffer with
  | some _ => exact hrefuse _
  | none =>
    have hclosing : s.mClosing = false := by
      -- the discipline: while closing the end is asked for no bytes
      simp only [spares, sparesGets, wouldAccept, hgets, hconf, hest, hbuf, Bool.and_eq_true] at hok
      simpa using hok.2
    simp only [Code.sat_bind]
    refine (quietQuery _).sat_ask fun totalSize => ?_
    simp only [Post.andThen_some, Code.sat_bind]
    refine (quietQuery _).sat_ask fun pos => ?_
    simp only [Post.andThen_some, Code.sat_bind, Code.sat_modify]
    refine sat_newPtr (fun q _ => quietQuery q) _ ?_
    simp only [Post.andThen_some, Code.sat_bind, Code.sat_modify]
    exact sat_doSSLRead hout fuel _ _ hest hclosing hQ

/-- A read that is tried again keeps the get, or completes it. -/
theorem sat_retryRead (hout : OutsideTLS e stk) (fuel : ℕ) (hest : s.mEstablished = true)
    (hclosing : s.mClosing = false) (hQ : ∀ g' s', Served g' s' → Q g' (some ()) s') :
    (retryRead fuel).Sat core.toContract (discipline monitor spares) e stk Q g s := by
  have hread : ∀ threshold, Code.Sat core.toContract (discipline monitor spares) e stk Q (do
      let clientBuffer ← ask .getCurGetData
      doSSLRead fuel clientBuffer threshold) g s := by
    intro threshold
    simp only [Code.sat_bind]
    exact (quietQuery _).sat_ask fun _ => sat_doSSLRead hout fuel _ _ hest hclosing hQ
  simp only [retryRead, Code.sat_bind]
  refine (quietQuery _).sat_ask fun nonBlocking => ?_
  simp only [Post.andThen_some, Code.sat_bind, Code.sat_ite]
  exact ⟨fun _ => (quietQuery _).sat_ask fun threshold => hread threshold, fun _ => hread 0⟩

end reading

/-! ## Writing, terminating and shaking hands -/

section requests

variable {e : Entry} {stk : List Call} {g : Bool} {s : ConnectionEnd}
  {Q : Post monitor ConnectionEnd Unit}

/-- A write that fails clears `mEstablished`, and nothing is outstanding then. -/
theorem sat_putToSSL (hout : OutsideTLS e stk) (clientBuffer : ℕ) (h : Served g s)
    (hQ : ∀ g' s', Served g' s' → Q g' (some ()) s') :
    (putToSSL clientBuffer).Sat core.toContract (discipline monitor spares) e stk Q g s := by
  have htell : ∀ r n g' s', Served g' s' → (client (.putComplete r n)).Sat core.toContract
      (discipline monitor spares) e stk Q g' s' := fun r n g' s' h' =>
    callRules.sat_client hout h' (by trivial) hQ
  simp only [putToSSL, Code.sat_bind]
  refine (quietQuery _).sat_ask fun totalSize => ?_
  simp only [Post.andThen_some, Code.sat_bind]
  refine (quietQuery _).sat_ask fun pos => ?_
  simp only [Post.andThen_some, Code.sat_bind]
  refine (quietQuery _).sat_ask fun buf => ?_
  simp only [Post.andThen_some, Code.sat_bind]
  refine callRules.sat_tls hout rfl ⟨trivial, h.call (by rintro n ⟨⟩)⟩
    fun r g' s' h' _ _ hok => ⟨trivial, ?_⟩
  simp only [Post.andThen_some, Code.sat_ite, Code.sat_bind, Code.sat_modify]
  refine ⟨fun _ => ⟨fun _ => ?_, fun _ => htell _ _ _ _ h'⟩, fun hfailed => ?_⟩
  · exact (quietQuery _).sat_ask fun _ => htell _ _ _ _ h'
  · have hnone : g' = false := by simpa [spares, sparesGets, staysOpen, hfailed] using hok
    refine sat_mbedtlsSslSessionReset (quietQuery _) (fun _ => trivial) fun a i f b => ?_
    refine htell _ _ _ _ fun hg => ?_
    rw [show g' = true from hg] at hnone
    cases hnone

/-- A termination comes when no session is established. -/
theorem sat_terminateStart (hout : OutsideTLS e stk)
    (hok : spares stk g s (.enter .terminateStart) = true) (h : Served g s)
    (hQ : ∀ g' s', Served g' s' → Q g' (some ()) s') :
    terminateStart.Sat core.toContract (discipline monitor spares) e stk Q g s := by
  simp only [terminateStart, Code.sat_bind, Code.sat_get, Post.andThen_some, Code.sat_ite]
  refine ⟨fun hlive => ?_, fun _ => ?_⟩
  -- a disconnect would close over the get that is outstanding
  · simp [spares, staysOpen, hlive.1, hlive.2] at hok
  · exact callRules.sat_inner hout h (fun _ hl => by cases hl) rfl hQ

end requests

theorem entryRules : EntryRules core.toContract spares Served fun _ _ g' s' => Served g' s' where
  basic := callRules
  enter := fun _ _ _ _ _ _ h => ⟨trivial, fun _ => h⟩
  leave := fun _ _ _ _ _ h => ⟨trivial, h⟩
  opened := fun _ _ _ _ h => h.same rfl rfl
  connects := fun _ _ _ _ h _ => h
  connected := fun _ r _ _ _ h _ => ConnectionEnd.of_connected r h (h.same rfl rfl)
  enabled := fun _ _ _ _ _ h => h.same rfl rfl
  closed := fun _ _ _ _ h _ => ⟨trivial, h, fun _ =>
    sat_sslUnconfigure (fun q _ => quietQuery q) (h.same rfl rfl)⟩
  delete := fun _ _ _ hout _ h => callRules.sat_delete ⟨rfl, hout⟩ (quietQuery _)
    (fun _ => quietQuery _) (fun _ _ _ h => h.same rfl rfl) h
    fun _ => sat_sslUnconfigure (fun q _ => quietQuery q) ⟨rfl, h.same rfl rfl⟩
  configure := by
    intro e stk fuel g s hout hbegins
    have h : Served g s := hbegins.elim (fun _ _ _ h _ => h) fun _ _ _ h _ => h.same rfl rfl
    refine sat_configure_of_quiet (fun q _ => quietQuery q) (fun _ _ _ h => h.same rfl rfl) ?_
      fuel hout h
    intro stk g s v _ _ hok
    have hnone : g = false := by simpa [spares, sparesGets, staysOpen] using hok
    rw [hnone]
    exact ⟨trivial, .none _⟩
  configured := fun _ _ _ _ h => h
  setter := fun _ _ fuel o _ _ _ ho _ h =>
    sat_setter_of_quiet (fun q _ => quietQuery q) (quietQuery _)
      (fun _ _ _ h => h.same rfl rfl) fuel o ho h
  getSSL := fun _ _ fuel b threshold _ _ hout hgets hok h hconf =>
    sat_getFromSSL hout fuel b threshold hgets hok h hconf fun _ _ h' => h'
  reread := fun _ fuel _ _ hout _ hclosing hest _ =>
    sat_retryRead ⟨rfl, hout⟩ fuel hest hclosing fun _ _ h' => h'
  put := fun _ b _ _ hout h _ _ _ => sat_putToSSL ⟨rfl, hout⟩ b h fun _ _ h' => h'
  terminate := fun _ _ _ hout hok h => sat_terminateStart ⟨rfl, hout⟩ hok h fun _ _ h' => h'
  begins := fun _ _ _ _ _ _ => trivial
  upgrades := fun _ _ _ => trivial
  handshake := by
    intro e stk g s _ hcause
    have h : Served g s := hcause.inv (fun _ _ _ _ _ _ h => h) (fun _ _ _ _ h => h)
      fun _ _ _ h => h
    exact ⟨trivial, h.call (by rintro n ⟨⟩)⟩
  outcome := by
    intro e stk g s g' s' r hout _ h _ hok
    refine ⟨trivial, ?_, ?_, fun _ => h⟩
    · intro _
      refine ⟨trivial, Served.call ?_ (by rintro n ⟨⟩)⟩
      exact fun hg => ⟨rfl, (h hg).2⟩
    · intro hr hmore a i f b
      have hnone : g' = false := by simpa [spares, sparesGets, staysOpen, hr, hmore] using hok
      refine ⟨trivial, trivial, Served.call ?_ (by rintro n ⟨⟩)⟩
      subst hnone
      exact .none _

/-- Every function meets the contract. -/
theorem meets (fuel : ℕ) : core.toContract.Meets (discipline monitor spares) (code fuel) :=
  core.meets_entries entryRules fuel

/-! ## What is outstanding is served -/

/-- **A get that is outstanding will be served**: whenever control passes the connection is
established and does not close, in every run in which nothing fails beside an outstanding get. -/
theorem outstanding_served {fuel : ℕ} {memory : ConnectionEnd} {cfg : Config CESig ConnectionEnd}
    (h : Reachable (discipline monitor spares) (code fuel) (new memory) cfg) :
    cfg.log.Obeys monitor (monitor.AtPassage Served) :=
  Contract.log_passes (meets fuel) (fun _ _ _ h => h) (.none _) h

/-- A get waits for data, and a put is written in the meantime. -/
def writtenRun : List (Move CESig) :=
  connectRun ++ [enter (.getBytesStart 1), backWith MBEDTLS_ERR_SSL_WANT_READ,
    enter (.putBytesStart 2), back, back]

/-- The get is outstanding at the end, and a wake-up would serve it. -/
theorem outstanding_served_writtenRun :
    ∃ cfg, (Config.start (new zeroMemory)).run (discipline monitor spares) (code 1) writtenRun =
        some cfg ∧
      monitor.run cfg.log = true ∧ cfg.log.Obeys monitor (monitor.AtPassage Served) := by
  have hrun : ((Config.start (new zeroMemory)).run (discipline monitor spares) (code 1)
      writtenRun).map (fun cfg => monitor.run cfg.log) = some true := by decide +kernel
  obtain ⟨cfg, hcfg, hseen⟩ := Option.map_eq_some_iff.mp hrun
  exact ⟨cfg, hcfg, hseen, outstanding_served (.of_run _ .start hcfg)⟩

/-- The get waits for data when a write fails. -/
def failedWriteRun : List (Move CESig) :=
  connectRun ++ [enter (.getBytesStart 1), backWith MBEDTLS_ERR_SSL_WANT_READ,
    enter (.putBytesStart 2), backWith (-1)]

/-- Whether what is outstanding is served. -/
def served (g : Bool) (s : ConnectionEnd) : Bool := !g || (s.mEstablished && !s.mClosing)

/-- The failed write leaves the get behind, which no wake-up serves any more. -/
theorem outstanding_not_served :
    ¬ ∀ (fuel : ℕ) (memory : ConnectionEnd) (cfg : Config CESig ConnectionEnd),
      Reachable (discipline monitor fun _ _ s x => staysOpen s x) (code fuel) (new memory) cfg →
        cfg.log.Obeys monitor (monitor.AtPassage Served) := by
  intro hall
  have hbad : ((Config.start (new zeroMemory)).run (discipline monitor fun _ _ s x =>
      staysOpen s x) (code 1) failedWriteRun).map (fun cfg =>
        Log.check monitor (monitor.passes served) monitor.init cfg.log) = some false := by
    decide +kernel
  obtain ⟨cfg, hreach, hnot⟩ := Reachable.not_obeys failedWriteRun hbad
  refine hnot fun before x after hl => ?_
  refine monitor.passes_of_atPassage ?_ (hall 1 zeroMemory cfg hreach before x after hl)
  intro g s hserved
  cases g with
  | false => rfl
  | true => simp [served, (hserved rfl).1, (hserved rfl).2]

end OutstandingGet

end NewtonTLS
