/-
# Sequences of options

What `SSLConfigure` uses after a sequence of options.  The verify mode is that of the last option
(`foldl_last`), but the hostname is that of the first one (`foldl_first`), for the others are
dropped while there is one, and the roots are not loaded once a verify mode was NONE or there was a
certificate authority, whatever came after (`foldl_clear`).  Options of different kinds commute
(`foldl_set_swap`).
-/
import NewtonTLS.LoadingRules
import NewtonTLS.ConnectionEndRuns

open Reentrant

namespace NewtonTLS

namespace OptionSequences

open LoadingRules

/-! ## Cells -/

section cells

variable {α β : Type}

/-- A cell that every write replaces holds the last one. -/
theorem foldl_last (write : α → Option β) (os : List α) :
    ∀ c : β, os.foldl (fun c o => (write o).getD c) c =
      (os.filterMap write).getLast?.getD c := by
  induction os with
  | nil => intro c; rfl
  | cons o os ih =>
    intro c
    rw [List.foldl_cons, ih]
    cases hwrite : write o with
    | none => rw [List.filterMap_cons_none hwrite, Option.getD_none]
    | some b =>
      rw [List.filterMap_cons_some hwrite, List.getLast?_cons, Option.getD_some,
        Option.getD_some]

/-- A cell that is written only when it is empty holds the first one. -/
theorem foldl_first (write : α → Option β) (os : List α) :
    ∀ c : Option β, os.foldl (fun c o => c.or (write o)) c = c.or (os.filterMap write).head? := by
  induction os with
  | nil =>
    intro c
    exact Option.or_none.symm
  | cons o os ih =>
    intro c
    rw [List.foldl_cons, ih, Option.or_assoc]
    cases hwrite : write o with
    | none => rw [List.filterMap_cons_none hwrite, Option.none_or]
    | some b => rw [List.filterMap_cons_some hwrite, Option.some_or, List.head?_cons]

/-- A flag that is only cleared is set when it was set and nothing has cleared it. -/
theorem foldl_clear (clears : α → Bool) (os : List α) :
    ∀ b : Bool, os.foldl (fun b o => b && !clears o) b = (b && !os.any clears) := by
  induction os with
  | nil =>
    intro b
    exact (Bool.and_true b).symm
  | cons o os ih =>
    intro b
    rw [List.foldl_cons, ih, List.any_cons, Bool.not_or, Bool.and_assoc]

end cells

/-! ## Options that set -/

/-- The options that set something for a later connect. -/
inductive Setter : Type where
  | hostname (hostname : List Byte)
  | verifyMode (verifyMode : UInt32)
  | certificateAuthority (o : TCMOSSLCertificate)
  deriving DecidableEq

/-- The option that a setter is sent as. -/
def Setter.option : Setter → TOption
  | .hostname name => .sslHostname name
  | .verifyMode mode => .sslVerifyMode mode
  | .certificateAuthority o => .sslCertificateAuthority o

/-- The hostname of an option, with its terminator. -/
def Setter.hostname? : Setter → Option (List Byte)
  | .hostname name => some (cString name ++ [0])
  | _ => none

/-- The mode, if it is one. -/
def Setter.verifyMode? : Setter → Option UInt32
  | .verifyMode mode => some mode
  | _ => none

/-- A certificate is supplied. -/
def Setter.isAuthority : Setter → Bool
  | .certificateAuthority _ => true
  | _ => false

/-- After this option the roots are not loaded. -/
def Setter.clears : Setter → Bool
  | .hostname _ => false
  | .verifyMode mode => decide (mode = MBEDTLS_SSL_VERIFY_NONE)
  | .certificateAuthority _ => true

/-- What a connect uses. -/
structure Uses : Type where
  hostname : Option (List Byte)
  verifyMode : UInt32
  loadsRoots : Bool
  deriving DecidableEq

/-- What is in place for a connect. -/
def inPlace (s : ConnectionEnd) : Uses where
  hostname := s.mSSLHostname.map Block.bytes
  verifyMode := s.mSSLAuthMode
  loadsRoots := s.mSSLLoadRootCertificates

/-- What an option does to it. -/
def Uses.set (u : Uses) (o : Setter) : Uses where
  hostname := u.hostname.or o.hostname?
  verifyMode := o.verifyMode?.getD u.verifyMode
  loadsRoots := u.loadsRoots && !o.clears

/-- After all options the first hostname is in place, the last verify mode, and no roots if one of
them clears the flag. -/
theorem foldl_set (os : List Setter) (u : Uses) :
    os.foldl Uses.set u =
      ⟨u.hostname.or (os.filterMap Setter.hostname?).head?,
        (os.filterMap Setter.verifyMode?).getLast?.getD u.verifyMode,
        u.loadsRoots && !os.any Setter.clears⟩ := by
  rw [← foldl_first, ← foldl_last, ← foldl_clear]
  induction os generalizing u with
  | nil => rfl
  | cons o os ih => exact ih (u.set o)

/-- Options of different kinds. -/
def Setter.differs : Setter → Setter → Bool
  | .hostname _, .hostname _ => false
  | .verifyMode _, .verifyMode _ => false
  | .certificateAuthority _, .certificateAuthority _ => false
  | _, _ => true

/-- Only one of them sets the hostname, and only one the verify mode. -/
theorem Setter.cells_of_differs {o o' : Setter} (h : o.differs o' = true) :
    (o.hostname? = none ∨ o'.hostname? = none) ∧
      (o.verifyMode? = none ∨ o'.verifyMode? = none) := by
  cases o <;> cases o' <;>
    simp [Setter.hostname?, Setter.verifyMode?, Setter.differs] at h ⊢

/-- Options of different kinds commute. -/
theorem Uses.set_comm (u : Uses) {o o' : Setter} (h : o.differs o' = true) :
    (u.set o).set o' = (u.set o').set o := by
  obtain ⟨hname, hmode⟩ := Setter.cells_of_differs h
  simp only [Uses.set, Uses.mk.injEq]
  refine ⟨?_, ?_, Bool.and_right_comm _ _ _⟩
  · rcases hname with hname | hname <;> rw [hname, Option.or_none, Option.or_none]
  · rcases hmode with hmode | hmode <;> rw [hmode, Option.getD_none, Option.getD_none]

/-- Two options that set different things may be exchanged. -/
theorem foldl_set_swap (u : Uses) (os os' : List Setter) {o o' : Setter}
    (h : o.differs o' = true) :
    (os ++ o :: o' :: os').foldl Uses.set u = (os ++ o' :: o :: os').foldl Uses.set u := by
  rw [List.foldl_append, List.foldl_append, List.foldl_cons, List.foldl_cons, List.foldl_cons,
    List.foldl_cons, Uses.set_comm _ h]

/-! ## What is used -/

/-- What `SSLConfigure` has passed on: the hostnames and verify modes, whether it has asked for the
listing of the roots, and whether it has come to its end. -/
structure Noted : Type where
  hostnames : List (List Byte)
  verifyModes : List UInt32
  listed : Bool
  configured : Bool
  deriving DecidableEq

/-- What the calls of mbed TLS note. -/
def note (g : Noted) : Happening CESig → Noted
  | .asked (.mbedtlsSslSetHostname hostname) _ => { g with hostnames := g.hostnames ++ [hostname] }
  | .asked (.mbedtlsSslConfAuthmode mode) _ => { g with verifyModes := g.verifyModes ++ [mode] }
  | .asked (.listRootCertificates _) _ => { g with listed := true }
  | .asked .sslConfigured _ => { g with configured := true }
  | _ => g

/-- Nothing has been noted. -/
def Noted.nothing : Noted := ⟨[], [], false, false⟩

/-- What is noted when this is used. -/
def Uses.noted (u : Uses) : Noted := ⟨u.hostname.toList, [u.verifyMode], u.loadsRoots, true⟩

section run

variable {E : Environment CESig ConnectionEnd} {fuel : ℕ} {g : Noted} {s : ConnectionEnd}

/-! ### The options -/

/-- An option that succeeds does what it does to what is in place, and nothing is noted. -/
abbrev Sets (o : Setter) (s : ConnectionEnd) (g : Noted) :
    Noted → Ending CESig ConnectionEnd (OptionResult × TOption) → Prop :=
  WhenDone fun g' s' p => p.1 = .opSuccess →
    g' = g ∧ inPlace s' = (inPlace s).set o ∧ s'.mSSLEnabled = s.mSSLEnabled

/-- The hostname option sets one cell. -/
theorem leads_hostname (hostname : List Byte) :
    (processOptionStart fuel (Setter.hostname hostname).option).Leads E note
      (Sets (.hostname hostname) s g) g s := by
  refine Code.leads_bind (Code.leads_get_bind ?_)
  cases hbefore : s.mSSLHostname with
  | some b =>
    refine Code.leads_pure (Code.leads_pure_done fun _ => ⟨rfl, ?_, rfl⟩)
    simp only [inPlace, Uses.set, hbefore, Setter.hostname?, Setter.verifyMode?, Setter.clears,
      Option.map_some, Option.some_or, Option.getD_none, Bool.not_false, Bool.and_true]
  | none =>
    refine Code.leads_bind (leads_newPtr fun n => Code.leads_modify_bind (Code.leads_pure ?_))
    refine Code.leads_pure_done fun _ => ⟨rfl, ?_, rfl⟩
    simp only [inPlace, Uses.set, hbefore, Setter.hostname?, Setter.verifyMode?, Setter.clears,
      Option.map_some, Option.map_none, Option.none_or, Option.getD_none, Bool.not_false,
      Bool.and_true]

theorem leads_verifyMode (mode : UInt32) :
    (processOptionStart fuel (Setter.verifyMode mode).option).Leads E note
      (Sets (.verifyMode mode) s g) g s := by
  refine Code.leads_bind (Code.leads_modify_bind ?_)
  split
  · rename_i hnone
    refine Code.leads_modify_bind (Code.leads_pure ?_)
    refine Code.leads_pure_done fun _ => ⟨rfl, ?_, rfl⟩
    simp only [inPlace, Uses.set, hnone, Setter.hostname?, Setter.verifyMode?, Setter.clears,
      Option.or_none, Option.getD_some, decide_true, Bool.not_true, Bool.and_false]
  · rename_i hnone
    refine Code.leads_pure (Code.leads_pure_done fun _ => ⟨rfl, ?_, rfl⟩)
    simp only [inPlace, Uses.set, Setter.hostname?, Setter.verifyMode?, Setter.clears, hnone,
      Option.or_none, Option.getD_some, decide_false, Bool.not_false, Bool.and_true]

/-- Nothing is noted, and what is in place stays. -/
abbrev Stays {α : Type} (s : ConnectionEnd) (g : Noted) :
    Noted → Ending CESig ConnectionEnd α → Prop :=
  WhenDone fun g' t _ => g' = g ∧ inPlace t = inPlace s ∧ t.mSSLEnabled = s.mSSLEnabled

/-- Parsing changes only the chain and, while it runs, the heap. -/
theorem leads_parseAuthority_note (o : TCMOSSLCertificate) :
    (parseAuthority o).Leads E note (Stays s g) g s := by
  have hparse : (mbedtlsX509CrtParse (o.certificate.take o.length.toNat)).Leads E note
      (Stays s g) g { s with currentHeap := s.mRootCertificatesHeap } :=
    leads_crtParse (fun _ _ _ _ => whenDone_done ⟨rfl, rfl, rfl⟩) fun _ _ => whenDone_raise
  refine Code.leads_get_bind (Code.leads_modify_bind (hparse.onRaiseDone.bindDone ?_))
  intro g' s' result hr
  refine Code.leads_modify_bind ?_
  split
  · exact Code.leads_pure_done hr
  · exact Code.leads_pure_done hr

theorem leads_certificateAuthority (o : TCMOSSLCertificate) :
    (processOptionStart fuel (Setter.certificateAuthority o).option).Leads E note
      (Sets (.certificateAuthority o) s g) g s := by
  have hcleared : inPlace { s with mSSLLoadRootCertificates := false } =
      (inPlace s).set (.certificateAuthority o) := by
    simp only [inPlace, Uses.set, Setter.hostname?, Setter.verifyMode?, Setter.clears,
      Option.or_none, Option.getD_none, Bool.not_true, Bool.and_false]
  have hparse : ∀ s' : ConnectionEnd, inPlace s' =
      inPlace { s with mSSLLoadRootCertificates := false } → s'.mSSLEnabled = s.mSSLEnabled →
      (parseAuthority o).Leads E note (WhenDone fun g' t r => r = .opSuccess →
        g' = g ∧ inPlace t = (inPlace s).set (.certificateAuthority o) ∧
          t.mSSLEnabled = s.mSSLEnabled) g s' := by
    intro s' hplace henabled
    refine (leads_parseAuthority_note o).mono ?_
    rintro g' r hr t a hdone -
    obtain ⟨hg', hplace', henabled'⟩ := hr t a hdone
    exact ⟨hg', (hplace'.trans hplace).trans hcleared, henabled'.trans henabled⟩
  have hoption : (sslCertificateAuthorityOption o).Leads E note (WhenDone fun g' t r =>
      r = .opSuccess → g' = g ∧ inPlace t = (inPlace s).set (.certificateAuthority o) ∧
        t.mSSLEnabled = s.mSSLEnabled) g s := by
    refine Code.leads_modify_bind (Code.leads_get_bind ?_)
    split
    · refine Code.leads_bind (leads_newVMHeap ?_ ?_)
      · exact fun n heap _ => hparse _ rfl rfl
      · -- without a heap the option fails, and nothing is claimed of it
        intro n r hr _
        show (if r ≠ 0 then _ else _ : CE OptionResult).Leads E note _ _ _
        rw [if_pos hr]
        refine Code.leads_pure_done ?_
        rintro ⟨⟩
    · exact Code.leads_bind (Code.leads_pure (hparse _ rfl rfl))
  exact hoption.bindDone fun _ _ _ hr => Code.leads_pure_done hr

/-- Every option sets its own cell. -/
theorem leads_setter (o : Setter) :
    (processOptionStart fuel o.option).Leads E note (Sets o s g) g s := by
  cases o with
  | hostname hostname => exact leads_hostname hostname
  | verifyMode mode => exact leads_verifyMode mode
  | certificateAuthority o => exact leads_certificateAuthority o

end run

/-! ### The connect -/

/-- The results of a sequence of options. -/
def runSetters (fuel : ℕ) : List Setter → CE (List OptionResult)
  | [] => pure []
  | o :: os => do
    let p ← processOptionStart fuel o.option
    let rs ← runSetters fuel os
    pure (p.1 :: rs)

/-- A sequence of options and a connect. -/
def setAndConnect (fuel : ℕ) (os : List Setter) : CE (List OptionResult) := do
  let rs ← runSetters fuel os
  connectStart fuel
  pure rs

/-- All options have succeeded. -/
def Succeeded (rs : List OptionResult) : Prop := ∀ x ∈ rs, x = .opSuccess

instance (rs : List OptionResult) : Decidable (Succeeded rs) :=
  inferInstanceAs (Decidable (∀ x ∈ rs, x = OptionResult.opSuccess))

section connect

variable {E : Environment CESig ConnectionEnd} {fuel : ℕ} {g : Noted} {s : ConnectionEnd}

/-- Options that succeed do one after the other what they do to what is in place. -/
theorem leads_runSetters (os : List Setter) :
    ∀ {g s}, (runSetters fuel os).Leads E note (WhenDone fun g' s' rs =>
      Succeeded rs → g' = g ∧ inPlace s' = os.foldl Uses.set (inPlace s) ∧
        s'.mSSLEnabled = s.mSSLEnabled) g s := by
  induction os with
  | nil => exact Code.leads_pure_done fun _ => ⟨rfl, rfl, rfl⟩
  | cons o os ih =>
    intro g s
    refine (leads_setter (g := g) o).bindDone ?_
    intro g' s' p hp
    refine (ih (g := g') (s := s')).bindDone ?_
    intro g'' s'' rs hrs
    refine Code.leads_pure_done fun hok => ?_
    obtain ⟨hfirst, hothers⟩ := List.forall_mem_cons.mp hok
    obtain ⟨rfl, hplace, henabled⟩ := hp hfirst
    obtain ⟨rfl, hplace', henabled'⟩ := hrs hothers
    refine ⟨rfl, ?_, henabled'.trans henabled⟩
    rw [List.foldl_cons, ← hplace, hplace']

/-- The roots are asked for, and what else is in place stays. -/
abbrev Loads (s : ConnectionEnd) (g : Noted) :
    Noted → Ending CESig ConnectionEnd (Option Int) → Prop :=
  WhenDone fun g' s' _ => g' = { g with listed := true } ∧
    s'.mSSLHostname = s.mSSLHostname ∧ s'.mSSLAuthMode = s.mSSLAuthMode

/-- The loop over the names leaves the cells alone. -/
theorem rounds_note (g : Noted) (hostname : Option Block) (mode : UInt32) :
    Rounds E note (fun _ _ _ g' s' => g' = g ∧ s'.mSSLHostname = hostname ∧ s'.mSSLAuthMode = mode)
      (WhenDone fun g' s' _ => g' = g ∧ s'.mSSLHostname = hostname ∧ s'.mSSLAuthMode = mode) where
  finished := fun h => whenDone_done h
  tired := fun _ => whenDone_halt
  unterminated := fun _ _ _ => whenDone_halt
  skipped := fun _ h _ _ => h
  grown := fun _ _ _ h _ _ _ => h
  parsed := fun _ _ _ _ h _ _ _ _ => h
  raised := fun _ _ _ _ _ _ _ => whenDone_raise

/-- Loading the roots notes that they have been listed. -/
theorem leads_loadInHeap_note : (loadInHeap fuel).Leads E note (Loads s g) g s := by
  have hlisted : ∀ s' : ConnectionEnd, s'.mSSLHostname = s.mSSLHostname →
      s'.mSSLAuthMode = s.mSSLAuthMode → (loadListed fuel).Leads E note (Loads s g) g s' := by
    intro s' hname hmode
    refine leads_loadListed ?_ ?_ ?_
    · exact fun n _ => whenDone_done ⟨rfl, hname, hmode⟩
    · exact fun n m k j size _ _ _ => whenDone_done ⟨rfl, hname, hmode⟩
    · intro n m k j size _ _ _
      have hrounds := rounds_note (E := E) { g with listed := true } s.mSSLHostname s.mSSLAuthMode
      refine Code.Leads.mono (hrounds.leads_loadNames fuel ?_) ?_
      · exact ⟨rfl, hname, hmode⟩
      · exact fun g' r hr => released_whenDone hr fun _ _ _ _ h => h
  have hregion := hlisted { s with currentHeap := s.mRootCertificatesHeap } rfl rfl
  refine leads_loadInHeap (hregion.mono fun g' r hr => ?_)
  exact restored_whenDone hr (fun _ _ h => h) fun _ h => h

/-- The timer and the lists note nothing. -/
theorem leads_runTimerCalls_note (ts : TimerCalls) :
    ∀ {s}, (runTimerCalls ts).Leads E note
      (Returns fun g' s' _ => g' = g ∧ s'.mSSLHostname = s.mSSLHostname) g s := by
  induction ts with
  | nil => exact fun {s} => Code.leads_pure ⟨s, ⟨⟩, rfl, rfl, rfl⟩
  | cons t ts ih =>
    intro s
    have htimer : (sslSetTimerCallback t.1 t.2).Leads E note
        (Returns fun g' s' _ => g' = g ∧ s'.mSSLHostname = s.mSSLHostname) g s := by
      unfold sslSetTimerCallback
      split
      · exact Code.leads_modify ⟨_, ⟨⟩, rfl, rfl, rfl⟩
      · exact Code.leads_ask_bind fun n => Code.leads_modify ⟨_, ⟨⟩, rfl, rfl, rfl⟩
    refine htimer.andThen ?_
    rintro g' s' u ⟨rfl, hname⟩
    refine (ih (s := s')).mono ?_
    rintro g'' r ⟨s'', a, hr, hg'', hname'⟩
    exact ⟨s'', a, hr, hg'', hname'.trans hname⟩

/-- The hostname and the verify mode are passed on. -/
theorem leads_setUpSSL_note :
    setUpSSL.Leads E note (Returns fun g' _ _ =>
      g' = ⟨g.hostnames ++ (s.mSSLHostname.map Block.bytes).toList,
        g.verifyModes ++ [s.mSSLAuthMode], g.listed, true⟩) g s := by
  refine Code.leads_get_bind (Code.leads_ask_bind fun _ => Code.leads_ask_bind fun _ => ?_)
  refine Code.leads_ask_bind fun _ => Code.leads_ask_bind fun _ => ?_
  refine Code.leads_ask_bind fun _ => Code.leads_ask_bind fun _ => ?_
  refine Code.leads_ask_bind fun _ => (leads_runTimerCalls_note _).andThen ?_
  rintro g' s' u ⟨rfl, -⟩
  cases s.mSSLHostname with
  | none =>
    rw [Option.map_none, Option.toList_none, List.append_nil]
    exact fun n => ⟨_, _, rfl, rfl⟩
  | some b => exact fun n => ⟨_, _, rfl, rfl⟩

/-- When `SSLConfigure` comes to its end, what is in place has been used. -/
abbrev Noting {α : Type} (u : Uses) : Noted → Ending CESig ConnectionEnd α → Prop :=
  WhenDone fun g _ _ => g.configured = true → g = u.noted

/-- `SSLConfigure` uses what is in place. -/
theorem leads_sslConfigure_note :
    (sslConfigure fuel).Leads E note (Noting (inPlace s)) .nothing s := by
  have hask : ∀ n q g', q.seeds = true → g' = Noted.nothing →
      asked E note n q g' = Noted.nothing := by
    rintro n q g' hq rfl
    cases q <;> first | rfl | cases hq
  have hset : ∀ (loads : Bool) (s' : ConnectionEnd), inPlace s = ⟨s'.mSSLHostname.map Block.bytes,
      s'.mSSLAuthMode, loads⟩ →
      setUpSSL.Leads E note (Noting (inPlace s)) ⟨[], [], loads, false⟩ s' := by
    intro loads s' hplace
    refine leads_setUpSSL_note.mono ?_
    rintro g' r ⟨s'', a, rfl, rfl⟩
    refine whenDone_done fun _ => ?_
    rw [hplace]
    rfl
  refine leads_sslConfigure (I := fun g' => g' = .nothing) hask rfl ?_ ?_ ?_
  · rintro g' n custom r rfl - -
    refine whenDone_done ?_
    rintro ⟨⟩
  · rintro hload g' rfl
    -- the region keeps what the options have set, in whichever heap it runs
    have hregion : ∀ s' : ConnectionEnd, s'.mSSLHostname = s.mSSLHostname →
        s'.mSSLAuthMode = s.mSSLAuthMode →
        (loadInHeap fuel).Leads E note (configured E note (Noting (inPlace s))) .nothing s' := by
      intro s' hname hmode
      refine leads_loadInHeap_note.mono fun g' r hr => configured_whenDone hr ?_ ?_
      · rintro t r ⟨rfl, -, -⟩ ⟨⟩
      · rintro t ⟨rfl, hname', hmode'⟩
        refine hset true t ?_
        rw [hname', hname, hmode', hmode, inPlace, hload]
    refine leads_loadRootCertificates ?_ ?_ ?_
    · exact fun _ => hregion s rfl rfl
    · exact fun n heap _ _ => hregion _ rfl rfl
    · exact fun n _ _ => hregion s rfl rfl
  · rintro hload g' rfl
    refine hset false s ?_
    rw [inPlace, hload]

theorem leads_connectStart_note (henabled : s.mSSLEnabled = true) :
    (connectStart fuel).Leads E note (Noting (inPlace s)) .nothing s := by
  refine Code.leads_get_bind ?_
  rw [if_pos henabled]
  refine leads_sslConfigure_note.bindDone ?_
  intro g' s' r hr
  split
  · exact Code.leads_call_bind fun n => Code.leads_pure_done hr
  · exact Code.leads_call_bind fun n => Code.leads_pure_done hr

/-- A sequence of options that succeed, and a connect: what the options have put in place is
used. -/
theorem leads_setAndConnect (henabled : s.mSSLEnabled = true) (os : List Setter) :
    (setAndConnect fuel os).Leads E note (WhenDone fun g' _ rs => Succeeded rs →
      g'.configured = true → g' = (os.foldl Uses.set (inPlace s)).noted) .nothing s := by
  refine (leads_runSetters os).bindDone ?_
  intro g₁ s₁ rs hrs
  by_cases hok : Succeeded rs
  · obtain ⟨rfl, hplace, henabled'⟩ := hrs hok
    rw [← hplace]
    refine (leads_connectStart_note (henabled'.trans henabled)).bindDone ?_
    exact fun g₂ s₂ u hu => Code.leads_pure_done fun _ => hu
  · refine Code.leads_true_done.bindDone ?_
    exact fun g₂ s₂ u _ => Code.leads_pure_done fun hok' => absurd hok' hok

end connect

/-! ## What the options amount to -/

/-- All options have succeeded and `SSLConfigure` has come to its end: what is noted is in `P`. -/
def Using (P : Noted → Prop) (l : List (Happening CESig))
    (r : Ending CESig ConnectionEnd (List OptionResult)) : Prop :=
  ∀ s rs, r = .done s rs → Succeeded rs → (l.foldl note .nothing).configured = true →
    P (l.foldl note .nothing)

/-- What options use: the hostname of the first one unless there is one, the verify mode of the
last one, and no roots when this is NONE or there is an authority. -/
structure SetBy (s : ConnectionEnd) (os : List Setter) (g : Noted) : Prop where
  hostname : g.hostnames =
    ((s.mSSLHostname.map Block.bytes).or (os.filterMap Setter.hostname?).head?).toList
  verifyMode : g.verifyModes = [(os.filterMap Setter.verifyMode?).getLast?.getD s.mSSLAuthMode]
  unloaded : (os.filterMap Setter.verifyMode?).getLast? = some MBEDTLS_SSL_VERIFY_NONE ∨
    os.any Setter.isAuthority = true → g.listed = false
  loaded : s.mSSLLoadRootCertificates = true →
    MBEDTLS_SSL_VERIFY_NONE ∉ os.filterMap Setter.verifyMode? →
    os.any Setter.isAuthority = false → g.listed = true

/-- The flag is cleared by a verify mode NONE, or by an authority. -/
theorem any_clears (os : List Setter) : os.any Setter.clears = true ↔
    MBEDTLS_SSL_VERIFY_NONE ∈ os.filterMap Setter.verifyMode? ∨
      os.any Setter.isAuthority = true := by
  rw [List.any_eq_true, List.mem_filterMap, List.any_eq_true, ← exists_or]
  refine exists_congr fun o => ?_
  rw [← and_or_left]
  refine and_congr_right fun _ => ?_
  cases o <;> simp [Setter.clears, Setter.verifyMode?, Setter.isAuthority]

/-- What is noted is what the options have set. -/
theorem setBy_noted (s : ConnectionEnd) (os : List Setter) :
    SetBy s os (os.foldl Uses.set (inPlace s)).noted := by
  rw [foldl_set]
  refine ⟨rfl, rfl, ?_, ?_⟩
  · intro hcleared
    have hclears : os.any Setter.clears = true := by
      refine (any_clears os).mpr (hcleared.imp_left ?_)
      exact fun hlast => List.mem_of_getLast? hlast
    simp only [Uses.noted, hclears, Bool.not_true, Bool.and_false]
  · intro hloads hmodes hauthority
    have hclears : os.any Setter.clears = false := by
      refine Bool.eq_false_iff.mpr fun hclears => ?_
      rcases (any_clears os).mp hclears with hnone | hany
      · exact hmodes hnone
      · rw [hauthority] at hany
        cases hany
    simp only [Uses.noted, inPlace, hloads, hclears, Bool.not_false, Bool.and_true]

/-- **Sequences of options.**  When all of them succeed, a connect uses the hostname of the first
one and the verify mode of the last one, and loads no roots when that is NONE or there is an
authority, but loads them when no verify mode is NONE and there is no authority; and options of
different kinds commute. -/
theorem setters_used {s : ConnectionEnd} (henabled : s.mSSLEnabled = true) :
    (∀ os E fuel n, (setAndConnect fuel os).Drives E (Using (SetBy s os)) n s) ∧
      (∀ os os' o o', Setter.differs o o' = true → ∃ g,
        (∀ E fuel n, (setAndConnect fuel (os ++ o :: o' :: os')).Drives E (Using (· = g)) n s) ∧
        ∀ E fuel n, (setAndConnect fuel (os ++ o' :: o :: os')).Drives E (Using (· = g)) n s) ∧
      ∀ memory, inPlace (new memory) = ⟨none, MBEDTLS_SSL_VERIFY_REQUIRED, true⟩ := by
  have hrun : ∀ os E fuel n, (setAndConnect fuel os).Drives E
      (Using (· = (os.foldl Uses.set (inPlace s)).noted)) n s :=
    fun os E fuel n => leads_setAndConnect henabled os n
  refine ⟨?_, ?_, fun _ => rfl⟩
  · intro os E fuel n t rs hr hok hconfigured
    rw [hrun os E fuel n t rs hr hok hconfigured]
    exact setBy_noted s os
  · intro os os' o o' hdiffers
    refine ⟨_, fun E fuel n => hrun _ E fuel n, fun E fuel n => ?_⟩
    rw [foldl_set_swap _ _ _ hdiffers]
    exact hrun _ E fuel n

/-- A new connection end. -/
theorem setters_used_new : { new zeroMemory with mSSLEnabled := true }.mSSLEnabled = true ∧
    (∀ os E fuel n, (setAndConnect fuel os).Drives E
      (Using (SetBy { new zeroMemory with mSSLEnabled := true } os)) n
      { new zeroMemory with mSSLEnabled := true }) :=
  ⟨rfl, (setters_used (s := { new zeroMemory with mSSLEnabled := true }) rfl).1⟩

/-- What the last option of each kind asks for. -/
def lastSet (os : List Setter) : Uses where
  hostname := (os.filterMap Setter.hostname?).getLast?
  verifyMode := (os.filterMap Setter.verifyMode?).getLast?.getD MBEDTLS_SSL_VERIFY_REQUIRED
  loadsRoots := decide ((os.filterMap Setter.verifyMode?).getLast?.getD
    MBEDTLS_SSL_VERIFY_REQUIRED ≠ MBEDTLS_SSL_VERIFY_NONE) && !os.any Setter.isAuthority

/-- Nothing fails. -/
def calm : Environment CESig ConnectionEnd where
  answer := fun _ => plainAnswer
  result := fun _ c s => (results 0 (.error MBEDTLS_ERR_SSL_WANT_READ) c, s)

/-- Two hostnames, on a new connection end: the first one is used. -/
theorem not_last_writer_wins : ¬ ∀ s, s.mSSLEnabled = true →
    inPlace s = ⟨none, MBEDTLS_SSL_VERIFY_REQUIRED, true⟩ → ∀ os E fuel n,
      (setAndConnect fuel os).Drives E (Using (· = (lastSet os).noted)) n s := by
  intro hall
  have h := hall { new zeroMemory with mSSLEnabled := true } rfl rfl
    [.hostname [97], .hostname [98]] calm 0 0 _ _ rfl (by decide) rfl
  cases congrArg Noted.hostnames h

end OptionSequences

end NewtonTLS
