/-
# Configuring the connection end

What `SSLConfigure`, `SSLUnconfigure` and the options that start nothing do to the
object, stated once for all contracts.  A contract that looks at the questions of
the configuration follows the settings through it with an invariant `J` on the
observation and the object (`SetupRules`); one that does not (`SetupQuiet`) only sees
how `SSLConfigure` ends.
-/
import NewtonTLS.ConnectionEndRuns

open Reentrant

namespace NewtonTLS

variable {M : Monitor CESig} {K : Contract M ConnectionEnd} {D : Discipline M ConnectionEnd}
  {e : Entry} {stk : List Call} {g : M.Obs} {s : ConnectionEnd}

/-! ## The questions of the configuration -/

/-- The questions of memory, clock and configuration; the mark `sslConfigured` is not one of
them. -/
def Query.isSetup : Query → Bool
  | .getConnectionEndPort => true
  | .mbedtlsEntropyAddSource => true
  | .getSerialNumber => true
  | .mbedtlsCtrDrbgSeed _ => true
  | .newVMHeap => true
  | .listRootCertificates _ => true
  | .getRootCertificate _ _ => true
  | .mbedtlsX509CrtParse _ => true
  | .mbedtlsSslConfigDefaults => true
  | .mbedtlsSslConfRng => true
  | .mbedtlsSslConfCaChain _ => true
  | .mbedtlsSslConfAuthmode _ => true
  | .mbedtlsSslSetup => true
  | .mbedtlsSslSetBio => true
  | .mbedtlsSslSetTimerCb => true
  | .mbedtlsSslSetHostname _ => true
  | q => q.isMemory

/-- The contract does not look at the questions of memory, clock and
configuration. -/
def SetupQuiet (K : Contract M ConnectionEnd) : Prop := ∀ q, q.isSetup = true → Quiet K q

/-- Allocating is part of the setup. -/
theorem SetupQuiet.memory (hK : SetupQuiet K) : MemoryQuiet K := by
  intro q hq
  refine hK q ?_
  cases q <;> first | rfl | cases hq

/-- What the object says about a question of the configuration that is asked in
state `s`. -/
def Query.fits (s : ConnectionEnd) : Query → Prop
  | .mbedtlsX509CrtParse _ => False
  | .mbedtlsSslConfCaChain chain => chain = s.mSSLCAChain
  | .mbedtlsSslConfAuthmode mode => mode = s.mSSLAuthMode
  | .mbedtlsSslSetHostname hostname => ∃ b, s.mSSLHostname = some b ∧ b.bytes = hostname
  | _ => True

/-- What parsing appends to the chain. -/
def ParseAnswer.added : ParseAnswer → List Certificate
  | .parsed _ added => added
  | .exception => []

/-! ## Rules of the configuration -/

/-- What the loading of root certificates may change. -/
structure LoadValues : Type where
  chain : List Certificate
  rootHeap : HeapRef
  currentHeap : HeapRef
  nextPtr : ℕ

/-- The object after root certificates have been loaded, or not. -/
def ConnectionEnd.loaded (s : ConnectionEnd) (v : LoadValues) : ConnectionEnd :=
  { s with
    mSSLCAChain := v.chain
    mRootCertificatesHeap := v.rootHeap
    currentHeap := v.currentHeap
    nextPtr := v.nextPtr }

/-- Nothing has been loaded yet. -/
def ConnectionEnd.loadValues (s : ConnectionEnd) : LoadValues :=
  ⟨s.mSSLCAChain, s.mRootCertificatesHeap, s.currentHeap, s.nextPtr⟩

/-- The questions of the loading of certificates, beside parsing. -/
def Query.isLoad : Query → Bool
  | .newVMHeap => true
  | .listRootCertificates _ => true
  | .getRootCertificate _ _ => true
  | _ => false

/-- The rules of an invariant `J` that the parsing of certificates keeps.  It may look at the
chain and at the settings.  `Good` says which buffers can be parsed. -/
structure ParseRules (K : Contract M ConnectionEnd) (D : Discipline M ConnectionEnd)
    (stk : List Call) (J : M.Obs → ConnectionEnd → Prop) (Good : M.Obs → List Byte → Prop) :
    Prop where
  same : ∀ g s v, v.chain = s.mSSLCAChain → v.nextPtr = s.nextPtr → J g s → J g (s.loaded v)
  load : ∀ g s q a, q.isLoad = true → J g s → D.permits stk g s (.asked q a) = true →
    K.Every g s (.asked q a) ∧ J (M.next g (.asked q a)) s
  parse : ∀ g s buf a, J g s → Good g buf →
    D.permits stk g s (.asked (.mbedtlsX509CrtParse buf) a) = true →
    K.Every g s (.asked (.mbedtlsX509CrtParse buf) a) ∧
      J (M.next g (.asked (.mbedtlsX509CrtParse buf) a))
        { s with mSSLCAChain := s.mSSLCAChain ++ a.added }

/-- The rules of an invariant that the loading of root certificates keeps.  Buffers that come
from the certificate store are good; `Temp` says which blocks come and go with the loading. -/
structure LoadRules (K : Contract M ConnectionEnd) (D : Discipline M ConnectionEnd)
    (stk : List Call) (J : M.Obs → ConnectionEnd → Prop) (Good : M.Obs → List Byte → Prop)
    (Temp : ℕ → Prop) : Prop extends ParseRules K D stk J Good where
  alloc : ∀ g s size a, J g s →
    K.Every g { s with nextPtr := s.nextPtr + 1 } (.asked (.newPtr s.nextPtr size) a) ∧
    J (M.next g (.asked (.newPtr s.nextPtr size) a)) { s with nextPtr := s.nextPtr + 1 } ∧
    Temp s.nextPtr
  release : ∀ g s p a, J g s → Temp p →
    K.Every g s (.asked (.disposPtr p) a) ∧ J (M.next g (.asked (.disposPtr p) a)) s
  stored : ∀ g s name size a cert, J g s →
    D.permits stk g s (.asked (.getRootCertificate name size) a) = true → 0 ≤ a.result →
    a.result.toNat ≤ sizeAfter size a.copied →
    Good (M.next g (.asked (.getRootCertificate name size) a))
      ((blockAfter cert a.copied).bytes.take (sizeAfter size a.copied))

/-- The rules of an invariant `J` that all questions of the configuration keep. -/
structure SetupRules (K : Contract M ConnectionEnd) (D : Discipline M ConnectionEnd)
    (stk : List Call) (J : M.Obs → ConnectionEnd → Prop) (Good : M.Obs → List Byte → Prop) :
    Prop where
  memory : MemoryQuiet K
  same : ∀ g s v, v.chain = s.mSSLCAChain → J g s → J g (s.loaded v)
  timer : ∀ g s i f b, J g s → J g (s.withTimer i f b)
  consumed : ∀ g s b a, s.mSSLHostname = some b → J g s →
    J (M.next g (.asked (.mbedtlsSslSetHostname b.bytes) a)) { s with mSSLHostname := none }
  ask : ∀ g s q a, q.isSetup = true → q.fits s → J g s →
    D.permits stk g s (.asked q a) = true →
    K.Every g s (.asked q a) ∧ J (M.next g (.asked q a)) s
  stored : ∀ g s name size a cert, J g s →
    D.permits stk g s (.asked (.getRootCertificate name size) a) = true → 0 ≤ a.result →
    a.result.toNat ≤ sizeAfter size a.copied →
    Good (M.next g (.asked (.getRootCertificate name size) a))
      ((blockAfter cert a.copied).bytes.take (sizeAfter size a.copied))
  parse : ∀ g s buf a, J g s → Good g buf →
    D.permits stk g s (.asked (.mbedtlsX509CrtParse buf) a) = true →
    K.Every g s (.asked (.mbedtlsX509CrtParse buf) a) ∧
      J (M.next g (.asked (.mbedtlsX509CrtParse buf) a))
        { s with mSSLCAChain := s.mSSLCAChain ++ a.added }

/-- A contract that does not look at the questions keeps the observation as it is. -/
theorem SetupQuiet.rules (hK : SetupQuiet K) (g : M.Obs) :
    SetupRules K D stk (fun g' _ => g' = g) fun _ _ => True where
  memory := hK.memory
  same := fun _ _ _ _ h => h
  timer := fun _ _ _ _ _ h => h
  consumed := by
    rintro _ s b a _ rfl
    exact (hK (.mbedtlsSslSetHostname b.bytes) rfl _ s a).2
  stored := fun _ _ _ _ _ _ _ _ _ _ => trivial
  ask := by
    rintro _ s q a hq _ rfl _
    exact hK q hq _ s a
  parse := by
    rintro _ s buf a rfl _ _
    exact hK _ rfl _ s a

variable {J₀ J : M.Obs → ConnectionEnd → Prop} {Good : M.Obs → List Byte → Prop}
  {Temp : ℕ → Prop}

/-- A contract that does not look at the questions of memory does not look at blocks that come
and go. -/
theorem MemoryQuiet.alloc_kept (hK : MemoryQuiet K) (p size : ℕ) (a : Unit) (h : J g s) :
    K.Every g s (.asked (.newPtr p size) a) ∧
      J (M.next g (.asked (.newPtr p size) a)) s ∧ True := by
  obtain ⟨hev, hnext⟩ := hK (.newPtr p size) rfl g s a
  rw [hnext]
  exact ⟨hev, h, trivial⟩

/-- Disposing of a block is not observed. -/
theorem MemoryQuiet.release_kept (hK : MemoryQuiet K) (p : ℕ) (a : Unit) (h : J g s) :
    K.Every g s (.asked (.disposPtr p) a) ∧ J (M.next g (.asked (.disposPtr p) a)) s := by
  obtain ⟨hev, hnext⟩ := hK (.disposPtr p) rfl g s a
  rw [hnext]
  exact ⟨hev, h⟩

/-- The rules for loading, where blocks need not be known. -/
theorem SetupRules.loadRules (R : SetupRules K D stk J Good) :
    LoadRules K D stk J Good fun _ => True where
  alloc := fun g s size a h =>
    R.memory.alloc_kept _ size a (R.same g s { s.loadValues with nextPtr := s.nextPtr + 1 } rfl h)
  release := fun _ _ p a h _ => R.memory.release_kept p a h
  same := fun g s v hchain _ h => R.same g s v hchain h
  load := by
    intro g s q a hq hJ hperm
    refine R.ask g s q a ?_ ?_ hJ hperm
    · cases q <;> first | rfl | cases hq
    · cases q <;> first | exact trivial | cases hq
  stored := R.stored
  parse := R.parse

/-- Heaps do not matter. -/
theorem ParseRules.reload (R : ParseRules K D stk J Good) {v w : LoadValues}
    (hJ : J g (s.loaded v)) (hchain : w.chain = v.chain) (hptr : w.nextPtr = v.nextPtr) :
    J g (s.loaded w) :=
  R.same g (s.loaded v) w hchain hptr hJ

/-- A block that comes with the loading. -/
theorem LoadRules.sat_newPtr (R : LoadRules K D stk J Good Temp) {v : LoadValues}
    (hJ : J g (s.loaded v)) (size : ℕ) {Q : Post M ConnectionEnd Block}
    (h : ∀ g', J g' (s.loaded { v with nextPtr := v.nextPtr + 1 }) → Temp v.nextPtr →
      Q g' (some ⟨v.nextPtr, List.replicate size 0⟩)
        (s.loaded { v with nextPtr := v.nextPtr + 1 })) :
    (newPtr size).Sat K D e stk Q g (s.loaded v) := by
  simp only [newPtr, Code.sat_bind]
  refine sat_freshPtr ?_
  simp only [Post.andThen_some, Code.sat_bind]
  refine NewtonTLS.sat_ask fun a _ => ?_
  obtain ⟨hev, hnext, htemp⟩ := R.alloc g (s.loaded v) size a hJ
  exact ⟨hev, h _ hnext htemp⟩

/-- It goes again. -/
theorem LoadRules.sat_disposPtr (R : LoadRules K D stk J Good Temp) (hJ : J g s) {b : Block}
    (htemp : Temp b.ptr) {Q : Post M ConnectionEnd Unit} (h : ∀ g', J g' s → Q g' (some ()) s) :
    (disposPtr b).Sat K D e stk Q g s := by
  refine NewtonTLS.sat_ask fun a _ => ?_
  obtain ⟨hev, hnext⟩ := R.release g s b.ptr a hJ htemp
  exact ⟨hev, h _ hnext⟩

theorem blockAfter_ptr (cert : Block) (copied : Option (List Byte)) :
    (blockAfter cert copied).ptr = cert.ptr := by
  cases copied <;> rfl

/-- A question while certificates are loaded. -/
theorem ParseRules.sat_ask (R : ParseRules K D stk J Good) {q : Query} (hq : q.isLoad = true)
    (hJ : J g s) {Q : Post M ConnectionEnd q.Answer} (h : ∀ a g', J g' s → Q g' (some a) s) :
    (NewtonTLS.ask q).Sat K D e stk Q g s := by
  refine NewtonTLS.sat_ask fun a hperm => ?_
  obtain ⟨hev, hnext⟩ := R.load g s q a hq hJ hperm
  exact ⟨hev, h a _ hnext⟩

/-- A question while the session is set up. -/
theorem SetupRules.sat_ask (R : SetupRules K D stk J Good) {q : Query} (hq : q.isSetup = true)
    (hfits : q.fits s) (hJ : J g s) {Q : Post M ConnectionEnd q.Answer}
    (h : ∀ a g', J g' s → Q g' (some a) s) :
    (NewtonTLS.ask q).Sat K D e stk Q g s := by
  refine NewtonTLS.sat_ask fun a hperm => ?_
  obtain ⟨hev, hnext⟩ := R.ask g s q a hq hfits hJ hperm
  exact ⟨hev, h a _ hnext⟩

/-! ## `SSLConfigure` and `SSLUnconfigure` -/

@[simp] theorem ConnectionEnd.loaded_loaded (s : ConnectionEnd) (v w : LoadValues) :
    (s.loaded v).loaded w = s.loaded w := rfl

/-- Parsing appends to the chain at most. -/
theorem sat_mbedtlsX509CrtParse (R : ParseRules K D stk J Good) (buf : List Byte) (v : LoadValues)
    (hJ : J g (s.loaded v)) (hgood : Good g buf) {Q : Post M ConnectionEnd Int}
    (hok : ∀ r g' v, J g' (s.loaded v) → Q g' (some r) (s.loaded v))
    (hraise : ∀ g' v, J g' (s.loaded v) → Q g' none (s.loaded v)) :
    (mbedtlsX509CrtParse buf).Sat K D e stk Q g (s.loaded v) := by
  simp only [mbedtlsX509CrtParse, Code.sat_bind]
  refine sat_ask fun a hperm => ?_
  obtain ⟨hev, hnext⟩ := R.parse g (s.loaded v) buf a hJ hgood hperm
  refine ⟨hev, ?_⟩
  cases a with
  | exception =>
    rw [ParseAnswer.added, List.append_nil] at hnext
    exact hraise _ v hnext
  | parsed r added => exact hok r _ { v with chain := v.chain ++ added } hnext

/-- The loop over the names keeps `J`, and ends with a block or by an exception. -/
theorem sat_loadNames (R : LoadRules K D stk J Good Temp) {Q : Post M ConnectionEnd Block}
    (hok : ∀ b g' v, J g' (s.loaded v) → Temp b.ptr → Q g' (some b) (s.loaded v))
    (hraise : ∀ g' v, J g' (s.loaded v) → Q g' none (s.loaded v)) :
    ∀ fuel names cert size g v, J g (s.loaded v) → Temp cert.ptr →
      (loadNames fuel names cert size).Sat K D e stk Q g (s.loaded v) := by
  intro fuel
  induction fuel with
  | zero =>
    intro names cert size g v hJ htemp
    cases names with
    | nil => exact hok cert g v hJ htemp
    | cons c names => exact trivial
  | succ fuel ih =>
    intro names cert size g v hJ htemp
    cases names with
    | nil => exact hok cert g v hJ htemp
    | cons c names =>
      simp only [loadNames]
      cases splitName (c :: names) with
      | none => exact trivial
      | some p =>
        simp only [Code.sat_bind]
        refine NewtonTLS.sat_ask fun a hperm => ?_
        obtain ⟨hev, h₁⟩ := R.load g (s.loaded v) _ a (by rfl) hJ hperm
        have hafter : Temp (blockAfter cert a.copied).ptr := by rwa [blockAfter_ptr]
        refine ⟨hev, ?_⟩
        simp only [Post.andThen_some, Code.sat_ite]
        -- grown, parsed, or passed over
        refine ⟨fun hfound => ⟨fun _ => ?_, fun hfits => ?_⟩, fun _ => ih _ _ _ _ _ h₁ hafter⟩
        · simp only [Code.sat_bind]
          refine R.sat_disposPtr h₁ hafter fun g₂ h₂ => ?_
          simp only [Post.andThen_some, Code.sat_bind]
          exact R.sat_newPtr h₂ _ fun g₃ h₃ hnew => ih _ _ _ _ _ h₃ hnew
        · simp only [Code.sat_bind]
          have hgood := R.stored g (s.loaded v) _ _ a cert hJ hperm hfound (Nat.not_lt.mp hfits)
          exact sat_mbedtlsX509CrtParse R.toParseRules _ _ h₁ hgood
            (fun _ g' v h => ih _ _ _ g' v h hafter) hraise

/-- The region under `SetHeap` keeps `J`; a failed listing ends it early. -/
theorem sat_loadListed (R : LoadRules K D stk J Good Temp) (fuel : ℕ)
    {Q : Post M ConnectionEnd (Option Int)}
    (hearly : ∀ r g' v, r < 0 → J g' (s.loaded v) → Q g' (some (some r)) (s.loaded v))
    (hdone : ∀ g' v, J g' (s.loaded v) → Q g' (some none) (s.loaded v))
    (hraise : ∀ g' v, J g' (s.loaded v) → Q g' none (s.loaded v)) (v : LoadValues)
    (hlist : ∀ a, D.permits stk g (s.loaded v) (.asked (.listRootCertificates none) a) = true →
      K.Every g (s.loaded v) (.asked (.listRootCertificates none) a) ∧
        J (M.next g (.asked (.listRootCertificates none) a)) (s.loaded v)) :
    (loadListed fuel).Sat K D e stk Q g (s.loaded v) := by
  simp only [loadListed, Code.sat_bind]
  refine NewtonTLS.sat_ask fun a hperm => ?_
  obtain ⟨hev, h₁⟩ := hlist a hperm
  -- the first listing is where `J` takes over, whatever its result
  refine ⟨hev, ?_⟩
  simp only [Post.andThen_some, Code.sat_ite]
  refine ⟨fun ha => hearly _ _ _ ha h₁, fun _ => ?_⟩
  simp only [Code.sat_bind]
  refine R.sat_newPtr h₁ _ fun g₂ h₂ hlisted => ?_
  simp only [Post.andThen_some, Code.sat_bind]
  refine R.sat_ask (by rfl) h₂ fun a' g₃ h₃ => ?_
  simp only [Post.andThen_some, Code.sat_ite]
  refine ⟨fun ha => ?_, fun _ => ?_⟩
  · simp only [Code.sat_bind]
    exact R.sat_disposPtr h₃ hlisted fun g₄ h₄ => hearly _ _ _ ha h₄
  · simp only [Code.sat_bind]
    refine R.sat_newPtr h₃ _ fun g₄ h₄ hcert => ?_
    simp only [Post.andThen_some, Code.sat_bind]
    refine sat_loadNames (s := s) R (fun b g₅ v h₅ hb => ?_) hraise _ _ _ _ _ _ h₄ hcert
    simp only [Post.andThen_some, Code.sat_bind]
    refine R.sat_disposPtr h₅ hb fun g₆ h₆ => ?_
    simp only [Post.andThen_some, Code.sat_bind]
    exact R.sat_disposPtr h₆ hlisted fun g₇ h₇ => hdone g₇ v h₇

/-- The heap for the root certificates is made. -/
theorem sat_newVMHeap (R : ParseRules K D stk J Good) (hJ : J g s)
    {Q : Post M ConnectionEnd Int}
    (h : ∀ r g' heap, J g' (s.loaded { s.loadValues with rootHeap := heap }) →
      Q g' (some r) (s.loaded { s.loadValues with rootHeap := heap })) :
    newVMHeap.Sat K D e stk Q g s := by
  simp only [newVMHeap, Code.sat_bind]
  refine R.sat_ask (by rfl) hJ fun a g' h' => ?_
  simp only [Post.andThen_some, Code.sat_bind, Code.sat_ite]
  exact ⟨fun _ => h _ g' (some a.2) (R.same _ s _ rfl rfl h'),
    fun _ => h _ g' s.mRootCertificatesHeap h'⟩

/-- The loading of the roots keeps `J`. -/
theorem sat_loadInHeap (R : LoadRules K D stk J Good Temp) (fuel : ℕ)
    {Q : Post M ConnectionEnd (Option Int)}
    (hearly : ∀ r g' v, r < 0 → J g' (s.loaded v) → Q g' (some (some r)) (s.loaded v))
    (hdone : ∀ g' v, J g' (s.loaded v) → Q g' (some none) (s.loaded v))
    (hraise : ∀ g' v, J g' (s.loaded v) → Q g' none (s.loaded v)) (R₀ : ParseRules K D stk J₀ Good)
    (hlist : ∀ g s a, J₀ g s →
      D.permits stk g s (.asked (.listRootCertificates none) a) = true →
      K.Every g s (.asked (.listRootCertificates none) a) ∧
        J (M.next g (.asked (.listRootCertificates none) a)) s) (v : LoadValues)
    (hJ : J₀ g (s.loaded v)) : (loadInHeap fuel).Sat K D e stk Q g (s.loaded v) := by
  simp only [loadInHeap, setHeap, Code.sat_bind, Code.sat_get, Post.andThen_some, Code.sat_modify,
    Code.sat_onRaise]
  refine sat_loadListed (s := s) R fuel ?_ ?_ ?_ { v with currentHeap := v.rootHeap }
    (fun a hperm => hlist g _ a (R₀.reload hJ rfl rfl) hperm)
  · intro r g' v' hr h'
    exact hearly r g' v' hr h'
  · intro g' v' h'
    exact hdone g' { v' with currentHeap := v.currentHeap } (R.reload h' rfl rfl)
  · intro g' v' h'
    exact hraise g' { v' with currentHeap := v.currentHeap } (R.reload h' rfl rfl)

/-- Loading begins with `J₀`, which becomes `J` when the roots are listed. -/
theorem sat_loadRootCertificates (R₀ : ParseRules K D stk J₀ Good)
    (R : LoadRules K D stk J Good Temp)
    (hlist : ∀ g s a, J₀ g s →
      D.permits stk g s (.asked (.listRootCertificates none) a) = true →
      K.Every g s (.asked (.listRootCertificates none) a) ∧
        J (M.next g (.asked (.listRootCertificates none) a)) s) (fuel : ℕ)
    (hJ : J₀ g s) {Q : Post M ConnectionEnd (Option Int)}
    (hearly : ∀ r g' v, r < 0 → J g' (s.loaded v) → Q g' (some (some r)) (s.loaded v))
    (hdone : ∀ g' v, J g' (s.loaded v) → Q g' (some none) (s.loaded v))
    (hraise : ∀ g' v, J g' (s.loaded v) → Q g' none (s.loaded v)) :
    (loadRootCertificates fuel).Sat K D e stk Q g s := by
  simp only [loadRootCertificates, Code.sat_bind, Code.sat_get, Post.andThen_some, Code.sat_ite]
  refine ⟨fun _ => sat_newVMHeap R₀ hJ fun r g' heap h' => ?_, fun _ => ?_⟩
  · exact sat_loadInHeap R fuel hearly hdone hraise R₀ hlist _ h'
  · exact sat_loadInHeap R fuel hearly hdone hraise R₀ hlist s.loadValues hJ

/-- What a successful `SSLConfigure` makes anew: message, three lists, timer. -/
structure SetupValues : Type where
  load : LoadValues
  msg : ℕ
  put : ℕ
  send : ℕ
  getl : ℕ
  timerInt : UInt32
  timerFin : UInt32
  timerFired : Bool

/-- The object after a successful `SSLConfigure`. -/
def ConnectionEnd.configured (s : ConnectionEnd) (v : SetupValues) : ConnectionEnd :=
  { (s.loaded v.load).withTimer v.timerInt v.timerFin v.timerFired with
    mSSLHostname := none
    mAsyncReadMessage := some v.msg
    mPutDataBuffer := some ⟨v.put, BufferList.empty⟩
    mSendBuffer := some ⟨v.send, BufferList.empty⟩
    mSendPending := false
    mSendError := 0
    mGetDataBuffer := some ⟨v.getl, BufferList.empty⟩
    mSSLRecvBuffer := none
    mSSLRecvBufferSize := 0
    mRecvPending := false
    mSSLReceiveInProgress := false
    mRecvError := 0
    mSSLConfigured := true
    mEstablished := false
    mClosing := false
    mPeerClosed := false
    mSSLReadBuffer := none
    mSSLReadBufferSize := 0 }

/-- `SSLConfigure` has returned 0: the mark in the log, with the new object. -/
def ConfiguredPost (K : Contract M ConnectionEnd) (D : Discipline M ConnectionEnd)
    (stk : List Call) (Q : Post M ConnectionEnd Int) (g : M.Obs) (s : ConnectionEnd) : Prop :=
  D.permits stk g s (.asked .sslConfigured ()) = true →
    K.Every g s (.asked .sslConfigured ()) ∧ Q (M.next g (.asked .sslConfigured ())) (some 0) s

/-- The fields are set when the session has been set up. -/
theorem sat_setUpFields (hK : MemoryQuiet K) {Q : Post M ConnectionEnd Int} (v : LoadValues)
    (i f : UInt32) (b : Bool) {s' : ConnectionEnd}
    (hs' : s' = ({ (s.loaded v).withTimer i f b with mSSLHostname := none } : ConnectionEnd))
    (h : ∀ w, w.load.chain = v.chain → ConfiguredPost K D stk Q g (s.configured w)) :
    setUpFields.Sat K D e stk Q g s' := by
  subst hs'
  simp only [setUpFields, Code.sat_bind]
  refine sat_freshPtr ?_
  simp only [Post.andThen_some, Code.sat_bind]
  refine (hK _ rfl).sat_ask fun _ => ?_
  simp only [Post.andThen_some, Code.sat_bind]
  refine sat_newBufferList hK ?_
  simp only [Post.andThen_some, Code.sat_bind]
  refine sat_newBufferList hK ?_
  simp only [Post.andThen_some, Code.sat_bind]
  refine sat_newBufferList hK ?_
  simp only [Post.andThen_some, Code.sat_bind, Code.sat_modify]
  intro a hperm
  exact h ⟨{ v with nextPtr := v.nextPtr + 1 + 1 + 1 + 1 }, v.nextPtr, v.nextPtr + 1,
    v.nextPtr + 1 + 1, v.nextPtr + 1 + 1 + 1, i, f, b⟩ rfl hperm

/-- The hostname is passed on and released. -/
theorem sat_passHostname (R : SetupRules K D stk J Good) {host : Option Block}
    (hhost : s.mSSLHostname = host) (hJ : J g s) {Q : Post M ConnectionEnd Unit}
    (h : ∀ g', J g' { s with mSSLHostname := none } →
      Q g' (some ()) { s with mSSLHostname := none }) :
    (passHostname host).Sat K D e stk Q g s := by
  cases host with
  | none =>
    have hs : ({ s with mSSLHostname := none } : ConnectionEnd) = s := by rw [← hhost]
    rw [hs] at h
    exact h g hJ
  | some b =>
    simp only [passHostname, Code.sat_bind]
    refine NewtonTLS.sat_ask fun a hperm => ?_
    refine ⟨(R.ask g s _ a (by rfl) (by exact ⟨b, hhost, rfl⟩) hJ hperm).1, ?_⟩
    simp only [Post.andThen_some, Code.sat_bind]
    exact sat_disposPtr R.memory b (h _ (R.consumed g s b a hhost hJ))

/-- The questions between the roots and the hostname. -/
def Query.isConf : Query → Bool
  | .mbedtlsSslConfigDefaults => true
  | .mbedtlsSslConfRng => true
  | .mbedtlsSslConfCaChain _ => true
  | .mbedtlsSslConfAuthmode _ => true
  | .mbedtlsSslSetup => true
  | .mbedtlsSslSetBio => true
  | .mbedtlsSslSetTimerCb => true
  | _ => false

/-- `J` holds while SSL is told its configuration, then come the hostname and the fields. -/
theorem sat_setUpSSL_phases (hclock : Quiet K .getGlobalTime) (hJ : J g s)
    (hask : ∀ q a g, q.isConf = true → q.fits s → J g s → D.permits stk g s (.asked q a) = true →
      K.Every g s (.asked q a) ∧ J (M.next g (.asked q a)) s) {Q : Post M ConnectionEnd Int}
    (hrest : ∀ g' i f b, J g' s → Code.Sat K D e stk Q (do
      passHostname s.mSSLHostname
      setUpFields) g' (s.withTimer i f b)) : setUpSSL.Sat K D e stk Q g s := by
  have htold : ∀ {q : Query} {g : M.Obs} {P : Post M ConnectionEnd q.Answer}, q.isConf = true →
      q.fits s → J g s → (∀ a g', J g' s → P g' (some a) s) → (ask q).Sat K D e stk P g s := by
    intro q g P hq hfits h hP
    refine NewtonTLS.sat_ask fun a hperm => ?_
    obtain ⟨hev, hnext⟩ := hask q a g hq hfits h hperm
    exact ⟨hev, hP a _ hnext⟩
  simp only [setUpSSL, Code.sat_bind, Code.sat_get, Post.andThen_some]
  -- the configuration of mbedTLS, question by question
  refine htold rfl (by trivial) hJ fun _ g₁ h₁ => ?_
  simp only [Post.andThen_some, Code.sat_bind]
  refine htold rfl (by trivial) h₁ fun _ g₂ h₂ => ?_
  simp only [Post.andThen_some, Code.sat_bind]
  refine htold rfl (by rfl) h₂ fun _ g₃ h₃ => ?_
  simp only [Post.andThen_some, Code.sat_bind]
  refine htold rfl (by rfl) h₃ fun _ g₄ h₄ => ?_
  simp only [Post.andThen_some, Code.sat_bind]
  refine htold rfl (by trivial) h₄ fun _ g₅ h₅ => ?_
  simp only [Post.andThen_some, Code.sat_bind]
  refine htold rfl (by trivial) h₅ fun _ g₆ h₆ => ?_
  simp only [Post.andThen_some, Code.sat_bind]
  refine htold rfl (by trivial) h₆ fun ts g₇ h₇ => ?_
  simp only [Post.andThen_some, Code.sat_bind]
  -- mbedTLS may set the timer as soon as it has the callbacks
  refine sat_runTimerCalls hclock ts fun i f b => ?_
  exact hrest g₇ i f b h₇

/-- The setup keeps `J`, and ends configured or not. -/
theorem sat_setUpSSL (R : SetupRules K D stk J Good) {Q : Post M ConnectionEnd Int} (v : LoadValues)
    (hJ : J g (s.loaded v))
    (h : ∀ g' v, J g' { s.loaded v.load with mSSLHostname := none } →
      ConfiguredPost K D stk Q g' (s.configured v)) :
    setUpSSL.Sat K D e stk Q g (s.loaded v) := by
  refine sat_setUpSSL_phases (R.memory _ rfl) hJ (fun q a g hq hfits h hperm => ?_)
    fun g₇ i f b h₇ => ?_
  · refine R.ask g _ q a ?_ hfits h hperm
    cases q <;> first | rfl | cases hq
  simp only [Code.sat_bind]
  refine sat_passHostname (s := (s.loaded v).withTimer i f b) R rfl (R.timer _ _ i f b h₇)
    fun g₈ h₈ => ?_
  refine sat_setUpFields R.memory v i f b rfl fun w hw => h g₈ w ?_
  exact R.same _ _ w.load hw (R.timer _ _ s.mSSLTimerInt s.mSSLTimerFin s.mSSLTimerFired h₈)

/-- The questions of the seed. -/
def Query.isSeed : Query → Bool
  | .mbedtlsEntropyAddSource => true
  | .getSerialNumber => true
  | .mbedtlsCtrDrbgSeed _ => true
  | _ => false

/-- `SSLConfigure` in three phases: `J₀` holds from its first question until the roots are
listed, `J` until they are loaded, and the rest is the set-up. -/
theorem sat_sslConfigure_phases (R₀ : ParseRules K D stk J₀ Good)
    (R : LoadRules K D stk J Good Temp)
    (hport : ∀ a, D.permits stk g s (.asked .getConnectionEndPort a) = true →
      K.Every g s (.asked .getConnectionEndPort a) ∧
        J₀ (M.next g (.asked .getConnectionEndPort a)) s)
    (hseed : ∀ q a g, q.isSeed = true → J₀ g s → D.permits stk g s (.asked q a) = true →
      K.Every g s (.asked q a) ∧ J₀ (M.next g (.asked q a)) s)
    (hlist : ∀ g s a, J₀ g s →
      D.permits stk g s (.asked (.listRootCertificates none) a) = true →
      K.Every g s (.asked (.listRootCertificates none) a) ∧
        J (M.next g (.asked (.listRootCertificates none) a)) s) (fuel : ℕ)
    {Q : Post M ConnectionEnd Int} (hunseeded : ∀ r g', r ≠ 0 → J₀ g' s → Q g' (some r) s)
    (hearly : ∀ r g' v, r < 0 → J g' (s.loaded v) → Q g' (some r) (s.loaded v))
    (hraise : ∀ g' v, J g' (s.loaded v) → Q g' none (s.loaded v))
    (hplain : ∀ g', s.mSSLLoadRootCertificates = false → J₀ g' s →
      setUpSSL.Sat K D e stk Q g' s)
    (hloaded : ∀ g' v, s.mSSLLoadRootCertificates = true → J g' (s.loaded v) →
      setUpSSL.Sat K D e stk Q g' (s.loaded v)) :
    (sslConfigure fuel).Sat K D e stk Q g s := by
  have hask : ∀ {q : Query} {g : M.Obs} {P : Post M ConnectionEnd q.Answer}, q.isSeed = true →
      J₀ g s → (∀ a g', J₀ g' s → P g' (some a) s) → (ask q).Sat K D e stk P g s := by
    intro q g P hq h hP
    refine NewtonTLS.sat_ask fun a hperm => ?_
    obtain ⟨hev, hnext⟩ := hseed q a g hq h hperm
    exact ⟨hev, hP a _ hnext⟩
  simp only [sslConfigure, Code.sat_bind]
  refine NewtonTLS.sat_ask fun a hperm => ?_
  obtain ⟨hev, h₁⟩ := hport a hperm
  -- the port, and then the three questions of the seed
  refine ⟨hev, ?_⟩
  simp only [Post.andThen_some, Code.sat_bind]
  refine hask rfl h₁ fun _ g₂ h₂ => ?_
  simp only [Post.andThen_some, Code.sat_bind]
  refine hask rfl h₂ fun serialNumber g₃ h₃ => ?_
  simp only [Post.andThen_some, Code.sat_bind]
  refine hask rfl h₃ fun r g₄ h₄ => ?_
  simp only [Post.andThen_some, Code.sat_ite]
  refine ⟨fun hr => hunseeded r g₄ hr h₄, fun _ => ?_⟩
  simp only [Code.sat_bind, Code.sat_get, Post.andThen_some, Code.sat_ite]
  refine ⟨fun hroots => ?_, fun hroots => hplain g₄ (by simpa using hroots) h₄⟩
  exact sat_loadRootCertificates R₀ R hlist fuel h₄ hearly (fun g' v h' => hloaded g' v hroots h')
    hraise

/-- `SSLConfigure` fails with a code, or ends with an exception, and leaves the
object configured as it was, or it returns 0 on an object configured anew. -/
theorem sat_sslConfigure (R : SetupRules K D stk J Good) (fuel : ℕ) (hJ : J g s)
    {Q : Post M ConnectionEnd Int}
    (hfail : ∀ r g' v, r ≠ 0 → J g' (s.loaded v) → Q g' (some r) (s.loaded v))
    (hraise : ∀ g' v, J g' (s.loaded v) → Q g' none (s.loaded v))
    (hdone : ∀ g' v, J g' { s.loaded v.load with mSSLHostname := none } →
      ConfiguredPost K D stk Q g' (s.configured v)) :
    (sslConfigure fuel).Sat K D e stk Q g s := by
  refine sat_sslConfigure_phases R.loadRules.toParseRules R.loadRules
    (fun a hperm => R.ask g s _ a rfl (by trivial) hJ hperm) ?_
    (fun g s a h hperm => R.loadRules.load g s _ a rfl h hperm) fuel
    (fun r g' hr h' => hfail r g' s.loadValues hr h')
    (fun r g' v hr h' => hfail r g' v (by omega) h')
    hraise (fun g' _ h' => sat_setUpSSL R s.loadValues h' hdone)
    fun g' v _ h' => sat_setUpSSL R v h' hdone
  intro q a g hq h hperm
  refine R.ask g s q a ?_ ?_ h hperm
  · cases q <;> first | rfl | cases hq
  · cases q <;> first | exact trivial | cases hq

/-- The object after `SSLUnconfigure`. -/
def ConnectionEnd.unconfigured (s : ConnectionEnd) : ConnectionEnd :=
  { s with
    mPutDataBuffer := none
    mSendBuffer := none
    mGetDataBuffer := none
    mSSLRecvBuffer := none
    mSSLReadBuffer := none
    mAsyncReadMessage := none
    mSSLHostname := none
    mSSLConfigured := false }

/-- A list is deleted, if there is one. -/
theorem sat_deleteList (hK : MemoryQuiet K) (l : Option OwnList) {Q : Post M ConnectionEnd Unit}
    (h : Q g (some ()) s) : (deleteList l).Sat K D e stk Q g s := by
  cases l with
  | none => exact h
  | some l => exact (hK _ rfl).sat_ask fun _ => h

/-- A block is disposed of, if there is one. -/
theorem sat_disposBlock (hK : MemoryQuiet K) (b : Option Block) {Q : Post M ConnectionEnd Unit}
    (h : Q g (some ()) s) : (disposBlock b).Sat K D e stk Q g s := by
  cases b with
  | none => exact h
  | some b => exact sat_disposPtr hK b h

/-- A message is deleted, if there is one. -/
theorem sat_deleteMessage (hK : MemoryQuiet K) (p : Option ℕ) {Q : Post M ConnectionEnd Unit}
    (h : Q g (some ()) s) : (deleteMessage p).Sat K D e stk Q g s := by
  cases p with
  | none => exact h
  | some p => exact (hK _ rfl).sat_ask fun _ => h

/-- Everything of a session is released, and its fields are unset. -/
theorem sat_sslUnconfigure (hK : MemoryQuiet K) {Q : Post M ConnectionEnd Unit}
    (h : Q g (some ()) s.unconfigured) : sslUnconfigure.Sat K D e stk Q g s := by
  simp only [sslUnconfigure, Code.sat_bind, Code.sat_get, Post.andThen_some]
  refine sat_deleteList hK _ ?_
  simp only [Post.andThen_some, Code.sat_bind]
  refine sat_deleteList hK _ ?_
  simp only [Post.andThen_some, Code.sat_bind]
  refine sat_deleteList hK _ ?_
  simp only [Post.andThen_some, Code.sat_bind]
  refine sat_disposBlock hK _ ?_
  simp only [Post.andThen_some, Code.sat_bind]
  refine sat_disposBlock hK _ ?_
  simp only [Post.andThen_some, Code.sat_bind]
  refine sat_deleteMessage hK _ ?_
  simp only [Post.andThen_some, Code.sat_bind]
  exact sat_disposBlock hK _ h

/-! ## Options that start nothing -/

/-- The options that are handled here and start nothing. -/
def TOption.isSetter : TOption → Bool
  | .sslHostname _ => true
  | .sslVerifyMode _ => true
  | .sslCertificateAuthority _ => true
  | .sslPeerCertificate _ => true
  | _ => false

/-- What such an option may change. -/
structure OptionValues : Type where
  load : LoadValues
  hostname : Option Block
  authMode : UInt32
  loadRoots : Bool

/-- The object after such an option. -/
def ConnectionEnd.withOptions (s : ConnectionEnd) (v : OptionValues) : ConnectionEnd :=
  { s.loaded v.load with
    mSSLHostname := v.hostname
    mSSLAuthMode := v.authMode
    mSSLLoadRootCertificates := v.loadRoots }

/-- No option has been given yet. -/
def ConnectionEnd.optionValues (s : ConnectionEnd) : OptionValues :=
  ⟨s.loadValues, s.mSSLHostname, s.mSSLAuthMode, s.mSSLLoadRootCertificates⟩

section options

variable {R : Post M ConnectionEnd OptionResult}

theorem sat_sslHostnameOption (hK : MemoryQuiet K) (hostname : List Byte)
    (hkeep : s.mSSLHostname.isSome = true → R g (some .opSuccess) s)
    (hset : s.mSSLHostname = none → R g (some .opSuccess) { s with
      nextPtr := s.nextPtr + 1
      mSSLHostname := some ⟨s.nextPtr, cString hostname ++ [0]⟩ }) :
    (sslHostnameOption hostname).Sat K D e stk R g s := by
  simp only [sslHostnameOption, Code.sat_bind, Code.sat_get, Post.andThen_some]
  cases hhost : s.mSSLHostname with
  | some _ => exact hkeep (by rw [hhost]; rfl)
  | none =>
    simp only [Code.sat_bind]
    exact sat_newPtr hK _ (hset hhost)

/-- The mode is set, and without verification no roots are loaded. -/
theorem sat_sslVerifyModeOption (verifyMode : UInt32)
    (h : R g (some .opSuccess) { s with
      mSSLAuthMode := verifyMode
      mSSLLoadRootCertificates :=
        if verifyMode = MBEDTLS_SSL_VERIFY_NONE then false else s.mSSLLoadRootCertificates }) :
    (sslVerifyModeOption verifyMode).Sat K D e stk R g s := by
  simp only [sslVerifyModeOption, Code.sat_bind, Code.sat_modify, Post.andThen_some,
    Code.sat_ite]
  refine ⟨fun hnone => ?_, fun hother => ?_⟩
  · rw [if_pos hnone] at h
    exact h
  · rw [if_neg hother] at h
    exact h

/-- The certificate of the option is parsed, which may raise. -/
theorem sat_parseAuthority (S : ParseRules K D stk J Good) (o : TCMOSSLCertificate) (v : LoadValues)
    (hJ : J g (s.loaded v)) (hgood : Good g (o.certificate.take o.length.toNat))
    (h : ∀ r g' v, J g' (s.loaded v) → R g' (some r) (s.loaded v))
    (hraise : ∀ g' v, J g' (s.loaded v) → R g' none (s.loaded v)) :
    (parseAuthority o).Sat K D e stk R g (s.loaded v) := by
  simp only [parseAuthority, setHeap, Code.sat_bind, Code.sat_get, Post.andThen_some,
    Code.sat_modify, Code.sat_onRaise]
  refine sat_mbedtlsX509CrtParse (s := s) S _ { v with currentHeap := v.rootHeap }
    (S.reload hJ rfl rfl) hgood ?_ ?_
  · intro r g' v' h'
    have hback : J g' (s.loaded { v' with currentHeap := v.currentHeap }) := S.reload h' rfl rfl
    simp only [Code.sat_ite]
    exact ⟨fun _ => h _ g' { v' with currentHeap := v.currentHeap } hback,
      fun _ => h _ g' { v' with currentHeap := v.currentHeap } hback⟩
  · intro g' v' h'
    exact hraise g' { v' with currentHeap := v.currentHeap } (S.reload h' rfl rfl)

/-- The option clears the flag, and then it parses. -/
theorem sat_sslCertificateAuthorityOption (S : ParseRules K D stk J Good) (o : TCMOSSLCertificate)
    (hJ : J g { s with mSSLLoadRootCertificates := false })
    (hgood : ∀ g' s', J g' s' → Good g' (o.certificate.take o.length.toNat))
    (h : ∀ r g' v, J g' (({ s with mSSLLoadRootCertificates := false } : ConnectionEnd).loaded v) →
      R g' (some r) (({ s with mSSLLoadRootCertificates := false } : ConnectionEnd).loaded v))
    (hraise : ∀ g' v,
      J g' (({ s with mSSLLoadRootCertificates := false } : ConnectionEnd).loaded v) →
      R g' none (({ s with mSSLLoadRootCertificates := false } : ConnectionEnd).loaded v)) :
    (sslCertificateAuthorityOption o).Sat K D e stk R g s := by
  simp only [sslCertificateAuthorityOption, Code.sat_bind, Code.sat_get, Code.sat_modify,
    Post.andThen_some, Code.sat_ite]
  generalize ({ s with mSSLLoadRootCertificates := false } : ConnectionEnd) = s' at hJ h hraise ⊢
  refine ⟨fun _ => sat_newVMHeap S hJ fun r g' heap h' => ?_, fun _ => ?_⟩
  · simp only [Post.andThen_some, Code.sat_ite]
    exact ⟨fun _ => h _ g' _ h', fun _ => sat_parseAuthority S o _ h' (hgood _ _ h') h hraise⟩
  · exact sat_parseAuthority S o s'.loadValues hJ (hgood _ _ hJ) h hraise

/-- A certificate of the peer is looked up; an empty chain stops the body. -/
theorem sat_peerCertAt {Q : Post M ConnectionEnd (Option Certificate)}
    (h : ∀ c, Q g (some c) s) (chain : List Certificate) :
    ∀ ix, (peerCertAt chain ix).Sat K D e stk Q g s := by
  induction chain with
  | nil => intro ix; exact trivial
  | cons c rest ih =>
    intro ix
    cases ix with
    | zero => exact h (some c)
    | succ ix =>
      cases rest with
      | nil => exact h none
      | cons c' rest => exact ih ix

/-- The certificate of the peer is only read. -/
theorem sat_sslPeerCertificateOption (hpeer : Quiet K .mbedtlsSslGetPeerCert)
    (o : TCMOSSLCertificate) {Q : Post M ConnectionEnd (OptionResult × TCMOSSLCertificate)}
    (h : ∀ p, Q g (some p) s) : (sslPeerCertificateOption o).Sat K D e stk Q g s := by
  simp only [sslPeerCertificateOption, Code.sat_bind, Code.sat_get, Post.andThen_some,
    Code.sat_ite]
  refine ⟨fun _ => hpeer.sat_ask fun chain => ?_, fun _ => h _⟩
  simp only [Post.andThen_some, Code.sat_bind]
  refine sat_peerCertAt (fun c => ?_) _ _
  cases c with
  | none => exact h _
  | some c => exact h _

end options

/-- An option that starts nothing changes what options may change, and is
answered on the spot. -/
theorem sat_setterOption (S : SetupRules K D stk J Good) (hpeer : Quiet K .mbedtlsSslGetPeerCert)
    (hopt : ∀ g s v, v.load.chain = s.mSSLCAChain → J g s → J g (s.withOptions v))
    (fuel : ℕ) (theOption : TOption) (ho : theOption.isSetter = true) (hJ : J g s)
    (hgood : ∀ o g' s', theOption = .sslCertificateAuthority o → J g' s' →
      Good g' (o.certificate.take o.length.toNat))
    {Q : Post M ConnectionEnd (OptionResult × TOption)}
    (h : ∀ p g' v, J g' (s.withOptions v) → Q g' (some p) (s.withOptions v))
    (hraise : ∀ g' v, J g' (s.withOptions v) → Q g' none (s.withOptions v)) :
    (processOptionStart fuel theOption).Sat K D e stk Q g s := by
  have hset : ∀ p v, v.load.chain = s.mSSLCAChain → Q g (some p) (s.withOptions v) :=
    fun p v hv => h p g v (hopt g s v hv hJ)
  cases theOption with
  | sslHostname hostname =>
    simp only [processOptionStart, Code.sat_bind]
    exact sat_sslHostnameOption S.memory hostname (fun _ => hset _ s.optionValues rfl)
      fun _ => hset _ { s.optionValues with
        load := { s.loadValues with nextPtr := s.nextPtr + 1 }
        hostname := some _ } rfl
  | sslVerifyMode verifyMode =>
    simp only [processOptionStart, Code.sat_bind]
    exact sat_sslVerifyModeOption verifyMode
      (hset _ { s.optionValues with authMode := verifyMode, loadRoots := _ } rfl)
  | sslCertificateAuthority o =>
    simp only [processOptionStart, Code.sat_bind]
    exact sat_sslCertificateAuthorityOption S.loadRules.toParseRules o
      (hopt g s { s.optionValues with loadRoots := false } rfl hJ)
      (fun g' s' => hgood o g' s' rfl)
      (fun r g' v h' => h _ g' { s.optionValues with load := v, loadRoots := false } h')
      fun g' v h' => hraise g' { s.optionValues with load := v, loadRoots := false } h'
  | sslPeerCertificate o =>
    simp only [processOptionStart, Code.sat_bind]
    exact sat_sslPeerCertificateOption hpeer o fun p => h _ g s.optionValues hJ
  | sslEnable enabled => cases ho
  | other label => cases ho

end NewtonTLS
