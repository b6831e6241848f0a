/-
# Rules for the loading of roots

How the functions under `SSLConfigure` end in a given environment, for any sum over what
happens: the functions that only set up (`Configures`), and the loop over the names, whose rule
asks for an invariant that every way of a round keeps (`Rounds`).
-/
import NewtonTLS.ReentrantTriple
import NewtonTLS.ConnectionEnd

open Reentrant

namespace NewtonTLS

/-- A question that goes neither to the store nor to the parser and makes no block. -/
def Query.setsUp : Query → Bool
  | .listRootCertificates _ => false
  | .getRootCertificate _ _ => false
  | .mbedtlsX509CrtParse _ => false
  | .newPtr _ _ => false
  | _ => true

/-- A question that is asked to seed the generator. -/
def Query.seeds : Query → Bool
  | .getConnectionEndPort => true
  | .mbedtlsEntropyAddSource => true
  | .getSerialNumber => true
  | .mbedtlsCtrDrbgSeed _ => true
  | _ => false

namespace LoadingRules

section rules

variable {α β G : Type} {E : Environment CESig ConnectionEnd} {next : G → Happening CESig → G}
  {I : G → Prop} {g : G} {s : ConnectionEnd}

/-! ## Setting up -/

/-- The questions that set up keep `I`. -/
def SetUpKeeps (next : G → Happening CESig → G) (I : G → Prop) : Prop :=
  ∀ g q a, q.setsUp = true → I g → I (next g (.asked q a))

/-- The body ends with a value in `P`, and keeps `I` and the heap. -/
def Configures (E : Environment CESig ConnectionEnd) (next : G → Happening CESig → G)
    (I : G → Prop) (m : CE α) (P : α → Prop) : Prop :=
  ∀ g s, I g → m.Leads E next
    (Returns fun g' s' a => I g' ∧ s'.currentHeap = s.currentHeap ∧ P a) g s

theorem configures_pure {P : α → Prop} {a : α} (h : P a) : Configures E next I (pure a) P :=
  fun _ s hg => Code.leads_pure ⟨s, a, rfl, hg, rfl, h⟩

theorem configures_get : Configures E next I (get : CE ConnectionEnd) fun _ => True :=
  fun _ s hg _ => ⟨s, s, rfl, hg, rfl, trivial⟩

/-- A change that leaves the heap alone. -/
theorem configures_modify {f : ConnectionEnd → ConnectionEnd}
    (hf : ∀ s, (f s).currentHeap = s.currentHeap) :
    Configures E next I (modify f) fun _ => True :=
  fun _ s hg => Code.leads_modify ⟨f s, ⟨⟩, rfl, hg, hf s, trivial⟩

theorem configures_ask (hI : SetUpKeeps next I) (q : Query) (hq : q.setsUp = true) :
    Configures E next I (ask q) fun _ => True :=
  fun g s hg => Code.leads_ask fun _ => ⟨s, _, rfl, hI g q _ hq hg, rfl, trivial⟩

theorem Configures.andThen {m : CE α} {f : α → CE β} {P : α → Prop} {P' : β → Prop}
    (hm : Configures E next I m P) (hf : ∀ a, P a → Configures E next I (f a) P') :
    Configures E next I (m >>= f) P' := by
  intro g s hg
  refine (hm g s hg).andThen ?_
  rintro g' s' a ⟨hg', hheap, ha⟩
  refine (hf a ha g' s' hg').mono ?_
  rintro g'' r ⟨s'', b, hr, hg'', hheap', hb⟩
  exact ⟨s'', b, hr, hg'', hheap'.trans hheap, hb⟩

theorem configures_disposPtr (hI : SetUpKeeps next I) (b : Block) :
    Configures E next I (disposPtr b) fun _ => True := configures_ask hI (.disposPtr b.ptr) rfl

theorem configures_freshPtr : Configures E next I freshPtr fun _ => True :=
  fun _ s hg _ => ⟨{ s with nextPtr := s.nextPtr + 1 }, s.nextPtr, rfl, hg, rfl, trivial⟩

theorem configures_newBufferList (hI : SetUpKeeps next I) :
    Configures E next I newBufferList fun _ => True :=
  configures_freshPtr.andThen fun p _ =>
    (configures_ask hI (.newBufferList p) rfl).andThen fun _ _ => configures_pure trivial

theorem configures_sslSetTimerCallback (hI : SetUpKeeps next I) (i f : UInt32) :
    Configures E next I (sslSetTimerCallback i f) fun _ => True := by
  unfold sslSetTimerCallback
  split
  · exact configures_modify fun _ => rfl
  · exact (configures_ask hI .getGlobalTime rfl).andThen fun _ _ =>
      configures_modify fun _ => rfl

theorem configures_runTimerCalls (hI : SetUpKeeps next I) (ts : TimerCalls) :
    Configures E next I (runTimerCalls ts) fun _ => True := by
  induction ts with
  | nil => exact configures_pure trivial
  | cons t ts ih => exact (configures_sslSetTimerCallback hI t.1 t.2).andThen fun _ _ => ih

theorem configures_passHostname (hI : SetUpKeeps next I) (h : Option Block) :
    Configures E next I (passHostname h) fun _ => True := by
  cases h with
  | none => exact configures_pure trivial
  | some h =>
    refine (configures_ask hI (.mbedtlsSslSetHostname h.bytes) rfl).andThen fun _ _ => ?_
    exact (configures_disposPtr hI h).andThen fun _ _ => configures_modify fun _ => rfl

/-- From `mbedtls_ssl_config_defaults` on nothing fails. -/
theorem configures_setUpSSL (hI : SetUpKeeps next I) :
    Configures E next I setUpSSL fun r => r = 0 := by
  have hask := fun q hq => configures_ask (E := E) hI q hq
  refine configures_get.andThen fun s _ => ?_
  refine (hask .mbedtlsSslConfigDefaults rfl).andThen fun _ _ => ?_
  refine (hask .mbedtlsSslConfRng rfl).andThen fun _ _ => ?_
  refine (hask (.mbedtlsSslConfCaChain s.mSSLCAChain) rfl).andThen fun _ _ => ?_
  refine (hask (.mbedtlsSslConfAuthmode s.mSSLAuthMode) rfl).andThen fun _ _ => ?_
  refine (hask .mbedtlsSslSetup rfl).andThen fun _ _ => ?_
  refine (hask .mbedtlsSslSetBio rfl).andThen fun _ _ => ?_
  refine (hask .mbedtlsSslSetTimerCb rfl).andThen fun ts _ => ?_
  refine (configures_runTimerCalls hI ts).andThen fun _ _ => ?_
  refine (configures_passHostname hI s.mSSLHostname).andThen fun _ _ => ?_
  -- the message and the three lists
  refine configures_freshPtr.andThen fun msg _ => ?_
  refine (hask (.newAsyncMessage msg) rfl).andThen fun _ _ => ?_
  refine (configures_newBufferList hI).andThen fun _ _ => ?_
  refine (configures_newBufferList hI).andThen fun _ _ => ?_
  refine (configures_newBufferList hI).andThen fun _ _ => ?_
  refine (configures_modify ?_).andThen fun _ _ => ?_
  · intro s
    rfl
  · exact (hask .sslConfigured rfl).andThen fun _ _ => configures_pure rfl

/-- The sum after a question has been asked, as the `n`-th of what happens. -/
def asked (E : Environment CESig ConnectionEnd) (next : G → Happening CESig → G) (n : ℕ)
    (q : Query) (g : G) : G := next g (.asked q (E.answer n q))

/-- The heap is made, or it is not. -/
theorem leads_newVMHeap {Q : G → Ending CESig ConnectionEnd Int → Prop}
    (hmade : ∀ n heap, (E.answer n Query.newVMHeap : Int × ℕ) = (0, heap) →
      Q (asked E next n .newVMHeap g) (.done { s with mRootCertificatesHeap := some heap } 0))
    (hfailed : ∀ n r, r ≠ 0 → (E.answer n Query.newVMHeap : Int × ℕ).1 = r →
      Q (asked E next n .newVMHeap g) (.done s r)) :
    newVMHeap.Leads E next Q g s := by
  refine Code.leads_ask_bind fun n => ?_
  split
  · rename_i hzero
    have hanswer : (E.answer n Query.newVMHeap : Int × ℕ) =
        (0, (E.answer n Query.newVMHeap : Int × ℕ).2) := Prod.ext hzero rfl
    refine Code.leads_modify_bind (Code.leads_pure ?_)
    rw [hzero]
    exact hmade n _ hanswer
  · rename_i hzero
    exact Code.leads_pure (hfailed n _ hzero rfl)

/-! ## The loop over the names -/

/-- What `GetRootCertificate` gives back. -/
def lookup (E : Environment CESig ConnectionEnd) (n : ℕ) (name : List Byte) (ioSize : ℕ) :
    CertAnswer := E.answer n (Query.getRootCertificate name ioSize)

/-- What a round passes to the parser. -/
def certBytes (cert : Block) (size : ℕ) (copied : Option (List Byte)) : List Byte :=
  (blockAfter cert copied).bytes.take (sizeAfter size copied)

/-- What a round of the loop does to `I`, which speaks of the bytes from `name` to `bufEnd`, the
block and its size; and how the loop may end. -/
structure Rounds (E : Environment CESig ConnectionEnd) (next : G → Happening CESig → G)
    (I : List Byte → Block → ℕ → G → ConnectionEnd → Prop)
    (Q : G → Ending CESig ConnectionEnd Block → Prop) : Prop where
  finished : ∀ {cert size g s}, I [] cert size g s → Q g (.done s cert)
  tired : ∀ {names cert size g s}, I names cert size g s → Q g (.halt s Fault.outOfFuel)
  unterminated : ∀ {names cert size g s}, I names cert size g s → names ≠ [] →
    splitName names = none → Q g (.halt s Fault.overread)
  skipped : ∀ {names name rest cert size g s} n, I names cert size g s →
    splitName names = some (name, rest) → (lookup E n name size).result < 0 →
    I rest (blockAfter cert (lookup E n name size).copied) size
      (asked E next n (.getRootCertificate name size) g) s
  grown : ∀ {names name rest cert size g s} n m k, I names cert size g s →
    splitName names = some (name, rest) → 0 ≤ (lookup E n name size).result →
    sizeAfter size (lookup E n name size).copied < (lookup E n name size).result.toNat →
    I names ⟨s.nextPtr, List.replicate (lookup E n name size).result.toNat 0⟩
      (lookup E n name size).result.toNat
      (asked E next k (.newPtr s.nextPtr (lookup E n name size).result.toNat)
        (asked E next m (.disposPtr cert.ptr)
          (asked E next n (.getRootCertificate name size) g)))
      { s with nextPtr := s.nextPtr + 1 }
  parsed : ∀ {names name rest cert size g s} n m result added, I names cert size g s →
    splitName names = some (name, rest) → 0 ≤ (lookup E n name size).result →
    (lookup E n name size).result.toNat ≤ sizeAfter size (lookup E n name size).copied →
    E.answer m (Query.mbedtlsX509CrtParse (certBytes cert size (lookup E n name size).copied)) =
      ParseAnswer.parsed result added →
    I rest (blockAfter cert (lookup E n name size).copied) size
      (asked E next m (.mbedtlsX509CrtParse (certBytes cert size (lookup E n name size).copied))
        (asked E next n (.getRootCertificate name size) g))
      { s with mSSLCAChain := s.mSSLCAChain ++ added }
  raised : ∀ {names name rest cert size g s} n m, I names cert size g s →
    splitName names = some (name, rest) → 0 ≤ (lookup E n name size).result →
    (lookup E n name size).result.toNat ≤ sizeAfter size (lookup E n name size).copied →
    E.answer m (Query.mbedtlsX509CrtParse (certBytes cert size (lookup E n name size).copied)) =
      ParseAnswer.exception →
    Q (asked E next m (.mbedtlsX509CrtParse (certBytes cert size (lookup E n name size).copied))
      (asked E next n (.getRootCertificate name size) g)) (.raise s)

theorem leads_newPtr {size : ℕ} {Q : G → Ending CESig ConnectionEnd Block → Prop}
    (h : ∀ n, Q (asked E next n (.newPtr s.nextPtr size) g)
      (.done { s with nextPtr := s.nextPtr + 1 } ⟨s.nextPtr, List.replicate size 0⟩)) :
    (newPtr size).Leads E next Q g s := fun n => h n

/-- The block stays where it is. -/
@[simp] theorem blockAfter_ptr (cert : Block) (copied : Option (List Byte)) :
    (blockAfter cert copied).ptr = cert.ptr := by
  cases copied <;> rfl

/-- The parser ends with a result, or raises an exception. -/
theorem leads_crtParse {buf : List Byte} {Q : G → Ending CESig ConnectionEnd Int → Prop}
    (hparsed : ∀ n result added,
      E.answer n (Query.mbedtlsX509CrtParse buf) = ParseAnswer.parsed result added →
      Q (asked E next n (.mbedtlsX509CrtParse buf) g)
        (.done { s with mSSLCAChain := s.mSSLCAChain ++ added } result))
    (hraised : ∀ n, E.answer n (Query.mbedtlsX509CrtParse buf) = ParseAnswer.exception →
      Q (asked E next n (.mbedtlsX509CrtParse buf) g) (.raise s)) :
    (mbedtlsX509CrtParse buf).Leads E next Q g s := by
  refine Code.leads_ask_bind fun n => ?_
  cases hanswer : E.answer n (Query.mbedtlsX509CrtParse buf) with
  | parsed result added =>
    have h := hparsed n result added hanswer
    rw [asked, hanswer] at h
    exact Code.leads_modify_bind (Code.leads_pure h)
  | exception =>
    have h := hraised n hanswer
    rw [asked, hanswer] at h
    exact Code.leads_raise h

/-- **A round.**  The name at the front is looked up: the lookup fails, or the block is too small
and the name comes again, or the certificate is parsed, which may raise an exception. -/
theorem leads_loadNames_round {Q : G → Ending CESig ConnectionEnd Block → Prop} {fuel size : ℕ}
    {names name rest : List Byte} {cert : Block} (hsplit : splitName names = some (name, rest))
    (hskipped : ∀ n, (lookup E n name size).result < 0 →
      (loadNames fuel rest (blockAfter cert (lookup E n name size).copied) size).Leads E next Q
        (asked E next n (.getRootCertificate name size) g) s)
    (hgrown : ∀ n m k, 0 ≤ (lookup E n name size).result →
      sizeAfter size (lookup E n name size).copied < (lookup E n name size).result.toNat →
      (loadNames fuel names
          ⟨s.nextPtr, List.replicate (lookup E n name size).result.toNat 0⟩
          (lookup E n name size).result.toNat).Leads E next Q
        (asked E next k (.newPtr s.nextPtr (lookup E n name size).result.toNat)
          (asked E next m (.disposPtr cert.ptr)
            (asked E next n (.getRootCertificate name size) g)))
        { s with nextPtr := s.nextPtr + 1 })
    (hparsed : ∀ n m result added, 0 ≤ (lookup E n name size).result →
      (lookup E n name size).result.toNat ≤ sizeAfter size (lookup E n name size).copied →
      E.answer m (Query.mbedtlsX509CrtParse (certBytes cert size (lookup E n name size).copied)) =
        ParseAnswer.parsed result added →
      (loadNames fuel rest (blockAfter cert (lookup E n name size).copied) size).Leads E next Q
        (asked E next m
          (.mbedtlsX509CrtParse (certBytes cert size (lookup E n name size).copied))
          (asked E next n (.getRootCertificate name size) g))
        { s with mSSLCAChain := s.mSSLCAChain ++ added })
    (hraised : ∀ n m, 0 ≤ (lookup E n name size).result →
      (lookup E n name size).result.toNat ≤ sizeAfter size (lookup E n name size).copied →
      E.answer m (Query.mbedtlsX509CrtParse (certBytes cert size (lookup E n name size).copied)) =
        ParseAnswer.exception →
      Q (asked E next m (.mbedtlsX509CrtParse (certBytes cert size (lookup E n name size).copied))
        (asked E next n (.getRootCertificate name size) g)) (.raise s)) :
    (loadNames (fuel + 1) names cert size).Leads E next Q g s := by
  cases names with
  | nil => cases hsplit
  | cons c names =>
    rw [loadNames, hsplit]
    refine Code.leads_ask_bind fun n => ?_
    show (if 0 ≤ (lookup E n name size).result then _ else _ : CE Block).Leads E next Q _ s
    split
    · rename_i hok
      split
      · -- the block is too small, and the name comes again
        rename_i hsmall
        refine Code.leads_ask_bind fun m => Code.leads_bind (leads_newPtr fun k => ?_)
        have hagain := hgrown n m k hok hsmall
        rw [← blockAfter_ptr cert (lookup E n name size).copied] at hagain
        exact hagain
      · rename_i hfits
        -- the certificate is parsed, and the next name follows
        refine Code.leads_bind (leads_crtParse ?_ ?_)
        · exact fun m result added hanswer => hparsed n m result added hok (not_lt.mp hfits) hanswer
        · exact fun m hanswer => hraised n m hok (not_lt.mp hfits) hanswer
    · rename_i hfailed
      exact hskipped n (not_le.mp hfailed)

/-- **The loop.**  What every way of a round keeps, the loop keeps. -/
theorem Rounds.leads_loadNames {I : List Byte → Block → ℕ → G → ConnectionEnd → Prop}
    {Q : G → Ending CESig ConnectionEnd Block → Prop} (h : Rounds E next I Q) (fuel : ℕ) :
    ∀ {names cert size g s}, I names cert size g s →
      (loadNames fuel names cert size).Leads E next Q g s := by
  induction fuel with
  | zero =>
    intro names cert size g s hI
    cases names with
    | nil => exact Code.leads_pure (h.finished hI)
    | cons c names => exact Code.leads_halt (h.tired hI)
  | succ fuel ih =>
    intro names cert size g s hI
    cases names with
    | nil => exact Code.leads_pure (h.finished hI)
    | cons c names =>
      cases hsplit : splitName (c :: names) with
      | none =>
        rw [loadNames, hsplit]
        exact Code.leads_halt (h.unterminated hI (List.cons_ne_nil c names) hsplit)
      | some p =>
        obtain ⟨name, rest⟩ := p
        refine leads_loadNames_round hsplit ?_ ?_ ?_ ?_
        · exact fun n hfailed => ih (h.skipped n hI hsplit hfailed)
        · exact fun n m k hok hsmall => ih (h.grown n m k hI hsplit hok hsmall)
        · exact fun n m result added hok hfits hanswer =>
            ih (h.parsed n m result added hI hsplit hok hfits hanswer)
        · exact fun n m hok hfits hanswer => h.raised n m hI hsplit hok hfits hanswer

/-! ## The region -/

/-- What `ListRootCertificates` gives back. -/
def listed (E : Environment CESig ConnectionEnd) (n : ℕ) (ioSize : Option ℕ) : ListAnswer :=
  E.answer n (Query.listRootCertificates ioSize)

/-- What the loop must end in for the list and the last block to be released and for the region
to end in `Q`. -/
def released (E : Environment CESig ConnectionEnd) (next : G → Happening CESig → G)
    (Q : G → Ending CESig ConnectionEnd (Option Int) → Prop) (list : ℕ) (g : G) :
    Ending CESig ConnectionEnd Block → Prop
  | .done s cert => ∀ n m,
      Q (asked E next m (.disposPtr list) (asked E next n (.disposPtr cert.ptr) g)) (.done s none)
  | .raise s => Q g (.raise s)
  | .halt s w => Q g (.halt s w)

/-- After a loop that ends with a value. -/
theorem released_whenDone {P : G → ConnectionEnd → Block → Prop}
    {P' : G → ConnectionEnd → Option Int → Prop} {list : ℕ} {r : Ending CESig ConnectionEnd Block}
    (h : WhenDone P g r) (hP : ∀ s cert n m, P g s cert →
      P' (asked E next m (.disposPtr list) (asked E next n (.disposPtr cert.ptr) g)) s none) :
    released E next (WhenDone P') list g r := by
  rcases r with ⟨s', cert⟩ | s' | ⟨s', w⟩
  · exact fun n m => whenDone_done (hP s' cert n m (h s' cert rfl))
  · exact whenDone_raise
  · exact whenDone_halt

section region

variable {fuel : ℕ} {Q : G → Ending CESig ConnectionEnd (Option Int) → Prop}

/-- The list is made in two steps, each of which may fail, and gone through. -/
theorem leads_loadListed
    (hfirst : ∀ n, (listed E n none).result < 0 →
      Q (asked E next n (.listRootCertificates none) g) (.done s (some (listed E n none).result)))
    (hsecond : ∀ n m k j size, 0 ≤ (listed E n none).result →
      size = (listed E n none).result.toNat → (listed E k (some size)).result < 0 →
      Q (asked E next j (.disposPtr s.nextPtr)
          (asked E next k (.listRootCertificates (some size))
            (asked E next m (.newPtr s.nextPtr size)
              (asked E next n (.listRootCertificates none) g))))
        (.done { s with nextPtr := s.nextPtr + 1 } (some (listed E k (some size)).result)))
    (hloop : ∀ n m k j size, 0 ≤ (listed E n none).result →
      size = (listed E n none).result.toNat → 0 ≤ (listed E k (some size)).result →
      (loadNames fuel (listed E k (some size)).written ⟨s.nextPtr + 1, []⟩ 0).Leads E next
        (released E next Q s.nextPtr)
        (asked E next j (.newPtr (s.nextPtr + 1) 0)
          (asked E next k (.listRootCertificates (some size))
            (asked E next m (.newPtr s.nextPtr size)
              (asked E next n (.listRootCertificates none) g))))
        { s with nextPtr := s.nextPtr + 2 }) :
    (loadListed fuel).Leads E next Q g s := by
  refine Code.leads_ask_bind fun n => ?_
  show (if (listed E n none).result < 0 then _ else _ : CE (Option Int)).Leads E next Q _ s
  split
  · rename_i hfailed
    exact Code.leads_pure (hfirst n hfailed)
  · rename_i hok
    refine Code.leads_bind (leads_newPtr fun m => Code.leads_ask_bind fun k => ?_)
    show (if (listed E k (some (listed E n none).result.toNat)).result < 0 then _ else _ :
      CE (Option Int)).Leads E next Q _ _
    split
    · rename_i hfailed
      -- an early return of the source releases the list only
      refine Code.leads_ask_bind fun j => Code.leads_pure ?_
      exact hsecond n m k j _ (not_lt.mp hok) rfl hfailed
    · rename_i hok'
      refine Code.leads_bind (leads_newPtr fun j => ?_)
      refine Code.leads_bind ((hloop n m k j _ (not_lt.mp hok) rfl (not_lt.mp hok')).mono ?_)
      intro g' r hr
      cases r with
      | done s' cert =>
        exact Code.leads_ask_bind fun i => Code.leads_ask_bind fun i' => Code.leads_pure (hr i i')
      | raise s' => exact hr
      | halt s' w => exact hr

/-- What the list must end in for the region to end in `Q`: a `return` does not restore the heap,
the end of the region and an exception do. -/
def restored (Q : G → Ending CESig ConnectionEnd (Option Int) → Prop) (callerHeap : HeapRef)
    (g : G) : Ending CESig ConnectionEnd (Option Int) → Prop
  | .done s (some r) => Q g (.done s (some r))
  | .done s none => Q g (.done { s with currentHeap := callerHeap } none)
  | .raise s => Q g (.raise { s with currentHeap := callerHeap })
  | .halt s w => Q g (.halt s w)

/-- After a list that ends with a value. -/
theorem restored_whenDone {P P' : G → ConnectionEnd → Option Int → Prop} {callerHeap : HeapRef}
    {r : Ending CESig ConnectionEnd (Option Int)} (h : WhenDone P g r)
    (hearly : ∀ s r, P g s (some r) → P' g s (some r))
    (hend : ∀ s, P g s none → P' g { s with currentHeap := callerHeap } none) :
    restored (WhenDone P') callerHeap g r := by
  rcases r with ⟨s', _ | r⟩ | s' | ⟨s', w⟩
  · exact whenDone_done (hend s' (h s' none rfl))
  · exact whenDone_done (hearly s' r (h s' (some r) rfl))
  · exact whenDone_raise
  · exact whenDone_halt

/-- The region, in the heap for the root certificates. -/
theorem leads_loadInHeap
    (h : (loadListed fuel).Leads E next (restored Q s.currentHeap) g
      { s with currentHeap := s.mRootCertificatesHeap }) :
    (loadInHeap fuel).Leads E next Q g s := by
  refine Code.leads_get_bind (Code.leads_modify_bind (Code.leads_bind ?_))
  refine Code.Leads.onRaise h ?_ ?_ ?_
  · intro g' s' early hr
    cases early with
    | none => exact Code.leads_modify_bind (Code.leads_pure hr)
    | some r => exact Code.leads_pure hr
  · exact fun _ _ hr => Code.leads_modify hr
  · exact fun _ _ _ hr => hr

/-- The heap for the root certificates is there, is made, or cannot be made. -/
theorem leads_loadRootCertificates
    (hheld : s.mRootCertificatesHeap ≠ none → (loadInHeap fuel).Leads E next Q g s)
    (hmade : ∀ n heap, s.mRootCertificatesHeap = none →
      (E.answer n Query.newVMHeap : Int × ℕ) = (0, heap) →
      (loadInHeap fuel).Leads E next Q (asked E next n .newVMHeap g)
        { s with mRootCertificatesHeap := some heap })
    (hnone : ∀ n, s.mRootCertificatesHeap = none →
      (E.answer n Query.newVMHeap : Int × ℕ).1 ≠ 0 →
      (loadInHeap fuel).Leads E next Q (asked E next n .newVMHeap g) s) :
    (loadRootCertificates fuel).Leads E next Q g s := by
  refine Code.leads_get_bind ?_
  split
  · rename_i hheap
    refine Code.leads_bind (leads_newVMHeap ?_ ?_)
    · exact fun n heap hanswer => hmade n heap hheap hanswer
    · rintro n r hr hanswer
      exact hnone n hheap (hanswer.trans_ne hr)
  · rename_i hheap
    exact hheld hheap

end region

/-! ## `SSLConfigure` -/

/-- What the loading must end in for `SSLConfigure` to end in `Q`. -/
def configured (E : Environment CESig ConnectionEnd) (next : G → Happening CESig → G)
    (Q : G → Ending CESig ConnectionEnd Int → Prop) (g : G) :
    Ending CESig ConnectionEnd (Option Int) → Prop
  | .done s (some r) => Q g (.done s r)
  | .done s none => setUpSSL.Leads E next Q g s
  | .raise s => Q g (.raise s)
  | .halt s w => Q g (.halt s w)

/-- After a loading that ends with a value. -/
theorem configured_whenDone {P : G → ConnectionEnd → Option Int → Prop}
    {P' : G → ConnectionEnd → Int → Prop} {r : Ending CESig ConnectionEnd (Option Int)}
    (h : WhenDone P g r) (hearly : ∀ s r, P g s (some r) → P' g s r)
    (hend : ∀ s, P g s none → setUpSSL.Leads E next (WhenDone P') g s) :
    configured E next (WhenDone P') g r := by
  rcases r with ⟨s', _ | r⟩ | s' | ⟨s', w⟩
  · exact hend s' (h s' none rfl)
  · exact whenDone_done (hearly s' r (h s' (some r) rfl))
  · exact whenDone_raise
  · exact whenDone_halt

/-- The generator is seeded, which may fail, the roots are loaded if they are wanted, and the
rest is set up. -/
theorem leads_sslConfigure {fuel : ℕ} {Q : G → Ending CESig ConnectionEnd Int → Prop}
    (hask : ∀ n q g, q.seeds = true → I g → I (asked E next n q g)) (hg : I g)
    (hseed : ∀ g' n custom (r : Int), I g' → E.answer n (Query.mbedtlsCtrDrbgSeed custom) = r →
      r ≠ 0 → Q g' (.done s r))
    (hload : s.mSSLLoadRootCertificates = true → ∀ g', I g' →
      (loadRootCertificates fuel).Leads E next (configured E next Q) g' s)
    (hset : s.mSSLLoadRootCertificates = false → ∀ g', I g' → setUpSSL.Leads E next Q g' s) :
    (sslConfigure fuel).Leads E next Q g s := by
  refine Code.leads_ask_bind fun n₁ => Code.leads_ask_bind fun n₂ => ?_
  refine Code.leads_ask_bind fun n₃ => Code.leads_ask_bind fun n₄ => ?_
  have hg' := hask n₄ (.mbedtlsCtrDrbgSeed (E.answer n₃ Query.getSerialNumber)) _ rfl
    (hask n₃ .getSerialNumber _ rfl (hask n₂ .mbedtlsEntropyAddSource _ rfl
      (hask n₁ .getConnectionEndPort g rfl hg)))
  split
  · rename_i hfailed
    exact Code.leads_pure (hseed _ n₄ _ _ hg' rfl hfailed)
  · have hrest : ∀ g' r, configured E next Q g' r →
        Code.thenLeads E next Q (fun early => early.elim setUpSSL pure) g' r := by
      rintro g' (⟨s', _ | r⟩ | s' | ⟨s', w⟩) hr
      · exact hr
      · exact Code.leads_pure hr
      · exact hr
      · exact hr
    refine Code.leads_get_bind ?_
    split
    · rename_i hwanted
      exact Code.leads_bind ((hload hwanted _ hg').mono hrest)
    · rename_i hwanted
      exact Code.leads_bind (Code.leads_pure (hset (Bool.eq_false_iff.mpr hwanted) _ hg'))

/-- The questions that seed the generator are some of those that set up. -/
theorem SetUpKeeps.seeds (hI : SetUpKeeps next I) (n : ℕ) (q : Query) (g : G)
    (hq : q.seeds = true) (hg : I g) : I (asked E next n q g) := by
  refine hI g q _ ?_ hg
  cases q <;> first | rfl | cases hq

/-- What is kept by the questions that set up. -/
theorem SetUpKeeps.leads_setUpSSL {Q : G → Ending CESig ConnectionEnd Int → Prop}
    (hI : SetUpKeeps next I) (hg : I g)
    (hend : ∀ g' s', I g' → s'.currentHeap = s.currentHeap → Q g' (.done s' 0)) :
    setUpSSL.Leads E next Q g s := by
  refine (configures_setUpSSL hI g s hg).mono ?_
  rintro g' r ⟨s', a, rfl, hg', hheap, rfl⟩
  exact hend g' s' hg' hheap

/-! ## What holds all along -/

/-- `I` holds at the end, and the body has not stopped for a reason outside of `W`. -/
def Kept (I : G → Prop) (W : Fault → Prop) (g : G) (r : Ending CESig ConnectionEnd α) : Prop :=
  I g ∧ ∀ s w, r = .halt s w → W w

theorem kept_done {W : Fault → Prop} {a : α} (hg : I g) : Kept I W g (.done s a) :=
  ⟨hg, by rintro s' w ⟨⟩⟩

theorem kept_raise {W : Fault → Prop} (hg : I g) :
    Kept I W g (.raise s : Ending CESig ConnectionEnd α) :=
  ⟨hg, by rintro s' w ⟨⟩⟩

theorem kept_halt {W : Fault → Prop} {w : Fault} (hg : I g) (hw : W w) :
    Kept I W g (.halt s w : Ending CESig ConnectionEnd α) := by
  refine ⟨hg, ?_⟩
  rintro s' w' ⟨⟩
  exact hw

/-- What the loop keeps, and the questions outside of it keep, `SSLConfigure` keeps. -/
theorem leads_sslConfigure_kept {fuel : ℕ} {W : Fault → Prop} (hI : SetUpKeeps next I)
    (hlist : ∀ n ioSize g, I g → I (asked E next n (.listRootCertificates ioSize) g))
    (hnew : ∀ n p size g, I g → I (asked E next n (.newPtr p size) g))
    (hloop : ∀ n k p g s, I g → 0 ≤ (listed E n none).result →
      (loadNames fuel (listed E k (some (listed E n none).result.toNat)).written ⟨p, []⟩ 0).Leads
        E next (Kept I W) g s) (hg : I g) :
    (sslConfigure fuel).Leads E next (Kept I W) g s := by
  have hdispos : ∀ n p g, I g → I (asked E next n (.disposPtr p) g) := fun n p g hg =>
    hI g (.disposPtr p) _ rfl hg
  -- from the inside out: the region, the heap it runs in, and what comes after
  have hlisted : ∀ g s, I g → (loadListed fuel).Leads E next (Kept I W) g s := by
    intro g s hg
    refine leads_loadListed ?_ ?_ ?_
    · exact fun n _ => kept_done (hlist n _ g hg)
    · intro n m k j size _ _ _
      exact kept_done (hdispos j _ _ (hlist k _ _ (hnew m _ _ _ (hlist n _ g hg))))
    · rintro n m k j size hok rfl -
      refine (hloop n k _ _ _ (hnew j _ _ _ (hlist k _ _ (hnew m _ _ _ (hlist n _ g hg)))) hok).mono
        ?_
      rintro g' (⟨s', cert⟩ | s' | ⟨s', w⟩) ⟨hg', hw⟩
      · exact fun i i' => kept_done (hdispos i' _ _ (hdispos i _ _ hg'))
      · exact kept_raise hg'
      · exact kept_halt hg' (hw s' w rfl)
  have hregion : ∀ g s, I g → (loadInHeap fuel).Leads E next (Kept I W) g s := by
    intro g s hg
    refine leads_loadInHeap ((hlisted g _ hg).mono ?_)
    rintro g' (⟨s', _ | r⟩ | s' | ⟨s', w⟩) ⟨hg', hw⟩
    · exact kept_done hg'
    · exact kept_done hg'
    · exact kept_raise hg'
    · exact kept_halt hg' (hw s' w rfl)
  have hset : ∀ g s, I g → setUpSSL.Leads E next (Kept I W) g s := fun g s hg =>
    hI.leads_setUpSSL hg fun _ _ hg' _ => kept_done hg'
  refine leads_sslConfigure hI.seeds hg ?_ ?_ fun _ g' hg' => hset g' s hg'
  · exact fun g' n custom r hg' _ _ => kept_done hg'
  · intro _ g' hg'
    have hnewHeap : ∀ n, I (asked E next n .newVMHeap g') := fun n => hI g' .newVMHeap _ rfl hg'
    refine Code.Leads.mono (leads_loadRootCertificates (Q := Kept I W) (fun _ => hregion g' s hg')
      (fun n heap _ _ => hregion _ _ (hnewHeap n)) fun n _ _ => hregion _ s (hnewHeap n)) ?_
    rintro g'' (⟨s', _ | r⟩ | s' | ⟨s', w⟩) ⟨hg'', hw⟩
    · exact hset g'' s' hg''
    · exact kept_done hg''
    · exact kept_raise hg''
    · exact kept_halt hg'' (hw s' w rfl)

end rules

end LoadingRules

end NewtonTLS
