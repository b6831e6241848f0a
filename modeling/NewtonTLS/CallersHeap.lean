/-
# The heap of the caller

Certificates are loaded in a heap of their own, which is the current one meanwhile.  The option for
a certificate authority always gives the heap of its caller back, and makes no block.
`SSLConfigure` does not when the store cannot be listed, for then a `return` leaves the protected
region without its `on_unwind` part; and when the parser raises an exception the heap is given back
but the list and the block for a certificate are not released.  These are the only ways
(`caller_heap_restored_iff`).
-/
import NewtonTLS.LoadingRules
import NewtonTLS.ConnectionEndRuns

open Reentrant

namespace NewtonTLS

namespace CallersHeap

open LoadingRules

/-! ## The account -/

/-- What there has been so far: the blocks that have not been released, the heap for the root
certificates, whether the store could not be listed, and whether the parser has raised an
exception. -/
structure Account : Type where
  blocks : List ℕ
  rootHeap : HeapRef
  unlisted : Bool
  raised : Bool
  deriving DecidableEq

/-- The heap for the root certificates after a call to `NewVMHeap`. -/
def heapAfter (h : HeapRef) (a : Int × ℕ) : HeapRef := if a.1 = 0 then some a.2 else h

/-- The listing has failed. -/
def ListAnswer.failed (a : ListAnswer) : Bool := decide (a.result < 0)

/-- The parser has raised an exception. -/
def ParseAnswer.isException : ParseAnswer → Bool
  | .exception => true
  | .parsed _ _ => false

/-- What a happening changes: blocks that are allocated and disposed of, the current heap, and how
the calls end. -/
def account (g : Account) : Happening CESig → Account
  | .asked (.newPtr p _) _ => { g with blocks := p :: g.blocks }
  | .asked (.disposPtr p) _ => { g with blocks := g.blocks.filter (· ≠ p) }
  | .asked .newVMHeap a => { g with rootHeap := heapAfter g.rootHeap a }
  | .asked (.listRootCertificates _) a => { g with unlisted := g.unlisted || ListAnswer.failed a }
  | .asked (.mbedtlsX509CrtParse _) a => { g with raised := g.raised || ParseAnswer.isException a }
  | _ => g

/-- Nothing has happened yet. -/
def Account.start (s : ConnectionEnd) : Account := ⟨[], s.mRootCertificatesHeap, false, false⟩

/-- The state in which a body is left, with a value or with an exception. -/
def exit {α : Type} : Ending CESig ConnectionEnd α → Option ConnectionEnd
  | .done s _ => some s
  | .raise s => some s
  | .halt _ _ => none

/-- The heap is that of the caller, and no block is left. -/
def Restored (s : ConnectionEnd) (g : Account) (s' : ConnectionEnd) : Prop :=
  s'.currentHeap = s.currentHeap ∧ g.blocks = []

/-- The store could be listed, unless the heap of the caller is the one for the root certificates
anyway, and no exception has been raised. -/
def Undisturbed (s : ConnectionEnd) (g : Account) : Prop :=
  (g.unlisted = true → g.rootHeap = s.currentHeap) ∧ g.raised = false

/-! ## The loop -/

section configure

variable {E : Environment CESig ConnectionEnd} {fuel : ℕ} {s : ConnectionEnd} {h : HeapRef}

/-- The list and one block for a certificate, made later, are all there is. -/
def Loading (h : HeapRef) (list : ℕ) (cert : Block) (g : Account) (s : ConnectionEnd) : Prop :=
  g = ⟨[cert.ptr, list], h, false, false⟩ ∧ list < cert.ptr ∧ cert.ptr < s.nextPtr

/-- The block for a certificate goes, and the list stays. -/
theorem filter_cert {list p : ℕ} (hlist : list < p) : [p, list].filter (· ≠ p) = [list] := by
  rw [List.filter_cons_of_neg (by simp), List.filter_cons_of_pos (by simp [hlist.ne]),
    List.filter_nil]

/-- The list and a block for a certificate are left. -/
def Leaked (g : Account) : Prop := g.blocks ≠ [] ∧ g.raised = true

/-- How the loop ends. -/
def LoopEnds (h : HeapRef) (list : ℕ) (g : Account) : Ending CESig ConnectionEnd Block → Prop
  | .done s cert => Loading h list cert g s
  | .raise _ => Leaked g
  | .halt _ _ => True

/-- Every round of the loop has one block at most. -/
theorem rounds_account (h : HeapRef) (list : ℕ) :
    Rounds E account (fun _ cert _ g s => Loading h list cert g s) (LoopEnds h list) where
  finished := id
  tired := fun _ => trivial
  unterminated := fun _ _ _ => trivial
  skipped := by
    rintro names name rest cert size g s n ⟨rfl, hlist, hcert⟩ - -
    refine ⟨?_, ?_, ?_⟩
    · rw [blockAfter_ptr]
      rfl
    · rwa [blockAfter_ptr]
    · rwa [blockAfter_ptr]
  grown := by
    rintro names name rest cert size g s n m k ⟨rfl, hlist, hcert⟩ - - -
    refine ⟨?_, hlist.trans hcert, Nat.lt_succ_self _⟩
    -- the block for the name is replaced by the larger one, the list stays
    show Account.mk (s.nextPtr :: [cert.ptr, list].filter (· ≠ cert.ptr)) h false false = _
    rw [filter_cert hlist]
  parsed := by
    rintro names name rest cert size g s n m result added ⟨rfl, hlist, hcert⟩ - - - hanswer
    refine ⟨?_, ?_, ?_⟩
    · rw [asked, hanswer, blockAfter_ptr]
      rfl
    · rwa [blockAfter_ptr]
    · rwa [blockAfter_ptr]
  raised := by
    rintro names name rest cert size g s n m ⟨rfl, -, -⟩ - - - hanswer
    rw [asked, hanswer]
    exact ⟨List.cons_ne_nil _ _, rfl⟩

/-! ## The region -/

/-- How the region ends before the heap is given back. -/
def RegionEnds (h : HeapRef) (g : Account) : Ending CESig ConnectionEnd (Option Int) → Prop
  | .done s (some _) => g = ⟨[], h, true, false⟩ ∧ s.currentHeap = h
  | .done _ none => g = ⟨[], h, false, false⟩
  | .raise _ => Leaked g
  | .halt _ _ => True

theorem leads_loadListed_account (hheap : s.currentHeap = h) :
    (loadListed fuel).Leads E account (RegionEnds h) ⟨[], h, false, false⟩ s := by
  -- a listing that succeeds leaves the account alone, one that fails is noted
  have hlisted : ∀ n ioSize bs, 0 ≤ (listed E n ioSize).result →
      asked E account n (.listRootCertificates ioSize) ⟨bs, h, false, false⟩ =
        ⟨bs, h, false, false⟩ := by
    intro n ioSize bs hok
    show Account.mk bs h (false || decide ((listed E n ioSize).result < 0)) false = _
    rw [decide_eq_false (not_lt.mpr hok), Bool.false_or]
  have hfailed : ∀ n ioSize bs, (listed E n ioSize).result < 0 →
      asked E account n (.listRootCertificates ioSize) ⟨bs, h, false, false⟩ =
        ⟨bs, h, true, false⟩ := by
    intro n ioSize bs hfailed
    show Account.mk bs h (false || decide ((listed E n ioSize).result < 0)) false = _
    rw [decide_eq_true hfailed, Bool.false_or]
  have hreleased : ∀ p unlisted n, asked E account n (.disposPtr p) ⟨[p], h, unlisted, false⟩ =
      ⟨[], h, unlisted, false⟩ := by
    intro p unlisted n
    show Account.mk ([p].filter (· ≠ p)) h unlisted false = _
    rw [List.filter_cons_of_neg (by simp), List.filter_nil]
  refine leads_loadListed ?_ ?_ ?_
  · intro n hneg
    exact ⟨hfailed n none [] hneg, hheap⟩
  · rintro n m k j size hok rfl hneg
    refine ⟨?_, hheap⟩
    rw [hlisted n none [] hok]
    show asked E account j (.disposPtr s.nextPtr) (asked E account k _
      ⟨[s.nextPtr], h, false, false⟩) = _
    rw [hfailed k _ [s.nextPtr] hneg, hreleased]
  · rintro n m k j size hok rfl hok'
    rw [hlisted n none [] hok]
    show Code.Leads E account _ _ (asked E account j (.newPtr (s.nextPtr + 1) 0)
      (asked E account k _ ⟨[s.nextPtr], h, false, false⟩)) _
    rw [hlisted k _ [s.nextPtr] hok']
    have hloading : Loading h s.nextPtr ⟨s.nextPtr + 1, []⟩
        (asked E account j (.newPtr (s.nextPtr + 1) 0) ⟨[s.nextPtr], h, false, false⟩)
        { s with nextPtr := s.nextPtr + 2 } :=
      ⟨rfl, Nat.lt_succ_self _, Nat.lt_succ_self _⟩
    refine ((rounds_account h s.nextPtr).leads_loadNames fuel hloading).mono ?_
    rintro g' (⟨t, cert⟩ | t | ⟨t, w⟩) hend
    · -- both blocks are released
      rintro i i'
      obtain ⟨rfl, hlist, -⟩ := hend
      show asked E account i' (.disposPtr s.nextPtr)
        ⟨[cert.ptr, s.nextPtr].filter (· ≠ cert.ptr), h, false, false⟩ = _
      rw [filter_cert hlist, hreleased]
    · exact hend
    · trivial

/-- How the loading of the roots ends: with the heap of the caller unless it could not list
them. -/
def LoadingEnds (s : ConnectionEnd) (g : Account) :
    Ending CESig ConnectionEnd (Option Int) → Prop
  | .done t (some _) => Restored s g t ↔ Undisturbed s g
  | .done t none => Restored s g t ∧ g.unlisted = false ∧ g.raised = false
  | .raise _ => Leaked g
  | .halt _ _ => True

/-- The current heap is restored, unless the store could not be listed or the parser raised an
exception. -/
theorem leads_loadInHeap_account {t : ConnectionEnd} (hroot : t.mRootCertificatesHeap = h)
    (hcaller : t.currentHeap = s.currentHeap) :
    (loadInHeap fuel).Leads E account (LoadingEnds s) ⟨[], h, false, false⟩ t := by
  have hregion : (loadListed fuel).Leads E account (RegionEnds h) ⟨[], h, false, false⟩
      { t with currentHeap := t.mRootCertificatesHeap } := leads_loadListed_account hroot
  refine leads_loadInHeap (hregion.mono ?_)
  rintro g' (⟨t', _ | r⟩ | t' | ⟨t', w⟩) hend
  · obtain rfl : g' = _ := hend
    exact ⟨⟨hcaller, rfl⟩, rfl, rfl⟩
  · obtain ⟨rfl, hheap⟩ := hend
    constructor
    · rintro ⟨hrestored, -⟩
      exact ⟨fun _ => hheap.symm.trans hrestored, rfl⟩
    · rintro ⟨hsame, -⟩
      exact ⟨hheap.trans (hsame rfl), rfl⟩
  · exact hend
  · trivial

/-! ## The functions -/

/-- In the state a body is left in, the heap is that of the caller and no block is left, if and
only if nothing has disturbed the loading. -/
def RestoredIff {α : Type} (s : ConnectionEnd) (g : Account) (r : Ending CESig ConnectionEnd α) :
    Prop :=
  ∀ s', exit r = some s' → (Restored s g s' ↔ Undisturbed s g)

/-- After an exception of the parser a block is left. -/
theorem restoredIff_leaked {α : Type} {g : Account} {t : ConnectionEnd} (hg : Leaked g) :
    RestoredIff s g (.raise t : Ending CESig ConnectionEnd α) := by
  rintro s' -
  constructor
  · rintro ⟨-, hblocks⟩
    exact absurd hblocks hg.1
  · rintro ⟨-, hraised⟩
    rw [hg.2] at hraised
    cases hraised

/-- Nothing is left and nothing has disturbed. -/
def Clean (g : Account) : Prop := g.blocks = [] ∧ g.unlisted = false ∧ g.raised = false

/-- Setting the session up allocates nothing. -/
theorem setUpKeeps_clean : SetUpKeeps account Clean := by
  rintro g q a hq ⟨hblocks, hunlisted, hraised⟩
  cases q with
  | disposPtr p =>
    refine ⟨?_, hunlisted, hraised⟩
    show g.blocks.filter (· ≠ p) = []
    rw [hblocks, List.filter_nil]
  | newPtr p size => cases hq
  | listRootCertificates ioSize => cases hq
  | mbedtlsX509CrtParse buf => cases hq
  | _ => exact ⟨hblocks, hunlisted, hraised⟩

/-- The heap is restored and no block is left. -/
theorem restoredIff_clean {α : Type} {g : Account} {t : ConnectionEnd} {a : α} (hg : Clean g)
    (hheap : t.currentHeap = s.currentHeap) :
    RestoredIff s g (.done t a : Ending CESig ConnectionEnd α) := by
  rintro s' ⟨⟩
  obtain ⟨hblocks, hunlisted, hraised⟩ := hg
  refine iff_of_true ⟨hheap, hblocks⟩ ⟨?_, hraised⟩
  rw [hunlisted]
  rintro ⟨⟩

/-- Setting the session up is the last part. -/
theorem leads_setUpSSL_account {g : Account} {t : ConnectionEnd} (hg : Clean g)
    (hheap : t.currentHeap = s.currentHeap) : setUpSSL.Leads E account (RestoredIff s) g t :=
  setUpKeeps_clean.leads_setUpSSL hg fun _ _ hg' hsame =>
    restoredIff_clean hg' (hsame.trans hheap)

/-- The questions that seed the generator are not accounted for. -/
theorem asked_seeds {n : ℕ} {q : Query} {g : Account} (hq : q.seeds = true) :
    asked E account n q g = g := by
  cases q <;> first | rfl | cases hq

/-- The whole of `SSLConfigure`. -/
theorem leads_sslConfigure_account :
    (sslConfigure fuel).Leads E account (RestoredIff s) (.start s) s := by
  have hclean : Clean (.start s) := ⟨rfl, rfl, rfl⟩
  refine leads_sslConfigure (I := fun g => g = .start s) ?_ rfl ?_ ?_ ?_
  · rintro n q g hq rfl
    exact asked_seeds hq
  · rintro g' n custom r rfl - -
    exact restoredIff_clean hclean rfl
  · rintro - g' rfl
    refine Code.Leads.mono (leads_loadRootCertificates (Q := LoadingEnds s) ?_ ?_ ?_) ?_
    · exact fun _ => leads_loadInHeap_account rfl rfl
    · intro n heap _ hanswer
      have hmade : asked E account n .newVMHeap (.start s) = ⟨[], some heap, false, false⟩ := by
        rw [asked, hanswer]
        rfl
      rw [hmade]
      exact leads_loadInHeap_account rfl rfl
    · intro n hheap hfailed
      -- NewVMHeap has failed, and the region runs in the caller's heap
      have hsame : asked E account n .newVMHeap (.start s) = .start s := by
        show Account.mk [] (heapAfter _ _) false false = _
        rw [heapAfter, if_neg hfailed]
        rfl
      rw [hsame]
      exact leads_loadInHeap_account rfl rfl
    · rintro g'' (⟨t, _ | r⟩ | t | ⟨t, w⟩) hend
      · obtain ⟨⟨hheap, hblocks⟩, hunlisted, hraised⟩ := hend
        exact leads_setUpSSL_account ⟨hblocks, hunlisted, hraised⟩ hheap
      · rintro s' ⟨⟩
        exact hend
      · exact restoredIff_leaked hend
      · rintro s' ⟨⟩
  · rintro - g' rfl
    exact leads_setUpSSL_account hclean rfl

/-- In the state a body is left in, the heap is that of the caller and no block is left. -/
def RestoredAtEnd {α : Type} (s : ConnectionEnd) (g : Account) (r : Ending CESig ConnectionEnd α) :
    Prop :=
  ∀ s', exit r = some s' → Restored s g s'

/-- The option restores the heap on both ways out. -/
theorem leads_parseAuthority_account (o : TCMOSSLCertificate) {g : Account} {t : ConnectionEnd}
    (hblocks : g.blocks = []) (hcaller : t.currentHeap = s.currentHeap) :
    (parseAuthority o).Leads E account (RestoredAtEnd s) g t := by
  refine Code.leads_get_bind (Code.leads_modify_bind (Code.leads_bind ?_))
  have hparse : (mbedtlsX509CrtParse (o.certificate.take o.length.toNat)).Leads E account
      (fun g' _ => g'.blocks = []) g { t with currentHeap := t.mRootCertificatesHeap } :=
    leads_crtParse (fun _ _ _ _ => hblocks) fun _ _ => hblocks
  refine hparse.onRaise ?_ ?_ ?_
  · intro g' s' result hg'
    refine Code.leads_modify_bind ?_
    split
    · refine Code.leads_pure ?_
      rintro s'' ⟨⟩
      exact ⟨hcaller, hg'⟩
    · refine Code.leads_pure ?_
      rintro s'' ⟨⟩
      exact ⟨hcaller, hg'⟩
  · intro g' s' hg'
    refine Code.leads_modify ?_
    rintro s'' ⟨⟩
    exact ⟨hcaller, hg'⟩
  · rintro g' s' w - s'' ⟨⟩

/-- The option from its beginning. -/
theorem leads_sslCertificateAuthorityOption_account (o : TCMOSSLCertificate) :
    (sslCertificateAuthorityOption o).Leads E account (RestoredAtEnd s) (.start s) s := by
  refine Code.leads_modify_bind (Code.leads_get_bind ?_)
  split
  · refine Code.leads_bind (leads_newVMHeap ?_ ?_)
    · exact fun n heap _ => leads_parseAuthority_account o rfl rfl
    · intro n r hr _
      show (if r ≠ 0 then _ else _ : CE OptionResult).Leads E account _ _ _
      rw [if_pos hr]
      refine Code.leads_pure ?_
      rintro s' ⟨⟩
      exact ⟨rfl, rfl⟩
  · exact Code.leads_bind (Code.leads_pure (leads_parseAuthority_account o rfl rfl))

/-- `ProcessOptionStart` with the option. -/
theorem leads_certificateAuthority_account (o : TCMOSSLCertificate) :
    (processOptionStart fuel (.sslCertificateAuthority o)).Leads E account (RestoredAtEnd s)
      (.start s) s := by
  refine (leads_sslCertificateAuthorityOption_account o).bind ?_ ?_ ?_
  · intro g' s' r hend
    refine Code.leads_pure ?_
    rintro s'' ⟨⟩
    exact hend s' rfl
  · exact fun _ _ hend => hend
  · exact fun _ _ _ hend => hend

end configure

/-- **The heap of the caller.**  `SSLConfigure` gives it back and releases what it has made, if and
only if the store could be listed (or the heap was the one for the root certificates anyway) and no
exception was raised; the option for a certificate authority always does. -/
theorem caller_heap_restored_iff (s : ConnectionEnd) :
    (∀ E fuel n, (sslConfigure fuel).Drives E
        (fun l r => RestoredIff s (l.foldl account (.start s)) r) n s) ∧
      ∀ E o fuel n, (processOptionStart fuel (.sslCertificateAuthority o)).Drives E
        (fun l r => RestoredAtEnd s (l.foldl account (.start s)) r) n s :=
  ⟨fun _ _ n => leads_sslConfigure_account n, fun _ o _ n => leads_certificateAuthority_account o n⟩

/-- The store cannot be listed. -/
def unlistedAnswer : (q : Query) → q.Answer
  | .listRootCertificates _ => ListAnswer.mk (-1) []
  | q => plainAnswer q

/-- An environment in which every listing fails. -/
def unlisted : Environment CESig ConnectionEnd where
  answer := fun _ => unlistedAnswer
  result := fun _ c s => (results 0 (.error MBEDTLS_ERR_SSL_WANT_READ) c, s)

/-- The store cannot be listed, on a new connection end: the current heap is the one for the root
certificates when `SSLConfigure` has returned. -/
theorem not_caller_heap_restored : ¬ ∀ s E fuel n, (sslConfigure fuel).Drives E
    (fun l r => RestoredAtEnd s (l.foldl account (.start s)) r) n s := by
  intro hall
  have h := hall { new zeroMemory with currentHeap := some 1 } unlisted 0 0 _ rfl
  cases h.1

end CallersHeap

end NewtonTLS
