/-
# Failures of the store

What becomes of an exception that a call inside `ListRootCertificates` or `GetRootCertificate`
raises.  A store error of the cursor over the union soup is ignored, and the search goes on in the
package.  Any other exception ends the function, and with a negative result, unless it is one of
those whose datum is taken for the result and is not negative; `*ioSize` stays as it was
(`listing_failed`, `lookup_failed`).  `SSLConfigure` then fails, or goes on with the next name, and
passes to the parser only what the lookup in front of it has copied (`failures_reported`).
-/
import NewtonTLS.StoreCalls
import NewtonTLS.LoadingRules

open Raising Reentrant

namespace NewtonTLS

namespace StoreFailures

open EffectiveRoots StoreCalls LoadingRules

/-! ## The results -/

/-- `ListRootCertificates` returns the datum of an exception under `exFrames`, here a negative
one. -/
def ListTold (x : NewtonCall × NewtonException) : Prop := x.2.isFrames = true → x.2.data < 0

/-- `GetRootCertificate` returns the datum of an exception under `exFrames`, other than
`exInterpreterWithFrameData`, when it is not positive; here it is not 0. -/
def CertTold (x : NewtonCall × NewtonException) : Prop :=
  x.2.cls ≠ .interpreterWithFrameData → x.2.isFrames = true → x.2.data ≠ 0

section results

variable {faults : ℕ → Option NewtonException} {makeString : List Byte → List UniChar}
  {store : RootStore} {name : List Byte}

/-- `ListRootCertificates` ends with the listing, or with the result for its one exception. -/
theorem listing_ends (faults : ℕ → Option NewtonException) (store : RootStore) (outBuf : Bool)
    (ioSize : Option ℕ) :
    listRaised faults store outBuf ioSize = [] ∨
      ∃ i e, listRaised faults store outBuf ioSize = [(i, e)] ∧
        (listRootCertificatesCall faults store outBuf ioSize).result =
          (if e.isFrames then e.data else -1) ∧
        (listRootCertificatesCall faults store outBuf ioSize).ioSize = ioSize := by
  obtain ⟨raised, htrace, -, hends⟩ := computes_listBody store (ioSize.getD 0)
    ⟨⟨if outBuf then some 0 else none, [], 0⟩, ioSize⟩ faults Trace.start
  unfold listRaised listRootCertificatesCall
  dsimp only
  rcases hend : listBody store (ioSize.getD 0) faults Trace.start
    ⟨⟨if outBuf then some 0 else none, [], 0⟩, ioSize⟩ with ⟨e | a, t, s⟩ <;>
    rw [hend] at htrace hends <;> rw [htrace]
  · obtain ⟨⟨i, -, rfl⟩, hsize⟩ := hends
    exact .inr ⟨i, e, rfl, rfl, hsize⟩
  · exact .inl hends.1

/-- An exception in `ListRootCertificates`. -/
theorem listing_failed {outBuf : Bool} {ioSize : Option ℕ}
    (hraised : listRaised faults store outBuf ioSize ≠ [])
    (htold : ∀ x ∈ listRaised faults store outBuf ioSize, ListTold x) :
    (listRootCertificatesCall faults store outBuf ioSize).result < 0 ∧
      (listRootCertificatesCall faults store outBuf ioSize).ioSize = ioSize := by
  rcases listing_ends faults store outBuf ioSize with hnone | ⟨i, e, hone, hresult, hsize⟩
  · exact absurd hnone hraised
  · rw [hone] at htold
    have hdata : ListTold (i, e) := htold _ List.mem_cons_self
    refine ⟨?_, hsize⟩
    rw [hresult]
    split
    · rename_i hframes
      exact hdata hframes
    · exact neg_one_lt_zero

/-- What `ListRootCertificates` raises is in the schedule. -/
theorem listRaised_scheduled {outBuf : Bool} {ioSize : Option ℕ} :
    ∀ x ∈ listRaised faults store outBuf ioSize, ∃ k, faults k = some x.2 := by
  obtain ⟨raised, htrace, hscheduled, -⟩ := computes_listBody store (ioSize.getD 0)
    ⟨⟨if outBuf then some 0 else none, [], 0⟩, ioSize⟩ faults Trace.start
  intro x hx
  have hraised : listRaised faults store outBuf ioSize = raised := htrace
  rw [hraised] at hx
  exact hscheduled x hx

/-- What `GetRootCertificate` raises is in the schedule. -/
theorem certRaised_scheduled {ioSize : ℕ} :
    ∀ x ∈ certRaised faults makeString store name ioSize, ∃ k, faults k = some x.2 := by
  obtain ⟨raised, htrace, hscheduled, -⟩ := ends_certBody makeString store name ⟨none, ioSize⟩
    faults Trace.start
  intro x hx
  have hraised : certRaised faults makeString store name ioSize = raised := htrace
  rw [hraised] at hx
  exact hscheduled x hx

/-- `GetRootCertificate` ends as if nothing had been raised, in the store without the union soup
when a store error has been ignored, or with the result for the exception that is not. -/
theorem lookup_ends (faults : ℕ → Option NewtonException) (makeString : List Byte → List UniChar)
    (store : RootStore) (name : List Byte) (ioSize : ℕ) :
    (certRaised faults makeString store name ioSize = [] ∧
      getRootCertificateCall faults makeString store name ioSize =
        getRootCertificateCall (fun _ => none) makeString store name ioSize) ∨
    (∃ x, Ignored x ∧ certRaised faults makeString store name ioSize = [x] ∧
      getRootCertificateCall faults makeString store name ioSize =
        getRootCertificateCall (fun _ => none) makeString { store with unionSoup := none } name
          ioSize) ∨
    ∃ ignored i e s, (∀ x ∈ ignored, Ignored x) ∧ ¬ Ignored (i, e) ∧
      certRaised faults makeString store name ioSize = ignored ++ [(i, e)] ∧
      getRootCertificateCall faults makeString store name ioSize = certOutcome (.error e) s ∧
      s.ioSize = ioSize := by
  obtain ⟨raised, htrace, -, hends⟩ := ends_certBody makeString store name ⟨none, ioSize⟩ faults
    Trace.start
  rw [getRootCertificateCall_copied, getRootCertificateCall_copied]
  unfold certRaised
  rcases hend : certBody makeString store name faults Trace.start ⟨none, ioSize⟩ with
    ⟨e | r, t, s⟩ <;> rw [hend] at htrace hends <;> rw [getRootCertificateCall_of hend, htrace]
  · obtain ⟨⟨ignored, i, hignored, hlast, rfl⟩, hsize⟩ := hends
    exact .inr (.inr ⟨ignored, i, e, s, hignored, hlast, rfl, rfl, hsize⟩)
  · rcases hends with ⟨rfl, hcopied⟩ | ⟨⟨x, hx, rfl⟩, hcopied⟩
    · exact .inl ⟨rfl, by rw [hcopied]⟩
    · exact .inr (.inl ⟨x, hx, rfl, by rw [hcopied]⟩)

/-- An exception in `GetRootCertificate` that is not ignored. -/
theorem lookup_failed {ioSize : ℕ}
    (hraised : ∃ x ∈ certRaised faults makeString store name ioSize, ¬ Ignored x)
    (htold : ∀ x ∈ certRaised faults makeString store name ioSize, ¬ Ignored x → CertTold x) :
    (getRootCertificateCall faults makeString store name ioSize).result < 0 ∧
      (getRootCertificateCall faults makeString store name ioSize).ioSize = ioSize := by
  obtain ⟨x, hx, hnot⟩ := hraised
  rcases lookup_ends faults makeString store name ioSize with
    ⟨hnone, -⟩ | ⟨y, hy, hone, -⟩ | ⟨ignored, i, e, s, -, hlast, hall, hcall, hsize⟩
  · rw [hnone] at hx
    cases hx
  · rw [hone, List.mem_singleton] at hx
    exact absurd (hx ▸ hy) hnot
  · have hdata : CertTold (i, e) := by
      refine htold _ ?_ hlast
      rw [hall]
      exact List.mem_append_right _ List.mem_cons_self
    rw [hcall]
    refine ⟨?_, hsize⟩
    -- the three handlers
    show (if e.cls = .interpreterWithFrameData then -1
      else if e.isFrames then (if 0 < e.data then -1 else e.data) else -1 : ℤ) < 0
    split
    · exact neg_one_lt_zero
    · rename_i hinterpreter
      split
      · rename_i hframes
        have hnonzero : e.data ≠ 0 := hdata hinterpreter hframes
        split <;> omega
      · exact neg_one_lt_zero

/-- When only store errors of the union soup have been met, the result is that of the store
without it. -/
theorem lookup_ignored {ioSize : ℕ} (hraised : certRaised faults makeString store name ioSize ≠ [])
    (hignored : ∀ x ∈ certRaised faults makeString store name ioSize, Ignored x) :
    getRootCertificateCall faults makeString store name ioSize =
      getRootCertificateCall (fun _ => none) makeString { store with unionSoup := none } name
        ioSize := by
  rcases lookup_ends faults makeString store name ioSize with
    ⟨hnone, -⟩ | ⟨x, -, -, hcall⟩ | ⟨ignored, i, e, s, -, hlast, hall, -⟩
  · exact absurd hnone hraised
  · exact hcall
  · refine absurd (hignored _ ?_) hlast
    rw [hall]
    exact List.mem_append_right _ List.mem_cons_self

/-- Without exceptions a lookup that does not fail gives the length of a certificate, and has
copied it if there was room. -/
theorem quiet_succeeds {ioSize : ℕ}
    (hok : 0 ≤ (getRootCertificateCall (fun _ => none) makeString store name ioSize).result) :
    ∃ bytes : List Byte,
      (getRootCertificateCall (fun _ => none) makeString store name ioSize).result =
        bytes.length ∧
      (getRootCertificateCall (fun _ => none) makeString store name ioSize).copied =
        if bytes.length ≤ ioSize then some bytes else none := by
  obtain ⟨hresult, hcopied⟩ := getRootCertificateCall_quiet makeString store name ioSize
  rw [hresult] at hok
  rw [hresult, hcopied]
  rw [getRootCertificate_eq] at hok ⊢
  cases hcert : trustedCert makeString store name with
  | none =>
    rw [hcert] at hok
    exact absurd hok (show ¬ (0 : ℤ) ≤ -1 by decide)
  | some bytes => exact ⟨bytes, rfl, rfl⟩

theorem lookup_succeeds {ioSize : ℕ}
    (htold : ∀ x ∈ certRaised faults makeString store name ioSize, ¬ Ignored x → CertTold x)
    (hok : 0 ≤ (getRootCertificateCall faults makeString store name ioSize).result) :
    ∃ bytes : List Byte,
      (getRootCertificateCall faults makeString store name ioSize).result = bytes.length ∧
      (getRootCertificateCall faults makeString store name ioSize).copied =
        if bytes.length ≤ ioSize then some bytes else none := by
  rcases lookup_ends faults makeString store name ioSize with
    ⟨-, hcall⟩ | ⟨x, -, -, hcall⟩ | ⟨ignored, i, e, s, -, hlast, hall, -⟩
  · rw [hcall] at hok ⊢
    exact quiet_succeeds hok
  · rw [hcall] at hok ⊢
    exact quiet_succeeds hok
  · have hmem : (i, e) ∈ certRaised faults makeString store name ioSize := by
      rw [hall]
      exact List.mem_append_right _ List.mem_cons_self
    exact absurd hok (lookup_failed ⟨_, hmem, hlast⟩ htold).1.not_ge

end results

/-! ## The caller -/

/-- What the two functions leave is what `SSLConfigure` is told; their calls may raise exceptions,
and the store may be another one each time. -/
structure FromCalls (makeString : List Byte → List UniChar)
    (E : Environment CESig ConnectionEnd) : Prop where
  listed : ∀ n ioSize, ∃ faults store,
    (∀ x ∈ listRaised faults store ioSize.isSome ioSize, ListTold x) ∧
    E.answer n (Query.listRootCertificates ioSize) =
      ListAnswer.mk (listRootCertificatesCall faults store ioSize.isSome ioSize).result
        (listRootCertificatesCall faults store ioSize.isSome ioSize).written
  found : ∀ n name ioSize, ∃ faults store,
    (∀ x ∈ certRaised faults makeString store name ioSize, ¬ Ignored x → CertTold x) ∧
    E.answer n (Query.getRootCertificate name ioSize) =
      CertAnswer.mk (getRootCertificateCall faults makeString store name ioSize).result
        (getRootCertificateCall faults makeString store name ioSize).copied

/-- What is passed to the parser. -/
def parsedBy : Happening CESig → Option (List Byte)
  | .asked (.mbedtlsX509CrtParse buf) _ => some buf
  | _ => none

/-- What is copied by a lookup that does not fail. -/
def copiedBy : Happening CESig → Option (List Byte)
  | .asked (.getRootCertificate _ _) a =>
    if 0 ≤ (a : CertAnswer).result then (a : CertAnswer).copied else none
  | _ => none

/-- What is passed to the parser is what the happening before it has copied. -/
def ParsesCopied : Option (List Byte) → List (Happening CESig) → Prop
  | _, [] => True
  | last, x :: l => (∀ buf, parsedBy x = some buf → last = some buf) ∧ ParsesCopied (copiedBy x) l

/-- The result of a listing that fails. -/
def failedBy : Happening CESig → Option ℤ
  | .asked (.listRootCertificates _) a =>
    if (a : ListAnswer).result < 0 then some (a : ListAnswer).result else none
  | _ => none

/-- `SSLConfigure` ends with the result of a listing that fails, and parses nothing then; and it
parses only what it has just been given. -/
structure Heeds (l : List (Happening CESig)) (r : Ending CESig ConnectionEnd Int) : Prop where
  fails : ∀ x ∈ l, ∀ z, failedBy x = some z →
    (∃ s, r = .done s z) ∧ ∀ y ∈ l, parsedBy y = none
  copied : ParsesCopied none l

section caller

variable {E : Environment CESig ConnectionEnd} {makeString : List Byte → List UniChar} {fuel : ℕ}
  {s : ConnectionEnd}

/-! ### Parsing -/

/-- What has been copied last, and whether all that has been parsed had been copied. -/
def parsing (g : Option (List Byte) × Prop) (x : Happening CESig) : Option (List Byte) × Prop :=
  (copiedBy x, g.2 ∧ ∀ buf, parsedBy x = some buf → g.1 = some buf)

/-- The fold over the way says that everything parsed had been copied. -/
theorem foldl_parsing (l : List (Happening CESig)) :
    ∀ g : Option (List Byte) × Prop, (l.foldl parsing g).2 ↔ g.2 ∧ ParsesCopied g.1 l := by
  induction l with
  | nil => intro g; exact (iff_of_eq (and_true g.2)).symm
  | cons x l ih =>
    intro g
    rw [List.foldl_cons, ih, parsing, ParsesCopied, and_assoc]

/-- A question to anyone but the parser. -/
theorem asked_parsing {n : ℕ} {q : Query} {g : Option (List Byte) × Prop} (hg : g.2)
    (hq : parsedBy (.asked q (E.answer n q)) = none) : (asked E parsing n q g).2 := by
  refine ⟨hg, fun buf hbuf => ?_⟩
  rw [hq] at hbuf
  cases hbuf

/-- Setting the session up parses nothing. -/
theorem setUpKeeps_parsing : SetUpKeeps parsing fun g => g.2 := by
  intro g q a hq hg
  refine ⟨hg, fun buf hbuf => ?_⟩
  cases q with
  | mbedtlsX509CrtParse buf => cases hq
  | _ => cases hbuf

/-- A lookup whose certificate fits has copied what is parsed. -/
theorem certBytes_copied (hE : FromCalls makeString E) {n size : ℕ} {name : List Byte}
    {cert : Block} (hok : 0 ≤ (lookup E n name size).result)
    (hfits : (lookup E n name size).result.toNat ≤ sizeAfter size (lookup E n name size).copied) :
    (lookup E n name size).copied = some (certBytes cert size (lookup E n name size).copied) := by
  obtain ⟨faults, store, htold, hanswer⟩ := hE.found n name size
  have hlookup : lookup E n name size =
      ⟨(getRootCertificateCall faults makeString store name size).result,
        (getRootCertificateCall faults makeString store name size).copied⟩ := hanswer
  rw [hlookup] at hok hfits ⊢
  obtain ⟨bytes, hresult, hcopied⟩ := lookup_succeeds htold hok
  dsimp only at hfits ⊢
  rw [hresult, hcopied, Int.toNat_natCast] at hfits
  rw [hcopied]
  by_cases hroom : bytes.length ≤ size
  · rw [if_pos hroom]
    show some bytes = some ((bytes ++ cert.bytes.drop bytes.length).take bytes.length)
    rw [List.take_left]
  · rw [if_neg hroom] at hfits
    exact absurd hfits hroom

/-- The loop over the names parses what it has been given. -/
theorem rounds_parsing (hE : FromCalls makeString E) :
    Rounds E parsing (fun _ _ _ g _ => g.2) (fun g _ => g.2) where
  finished := id
  tired := id
  unterminated := fun hg _ _ => hg
  skipped := fun _ hg _ _ => asked_parsing hg rfl
  grown := fun _ _ _ hg _ _ _ => asked_parsing (asked_parsing (asked_parsing hg rfl) rfl) rfl
  parsed := by
    intro names name rest cert size g s n m result added hg _ hok hfits _
    refine ⟨asked_parsing hg rfl, ?_⟩
    rintro buf ⟨⟩
    show (if 0 ≤ (lookup E n name size).result then (lookup E n name size).copied else none) = _
    rw [if_pos hok]
    exact certBytes_copied hE hok hfits
  raised := by
    intro names name rest cert size g s n m hg _ hok hfits _
    refine ⟨asked_parsing hg rfl, ?_⟩
    rintro buf ⟨⟩
    show (if 0 ≤ (lookup E n name size).result then (lookup E n name size).copied else none) = _
    rw [if_pos hok]
    exact certBytes_copied hE hok hfits

/-- `SSLConfigure` parses only what it has just been given. -/
theorem leads_parsing (hE : FromCalls makeString E) :
    (sslConfigure fuel).Leads E parsing (Kept (fun g => g.2) fun _ => True) (none, True) s := by
  refine leads_sslConfigure_kept setUpKeeps_parsing ?_ ?_ ?_ trivial
  · exact fun n ioSize g hg => asked_parsing hg rfl
  · exact fun n p size g hg => asked_parsing hg rfl
  · intro n k p g s hg _
    refine ((rounds_parsing hE).leads_loadNames fuel hg).mono ?_
    exact fun g' r hg' => ⟨hg', fun _ _ _ => trivial⟩

/-! ### A listing that fails -/

/-- Whether a listing has failed with the result `z`, and whether something has been parsed. -/
def failing (z : ℤ) (g : Prop × Prop) (x : Happening CESig) : Prop × Prop :=
  (g.1 ∨ failedBy x = some z, g.2 ∨ parsedBy x ≠ none)

/-- The fold over the way notes a failed listing and a parse. -/
theorem foldl_failing (z : ℤ) (l : List (Happening CESig)) :
    ∀ g : Prop × Prop, ((l.foldl (failing z) g).1 ↔ g.1 ∨ ∃ x ∈ l, failedBy x = some z) ∧
      ((l.foldl (failing z) g).2 ↔ g.2 ∨ ∃ x ∈ l, parsedBy x ≠ none) := by
  induction l with
  | nil => intro g; simp
  | cons x l ih =>
    intro g
    rw [List.foldl_cons, List.exists_mem_cons_iff, List.exists_mem_cons_iff, ← or_assoc,
      ← or_assoc]
    exact ih (failing z g x)

/-- When a listing has failed, its result is the result, and nothing has been parsed. -/
def EndsFailed {α : Type} (value : α) (g : Prop × Prop)
    (r : Ending CESig ConnectionEnd α) : Prop :=
  g.1 → (∃ s, r = .done s value) ∧ ¬ g.2

/-- Nothing has failed. -/
theorem endsFailed_of_not {α : Type} {value : α} {g : Prop × Prop}
    {r : Ending CESig ConnectionEnd α} (hg : ¬ g.1) : EndsFailed value g r :=
  fun hfailed => absurd hfailed hg

/-- A body that does not end with the result has not seen a listing fail. -/
theorem EndsFailed.not_failed {α : Type} {value : α} {g : Prop × Prop}
    {r : Ending CESig ConnectionEnd α} (h : EndsFailed value g r) (hr : ∀ s, r ≠ .done s value) :
    ¬ g.1 := by
  intro hfailed
  obtain ⟨⟨s, hs⟩, -⟩ := h hfailed
  exact hr s hs

section failing

variable {z : ℤ} {g : Prop × Prop}

/-- A question that is not a listing. -/
theorem asked_not_failed {n : ℕ} {q : Query} (hg : ¬ g.1)
    (hq : failedBy (.asked q (E.answer n q)) = none) : ¬ (asked E (failing z) n q g).1 := by
  rintro (hfailed | hfailed)
  · exact hg hfailed
  · rw [hq] at hfailed
    cases hfailed

/-- A question to anyone but the parser. -/
theorem asked_not_parsed {n : ℕ} {q : Query} (hg : ¬ g.2)
    (hq : parsedBy (.asked q (E.answer n q)) = none) : ¬ (asked E (failing z) n q g).2 := by
  rintro (hparsed | hparsed)
  · exact hg hparsed
  · exact hparsed hq

theorem failedBy_listed {n : ℕ} {ioSize : Option ℕ} (hok : 0 ≤ (listed E n ioSize).result) :
    failedBy (.asked (.listRootCertificates ioSize) (E.answer n (.listRootCertificates ioSize))) =
      none := if_neg hok.not_gt

/-- A listing that fails now. -/
theorem endsFailed_listed {n : ℕ} {ioSize : Option ℕ} {s : ConnectionEnd} (hg : ¬ g.1)
    (hparsed : ¬ g.2) (hfailed : (listed E n ioSize).result < 0) :
    EndsFailed (some z) (asked E (failing z) n (.listRootCertificates ioSize) g)
      (.done s (some (listed E n ioSize).result)) := by
  rintro (hbefore | hnow)
  · exact absurd hbefore hg
  · have hresult : (if (listed E n ioSize).result < 0 then some (listed E n ioSize).result
      else none) = some z := hnow
    rw [if_pos hfailed] at hresult
    rw [hresult]
    exact ⟨⟨s, rfl⟩, asked_not_parsed hparsed rfl⟩

/-- In the loop no listing fails. -/
theorem rounds_failing : Rounds E (failing z) (fun _ _ _ g _ => ¬ g.1) (fun g _ => ¬ g.1) where
  finished := id
  tired := id
  unterminated := fun hg _ _ => hg
  skipped := fun _ hg _ _ => asked_not_failed hg rfl
  grown := fun _ _ _ hg _ _ _ =>
    asked_not_failed (asked_not_failed (asked_not_failed hg rfl) rfl) rfl
  parsed := fun _ _ _ _ hg _ _ _ _ => asked_not_failed (asked_not_failed hg rfl) rfl
  raised := fun _ _ hg _ _ _ _ => asked_not_failed (asked_not_failed hg rfl) rfl

/-- The region ends with the result of a listing that fails. -/
theorem leads_loadListed_failing {s : ConnectionEnd} (hg : ¬ g.1) (hparsed : ¬ g.2) :
    (loadListed fuel).Leads E (failing z) (EndsFailed (some z)) g s := by
  -- the first listing fails, the second one fails, or the names are looked up
  refine leads_loadListed ?_ ?_ ?_
  · intro n hfailed
    exact endsFailed_listed hg hparsed hfailed
  · intro n m k j size hok _ hfailed
    have hbefore : ¬ (asked E (failing z) m (.newPtr s.nextPtr size)
        (asked E (failing z) n (.listRootCertificates none) g)).1 :=
      asked_not_failed (asked_not_failed hg (failedBy_listed hok)) rfl
    have hend := endsFailed_listed (z := z) (s := { s with nextPtr := s.nextPtr + 1 }) hbefore
      (asked_not_parsed (asked_not_parsed hparsed rfl) rfl) hfailed
    rintro (hfailed' | hdispos)
    · obtain ⟨hresult, hnone⟩ := hend hfailed'
      exact ⟨hresult, asked_not_parsed hnone rfl⟩
    · cases hdispos
  · intro n m k j size hok _ hok'
    refine (rounds_failing.leads_loadNames fuel ?_).mono ?_
    · refine asked_not_failed (asked_not_failed ?_ (failedBy_listed hok')) rfl
      exact asked_not_failed (asked_not_failed hg (failedBy_listed hok)) rfl
    · rintro g' (⟨s', cert⟩ | s' | ⟨s', w⟩) hg'
      -- neither DisposPtr is a call that can fail
      · exact fun i i' => endsFailed_of_not (asked_not_failed (asked_not_failed hg' rfl) rfl)
      · exact endsFailed_of_not hg'
      · exact endsFailed_of_not hg'

theorem leads_loadInHeap_failing {s : ConnectionEnd} (hg : ¬ g.1) (hparsed : ¬ g.2) :
    (loadInHeap fuel).Leads E (failing z) (EndsFailed (some z)) g s := by
  refine leads_loadInHeap ((leads_loadListed_failing hg hparsed).mono ?_)
  rintro g' (⟨s', _ | r⟩ | s' | ⟨s', w⟩) hend
  · exact endsFailed_of_not (hend.not_failed (by rintro s'' ⟨⟩))
  · exact hend
  · exact endsFailed_of_not (hend.not_failed (by rintro s'' ⟨⟩))
  · exact hend

/-- Setting the session up lists nothing. -/
theorem setUpKeeps_failing : SetUpKeeps (failing z) fun g => ¬ g.1 := by
  rintro g q a hq hg (hfailed | hfailed)
  · exact hg hfailed
  · cases q with
    | listRootCertificates ioSize => cases hq
    | _ => cases hfailed

theorem setUpKeeps_calm : SetUpKeeps (failing z) fun g => ¬ g.1 ∧ ¬ g.2 := by
  rintro g q a hq ⟨hg, hparsed⟩
  refine ⟨setUpKeeps_failing g q a hq hg, ?_⟩
  rintro (hparsed' | hparsed')
  · exact hparsed hparsed'
  · cases q with
    | mbedtlsX509CrtParse buf => cases hq
    | _ => exact hparsed' rfl

/-- `SSLConfigure` ends with the result of a listing that fails. -/
theorem leads_failing :
    (sslConfigure fuel).Leads E (failing z) (EndsFailed z) (False, False) s := by
  refine leads_sslConfigure setUpKeeps_calm.seeds ⟨id, id⟩ ?_ ?_ ?_
  · exact fun g' n custom r hg' _ _ => endsFailed_of_not hg'.1
  · intro _ g' hg'
    have hmade : ∀ n, ¬ (asked E (failing z) n .newVMHeap g').1 ∧
        ¬ (asked E (failing z) n .newVMHeap g').2 :=
      fun n => ⟨asked_not_failed hg'.1 rfl, asked_not_parsed hg'.2 rfl⟩
    refine Code.Leads.mono (leads_loadRootCertificates (Q := EndsFailed (some z))
      (fun _ => leads_loadInHeap_failing hg'.1 hg'.2)
      (fun n heap _ _ => leads_loadInHeap_failing (hmade n).1 (hmade n).2)
      fun n _ _ => leads_loadInHeap_failing (hmade n).1 (hmade n).2) ?_
    rintro g'' (⟨s', _ | r⟩ | s' | ⟨s', w⟩) hend
    · refine setUpKeeps_failing.leads_setUpSSL (hend.not_failed (by rintro s'' ⟨⟩)) ?_
      exact fun g s hg _ => endsFailed_of_not hg
    · intro hfailed
      obtain ⟨⟨s'', hr⟩, hnone⟩ := hend hfailed
      cases hr
      exact ⟨⟨s', rfl⟩, hnone⟩
    · exact endsFailed_of_not (hend.not_failed (by rintro s'' ⟨⟩))
    · exact endsFailed_of_not (hend.not_failed (by rintro s'' ⟨⟩))
  · exact fun _ g' hg' =>
      setUpKeeps_failing.leads_setUpSSL hg'.1 fun g s hg _ => endsFailed_of_not hg

end failing

/-- What becomes of the results. -/
theorem drives_heeds (hE : FromCalls makeString E) (fuel n : ℕ) (s : ConnectionEnd) :
    (sslConfigure fuel).Drives E Heeds n s := by
  have hparsing : (sslConfigure fuel).Leads E parsing _ (none, True) s := leads_parsing hE
  constructor
  · intro x hx z hz
    have hfailing : (sslConfigure fuel).Leads E (failing z) _ (False, False) s := leads_failing
    have hsum := foldl_failing z ((sslConfigure fuel s).drive E n).1 (False, False)
    obtain ⟨hresult, hnone⟩ := hfailing n (hsum.1.mpr (.inr ⟨x, hx, hz⟩))
    refine ⟨hresult, fun y hy => ?_⟩
    by_contra hparsed
    exact hnone (hsum.2.mpr (.inr ⟨y, hy, hparsed⟩))
  · exact ((foldl_parsing _ _).mp (hparsing n).1).2

end caller

/-- **Failures of the store.**  An exception in `ListRootCertificates`, or one in
`GetRootCertificate` that is not ignored, gives a negative result and leaves `*ioSize` alone; when
only store errors of the union soup are met, the package is searched as if there were no union
soup; and `SSLConfigure` fails with a listing that fails, and parses only what the lookup in front
has copied. -/
theorem failures_reported (makeString : List Byte → List UniChar) :
    (∀ faults store outBuf ioSize, listRaised faults store outBuf ioSize ≠ [] →
      (∀ x ∈ listRaised faults store outBuf ioSize, ListTold x) →
      (listRootCertificatesCall faults store outBuf ioSize).result < 0 ∧
        (listRootCertificatesCall faults store outBuf ioSize).ioSize = ioSize) ∧
    (∀ faults store name ioSize,
      (∃ x ∈ certRaised faults makeString store name ioSize, ¬ Ignored x) →
      (∀ x ∈ certRaised faults makeString store name ioSize, ¬ Ignored x → CertTold x) →
      (getRootCertificateCall faults makeString store name ioSize).result < 0 ∧
        (getRootCertificateCall faults makeString store name ioSize).ioSize = ioSize) ∧
    (∀ faults store name ioSize, certRaised faults makeString store name ioSize ≠ [] →
      (∀ x ∈ certRaised faults makeString store name ioSize, Ignored x) →
      getRootCertificateCall faults makeString store name ioSize =
        getRootCertificateCall (fun _ => none) makeString { store with unionSoup := none } name
          ioSize) ∧
    ∀ E, FromCalls makeString E → ∀ fuel n s, (sslConfigure fuel).Drives E Heeds n s :=
  ⟨fun _ _ _ _ => listing_failed, fun _ _ _ _ => lookup_failed, fun _ _ _ _ => lookup_ignored,
    fun _ hE fuel n s => drives_heeds hE fuel n s⟩

/-- A store error in the call of the number `n`. -/
def storeErrorAt (n k : ℕ) : Option NewtonException :=
  if k = n then some ⟨.storeError, -48027⟩ else none

/-- A root of the package, and a union soup without entries. -/
def oneRoot : RootStore := ⟨[⟨[65], true, .binary [1], .nil⟩], some []⟩

/-- The answers of `oneRoot`, when a call of the listing and one of the lookup fail. -/
def failingAnswer (inListing inLookup : ℕ) : (q : Query) → q.Answer
  | .listRootCertificates ioSize =>
    let outcome := listRootCertificatesCall (storeErrorAt inListing) oneRoot ioSize.isSome ioSize
    ListAnswer.mk outcome.result outcome.written
  | .getRootCertificate name ioSize =>
    let outcome := getRootCertificateCall (storeErrorAt inLookup) ascii oneRoot name ioSize
    CertAnswer.mk outcome.result outcome.copied
  | q => plainAnswer q

/-- An environment with the failing store. -/
def failingStore (inListing inLookup : ℕ) : Environment CESig ConnectionEnd where
  answer := fun _ => failingAnswer inListing inLookup
  result := fun _ c s => (results 0 (.error MBEDTLS_ERR_SSL_WANT_READ) c, s)

/-- The datum of every scheduled exception is negative. -/
theorem storeErrorAt_data {n k : ℕ} {e : NewtonException} (h : storeErrorAt n k = some e) :
    e.data < 0 := by
  unfold storeErrorAt at h
  split at h
  · rw [← Option.some.inj h]
    decide
  · cases h

/-- The answers are those of the two functions. -/
theorem fromCalls_failingStore (inListing inLookup : ℕ) :
    FromCalls ascii (failingStore inListing inLookup) where
  listed := by
    refine fun _ ioSize => ⟨storeErrorAt inListing, oneRoot, fun x hx _ => ?_, rfl⟩
    obtain ⟨k, hk⟩ := listRaised_scheduled x hx
    exact storeErrorAt_data hk
  found := by
    refine fun _ name ioSize => ⟨storeErrorAt inLookup, oneRoot, fun x hx _ _ _ => ?_, rfl⟩
    obtain ⟨k, hk⟩ := certRaised_scheduled x hx
    exact (storeErrorAt_data hk).ne

/-- A lookup fails in the package, another one goes on after the union soup, and an `SSLConfigure`
whose listing fails returns the store error. -/
theorem failures_reported_oneRoot :
    (getRootCertificateCall (storeErrorAt 12) ascii oneRoot [65] 1).result < 0 ∧
      (getRootCertificateCall (storeErrorAt 9) ascii oneRoot [65] 1).copied = some [1] ∧
      ∃ s, ((sslConfigure 1).drive (failingStore 12 20) 0 (new zeroMemory)).2 =
        .done s (-48027) := by
  obtain ⟨-, hfailed, hignored, hdrives⟩ := failures_reported ascii
  have hpackage : certRaised (storeErrorAt 12) ascii oneRoot [65] 1 =
      [(.query, ⟨.storeError, -48027⟩)] := by decide
  have hunion : certRaised (storeErrorAt 9) ascii oneRoot [65] 1 =
      [(.unionCursorEntry, ⟨.storeError, -48027⟩)] := by decide
  refine ⟨?_, ?_, ?_⟩
  · refine (hfailed (storeErrorAt 12) oneRoot [65] 1 ?_ ?_).1
    · rw [hpackage]
      exact ⟨_, List.mem_cons_self, by rintro ⟨⟨⟩, -⟩⟩
    · intro x hx _ _ _
      obtain ⟨k, hk⟩ := certRaised_scheduled x hx
      exact (storeErrorAt_data hk).ne
  · rw [hignored (storeErrorAt 9) oneRoot [65] 1]
    · rfl
    · rw [hunion]
      exact List.cons_ne_nil _ _
    · rw [hunion]
      intro x hx
      rw [List.mem_singleton.mp hx]
      exact ⟨rfl, rfl⟩
  · have hheeds := hdrives _ (fromCalls_failingStore 12 20) 1 0 (new zeroMemory)
    have hlisted : Happening.asked (Query.listRootCertificates none) (ListAnswer.mk (-48027) []) ∈
        ((sslConfigure 1).drive (failingStore 12 20) 0 (new zeroMemory)).1 :=
      List.mem_of_getElem? (i := 5) rfl
    exact (hheeds.fails _ hlisted _ rfl).1

/-- The index of the union soup is bad, and the root of the package is found. -/
theorem not_failures_reported : ¬ ∀ (faults : ℕ → Option NewtonException)
    (makeString : List Byte → List UniChar) (store : RootStore) (name : List Byte) (ioSize : ℕ),
      certRaised faults makeString store name ioSize ≠ [] →
      (getRootCertificateCall faults makeString store name ioSize).result < 0 ∧
        (getRootCertificateCall faults makeString store name ioSize).ioSize = ioSize := by
  intro hall
  have h := hall (fun k => if k = 9 then some ⟨.storeError, -48027⟩ else none) ascii
    ⟨[⟨[65], true, .binary [1], .nil⟩], some []⟩ [65] 1 (by decide)
  exact absurd h.1 (by decide)

end StoreFailures

end NewtonTLS
