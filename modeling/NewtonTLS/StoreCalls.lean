/-
# The calls to the store of root certificates

`PMbedTLS::ListRootCertificates` and `PMbedTLS::GetRootCertificate` with their calls to
NewtonScript and the soups, each of which may raise an exception, and with their handlers.  The
answers of the calls are those of a `RootStore`.  Without exceptions the results are those of
`listRootCertificates` and `getRootCertificate` (`listRootCertificatesCall_quiet`,
`getRootCertificateCall_quiet`).
-/
import NewtonTLS.RaisingCalls
import NewtonTLS.EffectiveRoots

open Raising

namespace NewtonTLS

namespace StoreCalls

open EffectiveRoots

/-! ## Exceptions -/

/-- The classes that the handlers tell apart: `exInterpreterWithFrameData` and `exStoreError` are
two under `exFrames`. -/
inductive ExceptionClass : Type where
  | interpreterWithFrameData
  | storeError
  | otherFrames
  | other
  deriving DecidableEq, Repr

/-- An exception; `data` is its data word as an `int`. -/
structure NewtonException : Type where
  cls : ExceptionClass
  data : ℤ
  deriving DecidableEq, Repr

/-- The exception is under `exFrames`. -/
def NewtonException.isFrames (e : NewtonException) : Bool := decide (e.cls ≠ .other)

/-- The exception is an `exStoreError`. -/
def NewtonException.isStoreError (e : NewtonException) : Bool := decide (e.cls = .storeError)

/-- The functions that are called; `unionCursorEntry` is the `CursorEntry` that
`GetRootCertificate` calls in a handler of its own. -/
inductive NewtonCall : Type where
  | makeString
  | nsCallGlobalFn
  | nsSend
  | query
  | cursorEntry
  | unionCursorEntry
  | cursorMove
  | getUnionSoup
  | allocateFrame
  | setFrameSlot
  | getFrameSlot
  | getCString
  | isBinary
  | length
  | lockedBinaryPtr
  | unlockRefArg
  deriving DecidableEq, Repr

/-- A body that calls NewtonScript and the soups. -/
abbrev StoreBody (σ α : Type) : Type := Body NewtonCall NewtonException σ α

/-- A call, which may raise an exception. -/
def call {σ : Type} (i : NewtonCall) : StoreBody σ Unit := Body.call i

/-! ## `ListRootCertificates` -/

/-- What `ListRootCertificates` writes: its local variables and the buffer, and `*ioSize`. -/
structure ListMemory : Type where
  w : Listing
  ioSize : Option ℕ
  deriving DecidableEq

/-- The local variables change, and `*ioSize` does not. -/
def ListMemory.update (f : Listing → Listing) (s : ListMemory) : ListMemory := { s with w := f s.w }

/-- `SetFrameSlot` of the first and the last key, `Query` and its first entry, if there is a union
soup. -/
def queryUnion (store : RootStore) : StoreBody ListMemory Unit :=
  if store.unionSoup.isSome then do
    call .setFrameSlot
    call .setFrameSlot
    call .query
    call .cursorEntry
  else pure ()

/-- The inner loop: the characters of a tag. -/
def emitTag (endCursor : ℕ) (tag : List UniChar) : StoreBody ListMemory Unit := do
  call .getCString
  Body.modify (ListMemory.update (putTag endCursor tag))

/-- An entry of the package is listed unless the union soup has its tag. -/
def emitUnlessInUnion (store : RootStore) (endCursor : ℕ) (tag : List UniChar) :
    StoreBody ListMemory Unit :=
  let unionEntry := (query store.userSoup tag).head?
  if unionEntry.isNone then emitTag endCursor tag else pure ()

/-- The loop over the package. -/
def packageLoop (store : RootStore) (endCursor : ℕ) : List RootEntry → StoreBody ListMemory Unit
  | [] => pure ()
  | entry :: entries => do
    call .getFrameSlot
    queryUnion store
    emitUnlessInUnion store endCursor entry.tag
    call .cursorMove
    packageLoop store endCursor entries

/-- The loop over the union soup. -/
def unionLoop (endCursor : ℕ) : List RootEntry → StoreBody ListMemory Unit
  | [] => pure ()
  | entry :: entries => do
    call .getFrameSlot
    emitTag endCursor entry.tag
    call .cursorMove
    unionLoop endCursor entries

/-- The part after the loop over the package. -/
def listUnion (store : RootStore) (endCursor : ℕ) : StoreBody ListMemory Unit :=
  if store.unionSoup.isSome then do
    call .query
    call .cursorEntry
    unionLoop endCursor (cursorEntries (MAKEINT 1) 0 store.userSoup)
  else pure ()

/-- The body under `newton_try`. -/
def listBody (store : RootStore) (endCursor : ℕ) : StoreBody ListMemory Unit := do
  call .makeString
  call .nsCallGlobalFn
  call .nsSend
  call .query
  call .cursorEntry
  call .getUnionSoup
  call .allocateFrame
  call .setFrameSlot
  call .setFrameSlot
  packageLoop store endCursor (cursorEntries 1 0 store.packageSoup)
  listUnion store endCursor

/-- What `ListRootCertificates` leaves: its result, the bytes from `outBuf` on that it has written,
and `*ioSize`. -/
structure ListOutcome : Type where
  result : ℤ
  written : List Byte
  ioSize : Option ℕ
  deriving DecidableEq, Repr

/-- The handlers, and what follows them when nothing has been raised. -/
def listOutcome : Except NewtonException Unit → ListMemory → ListOutcome
  | .error e, s => ⟨if e.isFrames then e.data else -1, s.w.written, s.ioSize⟩
  | .ok (), s => ⟨s.w.totalSize, s.w.written, s.ioSize.map fun _ => s.w.written.length⟩

/-- `ListRootCertificates`, where `outBuf` is whether the buffer is not NULL. -/
def listRootCertificatesCall (faults : ℕ → Option NewtonException) (store : RootStore)
    (outBuf : Bool) (ioSize : Option ℕ) : ListOutcome :=
  let bufCursor := if outBuf then some 0 else none
  let r := listBody store (ioSize.getD 0) faults Trace.start ⟨⟨bufCursor, [], 0⟩, ioSize⟩
  listOutcome r.1 r.2.2

/-! ## `GetRootCertificate` -/

/-- What `GetRootCertificate` writes: the bytes it has copied to `outBuf`, and `*ioSize`. -/
structure CertMemory : Type where
  copied : Option (List Byte)
  ioSize : ℕ
  deriving DecidableEq

/-- `CursorEntry` on the cursor of the union soup. -/
def unionEntry (store : RootStore) (nameStr : List UniChar) :
    StoreBody CertMemory (Option RootEntry) := do
  call .unionCursorEntry
  pure (query store.userSoup nameStr).head?

/-- The entry of the union soup, whose store errors are ignored. -/
def findInUnion (store : RootStore) (nameStr : List UniChar) :
    StoreBody CertMemory (Option RootEntry) :=
  if store.unionSoup.isSome then do
    call .query
    Body.ignoring NewtonException.isStoreError none (unionEntry store nameStr)
  else
    pure none

/-- The entry of the package, unless there is one already. -/
def findInPackage (store : RootStore) (nameStr : List UniChar) :
    Option RootEntry → StoreBody CertMemory (Option RootEntry)
  | some entry => pure (some entry)
  | none => do
    call .nsCallGlobalFn
    call .nsSend
    call .query
    call .cursorEntry
    pure (query store.packageSoup nameStr).head?

/-- `der`, when `pem` is NIL. -/
def derSlot (entry : RootEntry) : StoreBody CertMemory Unit :=
  if entry.pem = .nil then call .getFrameSlot else pure ()

/-- The certificate of an entry, if it is trusted and a binary. -/
def trustedSlot (entry : RootEntry) : StoreBody CertMemory (Option (List Byte)) := do
  call .getFrameSlot
  if entry.trust then do
    call .getFrameSlot
    derSlot entry
    call .isBinary
    pure entry.cert
  else
    pure none

/-- `BlockMove` under the lock of the binary, and the size of what has been moved. -/
def moveCert (cert : List Byte) : StoreBody CertMemory Unit := do
  call .lockedBinaryPtr
  Body.modify fun s => { s with copied := some cert }
  call .unlockRefArg
  Body.modify fun s => { s with ioSize := cert.length }

/-- A certificate that is too long is not copied. -/
def moveFitting (size : ℕ) (cert : List Byte) : StoreBody CertMemory Unit :=
  if cert.length ≤ size then moveCert cert else pure ()

/-- Copy a certificate that fits. -/
def copyCert (cert : List Byte) : StoreBody CertMemory ℤ := do
  call .length
  let s ← Body.get
  moveFitting s.ioSize cert
  pure (cert.length : ℤ)

/-- From the entry on. -/
def certOf : Option RootEntry → StoreBody CertMemory ℤ
  | none => pure (-1)
  | some entry => do
    let cert ← trustedSlot entry
    match cert with
    | none => pure (-1)
    | some bytes => copyCert bytes

/-- The body under `newton_try`. -/
def certBody (makeString : List Byte → List UniChar) (store : RootStore) (name : List Byte) :
    StoreBody CertMemory ℤ := do
  call .makeString
  call .getUnionSoup
  call .allocateFrame
  call .setFrameSlot
  call .setFrameSlot
  call .makeString
  let nameStr := makeString name
  call .setFrameSlot
  call .setFrameSlot
  let entry ← findInUnion store nameStr
  let entry ← findInPackage store nameStr entry
  certOf entry

/-- What `GetRootCertificate` leaves: its result, what it has copied, and `*ioSize`. -/
structure CertOutcome : Type where
  result : ℤ
  copied : Option (List Byte)
  ioSize : ℕ
  deriving DecidableEq, Repr

/-- The handlers: an `exInterpreterWithFrameData` gives -1, another `exFrames` its data unless that
is positive, and any other exception -1. -/
def certOutcome : Except NewtonException ℤ → CertMemory → CertOutcome
  | .ok r, s => ⟨r, s.copied, s.ioSize⟩
  | .error e, s =>
    ⟨if e.cls = .interpreterWithFrameData then -1
      else if e.isFrames then (if 0 < e.data then -1 else e.data)
      else -1, s.copied, s.ioSize⟩

/-- `GetRootCertificate` with an `ioSize` that is not NULL. -/
def getRootCertificateCall (faults : ℕ → Option NewtonException)
    (makeString : List Byte → List UniChar) (store : RootStore) (name : List Byte) (ioSize : ℕ) :
    CertOutcome :=
  let r := certBody makeString store name faults Trace.start ⟨none, ioSize⟩
  certOutcome r.1 r.2.2

/-! ## What the bodies compute -/

section computes

variable {σ α γ : Type} {p : NewtonCall → Bool} {v : σ → γ} {store : RootStore}

theorem computes_call_bind {i : NewtonCall} {k : Unit → StoreBody σ α} {f : σ → α × σ}
    (hi : p i = true) (h : (k ()).Computes p v f) : (call i >>= k).Computes p v f :=
  h.afterCall hi

/-- The body of `ListRootCertificates` computes `f`, or an exception leaves `*ioSize` alone. -/
def ComputesListing (m : StoreBody ListMemory Unit) (f : Listing → Listing) : Prop :=
  m.Computes (fun _ => true) ListMemory.ioSize fun s => ((), s.update f)

/-- A change of the local variables. -/
theorem computes_update (f : Listing → Listing) :
    ComputesListing (Body.modify (ListMemory.update f)) f := Body.computes_modify _

theorem computes_skip : ComputesListing (pure ()) fun w => w := Body.computes_pure ()

/-- One after the other. -/
theorem ComputesListing.seq {m : StoreBody ListMemory Unit}
    {k : Unit → StoreBody ListMemory Unit} {f g : Listing → Listing} (hm : ComputesListing m f)
    (hk : ComputesListing (k ()) g) : ComputesListing (m >>= k) fun w => g (f w) := by
  have h := Body.Computes.seq (h := ListMemory.update f) (f := fun s => ((), s.update g)) hm
    (fun _ => rfl) hk
  exact h

/-- A call before the rest of the listing. -/
theorem ComputesListing.afterCall {i : NewtonCall} {k : Unit → StoreBody ListMemory Unit}
    {f : Listing → Listing} (h : ComputesListing (k ()) f) : ComputesListing (call i >>= k) f :=
  computes_call_bind rfl h

/-- The query finds what there is, and lists nothing. -/
theorem computes_queryUnion : ComputesListing (queryUnion store) fun w => w := by
  unfold queryUnion
  split
  · refine ComputesListing.afterCall (ComputesListing.afterCall (ComputesListing.afterCall ?_))
    exact Body.computes_call rfl
  · exact computes_skip

theorem computes_emitTag (endCursor : ℕ) (tag : List UniChar) :
    ComputesListing (emitTag endCursor tag) (putTag endCursor tag) :=
  ComputesListing.afterCall (computes_update _)

theorem computes_packageEntry (store : RootStore) (endCursor : ℕ) (entry : RootEntry) :
    ComputesListing (emitUnlessInUnion store endCursor entry.tag) fun w =>
      listPackageEntry store endCursor w entry := by
  have hentry : ∀ w, listPackageEntry store endCursor w entry =
      if (query store.userSoup entry.tag).head?.isNone then putTag endCursor entry.tag w
      else w := by
    intro w
    unfold listPackageEntry RootStore.userSoup
    cases store.unionSoup <;> rfl
  simp only [hentry]
  unfold emitUnlessInUnion
  dsimp only
  split
  · exact computes_emitTag endCursor entry.tag
  · exact computes_skip

theorem computes_packageLoop (endCursor : ℕ) (entries : List RootEntry) :
    ComputesListing (packageLoop store endCursor entries) fun w =>
      entries.foldl (listPackageEntry store endCursor) w := by
  induction entries with
  | nil => exact computes_skip
  | cons entry entries ih =>
    have hrest := (computes_packageEntry store endCursor entry).seq
      (k := fun _ => call .cursorMove >>= fun _ => packageLoop store endCursor entries)
      (ComputesListing.afterCall ih)
    exact ComputesListing.afterCall (computes_queryUnion.seq (k := fun _ => _ >>= _) hrest)

/-- The entries of the union soup. -/
theorem computes_unionLoop (endCursor : ℕ) (entries : List RootEntry) :
    ComputesListing (unionLoop endCursor entries) fun w =>
      entries.foldl (fun w (entry : RootEntry) => putTag endCursor entry.tag w) w := by
  induction entries with
  | nil => exact computes_skip
  | cons entry entries ih =>
    have hrest := (computes_emitTag endCursor entry.tag).seq
      (k := fun _ => call .cursorMove >>= fun _ => unionLoop endCursor entries)
      (ComputesListing.afterCall ih)
    exact ComputesListing.afterCall hrest

/-- The part for the union soup. -/
theorem computes_listUnion (endCursor : ℕ) :
    ComputesListing (listUnion store endCursor) fun w =>
      (cursorEntries (MAKEINT 1) 0 store.userSoup).foldl
        (fun w (entry : RootEntry) => putTag endCursor entry.tag w) w := by
  unfold listUnion
  split
  · exact ComputesListing.afterCall (ComputesListing.afterCall (computes_unionLoop endCursor _))
  · next hnone =>
    have huser : store.userSoup = [] := by
      rw [RootStore.userSoup, Option.not_isSome_iff_eq_none.mp hnone, Option.getD_none]
    rw [huser]
    exact computes_skip

/-- The body writes the listing. -/
theorem computes_listBody (store : RootStore) (endCursor : ℕ) :
    ComputesListing (listBody store endCursor) fun w =>
      (listing store).foldl (putChar endCursor) w := by
  have hloops : ∀ w, (listing store).foldl (putChar endCursor) w = _ :=
    fun w => (foldl_listing store endCursor w).symm
  simp only [hloops]
  refine ComputesListing.afterCall (ComputesListing.afterCall (ComputesListing.afterCall ?_))
  refine ComputesListing.afterCall (ComputesListing.afterCall (ComputesListing.afterCall ?_))
  refine ComputesListing.afterCall (ComputesListing.afterCall (ComputesListing.afterCall ?_))
  exact (computes_packageLoop endCursor _).seq (k := fun _ => listUnion store endCursor)
    (computes_listUnion endCursor)

/-- The calls whose exceptions end `GetRootCertificate`: all but `CursorEntry` on the cursor of the
union soup. -/
def endsLookup (i : NewtonCall) : Bool := decide (i ≠ .unionCursorEntry)

/-- The body of `GetRootCertificate` computes `f`, or an exception leaves `*ioSize` alone. -/
def ComputesCert (m : StoreBody CertMemory α) (f : CertMemory → α × CertMemory) : Prop :=
  m.Computes endsLookup CertMemory.ioSize f

theorem computes_moveCert (cert : List Byte) :
    ComputesCert (moveCert cert) fun _ => ((), ⟨some cert, cert.length⟩) := by
  have hsize : ComputesCert (do
      call .unlockRefArg
      Body.modify fun s : CertMemory => { s with ioSize := cert.length })
      fun s => ((), { s with ioSize := cert.length }) :=
    computes_call_bind rfl (Body.computes_modify _)
  have hmove : ComputesCert _ _ :=
    (Body.computes_modify fun s : CertMemory => { s with copied := some cert }).seq
      (k := fun _ => call .unlockRefArg >>= fun _ =>
        Body.modify fun s : CertMemory => { s with ioSize := cert.length }) (fun _ => rfl) hsize
  exact computes_call_bind rfl hmove

theorem computes_copyCert (cert : List Byte) :
    ComputesCert (copyCert cert) fun s =>
      ((cert.length : ℤ), if cert.length ≤ s.ioSize then ⟨some cert, cert.length⟩ else s) := by
  have hcopy : ∀ now : CertMemory, ComputesCert (moveFitting now.ioSize cert >>= fun _ =>
      pure (cert.length : ℤ)) fun s =>
        ((cert.length : ℤ), if cert.length ≤ now.ioSize then ⟨some cert, cert.length⟩ else s) := by
    intro now
    unfold moveFitting
    split
    · exact (computes_moveCert cert).map fun _ => (cert.length : ℤ)
    · exact (Body.computes_pure ()).map fun _ => (cert.length : ℤ)
  exact computes_call_bind rfl (Body.computes_get.bind (fun _ => rfl) hcopy)

/-- The certificate of a trusted entry. -/
theorem computes_trustedSlot (entry : RootEntry) :
    ComputesCert (trustedSlot entry) fun s => (if entry.trust then entry.cert else none, s) := by
  have hder : ComputesCert (derSlot entry) fun s => ((), s) := by
    unfold derSlot
    split
    · exact Body.computes_call rfl
    · exact Body.computes_pure ()
  refine computes_call_bind rfl ?_
  cases entry.trust with
  | false => exact Body.computes_pure none
  | true =>
    refine computes_call_bind rfl ?_
    exact hder.seq (k := fun _ => call .isBinary >>= fun _ => pure entry.cert) (fun _ => rfl)
      (computes_call_bind rfl (Body.computes_pure _))

/-- What `GetRootCertificate` computes of the certificate that it finds. -/
def copied (cert : Option (List Byte)) (s : CertMemory) : ℤ × CertMemory :=
  match cert with
  | none => (-1, s)
  | some bytes => (bytes.length,
      if bytes.length ≤ s.ioSize then ⟨some bytes, bytes.length⟩ else s)

/-- The trusted certificate of an entry that has been found. -/
def trustedOf (found : Option RootEntry) : Option (List Byte) :=
  found.bind fun entry => if entry.trust then entry.cert else none

/-- The certificate of what has been found. -/
theorem computes_certOf (found : Option RootEntry) :
    ComputesCert (certOf found) (copied (trustedOf found)) := by
  cases found with
  | none => exact Body.computes_pure _
  | some entry =>
    have hcopy : ∀ cert : Option (List Byte), ComputesCert (match cert with
        | none => pure (-1)
        | some bytes => copyCert bytes) (copied cert) := by
      intro cert
      cases cert with
      | none => exact Body.computes_pure _
      | some bytes => exact computes_copyCert bytes
    exact (computes_trustedSlot entry).bind (fun _ => rfl) hcopy

/-- The package is searched when nothing has been found. -/
theorem computes_findInPackage (nameStr : List UniChar) (entry : Option RootEntry) :
    ComputesCert (findInPackage store nameStr entry) fun s =>
      (entry.orElse fun _ => (query store.packageSoup nameStr).head?, s) := by
  cases entry with
  | some entry => exact Body.computes_pure _
  | none =>
    refine computes_call_bind rfl (computes_call_bind rfl (computes_call_bind rfl ?_))
    exact computes_call_bind rfl (Body.computes_pure _)

end computes

/-! ## How they end -/

/-- The exceptions that `ListRootCertificates` has met. -/
def listRaised (faults : ℕ → Option NewtonException) (store : RootStore) (outBuf : Bool)
    (ioSize : Option ℕ) : List (NewtonCall × NewtonException) :=
  let bufCursor := if outBuf then some 0 else none
  (listBody store (ioSize.getD 0) faults Trace.start ⟨⟨bufCursor, [], 0⟩, ioSize⟩).2.1.raised

/-- The exceptions that `GetRootCertificate` has met. -/
def certRaised (faults : ℕ → Option NewtonException) (makeString : List Byte → List UniChar)
    (store : RootStore) (name : List Byte) (ioSize : ℕ) : List (NewtonCall × NewtonException) :=
  (certBody makeString store name faults Trace.start ⟨none, ioSize⟩).2.1.raised

/-- A store error of `CursorEntry` on the cursor of the union soup, which is ignored. -/
def Ignored (x : NewtonCall × NewtonException) : Prop :=
  x.1 = .unionCursorEntry ∧ x.2.isStoreError = true

section ends

variable {store : RootStore} {makeString : List Byte → List UniChar} {name : List Byte}

/-- How the search in the union soup ends. -/
def UnionSearched (store : RootStore) (nameStr : List UniChar) (s : CertMemory)
    (raised : List (NewtonCall × NewtonException)) :
    Except NewtonException (Option RootEntry) → CertMemory → Prop
  | .ok found, s' => s' = s ∧ (raised = [] ∧ found = (query store.userSoup nameStr).head? ∨
      (∃ x, Ignored x ∧ raised = [x]) ∧ found = none)
  | .error e, s' => (∃ i, ¬ Ignored (i, e) ∧ raised = [(i, e)]) ∧ s'.ioSize = s.ioSize

/-- The search of the union soup ends with an entry, without one, or with an exception that is not
ignored. -/
theorem ends_findInUnion (nameStr : List UniChar) (s : CertMemory) :
    (findInUnion store nameStr).Ends (UnionSearched store nameStr s) s := by
  unfold findInUnion
  split
  · have hentry : (unionEntry store nameStr).Ends (fun raised r s' => s' = s ∧
        (∀ found, r = .ok found →
          raised = [] ∧ found = (query store.userSoup nameStr).head?) ∧
        ∀ e, r = .error e → raised = [(.unionCursorEntry, e)]) s := by
      refine Body.ends_call_bind (Body.ends_pure ⟨rfl, ?_, by rintro e ⟨⟩⟩) fun e =>
        ⟨rfl, by rintro found ⟨⟩, ?_⟩
      · rintro found ⟨⟩
        exact ⟨rfl, rfl⟩
      · rintro e' ⟨⟩
        rfl
    refine Body.ends_call_bind (hentry.ignoring ?_ ?_ ?_) fun e => ⟨⟨.query, ?_, rfl⟩, rfl⟩
    · rintro raised found s' ⟨rfl, hfound, -⟩
      exact ⟨rfl, .inl (hfound found rfl)⟩
    · rintro raised e s' ⟨rfl, -, hraised⟩ hstore
      -- a store error is dropped by the handler: the search goes on without the soup
      exact ⟨rfl, .inr ⟨⟨_, ⟨rfl, hstore⟩, hraised e rfl⟩, rfl⟩⟩
    · rintro raised e s' ⟨rfl, -, hraised⟩ hstore
      -- any other class leaves the search, and is not one of the ignored errors
      refine ⟨⟨_, fun hignored => ?_, hraised e rfl⟩, rfl⟩
      rw [hignored.2] at hstore
      cases hstore
    · rintro ⟨hcall, -⟩
      cases hcall
  · next hnone =>
    have huser : store.userSoup = [] := by
      rw [RootStore.userSoup, Option.not_isSome_iff_eq_none.mp hnone, Option.getD_none]
    refine Body.ends_pure ⟨rfl, .inl ⟨rfl, ?_⟩⟩
    rw [huser]
    rfl

/-- How `GetRootCertificate` ends before its handlers: with what it computes, of the store
without the union soup when a store error has been ignored; or with an exception that is not. -/
def CertEnds (makeString : List Byte → List UniChar) (store : RootStore) (name : List Byte)
    (s : CertMemory) (raised : List (NewtonCall × NewtonException)) :
    Except NewtonException ℤ → CertMemory → Prop
  | .ok r, s' => (raised = [] ∧ copied (trustedCert makeString store name) s = (r, s')) ∨
      (∃ x, Ignored x ∧ raised = [x]) ∧
        copied (trustedCert makeString { store with unionSoup := none } name) s = (r, s')
  | .error e, s' => (∃ ignored i, (∀ x ∈ ignored, Ignored x) ∧ ¬ Ignored (i, e) ∧
      raised = ignored ++ [(i, e)]) ∧ s'.ioSize = s.ioSize

/-- The exceptions of the other calls are not ignored. -/
theorem not_ignored {i : NewtonCall} (hi : endsLookup i = true) (e : NewtonException) :
    ¬ Ignored (i, e) := fun hignored => of_decide_eq_true hi hignored.1

/-- A call in front that may end it all. -/
theorem ends_call_cert {i : NewtonCall} (hi : endsLookup i = true)
    {k : Unit → StoreBody CertMemory ℤ} {s : CertMemory}
    (h : (k ()).Ends (CertEnds makeString store name s) s) :
    (call i >>= k).Ends (CertEnds makeString store name s) s :=
  Body.ends_call_bind h fun e =>
    ⟨⟨[], i, List.forall_mem_nil _, not_ignored hi e, rfl⟩, rfl⟩

/-- The two searches find what `GetRootCertificate` finds. -/
theorem findEntry_eq (nameStr : List UniChar) :
    ((query store.userSoup nameStr).head?.orElse fun _ =>
      (query store.packageSoup nameStr).head?) = findEntry store nameStr := by
  unfold findEntry
  rw [head?_userSoup]
  cases (query store.userSoup nameStr).head? <;> rfl

/-- After the search in the union soup. -/
theorem computes_searched (found : Option RootEntry) :
    ComputesCert (findInPackage store (makeString name) found >>= certOf)
      (copied (trustedOf (found.orElse fun _ =>
        (query store.packageSoup (makeString name)).head?))) :=
  (computes_findInPackage (makeString name) found).bind (fun _ => rfl) computes_certOf

/-- The body of `GetRootCertificate` ends in one of the three ways. -/
theorem ends_certBody (makeString : List Byte → List UniChar) (store : RootStore)
    (name : List Byte) (s : CertMemory) :
    (certBody makeString store name).Ends (CertEnds makeString store name s) s := by
  refine ends_call_cert rfl (ends_call_cert rfl (ends_call_cert rfl (ends_call_cert rfl ?_)))
  refine ends_call_cert rfl (ends_call_cert rfl (ends_call_cert rfl (ends_call_cert rfl ?_)))
  refine (ends_findInUnion (makeString name) s).bind ?_ ?_
  · rintro raised found s' ⟨rfl, hfound⟩
    refine (computes_searched found s').mono ?_
    intro raised' r s'' hr
    rcases hfound with ⟨rfl, rfl⟩ | ⟨⟨x, hx, rfl⟩, rfl⟩
    · rw [findEntry_eq] at hr
      cases r with
      | ok r => exact .inl ⟨hr.1, hr.2⟩
      | error e =>
        obtain ⟨⟨i, hi, rfl⟩, hsize⟩ := hr
        exact ⟨⟨[], i, List.forall_mem_nil _, not_ignored hi e, rfl⟩, hsize⟩
    · -- the search goes on as if there were no union soup
      cases r with
      | ok r =>
        refine .inr ⟨⟨x, hx, ?_⟩, hr.2⟩
        rw [hr.1, List.append_nil]
      | error e =>
        obtain ⟨⟨i, hi, rfl⟩, hsize⟩ := hr
        refine ⟨⟨[x], i, ?_, not_ignored hi e, rfl⟩, hsize⟩
        exact List.forall_mem_singleton.mpr hx
  · rintro raised e s' ⟨⟨i, hi, rfl⟩, hsize⟩
    exact ⟨⟨[], i, List.forall_mem_nil _, hi, rfl⟩, hsize⟩

end ends

/-! ## Without exceptions -/

section quiet

variable {store : RootStore}

/-- **Without exceptions** `ListRootCertificates` writes the listing. -/
theorem listRootCertificatesCall_quiet (store : RootStore) (outBuf : Bool) (ioSize : Option ℕ) :
    listRootCertificatesCall (fun _ => none) store outBuf ioSize =
      let w := (listing store).foldl (putChar (ioSize.getD 0))
        ⟨if outBuf then some 0 else none, [], 0⟩
      ⟨w.totalSize, w.written, ioSize.map fun _ => w.written.length⟩ := by
  obtain ⟨hok, hmemory⟩ := Body.Computes.quiet (computes_listBody store (ioSize.getD 0)) Trace.start
    ⟨⟨if outBuf then some 0 else none, [], 0⟩, ioSize⟩
  rw [listRootCertificatesCall]
  dsimp only
  rw [hok, hmemory]
  rfl

/-- It is what `SSLConfigure` is told. -/
theorem listRootCertificatesCall_eq (store : RootStore) (ioSize : Option ℕ) :
    (listRootCertificatesCall (fun _ => none) store ioSize.isSome ioSize).result =
        (listRootCertificates store ioSize).result ∧
      (listRootCertificatesCall (fun _ => none) store ioSize.isSome ioSize).written =
        (listRootCertificates store ioSize).written := by
  rw [listRootCertificatesCall_quiet, listRootCertificates_eq]
  cases ioSize <;> exact ⟨rfl, rfl⟩

/-- The call is its body and the handlers. -/
theorem getRootCertificateCall_of {faults : ℕ → Option NewtonException}
    {makeString : List Byte → List UniChar} {store : RootStore} {name : List Byte} {ioSize : ℕ}
    {r : Except NewtonException ℤ} {t : Trace NewtonCall NewtonException} {s : CertMemory}
    (h : certBody makeString store name faults Trace.start ⟨none, ioSize⟩ = (r, t, s)) :
    getRootCertificateCall faults makeString store name ioSize = certOutcome r s := by
  rw [getRootCertificateCall, h]

/-- What is copied of a certificate is what `SSLConfigure` is told. -/
theorem copied_eq (makeString : List Byte → List UniChar) (store : RootStore) (name : List Byte)
    (ioSize : ℕ) :
    (copied (trustedCert makeString store name) ⟨none, ioSize⟩).1 =
        (getRootCertificate makeString store name ioSize).result ∧
      (copied (trustedCert makeString store name) ⟨none, ioSize⟩).2.copied =
        (getRootCertificate makeString store name ioSize).copied := by
  rw [getRootCertificate_eq]
  cases trustedCert makeString store name with
  | none => exact ⟨rfl, rfl⟩
  | some bytes =>
    refine ⟨rfl, ?_⟩
    show (if bytes.length ≤ ioSize then _ else _ : CertMemory).copied = _
    dsimp only
    split <;> rfl

/-- Without exceptions `GetRootCertificate` computes what its body computes. -/
theorem getRootCertificateCall_copied (makeString : List Byte → List UniChar) (store : RootStore)
    (name : List Byte) (ioSize : ℕ) :
    getRootCertificateCall (fun _ => none) makeString store name ioSize =
      certOutcome (.ok (copied (trustedCert makeString store name) ⟨none, ioSize⟩).1)
        (copied (trustedCert makeString store name) ⟨none, ioSize⟩).2 := by
  have hends := (ends_certBody makeString store name ⟨none, ioSize⟩).quiet Trace.start
  rcases hend : certBody makeString store name (fun _ => none) Trace.start ⟨none, ioSize⟩ with
    ⟨e | r, t, s⟩ <;> rw [hend] at hends <;> rw [getRootCertificateCall_of hend]
  · obtain ⟨⟨ignored, i, -, -, hraised⟩, -⟩ := hends
    cases ignored <;> cases hraised
  · rcases hends with ⟨-, hcopied⟩ | ⟨⟨x, -, hraised⟩, -⟩
    · rw [hcopied]
    · cases hraised

/-- **Without exceptions** `GetRootCertificate` gives what `SSLConfigure` is told. -/
theorem getRootCertificateCall_quiet (makeString : List Byte → List UniChar) (store : RootStore)
    (name : List Byte) (ioSize : ℕ) :
    (getRootCertificateCall (fun _ => none) makeString store name ioSize).result =
        (getRootCertificate makeString store name ioSize).result ∧
      (getRootCertificateCall (fun _ => none) makeString store name ioSize).copied =
        (getRootCertificate makeString store name ioSize).copied := by
  rw [getRootCertificateCall_copied]
  exact copied_eq makeString store name ioSize

end quiet

end StoreCalls

end NewtonTLS
