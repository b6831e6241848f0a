/-
# The store of root certificates

`PMbedTLS::ListRootCertificates` and `PMbedTLS::GetRootCertificate` over the soup of the
package and the union soup, without store errors.  A soup is the list of its entries in
the order of a cursor; a query with `beginKey` and `endKey` a tag selects the entries with
that tag.  `MakeString`, which is not part of the source, is a parameter.
-/
import NewtonTLS.ConnectionEnd

namespace NewtonTLS

/-! ## Soups -/

/-- A character of a Newton string. -/
abbrev UniChar : Type := UInt16

/-- The value of a slot: NIL, a binary, or another object. -/
inductive SlotValue : Type where
  | nil
  | binary (bytes : List Byte)
  | other
  deriving DecidableEq, Repr

/-- An entry of a soup of certificates; `trust` is whether the slot is non-NIL. -/
structure RootEntry : Type where
  tag : List UniChar
  trust : Bool
  pem : SlotValue
  der : SlotValue
  deriving DecidableEq, Repr

/-- The soup of the package, and the union soup if there is one. -/
structure RootStore : Type where
  packageSoup : List RootEntry
  unionSoup : Option (List RootEntry)
  deriving DecidableEq, Repr

/-- `Query` with `beginKey` and `endKey` set to `key`. -/
def query (soup : List RootEntry) (key : List UniChar) : List RootEntry :=
  soup.filter fun entry => decide (entry.tag = key)

/-- `MAKEINT(n)`: the tagged value. -/
def MAKEINT (n : ℕ) : ℕ := n <<< 2

/-- The entries that a cursor shows when it is moved by `n` entries at a time, after it has
been moved over `k` entries. -/
def cursorEntries {α : Type} (n : ℕ) : ℕ → List α → List α
  | _, [] => []
  | 0, entry :: soup => entry :: cursorEntries n (n - 1) soup
  | k + 1, _ :: soup => cursorEntries n k soup

/-! ## `ListRootCertificates` -/

/-- The position of `bufCursor` in the buffer, or NULL, what has been written, and
`totalSize`. -/
structure Listing : Type where
  bufCursor : Option ℕ
  written : List Byte
  totalSize : ℕ
  deriving DecidableEq, Repr

/-- One byte of a tag; `endCursor` is the position of the end of the buffer. -/
def putChar (endCursor : ℕ) (w : Listing) (c : Byte) : Listing :=
  match w.bufCursor with
  | some p =>
    { bufCursor := if p + 1 = endCursor then none else some (p + 1)
      written := w.written ++ [c]
      totalSize := w.totalSize + 1 }
  | none => { w with totalSize := w.totalSize + 1 }

/-- The characters of a tag, each cut down to a byte, up to one that is 0. -/
def putTag (endCursor : ℕ) : List UniChar → Listing → Listing
  | [], w => putChar endCursor w 0
  | u :: tag, w =>
    let c := u.toUInt8
    if c = 0 then putChar endCursor w c
    else putTag endCursor tag (putChar endCursor w c)

/-- An entry of the package, unless the union soup has its tag. -/
def listPackageEntry (store : RootStore) (endCursor : ℕ) (w : Listing) (entry : RootEntry) :
    Listing :=
  let unionEntry := match store.unionSoup with
    | some soup => (query soup entry.tag).head?
    | none => none
  if unionEntry.isNone then putTag endCursor entry.tag w else w

/-- `ListRootCertificates(outBuf, ioSize)`, where `outBuf` is NULL when `ioSize` is. -/
def listRootCertificates (store : RootStore) (ioSize : Option ℕ) : ListAnswer :=
  let endCursor := ioSize.getD 0
  let w : Listing := ⟨ioSize.map fun _ => 0, [], 0⟩
  let w := (cursorEntries 1 0 store.packageSoup).foldl (listPackageEntry store endCursor) w
  let w := match store.unionSoup with
    | some soup =>
      (cursorEntries (MAKEINT 1) 0 soup).foldl
        (fun w (entry : RootEntry) => putTag endCursor entry.tag w) w
    | none => w
  ⟨w.totalSize, w.written⟩

/-! ## `GetRootCertificate` -/

/-- The entry that is found under a name: one of the union soup, or else one of the package. -/
def findEntry (store : RootStore) (nameStr : List UniChar) : Option RootEntry :=
  let entry := match store.unionSoup with
    | some soup => (query soup nameStr).head?
    | none => none
  match entry with
  | some entry => some entry
  | none => (query store.packageSoup nameStr).head?

/-- `pem`, or `der` when that is NIL, if it is a binary. -/
def RootEntry.cert (entry : RootEntry) : Option (List Byte) :=
  let cert := if entry.pem = .nil then entry.der else entry.pem
  match cert with
  | .binary bytes => some bytes
  | _ => none

/-- `PMbedTLS::GetRootCertificate`, without exceptions. -/
def getRootCertificate (makeString : List Byte → List UniChar) (store : RootStore)
    (name : List Byte) (ioSize : ℕ) : CertAnswer :=
  match findEntry store (makeString name) with
  | none => ⟨-1, none⟩
  | some entry =>
    if entry.trust then
      match entry.cert with
      | none => ⟨-1, none⟩
      | some bytes => ⟨bytes.length, if bytes.length ≤ ioSize then some bytes else none⟩
    else ⟨-1, none⟩

/-! ## Which entries count -/

/-- The union soup, empty if there is none. -/
def RootStore.userSoup (store : RootStore) : List RootEntry := store.unionSoup.getD []

/-- The union soup has an entry with this tag. -/
def RootStore.overrides (store : RootStore) (tag : List UniChar) : Bool :=
  store.userSoup.any fun entry => decide (entry.tag = tag)

/-- The entries whose certificates are trust anchors: those of the union soup that are trusted,
and those of the package that are trusted and that no entry of the union soup overrides. -/
def RootStore.Admits (store : RootStore) (entry : RootEntry) : Prop :=
  entry.trust = true ∧ (entry ∈ store.userSoup ∨
    entry ∈ store.packageSoup ∧ store.overrides entry.tag = false)

/-- A query finds the entries with a tag. -/
theorem mem_query {soup : List RootEntry} {key : List UniChar} {entry : RootEntry} :
    entry ∈ query soup key ↔ entry ∈ soup ∧ entry.tag = key := by
  rw [query, List.mem_filter, decide_eq_true_iff]

/-- Nothing is found in a soup exactly when no entry has the tag. -/
theorem head?_query_eq_none {soup : List RootEntry} {key : List UniChar} :
    (query soup key).head? = none ↔ (soup.any fun entry => decide (entry.tag = key)) = false := by
  rw [List.head?_eq_none_iff, query, List.filter_eq_nil_iff, List.any_eq_false]

/-- What the union soup has under a tag. -/
theorem head?_userSoup (store : RootStore) (key : List UniChar) :
    (match store.unionSoup with
      | some soup => (query soup key).head?
      | none => none) = (query store.userSoup key).head? := by
  unfold RootStore.userSoup
  cases store.unionSoup <;> rfl

/-- An entry that is found and trusted counts. -/
theorem findEntry_admits {store : RootStore} {nameStr : List UniChar} {entry : RootEntry}
    (hfound : findEntry store nameStr = some entry) (htrust : entry.trust = true) :
    entry.tag = nameStr ∧ store.Admits entry := by
  unfold findEntry at hfound
  rw [head?_userSoup] at hfound
  cases huser : (query store.userSoup nameStr).head? with
  | some user =>
    rw [huser] at hfound
    obtain rfl : user = entry := Option.some.inj hfound
    obtain ⟨hmem, htag⟩ := mem_query.mp (List.mem_of_head? huser)
    exact ⟨htag, htrust, .inl hmem⟩
  | none =>
    rw [huser] at hfound
    obtain ⟨hmem, htag⟩ := mem_query.mp (List.mem_of_head? hfound)
    refine ⟨htag, htrust, .inr ⟨hmem, ?_⟩⟩
    rw [htag]
    exact head?_query_eq_none.mp huser

/-- The certificate under a name, if it is there and trusted. -/
def trustedCert (makeString : List Byte → List UniChar) (store : RootStore) (name : List Byte) :
    Option (List Byte) :=
  (findEntry store (makeString name)).bind fun entry => if entry.trust then entry.cert else none

variable {makeString : List Byte → List UniChar} {store : RootStore} {name : List Byte}

/-- A trusted certificate is that of an entry that counts. -/
theorem trustedCert_eq_some {bytes : List Byte}
    (h : trustedCert makeString store name = some bytes) :
    ∃ entry, findEntry store (makeString name) = some entry ∧ store.Admits entry ∧
      entry.cert = some bytes := by
  obtain ⟨entry, hfound, hcert⟩ := Option.bind_eq_some_iff.mp h
  split at hcert
  · next htrust => exact ⟨entry, hfound, (findEntry_admits hfound htrust).2, hcert⟩
  · cases hcert

/-- `GetRootCertificate` fails, or says how long the trusted certificate is and copies it if it
fits. -/
theorem getRootCertificate_eq (ioSize : ℕ) :
    getRootCertificate makeString store name ioSize =
      match trustedCert makeString store name with
      | none => ⟨-1, none⟩
      | some bytes => ⟨bytes.length, if bytes.length ≤ ioSize then some bytes else none⟩ := by
  unfold getRootCertificate trustedCert
  cases findEntry store (makeString name) with
  | none => rfl
  | some entry =>
    show (if entry.trust then _ else _) = _
    rw [Option.bind_some]
    cases entry.trust with
    | false => rfl
    | true => cases entry.cert <;> rfl

/-- What is copied out is the trusted certificate. -/
theorem getRootCertificate_copied {ioSize : ℕ} {bytes : List Byte}
    (h : (getRootCertificate makeString store name ioSize).copied = some bytes) :
    trustedCert makeString store name = some bytes := by
  rw [getRootCertificate_eq] at h
  split at h
  · cases h
  · next cert hcert =>
    dsimp only at h
    split at h
    · rw [hcert, h]
    · cases h

/-- When nothing is copied the result says that the buffer is too small. -/
theorem getRootCertificate_not_copied {ioSize : ℕ}
    (h : (getRootCertificate makeString store name ioSize).copied = none)
    (hfound : 0 ≤ (getRootCertificate makeString store name ioSize).result) :
    ioSize < (getRootCertificate makeString store name ioSize).result.toNat := by
  rw [getRootCertificate_eq] at h hfound ⊢
  cases hcert : trustedCert makeString store name with
  | none =>
    rw [hcert] at hfound
    exact absurd hfound (show ¬ (0 : Int) ≤ -1 by decide)
  | some cert =>
    simp only [hcert] at h
    split at h
    · cases h
    · show ioSize < cert.length
      omega

end NewtonTLS
