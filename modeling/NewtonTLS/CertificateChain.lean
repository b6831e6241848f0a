/-
# The certificates of a context

The functions of `Protocol/PMbedTLS.cpp` that read a chain of parsed certificates: `X509CrtCount`,
`X509CrtGetDER`, and the seven functions that walk to the certificate at an index and read one of
its fields.  The walks agree with the count for every index, negative ones included.
`X509CrtGetDER` does not walk: it gives the DER of the first certificate for every index.  So all
eight speak of one certificate exactly when the certificate at the index has the DER of the first
(`accessors_agree_iff`).
-/
import NewtonTLS.CertificateDates
import NewtonTLS.RootStore

namespace NewtonTLS

namespace CertificateChain

open CalendarTime CertificateDates

/-! ## Contexts -/

/-- `mbedtls_x509_name`: the types and values of a distinguished name. -/
abbrev X509Name : Type := List (List Byte × List Byte)

/-- `mbedtls_x509_crt` without `next`; `raw.p` is NULL in a context that nothing has been parsed
into. -/
structure Crt : Type where
  raw : Option (List Byte)
  version : ℤ
  serial : List Byte
  issuer : X509Name
  subject : X509Name
  valid_from : X509Time
  valid_to : X509Time
  sig_oid : List Byte
  sig_pk : ℕ
  sig_md : ℕ
  sig_opts : Option ℕ
  deriving DecidableEq

/-- The object of a binary: the certificate in it, and those that are linked behind it. -/
structure Context : Type where
  crt : Crt
  next : List Crt
  deriving DecidableEq

/-- The string functions of mbedTLS: what they return, and the string in the buffer. -/
structure Gets : Type where
  mbedtlsX509SerialGets : List Byte → ℤ × List Byte
  mbedtlsX509DnGets : X509Name → ℤ × List Byte
  mbedtlsX509SigAlgGets : List Byte → ℕ → ℕ → Option ℕ → ℤ × List Byte

/-- None of them fails. -/
structure Gets.Succeed (gets : Gets) : Prop where
  serial : ∀ serial, 0 ≤ (gets.mbedtlsX509SerialGets serial).1
  dn : ∀ name, 0 ≤ (gets.mbedtlsX509DnGets name).1
  sigAlg : ∀ oid pk md opts, 0 ≤ (gets.mbedtlsX509SigAlgGets oid pk md opts).1

variable {α : Type} {gets : Gets} {makeInt : ℤ → ℤ} {makeString : List Byte → List UniChar}

/-! ## The functions -/

/-- `while (crt->next != NULL)`. -/
def countFrom : List Crt → ℕ → ℕ
  | [], ret => ret
  | _ :: next, ret => countFrom next (ret + 1)

/-- `X509CrtCount`, 0 for a context without a certificate. -/
def x509CrtCount (x : Context) : ℕ := if x.crt.raw = none then 0 else countFrom x.next 1

/-- `X509CrtGetDER`, nil for a context without a certificate; `inIndex` is not read. -/
def x509CrtGetDER (x : Context) (_inIndex : ℤ) : Except Thrown (Option (List Byte)) := .ok x.crt.raw

/-- `while (index != 0)`: the certificate `index` places further. -/
def walk : Crt → List Crt → ℤ → Option Crt
  | crt, [], index => if index = 0 then some crt else none
  | crt, next :: rest, index => if index = 0 then some crt else walk next rest (index - 1)

/-- The functions that walk, which differ in what they read. -/
def x509CrtGet (read : Crt → Except Thrown α) (x : Context) (inIndex : ℤ) : Except Thrown α :=
  match x.crt.raw with
  | none => .error (.outOfBounds inIndex)
  | some _ =>
    match walk x.crt x.next inIndex with
    | none => .error (.outOfBounds inIndex)
    | some crt => read crt

/-- `if (r < 0)` after a string function. -/
def afterGets (p : ℤ × List Byte) (result : List Byte → α) : Except Thrown α :=
  if p.1 < 0 then .error (.mbedTLS p.1) else .ok (result p.2)

/-- `X509CrtGetVersion`. -/
def x509CrtGetVersion (makeInt : ℤ → ℤ) : Context → ℤ → Except Thrown ℤ :=
  x509CrtGet fun crt => .ok (makeInt crt.version)

/-- `X509CrtGetSerialNumber`. -/
def x509CrtGetSerialNumber (gets : Gets) (makeString : List Byte → List UniChar) :
    Context → ℤ → Except Thrown (List UniChar) :=
  x509CrtGet fun crt => afterGets (gets.mbedtlsX509SerialGets crt.serial) makeString

/-- `X509CrtGetIssuerName`. -/
def x509CrtGetIssuerName (gets : Gets) (makeString : List Byte → List UniChar) :
    Context → ℤ → Except Thrown (List UniChar) :=
  x509CrtGet fun crt => afterGets (gets.mbedtlsX509DnGets crt.issuer) makeString

/-- `X509CrtGetSubjectName`. -/
def x509CrtGetSubjectName (gets : Gets) (makeString : List Byte → List UniChar) :
    Context → ℤ → Except Thrown (List UniChar) :=
  x509CrtGet fun crt => afterGets (gets.mbedtlsX509DnGets crt.subject) makeString

/-- What the functions for the dates look at in a certificate. -/
def dates (gets : Gets) (c : Crt) : X509Crt :=
  ⟨c.raw.isNone, (gets.mbedtlsX509DnGets c.subject).1, c.valid_from, c.valid_to⟩

/-- The subject is read for nothing here and in the next function. -/
def x509CrtGetIssueDate (gets : Gets) (makeInt : ℤ → ℤ) (x : Context) (inIndex : ℤ) :
    Except Thrown (Option ℤ) :=
  CertificateDates.x509CrtGetIssueDate makeInt (dates gets x.crt) (x.next.map (dates gets)) inIndex

/-- `X509CrtGetExpirationDate`, on the dates of the chain. -/
def x509CrtGetExpirationDate (gets : Gets) (makeInt : ℤ → ℤ) (x : Context) (inIndex : ℤ) :
    Except Thrown (Option ℤ) :=
  CertificateDates.x509CrtGetExpirationDate makeInt (dates gets x.crt) (x.next.map (dates gets))
    inIndex

/-- `X509CrtGetSignatureAlgorithm`. -/
def x509CrtGetSignatureAlgorithm (gets : Gets) (makeString : List Byte → List UniChar) :
    Context → ℤ → Except Thrown (List UniChar) :=
  x509CrtGet fun crt => afterGets
    (gets.mbedtlsX509SigAlgGets crt.sig_oid crt.sig_pk crt.sig_md crt.sig_opts) makeString

/-! ## The chain -/

/-- The certificates of a context. -/
def Context.chain (x : Context) : List Crt := if x.crt.raw = none then [] else x.crt :: x.next

/-- The loop counts the certificates that follow. -/
theorem countFrom_eq (next : List Crt) : ∀ ret, countFrom next ret = ret + next.length := by
  induction next with
  | nil => exact fun _ => rfl
  | cons crt next ih =>
    intro ret
    rw [countFrom, ih, List.length_cons, Nat.add_assoc, Nat.add_comm 1]

/-- `X509CrtCount` is the length of the chain. -/
theorem x509CrtCount_eq (x : Context) : x509CrtCount x = x.chain.length := by
  unfold x509CrtCount Context.chain
  by_cases hnone : x.crt.raw = none
  · rw [if_pos hnone, if_pos hnone]
    rfl
  · rw [if_neg hnone, if_neg hnone, countFrom_eq, List.length_cons, Nat.add_comm]

/-- The walk comes to the certificate at the index, or to the end of the list. -/
theorem walk_eq (next : List Crt) : ∀ (crt : Crt) (index : ℤ),
    walk crt next index = if 0 ≤ index then (crt :: next)[index.toNat]? else none := by
  induction next with
  | nil =>
    intro crt index
    unfold walk
    by_cases hzero : index = 0
    · rw [if_pos hzero, if_pos hzero.ge, hzero]
      rfl
    · rw [if_neg hzero]
      split
      · rw [List.getElem?_eq_none]
        rw [List.length_singleton]
        omega
      · rfl
  | cons next rest ih =>
    intro crt index
    unfold walk
    by_cases hzero : index = 0
    · rw [if_pos hzero, if_pos hzero.ge, hzero]
      rfl
    · rw [if_neg hzero, ih]
      by_cases hneg : 0 ≤ index
      · rw [if_pos (by omega), if_pos hneg, show index.toNat = (index - 1).toNat + 1 by omega,
          List.getElem?_cons_succ]
      · rw [if_neg (by omega), if_neg hneg]

/-- `f` gives `data` of the certificate at the index, and raises `kNSErrOutOfBounds` when there is
none. -/
def Reports (data : Crt → α) (f : Context → ℤ → Except Thrown α) (x : Context) (index : ℤ) : Prop :=
  if 0 ≤ index ∧ index < x509CrtCount x then
    ∃ c, x.chain[index.toNat]? = some c ∧ f x index = .ok (data c)
  else f x index = .error (.outOfBounds index)

/-- Every function that walks reports what it reads. -/
theorem reports_get {data : Crt → α} {read : Crt → Except Thrown α}
    (hread : ∀ c, read c = .ok (data c)) (x : Context) (index : ℤ) :
    Reports data (x509CrtGet read) x index := by
  unfold Reports x509CrtGet
  rw [x509CrtCount_eq, walk_eq]
  cases hraw : x.crt.raw with
  | none =>
    have hchain : x.chain = [] := if_pos hraw
    rw [hchain, if_neg]
    rintro ⟨hpos, hlt⟩
    rw [List.length_nil] at hlt
    omega
  | some raw =>
    have hchain : x.chain = x.crt :: x.next := if_neg (by rw [hraw]; exact Option.some_ne_none raw)
    rw [hchain]
    dsimp only
    by_cases hpos : 0 ≤ index
    · rw [if_pos hpos]
      by_cases hlt : index < (x.crt :: x.next).length
      · have hin : index.toNat < (x.crt :: x.next).length := by omega
        rw [if_pos ⟨hpos, hlt⟩, List.getElem?_eq_getElem hin]
        exact ⟨_, rfl, hread _⟩
      · rw [if_neg fun h => hlt h.2, List.getElem?_eq_none (by omega)]
    · rw [if_neg hpos, if_neg fun h => hpos h.1]

/-- `X509CrtGetDER` reports the DER at the index when it is that of the first certificate. -/
theorem reports_der_iff (x : Context) (index : ℤ) : Reports Crt.raw x509CrtGetDER x index ↔
    0 ≤ index ∧ ∃ c, x.chain[index.toNat]? = some c ∧ c.raw = x.crt.raw := by
  unfold Reports x509CrtGetDER
  rw [x509CrtCount_eq]
  constructor
  · intro h
    split at h
    · rename_i hin
      obtain ⟨c, hc, hraw⟩ := h
      exact ⟨hin.1, c, hc, (Except.ok.inj hraw).symm⟩
    · cases h
  · rintro ⟨hpos, c, hc, hraw⟩
    have hin := (List.getElem?_eq_some_iff.mp hc).1
    rw [if_pos ⟨hpos, by omega⟩]
    exact ⟨c, hc, congrArg Except.ok hraw.symm⟩

/-- A string function that succeeds gives its string. -/
theorem afterGets_eq {p : ℤ × List Byte} (hp : 0 ≤ p.1) (result : List Byte → α) :
    afterGets p result = .ok (result p.2) := if_neg (Int.not_lt.mpr hp)

/-! ## The dates -/

/-- The walk of the dates is that of the certificates. -/
theorem crtAt_dates (next : List Crt) : ∀ (crt : Crt) (index : ℤ),
    crtAt (dates gets crt) (next.map (dates gets)) index =
      (walk crt next index).map (dates gets) := by
  induction next with
  | nil =>
    intro crt index
    show (if index = 0 then _ else _) = Option.map _ (if index = 0 then _ else _)
    split
    · rfl
    · rfl
  | cons next rest ih =>
    intro crt index
    show (if index = 0 then _ else _) = Option.map _ (if index = 0 then _ else _)
    split
    · rfl
    · exact ih next (index - 1)

/-- A function for a date walks as the others do. -/
theorem x509CrtGetDate_eq (date : Crt → X509Time) (result : X509Crt → X509Time)
    (hdate : ∀ c, result (dates gets c) = date c) (x : Context) (index : ℤ) :
    x509CrtGetDate result makeInt (dates gets x.crt) (x.next.map (dates gets)) index =
      x509CrtGet (fun crt => afterGets (gets.mbedtlsX509DnGets crt.subject)
        fun _ => minutesRef makeInt (date crt)) x index := by
  unfold x509CrtGet x509CrtGetDate
  rw [crtAt_dates]
  cases hraw : x.crt.raw with
  | none => rw [if_pos (show (dates gets x.crt).rawIsNull = true by rw [dates, hraw]; rfl)]
  | some raw =>
    rw [if_neg (show ¬ (dates gets x.crt).rawIsNull = true by
      rw [dates, hraw]
      exact Bool.false_ne_true)]
    cases walk x.crt x.next index with
    | none => rfl
    | some c =>
      rw [Option.map_some]
      dsimp only
      rw [hdate]
      rfl

/-- It reports the date of the certificate at the index. -/
theorem reports_date (hgets : gets.Succeed) (date : Crt → X509Time) (result : X509Crt → X509Time)
    (hdate : ∀ c, result (dates gets c) = date c) (x : Context) (index : ℤ) :
    Reports (fun c => minutesRef makeInt (date c)) (fun x index => x509CrtGetDate result makeInt
      (dates gets x.crt) (x.next.map (dates gets)) index) x index := by
  unfold Reports
  dsimp only
  rw [x509CrtGetDate_eq date result hdate]
  exact reports_get (fun c => afterGets_eq (hgets.dn _) _) x index

/-! ## One certificate for an index -/

/-- All eight functions report the certificate at the index. -/
structure Agree (gets : Gets) (makeInt : ℤ → ℤ) (makeString : List Byte → List UniChar)
    (x : Context) (index : ℤ) : Prop where
  der : Reports Crt.raw x509CrtGetDER x index
  version : Reports (fun c => makeInt c.version) (x509CrtGetVersion makeInt) x index
  serialNumber : Reports (fun c => makeString (gets.mbedtlsX509SerialGets c.serial).2)
    (x509CrtGetSerialNumber gets makeString) x index
  issuerName : Reports (fun c => makeString (gets.mbedtlsX509DnGets c.issuer).2)
    (x509CrtGetIssuerName gets makeString) x index
  subjectName : Reports (fun c => makeString (gets.mbedtlsX509DnGets c.subject).2)
    (x509CrtGetSubjectName gets makeString) x index
  issueDate : Reports (fun c => minutesRef makeInt c.valid_from)
    (x509CrtGetIssueDate gets makeInt) x index
  expirationDate : Reports (fun c => minutesRef makeInt c.valid_to)
    (x509CrtGetExpirationDate gets makeInt) x index
  signatureAlgorithm : Reports
    (fun c => makeString (gets.mbedtlsX509SigAlgGets c.sig_oid c.sig_pk c.sig_md c.sig_opts).2)
    (x509CrtGetSignatureAlgorithm gets makeString) x index

/-- **The accessors agree** for an index if and only if the chain has a certificate there, and its
DER is that of the first one. -/
theorem accessors_agree_iff (gets : Gets) (makeInt : ℤ → ℤ)
    (makeString : List Byte → List UniChar) (x : Context) (index : ℤ) (hgets : gets.Succeed) :
    Agree gets makeInt makeString x index ↔
      0 ≤ index ∧ ∃ c, x.chain[index.toNat]? = some c ∧ c.raw = x.crt.raw := by
  rw [← reports_der_iff]
  refine ⟨Agree.der, fun hder => ⟨hder, ?_, ?_, ?_, ?_, ?_, ?_, ?_⟩⟩
  · exact reports_get (fun _ => rfl) x index
  · exact reports_get (fun c => afterGets_eq (hgets.serial _) _) x index
  · exact reports_get (fun c => afterGets_eq (hgets.dn _) _) x index
  · exact reports_get (fun c => afterGets_eq (hgets.dn _) _) x index
  · exact reports_date hgets Crt.valid_from X509Crt.valid_from (fun _ => rfl) x index
  · exact reports_date hgets Crt.valid_to X509Crt.valid_to (fun _ => rfl) x index
  · exact reports_get (fun c => afterGets_eq (hgets.sigAlg _ _ _ _) _) x index

/-- A certificate with nothing but its DER and its version. -/
def plainCrt (raw : List Byte) (version : ℤ) : Crt :=
  ⟨some raw, version, [], [], [], ⟨2000, 1, 1, 0, 0, 0⟩, ⟨2001, 1, 1, 0, 0, 0⟩, [], 0, 0, none⟩

/-- String functions that write nothing. -/
def plainGets : Gets := ⟨fun _ => (0, []), fun _ => (0, []), fun _ _ _ _ => (0, [])⟩

theorem plainGets_succeed : plainGets.Succeed :=
  ⟨fun _ => le_rfl, fun _ => le_rfl, fun _ _ _ _ => le_rfl⟩

/-- The first of two certificates. -/
theorem accessors_agree_iff_first : plainGets.Succeed ∧
    Agree plainGets id (List.map UInt8.toUInt16) ⟨plainCrt [1] 3, [plainCrt [2] 1]⟩ 0 :=
  ⟨plainGets_succeed, (accessors_agree_iff plainGets id _ _ 0 plainGets_succeed).mpr
    ⟨le_rfl, plainCrt [1] 3, rfl, rfl⟩⟩

/-- The second of two certificates: the DER is that of the first. -/
theorem not_accessors_agree : ¬ ∀ (gets : Gets) (makeInt : ℤ → ℤ)
    (makeString : List Byte → List UniChar) (x : Context) (index : ℤ), gets.Succeed →
    Agree gets makeInt makeString x index := by
  intro hall
  have hagree := hall plainGets id (List.map UInt8.toUInt16)
    ⟨plainCrt [1] 3, [plainCrt [2] 1]⟩ 1 plainGets_succeed
  obtain ⟨-, c, hc, hraw⟩ := (reports_der_iff _ _).mp hagree.der
  rw [← Option.some.inj hc] at hraw
  exact absurd hraw (by decide)

end CertificateChain

end NewtonTLS
