/-
# Distrust is enforced

Whatever names are fed to the loading loop of `SSLConfigure`, what `GetRootCertificate`
copies out and what is parsed is the certificate of an entry that counts
(`RootStore.Admits`): one that is trusted and, if it is an entry of the package, that no
entry of the union soup overrides.  The chain of trust anchors holds nothing else but what
the certificate-authority options have supplied.
-/
import NewtonTLS.ConnectionEndChain
import NewtonTLS.RootStore

open Reentrant

namespace NewtonTLS

namespace Distrust

/-! ## What is observed -/

/-- Whether a certificate-authority option is being handled, what such options have supplied,
and what has been loaded, with the buffer it was parsed from. -/
structure Seen : Type where
  inOption : Bool
  supplied : List Certificate
  loaded : List (List Byte × Certificate)
  deriving DecidableEq

/-- Certificates are parsed from `buf`. -/
def Seen.parse (g : Seen) (buf : List Byte) (added : List Certificate) : Seen :=
  if g.inOption then { g with supplied := g.supplied ++ added }
  else { g with loaded := g.loaded ++ added.map fun c => (buf, c) }

/-- One event. -/
def next (g : Seen) : Label CESig → Seen
  | .enter (.processOptionStart (.sslCertificateAuthority _)) => { g with inOption := true }
  | .leave (.processOptionStart (.sslCertificateAuthority _)) _ => { g with inOption := false }
  | .asked (.mbedtlsX509CrtParse buf) a => g.parse buf (ParseAnswer.added a)
  | _ => g

/-- Nothing has been disabled, looked up or parsed. -/
abbrev monitor : Monitor CESig where
  Obs := Seen
  init := ⟨false, [], []⟩
  next := next

section store

variable (makeString : List Byte → List UniChar) (store : RootStore)

/-- The certificate store answers for `GetRootCertificate`. -/
def fromStore (_ : List Call) (_ : Seen) (_ : ConnectionEnd) : Label CESig → Bool
  | .asked (.getRootCertificate name ioSize) a =>
    decide (a = getRootCertificate makeString store name ioSize)
  | _ => true

/-- The bytes are the certificate of an entry that counts. -/
def Trusted (bytes : List Byte) : Prop := ∃ entry, store.Admits entry ∧ entry.cert = some bytes

/-- Only certificates of entries that count are copied out, and parsed unless an option has
supplied them. -/
def Enforced (g : Seen) : Label CESig → Prop
  | .asked (.getRootCertificate name _) a => ∀ bytes, a.copied = some bytes →
    ∃ entry, findEntry store (makeString name) = some entry ∧ store.Admits entry ∧
      entry.cert = some bytes
  | .asked (.mbedtlsX509CrtParse buf) _ => g.inOption = true ∨ Trusted store buf
  | _ => True

/-- Every trust anchor was supplied by an option, or loaded from a certificate that counts. -/
def Anchors (g : Seen) (chain : List Certificate) : Prop :=
  ∀ c ∈ chain, c ∈ g.supplied ∨ ∃ p ∈ g.loaded, p.2 = c ∧ Trusted store p.1

/-! ## The invariant -/

variable {makeString} {store}

/-- Parsing a buffer that is supplied by an option or trusted. -/
theorem Anchors.parse {g : Seen} {chain : List Certificate} (h : Anchors store g chain)
    {buf : List Byte} (hbuf : g.inOption = true ∨ Trusted store buf) (added : List Certificate) :
    Anchors store (g.parse buf added) (chain ++ added) := by
  intro c hc
  unfold Seen.parse
  split
  · rcases List.mem_append.mp hc with hold | hnew
    · rcases h c hold with hsupplied | hloaded
      · exact .inl (List.mem_append_left _ hsupplied)
      · exact .inr hloaded
    · exact .inl (List.mem_append_right _ hnew)
  · next hnot =>
    have htrusted : Trusted store buf := hbuf.resolve_left hnot
    rcases List.mem_append.mp hc with hold | hnew
    · rcases h c hold with hsupplied | ⟨p, hp, hloaded⟩
      · exact .inl hsupplied
      · exact .inr ⟨p, List.mem_append_left _ hp, hloaded⟩
    · refine .inr ⟨(buf, c), List.mem_append_right _ ?_, rfl, htrusted⟩
      exact List.mem_map.mpr ⟨c, hnew, rfl⟩

variable (makeString) (store)

/-- The contract. -/
def trust : ChainContract monitor where
  Holds := Anchors store
  Every := fun g _ x => Enforced makeString store g x
  quiet := by
    intro g s x hx
    cases x with
    | enter e => cases e <;> first | exact ⟨trivial, rfl⟩ | cases hx
    | leave e v => cases e <;> first | exact ⟨trivial, rfl⟩ | cases hx
    | asked q a => cases q <;> first | exact ⟨trivial, rfl⟩ | cases hx
    | calls _ c => exact ⟨trivial, rfl⟩
    | resumes c r => exact ⟨trivial, rfl⟩

/-- Beginning or ending a request parses nothing. -/
theorem entered {g : Seen} {chain : List Certificate} (e : Entry) (h : Anchors store g chain) :
    Anchors store (next g (.enter e)) chain := by
  cases e with
  | processOptionStart o => cases o <;> exact h
  | _ => exact h

/-- Leaving a function keeps the anchors. -/
theorem left {g : Seen} {chain : List Certificate} (e : Entry) (v : Option Value)
    (h : Anchors store g chain) : Anchors store (next g (.leave e v)) chain := by
  cases e with
  | processOptionStart o => cases o <;> exact h
  | _ => exact h

/-- What the loading loop parses has just been copied out, also after the block has grown. -/
theorem stored_trusted {name : List Byte} {size : ℕ} {cert : Block} {a : CertAnswer}
    (ha : a = getRootCertificate makeString store name size) (hfound : 0 ≤ a.result)
    (hfits : a.result.toNat ≤ sizeAfter size a.copied) :
    Trusted store ((blockAfter cert a.copied).bytes.take (sizeAfter size a.copied)) := by
  subst ha
  cases hcopied : (getRootCertificate makeString store name size).copied with
  | none =>
    have hlong := getRootCertificate_not_copied hcopied hfound
    rw [hcopied] at hfits
    exact absurd hlong (Nat.not_lt.mpr hfits)
  | some bytes =>
    obtain ⟨entry, -, hadmits, hcert⟩ := trustedCert_eq_some (getRootCertificate_copied hcopied)
    refine ⟨entry, hadmits, ?_⟩
    show entry.cert = some ((bytes ++ cert.bytes.drop bytes.length).take bytes.length)
    rw [List.take_left, hcert]

/-- The questions of the configuration. -/
theorem setupRules (stk : List Call) :
    SetupRules (trust makeString store).core.toContract
      (discipline monitor (fromStore makeString store)) stk (trust makeString store).core.Inv
      fun g buf => g.inOption = true ∨ Trusted store buf where
  memory := ChainContract.memoryQuiet
  same := fun _ _ _ hv h => ChainContract.sameChain hv h
  timer := fun _ _ _ _ _ h => h
  consumed := fun _ _ _ _ _ h => h
  stored := by
    intro g s name size a cert _ hperm hfound hfits
    simp only [discipline, Bool.and_eq_true] at hperm
    exact .inr (stored_trusted makeString store (of_decide_eq_true hperm.2) hfound hfits)
  ask := by
    intro g s q a hq hfits h hperm
    cases q with
    | mbedtlsX509CrtParse buf => exact hfits.elim
    | getRootCertificate name size =>
      simp only [discipline, Bool.and_eq_true] at hperm
      have ha : a = getRootCertificate makeString store name size := of_decide_eq_true hperm.2
      refine ⟨fun bytes hcopied => ?_, h⟩
      rw [ha] at hcopied
      exact trustedCert_eq_some (getRootCertificate_copied hcopied)
    | _ => exact ⟨trivial, h⟩
  parse := fun _ _ _ _ h hgood _ => ⟨hgood, Anchors.parse h hgood _⟩

/-- While a certificate-authority option is handled that is known. -/
def During : TOption → Seen → Prop
  | .sslCertificateAuthority _, g => g.inOption = true
  | _, _ => True

/-- A question does not end the option. -/
theorem During.asked {o : TOption} {g : Seen} (q : Query) (a : q.Answer) (h : During o g) :
    During o (next g (.asked q a)) := by
  have hsame : (next g (.asked q a)).inOption = g.inOption := by
    cases q with
    | mbedtlsX509CrtParse buf =>
      show (g.parse buf _).inOption = g.inOption
      unfold Seen.parse
      split <;> rfl
    | _ => rfl
  cases o with
  | sslCertificateAuthority o =>
    show (next g (.asked q a)).inOption = true
    rw [hsame]
    exact h
  | _ => exact h

/-- The rules for what is parsed. -/
theorem rules : (trust makeString store).Rules (fromStore makeString store) During
    fun g buf => g.inOption = true ∨ Trusted store buf where
  enter := fun e _ _ _ h => ⟨by cases e <;> exact trivial, entered store e h⟩
  leave := fun e v _ _ _ h => ⟨by cases e <;> exact trivial, left store e v h⟩
  setup := setupRules makeString store
  during := fun o _ => by cases o <;> first | rfl | exact trivial
  asked := fun _ _ q a h => h.asked q a
  supplied := fun _ _ h => .inl h

/-! ## Distrust -/

/-- **Distrust is enforced** in every run in which the certificate store answers, whatever it
lists. -/
theorem distrust_enforced {fuel : ℕ} {memory : ConnectionEnd} {cfg : Config CESig ConnectionEnd}
    (h : Reachable (discipline monitor (fromStore makeString store)) (code fuel) (new memory) cfg) :
    cfg.log.Obeys monitor fun g s x => Enforced makeString store g x ∧
      monitor.AtPassage (fun g (s : ConnectionEnd) => Anchors store g s.mSSLCAChain) g s x := by
  have hstart : (trust makeString store).core.Inv monitor.init (new memory) := by
    intro c hc
    cases hc
  have hmeets := (rules makeString store).meets fuel
  intro before x after hl
  exact ⟨Contract.log_obeys hmeets hstart h before x after hl,
    Contract.log_passes hmeets (fun _ _ _ h => h) hstart h before x after hl⟩

end store

/-- A package with two trusted roots, the second of which the user has disabled. -/
def disabledStore : RootStore where
  packageSoup := [⟨[65], true, .binary [1, 1], .nil⟩, ⟨[66], true, .binary [2], .nil⟩]
  unionSoup := some [⟨[66], false, .nil, .nil⟩]

/-- Every byte is a character. -/
def latin (name : List Byte) : List UniChar := name.map UInt8.toUInt16

/-- Both names are listed; the store answers for the certificates. -/
def disabledAnswer : (q : Query) → q.Answer
  | .listRootCertificates _ => ListAnswer.mk 4 [66, 0, 65, 0]
  | .getRootCertificate name ioSize => getRootCertificate latin disabledStore name ioSize
  | .mbedtlsX509CrtParse buf => ParseAnswer.parsed 0 [buf]
  | q => plainAnswer q

/-- Open, enable SSL and connect. -/
def connecting : List (Move CESig) :=
  [enter .openStart, back, enter (.processOptionStart (.sslEnable true)),
    .enter .connectStart fun _ => disabledAnswer, back]

/-- The root that is still trusted is loaded, and the other one is not. -/
theorem distrust_enforced_connecting :
    ∃ cfg, (Config.start (new zeroMemory)).run (discipline monitor (fromStore latin disabledStore))
        (code 3) connecting = some cfg ∧ cfg.state.mSSLCAChain = [[1, 1]] ∧
      cfg.log.Obeys monitor fun g s x => Enforced latin disabledStore g x ∧
        monitor.AtPassage
          (fun g (s : ConnectionEnd) => Anchors disabledStore g s.mSSLCAChain) g s x := by
  have hrun : ((Config.start (new zeroMemory)).run
      (discipline monitor (fromStore latin disabledStore)) (code 3) connecting).map
        (fun cfg => cfg.state.mSSLCAChain) = some [[1, 1]] := by decide +kernel
  obtain ⟨cfg, hcfg, hchain⟩ := Option.map_eq_some_iff.mp hrun
  exact ⟨cfg, hcfg, hchain, distrust_enforced latin disabledStore (.of_run _ .start hcfg)⟩

end Distrust

end NewtonTLS
