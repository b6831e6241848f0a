/-
# The certificates of the peer

`ProcessOptionStart` for `kSSLPeerCertificateLabel`: it walks down the chain that
`mbedtls_ssl_get_peer_cert` returns, and gives the size of the certificate that it comes to, and
its bytes to a client that has room for them.  The walk looks for the end of the chain behind
each certificate, but not before the first one, so that the option is answered as it should be
exactly when there is a chain (`peer_certificate_iff`).

`GetPeerCertificate` of `NTK Projects/mbedTLSTest.f` asks for one index after the other, for the
size first and then for the bytes, until there is no certificate.
-/
import NewtonTLS.ConnectionEndRuns
import NewtonTLS.ReentrantTriple

open Reentrant

namespace NewtonTLS

namespace PeerCertificates

variable {E : Environment CESig ConnectionEnd} {chain : List Certificate} {s : ConnectionEnd}
  {G : Type} {next : G → Happening CESig → G} {g : G}

/-! ## What the option should answer -/

/-- The peer has presented this chain. -/
def Presents (E : Environment CESig ConnectionEnd) (chain : List Certificate) : Prop :=
  ∀ n, E.answer n Query.mbedtlsSslGetPeerCert = chain

/-- The handshake is over. -/
def Established (s : ConnectionEnd) : Prop := s.mSSLConfigured = true ∧ s.mEstablished = true

/-- A chain of parsed certificates: none is empty, each size is an `int`, and an index of 32 bits
counts them. -/
structure Parsed (chain : List Certificate) : Prop where
  nonempty : ∀ c ∈ chain, c ≠ []
  size : ∀ c ∈ chain, c.length < 2 ^ 31
  count : chain.length < 2 ^ 32

/-- The client gets the size of `c`, and its bytes exactly when it has room for them. -/
def Gives (c : Certificate) (o o' : TCMOSSLCertificate) : Prop :=
  o'.length.toNat = c.length ∧ o'.indexInChain = o.indexInChain ∧
    (c.length ≤ o.length.toNat → o'.certificate = c ++ o.certificate.drop c.length) ∧
    (o.length.toNat < c.length → o'.certificate = o.certificate)

/-- The option is answered: with the certificate at the index, or with a failure when there is
none. -/
def Answers (chain : List Certificate) (o : TCMOSSLCertificate) (s : ConnectionEnd)
    (r : Ending CESig ConnectionEnd (OptionResult × TCMOSSLCertificate)) : Prop :=
  (chain.length ≤ o.indexInChain.toNat → r = .done s (.opFailure, o)) ∧
    ∀ c, chain[o.indexInChain.toNat]? = some c →
      ∃ o', r = .done s (.opSuccess, o') ∧ Gives c o o'

/-! ## The walk -/

/-- From a certificate on, the walk comes to the one at the index, or to the end of the chain. -/
theorem leads_peerCertAt_getElem (ix : ℕ) : ∀ chain : List Certificate, chain ≠ [] →
    (peerCertAt chain ix).Leads E next (fun g' r => g' = g ∧ r = .done s chain[ix]?) g s := by
  induction ix with
  | zero =>
    intro chain hchain
    obtain ⟨c, rest, rfl⟩ := List.exists_cons_of_ne_nil hchain
    exact Code.leads_pure ⟨rfl, rfl⟩
  | succ ix ih =>
    intro chain hchain
    obtain ⟨c, rest, rfl⟩ := List.exists_cons_of_ne_nil hchain
    cases rest with
    | nil => exact Code.leads_pure ⟨rfl, rfl⟩
    | cons c' rest => exact ih (c' :: rest) (List.cons_ne_nil c' rest)

/-- The length of a certificate fits. -/
theorem toNat_ofNat_length {c : Certificate} (hc : c.length < 2 ^ 31) :
    (UInt32.ofNat c.length).toNat = c.length :=
  UInt32.toNat_ofNat_of_lt' (hc.trans (by decide))

/-- A size of a certificate is compared as it is. -/
theorem ofNat_length_le_iff {c : Certificate} (hc : c.length < 2 ^ 31) (n : UInt32) :
    UInt32.ofNat c.length ≤ n ↔ c.length ≤ n.toNat := by
  rw [UInt32.le_iff_toNat_le, toNat_ofNat_length hc]

/-- What the option makes of the certificate that it has come to. -/
theorem gives_copied {c : Certificate} (hc : c.length < 2 ^ 31) (o : TCMOSSLCertificate) :
    Gives c o { o with
      length := UInt32.ofNat c.length
      certificate := if UInt32.ofNat c.length ≤ o.length then c ++ o.certificate.drop c.length
        else o.certificate } := by
  refine ⟨toNat_ofNat_length hc, rfl, ?_, ?_⟩
  · intro hroom
    exact if_pos ((ofNat_length_le_iff hc _).mpr hroom)
  · intro hsmall
    exact if_neg fun hroom => absurd ((ofNat_length_le_iff hc _).mp hroom) (Nat.not_le.mpr hsmall)

/-- With a chain, the option is answered. -/
theorem leads_sslPeerCertificateOption_answers (hE : Presents E chain) (hs : Established s)
    (hsize : ∀ c ∈ chain, c.length < 2 ^ 31) (hchain : chain ≠ []) (o : TCMOSSLCertificate) :
    (sslPeerCertificateOption o).Leads E next (fun _ r => Answers chain o s r) g s := by
  unfold sslPeerCertificateOption
  apply Code.leads_get_bind
  rw [if_pos (show s.mSSLConfigured = true ∧ s.mEstablished = true from hs)]
  apply Code.leads_ask_bind
  intro n
  rw [hE n]
  refine (leads_peerCertAt_getElem _ chain hchain).bind ?_ ?_ ?_
  · rintro g' s' found ⟨-, hr⟩
    obtain ⟨rfl, rfl⟩ := Ending.done.inj hr
    cases hfound : chain[o.indexInChain.toNat]? with
    | none =>
      refine Code.leads_pure ⟨fun _ => rfl, ?_⟩
      intro c hc
      exact absurd (hfound.symm.trans hc) (Option.some_ne_none c).symm
    | some c =>
      refine Code.leads_pure ⟨?_, ?_⟩
      · intro hlong
        rw [List.getElem?_eq_none hlong] at hfound
        exact absurd hfound.symm (Option.some_ne_none c)
      · intro c' hc'
        obtain rfl : c = c' := Option.some.inj (hfound.symm.trans hc')
        exact ⟨_, rfl, gives_copied (hsize c (List.mem_of_getElem? hfound)) o⟩
  · rintro g' s' ⟨-, hr⟩
    cases hr
  · rintro g' s' w ⟨-, hr⟩
    cases hr

/-- Without a chain, a NULL pointer is used. -/
theorem leads_sslPeerCertificateOption_nil (hE : Presents E []) (hs : Established s)
    (o : TCMOSSLCertificate) :
    (sslPeerCertificateOption o).Leads E next (fun _ r => r = .halt s Fault.nullPointer) g s := by
  unfold sslPeerCertificateOption
  apply Code.leads_get_bind
  rw [if_pos (show s.mSSLConfigured = true ∧ s.mEstablished = true from hs)]
  apply Code.leads_ask_bind
  intro n
  rw [hE n]
  exact fun _ => rfl

/-! ## The client -/

/-- The loop of `GetPeerCertificate`, from `certIx` on: the certificates that it gets. -/
def getPeerCertificate : ℕ → ℕ → CE (List Certificate)
  | 0, _ => Code.halt Fault.outOfFuel
  | fuel + 1, certIx => do
    let (result, o) ← sslPeerCertificateOption ⟨0, UInt32.ofNat certIx, []⟩
    if result ≠ .opSuccess then
      pure []
    else
      let size := o.length.toNat
      if size = 0 then
        pure []
      else
        let (_, o) ← sslPeerCertificateOption
          ⟨UInt32.ofNat size, UInt32.ofNat certIx, List.replicate size 0⟩
        let rest ← getPeerCertificate fuel (certIx + 1)
        pure (o.certificate :: rest)

/-- The option for an index of the chain. -/
theorem leads_option_at {c : Certificate} (hE : Presents E chain) (hs : Established s)
    (hchain : Parsed chain) {o : TCMOSSLCertificate}
    (hc : chain[o.indexInChain.toNat]? = some c) :
    (sslPeerCertificateOption o).Leads E next
      (Returns fun _ s' p => s' = s ∧ p.1 = .opSuccess ∧ Gives c o p.2) g s := by
  have hsome : chain ≠ [] := List.ne_nil_of_mem (List.mem_of_getElem? hc)
  refine (leads_sslPeerCertificateOption_answers hE hs hchain.size hsome o).mono ?_
  intro g' r hr
  obtain ⟨o', hdone, hgives⟩ := hr.2 c hc
  exact ⟨s, _, hdone, rfl, rfl, hgives⟩

/-- The option for an index behind the chain. -/
theorem leads_option_behind (hE : Presents E chain) (hs : Established s) (hchain : Parsed chain)
    (hsome : chain ≠ []) {o : TCMOSSLCertificate} (ho : chain.length ≤ o.indexInChain.toNat) :
    (sslPeerCertificateOption o).Leads E next
      (Returns fun _ s' p => s' = s ∧ p.1 = .opFailure) g s := by
  refine (leads_sslPeerCertificateOption_answers hE hs hchain.size hsome o).mono ?_
  intro g' r hr
  exact ⟨s, _, hr.1 ho, rfl, rfl⟩

/-- With room for all of a certificate the client gets it. -/
theorem Gives.all {c : Certificate} {ix : UInt32} {o' : TCMOSSLCertificate}
    (hc : c.length < 2 ^ 31)
    (h : Gives c ⟨UInt32.ofNat c.length, ix, List.replicate c.length 0⟩ o') :
    o'.certificate = c := by
  obtain ⟨-, -, hroom, -⟩ := h
  have hcopied := hroom (toNat_ofNat_length hc).ge
  rwa [List.drop_replicate, Nat.sub_self, List.replicate_zero, List.append_nil] at hcopied

/-- From an index on, the client gets the rest of the chain. -/
theorem leads_getPeerCertificate (hE : Presents E chain) (hs : Established s)
    (hchain : Parsed chain) (hsome : chain ≠ []) (fuel : ℕ) : ∀ (ix : ℕ) (g : G),
    ix ≤ chain.length → chain.length < fuel + ix →
    (getPeerCertificate fuel ix).Leads E next
      (Returns fun _ s' l => s' = s ∧ l = chain.drop ix) g s := by
  induction fuel with
  | zero =>
    intro ix g hix hfuel
    omega
  | succ fuel ih =>
    intro ix g hix hfuel
    have hindex : (UInt32.ofNat ix).toNat = ix :=
      UInt32.toNat_ofNat_of_lt' (hix.trans_lt hchain.count)
    unfold getPeerCertificate
    by_cases hlast : chain.length ≤ ix
    · -- the size is asked for behind the chain
      refine (leads_option_behind hE hs hchain hsome (hlast.trans hindex.ge)).andThen ?_
      rintro g₁ s₁ ⟨result, o⟩ ⟨rfl, hresult⟩
      obtain rfl : result = .opFailure := hresult
      dsimp only
      rw [if_pos (by decide), List.drop_eq_nil_of_le hlast]
      exact Code.leads_pure ⟨_, _, rfl, rfl, rfl⟩
    · have hin := Nat.not_le.mp hlast
      have hat : chain[(UInt32.ofNat ix).toNat]? = some chain[ix] := by
        rw [hindex, List.getElem?_eq_getElem hin]
      have hmem : chain[ix] ∈ chain := List.getElem_mem hin
      have hpos : ¬ (chain[ix].length = 0) := fun h =>
        hchain.nonempty _ hmem (List.eq_nil_of_length_eq_zero h)
      refine (leads_option_at hE hs hchain (o := ⟨0, UInt32.ofNat ix, []⟩) hat).andThen ?_
      rintro g₁ s₁ ⟨result, o⟩ ⟨rfl, hresult, hsize, -⟩
      obtain rfl : result = .opSuccess := hresult
      dsimp only at hsize ⊢
      rw [if_neg (by decide), hsize, if_neg hpos]
      refine (leads_option_at hE hs hchain (o := ⟨_, UInt32.ofNat ix, _⟩) hat).andThen ?_
      rintro g₂ s₂ ⟨result', o'⟩ ⟨rfl, -, hgives⟩
      refine (ih (ix + 1) g₂ hin (by omega)).andThen ?_
      rintro g₃ s₃ rest ⟨rfl, rfl⟩
      refine Code.leads_pure ⟨_, _, rfl, rfl, ?_⟩
      rw [hgives.all (hchain.size _ hmem), ← List.drop_eq_getElem_cons hin]

/-- Without a chain the first question of the client uses a NULL pointer. -/
theorem leads_getPeerCertificate_nil (hE : Presents E []) (hs : Established s) (fuel ix : ℕ) :
    (getPeerCertificate (fuel + 1) ix).Leads E next
      (fun _ r => r = .halt s Fault.nullPointer) g s := by
  unfold getPeerCertificate
  refine (leads_sslPeerCertificateOption_nil hE hs _).bind ?_ ?_ ?_
  · intro g' s' p hend
    cases hend
  · intro g' s' hend
    cases hend
  · intro g' s' w hend
    cases hend
    rfl

/-! ## The option protocol -/

/-- **The option for the certificates of the peer.**  For every index and capacity it is answered
as it should be, and the client that asks for one index after the other gets the whole chain and
stops, if and only if there is a chain. -/
theorem peer_certificate_iff (E : Environment CESig ConnectionEnd) (chain : List Certificate)
    (s : ConnectionEnd) (n : ℕ) (hE : Presents E chain) (hs : Established s)
    (hchain : Parsed chain) :
    (∀ o, Answers chain o s ((sslPeerCertificateOption o).drive E n s).2 ↔ chain ≠ []) ∧
      ((∀ fuel, chain.length < fuel →
        ((getPeerCertificate fuel 0).drive E n s).2 = .done s chain) ↔ chain ≠ []) := by
  by_cases hsome : chain = []
  · obtain rfl := hsome
    have hoption : ∀ o, (sslPeerCertificateOption o).Leads E (fun u _ => u)
        (fun (_ : Unit) r => r = .halt s Fault.nullPointer) () s :=
      leads_sslPeerCertificateOption_nil hE hs
    have hclient : (getPeerCertificate 1 0).Leads E (fun u _ => u)
        (fun (_ : Unit) r => r = .halt s Fault.nullPointer) () s :=
      leads_getPeerCertificate_nil hE hs 0 0
    refine ⟨fun o => iff_of_false ?_ (not_not.mpr rfl), iff_of_false ?_ (not_not.mpr rfl)⟩
    · rintro ⟨hfails, -⟩
      have hend := (hfails (Nat.zero_le _)).symm.trans (hoption o n)
      cases hend
    · intro hall
      have hend := (hall 1 Nat.one_pos).symm.trans (hclient n)
      cases hend
  · have hoption : ∀ o, (sslPeerCertificateOption o).Leads E (fun u _ => u)
        (fun (_ : Unit) r => Answers chain o s r) () s :=
      leads_sslPeerCertificateOption_answers hE hs hchain.size hsome
    have hclient : ∀ fuel, chain.length < fuel → (getPeerCertificate fuel 0).Leads E (fun u _ => u)
        (Returns fun (_ : Unit) s' l => s' = s ∧ l = chain.drop 0) () s := fun fuel hfuel =>
      leads_getPeerCertificate hE hs hchain hsome fuel 0 () (Nat.zero_le _) hfuel
    refine ⟨fun o => iff_of_true (hoption o n) hsome, iff_of_true ?_ hsome⟩
    intro fuel hfuel
    obtain ⟨s', l, hend, rfl, rfl⟩ := hclient fuel hfuel n
    exact hend

/-- An environment in which the peer has presented a chain. -/
def presenting (chain : List Certificate) : Environment CESig ConnectionEnd where
  answer := fun _ q => match q with
    | .mbedtlsSslGetPeerCert => chain
    | q => plainAnswer q
  result := fun _ c s => (results 0 (.error MBEDTLS_ERR_SSL_WANT_READ) c, s)

/-- Two certificates: the client gets both. -/
theorem peer_certificate_iff_two :
    ((getPeerCertificate 3 0).drive (presenting [[1, 2], [3]]) 0
      { zeroMemory with mSSLConfigured := true, mEstablished := true }).2 =
        .done { zeroMemory with mSSLConfigured := true, mEstablished := true } [[1, 2], [3]] :=
  (peer_certificate_iff (presenting [[1, 2], [3]]) [[1, 2], [3]] _ 0 (fun _ => rfl) ⟨rfl, rfl⟩
    ⟨by decide, by decide, by decide⟩).2.mpr (List.cons_ne_nil _ _) 3 (Nat.lt_succ_self 2)

/-- There is no chain: a NULL pointer is used for the first index. -/
theorem not_peer_certificate : ¬ ∀ (E : Environment CESig ConnectionEnd)
    (chain : List Certificate) (s : ConnectionEnd) (n : ℕ), Presents E chain → Established s →
    Parsed chain → ∀ o, Answers chain o s ((sslPeerCertificateOption o).drive E n s).2 := by
  intro hall
  have hanswers := hall (presenting []) [] { zeroMemory with
    mSSLConfigured := true, mEstablished := true } 0 (fun _ => rfl) ⟨rfl, rfl⟩
    ⟨by decide, by decide, by decide⟩ ⟨0, 0, []⟩
  have hend := hanswers.1 le_rfl
  cases hend

end PeerCertificates

end NewtonTLS
