/-
# The loop that loads the roots

The `while` loop of `SSLConfigure` over a listing of names, when the lookup of a name always
gives the same answer: a failure, or a certificate with its length, which is copied when it fits.
A certificate that does not fit makes the block grow, and the same name is looked up again.

The loop ends: two rounds for each name are enough.  It parses exactly the certificates that are
found, in the order of the listing, looks no name up more than twice, and never tells a lookup
of more room than there is in the block (`root_loading`).
-/
import NewtonTLS.LoadingRules
import NewtonTLS.EffectiveRoots

open Reentrant

namespace NewtonTLS

namespace RootLoading

open EffectiveRoots LoadingRules

variable {fixed : List Byte → Option Certificate} {E : Environment CESig ConnectionEnd}

/-! ## A fixed lookup -/

/-- Each name has a certificate or none.  Without one the lookup fails, and has copied nothing or
what fits. -/
def Fixed (fixed : List Byte → Option Certificate) (E : Environment CESig ConnectionEnd) : Prop :=
  ∀ n name ioSize,
    match fixed name with
    | none => (lookup E n name ioSize).result < 0 ∧
        ∀ bytes, (lookup E n name ioSize).copied = some bytes → bytes.length ≤ ioSize
    | some cert => lookup E n name ioSize =
        ⟨cert.length, if cert.length ≤ ioSize then some cert else none⟩

/-- A store that does not change is a fixed lookup. -/
theorem fixed_of_store {makeString : List Byte → List UniChar} {store : RootStore}
    (h : FromStore makeString store E) : Fixed (trustedCert makeString store) E := by
  intro n name ioSize
  have hfound : lookup E n name ioSize = getRootCertificate makeString store name ioSize :=
    h.found n name ioSize
  rw [hfound, getRootCertificate_eq]
  cases trustedCert makeString store name with
  | none => exact ⟨show (-1 : ℤ) < 0 by decide, fun _ hnone => nomatch hnone⟩
  | some cert => rfl

/-! ## What the loop does -/

/-- The size of the block that `cert` points to, whether all lookups have been told of no more room,
the names that have been looked up, what has been passed to the parser, and whether the parser
has raised an exception. -/
structure Load : Type where
  block : ℕ
  within : Prop
  lookedUp : List (List Byte)
  parsed : List (List Byte)
  raised : Prop

/-- `cert` points to a block of no bytes. -/
def Load.start : Load := ⟨0, True, [], [], False⟩

/-- What a happening changes: the block, what has been looked up, and what has been parsed. -/
def next (g : Load) : Happening CESig → Load
  | .asked (.getRootCertificate name ioSize) _ =>
    { g with within := g.within ∧ ioSize ≤ g.block, lookedUp := g.lookedUp ++ [name] }
  | .asked (.disposPtr _) _ => { g with block := 0 }
  | .asked (.newPtr _ size) _ => { g with block := size }
  | .asked (.mbedtlsX509CrtParse buf) a =>
    { g with parsed := g.parsed ++ [buf], raised := g.raised ∨ a = ParseAnswer.exception }
  | _ => g

/-- What the loop does from `g` on: no lookup is told of too much room, no name is looked up more
than twice, and the certificates are parsed, up to an exception of the parser. -/
structure Loads (fixed : List Byte → Option Certificate) (names : List (List Byte)) (g g' : Load)
    (r : Ending CESig ConnectionEnd Block) : Prop where
  within : g.within → g'.within
  lookedUp : ∃ l, g'.lookedUp = g.lookedUp ++ l ∧ ∀ name, l.count name ≤ 2 * names.count name
  parsed : (∃ s cert, r = .done s cert ∧ g'.parsed = g.parsed ++ names.filterMap fixed) ∨
    (∃ s l, r = .raise s ∧ g'.raised ∧ g'.parsed = g.parsed ++ l ∧ l <+: names.filterMap fixed)

/-- The first name and the others. -/
theorem filterMap_cons_eq (name : List Byte) (names : List (List Byte)) :
    (name :: names).filterMap fixed = (fixed name).toList ++ names.filterMap fixed := by
  rw [List.filterMap_cons]
  cases fixed name with
  | none => rfl
  | some cert => rfl

/-- Looking a name up at most twice stays within what the name is allowed. -/
theorem count_replicate_append_le {name : List Byte} {names l : List (List Byte)} {k : ℕ}
    (hk : k ≤ 2) (hcount : ∀ name', l.count name' ≤ 2 * names.count name') (name' : List Byte) :
    (List.replicate k name ++ l).count name' ≤ 2 * (name :: names).count name' := by
  have hrest := hcount name'
  rw [List.count_append, List.count_cons, List.count_replicate]
  by_cases hsame : (name == name') = true
  · rw [if_pos hsame, if_pos hsame]
    omega
  · rw [if_neg hsame, if_neg hsame]
    omega

/-- A name has been looked up at most twice, and its certificate parsed. -/
theorem Loads.cons {name : List Byte} {names : List (List Byte)} {g g₁ g' : Load}
    {r : Ending CESig ConnectionEnd Block} {k : ℕ} (hk : k ≤ 2) (hwithin : g.within → g₁.within)
    (hlookedUp : g₁.lookedUp = g.lookedUp ++ List.replicate k name)
    (hparsed : g₁.parsed = g.parsed ++ (fixed name).toList) (h : Loads fixed names g₁ g' r) :
    Loads fixed (name :: names) g g' r := by
  refine ⟨fun hg => h.within (hwithin hg), ?_, ?_⟩
  · obtain ⟨l, hl, hcount⟩ := h.lookedUp
    refine ⟨List.replicate k name ++ l, ?_, count_replicate_append_le hk hcount⟩
    rw [hl, hlookedUp, List.append_assoc]
  · rw [filterMap_cons_eq]
    rcases h.parsed with ⟨s, cert, hr, hall⟩ | ⟨s, l, hr, hraised, hl, hprefix⟩
    · refine Or.inl ⟨s, cert, hr, ?_⟩
      rw [hall, hparsed, List.append_assoc]
    · refine Or.inr ⟨s, (fixed name).toList ++ l, hr, hraised, ?_, ?_⟩
      · rw [hl, hparsed, List.append_assoc]
      · exact (List.prefix_append_right_inj _).mpr hprefix

/-- The parser has raised an exception on the certificate of a name. -/
theorem Loads.raise {name : List Byte} {names : List (List Byte)} {g g' : Load}
    {s : ConnectionEnd} {k : ℕ} (hk : k ≤ 2) (hwithin : g.within → g'.within)
    (hlookedUp : g'.lookedUp = g.lookedUp ++ List.replicate k name)
    (hparsed : g'.parsed = g.parsed ++ (fixed name).toList) (hraised : g'.raised) :
    Loads fixed (name :: names) g g' (.raise s) := by
  refine ⟨hwithin, ⟨_, hlookedUp, ?_⟩, Or.inr ⟨s, _, rfl, hraised, hparsed, ?_⟩⟩
  · intro name'
    have hcount : (List.replicate k name ++ []).count name' ≤ 2 * (name :: names).count name' :=
      count_replicate_append_le hk (fun _ => Nat.zero_le _) name'
    rwa [List.append_nil] at hcount
  · rw [filterMap_cons_eq]
    exact List.prefix_append _ _

/-! ## The rounds of a name -/

section rounds

variable {fuel : ℕ} {name : List Byte} {names : List (List Byte)} {cert : Block} {g : Load}
  {s : ConnectionEnd} {c : Certificate}

/-- A copy that fits leaves the block as large as it is. -/
theorem length_blockAfter {copied : Option (List Byte)}
    (h : ∀ bytes, copied = some bytes → bytes.length ≤ cert.bytes.length) :
    (blockAfter cert copied).bytes.length = cert.bytes.length := by
  cases copied with
  | none => rfl
  | some bytes =>
    have hfits := h bytes rfl
    show (bytes ++ cert.bytes.drop bytes.length).length = _
    rw [List.length_append, List.length_drop]
    omega

/-- The loop goes on with the other names. -/
def GoesOn (fixed : List Byte → Option Certificate) (E : Environment CESig ConnectionEnd)
    (names : List (List Byte)) (fuel : ℕ) : Prop :=
  ∀ {cert : Block} {g : Load} {s : ConnectionEnd}, cert.bytes.length = g.block →
    (loadNames fuel (names.flatMap listedName) cert g.block).Leads E next (Loads fixed names g) g s

/-- A name without a certificate takes one round. -/
theorem leads_missing (hE : Fixed fixed E) (hname : ∀ x ∈ name, x ≠ 0) (hfixed : fixed name = none)
    (hblock : cert.bytes.length = g.block) (hrest : GoesOn fixed E names fuel) :
    (loadNames (fuel + 1) ((name :: names).flatMap listedName) cert g.block).Leads E next
      (Loads fixed (name :: names) g) g s := by
  have hlookup : ∀ n, (lookup E n name g.block).result < 0 ∧ ∀ bytes,
      (lookup E n name g.block).copied = some bytes → bytes.length ≤ g.block := by
    intro n
    have := hE n name g.block
    rwa [hfixed] at this
  refine leads_loadNames_round (splitName_listed name _ hname) ?_ ?_ ?_ ?_
  · intro n _
    have hsize := length_blockAfter fun bytes hbytes => ((hlookup n).2 bytes hbytes).trans hblock.ge
    refine (hrest (g := asked E next n (.getRootCertificate name g.block) g)
      (hsize.trans hblock)).mono ?_
    intro g' r h
    refine Loads.cons (k := 1) (by decide) ?_ rfl ?_ h
    · exact fun hg => ⟨hg, le_rfl⟩
    · rw [hfixed, Option.toList_none, List.append_nil]
      rfl
  · exact fun n m k hok => absurd hok (Int.not_le.mpr (hlookup n).1)
  · exact fun n m result added hok => absurd hok (Int.not_le.mpr (hlookup n).1)
  · exact fun n m hok => absurd hok (Int.not_le.mpr (hlookup n).1)

/-- What has been noted when the certificate of a name fits into the block. -/
def Load.read (name : List Byte) (c : Certificate) (raised : Prop) (g : Load) : Load :=
  { g with
    within := g.within ∧ g.block ≤ g.block
    lookedUp := g.lookedUp ++ [name]
    parsed := g.parsed ++ [c]
    raised := g.raised ∨ raised }

/-- The round of a certificate that fits: it is parsed. -/
theorem leads_fitting {Q : Load → Ending CESig ConnectionEnd Block → Prop} (hE : Fixed fixed E)
    (hname : ∀ x ∈ name, x ≠ 0) (hfixed : fixed name = some c) (hfits : c.length ≤ g.block)
    (hblock : cert.bytes.length = g.block)
    (hrest : ∀ (raised : Prop) (cert' : Block) (s' : ConnectionEnd), cert'.bytes.length = g.block →
      (loadNames fuel (names.flatMap listedName) cert' g.block).Leads E next Q
        (g.read name c raised) s')
    (hraise : ∀ raised : Prop, raised → Q (g.read name c raised) (.raise s)) :
    (loadNames (fuel + 1) ((name :: names).flatMap listedName) cert g.block).Leads
      E next Q g s := by
  have hlookup : ∀ n, lookup E n name g.block = ⟨c.length, some c⟩ := by
    intro n
    have hanswer := hE n name g.block
    rw [hfixed] at hanswer
    exact hanswer.trans (congrArg (CertAnswer.mk c.length) (if_pos hfits))
  have hcopied : certBytes cert g.block (some c) = c := by
    show (c ++ cert.bytes.drop c.length).take c.length = c
    rw [List.take_left]
  refine leads_loadNames_round (splitName_listed name _ hname) ?_ ?_ ?_ ?_
  · intro n hfailed
    rw [hlookup] at hfailed
    exact absurd hfailed (Int.not_lt.mpr (Int.natCast_nonneg _))
  · intro n m k _ hsmall
    rw [hlookup] at hsmall
    exact absurd hsmall (lt_irrefl _)
  · intro n m result added _ _ _
    rw [hlookup]
    show (loadNames _ _ (blockAfter cert (some c)) _).Leads E next Q
      (asked E next m (.mbedtlsX509CrtParse (certBytes cert g.block (some c))) _) _
    rw [hcopied]
    refine hrest (E.answer m (Query.mbedtlsX509CrtParse c) = ParseAnswer.exception) _ _ ?_
    refine (length_blockAfter fun bytes hbytes => ?_).trans hblock
    rw [← Option.some.inj hbytes]
    exact hfits.trans hblock.ge
  · intro n m _ _ hanswer
    rw [hlookup] at hanswer ⊢
    show Q (asked E next m (.mbedtlsX509CrtParse (certBytes cert g.block (some c))) _) _
    rw [hcopied]
    refine hraise (E.answer m (Query.mbedtlsX509CrtParse c) = ParseAnswer.exception) ?_
    rwa [← hcopied]

/-- A name with a certificate takes two rounds at most: it is looked up again when its certificate
does not fit. -/
theorem leads_found (hE : Fixed fixed E) (hname : ∀ x ∈ name, x ≠ 0) (hfixed : fixed name = some c)
    (hblock : cert.bytes.length = g.block) (hrest : GoesOn fixed E names fuel)
    (hrest' : GoesOn fixed E names (fuel + 1)) :
    (loadNames (fuel + 2) ((name :: names).flatMap listedName) cert g.block).Leads E next
      (Loads fixed (name :: names) g) g s := by
  have hparsed : ∀ l : List (List Byte), l ++ [c] = l ++ (fixed name).toList := by
    intro l
    rw [hfixed, Option.toList_some]
  by_cases hfits : c.length ≤ g.block
  · refine leads_fitting hE hname hfixed hfits hblock ?_ ?_
    · intro raised cert' s' hblock'
      refine (hrest' (g := g.read name c raised) hblock').mono ?_
      intro g' r h
      refine Loads.cons (k := 1) (by decide) ?_ rfl (hparsed _) h
      exact fun hg => ⟨hg, le_rfl⟩
    · intro raised hraised
      refine Loads.raise (k := 1) (by decide) ?_ rfl (hparsed _) (Or.inr hraised)
      exact fun hg => ⟨hg, le_rfl⟩
  · have hlookup : ∀ n, lookup E n name g.block = ⟨c.length, none⟩ := by
      intro n
      have hanswer := hE n name g.block
      rw [hfixed] at hanswer
      exact hanswer.trans (congrArg (CertAnswer.mk c.length) (if_neg hfits))
    refine leads_loadNames_round (splitName_listed name _ hname) ?_ ?_ ?_ ?_
    · intro n hfailed
      rw [hlookup] at hfailed
      exact absurd hfailed (Int.not_lt.mpr (Int.natCast_nonneg _))
    · -- the block has grown to the size of the certificate
      intro n m k _ _
      rw [hlookup]
      obtain ⟨g₁, hg₁⟩ : ∃ g₁ : Load, g₁ = { g with
        block := c.length
        within := g.within ∧ g.block ≤ g.block
        lookedUp := g.lookedUp ++ [name] } := ⟨_, rfl⟩
      have hgrown : (loadNames (fuel + 1) ((name :: names).flatMap listedName)
          ⟨s.nextPtr, List.replicate c.length 0⟩ g₁.block).Leads E next
            (Loads fixed (name :: names) g) g₁ { s with nextPtr := s.nextPtr + 1 } := by
        have htwice : g₁.lookedUp ++ [name] = g.lookedUp ++ List.replicate 2 name := by
          rw [hg₁, List.append_assoc]
          rfl
        have hbefore : g₁.parsed ++ [c] = g.parsed ++ (fixed name).toList := by
          rw [hg₁]
          exact hparsed _
        have hwithin : g.within → g₁.within ∧ g₁.block ≤ g₁.block := by
          rw [hg₁]
          exact fun hg => ⟨⟨hg, le_rfl⟩, le_rfl⟩
        refine leads_fitting hE hname hfixed (by rw [hg₁]) (by rw [hg₁, List.length_replicate])
          ?_ ?_
        · intro raised cert' s' hblock'
          refine (hrest (g := g₁.read name c raised) hblock').mono ?_
          intro g' r h
          exact Loads.cons (k := 2) le_rfl hwithin htwice hbefore h
        · intro raised hraised
          exact Loads.raise (k := 2) le_rfl hwithin htwice hbefore (Or.inr hraised)
      rw [hg₁] at hgrown
      exact hgrown
    · intro n m result added _ hroom
      rw [hlookup] at hroom
      exact absurd hroom hfits
    · intro n m _ hroom
      rw [hlookup] at hroom
      exact absurd hroom hfits

end rounds

/-! ## The loop -/

/-- With two rounds for each name the loop comes to the end of the listing. -/
theorem goesOn (hE : Fixed fixed E) (names : List (List Byte)) : ∀ {fuel : ℕ},
    (∀ name ∈ names, ∀ x ∈ name, x ≠ 0) → 2 * names.length ≤ fuel → GoesOn fixed E names fuel := by
  induction names with
  | nil =>
    intro fuel _ _ cert g s _
    have hnone : Loads fixed [] g g (.done s cert) := by
      refine ⟨id, ⟨[], (List.append_nil _).symm, fun _ => Nat.zero_le _⟩, Or.inl ⟨s, cert, rfl, ?_⟩⟩
      exact (List.append_nil _).symm
    cases fuel with
    | zero => exact Code.leads_pure hnone
    | succ fuel => exact Code.leads_pure hnone
  | cons name names ih =>
    intro fuel hnames hfuel cert g s hblock
    rw [List.length_cons] at hfuel
    obtain ⟨k, rfl⟩ : ∃ k, fuel = k + 2 := ⟨fuel - 2, by omega⟩
    have hname := hnames name List.mem_cons_self
    have hrest := fun name' hname' => hnames name' (List.mem_cons_of_mem name hname')
    cases hfixed : fixed name with
    | none => exact leads_missing hE hname hfixed hblock (ih hrest (by omega))
    | some c =>
      exact leads_found hE hname hfixed hblock (ih hrest (by omega)) (ih hrest (by omega))

/-- **Loading the roots.**  With a fixed lookup and two rounds for each name the loop ends.  No
lookup is told of more room than the block has, each name is looked up at most twice (for each
time that it is listed), and the certificates of the names that have one are parsed, each once and
in the order of the listing; only an exception of the parser ends the loop before. -/
theorem root_loading (fixed : List Byte → Option Certificate)
    (E : Environment CESig ConnectionEnd) (names : List (List Byte)) (fuel p n : ℕ)
    (s : ConnectionEnd) (hE : Fixed fixed E) (hnames : ∀ name ∈ names, ∀ x ∈ name, x ≠ 0)
    (hfuel : 2 * names.length ≤ fuel) :
    let way := (loadNames fuel (names.flatMap listedName) ⟨p, []⟩ 0).drive E n s
    let g := way.1.foldl next Load.start
    g.within ∧ (∀ name, g.lookedUp.count name ≤ 2 * names.count name) ∧
      ((∃ s' cert, way.2 = .done s' cert) ∧ g.parsed = names.filterMap fixed ∨
        (∃ s', way.2 = .raise s') ∧ g.raised ∧ g.parsed <+: names.filterMap fixed) := by
  intro way g
  have hstart : (loadNames fuel (names.flatMap listedName) ⟨p, []⟩ 0).Leads E next
      (Loads fixed names Load.start) Load.start s := goesOn hE names hnames hfuel rfl
  have hloads : Loads fixed names Load.start g way.2 := hstart n
  obtain ⟨l, hl, hcount⟩ := hloads.lookedUp
  refine ⟨hloads.within trivial, ?_, ?_⟩
  · intro name
    rw [hl]
    exact hcount name
  · rcases hloads.parsed with ⟨s', cert, hr, hall⟩ | ⟨s', l', hr, hraised, hl', hprefix⟩
    · exact Or.inl ⟨⟨s', cert, hr⟩, hall⟩
    · refine Or.inr ⟨⟨s', hr⟩, hraised, ?_⟩
      rw [hl']
      exact hprefix

/-- An environment with a fixed lookup. -/
def finding (fixed : List Byte → Option Certificate) : Environment CESig ConnectionEnd where
  answer := fun _ q => match q with
    | .getRootCertificate name ioSize => match fixed name with
      | none => CertAnswer.mk (-1) none
      | some cert => CertAnswer.mk cert.length (if cert.length ≤ ioSize then some cert else none)
    | q => plainAnswer q
  result := fun _ c s => (results 0 (.error MBEDTLS_ERR_SSL_WANT_READ) c, s)

/-- The lookup of the environment is fixed. -/
theorem fixed_finding (fixed : List Byte → Option Certificate) : Fixed fixed (finding fixed) := by
  intro n name ioSize
  unfold lookup finding
  dsimp only
  cases fixed name with
  | none => exact ⟨show (-1 : ℤ) < 0 by decide, fun _ hnone => nomatch hnone⟩
  | some cert => rfl

/-- Two names with certificates of three bytes and one, and a name without. -/
def twoRoots (name : List Byte) : Option Certificate :=
  if name = [65] then some [1, 2, 3] else if name = [67] then some [4] else none

/-- The name without a certificate is passed over, and the second certificate fits into the block of
the first. -/
theorem root_loading_two :
    (((loadNames 6 ([[65], [66], [67]].flatMap listedName) ⟨0, []⟩ 0).drive (finding twoRoots) 0
      zeroMemory).1.foldl next Load.start).parsed = [[1, 2, 3], [4]] := by
  have hloaded := root_loading twoRoots (finding twoRoots) [[65], [66], [67]] 6 0 0 zeroMemory
    (fixed_finding twoRoots) (by simp) (by decide)
  rcases hloaded.2.2 with ⟨-, hall⟩ | ⟨⟨s', hraise⟩, -, -⟩
  · exact hall
  · cases hraise

end RootLoading

end NewtonTLS
