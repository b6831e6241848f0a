/-
# A store that changes while it is listed

`SSLConfigure` asks for the size of the listing, makes a block of that size, and asks for the
listing.  Between the two questions the store may change.  That the second listing is longer than
the block shows in its result, which is not compared with the size; so a listing that has been cut
off is gone through like any other.  The loading puts up with a change of the store if and only
if the listing does not grow (`listing_tolerated_iff`).
-/
import NewtonTLS.LoadingRules
import NewtonTLS.BoundedListing

open Reentrant

namespace NewtonTLS

namespace ChangingStore

open EffectiveRoots LoadingRules

/-! ## Two listings -/

/-- The size comes from one store and the listing from another.  All else is up to the
environment. -/
structure Lists (before after : RootStore) (E : Environment CESig ConnectionEnd) : Prop where
  size : ∀ n, E.answer n (Query.listRootCertificates none) = listRootCertificates before none
  names : ∀ n ioSize, E.answer n (Query.listRootCertificates (some ioSize)) =
    listRootCertificates after (some ioSize)

/-- The name of a lookup. -/
def lookupName : Happening CESig → Option (List Byte)
  | .asked (.getRootCertificate name _) _ => some name
  | _ => none

/-- The names that have been looked up. -/
def lookedUp (l : List (Happening CESig)) : List (List Byte) := l.filterMap lookupName

/-- Each name that is looked up is one of the second listing, whole; the scan for its end stays
among the bytes written; and when the second listing is longer than the block nothing of it is
looked up. -/
structure Tolerates (before after : RootStore) (l : List (Happening CESig))
    (r : Ending CESig ConnectionEnd Int) : Prop where
  complete : ∀ name ∈ lookedUp l, ∃ entry ∈ listedEntries after, name = tagBytes entry.tag
  inside : ∀ s, r ≠ .halt s Fault.overread
  detected : (listing before).length < (listing after).length → lookedUp l = []

section lists

variable {before after : RootStore} {E : Environment CESig ConnectionEnd}

/-- The first listing asks for the size. -/
theorem Lists.listed_none (hE : Lists before after E) (n : ℕ) :
    listed E n none = ⟨(listing before).length, []⟩ := by
  rw [listed, hE.size, listRootCertificates_eq, Option.map_none, putChar_count, Nat.zero_add]

/-- The second one asks for the names. -/
theorem Lists.listed_some (hE : Lists before after E) (n size : ℕ) :
    listed E n (some size) = listRootCertificates after (some size) := hE.names n size

/-- No listing fails. -/
theorem result_nonneg (store : RootStore) (ioSize : Option ℕ) :
    0 ≤ (listRootCertificates store ioSize).result := by
  rw [listRootCertificates_eq]
  exact Int.natCast_nonneg _

/-! ## A listing that fits -/

/-- If this is a lookup, it is one of a name of the store, and all of it. -/
def Complete (store : RootStore) (x : Happening CESig) : Prop :=
  ∀ name, lookupName x = some name → ∃ entry ∈ listedEntries store, name = tagBytes entry.tag

/-- The first of the names, and the others. -/
theorem splitName_names {ns : List (List Byte)} (hns : ∀ name ∈ ns, ∀ c ∈ name, c ≠ 0)
    {name rest : List Byte} (hsplit : splitName (ns.flatMap listedName) = some (name, rest)) :
    ∃ ns', ns = name :: ns' ∧ rest = ns'.flatMap listedName := by
  cases ns with
  | nil => cases hsplit
  | cons name' ns' =>
    rw [List.flatMap_cons, splitName_listed _ _ (hns name' List.mem_cons_self)] at hsplit
    cases hsplit
    exact ⟨ns', rfl, rfl⟩

/-- The bytes left are names of the store. -/
def NamesLeft (store : RootStore) (names : List Byte) : Prop :=
  ∃ entries, entries ⊆ listedEntries store ∧
    names = (entries.map fun entry => tagBytes entry.tag).flatMap listedName

/-- All names are left at the beginning. -/
theorem namesLeft_listing (store : RootStore) : NamesLeft store (listing store) :=
  ⟨listedEntries store, List.Subset.refl _, by rw [List.flatMap_map]; rfl⟩

/-- The name that is split off is one of the listing. -/
theorem NamesLeft.split {store : RootStore} {names name rest : List Byte}
    (h : NamesLeft store names) (hsplit : splitName names = some (name, rest)) :
    (∃ entry ∈ listedEntries store, name = tagBytes entry.tag) ∧ NamesLeft store rest := by
  obtain ⟨entries, hsub, rfl⟩ := h
  have hzero : ∀ name ∈ entries.map fun entry => tagBytes entry.tag, ∀ c ∈ name, c ≠ 0 := by
    intro name hname c hc
    obtain ⟨entry, -, rfl⟩ := List.mem_map.mp hname
    exact tagBytes_ne_zero c hc
  obtain ⟨ns', hns, rfl⟩ := splitName_names hzero hsplit
  obtain ⟨entry, entries', rfl, hname, rfl⟩ := List.map_eq_cons_iff.mp hns
  refine ⟨⟨entry, hsub List.mem_cons_self, hname.symm⟩, entries', ?_, rfl⟩
  exact fun e he => hsub (List.mem_cons_of_mem entry he)

/-- A listing ends with the end of a name. -/
theorem NamesLeft.terminated {store : RootStore} {names : List Byte} (h : NamesLeft store names)
    (hnames : names ≠ []) : splitName names ≠ none := by
  obtain ⟨entries, -, rfl⟩ := h
  cases entries with
  | nil => exact absurd rfl hnames
  | cons entry entries =>
    rw [List.map_cons, List.flatMap_cons, splitName_listed _ _ tagBytes_ne_zero]
    exact Option.some_ne_none _

/-- A question that is no lookup does not matter. -/
theorem asked_every {n : ℕ} {q : Query} {g : Prop} (hg : g)
    (hq : lookupName (.asked q (E.answer n q)) = none) :
    asked E (every (Complete after)) n q g := by
  refine ⟨hg, fun name hname => ?_⟩
  rw [hq] at hname
  cases hname

/-- Setting the session up looks nothing up. -/
theorem setUpKeeps_every : SetUpKeeps (every (Complete after)) id := by
  intro g q a hq hg
  refine ⟨hg, fun name hname => ?_⟩
  cases q with
  | getRootCertificate name ioSize => cases hq
  | _ => cases hname

/-- A name that is listed may be looked up. -/
theorem asked_lookup {n size : ℕ} {name : List Byte} {g : Prop} (hg : g)
    (hname : ∃ entry ∈ listedEntries after, name = tagBytes entry.tag) :
    asked E (every (Complete after)) n (.getRootCertificate name size) g := by
  refine ⟨hg, ?_⟩
  rintro name' ⟨⟩
  exact hname

/-- The loop looks up the names it is given. -/
theorem rounds_complete : Rounds E (every (Complete after))
    (fun names _ _ g _ => g ∧ NamesLeft after names) (Kept id (· ≠ Fault.overread)) where
  finished := fun h => kept_done h.1
  tired := fun h => kept_halt h.1 (by decide)
  unterminated := fun h hnames hsplit => absurd hsplit (h.2.terminated hnames)
  skipped := by
    intro names name rest cert size g s n h hsplit _
    obtain ⟨hname, hrest⟩ := h.2.split hsplit
    exact ⟨asked_lookup h.1 hname, hrest⟩
  grown := by
    intro names name rest cert size g s n m k h hsplit _ _
    obtain ⟨hname, -⟩ := h.2.split hsplit
    exact ⟨asked_every (asked_every (asked_lookup h.1 hname) rfl) rfl, h.2⟩
  parsed := by
    intro names name rest cert size g s n m result added h hsplit _ _ _
    obtain ⟨hname, hrest⟩ := h.2.split hsplit
    exact ⟨asked_every (asked_lookup h.1 hname) rfl, hrest⟩
  raised := by
    intro names name rest cert size g s n m h hsplit _ _ _
    obtain ⟨hname, -⟩ := h.2.split hsplit
    exact kept_raise (asked_every (asked_lookup h.1 hname) rfl)

variable {fuel : ℕ} {g : Prop} {s : ConnectionEnd}

/-- When the second listing fits into the block, all is well. -/
theorem leads_sslConfigure_fitting (hE : Lists before after E)
    (hfits : (listing after).length ≤ (listing before).length) (hg : g) :
    (sslConfigure fuel).Leads E (every (Complete after)) (Kept id (· ≠ Fault.overread)) g s := by
  refine leads_sslConfigure_kept setUpKeeps_every ?_ ?_ ?_ hg
  · exact fun n ioSize g hg => asked_every hg rfl
  · exact fun n p size g hg => asked_every hg rfl
  · intro n k p g s hg _
    rw [hE.listed_none, Int.toNat_natCast, hE.listed_some, listRootCertificates_of_room hfits]
    exact rounds_complete.leads_loadNames fuel ⟨hg, namesLeft_listing after⟩

/-! ## A listing that has grown -/

/-- A name was looked up, or its end was not found. -/
def Scans {α : Type} (g : Prop) (r : Ending CESig ConnectionEnd α) : Prop :=
  g ∨ ∃ s, r = .halt s Fault.overread

/-- This is a lookup. -/
def IsLookup (x : Happening CESig) : Prop := (lookupName x).isSome = true

/-- What has been looked up stays looked up. -/
theorem any_of_left {A : Happening CESig → Prop} (g : Prop) (x : Happening CESig) (hg : g) :
    any A g x := .inl hg

/-- The first name is looked up, or it has no end. -/
theorem leads_loadNames_scans {names : List Byte} {cert : Block} {size : ℕ} (hnames : names ≠ []) :
    (loadNames (fuel + 1) names cert size).Leads E (any IsLookup) Scans g s := by
  obtain ⟨c, names', rfl⟩ := List.exists_cons_of_ne_nil hnames
  rw [loadNames]
  split
  · exact Code.leads_halt (.inr ⟨s, rfl⟩)
  · rename_i name rest _
    refine Code.leads_ask_bind fun n => ?_
    have hlookup : IsLookup (.asked (Query.getRootCertificate name size)
      (E.answer n (Query.getRootCertificate name size))) := rfl
    refine (Code.leads_kept any_of_left (Or.inr hlookup) _).mono ?_
    exact fun g' r hg' => .inl hg'

/-- Into whatever block, of a listing that is not empty something is written. -/
theorem written_ne_nil {store : RootStore} (hlisted : listing store ≠ []) (size : ℕ) :
    (listRootCertificates store (some size)).written ≠ [] := by
  rw [listRootCertificates_eq, Option.map_some, Option.getD_some]
  rcases Nat.eq_zero_or_pos size with rfl | hsize
  · rw [(BoundedListing.putChar_past_end (listing store) 0 [] 0 le_rfl).1]
    exact hlisted
  · rw [(putChar_write (listing store) 0 [] 0 hsize).1]
    rw [List.nil_append, Nat.sub_zero, ne_eq, List.take_eq_nil_iff, not_or]
    exact ⟨hsize.ne', hlisted⟩

/-- A second listing that is not empty is gone through, whatever the first one was. -/
theorem leads_loadListed_scans (hE : Lists before after E) (hlisted : listing after ≠ []) :
    (loadListed (fuel + 1)).Leads E (any IsLookup) Scans g s := by
  refine leads_loadListed ?_ ?_ ?_
  · intro n hfailed
    rw [listed, hE.size] at hfailed
    exact absurd hfailed (result_nonneg _ _).not_gt
  · intro n m k j size _ _ hfailed
    rw [listed, hE.names] at hfailed
    exact absurd hfailed (result_nonneg _ _).not_gt
  · rintro n m k j size - - -
    rw [hE.listed_some]
    refine (leads_loadNames_scans (written_ne_nil hlisted size)).mono ?_
    rintro g' r (hg' | ⟨s', rfl⟩)
    · cases r with
      | done s' cert => exact fun i i' => .inl (.inl (.inl hg'))
      | raise s' => exact .inl hg'
      | halt s' w => exact .inl hg'
    · exact .inr ⟨s', rfl⟩

/-- When the second listing is not empty, the scan begins. -/
theorem leads_loadInHeap_scans (hE : Lists before after E) (hlisted : listing after ≠ []) :
    (loadInHeap (fuel + 1)).Leads E (any IsLookup) Scans g s := by
  refine leads_loadInHeap ((leads_loadListed_scans hE hlisted).mono ?_)
  rintro g' r (hg' | ⟨s', rfl⟩)
  · rcases r with ⟨s', _ | r⟩ | s' | ⟨s', w⟩ <;> exact .inl hg'
  · exact .inr ⟨s', rfl⟩

/-- When the generator can be seeded and roots are wanted, the second listing is gone through. -/
theorem leads_sslConfigure_scans (hE : Lists before after E)
    (hseed : ∀ n custom, E.answer n (Query.mbedtlsCtrDrbgSeed custom) = (0 : Int))
    (hload : s.mSSLLoadRootCertificates = true) (hlisted : listing after ≠ []) :
    (sslConfigure (fuel + 1)).Leads E (any IsLookup) Scans g s := by
  have hscanned : SetUpKeeps (any IsLookup) id := fun g q a _ hg => .inl hg
  refine leads_sslConfigure (I := fun _ => True) (fun _ _ _ _ _ => trivial) trivial ?_ ?_ ?_
  · intro g' n custom r _ hr hfailed
    rw [hseed] at hr
    exact absurd hr.symm hfailed
  · intro _ g' _
    refine Code.Leads.mono (Q := Scans) ?_ ?_
    · refine leads_loadRootCertificates ?_ ?_ ?_
      · exact fun _ => leads_loadInHeap_scans hE hlisted
      · exact fun n heap _ _ => leads_loadInHeap_scans hE hlisted
      · exact fun n _ _ => leads_loadInHeap_scans hE hlisted
    · rintro g'' r (hg'' | ⟨s', rfl⟩)
      · rcases r with ⟨s', _ | r⟩ | s' | ⟨s', w⟩
        · exact hscanned.leads_setUpSSL hg'' fun g s hg _ => .inl hg
        · exact .inl hg''
        · exact .inl hg''
        · exact .inl hg''
      · exact .inr ⟨s', rfl⟩
  · intro hnot
    rw [hload] at hnot
    cases hnot

/-- A way on which something is scanned does not put up with growth. -/
theorem not_tolerates {l : List (Happening CESig)} {r : Ending CESig ConnectionEnd Int}
    (hgrown : (listing before).length < (listing after).length)
    (h : Scans (l.foldl (any IsLookup) False) r) : ¬ Tolerates before after l r := by
  intro htol
  rcases h with hlookup | ⟨s, hr⟩
  · obtain ⟨x, hx, hname⟩ := ((foldl_any IsLookup l False).mp hlookup).resolve_left id
    obtain ⟨name, hname⟩ := Option.isSome_iff_exists.mp hname
    have hmem : name ∈ lookedUp l := List.mem_filterMap.mpr ⟨x, hx, hname⟩
    rw [htol.detected hgrown] at hmem
    cases hmem
  · exact htol.inside s hr

end lists

/-- The answers of two stores, while nothing else fails. -/
def storesAnswer (before after : RootStore) : (q : Query) → q.Answer
  | .listRootCertificates none => listRootCertificates before none
  | .listRootCertificates (some ioSize) => listRootCertificates after (some ioSize)
  | .getRootCertificate name ioSize => getRootCertificate ascii after name ioSize
  | q => plainAnswer q

/-- An environment in which the store changes between the two listings. -/
def withStores (before after : RootStore) : Environment CESig ConnectionEnd where
  answer := fun _ => storesAnswer before after
  result := fun _ c s => (results 0 (.error MBEDTLS_ERR_SSL_WANT_READ) c, s)

theorem lists_withStores (before after : RootStore) :
    Lists before after (withStores before after) where
  size := fun _ => rfl
  names := fun _ _ => rfl

/-- **A changing store.**  Whatever else happens, each name that is looked up is one of the second
listing, the scan stays among the bytes written, and a listing that is too long is noticed, if and
only if the second listing is not longer than the first. -/
theorem listing_tolerated_iff (before after : RootStore) :
    (∀ E, Lists before after E → ∀ fuel n s,
      (sslConfigure fuel).Drives E (Tolerates before after) n s) ↔
    (listing after).length ≤ (listing before).length := by
  constructor
  · intro h
    by_contra hgrown
    have hgrown := not_le.mp hgrown
    have hlisted : listing after ≠ [] := by
      intro hempty
      rw [hempty] at hgrown
      exact absurd hgrown (Nat.not_lt_zero _)
    -- a run in which both listings succeed reads past the block or looks a name up
    have hscans : (sslConfigure 1).Leads (withStores before after) (any IsLookup) Scans False
        (new zeroMemory) :=
      leads_sslConfigure_scans (lists_withStores before after) (fun _ _ => rfl) rfl hlisted
    have htol := h _ (lists_withStores before after) 1 0 (new zeroMemory)
    exact not_tolerates hgrown (hscans 0) htol
  · intro hfits E hE fuel n s
    refine (leads_sslConfigure_fitting hE hfits trivial n).mono ?_
    rintro l r ⟨hcomplete, hinside⟩
    have hall := ((foldl_every (Complete after) l True).mp hcomplete).2
    constructor
    · intro name hname
      obtain ⟨x, hx, hxname⟩ := List.mem_filterMap.mp hname
      exact hall x hx name hxname
    · exact fun s' hr => hinside s' _ hr rfl
    · exact fun hgrown => absurd hgrown hfits.not_gt

/-- The only root of the package is removed and another one with a longer tag is added: the end of
its name is not found. -/
theorem not_listing_tolerated : ¬ ∀ (before after : RootStore) (E : Environment CESig ConnectionEnd)
    (fuel n : ℕ) (s : ConnectionEnd), Lists before after E →
      (sslConfigure fuel).Drives E (Tolerates before after) n s := by
  intro hall
  have h := hall ⟨[⟨[65], true, .binary [1], .nil⟩], none⟩
    ⟨[⟨[66, 67], true, .binary [2], .nil⟩], none⟩
    _ 1 0 (new zeroMemory) (lists_withStores _ _)
  exact h.inside _ rfl

end ChangingStore

end NewtonTLS
