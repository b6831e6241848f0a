/-
# The roots that are loaded

What `SSLConfigure` passes to the parser when it loads root certificates from a store that
does not change: the listing of the names (`listRootCertificates_stream`), the loop over it
(`drives_loadNames`), and the certificates that come out of it (`loaded_eq`).

The cursor over the union soup is moved by `MAKEINT(1)`, which is 4, so that three of four
entries are skipped.  The certificates loaded are the effective ones if and only if none of
the skipped entries has a trusted certificate (`loaded_iff_none_skipped`).
-/
import NewtonTLS.RootStore
import NewtonTLS.ReentrantDrive
import NewtonTLS.ConnectionEndRuns
import Mathlib.Data.List.Perm.Basic
import Mathlib.Data.List.Nodup
import Mathlib.Data.List.TakeWhile
import Mathlib.Data.Nat.ModEq

open Reentrant

namespace NewtonTLS

namespace EffectiveRoots

/-! ## Names -/

/-- A printable ASCII character. -/
def Printable (u : UniChar) : Prop := 0x20 ≤ u ∧ u ≤ 0x7e

/-- The name of a tag: its characters as bytes. -/
def nameOf (tag : List UniChar) : List Byte := tag.map UInt16.toUInt8

/-- The name that is read back: the characters of the tag as bytes, up to one that is 0. -/
def tagBytes (tag : List UniChar) : List Byte := (nameOf tag).takeWhile (· ≠ 0)

/-- A name as it is listed, with its terminator. -/
def listedName (name : List Byte) : List Byte := name ++ [0]

/-- No byte of a listed name ends it early. -/
theorem tagBytes_ne_zero {tag : List UniChar} : ∀ c ∈ tagBytes tag, c ≠ 0 := by
  intro c hc
  have hkept : decide (c ≠ 0) = true := List.mem_takeWhile_imp (p := fun c => decide (c ≠ 0)) hc
  exact of_decide_eq_true hkept

/-- A printable character is not the end of a string. -/
theorem Printable.toUInt8_ne_zero {u : UniChar} (h : Printable u) : u.toUInt8 ≠ 0 := by
  intro hzero
  have hnat := congrArg UInt8.toNat hzero
  have hlo : 0x20 ≤ u.toNat := UInt16.le_iff_toNat_le.mp h.1
  have hhi : u.toNat ≤ 0x7e := UInt16.le_iff_toNat_le.mp h.2
  rw [UInt16.toNat_toUInt8] at hnat
  simp at hnat
  omega

/-- A printable character survives as a byte. -/
theorem Printable.toUInt16_toUInt8 {u : UniChar} (h : Printable u) : u.toUInt8.toUInt16 = u := by
  apply UInt16.toNat.inj
  have hhi : u.toNat ≤ 0x7e := UInt16.le_iff_toNat_le.mp h.2
  rw [UInt8.toNat_toUInt16, UInt16.toNat_toUInt8]
  omega

/-- `MakeString` turns ASCII bytes into the characters of the same codes. -/
def MakesAscii (makeString : List Byte → List UniChar) : Prop :=
  ∀ name : List Byte, (∀ c ∈ name, 0x20 ≤ c ∧ c ≤ 0x7e) → makeString name = name.map UInt8.toUInt16

/-- The string that is made of a name is the tag. -/
theorem makeString_nameOf {makeString : List Byte → List UniChar} (hmake : MakesAscii makeString)
    {tag : List UniChar} (htag : ∀ u ∈ tag, Printable u) : makeString (nameOf tag) = tag := by
  rw [hmake, nameOf, List.map_map]
  · conv_rhs => rw [← List.map_id tag]
    exact List.map_congr_left fun u hu => (htag u hu).toUInt16_toUInt8
  · intro c hc
    obtain ⟨u, hu, rfl⟩ := List.mem_map.mp hc
    have hlo : 0x20 ≤ u.toNat := UInt16.le_iff_toNat_le.mp (htag u hu).1
    have hhi : u.toNat ≤ 0x7e := UInt16.le_iff_toNat_le.mp (htag u hu).2
    have hbyte : u.toUInt8.toNat = u.toNat := by
      rw [UInt16.toNat_toUInt8]
      omega
    constructor
    · rw [UInt8.le_iff_toNat_le, hbyte]
      exact hlo
    · rw [UInt8.le_iff_toNat_le, hbyte]
      exact hhi

/-! ## The listing -/

theorem tagBytes_of_printable {tag : List UniChar} (htag : ∀ u ∈ tag, Printable u) :
    tagBytes tag = nameOf tag := by
  refine List.takeWhile_eq_self_iff.mpr ?_
  intro c hc
  obtain ⟨u, hu, rfl⟩ := List.mem_map.mp hc
  exact decide_eq_true (htag u hu).toUInt8_ne_zero

/-- The bytes of a tag are written one by one, and then the terminator. -/
theorem putTag_eq (endCursor : ℕ) (tag : List UniChar) :
    ∀ w, putTag endCursor tag w = (listedName (tagBytes tag)).foldl (putChar endCursor) w := by
  induction tag with
  | nil => intro w; rfl
  | cons u tag ih =>
    intro w
    rw [putTag]
    by_cases hu : u.toUInt8 = 0
    · have hbytes : tagBytes (u :: tag) = [] := by
        rw [tagBytes, nameOf, List.map_cons, List.takeWhile_cons_of_neg]
        rw [hu]
        decide
      rw [if_pos hu, hbytes, hu]
      rfl
    · have hbytes : tagBytes (u :: tag) = u.toUInt8 :: tagBytes tag := by
        rw [tagBytes, nameOf, List.map_cons]
        exact List.takeWhile_cons_of_pos (decide_eq_true hu)
      rw [if_neg hu, ih, hbytes]
      rfl

/-- Without a buffer the bytes are only counted. -/
theorem putChar_count (endCursor : ℕ) (bytes : List Byte) :
    ∀ w n, bytes.foldl (putChar endCursor) ⟨none, w, n⟩ = ⟨none, w, n + bytes.length⟩ := by
  induction bytes with
  | nil => intro w n; rfl
  | cons c bytes ih =>
    intro w n
    rw [List.foldl_cons, List.length_cons, ← Nat.add_assoc, Nat.add_right_comm]
    exact ih w (n + 1)

/-- In front of the end of a buffer as many bytes are written as fit. -/
theorem putChar_write {endCursor : ℕ} (bytes : List Byte) :
    ∀ p written n, p < endCursor →
      (bytes.foldl (putChar endCursor) ⟨some p, written, n⟩).written =
          written ++ bytes.take (endCursor - p) ∧
        (bytes.foldl (putChar endCursor) ⟨some p, written, n⟩).totalSize = n + bytes.length := by
  induction bytes with
  | nil =>
    intro p written n _
    rw [List.take_nil, List.append_nil]
    exact ⟨rfl, rfl⟩
  | cons c bytes ih =>
    intro p written n hp
    have htake : (c :: bytes).take (endCursor - p) = c :: bytes.take (endCursor - (p + 1)) := by
      rw [show endCursor - p = endCursor - (p + 1) + 1 by omega, List.take_succ_cons]
    rw [htake, List.length_cons, List.foldl_cons, putChar]
    dsimp only
    by_cases hend : p + 1 = endCursor
    · -- the buffer is full, and the rest is only counted
      rw [if_pos hend, putChar_count, hend, Nat.sub_self, List.take_zero]
      exact ⟨rfl, by dsimp only; omega⟩
    · rw [if_neg hend]
      obtain ⟨hwritten, htotal⟩ := ih (p + 1) (written ++ [c]) (n + 1) (by omega)
      rw [hwritten, htotal, List.append_assoc]
      exact ⟨rfl, by omega⟩

/-- The entries whose names are listed. -/
def listedEntries (store : RootStore) : List RootEntry :=
  store.packageSoup.filter (fun entry => !store.overrides entry.tag) ++
    cursorEntries (MAKEINT 1) 0 store.userSoup

/-- What the listing consists of. -/
def listing (store : RootStore) : List Byte :=
  (listedEntries store).flatMap fun entry => listedName (tagBytes entry.tag)

/-- The listing of printable tags. -/
def stream (store : RootStore) : List Byte :=
  (listedEntries store).flatMap fun entry => listedName (nameOf entry.tag)

/-- The tags are printable. -/
def PrintableTags (store : RootStore) : Prop :=
  ∀ entry ∈ store.packageSoup ++ store.userSoup, ∀ u ∈ entry.tag, Printable u

/-- It is enough to look through the entries. -/
theorem printableTags_of_all {store : RootStore}
    (h : ((store.packageSoup ++ store.userSoup).all fun entry => entry.tag.all fun u =>
      decide (0x20 ≤ u) && decide (u ≤ 0x7e)) = true) : PrintableTags store := by
  intro entry hentry u hu
  have htag := List.all_eq_true.mp h entry hentry
  have hprintable := List.all_eq_true.mp htag u hu
  rw [Bool.and_eq_true, decide_eq_true_eq, decide_eq_true_eq] at hprintable
  exact hprintable

/-- A cursor that is moved by one entry shows all. -/
theorem cursorEntries_one {α : Type} (xs : List α) : cursorEntries 1 0 xs = xs := by
  induction xs with
  | nil => rfl
  | cons x xs ih => rw [cursorEntries, ih]

/-- A cursor skips entries and does not reorder them. -/
theorem cursorEntries_sublist {α : Type} (n : ℕ) (xs : List α) :
    ∀ k, (cursorEntries n k xs).Sublist xs := by
  induction xs with
  | nil => intro k; cases k <;> exact List.Sublist.refl _
  | cons x xs ih =>
    intro k
    cases k with
    | zero => exact (ih _).cons_cons x
    | succ k => exact (ih k).cons x

/-- An entry that is listed is one of the store. -/
theorem mem_of_listed {store : RootStore} {entry : RootEntry} (h : entry ∈ listedEntries store) :
    entry ∈ store.packageSoup ++ store.userSoup := by
  rcases List.mem_append.mp h with hpackage | huser
  · exact List.mem_append_left _ (List.mem_filter.mp hpackage).1
  · exact List.mem_append_right _ ((cursorEntries_sublist _ _ 0).subset huser)

/-- Of printable tags nothing is lost. -/
theorem listing_of_printable {store : RootStore} (htags : PrintableTags store) :
    listing store = stream store := by
  refine List.flatMap_congr fun entry hentry => ?_
  rw [tagBytes_of_printable (htags entry (mem_of_listed hentry))]

/-- An entry of the package is listed unless the union soup has its tag. -/
theorem listPackageEntry_eq (store : RootStore) (endCursor : ℕ) (w : Listing) (entry : RootEntry) :
    listPackageEntry store endCursor w entry =
      (if !store.overrides entry.tag then listedName (tagBytes entry.tag) else []).foldl
        (putChar endCursor) w := by
  have hisNone : (query store.userSoup entry.tag).head?.isNone = !store.overrides entry.tag := by
    rw [Bool.eq_iff_iff, Option.isNone_iff_eq_none, head?_query_eq_none, RootStore.overrides,
      Bool.not_eq_true']
  have hlist : listPackageEntry store endCursor w entry =
      if (query store.userSoup entry.tag).head?.isNone then putTag endCursor entry.tag w
      else w := by
    unfold listPackageEntry RootStore.userSoup
    cases store.unionSoup <;> rfl
  rw [hlist, hisNone]
  split
  · exact putTag_eq endCursor entry.tag w
  · rfl

/-- A fold over entries that writes the names of some of them. -/
theorem foldl_names (endCursor : ℕ) (p : RootEntry → Bool) (f : Listing → RootEntry → Listing)
    (entries : List RootEntry)
    (hf : ∀ entry w, f w entry =
      (if p entry then listedName (tagBytes entry.tag) else []).foldl (putChar endCursor) w) :
    ∀ w, entries.foldl f w =
      ((entries.filter p).flatMap fun entry => listedName (tagBytes entry.tag)).foldl
        (putChar endCursor) w := by
  induction entries with
  | nil => intro w; rfl
  | cons entry entries ih =>
    intro w
    rw [List.foldl_cons, ih, hf entry, List.filter_cons]
    split
    · rw [List.flatMap_cons, List.foldl_append]
    · rfl

/-- The two loops write the listing. -/
theorem foldl_listing (store : RootStore) (endCursor : ℕ) (w : Listing) :
    (cursorEntries (MAKEINT 1) 0 store.userSoup).foldl
        (fun w (entry : RootEntry) => putTag endCursor entry.tag w)
        ((cursorEntries 1 0 store.packageSoup).foldl (listPackageEntry store endCursor) w) =
      (listing store).foldl (putChar endCursor) w := by
  have hpackage := foldl_names endCursor (fun entry => !store.overrides entry.tag)
    (listPackageEntry store endCursor) store.packageSoup
    (fun entry w => listPackageEntry_eq store endCursor w entry) w
  have huser := foldl_names endCursor (fun _ => true)
    (fun w (entry : RootEntry) => putTag endCursor entry.tag w)
    (cursorEntries (MAKEINT 1) 0 store.userSoup) (fun entry w => putTag_eq endCursor entry.tag w)
  rw [List.filter_eq_self.mpr fun _ _ => rfl] at huser
  rw [cursorEntries_one, hpackage, huser, listing, listedEntries, List.flatMap_append,
    List.foldl_append]

/-- The listing is written, whatever the buffer. -/
theorem listRootCertificates_eq (store : RootStore) (ioSize : Option ℕ) :
    listRootCertificates store ioSize =
      ⟨((listing store).foldl (putChar (ioSize.getD 0)) ⟨ioSize.map fun _ => 0, [], 0⟩).totalSize,
        ((listing store).foldl (putChar (ioSize.getD 0))
          ⟨ioSize.map fun _ => 0, [], 0⟩).written⟩ := by
  rw [← foldl_listing]
  unfold listRootCertificates RootStore.userSoup
  cases store.unionSoup <;> rfl

/-- Into a buffer with room for it the listing is written. -/
theorem listRootCertificates_of_room {store : RootStore} {n : ℕ}
    (hroom : (listing store).length ≤ n) :
    listRootCertificates store (some n) = ⟨(listing store).length, listing store⟩ := by
  rw [listRootCertificates_eq, Option.map_some, Option.getD_some]
  rcases Nat.eq_zero_or_pos n with rfl | hn
  · rw [List.eq_nil_of_length_eq_zero (Nat.le_zero.mp hroom)]
    rfl
  · obtain ⟨hwritten, htotal⟩ := putChar_write (listing store) 0 [] 0 hn
    rw [hwritten, htotal, Nat.zero_add, List.nil_append, Nat.sub_zero, List.take_of_length_le hroom]

/-- **The listing.**  Asked for the size it gives the length of the listing, and into a buffer of
that size it writes the listing. -/
theorem listRootCertificates_stream {store : RootStore} (htags : PrintableTags store) :
    listRootCertificates store none = ⟨(stream store).length, []⟩ ∧
      listRootCertificates store (some (stream store).length) =
        ⟨(stream store).length, stream store⟩ := by
  rw [← listing_of_printable htags]
  constructor
  · rw [listRootCertificates_eq, Option.map_none, putChar_count, Nat.zero_add]
  · exact listRootCertificates_of_room le_rfl

/-! ## The loop over the names -/

/-- The buffers that have been passed to `mbedtls_x509_crt_parse`. -/
def parsedBuffers (l : List (Happening CESig)) : List (List Byte) :=
  l.filterMap fun x => match x with
    | .asked (.mbedtlsX509CrtParse buf) _ => some buf
    | _ => none

/-- The environment answers from the store, which does not change, and nothing fails. -/
structure FromStore (makeString : List Byte → List UniChar) (store : RootStore)
    (E : Environment CESig ConnectionEnd) : Prop where
  seeded : ∀ n custom, E.answer n (Query.mbedtlsCtrDrbgSeed custom) = (0 : Int)
  listed : ∀ n ioSize, E.answer n (Query.listRootCertificates ioSize) =
    listRootCertificates store ioSize
  found : ∀ n name ioSize, E.answer n (Query.getRootCertificate name ioSize) =
    getRootCertificate makeString store name ioSize
  parsed : ∀ n buf, ∃ result added, E.answer n (Query.mbedtlsX509CrtParse buf) =
    ParseAnswer.parsed result added

/-- A name that is listed is read back. -/
theorem splitName_listed (name rest : List Byte) (hname : ∀ c ∈ name, c ≠ 0) :
    splitName (listedName name ++ rest) = some (name, rest) := by
  induction name with
  | nil => rfl
  | cons c name ih =>
    have hc : c ≠ 0 := hname c List.mem_cons_self
    have hrest := ih fun c' hc' => hname c' (List.mem_cons_of_mem c hc')
    rw [listedName] at hrest
    rw [listedName, List.cons_append, List.cons_append, splitName, if_neg hc, hrest]
    rfl

/-- The body goes to its end with a value in `P`, and passes `bufs` to the parser. -/
def Parses {α : Type} (E : Environment CESig ConnectionEnd) (m : CE α) (bufs : List (List Byte))
    (P : α → Prop) : Prop :=
  ∀ n s, m.Drives E (fun l r => parsedBuffers l = bufs ∧ ∃ s' a, r = .done s' a ∧ P a) n s

section load

variable {α β : Type} {makeString : List Byte → List UniChar} {store : RootStore}
  {E : Environment CESig ConnectionEnd} {bufs bufs' : List (List Byte)}

theorem parses_pure {P : α → Prop} {a : α} (h : P a) : Parses E (pure a) [] P :=
  fun _ s => ⟨rfl, s, a, rfl, h⟩

/-- Looking at the state parses nothing. -/
theorem parses_get : Parses E (get : CE ConnectionEnd) [] fun _ => True :=
  fun _ s => ⟨rfl, s, s, rfl, trivial⟩

/-- Changing the state parses nothing. -/
theorem parses_modify (f : ConnectionEnd → ConnectionEnd) :
    Parses E (modify f) [] fun _ => True :=
  fun _ s => ⟨rfl, f s, ⟨⟩, rfl, trivial⟩

/-- A question, which may be one to the parser. -/
theorem parses_ask (q : Query) (hq : ∀ n, parsedBuffers [.asked q (E.answer n q)] = bufs) :
    Parses E (ask q) bufs fun a => ∃ n, a = E.answer n q :=
  fun n s => ⟨hq n, s, _, rfl, n, rfl⟩

/-- A question is answered by the environment. -/
theorem drives_ask_bind (q : Query) (f : q.Answer → CE β) (n : ℕ) (s : ConnectionEnd)
    {Q : List (Happening CESig) → Ending CESig ConnectionEnd β → Prop} :
    (ask q >>= f).Drives E Q n s ↔ (f (E.answer n q)).Drives E
      (fun l => Q (.asked q (E.answer n q) :: l)) (n + 1) s := Iff.rfl

/-- Sequencing: what the two bodies pass to the parser comes in order. -/
theorem Parses.bind {m : CE α} {f : α → CE β} {P : α → Prop} {P' : β → Prop}
    (hm : Parses E m bufs P) (hf : ∀ a, P a → Parses E (f a) bufs' P') :
    Parses E (m >>= f) (bufs ++ bufs') P' := by
  intro n s
  rw [Code.drives_bind]
  refine (hm n s).mono ?_
  rintro l r ⟨hl, s', a, rfl, ha⟩
  rw [Ending.andThen_done]
  refine (hf a ha _ s').mono ?_
  rintro l' r ⟨hl', hr⟩
  refine ⟨?_, hr⟩
  rw [parsedBuffers, List.filterMap_append, ← hl, ← hl']
  rfl

/-- Sequencing after a body that passes nothing to the parser. -/
theorem Parses.andThen {m : CE α} {f : α → CE β} {P : α → Prop} {P' : β → Prop}
    (hm : Parses E m [] P) (hf : ∀ a, P a → Parses E (f a) bufs P') :
    Parses E (m >>= f) bufs P' := hm.bind hf

theorem Parses.mono {m : CE α} {P P' : α → Prop} (hm : Parses E m bufs P) (h : ∀ a, P a → P' a) :
    Parses E m bufs P' := by
  intro n s
  refine (hm n s).mono ?_
  rintro l r ⟨hl, s', a, hr, ha⟩
  exact ⟨hl, s', a, hr, h a ha⟩

/-- Nothing is raised, so that the cleanup does not run. -/
theorem Parses.onRaise {m : CE α} {P : α → Prop} (hm : Parses E m bufs P) (clean : CE Unit) :
    Parses E (m.onRaise clean) bufs P := by
  intro n s
  refine Act.drives_onRaise clean (m s) _ n ((hm n s).mono ?_)
  rintro l r ⟨hl, s', a, rfl, ha⟩
  exact ⟨⟨hl, s', a, rfl, ha⟩, by rintro s'' ⟨⟩⟩

/-- A new block has the size that was asked for. -/
theorem parses_newPtr (size : ℕ) :
    Parses E (newPtr size) [] fun b => b.bytes.length = size := by
  intro n s
  exact ⟨rfl, _, _, rfl, List.length_replicate⟩

theorem parses_disposPtr (b : Block) : Parses E (disposPtr b) [] fun _ => True :=
  (parses_ask (.disposPtr b.ptr) fun _ => rfl).mono fun _ _ => trivial

theorem parses_crtParse (hE : FromStore makeString store E) (buf : List Byte) :
    Parses E (mbedtlsX509CrtParse buf) [buf] fun _ => True := by
  rw [← List.append_nil [buf]]
  refine (parses_ask (.mbedtlsX509CrtParse buf) fun _ => rfl).bind ?_
  rintro a ⟨n, rfl⟩
  obtain ⟨result, added, hanswer⟩ := hE.parsed n buf
  rw [hanswer]
  exact (parses_modify _).andThen fun _ _ => parses_pure trivial

theorem parses_newVMHeap : Parses E newVMHeap [] fun _ => True := by
  refine (parses_ask _ fun _ => rfl).andThen fun a _ => ?_
  split
  · exact (parses_modify _).andThen fun _ _ => parses_pure trivial
  · exact parses_pure trivial

/-! ### The loop -/

variable {name names : List Byte} {fuel : ℕ} {cert : Block} {certPtrSize : ℕ}

/-- One round, for a name that is listed first. -/
theorem loadNames_cons (hname : ∀ c ∈ name, c ≠ 0) :
    loadNames (fuel + 1) (listedName name ++ names) cert certPtrSize = (do
      let a ← ask (.getRootCertificate name certPtrSize)
      let cert := blockAfter cert a.copied
      let certSize := sizeAfter certPtrSize a.copied
      if 0 ≤ a.result then
        if certSize < a.result.toNat then
          disposPtr cert
          let cert ← newPtr a.result.toNat
          loadNames fuel (listedName name ++ names) cert a.result.toNat
        else
          let _ ← mbedtlsX509CrtParse (cert.bytes.take certSize)
          loadNames fuel names cert certPtrSize
      else
        loadNames fuel names cert certPtrSize) := by
  have hsplit := splitName_listed name names hname
  obtain ⟨c, rest, hrest⟩ : ∃ c rest, listedName name ++ names = c :: rest := by
    cases name with
    | nil => exact ⟨_, _, rfl⟩
    | cons c name => exact ⟨_, _, rfl⟩
  rw [hrest] at hsplit ⊢
  rw [loadNames, hsplit]

/-- A name without a trusted certificate is passed over. -/
theorem parses_skipped (hE : FromStore makeString store E) (hname : ∀ c ∈ name, c ≠ 0)
    (hcert : trustedCert makeString store name = none)
    (hrest : Parses E (loadNames fuel names cert certPtrSize) bufs fun _ => True) :
    Parses E (loadNames (fuel + 1) (listedName name ++ names) cert certPtrSize) bufs
      fun _ => True := by
  rw [loadNames_cons hname]
  refine (parses_ask _ fun _ => rfl).andThen ?_
  rintro a ⟨n, rfl⟩
  rw [hE.found, getRootCertificate_eq, hcert]
  exact hrest

/-- A trusted certificate for which the block has room goes to the parser. -/
theorem parses_fitting (hE : FromStore makeString store E) (hname : ∀ c ∈ name, c ≠ 0)
    {bytes : List Byte} (hcert : trustedCert makeString store name = some bytes)
    (hfits : bytes.length ≤ certPtrSize)
    (hrest : ∀ cert, Parses E (loadNames fuel names cert certPtrSize) bufs fun _ => True) :
    Parses E (loadNames (fuel + 1) (listedName name ++ names) cert certPtrSize) (bytes :: bufs)
      fun _ => True := by
  rw [loadNames_cons hname]
  refine (parses_ask _ fun _ => rfl).andThen ?_
  rintro a ⟨n, rfl⟩
  rw [hE.found, getRootCertificate_eq, hcert]
  simp only [if_pos hfits, blockAfter, sizeAfter]
  rw [if_pos (Int.natCast_nonneg _), Int.toNat_natCast, if_neg (lt_irrefl _),
    List.take_left]
  exact (parses_crtParse hE bytes).bind fun _ _ => hrest _

/-- When the block is too small a larger one takes its place, and the name comes again. -/
theorem parses_grown (hE : FromStore makeString store E) (hname : ∀ c ∈ name, c ≠ 0)
    {bytes : List Byte} (hcert : trustedCert makeString store name = some bytes)
    (hlarge : certPtrSize < bytes.length)
    (hagain : ∀ cert, Parses E (loadNames fuel (listedName name ++ names) cert bytes.length) bufs
      fun _ => True) :
    Parses E (loadNames (fuel + 1) (listedName name ++ names) cert certPtrSize) bufs
      fun _ => True := by
  rw [loadNames_cons hname]
  refine (parses_ask _ fun _ => rfl).andThen ?_
  rintro a ⟨n, rfl⟩
  rw [hE.found, getRootCertificate_eq, hcert]
  simp only [if_neg (not_le.mpr hlarge), blockAfter, sizeAfter]
  rw [if_pos (Int.natCast_nonneg _), Int.toNat_natCast, if_pos hlarge]
  refine (parses_disposPtr cert).andThen fun _ _ => ?_
  exact (parses_newPtr _).andThen fun cert' _ => hagain cert'

/-- **The loop.**  It passes the trusted certificates of the names to the parser, in the order of
the names; a name takes one round or, when the block has to grow, two. -/
theorem parses_loadNames (hE : FromStore makeString store E) (names : List (List Byte))
    (hnames : ∀ name ∈ names, ∀ c ∈ name, c ≠ 0) :
    ∀ (fuel : ℕ) (cert : Block) (certPtrSize : ℕ), 2 * names.length ≤ fuel →
      Parses E (loadNames fuel (names.flatMap listedName) cert certPtrSize)
        (names.filterMap (trustedCert makeString store)) fun _ => True := by
  induction names with
  | nil =>
    intro fuel cert certPtrSize _
    cases fuel <;> exact parses_pure trivial
  | cons name names ih =>
    intro fuel cert certPtrSize hfuel
    rw [List.length_cons] at hfuel
    have hname := hnames name List.mem_cons_self
    have hrest := ih fun name' hname' => hnames name' (List.mem_cons_of_mem name hname')
    -- two rounds are enough for this name
    obtain ⟨fuel, rfl⟩ := Nat.exists_eq_add_of_le' (show 2 ≤ fuel by omega)
    rw [List.flatMap_cons]
    cases hcert : trustedCert makeString store name with
    | none =>
      rw [List.filterMap_cons_none hcert]
      exact parses_skipped hE hname hcert (hrest _ _ _ (by omega))
    | some bytes =>
      rw [List.filterMap_cons_some hcert]
      by_cases hfits : bytes.length ≤ certPtrSize
      · exact parses_fitting hE hname hcert hfits fun cert' => hrest _ _ _ (by omega)
      · exact parses_grown hE hname hcert (by omega) fun cert' =>
          parses_fitting hE hname hcert le_rfl fun cert'' => hrest _ _ _ (by omega)

/-- The list is made, the names are gone through, and nothing stops the loop. -/
theorem parses_loadListed (hE : FromStore makeString store E) (htags : PrintableTags store)
    (hfuel : 2 * (listedEntries store).length ≤ fuel) :
    Parses E (loadListed fuel)
      ((listedEntries store).filterMap fun entry =>
        trustedCert makeString store (nameOf entry.tag))
      fun early => early = none := by
  obtain ⟨hsize, hstream⟩ := listRootCertificates_stream htags
  unfold loadListed
  refine (parses_ask _ fun _ => rfl).andThen ?_
  rintro a ⟨n, rfl⟩
  rw [hE.listed, hsize]
  simp only [if_neg (not_lt.mpr (Int.natCast_nonneg _)), Int.toNat_natCast]
  refine (parses_newPtr _).andThen fun list _ => (parses_ask _ fun _ => rfl).andThen ?_
  rintro a ⟨n', rfl⟩
  rw [hE.listed, hstream, if_neg (not_lt.mpr (Int.natCast_nonneg _))]
  refine (parses_newPtr 0).andThen fun cert _ => ?_
  have hloop := parses_loadNames hE ((listedEntries store).map fun entry => nameOf entry.tag)
    ?_ fuel cert 0 (by rwa [List.length_map])
  · rw [List.filterMap_map, List.flatMap_map] at hloop
    rw [← List.append_nil (List.filterMap _ _)]
    -- the blocks are released, and nothing else is parsed
    refine hloop.bind fun cert' _ => (parses_disposPtr cert').andThen fun _ _ => ?_
    exact (parses_disposPtr list).andThen fun _ _ => parses_pure rfl
  · intro name hname c hc
    -- no name has a zero byte, since every tag is printable
    obtain ⟨entry, hentry, rfl⟩ := List.mem_map.mp hname
    obtain ⟨u, hu, rfl⟩ := List.mem_map.mp hc
    refine (htags entry ?_ u hu).toUInt8_ne_zero
    rcases List.mem_append.mp hentry with hpackage | huser
    · exact List.mem_append_left _ (List.mem_filter.mp hpackage).1
    · exact List.mem_append_right _ ((cursorEntries_sublist _ _ 0).subset huser)

/-- The certificates of the names that are listed are parsed. -/
theorem parses_loadRootCertificates (hE : FromStore makeString store E)
    (htags : PrintableTags store) (hfuel : 2 * (listedEntries store).length ≤ fuel) :
    Parses E (loadRootCertificates fuel)
      ((listedEntries store).filterMap fun entry =>
        trustedCert makeString store (nameOf entry.tag))
      fun early => early = none := by
  have hregion : Parses E (loadInHeap fuel)
      ((listedEntries store).filterMap fun entry =>
        trustedCert makeString store (nameOf entry.tag)) fun early => early = none := by
    refine parses_get.andThen fun s _ => (parses_modify _).andThen fun _ _ => ?_
    rw [← List.append_nil (List.filterMap _ _)]
    refine ((parses_loadListed hE htags hfuel).onRaise _).bind ?_
    rintro early rfl
    exact (parses_modify _).andThen fun _ _ => parses_pure rfl
  refine parses_get.andThen fun s _ => ?_
  split
  · exact parses_newVMHeap.andThen fun _ _ => hregion
  · exact hregion

/-! ### The rest of `SSLConfigure` -/

theorem parses_nowms : Parses E nowms [] fun _ => True :=
  (parses_ask _ fun _ => rfl).mono fun _ _ => trivial

theorem parses_sslSetTimerCallback (i f : UInt32) :
    Parses E (sslSetTimerCallback i f) [] fun _ => True := by
  unfold sslSetTimerCallback
  split
  · exact parses_modify _
  · exact parses_nowms.andThen fun _ _ => parses_modify _

theorem parses_runTimerCalls (ts : TimerCalls) : Parses E (runTimerCalls ts) [] fun _ => True := by
  induction ts with
  | nil => exact parses_pure trivial
  | cons t ts ih => exact (parses_sslSetTimerCallback t.1 t.2).andThen fun _ _ => ih

theorem parses_freshPtr : Parses E freshPtr [] fun _ => True :=
  fun _ _ => ⟨rfl, _, _, rfl, trivial⟩

theorem parses_newBufferList : Parses E newBufferList [] fun _ => True :=
  parses_freshPtr.andThen fun _ _ => (parses_ask _ fun _ => rfl).andThen fun _ _ =>
    parses_pure trivial

theorem parses_passHostname (h : Option Block) : Parses E (passHostname h) [] fun _ => True := by
  cases h with
  | none => exact parses_pure trivial
  | some h =>
    refine (parses_ask _ fun _ => rfl).andThen fun _ _ => ?_
    exact (parses_disposPtr h).andThen fun _ _ => parses_modify _

/-- Setting the session up parses nothing, and succeeds. -/
theorem parses_setUpSSL : Parses E setUpSSL [] fun r => r = 0 := by
  refine parses_get.andThen fun s _ => ?_
  refine (parses_ask _ fun _ => rfl).andThen fun _ _ => ?_
  refine (parses_ask _ fun _ => rfl).andThen fun _ _ => ?_
  refine (parses_ask _ fun _ => rfl).andThen fun _ _ => ?_
  refine (parses_ask _ fun _ => rfl).andThen fun _ _ => ?_
  refine (parses_ask _ fun _ => rfl).andThen fun _ _ => ?_
  refine (parses_ask _ fun _ => rfl).andThen fun _ _ => ?_
  refine (parses_ask _ fun _ => rfl).andThen fun ts _ => ?_
  refine (parses_runTimerCalls _).andThen fun _ _ => ?_
  refine (parses_passHostname _).andThen fun _ _ => ?_
  -- the message and the three lists
  refine parses_freshPtr.andThen fun _ _ => (parses_ask _ fun _ => rfl).andThen fun _ _ => ?_
  refine parses_newBufferList.andThen fun _ _ => parses_newBufferList.andThen fun _ _ => ?_
  refine parses_newBufferList.andThen fun _ _ => (parses_modify _).andThen fun _ _ => ?_
  exact (parses_ask _ fun _ => rfl).andThen fun _ _ => parses_pure rfl

/-- **What is loaded.**  When root certificates are to be loaded, `SSLConfigure` succeeds and
passes the trusted certificates of the names that are listed to the parser. -/
theorem drives_sslConfigure (hE : FromStore makeString store E) (htags : PrintableTags store)
    (hfuel : 2 * (listedEntries store).length ≤ fuel) (n : ℕ) {s : ConnectionEnd}
    (hload : s.mSSLLoadRootCertificates = true) :
    (sslConfigure fuel).Drives E (fun l r =>
      parsedBuffers l = ((listedEntries store).filterMap fun entry =>
        trustedCert makeString store (nameOf entry.tag)) ∧ ∃ s', r = .done s' 0) n s := by
  have hrest : Parses E (do
      let early ← loadRootCertificates fuel
      early.elim setUpSSL pure)
      ((listedEntries store).filterMap fun entry =>
        trustedCert makeString store (nameOf entry.tag)) fun r => r = 0 := by
    rw [← List.append_nil (List.filterMap _ _)]
    refine (parses_loadRootCertificates hE htags hfuel).bind ?_
    rintro early rfl
    exact parses_setUpSSL
  unfold sslConfigure
  rw [drives_ask_bind, drives_ask_bind, drives_ask_bind, drives_ask_bind, hE.seeded]
  simp only [ne_eq, not_true_eq_false, if_false, Code.drives_bind, Code.drives_get,
    Ending.andThen_done_nil, hload, if_true]
  rw [← Code.drives_bind]
  refine (hrest _ s).mono ?_
  rintro l r ⟨hl, s', a, hr, rfl⟩
  exact ⟨hl, s', hr⟩

end load

/-! ## The effective roots -/

/-- The certificate of an entry, if it is trusted. -/
def trustedRoot (entry : RootEntry) : Option (List Byte) :=
  if entry.trust then entry.cert else none

/-- The trust anchors: of the package entries those that the union soup does not override, and
of the union soup all. -/
def effective (store : RootStore) : List (List Byte) :=
  (store.packageSoup.filter (fun entry => !store.overrides entry.tag) ++
    store.userSoup).filterMap trustedRoot

/-- Within each soup the tags are distinct. -/
def DistinctTags (store : RootStore) : Prop :=
  (store.packageSoup.map RootEntry.tag).Nodup ∧ (store.userSoup.map RootEntry.tag).Nodup

/-- Among distinct tags a query finds the entry. -/
theorem head?_query_of_mem {soup : List RootEntry} (hdistinct : (soup.map RootEntry.tag).Nodup)
    {entry : RootEntry} (hentry : entry ∈ soup) :
    (query soup entry.tag).head? = some entry := by
  cases hfound : (query soup entry.tag).head? with
  | none =>
    rw [head?_query_eq_none, List.any_eq_false] at hfound
    exact absurd (decide_eq_true rfl) (hfound entry hentry)
  | some found =>
    obtain ⟨hmem, htag⟩ := mem_query.mp (List.mem_of_head? hfound)
    rw [List.inj_on_of_nodup_map hdistinct hmem hentry htag]

/-- Under its own name every listed entry is found. -/
theorem findEntry_listed {store : RootStore} (hdistinct : DistinctTags store) {entry : RootEntry}
    (hentry : entry ∈ listedEntries store) : findEntry store entry.tag = some entry := by
  unfold findEntry
  rw [head?_userSoup]
  rcases List.mem_append.mp hentry with hpackage | huser
  · obtain ⟨hmem, hover⟩ := List.mem_filter.mp hpackage
    rw [Bool.not_eq_true'] at hover
    rw [head?_query_eq_none.mpr hover]
    exact head?_query_of_mem hdistinct.1 hmem
  · rw [head?_query_of_mem hdistinct.2 ((cursorEntries_sublist _ _ 0).subset huser)]

/-- What is loaded are the trusted roots among the listed entries. -/
theorem loaded_eq {makeString : List Byte → List UniChar} (hmake : MakesAscii makeString)
    {store : RootStore} (htags : PrintableTags store) (hdistinct : DistinctTags store) :
    ((listedEntries store).filterMap fun entry =>
        trustedCert makeString store (nameOf entry.tag)) =
      (listedEntries store).filterMap trustedRoot := by
  refine List.filterMap_congr fun entry hentry => ?_
  have htag : ∀ u ∈ entry.tag, Printable u := htags entry (mem_of_listed hentry)
  rw [trustedCert, makeString_nameOf hmake htag, findEntry_listed hdistinct hentry]
  rfl

/-- Indices one apart. -/
theorem succ_mod_eq_iff {i k n : ℕ} (hk : k < n) : (i + 1) % n = (k + 1) % n ↔ i % n = k := by
  have hmod : k % n = k := Nat.mod_eq_of_lt hk
  constructor
  · intro h
    have hcancel : i ≡ k [MOD n] := Nat.ModEq.add_right_cancel' 1 h
    exact Eq.trans hcancel hmod
  · intro h
    have hsame : i ≡ k [MOD n] := h.trans hmod.symm
    exact hsame.add_right 1

/-- What holds of the elements of a list and their indices. -/
theorem forall_getElem?_cons {α : Type} (P : ℕ → α → Prop) (x : α) (xs : List α) :
    (∀ i y, (x :: xs)[i]? = some y → P i y) ↔ P 0 x ∧ ∀ i y, xs[i]? = some y → P (i + 1) y := by
  rw [← Nat.and_forall_add_one (p := fun i => ∀ y, (x :: xs)[i]? = some y → P i y)]
  simp only [List.getElem?_cons_zero, List.getElem?_cons_succ, Option.some.injEq]
  exact and_congr_left' ⟨fun h => h x rfl, fun h y hy => hy ▸ h⟩

/-- A cursor that is moved by `n` entries misses none that `f` takes if and only if all those are
`n` apart. -/
theorem cursorEntries_misses_none {α β : Type} (f : α → Option β) {n : ℕ} (xs : List α) :
    ∀ k, k < n → ((cursorEntries n k xs).filterMap f = xs.filterMap f ↔
      ∀ i x, xs[i]? = some x → (f x).isSome → i % n = k) := by
  induction xs with
  | nil =>
    intro k _
    cases k <;> simp [cursorEntries]
  | cons x xs ih =>
    intro k hk
    rw [forall_getElem?_cons (fun i y => (f y).isSome → i % n = k)]
    cases k with
    | zero =>
      -- the cursor shows this entry, and the next one is `n` further
      have hnext : n - 1 + 1 = n := by omega
      rw [cursorEntries, List.filterMap_cons, List.filterMap_cons]
      have hrest := ih (n - 1) (by omega)
      have hshift : ∀ i, (i + 1) % n = 0 ↔ i % n = n - 1 := by
        intro i
        rw [← succ_mod_eq_iff (show n - 1 < n by omega), hnext, Nat.mod_self]
      simp only [Nat.zero_mod, implies_true, true_and, hshift]
      rw [← hrest]
      cases f x <;> simp
    | succ k =>
      -- the cursor passes over this entry
      have hshift : ∀ i, (i + 1) % n = k + 1 ↔ i % n = k := by
        intro i
        rw [← succ_mod_eq_iff (show k < n by omega), Nat.mod_eq_of_lt hk]
      simp only [Nat.zero_mod, hshift]
      rw [cursorEntries, ← ih k (by omega)]
      cases hfx : f x with
      | none => simp [List.filterMap_cons_none hfx]
      | some y =>
        rw [List.filterMap_cons_some hfx]
        -- an entry that is taken is missed, and a sublist cannot make up for it
        have hshorter := ((cursorEntries_sublist n xs k).filterMap f).length_le
        constructor
        · intro h
          rw [h, List.length_cons] at hshorter
          omega
        · rintro ⟨h, -⟩
          exact absurd (h rfl) (Nat.succ_ne_zero k).symm

/-- None of the skipped entries of the union soup has a trusted certificate. -/
def NoneSkipped (store : RootStore) : Prop :=
  ∀ i entry, store.userSoup[i]? = some entry → entry.trust = true → entry.cert.isSome = true →
    i % 4 = 0

/-- What is loaded are the effective roots if and only if none of those is skipped. -/
theorem loaded_iff_none_skipped (store : RootStore) :
    ((listedEntries store).filterMap trustedRoot).Perm (effective store) ↔ NoneSkipped store := by
  have hmisses :=
    cursorEntries_misses_none trustedRoot (n := MAKEINT 1) store.userSoup 0 (by decide)
  rw [listedEntries, effective, List.filterMap_append, List.filterMap_append,
    List.perm_append_left_iff]
  have hsub := (cursorEntries_sublist (MAKEINT 1) store.userSoup 0).filterMap trustedRoot
  have hskipped : NoneSkipped store ↔ ∀ i entry, store.userSoup[i]? = some entry →
      (trustedRoot entry).isSome = true → i % MAKEINT 1 = 0 := by
    unfold NoneSkipped trustedRoot
    refine forall_congr' fun i => forall_congr' fun entry => imp_congr_right fun _ => ?_
    cases entry.trust with
    | false => simp
    | true => exact ⟨fun h => h rfl, fun h _ => h⟩
  rw [hskipped, ← hmisses]
  exact ⟨fun hperm => hsub.eq_of_length hperm.length_eq, fun h => h ▸ List.Perm.refl _⟩

/-- **The effective trust store.**  From a store that answers, `SSLConfigure` passes to the parser
the effective roots, each once, if and only if none of the entries of the union soup that the
cursor skips has a trusted certificate. -/
theorem loads_effective_iff {makeString : List Byte → List UniChar} (hmake : MakesAscii makeString)
    {store : RootStore} (htags : PrintableTags store) (hdistinct : DistinctTags store)
    {E : Environment CESig ConnectionEnd} (hE : FromStore makeString store E) (n : ℕ)
    {s : ConnectionEnd} (hload : s.mSSLLoadRootCertificates = true) :
    ∃ rounds, ∀ fuel, rounds ≤ fuel → (sslConfigure fuel).Drives E (fun l r =>
      (∃ s', r = .done s' 0) ∧ ((parsedBuffers l).Perm (effective store) ↔ NoneSkipped store))
      n s := by
  refine ⟨2 * (listedEntries store).length, fun fuel hfuel => ?_⟩
  refine (drives_sslConfigure hE htags hfuel n hload).mono ?_
  rintro l r ⟨hl, hr⟩
  rw [loaded_eq hmake htags hdistinct] at hl
  rw [hl]
  exact ⟨hr, loaded_iff_none_skipped store⟩

/-! ## Two stores -/

/-- Every byte is a character. -/
def ascii (name : List Byte) : List UniChar := name.map UInt8.toUInt16

/-- The answers of a store, while nothing else fails. -/
def storeAnswer (store : RootStore) : (q : Query) → q.Answer
  | .listRootCertificates ioSize => listRootCertificates store ioSize
  | .getRootCertificate name ioSize => getRootCertificate ascii store name ioSize
  | q => plainAnswer q

/-- An environment with a store. -/
def withStore (store : RootStore) : Environment CESig ConnectionEnd where
  answer := fun _ => storeAnswer store
  result := fun _ c s => (results 0 (.error MBEDTLS_ERR_SSL_WANT_READ) c, s)

/-- The environment answers from its store. -/
theorem fromStore_withStore (store : RootStore) : FromStore ascii store (withStore store) where
  seeded := fun _ _ => rfl
  listed := fun _ _ => rfl
  found := fun _ _ _ => rfl
  parsed := fun _ _ => ⟨0, [], rfl⟩

/-- A trusted root of the package, which the user has disabled, and one of the user. -/
def oneUserRoot : RootStore where
  packageSoup := [⟨[65], true, .binary [1], .nil⟩]
  unionSoup := some [⟨[66], true, .nil, .binary [2, 2]⟩, ⟨[65], false, .nil, .nil⟩]

/-- The new object loads root certificates. -/
theorem loads_effective_iff_oneUserRoot :
    effective oneUserRoot = [[2, 2]] ∧ NoneSkipped oneUserRoot ∧
      ∃ rounds, ∀ fuel, rounds ≤ fuel → (sslConfigure fuel).Drives (withStore oneUserRoot)
        (fun l r => (∃ s', r = .done s' 0) ∧
          ((parsedBuffers l).Perm (effective oneUserRoot) ↔ NoneSkipped oneUserRoot))
        0 (new zeroMemory) := by
  refine ⟨by decide, ?_, loads_effective_iff (fun _ _ => rfl) ?_ ⟨by decide, by decide⟩
    (fromStore_withStore _) 0 rfl⟩
  · intro i entry hentry htrust _
    match i, hentry with
    | 0, _ => rfl
    | 1, hentry =>
      cases hentry
      cases htrust
  · exact printableTags_of_all (by decide)

/-- Two roots of the user: the second is not loaded. -/
def twoUserRoots : RootStore where
  packageSoup := []
  unionSoup := some [⟨[65], true, .nil, .binary [1]⟩, ⟨[66], true, .nil, .binary [2]⟩]

/-- The second root of the user is missing. -/
theorem not_loads_effective : ¬ ∀ (makeString : List Byte → List UniChar) (store : RootStore)
    (E : Environment CESig ConnectionEnd) (s : ConnectionEnd), MakesAscii makeString →
      PrintableTags store → DistinctTags store → FromStore makeString store E →
      s.mSSLLoadRootCertificates = true →
      ∃ rounds, ∀ fuel, rounds ≤ fuel → (sslConfigure fuel).Drives E
        (fun l _ => (parsedBuffers l).Perm (effective store)) 0 s := by
  intro hall
  have htags : PrintableTags twoUserRoots := printableTags_of_all (by decide)
  obtain ⟨rounds, hloads⟩ := hall ascii twoUserRoots (withStore twoUserRoots) (new zeroMemory)
    (fun _ _ => rfl) htags ⟨by decide, by decide⟩ (fromStore_withStore _) rfl
  have hroom : 2 * (listedEntries twoUserRoots).length ≤ max rounds 2 :=
    le_max_of_le_right (by decide)
  obtain ⟨hloaded, -⟩ := drives_sslConfigure (fromStore_withStore twoUserRoots) htags hroom 0
    (s := new zeroMemory) rfl
  have hperm := (hloads (max rounds 2) (le_max_left _ _)).length_eq
  rw [hloaded] at hperm
  exact absurd hperm (by decide)

end EffectiveRoots

end NewtonTLS
