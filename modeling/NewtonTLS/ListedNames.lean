/-
# The names of the listing

`ListRootCertificates` cuts the characters of a tag down to bytes, `SSLConfigure` reads the name up
to its zero byte, and `GetRootCertificate` makes a string of it again.  The string is the tag if
and only if every character of the tag has a byte that is not 0 and that `MakeString` turns back
into the character (`names_found_iff`).
-/
import NewtonTLS.EffectiveRoots

namespace NewtonTLS

namespace ListedNames

open EffectiveRoots

/-! ## Reading a name back -/

/-- `MakeString` turns each byte into one character, and ASCII into itself. -/
def KeepsAscii (mk : Byte → UniChar) : Prop := ∀ c : Byte, c < 0x80 → mk c = c.toUInt16

/-- The string that `GetRootCertificate` makes of the name which `SSLConfigure` reads where the
tag has been listed in front of `rest`. -/
def stringRead (mk : Byte → UniChar) (tag : List UniChar) (rest : List Byte) :
    Option (List UniChar) :=
  (splitName (listedName (tagBytes tag) ++ rest)).map fun p => p.1.map mk

/-- Every character of the tag survives. -/
def Survives (mk : Byte → UniChar) (tag : List UniChar) : Prop :=
  ∀ u ∈ tag, u.toUInt8 ≠ 0 ∧ mk u.toUInt8 = u

section names

variable {mk : Byte → UniChar} {tag tag' : List UniChar}

/-- The name that is read is the one that was listed. -/
theorem stringRead_eq (rest : List Byte) :
    stringRead mk tag rest = some ((tagBytes tag).map mk) := by
  rw [stringRead, splitName_listed _ rest tagBytes_ne_zero]
  rfl

/-- Nothing is cut off a tag without a zero byte. -/
theorem tagBytes_eq_nameOf : tagBytes tag = nameOf tag ↔ ∀ u ∈ tag, u.toUInt8 ≠ 0 := by
  rw [tagBytes, List.takeWhile_eq_self_iff, nameOf, List.forall_mem_map]
  simp only [decide_eq_true_eq]

/-- The string is the tag if and only if every character survives. -/
theorem map_tagBytes_iff : (tagBytes tag).map mk = tag ↔ Survives mk tag := by
  constructor
  · intro h
    have hlength : (tagBytes tag).length = (nameOf tag).length := by
      rw [nameOf, List.length_map, ← congrArg List.length h, List.length_map]
    have hname : tagBytes tag = nameOf tag :=
      (List.takeWhile_prefix _).eq_of_length hlength
    intro u hu
    refine ⟨tagBytes_eq_nameOf.mp hname u hu, ?_⟩
    rw [hname, nameOf, List.map_map] at h
    exact List.map_inj_left.mp (h.trans (List.map_id tag).symm) u hu
  · intro h
    rw [tagBytes_eq_nameOf.mpr fun u hu => (h u hu).1, nameOf, List.map_map]
    conv_rhs => rw [← List.map_id tag]
    exact List.map_congr_left fun u hu => (h u hu).2

/-- Tags that survive have different names. -/
theorem eq_of_tagBytes_eq (h : Survives mk tag) (h' : Survives mk tag')
    (hname : tagBytes tag = tagBytes tag') : tag = tag' := by
  rw [← map_tagBytes_iff.mpr h, ← map_tagBytes_iff.mpr h', hname]

/-- ASCII survives. -/
theorem survives_of_ascii (hmk : KeepsAscii mk) (hascii : ∀ u ∈ tag, 0 < u ∧ u < 0x80) :
    Survives mk tag := by
  intro u hu
  obtain ⟨hpos, hlt⟩ := hascii u hu
  have hlo : 0 < u.toNat := UInt16.lt_iff_toNat_lt.mp hpos
  have hhi : u.toNat < 128 := UInt16.lt_iff_toNat_lt.mp hlt
  have hbyte : u.toUInt8.toNat = u.toNat := by
    rw [UInt16.toNat_toUInt8]
    omega
  constructor
  · intro hzero
    rw [hzero] at hbyte
    exact absurd hbyte hlo.ne
  · rw [hmk _ (UInt8.lt_iff_toNat_lt.mpr (hbyte.trans_lt hhi))]
    apply UInt16.toNat.inj
    rw [UInt8.toNat_toUInt16, hbyte]

/-- A character that is not ASCII but ends like one is lost. -/
theorem not_survives_of_mem (hmk : KeepsAscii mk) {u : UniChar} (hu : u ∈ tag)
    (hbyte : u.toUInt8 < 0x80) (hlost : u.toUInt8.toUInt16 ≠ u) : ¬ Survives mk tag := by
  intro h
  obtain ⟨-, hmake⟩ := h u hu
  rw [hmk _ hbyte] at hmake
  exact hlost hmake

end names

/-! ## Finding the entry -/

/-- What is in a soup is found there under its tag. -/
theorem head?_query_of_tag {soup : List RootEntry} {entry : RootEntry} (hentry : entry ∈ soup) :
    ∃ found, (query soup entry.tag).head? = some found ∧ found.tag = entry.tag := by
  obtain ⟨found, hfound⟩ : ∃ found, (query soup entry.tag).head? = some found := by
    rw [← Option.isSome_iff_exists, ← Option.ne_none_iff_isSome, ne_eq, List.head?_eq_none_iff]
    exact List.ne_nil_of_mem (mem_query.mpr ⟨hentry, rfl⟩)
  exact ⟨found, hfound, (mem_query.mp (List.mem_of_head? hfound)).2⟩

/-- Under the tag of an entry of the store an entry with that tag is found. -/
theorem findEntry_of_mem {store : RootStore} {entry : RootEntry}
    (hentry : entry ∈ store.packageSoup ++ store.userSoup) :
    ∃ found, findEntry store entry.tag = some found ∧ found.tag = entry.tag := by
  unfold findEntry
  rw [head?_userSoup]
  cases huser : (query store.userSoup entry.tag).head? with
  | some found =>
    exact ⟨found, rfl, (mem_query.mp (List.mem_of_head? huser)).2⟩
  | none =>
    rcases List.mem_append.mp hentry with hpackage | hmem
    · exact head?_query_of_tag hpackage
    · obtain ⟨found, hfound, -⟩ := head?_query_of_tag hmem
      rw [huser] at hfound
      cases hfound

/-- **Listed names.**  The string that the lookup makes of a listed name is the tag if and only if
every character of the tag survives, as those of ASCII do; then an entry with that tag is found,
and different tags have different names. -/
theorem names_found_iff {mk : Byte → UniChar} (hmk : KeepsAscii mk) :
    (∀ tag rest, stringRead mk tag rest = some tag ↔ Survives mk tag) ∧
    (∀ tag : List UniChar, (∀ u ∈ tag, 0 < u ∧ u < 0x80) → Survives mk tag) ∧
    (∀ tag, Survives mk tag → tagBytes tag = nameOf tag) ∧
    (∀ tag tag', Survives mk tag → Survives mk tag' → tagBytes tag = tagBytes tag' →
      tag = tag') ∧
    ∀ (store : RootStore), ∀ entry ∈ listedEntries store, Survives mk entry.tag → ∀ rest,
      ∃ nameStr found, stringRead mk entry.tag rest = some nameStr ∧
        findEntry store nameStr = some found ∧ found.tag = entry.tag := by
  refine ⟨?_, fun tag => survives_of_ascii hmk, ?_, fun tag tag' => eq_of_tagBytes_eq, ?_⟩
  · intro tag rest
    rw [stringRead_eq, Option.some.injEq, map_tagBytes_iff]
  · intro tag h
    exact tagBytes_eq_nameOf.mpr fun u hu => (h u hu).1
  · intro store entry hentry h rest
    obtain ⟨found, hfound, htag⟩ := findEntry_of_mem (mem_of_listed hentry)
    refine ⟨entry.tag, found, ?_, hfound, htag⟩
    rw [stringRead_eq, map_tagBytes_iff.mpr h]

/-- The tag of a shipped root, which has a character U+0151. -/
def netLock : List UniChar :=
  [0x6d, 0x6f, 0x7a, 0x69, 0x6c, 0x6c, 0x61, 0x2f, 0x4e, 0x65, 0x74, 0x4c, 0x6f, 0x63, 0x6b, 0x5f,
    0x41, 0x72, 0x61, 0x6e, 0x79, 0x5f, 0x3d, 0x43, 0x6c, 0x61, 0x73, 0x73, 0x5f, 0x47, 0x6f, 0x6c,
    0x64, 0x3d, 0x5f, 0x46, 0x151, 0x74, 0x61, 0x6e, 0xfa, 0x73, 0xed, 0x74, 0x76, 0xe1, 0x6e, 0x79]

theorem keepsAscii_toUInt16 : KeepsAscii UInt8.toUInt16 := fun _ _ => rfl

/-- A name with an accent is found, the one of NetLock is not. -/
theorem names_found_iff_latin : KeepsAscii UInt8.toUInt16 ∧
    stringRead UInt8.toUInt16 [0x41, 0xe9] [] = some [0x41, 0xe9] ∧
    stringRead UInt8.toUInt16 netLock [] ≠ some netLock := by
  have hiff := (names_found_iff keepsAscii_toUInt16).1
  have hlost := not_survives_of_mem keepsAscii_toUInt16 (show 0x151 ∈ netLock by decide)
    (by decide) (by decide)
  refine ⟨keepsAscii_toUInt16, (hiff [0x41, 0xe9] []).mpr ?_,
    fun hread => hlost ((hiff netLock []).mp hread)⟩
  intro u hu
  rcases List.mem_pair.mp hu with rfl | rfl <;> decide

/-- The root is not found under its name. -/
theorem not_names_found : ¬ ∀ (mk : Byte → UniChar) (tag : List UniChar) (rest : List Byte),
    KeepsAscii mk → stringRead mk tag rest = some tag := by
  intro hall
  have h := hall UInt8.toUInt16 netLock [] keepsAscii_toUInt16
  rw [stringRead_eq, Option.some.injEq, map_tagBytes_iff] at h
  exact not_survives_of_mem keepsAscii_toUInt16 (show 0x151 ∈ netLock by decide) (by decide)
    (by decide) h

end ListedNames

end NewtonTLS
