/-
# The entropy that is collected

`kEntropyCollector` and `GetEntropyData` of `NTK Projects/mbedTLS.f`, and
`PMbedTLS::HardwarePoll`.  Pen positions give nibbles, which are collected in `penEntropy`,
packed in pairs into the binary `prefs.entropy`, and taken out of there for mbedTLS.

`HardwarePoll` passes its length on as `MAKEINT(len)`, which keeps 30 bits.  A poll whose length
has lost bits can get the whole store and leave a part of it there too.  What has been handed
out, what is stored and what is pending is what has been collected, in order, exactly when no
poll of the run does so (`entropy_used_once_in_order`).
-/
import Mathlib.Data.List.Induction
import NewtonTLS.ConnectionEndInterface

namespace NewtonTLS

namespace EntropyStream

/-! ## Binaries -/

/-- `MakeBinary(n, 'binary)`. -/
def makeBinary (n : ℕ) : List Byte := List.replicate n 0

/-- `StuffByte(bin, offset, byte)`. -/
def stuffByte (bin : List Byte) (offset byte : ℕ) : List Byte := bin.set offset (UInt8.ofNat byte)

/-- `BinaryMunger(dst, dStart, dCount, src, sStart, sCount)`, with `none` for nil. -/
def binaryMunger (dst : List Byte) (dStart : ℕ) (dCount : Option ℕ) (src : List Byte) (sStart : ℕ)
    (sCount : Option ℕ) : List Byte :=
  dst.take dStart ++
    (match sCount with
      | some n => (src.drop sStart).take n
      | none => src.drop sStart) ++
    (match dCount with
      | some n => dst.drop (dStart + n)
      | none => [])

/-- The integer that a script finds in `MAKEINT(n)`: the low 30 bits, with a sign. -/
def makeInt (n : ℕ) : ℤ := (n + 536870912) % 1073741824 - 536870912

/-! ## The collector -/

/-- What `PenPos` gives when the pen is down.  Frames are compared by reference, which is
`ref`. -/
structure PenFrame : Type where
  ref : ℕ
  x : ℕ
  y : ℕ
  deriving DecidableEq, Repr

/-- The slots of the entropy collector, and `entropy` of the preferences. -/
structure Collector : Type where
  penEntropy : List ℕ
  previousPen : Option ℕ
  paused : Bool
  scheduled : Bool
  rate : ℕ
  limit : Option ℕ
  entropy : Option (List Byte)
  deriving DecidableEq, Repr

namespace Collector

/-- A clone of `kEntropyCollector`, over the preferences that are found. -/
def install (entropy : Option (List Byte)) : Collector :=
  ⟨[], none, false, false, 200, some 4096, entropy⟩

/-- `for x := 0 to len - 2 by 2`: the nibbles from `x` on are left.  Gives back `x` after the
loop and the binary. -/
def stuffPairs : List ℕ → ℕ → List Byte → ℕ × List Byte
  | n :: n' :: rest, x, bin => stuffPairs rest (x + 2) (stuffByte bin (x / 2) (n * 16 + n'))
  | _, x, bin => (x, bin)

/-- `SaveCollectedEntropy`: pairs of nibbles are stored behind what there is, and an odd one stays.
-/
def saveCollectedEntropy (c : Collector) : Collector :=
  let len := c.penEntropy.length
  let (x, bin) := stuffPairs c.penEntropy 0 (makeBinary (len / 2))
  { c with
    penEntropy := c.penEntropy.drop x
    entropy := some (match c.entropy with
      | none => bin
      | some entropy => binaryMunger entropy entropy.length none bin 0 none) }

/-- `penEntropyInt`. -/
def penEntropyInt (pen : PenFrame) : ℕ := pen.x % 4 * 4 + pen.y % 4

/-- The limit of the store has been reached. -/
def full (c : Collector) : Bool :=
  match c.entropy, c.limit with
  | some entropy, some limit => limit ≤ entropy.length
  | _, _ => false

/-- The pen that is collected: it is down, and not the previous one. -/
def newPen (c : Collector) (pen : Option PenFrame) : Option PenFrame :=
  if c.full then none
  else if pen.map PenFrame.ref ≠ c.previousPen then pen
  else none

/-- `AddArraySlot(self.penEntropy, penEntropyInt)`, and saving when there are 64. -/
def addNibble (c : Collector) (n : ℕ) : Collector :=
  let c := { c with penEntropy := c.penEntropy ++ [n] }
  if 64 ≤ c.penEntropy.length then c.saveCollectedEntropy else c

/-- `CollectEntropy`, which schedules itself again. -/
def collectEntropy (c : Collector) (pen : Option PenFrame) : Collector :=
  let c := { c with scheduled := false }
  if c.full then c
  else
    let collected := c.newPen pen
    let c := if pen.map PenFrame.ref ≠ c.previousPen then
        { c with previousPen := pen.map PenFrame.ref }
      else c
    let c := match collected with
      | some pen => c.addNibble (penEntropyInt pen)
      | none => c
    if !c.scheduled && !c.paused then { c with scheduled := true } else c

/-- `PauseBackgroundCollection`. -/
def pauseBackgroundCollection (c : Collector) : Collector :=
  { c with paused := true }.saveCollectedEntropy

/-- `ResumeBackgroundCollection`. -/
def resumeBackgroundCollection (c : Collector) : Collector :=
  if c.paused then
    let c := { c with paused := false }
    if !c.scheduled then { c with scheduled := true } else c
  else c

/-- `ResetBackgroundCollectionRate`: every 200 ms, up to 4096 bytes. -/
def resetBackgroundCollectionRate (c : Collector) : Collector :=
  { c with rate := 200, limit := some 4096 }

/-- `SetBackgroundCollectionRate`. -/
def setBackgroundCollectionRate (c : Collector) (rate : ℕ) (limit : Option ℕ) : Collector :=
  { c with rate := rate, limit := limit }

/-! ## Taking entropy out -/

/-- `GetEntropyData(count)`, for a store that is not nil. -/
def takeEntropy (c : Collector) (entropy : List Byte) (count : ℕ) :
    Option (List Byte) × Collector :=
  if entropy.length ≤ count then
    (some entropy, { c with entropy := none })
  else
    let result := makeBinary count
    let rest := makeBinary (entropy.length - count)
    let result := binaryMunger result 0 none entropy 0 none
    let rest := binaryMunger rest 0 none entropy count none
    (some result, { c with entropy := some rest })

/-- `GetEntropyData(count)`, which saves what is pending if the store is too short. -/
def getEntropyData (c : Collector) (count : ℕ) : Option (List Byte) × Collector :=
  match c.entropy with
  | none => (none, c)
  | some entropy =>
    let c := if entropy.length ≤ count then c.saveCollectedEntropy else c
    c.takeEntropy (c.entropy.getD []) count

/-- `GetEntropyData(count)` for any integer.  No store is as short as a negative count, and then
`MakeBinary` raises an exception, which is `none`. -/
def sendGetEntropyData (c : Collector) (count : ℤ) : Option (Option (List Byte) × Collector) :=
  if c.entropy.isSome ∧ count < 0 then none else some (c.getEntropyData count.toNat)

/-- `HardwarePoll(output, len, olen)`: the `*olen` bytes that are written to `output`, unless an
exception leaves it. -/
def hardwarePoll (c : Collector) (len : ℕ) : Option (List Byte) × Collector :=
  match c.sendGetEntropyData (makeInt len) with
  | none => (none, c)
  | some (none, c) => (some [], c)
  | some (some data, c) =>
    let numBytes := if data.length > len then len else data.length
    (some (data.take numBytes), c)

end Collector

/-! ## Runs -/

/-- What happens to the collector. -/
inductive Event : Type where
  | collectEntropy (pen : Option PenFrame)
  | saveCollectedEntropy
  | pauseBackgroundCollection
  | resumeBackgroundCollection
  | resetBackgroundCollectionRate
  | setBackgroundCollectionRate (rate : ℕ) (limit : Option ℕ)
  | hardwarePoll (len : ℕ)
  deriving DecidableEq, Repr

/-- A run: the collector, the nibbles collected and the bytes written for mbedTLS. -/
structure Run : Type where
  collector : Collector
  collected : List ℕ
  written : List Byte
  deriving DecidableEq, Repr

/-- What an event does; a poll that is left by an exception writes nothing. -/
def Run.step (r : Run) : Event → Run
  | .collectEntropy pen =>
    { r with
      collector := r.collector.collectEntropy pen
      collected := r.collected ++ ((r.collector.newPen pen).map Collector.penEntropyInt).toList }
  | .saveCollectedEntropy => { r with collector := r.collector.saveCollectedEntropy }
  | .pauseBackgroundCollection => { r with collector := r.collector.pauseBackgroundCollection }
  | .resumeBackgroundCollection => { r with collector := r.collector.resumeBackgroundCollection }
  | .resetBackgroundCollectionRate =>
    { r with collector := r.collector.resetBackgroundCollectionRate }
  | .setBackgroundCollectionRate rate limit =>
    { r with collector := r.collector.setBackgroundCollectionRate rate limit }
  | .hardwarePoll len =>
    { r with
      collector := (r.collector.hardwarePoll len).2
      written := r.written ++ (r.collector.hardwarePoll len).1.getD [] }

/-- The run of events after an installation that finds `entropy` in the preferences. -/
def run (entropy : Option (List Byte)) (events : List Event) : Run :=
  events.foldl Run.step ⟨.install entropy, [], []⟩

/-! ## Packing -/

/-- The nibbles of bytes, high before low. -/
def nibbles (bytes : List Byte) : List ℕ := bytes.flatMap fun b => [b.toNat / 16, b.toNat % 16]

/-- The nibbles of one binary, and then those of the other. -/
@[simp] theorem nibbles_append (bytes bytes' : List Byte) :
    nibbles (bytes ++ bytes') = nibbles bytes ++ nibbles bytes' := List.flatMap_append

/-- The bytes of pairs of nibbles. -/
def packed : List ℕ → List Byte
  | n :: n' :: rest => UInt8.ofNat (n * 16 + n') :: packed rest
  | _ => []

/-- The loop of `SaveCollectedEntropy` fills the binary, and goes on to the last even position. -/
theorem stuffPairs_eq (pen : List ℕ) (x : ℕ) (bin : List Byte) (hx : x = 2 * bin.length) :
    Collector.stuffPairs pen x (bin ++ makeBinary (pen.length / 2)) =
      (x + 2 * (pen.length / 2), bin ++ packed pen) := by
  induction pen using packed.induct generalizing x bin with
  | case1 n n' rest ih =>
    have hlength : (n :: n' :: rest).length / 2 = rest.length / 2 + 1 := by
      simp only [List.length_cons]
      omega
    -- the byte goes behind the part that is filled already
    have hset : stuffByte (bin ++ makeBinary (rest.length / 2 + 1)) (x / 2) (n * 16 + n') =
        (bin ++ [UInt8.ofNat (n * 16 + n')]) ++ makeBinary (rest.length / 2) := by
      rw [stuffByte, makeBinary, List.replicate_succ, show x / 2 = bin.length by omega,
        List.set_append_right _ _ le_rfl, Nat.sub_self, List.set_cons_zero, List.append_assoc]
      rfl
    rw [hlength, Collector.stuffPairs, hset, ih (x + 2) _ (by simp; omega), packed,
      List.append_assoc]
    congr 1
    omega
  | case2 pen hshort =>
    have hlength : pen.length / 2 = 0 := by
      rcases pen with _ | ⟨n, _ | ⟨n', rest⟩⟩
      · rfl
      · simp
      · exact absurd rfl (hshort n n' rest)
    have hpacked : packed pen = [] := by
      rcases pen with _ | ⟨n, _ | ⟨n', rest⟩⟩
      · rfl
      · rfl
      · exact absurd rfl (hshort n n' rest)
    rw [hlength, hpacked, Collector.stuffPairs]
    · simp [makeBinary]
    · exact hshort

/-- Packing loses nothing of nibbles up to the last even position. -/
theorem nibbles_packed (pen : List ℕ) (hpen : ∀ n ∈ pen, n < 16) :
    nibbles (packed pen) = pen.take (2 * (pen.length / 2)) := by
  induction pen using packed.induct with
  | case1 n n' rest ih =>
    have hn : n < 16 := hpen n (by simp)
    have hn' : n' < 16 := hpen n' (by simp)
    have hbyte : (UInt8.ofNat (n * 16 + n')).toNat = n * 16 + n' := by
      rw [UInt8.toNat_ofNat']
      omega
    have hlength : 2 * ((n :: n' :: rest).length / 2) = 2 * (rest.length / 2) + 1 + 1 := by
      simp only [List.length_cons]
      omega
    have hrest : nibbles (packed rest) = rest.take (2 * (rest.length / 2)) :=
      ih fun m hm => hpen m (by simp [hm])
    rw [hlength, List.take_succ_cons, List.take_succ_cons, ← hrest, packed, nibbles,
      List.flatMap_cons, hbyte, show (n * 16 + n') / 16 = n by omega,
      show (n * 16 + n') % 16 = n' by omega]
    rfl
  | case2 pen hshort =>
    rcases pen with _ | ⟨n, _ | ⟨n', rest⟩⟩
    · rfl
    · simp [packed, nibbles]
    · exact absurd rfl (hshort n n' rest)

/-- Munging at the end appends. -/
theorem binaryMunger_append (dst src : List Byte) :
    binaryMunger dst dst.length none src 0 none = dst ++ src := by
  simp [binaryMunger]

/-- Munging everything replaces. -/
theorem binaryMunger_replace (dst src : List Byte) (sStart : ℕ) :
    binaryMunger dst 0 none src sStart none = src.drop sStart := by
  simp [binaryMunger]

/-! ## The contents of the collector -/

namespace Collector

/-- The nibbles that are stored and those that are pending. -/
def contents (c : Collector) : List ℕ := nibbles (c.entropy.getD []) ++ c.penEntropy

/-- What is pending are nibbles. -/
def Proper (c : Collector) : Prop := ∀ n ∈ c.penEntropy, n < 16

variable {c : Collector}

/-- What is pending after saving is an odd nibble at most. -/
theorem saveCollectedEntropy_penEntropy (c : Collector) :
    c.saveCollectedEntropy.penEntropy = c.penEntropy.drop (2 * (c.penEntropy.length / 2)) := by
  have hloop := stuffPairs_eq c.penEntropy 0 [] rfl
  rw [List.nil_append, Nat.zero_add] at hloop
  simp only [saveCollectedEntropy, hloop]

/-- What is stored after saving has the pairs at its end. -/
theorem saveCollectedEntropy_entropy (c : Collector) :
    c.saveCollectedEntropy.entropy = some (c.entropy.getD [] ++ packed c.penEntropy) := by
  have hloop := stuffPairs_eq c.penEntropy 0 [] rfl
  rw [List.nil_append, Nat.zero_add] at hloop
  simp only [saveCollectedEntropy, hloop]
  cases c.entropy with
  | none => rfl
  | some entropy => simp [binaryMunger_append]

/-- Saving moves nibbles from one place to the other. -/
theorem saveCollectedEntropy_contents (h : c.Proper) :
    c.saveCollectedEntropy.contents = c.contents := by
  rw [contents, saveCollectedEntropy_penEntropy, saveCollectedEntropy_entropy, Option.getD_some,
    nibbles_append, nibbles_packed _ h, List.append_assoc, List.take_append_drop, contents]

theorem Proper.save (h : c.Proper) : c.saveCollectedEntropy.Proper := by
  intro n hn
  rw [saveCollectedEntropy_penEntropy] at hn
  exact h n (List.mem_of_mem_drop hn)

/-- Two bits of each coordinate make a nibble. -/
theorem penEntropyInt_lt (pen : PenFrame) : penEntropyInt pen < 16 := by
  unfold penEntropyInt
  omega

/-- A nibble is added behind the others, saved or not. -/
theorem addNibble_spec (h : c.Proper) {n : ℕ} (hn : n < 16) :
    (c.addNibble n).Proper ∧ (c.addNibble n).contents = c.contents ++ [n] := by
  have hadded : ({ c with penEntropy := c.penEntropy ++ [n] } : Collector).Proper := by
    intro m hm
    rcases List.mem_append.mp hm with hm | hm
    · exact h m hm
    · rw [List.mem_singleton.mp hm]
      exact hn
  have hcontents : ({ c with penEntropy := c.penEntropy ++ [n] } : Collector).contents =
      c.contents ++ [n] := by
    simp only [contents, List.append_assoc]
  unfold addNibble
  dsimp only
  split
  · exact ⟨hadded.save, (saveCollectedEntropy_contents hadded).trans hcontents⟩
  · exact ⟨hadded, hcontents⟩

/-- A pen that is new is collected. -/
theorem collectEntropy_spec (h : c.Proper) (pen : Option PenFrame) :
    (c.collectEntropy pen).Proper ∧
      (c.collectEntropy pen).contents =
        c.contents ++ ((c.newPen pen).map penEntropyInt).toList := by
  -- the next round of the collection is scheduled, or it is not
  have hschedule : ∀ {c' : Collector}, c'.Proper →
      (if !c'.scheduled && !c'.paused then { c' with scheduled := true } else c').Proper ∧
        (if !c'.scheduled && !c'.paused then { c' with scheduled := true } else c').contents =
          c'.contents := by
    intro c' h'
    split
    · exact ⟨h', rfl⟩
    · exact ⟨h', rfl⟩
  unfold collectEntropy
  dsimp only
  split
  · next hfull =>
    have hnone : c.newPen pen = none := by rw [newPen, if_pos (show c.full = true from hfull)]
    rw [hnone]
    exact ⟨h, (List.append_nil _).symm⟩
  · -- the pen becomes the previous one, whether it is collected or not
    obtain ⟨c₁, hc₁⟩ : ∃ c₁, c₁ = if pen.map PenFrame.ref ≠ c.previousPen then
        { { c with scheduled := false } with previousPen := pen.map PenFrame.ref }
      else { c with scheduled := false } := ⟨_, rfl⟩
    have hfirst : c₁.Proper ∧ c₁.contents = c.contents := by
      rw [hc₁]
      split
      · exact ⟨h, rfl⟩
      · exact ⟨h, rfl⟩
    rw [← hc₁]
    cases hpen : c.newPen pen with
    | none =>
      rw [show ({ c with scheduled := false } : Collector).newPen pen = none from hpen]
      obtain ⟨hproper, hcontents⟩ := hschedule hfirst.1
      exact ⟨hproper, by rw [hcontents, hfirst.2]; simp⟩
    | some pen' =>
      rw [show ({ c with scheduled := false } : Collector).newPen pen = some pen' from hpen]
      have hadded := addNibble_spec hfirst.1 (penEntropyInt_lt pen')
      obtain ⟨hproper, hcontents⟩ := hschedule hadded.1
      exact ⟨hproper, by rw [hcontents, hadded.2, hfirst.2]; rfl⟩

end Collector

/-! ## The store that is taken from -/

theorem length_packed (pen : List ℕ) : (packed pen).length = pen.length / 2 := by
  induction pen using packed.induct with
  | case1 n n' rest ih =>
    rw [packed, List.length_cons, ih]
    simp only [List.length_cons]
    omega
  | case2 pen hshort =>
    rcases pen with _ | ⟨n, _ | ⟨n', rest⟩⟩
    · rfl
    · exact (Nat.div_eq_of_lt Nat.one_lt_two).symm
    · exact absurd rfl (hshort n n' rest)

/-- The bytes that are stored when `GetEntropyData` takes some: the nibbles that are pending have
been saved when there are not more than `count` bytes without them. -/
def stored (c : Collector) (entropy : List Byte) (count : ℕ) : List Byte :=
  if entropy.length ≤ count then entropy ++ packed c.penEntropy else entropy

namespace Collector

/-- The collector when `GetEntropyData` takes some: it has saved what was pending, or it has
not. -/
def ready (c : Collector) (entropy : List Byte) (count : ℕ) : Collector :=
  if entropy.length ≤ count then c.saveCollectedEntropy else c

variable {c : Collector} {entropy : List Byte} {count : ℕ}

/-- There are not more than `count` bytes exactly when there are not with the pending ones. -/
theorem length_stored_le_iff :
    (stored c entropy count).length ≤ count ↔ entropy.length + c.penEntropy.length / 2 ≤ count := by
  unfold stored
  by_cases hshort : entropy.length ≤ count
  · rw [if_pos hshort, List.length_append, length_packed]
  · rw [if_neg hshort]
    omega

/-- The last part of `GetEntropyData` returns the whole store, and keeps what is behind the first
`count` bytes of it. -/
theorem takeEntropy_eq (c : Collector) (entropy : List Byte) (count : ℕ) :
    c.takeEntropy entropy count = (some entropy,
      { c with
        entropy := if entropy.length ≤ count then none else some (entropy.drop count) }) := by
  unfold takeEntropy
  by_cases hshort : entropy.length ≤ count
  · rw [if_pos hshort, if_pos hshort]
  · rw [if_neg hshort, if_neg hshort]
    dsimp only
    rw [binaryMunger_replace, binaryMunger_replace, List.drop_zero]

/-- The store is made ready, and then it is taken from. -/
theorem getEntropyData_eq (h : c.entropy = some entropy) :
    c.getEntropyData count =
      (c.ready entropy count).takeEntropy (stored c entropy count) count := by
  unfold getEntropyData stored ready
  rw [h]
  dsimp only
  by_cases hshort : entropy.length ≤ count
  · rw [if_pos hshort, if_pos hshort, saveCollectedEntropy_entropy, h]
    rfl
  · rw [if_neg hshort, if_neg hshort, h]
    rfl

/-- What is pending are nibbles still. -/
theorem Proper.ready (h : c.Proper) (entropy : List Byte) (count : ℕ) :
    (c.ready entropy count).Proper := by
  unfold Collector.ready
  split
  · exact h.save
  · exact h

/-- The bytes that are found and the nibbles that stay pending. -/
theorem contents_ready (h : c.Proper) (hentropy : c.entropy = some entropy) (count : ℕ) :
    nibbles (stored c entropy count) ++ (c.ready entropy count).penEntropy = c.contents := by
  unfold stored Collector.ready
  by_cases hshort : entropy.length ≤ count
  · rw [if_pos hshort, if_pos hshort, ← saveCollectedEntropy_contents h, contents,
      saveCollectedEntropy_entropy, hentropy]
    rfl
  · rw [if_neg hshort, if_neg hshort, contents, hentropy]
    rfl

/-! ## Polls -/

/-- The poll asks for less than there is, and not for as much as `len` says: `MAKEINT` has lost
bits of it. -/
def Repeats (c : Collector) (len : ℕ) : Prop :=
  c.entropy.isSome = true ∧ 0 ≤ makeInt len ∧ makeInt len ≠ len ∧
    makeInt len < (c.entropy.getD []).length + c.penEntropy.length / 2

/-- A length of at most 29 bits comes out of `MAKEINT` again. -/
theorem makeInt_of_lt {n : ℕ} (h : n < 536870912) : makeInt n = n := by
  unfold makeInt
  omega

/-- An integer that is not negative has lost bits at most. -/
theorem makeInt_le (n : ℕ) (h : 0 ≤ makeInt n) : makeInt n ≤ n := by
  unfold makeInt at h ⊢
  omega

/-- A poll for less than 2^29 bytes is not cut. -/
theorem not_repeats_of_lt {len : ℕ} (h : len < 536870912) : ¬ c.Repeats len :=
  fun hrepeats => hrepeats.2.2.1 (makeInt_of_lt h)

/-- Nothing is written when there is no store, and when an exception is raised. -/
theorem hardwarePoll_of_none {len : ℕ} (h : c.entropy = none ∨ makeInt len < 0) :
    (c.hardwarePoll len).1.getD [] = [] ∧ (c.hardwarePoll len).2 = c := by
  unfold hardwarePoll sendGetEntropyData
  cases hentropy : c.entropy with
  | none =>
    rw [if_neg (by simp), getEntropyData, hentropy]
    exact ⟨rfl, rfl⟩
  | some entropy =>
    have hneg : makeInt len < 0 := h.resolve_left (by simp [hentropy])
    rw [if_pos ⟨rfl, hneg⟩]
    exact ⟨rfl, rfl⟩

/-- The first `len` bytes of the store are written, and what is behind the first `MAKEINT(len)`
bytes of it is kept. -/
theorem hardwarePoll_of_some {len : ℕ} (hentropy : c.entropy = some entropy)
    (hcount : makeInt len = count) :
    c.hardwarePoll len = (some ((stored c entropy count).take len),
      { c.ready entropy count with
        entropy := if (stored c entropy count).length ≤ count then none
          else some ((stored c entropy count).drop count) }) := by
  have hnonneg : ¬(c.entropy.isSome = true ∧ makeInt len < 0) := by
    rintro ⟨-, hneg⟩
    omega
  have htake : ∀ data : List Byte,
      data.take (if data.length > len then len else data.length) = data.take len := by
    intro data
    split
    · rfl
    · rw [List.take_of_length_le le_rfl, List.take_of_length_le (by omega)]
  unfold hardwarePoll sendGetEntropyData
  rw [if_neg hnonneg, hcount, Int.toNat_natCast, getEntropyData_eq hentropy, takeEntropy_eq]
  dsimp only
  rw [htake]

theorem length_nibbles (bytes : List Byte) : (nibbles bytes).length = 2 * bytes.length := by
  induction bytes with
  | nil => rfl
  | cons b bytes ih =>
    rw [show nibbles (b :: bytes) = b.toNat / 16 :: b.toNat % 16 :: nibbles bytes from rfl]
    simp only [List.length_cons, ih]
    omega

/-- What a poll writes is taken out of the contents, at their beginning, unless it repeats; and
then there is more than before. -/
theorem hardwarePoll_spec (h : c.Proper) (len : ℕ) :
    (c.hardwarePoll len).2.Proper ∧
      (¬ c.Repeats len →
        nibbles ((c.hardwarePoll len).1.getD []) ++ (c.hardwarePoll len).2.contents =
          c.contents) ∧
      (c.Repeats len → c.contents.length <
        (nibbles ((c.hardwarePoll len).1.getD []) ++
          (c.hardwarePoll len).2.contents).length) := by
  by_cases hnone : c.entropy = none ∨ makeInt len < 0
  · obtain ⟨hwritten, hsame⟩ := hardwarePoll_of_none hnone
    rw [hwritten, hsame]
    refine ⟨h, fun _ => rfl, ?_⟩
    rintro ⟨hsome, hnonneg, -⟩
    rcases hnone with hnone | hneg
    · rw [hnone] at hsome
      cases hsome
    · omega
  · obtain ⟨hsome, hnonneg⟩ := not_or.mp hnone
    obtain ⟨entropy, hentropy⟩ := Option.ne_none_iff_exists'.mp hsome
    obtain ⟨count, hcount⟩ := Int.eq_ofNat_of_zero_le (not_lt.mp hnonneg)
    have hle : count ≤ len := by
      have := makeInt_le len (not_lt.mp hnonneg)
      omega
    have hshort : (stored c entropy count).length ≤ count ↔
        entropy.length + c.penEntropy.length / 2 ≤ count := length_stored_le_iff
    have hcontents := contents_ready h hentropy count
    rw [hardwarePoll_of_some hentropy hcount, Option.getD_some]
    refine ⟨h.ready entropy count, fun hsound => ?_, ?_⟩
    · by_cases hwhole : (stored c entropy count).length ≤ count
      -- the whole store is handed out, and nothing of it is kept
      · rw [if_pos hwhole, List.take_of_length_le (hwhole.trans hle)]
        exact hcontents
      · have hall : count = len := by
          by_contra hne
          refine hsound ⟨by rw [hentropy]; rfl, by omega, by omega, ?_⟩
          rw [hentropy, Option.getD_some]
          omega
        rw [if_neg hwhole, contents, Option.getD_some, ← List.append_assoc, ← nibbles_append, hall,
          List.take_append_drop, ← hall]
        exact hcontents
    · rintro ⟨-, -, hne, hlt⟩
      rw [hentropy, Option.getD_some] at hlt
      have hlong : ¬(stored c entropy count).length ≤ count := by omega
      -- the bytes between `count` and `len` are handed out and kept
      rw [if_neg hlong, ← hcontents, contents, Option.getD_some]
      simp only [List.length_append, length_nibbles, List.length_take, List.length_drop]
      omega

end Collector

/-! ## Once and in order -/

/-- The event is a poll that repeats. -/
def Event.Repeats (c : Collector) : Event → Prop
  | .hardwarePoll len => c.Repeats len
  | _ => False

/-- What has been written, what is stored and what is pending. -/
def Run.account (r : Run) : List ℕ := nibbles r.written ++ r.collector.contents

theorem Run.step_proper {r : Run} (h : r.collector.Proper) (event : Event) :
    (r.step event).collector.Proper := by
  cases event with
  | collectEntropy pen => exact (Collector.collectEntropy_spec h pen).1
  | saveCollectedEntropy => exact h.save
  | pauseBackgroundCollection =>
    exact Collector.Proper.save (c := { r.collector with paused := true }) h
  | resumeBackgroundCollection =>
    simp only [Run.step, Collector.resumeBackgroundCollection]
    split
    · split
      · exact h
      · exact h
    · exact h
  | resetBackgroundCollectionRate => exact h
  | setBackgroundCollectionRate rate limit => exact h
  | hardwarePoll len => exact (Collector.hardwarePoll_spec h len).1

/-- A step that does not repeat adds what it collects at the end. -/
theorem Run.step_account {r : Run} (h : r.collector.Proper) {event : Event}
    (hsound : ¬ event.Repeats r.collector) :
    ∃ new, (r.step event).account = r.account ++ new ∧
      (r.step event).collected = r.collected ++ new := by
  cases event with
  | collectEntropy pen =>
    obtain ⟨-, hcontents⟩ := Collector.collectEntropy_spec h pen
    refine ⟨((r.collector.newPen pen).map Collector.penEntropyInt).toList, ?_, rfl⟩
    show nibbles r.written ++ (r.collector.collectEntropy pen).contents = _
    rw [hcontents, ← List.append_assoc]
    rfl
  | saveCollectedEntropy =>
    refine ⟨[], ?_, (List.append_nil _).symm⟩
    rw [List.append_nil]
    exact congrArg (nibbles r.written ++ ·) (Collector.saveCollectedEntropy_contents h)
  | pauseBackgroundCollection =>
    have hpaused : ({ r.collector with paused := true } : Collector).Proper := h
    refine ⟨[], ?_, (List.append_nil _).symm⟩
    rw [List.append_nil]
    exact congrArg (nibbles r.written ++ ·) (Collector.saveCollectedEntropy_contents hpaused)
  | resumeBackgroundCollection =>
    refine ⟨[], ?_, (List.append_nil _).symm⟩
    rw [List.append_nil]
    simp only [Run.account, Run.step, Collector.resumeBackgroundCollection]
    split
    · split
      · rfl
      · rfl
    · rfl
  | resetBackgroundCollectionRate =>
    exact ⟨[], (List.append_nil _).symm, (List.append_nil _).symm⟩
  | setBackgroundCollectionRate rate limit =>
    exact ⟨[], (List.append_nil _).symm, (List.append_nil _).symm⟩
  | hardwarePoll len =>
    refine ⟨[], ?_, (List.append_nil _).symm⟩
    show nibbles (r.written ++ (r.collector.hardwarePoll len).1.getD []) ++ _ = _
    rw [nibbles_append, List.append_assoc, List.append_nil]
    exact congrArg (nibbles r.written ++ ·) ((Collector.hardwarePoll_spec h len).2.1 hsound)

/-- A step that repeats collects nothing, and there is more than before. -/
theorem Run.step_repeats {r : Run} (h : r.collector.Proper) {event : Event}
    (hrepeats : event.Repeats r.collector) :
    r.account.length < (r.step event).account.length ∧
      (r.step event).collected = r.collected := by
  cases event with
  | hardwarePoll len =>
    have hlonger := (Collector.hardwarePoll_spec h len).2.2 hrepeats
    refine ⟨?_, rfl⟩
    show (nibbles r.written ++ r.collector.contents).length <
      (nibbles (r.written ++ (r.collector.hardwarePoll len).1.getD []) ++
        (r.collector.hardwarePoll len).2.contents).length
    rw [nibbles_append, List.append_assoc, List.length_append, List.length_append]
    omega
  | _ => exact absurd hrepeats id

/-- What has been written, what is stored and what is pending is what was found at the beginning
and what has been collected since. -/
structure InOrder (found : List ℕ) (r : Run) : Prop where
  proper : r.collector.Proper
  stream : nibbles r.written ++ r.collector.contents = found ++ r.collected

/-- An event that does not repeat keeps the order. -/
theorem InOrder.step {found : List ℕ} {r : Run} (h : InOrder found r) {event : Event}
    (hsound : ¬ event.Repeats r.collector) : InOrder found (r.step event) := by
  obtain ⟨hproper, hstream⟩ := h
  obtain ⟨new, haccount, hcollected⟩ := Run.step_account hproper hsound
  refine ⟨Run.step_proper hproper event, ?_⟩
  show (r.step event).account = _
  rw [haccount, hcollected, ← List.append_assoc, ← hstream]
  rfl

/-- The nibbles are more than those that were found and collected. -/
structure TooMany (found : List ℕ) (r : Run) : Prop where
  proper : r.collector.Proper
  longer : (found ++ r.collected).length < r.account.length

/-- What has been handed out twice is never made up for. -/
theorem TooMany.step {found : List ℕ} {r : Run} (h : TooMany found r) (event : Event) :
    TooMany found (r.step event) := by
  obtain ⟨hproper, hlonger⟩ := h
  refine ⟨Run.step_proper hproper event, ?_⟩
  by_cases hrepeats : event.Repeats r.collector
  · obtain ⟨hmore, hcollected⟩ := Run.step_repeats hproper hrepeats
    rw [hcollected]
    omega
  · obtain ⟨new, haccount, hcollected⟩ := Run.step_account hproper hrepeats
    have hlonger' : ((found ++ r.collected) ++ new).length < (r.account ++ new).length := by
      simpa only [List.length_append, Nat.add_lt_add_iff_right] using hlonger
    rw [haccount, hcollected, ← List.append_assoc]
    exact hlonger'

/-- A run is in order if it is sound, and has too many nibbles if it is not. -/
def Judged (sound : Prop) (found : List ℕ) (r : Run) : Prop :=
  sound ∧ InOrder found r ∨ ¬ sound ∧ TooMany found r

/-- A step is judged by what it does when the run has been sound before. -/
theorem Judged.step {sound sound' : Prop} {found : List ℕ} {r : Run} (h : Judged sound found r)
    (event : Event) (hsound : sound' ↔ sound ∧ ¬ event.Repeats r.collector) :
    Judged sound' found (r.step event) := by
  unfold Judged
  rw [hsound]
  rcases h with ⟨hbefore, horder⟩ | ⟨hbefore, hmany⟩
  · by_cases hrepeats : event.Repeats r.collector
    · refine .inr ⟨fun h => h.2 hrepeats, Run.step_proper horder.proper event, ?_⟩
      obtain ⟨hmore, hcollected⟩ := Run.step_repeats horder.proper hrepeats
      rw [hcollected, ← horder.stream]
      exact hmore
    · exact .inl ⟨⟨hbefore, hrepeats⟩, horder.step hrepeats⟩
  · exact .inr ⟨fun h => hbefore h.1, hmany.step event⟩

/-- The run is in order exactly when it is sound. -/
theorem Judged.account_eq_iff {sound : Prop} {found : List ℕ} {r : Run}
    (h : Judged sound found r) : r.account = found ++ r.collected ↔ sound := by
  rcases h with ⟨hsound, horder⟩ | ⟨hunsound, hmany⟩
  · exact iff_of_true horder.stream hsound
  · refine iff_of_false (fun hequal => ?_) hunsound
    have hlonger := hmany.longer
    rw [hequal] at hlonger
    exact absurd hlonger (lt_irrefl _)

/-- No poll of the run repeats. -/
def Sound (found : Option (List Byte)) (events : List Event) : Prop :=
  ∀ before len after, events = before ++ .hardwarePoll len :: after →
    ¬ (run found before).collector.Repeats len

/-- A run is sound if it was so before its last event, which does not repeat. -/
theorem sound_concat {found : Option (List Byte)} {events : List Event} {event : Event} :
    Sound found (events ++ [event]) ↔
      Sound found events ∧ ¬ event.Repeats (run found events).collector := by
  constructor
  · intro h
    refine ⟨?_, ?_⟩
    · rintro before len after rfl
      exact h before len (after ++ [event]) (by simp)
    · cases event with
      | hardwarePoll len => exact h events len [] rfl
      | _ => exact id
  · rintro ⟨h, hevent⟩ before len after heq
    rcases List.eq_nil_or_concat after with rfl | ⟨after', last, rfl⟩
    · obtain ⟨rfl, hlast⟩ := List.append_inj' heq rfl
      rw [List.singleton_inj] at hlast
      subst hlast
      exact hevent
    · rw [List.concat_eq_append, ← List.cons_append, ← List.append_assoc] at heq
      obtain ⟨rfl, -⟩ := List.append_inj' heq rfl
      exact h before len after' rfl

/-- A run whose polls ask for less than 2^29 bytes each is sound. -/
theorem sound_of_lt {found : Option (List Byte)} {events : List Event}
    (h : ∀ len, .hardwarePoll len ∈ events → len < 536870912) : Sound found events := by
  rintro before len after rfl
  exact Collector.not_repeats_of_lt (h len (by simp))

/-- Every run is judged by its polls. -/
theorem judged (found : Option (List Byte)) (events : List Event) :
    Judged (Sound found events) (nibbles (found.getD [])) (run found events) := by
  induction events using List.reverseRecOn with
  | nil =>
    refine .inl ⟨?_, fun n hn => absurd hn List.not_mem_nil, ?_⟩
    · intro before len after hnil
      simp at hnil
    · simp [run, Collector.contents, Collector.install, nibbles]
  | append_singleton events event ih =>
    have hrun : run found (events ++ [event]) = (run found events).step event := by
      rw [run, List.foldl_append]
      rfl
    rw [hrun]
    exact ih.step event sound_concat

/-- **Entropy is used once and in order**, in exactly the runs without a poll that repeats: the
nibbles of the bytes written for mbedTLS, followed by those of `prefs.entropy`, followed by
`penEntropy`, are those of the entropy found at the installation, none at the first, followed by
all that have been collected. -/
theorem entropy_used_once_in_order (found : Option (List Byte)) (events : List Event) :
    nibbles (run found events).written ++
        nibbles ((run found events).collector.entropy.getD []) ++
        (run found events).collector.penEntropy =
      nibbles (found.getD []) ++ (run found events).collected ↔
    ∀ before len after, events = before ++ .hardwarePoll len :: after →
      ¬ (run found before).collector.Repeats len := by
  rw [List.append_assoc]
  exact (judged found events).account_eq_iff

/-- Five nibbles, which are saved and polled for in pieces: two bytes are written, and one nibble
stays. -/
def pens : List Event :=
  [.collectEntropy (some ⟨0, 1, 2⟩), .collectEntropy (some ⟨1, 3, 3⟩),
    .collectEntropy (some ⟨2, 0, 1⟩), .saveCollectedEntropy, .hardwarePoll 4,
    .collectEntropy (some ⟨3, 2, 2⟩), .collectEntropy (some ⟨4, 0, 0⟩),
    .pauseBackgroundCollection, .hardwarePoll 1]

/-- No poll of the run repeats, and its account is in order. -/
theorem entropy_used_once_in_order_pens :
    (run none pens).written = [0x6f, 0x1a] ∧ (run none pens).collector.penEntropy = [0] ∧
      nibbles (run none pens).written ++
          nibbles ((run none pens).collector.entropy.getD []) ++
          (run none pens).collector.penEntropy =
        nibbles (Option.getD none []) ++ (run none pens).collected := by
  refine ⟨by decide +kernel, by decide +kernel, ?_⟩
  exact (entropy_used_once_in_order none pens).mpr (sound_of_lt (by simp [pens]))

/-- A poll for 2^30 bytes asks for none: it gets the byte that is stored, which stays there. -/
theorem entropy_not_once : ¬ ∀ events : List Event,
    nibbles (run none events).written ++
        nibbles ((run none events).collector.entropy.getD []) ++
        (run none events).collector.penEntropy =
      (run none events).collected := by
  intro hall
  have hbad := hall [.collectEntropy (some ⟨0, 1, 2⟩), .collectEntropy (some ⟨1, 3, 3⟩),
    .saveCollectedEntropy, .hardwarePoll 1073741824]
  exact absurd hbad (by decide +kernel)

end EntropyStream

end NewtonTLS
