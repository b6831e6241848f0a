/-
# Platform functions of mbedTLS, from any task

The functions of `Protocol/NewtonBindings.cpp` run in the task of their caller, but NewtonScript
may only be called from the task `newt`.  In another task they send an event to the port of
`newt` (`Protocol/mbedTLSEvents.cpp`), and a handler there calls the function of `PMbedTLS` and
replies.  The events hold addresses of the caller's memory.

`Platform.inNewtTask` is what a function does under `IsInNewtTask()`, and `Platform.afterRPC`
what it makes of the outcome of `SendRPCToNewtApp`.  Exceptions are those of a call without the
global variable of the package, which `RemoveScript` undefines.
-/
import NewtonTLS.BoundedListing
import NewtonTLS.CalendarTime
import NewtonTLS.EntropyStream
import NewtonTLS.PortCalls

namespace NewtonTLS

namespace TaskCalls

open CalendarTime Steps

/-! ## Memory -/

/-- The memory that the tasks share. -/
abbrev Memory : Type := ℕ → Byte

/-- `n` bytes from `p` on. -/
def Memory.bytes (m : Memory) (p n : ℕ) : List Byte := (List.range n).map fun i => m (p + i)

/-- `BlockMove` of bytes to `p`. -/
def Memory.blockMove (m : Memory) (p : ℕ) (bytes : List Byte) : Memory :=
  fun x => if p ≤ x ∧ x < p + bytes.length then bytes.getD (x - p) 0 else m x

/-- The bytes of a `size_t`. -/
def sizeBytes (n : ℕ) : List Byte :=
  [UInt8.ofNat (n / 2 ^ 24), UInt8.ofNat (n / 2 ^ 16), UInt8.ofNat (n / 2 ^ 8), UInt8.ofNat n]

/-- The `size_t` at `p`. -/
def Memory.size (m : Memory) (p : ℕ) : ℕ :=
  (m p).toNat * 2 ^ 24 + (m (p + 1)).toNat * 2 ^ 16 + (m (p + 2)).toNat * 2 ^ 8 + (m (p + 3)).toNat

/-- The characters from `p` on up to one that is 0, at most `n` of them. -/
def Memory.cStringUpTo (m : Memory) : ℕ → ℕ → List Byte
  | 0, _ => []
  | n + 1, p => if m p = 0 then [] else m p :: m.cStringUpTo n (p + 1)

/-- The string at `p`; addresses have 32 bits. -/
def Memory.cString (m : Memory) (p : ℕ) : List Byte := m.cStringUpTo (2 ^ 32 - p) p

/-- The addresses of `n` bytes from `p` on. -/
def block (p n : ℕ) : Set ℕ := {x | p ≤ x ∧ x < p + n}

/-! ## The task `newt` -/

/-- The global variable of the package: its entropy, pending and stored, and `prefs.nvSeed`. -/
structure Context : Type where
  entropyCollector : EntropyStream.Collector
  nvSeed : Option (List Byte)
  deriving DecidableEq, Repr

/-- What `ROM_GetSerialNumber` does: it gives a binary or raises an exception. -/
inductive SerialNumber : Type where
  | binary (bytes : List Byte)
  | exFrames (data : Int32)
  | otherException
  deriving DecidableEq

/-- What `newt` works on: the global variable, the slot `gmt` of the user's location, the serial
number and the certificates, and what is in the place of a variable that is not initialised. -/
structure Newt : Type where
  context : Option Context
  gmt : Option Int32
  serialNumber : SerialNumber
  store : RootStore
  stack : Int32
  deriving DecidableEq

/-- What else happens in `newt`. -/
inductive Work : Type where
  | collectEntropy (pen : Option EntropyStream.PenFrame)
  | saveCollectedEntropy
  | pauseBackgroundCollection
  | resumeBackgroundCollection
  | resetBackgroundCollectionRate
  | setBackgroundCollectionRate (rate : ℕ) (limit : Option ℕ)
  | setUserConfig (gmt : Option Int32)
  | changeSoups (store : RootStore)
  | useStack (x : Int32)
  | removeScript
  deriving DecidableEq

/-- The events of the collector. -/
def Work.event? : Work → Option EntropyStream.Event
  | .collectEntropy pen => some (.collectEntropy pen)
  | .saveCollectedEntropy => some .saveCollectedEntropy
  | .pauseBackgroundCollection => some .pauseBackgroundCollection
  | .resumeBackgroundCollection => some .resumeBackgroundCollection
  | .resetBackgroundCollectionRate => some .resetBackgroundCollectionRate
  | .setBackgroundCollectionRate rate limit => some (.setBackgroundCollectionRate rate limit)
  | _ => none

/-- The collector after an event. -/
def collectorAfter (c : EntropyStream.Collector) (e : EntropyStream.Event) :
    EntropyStream.Collector :=
  ((⟨c, [], []⟩ : EntropyStream.Run).step e).collector

/-- What `newt` does on its own. -/
def Work.run (w : Newt) : Work → Newt
  | .setUserConfig gmt => { w with gmt := gmt }
  | .changeSoups store => { w with store := store }
  | .useStack x => { w with stack := x }
  | .removeScript => { w with context := none }
  | k =>
    match k.event?, w.context with
    | some e, some context =>
      let collector := collectorAfter context.entropyCollector e
      { w with context := some { context with entropyCollector := collector } }
    | _, _ => w

/-! ## The functions of `PMbedTLS` -/

section functions

variable (makeString : List Byte → List UniChar) (w : Newt) (m : Memory)

/-- `PMbedTLS::HardwarePoll`; it gives `*olen`, unless an exception leaves it. -/
def hardwarePoll (output : ℕ) (len : UInt32) : Option UInt32 × Newt × Memory :=
  match w.context with
  | none => (none, w, m)
  | some context =>
    let (written, collector) := context.entropyCollector.hardwarePoll len.toNat
    (written.map fun bytes => UInt32.ofNat bytes.length,
      { w with context := some { context with entropyCollector := collector } },
      m.blockMove output (written.getD []))

/-- `PMbedTLS::NVSeedRead`. -/
def nvSeedRead (buf : ℕ) (buf_len : UInt32) : Option Int32 × Newt × Memory :=
  match w.context with
  | none => (none, w, m)
  | some context =>
    match context.nvSeed with
    | none => (some (-1), w, m)
    | some seedData =>
      let numBytes := seedData.length
      let numBytes := if numBytes > buf_len.toNat then buf_len.toNat else numBytes
      (some (Int32.ofNat numBytes), w, m.blockMove buf (seedData.take numBytes))

/-- `PMbedTLS::NVSeedWrite`. -/
def nvSeedWrite (buf : ℕ) (buf_len : UInt32) : Option Int32 × Newt × Memory :=
  match w.context with
  | none => (none, w, m)
  | some context =>
    (some buf_len.toInt32,
      { w with context := some { context with nvSeed := some (m.bytes buf buf_len.toNat) } }, m)

/-- `PMbedTLS::GetGMTDelta`: the result is not initialised if there is no such slot. -/
def getGMTDelta : Int32 :=
  match w.gmt with
  | some gmt => gmt
  | none => w.stack

/-- The bytes of a serial number. -/
def SERIAL_NUMBER_LEN : ℕ := 8

/-- `PMbedTLS::GetSerialNumber`. -/
def getSerialNumber (serialNumber : ℕ) : Int32 × Memory :=
  match w.serialNumber with
  | .binary bytes =>
    if bytes.length = SERIAL_NUMBER_LEN then (0, m.blockMove serialNumber bytes) else (-1, m)
  | .exFrames data => (data, m)
  | .otherException => (-1, m)

/-- `PMbedTLS::ListRootCertificates(outBuf, ioSize)`, where both are NULL or none is. -/
def listRootCertificates (buf : Option (ℕ × ℕ)) : Int32 × Memory :=
  let answer := NewtonTLS.listRootCertificates w.store (buf.map fun b => m.size b.2)
  let m := match buf with
    | some (outBuf, ioSize) =>
      (m.blockMove outBuf answer.written).blockMove ioSize (sizeBytes answer.written.length)
    | none => m
  (Int32.ofInt answer.result, m)

/-- `PMbedTLS::GetRootCertificate(name, outBuf, ioSize)`, where `ioSize` is not NULL. -/
def getRootCertificate (name outBuf ioSize : ℕ) : Int32 × Memory :=
  let answer := NewtonTLS.getRootCertificate makeString w.store (m.cString name) (m.size ioSize)
  let m := match answer.copied with
    | some cert => (m.blockMove outBuf cert).blockMove ioSize (sizeBytes cert.length)
    | none => m
  (Int32.ofInt answer.result, m)

end functions

/-! ## Events and their handlers -/

/-- The events of the class `kMbedTLSEventClass`, one for each event ID, with their fields. -/
inductive TMbedTLSEvent : Type where
  | hardwarePoll (fBuf : ℕ) (fBufLen : UInt32)
  | nvSeedRead (fBuf : ℕ) (fBufLen : UInt32)
  | nvSeedWrite (fBuf : ℕ) (fBufLen : UInt32)
  | getGMTDelta
  | getSerialNumber (fBuf : ℕ) (fBufLen : UInt32)
  | listRootCertificates (buf : Option (ℕ × ℕ))
  | getRootCertificate (fName fBuf fIoLen : ℕ)
  deriving DecidableEq

/-- `AEHandlerProc` of the handler of the event: the `result` of `ReplyRPC`, unless an exception
leaves the handler before. -/
def aeHandlerProc (makeString : List Byte → List UniChar) (event : TMbedTLSEvent) (w : Newt)
    (m : Memory) : Option UInt32 × Newt × Memory :=
  match event with
  | .hardwarePoll output len => hardwarePoll w m output len
  | .nvSeedRead buf buf_len =>
    let (result, w, m) := nvSeedRead w m buf buf_len
    (result.map Int32.toUInt32, w, m)
  | .nvSeedWrite buf buf_len =>
    let (result, w, m) := nvSeedWrite w m buf buf_len
    (result.map Int32.toUInt32, w, m)
  | .getGMTDelta => (some (getGMTDelta w).toUInt32, w, m)
  | .getSerialNumber fBuf _ =>
    let (result, m) := getSerialNumber w m fBuf
    (some result.toUInt32, w, m)
  | .listRootCertificates buf =>
    let (result, m) := listRootCertificates w m buf
    (some result.toUInt32, w, m)
  | .getRootCertificate fName fBuf fIoLen =>
    let (result, m) := getRootCertificate makeString w m fName fBuf fIoLen
    (some result.toUInt32, w, m)

/-! ## The platform functions -/

/-- The functions that need NewtonScript, with their arguments; `gmtimeR` is given `*tt`. -/
inductive Platform : Type where
  | hardwarePoll (output : ℕ) (len : UInt32)
  | nvSeedRead (buf : ℕ) (buf_len : UInt32)
  | nvSeedWrite (buf : ℕ) (buf_len : UInt32)
  | gmtimeR (tt : ℤ)
  | getSerialNumber (outSerial : ℕ)
  | listRootCertificates (buf : Option (ℕ × ℕ))
  | getRootCertificate (name outBuf ioSize : ℕ)
  deriving DecidableEq

/-- What a platform function gives its caller: its result, and `*olen` or `*tm_buf`. -/
inductive Outcome : Type where
  | result (ret : Int32)
  | polled (ret : Int32) (olen : UInt32)
  | date (tm_buf : Tm)
  deriving DecidableEq

/-- The event that the function sends. -/
def Platform.event : Platform → TMbedTLSEvent
  | .hardwarePoll output len => .hardwarePoll output len
  | .nvSeedRead buf buf_len => .nvSeedRead buf buf_len
  | .nvSeedWrite buf buf_len => .nvSeedWrite buf buf_len
  | .gmtimeR _ => .getGMTDelta
  | .getSerialNumber outSerial => .getSerialNumber outSerial (UInt32.ofNat SERIAL_NUMBER_LEN)
  | .listRootCertificates buf => .listRootCertificates buf
  | .getRootCertificate name outBuf ioSize => .getRootCertificate name outBuf ioSize

/-- What the function does in the task `newt`; an exception leaves it, too. -/
def Platform.inNewtTask (makeString : List Byte → List UniChar) (w : Newt) (m : Memory) :
    Platform → Option Outcome × Newt × Memory
  | .hardwarePoll output len =>
    let (olen, w, m) := TaskCalls.hardwarePoll w m output len
    (olen.map (.polled 0), w, m)
  | .nvSeedRead buf buf_len =>
    let (result, w, m) := TaskCalls.nvSeedRead w m buf buf_len
    (result.map fun result => .result result.toUInt32.toInt32, w, m)
  | .nvSeedWrite buf buf_len =>
    let (result, w, m) := TaskCalls.nvSeedWrite w m buf buf_len
    (result.map fun result => .result result.toUInt32.toInt32, w, m)
  | .gmtimeR tt => (some (.date (mbedtlsPlatformGmtimeR tt (getGMTDelta w).toInt)), w, m)
  | .getSerialNumber outSerial =>
    let (result, m) := TaskCalls.getSerialNumber w m outSerial
    (some (.result result), w, m)
  | .listRootCertificates buf =>
    let (result, m) := TaskCalls.listRootCertificates w m buf
    (some (.result result), w, m)
  | .getRootCertificate name outBuf ioSize =>
    let (result, m) := TaskCalls.getRootCertificate makeString w m name outBuf ioSize
    (some (.result result), w, m)

/-- What the function does after `SendRPCToNewtApp(&result)`, which gives `theErr`, or 0 and the
reply in `result`. -/
def Platform.afterRPC : Platform → Except Int32 UInt32 → Outcome
  | .hardwarePoll _ _, .ok result => .polled 0 result
  | .hardwarePoll _ _, .error theErr => .polled theErr 0
  | .gmtimeR tt, .ok result => .date (mbedtlsPlatformGmtimeR tt result.toInt32.toInt)
  | .gmtimeR tt, .error _ => .date (mbedtlsPlatformGmtimeR tt 0)
  | _, .ok result => .result result.toInt32
  | _, .error theErr => .result theErr

/-! ## What an event lends -/

/-- Where a listing is written into a buffer of `n` bytes: into an empty buffer it is written past
the end, wherever that is. -/
def listingBlock (p n : ℕ) : Set ℕ := if n = 0 then Set.univ else block p n

/-- The memory that the event speaks of. -/
def lends (event : TMbedTLSEvent) (m : Memory) : Set ℕ :=
  match event with
  | .hardwarePoll fBuf fBufLen | .nvSeedRead fBuf fBufLen | .nvSeedWrite fBuf fBufLen =>
    block fBuf fBufLen.toNat
  | .getGMTDelta => ∅
  | .getSerialNumber fBuf _ => block fBuf SERIAL_NUMBER_LEN
  | .listRootCertificates none => ∅
  | .listRootCertificates (some (fBuf, fIoLen)) =>
    block fIoLen 4 ∪ listingBlock fBuf (m.size fIoLen)
  | .getRootCertificate fName fBuf fIoLen =>
    block fName ((m.cString fName).length + 1) ∪ (block fIoLen 4 ∪ block fBuf (m.size fIoLen))

/-! ### Memory that agrees -/

section memory

variable {m m' : Memory} {F : Set ℕ}

@[simp] theorem length_bytes (m : Memory) (p n : ℕ) : (m.bytes p n).length = n := by
  rw [Memory.bytes, List.length_map, List.length_range]

@[simp] theorem length_sizeBytes (n : ℕ) : (sizeBytes n).length = 4 := rfl

/-- The bytes of a block do not depend on the rest. -/
theorem bytes_congr {p n : ℕ} (h : ∀ x ∈ block p n, m' x = m x) : m'.bytes p n = m.bytes p n := by
  apply List.map_congr_left
  intro i hi
  rw [List.mem_range] at hi
  exact h _ ⟨by omega, by omega⟩

/-- The bytes that have been moved to a place are there. -/
theorem bytes_blockMove (m : Memory) (p : ℕ) (bytes : List Byte) :
    (m.blockMove p bytes).bytes p bytes.length = bytes := by
  apply List.ext_getElem
  · rw [length_bytes]
  · intro i hi hi'
    simp only [Memory.bytes, Memory.blockMove, List.getElem_map, List.getElem_range]
    rw [if_pos ⟨by omega, by omega⟩, Nat.add_sub_cancel_left, List.getD_eq_getElem?_getD,
      List.getElem?_eq_getElem hi', Option.getD_some]

theorem blockMove_nil (m : Memory) (p : ℕ) : m.blockMove p [] = m := by
  funext x
  exact if_neg (by simp)

/-- Outside of the block the memory stays. -/
theorem blockMove_outside {p x : ℕ} {bytes : List Byte} (hx : x ∉ block p bytes.length) :
    m.blockMove p bytes x = m x := if_neg hx

/-- What is written does not depend on the rest. -/
theorem blockMove_congr {p : ℕ} {bytes : List Byte} (h : ∀ x ∈ F, m' x = m x) :
    ∀ x ∈ F, m'.blockMove p bytes x = m.blockMove p bytes x := by
  intro x hx
  simp only [Memory.blockMove, h x hx]

theorem size_congr {p : ℕ} (h : ∀ x ∈ block p 4, m' x = m x) : m'.size p = m.size p := by
  have hbyte : ∀ i < 4, m' (p + i) = m (p + i) := by
    intro i hi
    exact h _ ⟨by omega, by omega⟩
  rw [Memory.size, ← Nat.add_zero p, hbyte 0 (by omega), Nat.add_zero, hbyte 1 (by omega),
    hbyte 2 (by omega), hbyte 3 (by omega), Memory.size]

/-- A string ends at its first 0, which it has unless the memory ends before. -/
theorem cStringUpTo_congr {n p : ℕ}
    (h : ∀ x ∈ block p ((m.cStringUpTo n p).length + 1), m' x = m x) :
    m'.cStringUpTo n p = m.cStringUpTo n p := by
  induction n generalizing p with
  | zero => rfl
  | succ n ih =>
    have hfirst : m' p = m p := h p ⟨le_rfl, by omega⟩
    unfold Memory.cStringUpTo at h ⊢
    rw [hfirst]
    by_cases hend : m p = 0
    · rw [if_pos hend, if_pos hend]
    · rw [if_neg hend] at h ⊢
      rw [if_neg hend, ih]
      intro x hx
      apply h
      obtain ⟨hlo, hhi⟩ := hx
      rw [List.length_cons]
      exact ⟨by omega, by omega⟩

/-- A string is its bytes, with the one that ends it. -/
theorem cString_congr {p : ℕ} (h : ∀ x ∈ block p ((m.cString p).length + 1), m' x = m x) :
    m'.cString p = m.cString p := cStringUpTo_congr h

theorem mem_block_of_le {p n n' x : ℕ} (h : x ∈ block p n) (hle : n ≤ n') : x ∈ block p n' :=
  ⟨h.1, lt_of_lt_of_le h.2 (Nat.add_le_add_left hle p)⟩

end memory

/-! ### The object that `newt` serves -/

variable {makeString : List Byte → List UniChar}

/-- What an event lends depends on what it lends. -/
theorem lends_congr {event : TMbedTLSEvent} {m m' : Memory}
    (h : ∀ x ∈ lends event m, m' x = m x) : lends event m' = lends event m := by
  cases event with
  | hardwarePoll fBuf fBufLen => rfl
  | nvSeedRead fBuf fBufLen => rfl
  | nvSeedWrite fBuf fBufLen => rfl
  | getGMTDelta => rfl
  | getSerialNumber fBuf fBufLen => rfl
  | listRootCertificates buf =>
    rcases buf with _ | ⟨fBuf, fIoLen⟩
    · rfl
    · have hsize : m'.size fIoLen = m.size fIoLen := by
        apply size_congr
        intro x hx
        exact h x (.inl hx)
      unfold lends
      dsimp only
      rw [hsize]
  | getRootCertificate fName fBuf fIoLen =>
    have hname : m'.cString fName = m.cString fName :=
      cString_congr fun x hx => h x (.inl hx)
    have hsize : m'.size fIoLen = m.size fIoLen := by
      apply size_congr
      intro x hx
      exact h x (.inr (.inl hx))
    unfold lends
    dsimp only
    rw [hname, hsize]

/-- What a listing into a buffer writes is in the block for it. -/
theorem listing_block (store : RootStore) (n : ℕ) {p x : ℕ}
    (hx : x ∉ listingBlock p n) :
    x ∉ block p (NewtonTLS.listRootCertificates store (some n)).written.length := by
  unfold listingBlock at hx
  split at hx
  · exact absurd (Set.mem_univ x) hx
  · next hn =>
    have hwritten := (StoreCalls.listRootCertificatesCall_eq store (some n)).2
    rw [Option.isSome_some,
      BoundedListing.listing_written store (Nat.pos_of_ne_zero hn)] at hwritten
    rw [← hwritten]
    intro hmem
    apply hx
    apply mem_block_of_le hmem
    rw [List.length_take]
    exact Nat.min_le_left _ _

/-- A certificate that is copied fits. -/
theorem length_copied {store : RootStore} {name : List Byte} {ioSize : ℕ} {cert : List Byte}
    (h : (NewtonTLS.getRootCertificate makeString store name ioSize).copied = some cert) :
    cert.length ≤ ioSize := by
  rw [getRootCertificate_eq] at h
  split at h
  · cases h
  · dsimp only at h
    split at h
    · next hfits =>
      cases h
      exact hfits
    · cases h

/-- No more is written than there is room for. -/
theorem length_hardwarePoll (c : EntropyStream.Collector) (len : ℕ) :
    ((c.hardwarePoll len).1.getD []).length ≤ len := by
  unfold EntropyStream.Collector.hardwarePoll
  split
  · exact Nat.zero_le len
  · exact Nat.zero_le len
  · rw [Option.getD_some, List.length_take]
    split
    · exact Nat.min_le_left _ _
    · next hshort => exact (Nat.min_le_left _ _).trans (Nat.not_lt.mp hshort)

/-- A poll that raises an exception takes nothing. -/
theorem hardwarePoll_of_exception {c : EntropyStream.Collector} {len : ℕ}
    (h : (c.hardwarePoll len).1 = none) : (c.hardwarePoll len).2 = c := by
  unfold EntropyStream.Collector.hardwarePoll at h ⊢
  split
  · rfl
  · next hsend =>
    rw [hsend] at h
    cases h
  · next hsend =>
    rw [hsend] at h
    cases h

/-- A handler writes to what its event lends only. -/
theorem aeHandlerProc_outside {event : TMbedTLSEvent} {w : Newt} {m : Memory} {x : ℕ}
    (hx : x ∉ lends event m) : (aeHandlerProc makeString event w m).2.2 x = m x := by
  cases event with
  | hardwarePoll fBuf fBufLen =>
    unfold aeHandlerProc hardwarePoll
    cases w.context with
    | none => rfl
    | some context =>
      apply blockMove_outside
      intro hmem
      exact hx (mem_block_of_le hmem (length_hardwarePoll _ _))
  | nvSeedRead fBuf fBufLen =>
    unfold aeHandlerProc nvSeedRead
    cases w.context with
    | none => rfl
    | some context =>
      dsimp only
      cases context.nvSeed with
      | none => rfl
      | some seedData =>
        apply blockMove_outside
        intro hmem
        apply hx
        apply mem_block_of_le hmem
        rw [List.length_take]
        split <;> omega
  | nvSeedWrite fBuf fBufLen =>
    unfold aeHandlerProc nvSeedWrite
    cases w.context <;> rfl
  | getGMTDelta => rfl
  | getSerialNumber fBuf fBufLen =>
    unfold aeHandlerProc getSerialNumber
    cases w.serialNumber with
    | binary bytes =>
      dsimp only
      split
      · next hlength =>
        apply blockMove_outside
        rw [hlength]
        exact hx
      · rfl
    | exFrames data => rfl
    | otherException => rfl
  | listRootCertificates buf =>
    rcases buf with _ | ⟨fBuf, fIoLen⟩
    · rfl
    · show ((m.blockMove fBuf _).blockMove fIoLen _) x = m x
      rw [blockMove_outside (fun hmem => hx (.inl hmem))]
      exact blockMove_outside (listing_block w.store _ (fun hmem => hx (.inr hmem)))
  | getRootCertificate fName fBuf fIoLen =>
    unfold aeHandlerProc getRootCertificate
    dsimp only
    cases hcopied : (NewtonTLS.getRootCertificate makeString w.store (m.cString fName)
        (m.size fIoLen)).copied with
    | none => rfl
    | some cert =>
      dsimp only
      rw [blockMove_outside (fun hmem => hx (.inr (.inl hmem))), blockMove_outside]
      intro hmem
      exact hx (.inr (.inr (mem_block_of_le hmem (length_copied hcopied))))

/-- A handler sees what its event lends only. -/
theorem aeHandlerProc_congr {event : TMbedTLSEvent} {w : Newt} {m m' : Memory}
    (h : ∀ x ∈ lends event m, m' x = m x) :
    (aeHandlerProc makeString event w m').1 = (aeHandlerProc makeString event w m).1 ∧
      (aeHandlerProc makeString event w m').2.1 = (aeHandlerProc makeString event w m).2.1 ∧
      ∀ x ∈ lends event m,
        (aeHandlerProc makeString event w m').2.2 x =
          (aeHandlerProc makeString event w m).2.2 x := by
  cases event with
  | hardwarePoll fBuf fBufLen =>
    unfold aeHandlerProc hardwarePoll
    cases w.context with
    | none => exact ⟨rfl, rfl, h⟩
    | some context => exact ⟨rfl, rfl, blockMove_congr h⟩
  | nvSeedRead fBuf fBufLen =>
    unfold aeHandlerProc nvSeedRead
    cases w.context with
    | none => exact ⟨rfl, rfl, h⟩
    | some context =>
      dsimp only
      cases context.nvSeed with
      | none => exact ⟨rfl, rfl, h⟩
      | some seedData => exact ⟨rfl, rfl, blockMove_congr h⟩
  | nvSeedWrite fBuf fBufLen =>
    dsimp only [aeHandlerProc, nvSeedWrite]
    rw [bytes_congr (show ∀ x ∈ block fBuf fBufLen.toNat, m' x = m x from h)]
    cases w.context with
    | none => exact ⟨rfl, rfl, h⟩
    | some context => exact ⟨rfl, rfl, h⟩
  | getGMTDelta => exact ⟨rfl, rfl, h⟩
  | getSerialNumber fBuf fBufLen =>
    dsimp only [aeHandlerProc, getSerialNumber]
    cases w.serialNumber with
    | binary bytes =>
      dsimp only
      split
      · exact ⟨rfl, rfl, blockMove_congr h⟩
      · exact ⟨rfl, rfl, h⟩
    | exFrames data => exact ⟨rfl, rfl, h⟩
    | otherException => exact ⟨rfl, rfl, h⟩
  | listRootCertificates buf =>
    dsimp only [aeHandlerProc, listRootCertificates]
    rcases buf with _ | ⟨fBuf, fIoLen⟩
    · rw [Option.map_none, Option.map_none]
      exact ⟨rfl, rfl, h⟩
    · rw [Option.map_some, Option.map_some,
        size_congr (show ∀ x ∈ block fIoLen 4, m' x = m x from fun x hx => h x (.inl hx))]
      exact ⟨rfl, rfl, blockMove_congr (blockMove_congr h)⟩
  | getRootCertificate fName fBuf fIoLen =>
    have hname : m'.cString fName = m.cString fName :=
      cString_congr fun x hx => h x (.inl hx)
    have hsize : m'.size fIoLen = m.size fIoLen := by
      apply size_congr
      intro x hx
      exact h x (.inr (.inl hx))
    dsimp only [aeHandlerProc, getRootCertificate]
    rw [hname, hsize]
    cases (NewtonTLS.getRootCertificate makeString w.store (m.cString fName)
        (m.size fIoLen)).copied with
    | none => exact ⟨rfl, rfl, h⟩
    | some cert => exact ⟨rfl, rfl, blockMove_congr (blockMove_congr h)⟩

variable (makeString) in
/-- What `newt` serves: its handlers look at and write to what an event lends only. -/
def newtService : PortCalls.Service Newt Work TMbedTLSEvent UInt32 ℕ Byte where
  work k w := k.run w
  serve := aeHandlerProc makeString
  lends := lends
  lends_congr := lends_congr
  serve_outside := aeHandlerProc_outside
  serve_congr := aeHandlerProc_congr

/-! ## The two ways of a platform function -/

/-- The handler gives the function what the function itself would find in `newt`. -/
theorem inNewtTask_eq (f : Platform) (w : Newt) (m : Memory) :
    f.inNewtTask makeString w m =
      ((aeHandlerProc makeString f.event w m).1.map fun result => f.afterRPC (.ok result),
        (aeHandlerProc makeString f.event w m).2) := by
  cases f with
  | hardwarePoll output len => rfl
  | nvSeedRead buf buf_len =>
    unfold Platform.inNewtTask Platform.event aeHandlerProc
    dsimp only
    rw [Option.map_map]
    rfl
  | nvSeedWrite buf buf_len =>
    unfold Platform.inNewtTask Platform.event aeHandlerProc
    dsimp only
    rw [Option.map_map]
    rfl
  | gmtimeR tt =>
    unfold Platform.inNewtTask Platform.event aeHandlerProc Platform.afterRPC
    dsimp only
    rw [Option.map_some, Int32.toInt32_toUInt32]
  | getSerialNumber outSerial =>
    unfold Platform.inNewtTask Platform.event aeHandlerProc Platform.afterRPC
    dsimp only
    rw [Option.map_some, Int32.toInt32_toUInt32]
  | listRootCertificates buf =>
    unfold Platform.inNewtTask Platform.event aeHandlerProc Platform.afterRPC
    dsimp only
    rw [Option.map_some, Int32.toInt32_toUInt32]
  | getRootCertificate name outBuf ioSize =>
    unfold Platform.inNewtTask Platform.event aeHandlerProc Platform.afterRPC
    dsimp only
    rw [Option.map_some, Int32.toInt32_toUInt32]

/-- An exception leaves a handler before anything has changed. -/
theorem aeHandlerProc_exception {event : TMbedTLSEvent} {w : Newt} {m : Memory}
    (h : (aeHandlerProc makeString event w m).1 = none) :
    (aeHandlerProc makeString event w m).2 = (w, m) := by
  cases event with
  | hardwarePoll fBuf fBufLen =>
    unfold aeHandlerProc hardwarePoll at h ⊢
    cases hcontext : w.context with
    | none => rfl
    | some context =>
      rw [hcontext] at h
      have hwritten := Option.map_eq_none_iff.mp h
      dsimp only
      rw [hwritten, hardwarePoll_of_exception hwritten, Option.getD_none, blockMove_nil,
        ← hcontext]
  | nvSeedRead fBuf fBufLen =>
    unfold aeHandlerProc nvSeedRead at h ⊢
    cases hcontext : w.context with
    | none => rfl
    | some context =>
      cases hseed : context.nvSeed with
      | none => simp [hcontext, hseed] at h
      | some seedData => simp [hcontext, hseed] at h
  | nvSeedWrite fBuf fBufLen =>
    unfold aeHandlerProc nvSeedWrite at h ⊢
    cases hcontext : w.context with
    | none => rfl
    | some context => simp [hcontext] at h
  | getGMTDelta => cases h
  | getSerialNumber fBuf fBufLen => cases h
  | listRootCertificates buf => cases h
  | getRootCertificate fName fBuf fIoLen => cases h

/-! ## The global variable -/

/-- What a handler does to the global variable. -/
def contextAfter (event : TMbedTLSEvent) (m : Memory) (c : Context) : Context :=
  match event with
  | .hardwarePoll _ len =>
    { c with entropyCollector := (c.entropyCollector.hardwarePoll len.toNat).2 }
  | .nvSeedWrite buf buf_len => { c with nvSeed := some (m.bytes buf buf_len.toNat) }
  | _ => c

/-- An event acts on the context of mbedTLS, if there is one. -/
theorem aeHandlerProc_context (event : TMbedTLSEvent) (w : Newt) (m : Memory) :
    (aeHandlerProc makeString event w m).2.1.context = w.context.map (contextAfter event m) := by
  cases event with
  | hardwarePoll output len =>
    dsimp only [aeHandlerProc, hardwarePoll]
    cases hcontext : w.context with
    | none => exact hcontext
    | some c => rfl
  | nvSeedRead buf buf_len =>
    have hworld : (nvSeedRead w m buf buf_len).2.1 = w := by
      unfold nvSeedRead
      split
      · rfl
      · split <;> rfl
    dsimp only [aeHandlerProc]
    rw [hworld]
    exact Option.map_id'.symm
  | nvSeedWrite buf buf_len =>
    dsimp only [aeHandlerProc, nvSeedWrite]
    cases hcontext : w.context with
    | none => exact hcontext
    | some c => rfl
  | getGMTDelta => exact Option.map_id'.symm
  | getSerialNumber fBuf fBufLen => exact Option.map_id'.symm
  | listRootCertificates buf => exact Option.map_id'.symm
  | getRootCertificate fName fBuf fIoLen => exact Option.map_id'.symm

/-- What else happens in `newt` changes the collector, by an event of its own, or undefines the
variable. -/
def Work.contextAfter (k : Work) (c : Context) : Option Context :=
  match k with
  | .removeScript => none
  | k => some (k.event?.elim c fun e =>
      { c with entropyCollector := collectorAfter c.entropyCollector e })

theorem Work.run_context (k : Work) (w : Newt) :
    (k.run w).context = w.context.bind k.contextAfter := by
  cases k with
  | setUserConfig gmt => exact (Option.bind_fun_some _).symm
  | changeSoups store => exact (Option.bind_fun_some _).symm
  | useStack x => exact (Option.bind_fun_some _).symm
  | removeScript => exact (Option.bind_fun_none _).symm
  | _ =>
    dsimp only [Work.run, Work.event?]
    cases hcontext : w.context with
    | none => exact hcontext
    | some c => rfl

end TaskCalls

end NewtonTLS
