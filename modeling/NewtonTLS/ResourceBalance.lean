/-
# The resources of SSL are balanced

The lists and the message of a configuration, the receive buffer, the read buffer and
the hostname are kept in books: what has been allocated, and what of it is live.  The
fields of the object own exactly what is live, so that it is released once, and
`Delete` leaves nothing.

`mSSLConfigured` alone says whether `SSLUnconfigure` runs, and neither `SSLConfigure`
nor `OpenStart` looks at it.  The books balance in the runs in which these find no
configuration, and in which `Delete` finds one when a hostname is left.
-/
import NewtonTLS.ConnectionEndStreams
import NewtonTLS.Ledger

open Reentrant

namespace NewtonTLS

namespace ResourceBalance

/-! ## What is observed -/

/-- Whether `SSLConfigure` has begun since control passed last, and the books. -/
structure Seen : Type where
  configuring : Bool
  books : Ledger ℕ
  deriving DecidableEq

/-- An object is allocated. -/
def Seen.alloc (g : Seen) (p : ℕ) : Seen := { g with books := g.books.alloc p }

/-- An object is released. -/
def Seen.release (g : Seen) (p : ℕ) : Seen := { g with books := g.books.release p }

/-- The blocks that `SSLConfigure` allocates are for the root certificates and not booked. -/
def next (g : Seen) : Label CESig → Seen
  | .asked .getConnectionEndPort _ => { g with configuring := true }
  | .asked (.newPtr p _) _ => if g.configuring then g else g.alloc p
  | .asked (.newBufferList p) _ => g.alloc p
  | .asked (.newAsyncMessage p) _ => g.alloc p
  | .asked (.disposPtr p) _ => g.release p
  | .asked (.deleteBufferList p) _ => g.release p
  | .asked (.deleteAsyncMessage p) _ => g.release p
  | .asked _ _ => g
  | _ => { g with configuring := false }

/-- Nothing has been allocated. -/
abbrev monitor : Monitor CESig where
  Obs := Seen
  init := ⟨false, .empty⟩
  next := next

/-- The questions that are observed. -/
def looksAt : Query → Bool
  | .getConnectionEndPort => true
  | .newPtr _ _ => true
  | .newBufferList _ => true
  | .newAsyncMessage _ => true
  | .disposPtr _ => true
  | .deleteBufferList _ => true
  | .deleteAsyncMessage _ => true
  | .freeContexts => true
  | _ => false

/-- The address of a list, if there is one. -/
def listPtrs (l : Option OwnList) : List ℕ := (l.map OwnList.ptr).toList

/-- The address of a block, if there is one. -/
def blockPtrs (b : Option Block) : List ℕ := (b.map Block.ptr).toList

/-- What a configuration owns, in the order in which `SSLUnconfigure` releases it. -/
def objects (s : ConnectionEnd) : List ℕ :=
  listPtrs s.mPutDataBuffer ++ (listPtrs s.mSendBuffer ++ (listPtrs s.mGetDataBuffer ++
    (blockPtrs s.mSSLRecvBuffer ++ (blockPtrs s.mSSLReadBuffer ++ s.mAsyncReadMessage.toList))))

/-- What the fields own. -/
def owned (s : ConnectionEnd) : List ℕ := objects s ++ blockPtrs s.mSSLHostname

/-- What holds of an event when the resources are balanced: `SSLConfigure` begins when nothing
of an earlier configuration is live, what is released is live, nothing is live when `Delete` frees
the contexts, and whenever control passes, what is live has its field. -/
def balanced (g : Seen) (s : ConnectionEnd) : Label CESig → Bool
  | .asked .getConnectionEndPort _ => decide (∀ p ∈ g.books.live, p ∈ blockPtrs s.mSSLHostname)
  | .asked (.disposPtr p) _ => decide (p ∈ g.books.made → p ∈ g.books.live)
  | .asked (.deleteBufferList p) _ => decide (p ∈ g.books.live)
  | .asked (.deleteAsyncMessage p) _ => decide (p ∈ g.books.live)
  | .asked .freeContexts _ => decide (g.books.live = [])
  | .asked _ _ => true
  | _ => decide (∀ p ∈ g.books.live, p ∈ owned s)

/-- The requests that do not look whether there is a configuration find none, and `Delete` finds
one when there is a hostname. -/
def findsReleased (s : ConnectionEnd) : Label CESig → Bool
  | .enter .openStart => !s.mSSLConfigured
  | .enter .connectStart => !(s.mSSLEnabled && s.mSSLConfigured)
  | .enter (.processOptionStart (.sslEnable enabled)) =>
    !(enabled && s.mUpgradable && s.mSSLConfigured)
  | .enter .delete => s.mSSLConfigured || s.mSSLHostname.isNone
  | _ => true

/-! ## The invariant -/

/-- The fields own what is live, and without a configuration no object of one. -/
structure Holds (g : Seen) (s : ConnectionEnd) : Prop where
  books : g.books.Accounts (owned s) s.nextPtr
  plain : s.mSSLConfigured = false → objects s = []

/-- The invariant looks at the owners. -/
theorem Holds.same {g : Seen} {s s' : ConnectionEnd} (h : Holds g s)
    (hobjects : objects s' = objects s)
    (hhost : blockPtrs s'.mSSLHostname = blockPtrs s.mSSLHostname)
    (hconf : s'.mSSLConfigured = s.mSSLConfigured) (hptr : s'.nextPtr = s.nextPtr) :
    Holds g s' := by
  constructor
  · rw [owned, hobjects, hhost, hptr]
    exact h.books
  · rw [hconf, hobjects]
    exact h.plain

/-- A number is taken that nothing owns. -/
theorem Holds.skip {g : Seen} {s : ConnectionEnd} (h : Holds g s) :
    Holds g { s with nextPtr := s.nextPtr + 1 } :=
  ⟨h.books.skip (Nat.le_succ _), h.plain⟩

/-- A new object gets a field. -/
theorem Holds.alloc {g : Seen} {s s' : ConnectionEnd} (h : Holds g s)
    (hperm : (s.nextPtr :: owned s).Perm (owned s')) (hptr : s'.nextPtr = s.nextPtr + 1)
    (hplain : s'.mSSLConfigured = false → objects s' = []) : Holds (g.alloc s.nextPtr) s' := by
  refine ⟨?_, hplain⟩
  rw [hptr]
  exact h.books.alloc.reorder hperm

/-- An object leaves its field. -/
theorem Holds.release {g : Seen} {s s' : ConnectionEnd} {p : ℕ} (h : Holds g s)
    (hperm : (owned s).Perm (p :: owned s')) (hptr : s'.nextPtr = s.nextPtr)
    (hplain : s'.mSSLConfigured = false → objects s' = []) :
    p ∈ g.books.live ∧ Holds (g.release p) s' := by
  have hbooks := h.books.reorder hperm
  refine ⟨hbooks.head_live, ?_, hplain⟩
  rw [hptr]
  exact hbooks.release

/-- The contract. -/
def stream : StreamContract monitor where
  Inv := Holds
  Every := fun g s x => balanced g s x = true
  Within := fun _ _ => True
  refl := fun _ => trivial
  trans := fun _ _ _ _ _ => trivial

/-- Whenever control passes the books balance, and no configuration is under way. -/
theorem kept {g : Seen} {s : ConnectionEnd} {x : Label CESig} (h : Holds g s)
    (hx : ∀ q a, x ≠ .asked q a) :
    balanced g s x = true ∧ Holds (next g x) s ∧ (next g x).configuring = false := by
  have hlive : decide (∀ p ∈ g.books.live, p ∈ owned s) = true :=
    decide_eq_true fun p hp => h.books.balances.live_iff.mp hp
  cases x with
  | asked q a => exact absurd rfl (hx q a)
  | _ => exact ⟨hlive, ⟨h.books, h.plain⟩, rfl⟩

/-- The other questions are not observed. -/
theorem quietQuery {q : Query} (hq : looksAt q = false) : Quiet stream.toContract q := by
  intro g s a
  cases q <;> first | exact ⟨rfl, rfl⟩ | cases hq

/-! ## Owners -/

/-- The address of a list is its reference. -/
theorem listPtrs_eq {l l' : Option OwnList} (h : listRef l = listRef l') :
    listPtrs l = listPtrs l' := by
  rcases l with _ | l <;> rcases l' with _ | l'
  · rfl
  · cases h
  · cases h
  · rw [listPtrs, listPtrs, Option.map_some, Option.map_some, ListRef.own.inj h]

/-- What is sent does not change what is owned. -/
theorem objects_withSend {s : ConnectionEnd} {v : SendValues} (hv : v.SameOwned s) :
    objects (s.withSend v) = objects s := by
  show listPtrs v.put ++ (listPtrs v.send ++ _) = _
  rw [listPtrs_eq hv.put, listPtrs_eq hv.send]
  rfl

theorem objects_withReceive {s : ConnectionEnd} {v : ReceiveValues} (hv : v.SameOwned s) :
    objects (s.withReceive v) = objects s := by
  show _ ++ (_ ++ (listPtrs v.list ++ (blockPtrs v.buffer ++ _))) = _
  rw [listPtrs_eq hv.list, blockPtrs, hv.buffer]
  rfl

/-- The read buffer among what is owned. -/
theorem owned_readBuffer (s : ConnectionEnd) :
    (owned s).Perm (blockPtrs s.mSSLReadBuffer ++ owned s.withoutReadBuffer) := by
  rw [List.perm_iff_count]
  intro p
  simp only [owned, objects, ConnectionEnd.withoutReadBuffer, blockPtrs, Option.map_none,
    Option.toList_none, List.count_append, List.count_nil]
  omega

/-- The object without its receive buffer. -/
def withoutReceived (s : ConnectionEnd) : ConnectionEnd :=
  s.withReceive { s.receiveValues with buffer := none, size := 0 }

/-- The receive buffer among what is owned. -/
theorem owned_received (s : ConnectionEnd) :
    (owned s).Perm (blockPtrs s.mSSLRecvBuffer ++ owned (withoutReceived s)) := by
  rw [List.perm_iff_count]
  intro p
  simp only [owned, objects, withoutReceived, ConnectionEnd.withReceive,
    ConnectionEnd.receiveValues, blockPtrs, Option.map_none, Option.toList_none, List.count_append,
    List.count_nil]
  omega

/-! ## Traffic -/

/-- Inside of an entry point of traffic. -/
def Running (g : Seen) (s : ConnectionEnd) : Prop := Holds g s ∧ g.configuring = false

section traffic

variable {extra : List Call → Seen → ConnectionEnd → Label CESig → Bool} {e : Entry}
  {stk : List Call} {g : Seen} {s : ConnectionEnd}

/-- A function begins with its books in order. -/
theorem running (h : Holds g s) (e : Entry) : Running (next g (.enter e)) s :=
  (kept h (by simp)).2

/-- A call leaves the books in order. -/
theorem callKept (h : Running g s) (c : Call) :
    CallKept stream.toContract (discipline monitor extra) e stk Running g s c := by
  obtain ⟨hev, hnext, -⟩ := kept (x := .calls e c) h.1 (by simp)
  refine ⟨hev, hnext, fun r g' s' hat _ _ => ?_⟩
  exact kept (x := .resumes c r) hat (by simp)

/-- Only the receive buffer comes and goes. -/
theorem receiveFrame : ReceiveFrame stream.toContract Running where
  ask := by
    intro q hq hkeep g s a h
    cases q <;> first | exact ⟨rfl, h⟩ | (cases hkeep; done) | cases hq
  frame := fun g s v hv h => ⟨h.1.same (objects_withReceive hv) rfl rfl hv.nextPtr, h.2⟩
  filled := by
    intro g s size bytes a hconf hnone h
    have hnext : next g (.asked (.newPtr s.nextPtr size) a) = g.alloc s.nextPtr := by
      rw [next, h.2, if_neg Bool.false_ne_true]
    refine ⟨rfl, ?_⟩
    rw [show monitor.next = next from rfl, hnext]
    refine ⟨h.1.alloc ?_ rfl fun hplain => ?_, h.2⟩
    · refine List.Perm.symm ((owned_received _).trans ?_)
      have hempty := owned_received s
      rw [hnone] at hempty
      exact (List.Perm.cons _ hempty.symm)
    · rw [show s.mSSLConfigured = false from hplain] at hconf
      cases hconf
  emptied := by
    intro g s b a hbuf h
    have hperm := owned_received s
    rw [hbuf] at hperm
    have hreleased : b.ptr ∈ g.books.live ∧ Holds (g.release b.ptr) (withoutReceived s) := by
      refine h.1.release hperm rfl fun hplain => ?_
      have hobjects := h.1.plain hplain
      simp [objects, hbuf, blockPtrs] at hobjects
    exact ⟨decide_eq_true fun _ => hreleased.1, hreleased.2, h.2⟩

theorem sendFrame : SendFrame stream.toContract Running where
  accept := fun _ _ _ _ h => ⟨rfl, h⟩
  frame := fun _ _ _ hv h => ⟨h.1.same (objects_withSend hv) rfl rfl rfl, h.2⟩

/-- The functions that neither send nor receive. -/
theorem restFrame : RestFrame stream.toContract Running where
  ask := by
    intro q hq g s a h
    cases q <;> first | exact ⟨rfl, h⟩ | cases hq
  timer := fun _ _ _ _ _ h => ⟨h.1.same rfl rfl rfl rfl, h.2⟩

/-- Traffic keeps the books. -/
theorem serves {fuel : ℕ} (he : e.isTraffic = true) (h : Holds g s) :
    stream.Serves extra fuel e stk g s := by
  have hends : ∀ v g' s', Running g' s' → stream.Ends stk e s g' (some v) s' := by
    intro v g' s' h'
    obtain ⟨hev, hnext, -⟩ := kept (x := .leave e (some v)) h'.1 (by simp)
    exact ⟨hev, hnext, fun _ => trivial⟩
  refine ⟨(kept h (by simp)).1, ?_⟩
  rcases e.isTraffic_cases he with hreceive | hsend | hrest
  · exact receiveFrame.sat_code fuel hreceive (running h e) (fun _ _ _ h' _ => callKept h' _)
      (fun _ _ _ _ _ h' _ => callKept h' _) hends
  · exact sendFrame.sat_code (fun _ _ _ h' _ => callKept h' _) (fun _ _ h' => h') fuel hsend
      (running h e) (fun _ _ _ _ h' _ => callKept h' _) hends
  · exact restFrame.sat_code fuel hrest (running h e) (fun _ _ _ h' => callKept h' _) hends

end traffic

/-! ## Reading and writing -/

/-- Calls keep the books in order. -/
theorem callRules (extra : List Call → Seen → ConnectionEnd → Label CESig → Bool) :
    CallRules stream.toContract extra Holds where
  at_iff := fun _ _ _ _ => Iff.rfl
  rely_out := fun _ _ _ _ _ _ hout _ => stream.rely_out hout
  rely_tls := fun _ _ _ _ _ _ hc h => stream.rely_tls hc h
  timer := fun _ _ _ _ _ h => h.same rfl rfl rfl rfl
  clock := quietQuery rfl
  calls := by
    intro e stk g s c _ _ h _
    obtain ⟨hev, hnext, -⟩ := kept (x := .calls e c) h (by simp)
    exact ⟨hev, hnext⟩
  resumes := by
    intro stk g s c r _ _ h _ _
    obtain ⟨hev, hnext, -⟩ := kept (x := .resumes c r) h (by simp)
    exact ⟨hev, hnext⟩

theorem sendRules (extra : List Call → Seen → ConnectionEnd → Label CESig → Bool) :
    SendRules stream.toContract extra Holds fun _ => True where
  basic := callRules extra
  putList := by
    intro q hq
    apply quietQuery
    cases q <;> first | rfl | cases hq
  tlsCalls := by
    intro e stk g s c _ _ _ h _
    obtain ⟨hev, hnext, -⟩ := kept (x := .calls e c) h (by simp)
    exact ⟨hev, hnext⟩
  tlsResumes := by
    intro stk g s c r _ _ h _ _
    obtain ⟨hev, hnext, -⟩ := kept (x := .resumes c r) h (by simp)
    exact ⟨hev, hnext⟩
  lost := fun _ _ _ _ _ h => h.same rfl rfl rfl rfl
  closing := fun _ _ h => h.same rfl rfl rfl rfl
  reset := fun _ _ _ h _ => ⟨rfl, h⟩

/-- Reading disposes of the read buffer, which has its field until then. -/
theorem readBufferRules : ReadBufferRules stream.toContract Holds where
  getList := by
    intro q hq
    apply quietQuery
    cases q <;> first | rfl | cases hq
  filled := by
    intro g s buf bytes count hbuf h
    refine h.same ?_ rfl rfl rfl
    simp only [objects, ConnectionEnd.withReading, hbuf]
    rfl
  emptied := by
    intro g s buf a hbuf h
    have hperm := owned_readBuffer s
    rw [hbuf] at hperm
    have hreleased : buf.ptr ∈ g.books.live ∧ Holds (g.release buf.ptr) s.withoutReadBuffer := by
      refine h.release hperm rfl fun hplain => ?_
      have hobjects := h.plain hplain
      simp [objects, hbuf, blockPtrs] at hobjects
    exact ⟨decide_eq_true fun _ => hreleased.1, hreleased.2⟩
  cleared := fun _ _ h => h.same rfl rfl rfl rfl
  read := by
    intro e g s n h _
    obtain ⟨hev, hnext, -⟩ := kept (x := .calls e (.mbedtlsSslRead n)) h (by simp)
    exact ⟨hev, hnext⟩
  readEnds := by
    intro g s n r h
    obtain ⟨hev, hnext, -⟩ := kept (x := .resumes (.mbedtlsSslRead n) r) h (by simp)
    exact ⟨hev, hnext⟩
  completes := by
    intro e g s r b n _ h
    obtain ⟨hev, hnext, -⟩ := kept (x := .calls e (.client (.getComplete r b n))) h (by simp)
    exact ⟨hev, hnext⟩

/-- A get allocates the read buffer when there is none. -/
theorem started {g : Seen} {s : ConnectionEnd} (h : Running g s) (hconf : s.mSSLConfigured = true)
    (size : ℕ) (a : Unit) (hnone : s.mSSLReadBuffer = none) :
    stream.toContract.Every g { s with mSSLReadBufferSize := size, nextPtr := s.nextPtr + 1 }
        (.asked (.newPtr s.nextPtr size) a) ∧
      Holds (next g (.asked (.newPtr s.nextPtr size) a))
        (s.withReading ⟨some ⟨s.nextPtr, List.replicate size 0⟩, size, 0, s.nextPtr + 1⟩) := by
  have hnext : next g (.asked (.newPtr s.nextPtr size) a) = g.alloc s.nextPtr := by
    rw [next, h.2, if_neg Bool.false_ne_true]
  refine ⟨rfl, ?_⟩
  rw [hnext]
  refine h.1.alloc ?_ rfl fun hplain => ?_
  · refine List.Perm.symm ((owned_readBuffer _).trans ?_)
    have hempty := owned_readBuffer s
    rw [hnone] at hempty
    exact List.Perm.cons _ hempty.symm
  · rw [show s.mSSLConfigured = false from hplain] at hconf
    cases hconf

/-! ## Unconfiguring -/

section configure

variable {D : Discipline monitor ConnectionEnd} {e : Entry} {stk : List Call} {g : Seen}
  {s : ConnectionEnd} {ptrs : List ℕ} {n : ℕ}

/-- A list is released by its field. -/
theorem sat_deleteOwned (l : Option OwnList) (h : g.books.Accounts (listPtrs l ++ ptrs) n)
    {Q : Post monitor ConnectionEnd Unit}
    (hQ : ∀ g' : Seen, g'.books.Accounts ptrs n → Q g' (some ()) s) :
    (deleteList l).Sat stream.toContract D e stk Q g s := by
  cases l with
  | none => exact hQ g h
  | some l => exact sat_ask fun _ _ => ⟨decide_eq_true h.head_live, hQ _ h.release⟩

/-- A block is released by its field. -/
theorem sat_disposOwned (b : Option Block) (h : g.books.Accounts (blockPtrs b ++ ptrs) n)
    {Q : Post monitor ConnectionEnd Unit}
    (hQ : ∀ g' : Seen, g'.books.Accounts ptrs n → Q g' (some ()) s) :
    (disposBlock b).Sat stream.toContract D e stk Q g s := by
  cases b with
  | none => exact hQ g h
  | some b => exact sat_ask fun _ _ => ⟨decide_eq_true fun _ => h.head_live, hQ _ h.release⟩

/-- The message is released by its field. -/
theorem sat_deleteOwnedMessage (p : Option ℕ) (h : g.books.Accounts (p.toList ++ ptrs) n)
    {Q : Post monitor ConnectionEnd Unit}
    (hQ : ∀ g' : Seen, g'.books.Accounts ptrs n → Q g' (some ()) s) :
    (deleteMessage p).Sat stream.toContract D e stk Q g s := by
  cases p with
  | none => exact hQ g h
  | some p => exact sat_ask fun _ _ => ⟨decide_eq_true h.head_live, hQ _ h.release⟩

/-- `SSLUnconfigure` releases all there is. -/
theorem sat_sslUnconfigure (h : Holds g s) {Q : Post monitor ConnectionEnd Unit}
    (hQ : ∀ g' : Seen, g'.books.live = [] → Holds g' s.unconfigured →
      Q g' (some ()) s.unconfigured) :
    sslUnconfigure.Sat stream.toContract D e stk Q g s := by
  have hbooks := h.books
  simp only [owned, objects, List.append_assoc] at hbooks
  rw [← List.append_nil (blockPtrs s.mSSLHostname)] at hbooks
  simp only [NewtonTLS.sslUnconfigure, Code.sat_bind, Code.sat_get, Post.andThen_some]
  refine sat_deleteOwned _ hbooks fun g₁ h₁ => ?_
  simp only [Post.andThen_some, Code.sat_bind]
  refine sat_deleteOwned _ h₁ fun g₂ h₂ => ?_
  simp only [Post.andThen_some, Code.sat_bind]
  refine sat_deleteOwned _ h₂ fun g₃ h₃ => ?_
  simp only [Post.andThen_some, Code.sat_bind]
  refine sat_disposOwned _ h₃ fun g₄ h₄ => ?_
  simp only [Post.andThen_some, Code.sat_bind]
  refine sat_disposOwned _ h₄ fun g₅ h₅ => ?_
  simp only [Post.andThen_some, Code.sat_bind]
  refine sat_deleteOwnedMessage _ h₅ fun g₆ h₆ => ?_
  simp only [Post.andThen_some, Code.sat_bind]
  refine sat_disposOwned _ h₆ fun g₇ h₇ => ?_
  exact hQ g₇ h₇.balances.settled ⟨h₇, fun _ => rfl⟩

/-! ## Configuring -/

/-- `SSLConfigure` has not made anything yet, and the books are still `L`. -/
structure Configuring (L : Ledger ℕ) (g : Seen) (s : ConnectionEnd) : Prop where
  holds : Holds g s
  plain : s.mSSLConfigured = false
  configuring : g.configuring = true
  books : g.books = L

/-- Only what is owned and the flag are looked at. -/
theorem Configuring.same {L : Ledger ℕ} {s' : ConnectionEnd} (h : Configuring L g s)
    (h' : Holds g s') (hconf : s'.mSSLConfigured = s.mSSLConfigured) : Configuring L g s' :=
  ⟨h', hconf.trans h.plain, h.configuring, h.books⟩

/-- The blocks that come and go with the root certificates are not in the books. -/
theorem loadRules (L : Ledger ℕ) (D : Discipline monitor ConnectionEnd) (stk : List Call) :
    LoadRules stream.toContract D stk (Configuring L) (fun _ _ => True) (· ∉ L.made) where
  same := fun _ _ _ _ hptr h => h.same (h.holds.same rfl rfl rfl hptr) rfl
  load := by
    intro g s q a hq h _
    cases q <;> first | exact ⟨rfl, h⟩ | cases hq
  parse := fun _ _ _ _ h _ _ => ⟨rfl, h.same (h.holds.same rfl rfl rfl rfl) rfl⟩
  alloc := by
    intro g s size a h
    have hnext : next g (.asked (.newPtr s.nextPtr size) a) = g := by
      rw [next, if_pos h.configuring]
    refine ⟨rfl, ?_, ?_⟩
    · rw [show monitor.next = next from rfl, hnext]
      exact h.same h.holds.skip rfl
    · rw [← h.books]
      exact h.holds.books.not_made
  release := by
    intro g s p a h hp
    rw [← h.books] at hp
    have hnext : next g (.asked (.disposPtr p) a) = g := by
      rw [next, Seen.release, h.holds.books.balances.release_of_not_made hp]
    refine ⟨decide_eq_true fun hmade => absurd hmade hp, ?_⟩
    rw [show monitor.next = next from rfl, hnext]
    exact h
  stored := fun _ _ _ _ _ _ _ _ _ _ => trivial

/-- A list is made. -/
theorem sat_newOwned (h : g.books.Accounts ptrs s.nextPtr) {Q : Post monitor ConnectionEnd OwnList}
    (hQ : ∀ g' : Seen, g'.books.Accounts (s.nextPtr :: ptrs) (s.nextPtr + 1) →
      Q g' (some ⟨s.nextPtr, BufferList.empty⟩) { s with nextPtr := s.nextPtr + 1 }) :
    newBufferList.Sat stream.toContract D e stk Q g s := by
  simp only [newBufferList, Code.sat_bind]
  refine sat_freshPtr ?_
  simp only [Post.andThen_some, Code.sat_bind]
  exact sat_ask fun _ _ => ⟨rfl, hQ _ h.alloc⟩

/-- The new objects are owned by their fields. -/
theorem sat_setUpOwned (h : g.books.Accounts [] s.nextPtr) (hhost : s.mSSLHostname = none)
    {Q : Post monitor ConnectionEnd Int} (hQ : ∀ g' s', Holds g' s' → Q g' (some 0) s') :
    setUpFields.Sat stream.toContract D e stk Q g s := by
  simp only [setUpFields, Code.sat_bind]
  refine sat_freshPtr ?_
  simp only [Post.andThen_some, Code.sat_bind]
  refine sat_ask fun _ _ => ⟨rfl, ?_⟩
  have h₀ : (next g (.asked (.newAsyncMessage s.nextPtr) ())).books.Accounts [s.nextPtr]
      (s.nextPtr + 1) := h.alloc
  simp only [Post.andThen_some, Code.sat_bind]
  refine sat_newOwned h₀ fun g₁ h₁ => ?_
  simp only [Post.andThen_some, Code.sat_bind]
  refine sat_newOwned h₁ fun g₂ h₂ => ?_
  simp only [Post.andThen_some, Code.sat_bind]
  refine sat_newOwned h₂ fun g₃ h₃ => ?_
  simp only [Post.andThen_some, Code.sat_bind, Code.sat_modify]
  refine sat_ask fun _ _ => ⟨rfl, hQ g₃ _ ⟨h₃.reorder ?_, fun hplain => by cases hplain⟩⟩
  -- the message was made first, and the lists in the order in which they are released
  simp only [owned, objects, listPtrs, blockPtrs, hhost, Option.map_some, Option.map_none,
    Option.toList_some, Option.toList_none, List.nil_append, List.append_nil, List.singleton_append]
  rw [List.perm_iff_count]
  intro p
  simp only [List.count_cons, List.count_nil]
  omega

/-- The hostname is released, and then the objects are made. -/
theorem sat_setUpNamed (h : Holds g s) (hplain : s.mSSLConfigured = false)
    {Q : Post monitor ConnectionEnd Int} (hQ : ∀ g' s', Holds g' s' → Q g' (some 0) s') :
    Code.Sat stream.toContract D e stk Q (do
      passHostname s.mSSLHostname
      setUpFields) g s := by
  have hbooks := h.books
  rw [owned, h.plain hplain, List.nil_append] at hbooks
  simp only [Code.sat_bind]
  cases hhost : s.mSSLHostname with
  | none =>
    rw [hhost] at hbooks
    exact sat_setUpOwned hbooks hhost hQ
  | some b =>
    rw [hhost] at hbooks
    simp only [passHostname, Code.sat_bind]
    refine (quietQuery rfl).sat_ask fun _ => ?_
    simp only [Post.andThen_some, Code.sat_bind]
    refine sat_ask fun _ _ => ⟨decide_eq_true fun _ => hbooks.head_live, ?_⟩
    exact sat_setUpOwned (s := { s with mSSLHostname := none }) hbooks.release rfl hQ

/-- The setup releases the hostname, and then allocates. -/
theorem sat_setUpSSL {L : Ledger ℕ} (h : Configuring L g s) {Q : Post monitor ConnectionEnd Int}
    (hQ : ∀ g' s', Holds g' s' → Q g' (some 0) s') :
    setUpSSL.Sat stream.toContract D e stk Q g s := by
  refine sat_setUpSSL_phases (J := Configuring L) (quietQuery rfl) h ?_ fun g' i f b h' => ?_
  · intro q a g' hq _ h' _
    cases q <;> first | exact ⟨rfl, h'⟩ | cases hq
  · exact sat_setUpNamed (s := s.withTimer i f b) (h'.holds.same rfl rfl rfl rfl) h'.plain hQ

/-- `SSLConfigure` that finds no configuration keeps the books. -/
theorem sat_configure (fuel : ℕ) (h : Holds g s) (hplain : s.mSSLConfigured = false) :
    (sslConfigure fuel).Sat stream.toContract D e stk
      (ConfigureEnds (M := monitor) Holds (fun _ _ g' s' => Holds g' s') g s) g s := by
  have hend : ∀ (g' : Seen) (r : Option Int) (s' : ConnectionEnd), Holds g' s' →
      ConfigureEnds (M := monitor) Holds (fun _ _ g' s' => Holds g' s') g s g' r s' :=
    fun g' r s' h' => ⟨fun _ => h', fun _ => h'⟩
  have R := loadRules g.books D stk
  refine sat_sslConfigure_phases R.toParseRules R (fun a _ => ⟨decide_eq_true fun p hp => ?_, ?_⟩)
    ?_ (fun g s a h' hperm => R.load g s _ a rfl h' hperm) fuel
    (fun _ _ _ h' => hend _ _ _ h'.holds)
    (fun _ _ _ _ h' => hend _ _ _ h'.holds) (fun _ _ h' => hend _ _ _ h'.holds)
    (fun g' _ h' => sat_setUpSSL h' fun _ _ => hend _ _ _)
    fun g' v _ h' => sat_setUpSSL h' fun _ _ => hend _ _ _
  · have howned := h.books.balances.live_iff.mp hp
    rwa [owned, h.plain hplain, List.nil_append] at howned
  · exact ⟨⟨h.books, h.plain⟩, hplain, rfl, rfl⟩
  · intro q a g' hq h' _
    cases q <;> first | exact ⟨rfl, h'⟩ | cases hq

end configure

/-! ## The requests -/

section requests

variable {D : Discipline monitor ConnectionEnd} {e : Entry} {stk : List Call} {g : Seen}
  {s : ConnectionEnd}

/-- The hostname is owned from the option on, once. -/
theorem sat_hostname (h : Running g s) (hostname : List Byte)
    {Q : Post monitor ConnectionEnd OptionResult} (hQ : ∀ g' v s', Holds g' s' → Q g' v s') :
    (sslHostnameOption hostname).Sat stream.toContract D e stk Q g s := by
  simp only [sslHostnameOption, Code.sat_bind, Code.sat_get, Post.andThen_some]
  cases hhost : s.mSSLHostname with
  | some b => exact hQ _ _ _ h.1
  | none =>
    have hnext : ∀ size a, next g (.asked (.newPtr s.nextPtr size) a) = g.alloc s.nextPtr := by
      intro size a
      rw [next, h.2, if_neg Bool.false_ne_true]
    simp only [newPtr, Code.sat_bind]
    refine sat_freshPtr ?_
    simp only [Post.andThen_some, Code.sat_bind]
    refine sat_ask fun a _ => ⟨rfl, ?_⟩
    rw [show monitor.next = next from rfl, hnext]
    refine hQ _ _ _ (h.1.alloc ?_ rfl h.1.plain)
    show (s.nextPtr :: owned s).Perm (objects s ++ [s.nextPtr])
    rw [owned, hhost]
    exact (List.perm_append_singleton _ _).symm.trans (by rw [blockPtrs]; simp)

/-- The options that set something keep the books in order. -/
theorem sat_setter (fuel : ℕ) (o : TOption) (ho : o.isSetter = true) (h : Running g s) :
    (processOptionStart fuel o).Sat stream.toContract D e stk (fun g' _ s' => Holds g' s') g s := by
  -- an option ends by giving back its result, which takes and releases nothing
  have hany : ∀ {α β : Type} {k : α → CE β}, (∀ a, ∃ b, k a = pure b) → ∀ (g' : Seen)
      (v : Option α) (s' : ConnectionEnd), Holds g' s' →
      Post.andThen stream.toContract D e stk (fun g' _ s' => Holds g' s') k g' v s' := by
    intro α β k hk g' v s' h'
    cases v with
    | none => exact h'
    | some a =>
      obtain ⟨b, hb⟩ := hk a
      simp only [Post.andThen_some, hb, Code.sat_pure]
      exact h'
  cases o with
  | sslHostname hostname =>
    simp only [processOptionStart, Code.sat_bind]
    exact sat_hostname h hostname fun g' v s' h' => hany (fun a => ⟨_, rfl⟩) g' v s' h'
  | sslVerifyMode verifyMode =>
    simp only [processOptionStart, Code.sat_bind]
    exact sat_sslVerifyModeOption verifyMode
      (hany (fun a => ⟨_, rfl⟩) g _ _ (h.1.same rfl rfl rfl rfl))
  | sslCertificateAuthority o =>
    -- the parser works in the heap for the root certificates, whose blocks are not booked
    have R : ParseRules stream.toContract D stk Holds fun _ _ => True :=
      { same := fun _ _ _ _ hptr h => h.same rfl rfl rfl hptr
        load := by
          intro g s q a hq h _
          cases q <;> first | exact ⟨rfl, h⟩ | cases hq
        parse := fun _ _ _ _ h _ _ => ⟨rfl, h.same rfl rfl rfl rfl⟩ }
    simp only [processOptionStart, Code.sat_bind]
    exact sat_sslCertificateAuthorityOption R o (h.1.same rfl rfl rfl rfl) (fun _ _ _ => trivial)
      (fun r g' v h' => hany (fun a => ⟨_, rfl⟩) g' _ _ h') fun g' v h' => h'
  | sslPeerCertificate o =>
    simp only [processOptionStart, Code.sat_bind]
    exact sat_sslPeerCertificateOption (quietQuery rfl) o fun p =>
      hany (fun a => ⟨_, rfl⟩) g _ _ h.1
  | sslEnable enabled => cases ho
  | other label => cases ho

/-- What is asked of the environment. -/
def released : List Call → Seen → ConnectionEnd → Label CESig → Bool := fun _ _ => findsReleased

theorem entryRules :
    EntryRules stream.toContract released Holds fun _ _ g' s' => Holds g' s' where
  basic := callRules released
  enter := by
    intro stk e g s _ _ h
    obtain ⟨hev, hnext, -⟩ := kept (x := .enter e) h (by simp)
    exact ⟨hev, fun _ => hnext⟩
  leave := by
    intro e v g s _ h
    obtain ⟨hev, hnext, -⟩ := kept (x := .leave e v) h (by simp)
    exact ⟨hev, hnext⟩
  opened := by
    intro stk g s hok h
    have hplain : s.mSSLConfigured = false := by simpa [released, findsReleased] using hok
    -- `OpenStart` forgets a configuration; nothing may hang on it
    exact (running h .openStart).1.same rfl rfl hplain.symm rfl
  connects := fun _ _ _ _ h _ => (running h .connectStart).1
  connected := fun _ r _ _ _ h _ => ConnectionEnd.of_connected r
    (running h (.connectCompleteCB r)).1
    ((running h (.connectCompleteCB r)).1.same rfl rfl rfl rfl)
  enabled := fun _ b _ _ _ h =>
    (running h (.processOptionStart (.sslEnable b))).1.same rfl rfl rfl rfl
  closed := by
    intro stk g s _ h _
    obtain ⟨hev, hnext, -⟩ := kept (x := .resumes (.inner .closeStart) ()) h (by simp)
    exact ⟨hev, hnext, fun _ => sat_sslUnconfigure hnext fun _ _ h' => h'⟩
  delete := by
    intro stk g s hout hok h
    have hentered := (running h .delete).1
    refine (callRules released).sat_delete_of_gone ⟨rfl, hout⟩
      (fun g s => g.books.live = [] ∧ Holds g s)
      (fun g s a hgone => ⟨decide_eq_true hgone.1, hgone.2⟩)
      (fun _ => quietQuery rfl) (fun _ _ _ h => h.same rfl rfl rfl rfl) (fun hplain => ?_)
      fun _ => sat_sslUnconfigure hentered fun _ hlive h' => ⟨rfl, hlive, h'⟩
    -- without a configuration there is no hostname either
    have hhost : s.mSSLHostname = none := by
      simpa [released, findsReleased, hplain] using hok
    have hbooks := hentered.books
    rw [owned, h.plain hplain, hhost] at hbooks
    exact ⟨hbooks.balances.settled, hentered⟩
  configure := by
    intro e stk fuel g s _ hbegins
    have hstart : Holds g s ∧ s.mSSLConfigured = false := by
      -- `SSLConfigure` writes over the pointers of the lists, so that there must be none
      refine hbegins.elim (P := fun g s => Holds g s ∧ s.mSSLConfigured = false)
        (fun g s hok h henabled => ?_) fun g s hok h hup => ?_
      · exact ⟨(running h .connectStart).1, by simpa [released, findsReleased, henabled] using hok⟩
      · refine ⟨(running h (.processOptionStart (.sslEnable true))).1.same rfl rfl rfl rfl, ?_⟩
        simpa [released, findsReleased, hup] using hok
    exact sat_configure fuel hstart.1 hstart.2
  configured := fun _ _ _ _ h => h
  setter := fun _ _ fuel o _ _ _ ho _ h => sat_setter fuel o ho (running h (.processOptionStart o))
  getSSL := by
    intro e stk fuel b threshold g s hout _ _ h hconf
    have hentered := running h e
    exact (sendRules released).sat_getFromSSL readBufferRules trivial hout fuel b threshold
      hentered.1 (started hentered hconf) fun _ _ h' => h'
  reread := fun _ fuel _ _ hout h _ hest _ =>
    (sendRules released).sat_retryRead readBufferRules trivial ⟨rfl, hout⟩ fuel h hest
      fun _ _ h' => h'
  put := fun _ b _ _ hout h hconf _ hest =>
    (sendRules released).sat_putToSSL trivial ⟨rfl, hout⟩ b h hconf hest fun _ _ h' => h'
  terminate := fun _ _ _ hout _ h =>
    (sendRules released).sat_terminateStart trivial ⟨rfl, hout⟩ (running h .terminateStart).1
      fun _ _ h' => h'
  begins := fun _ _ _ _ _ _ => rfl
  upgrades := fun _ _ _ => rfl
  handshake := by
    intro e stk g s _ hcause
    have h : Holds g s := hcause.inv (fun _ e _ _ _ _ h => (running h e).1) (fun _ _ _ _ h => h)
      fun _ _ _ h => h
    obtain ⟨hev, hnext, -⟩ := kept (x := .calls e .mbedtlsSslHandshake) h (by simp)
    exact ⟨hev, hnext⟩
  outcome := by
    intro e stk g s g' s' r _ _ h _ _
    obtain ⟨hev, hnext, -⟩ := kept (x := .resumes .mbedtlsSslHandshake r) h (by simp)
    -- what the client is told takes nothing and releases nothing
    have htells : ∀ (g : Seen) (s : ConnectionEnd) (c : ClientCall), Holds g s →
        Tells stream.toContract Holds e g s c := by
      intro g s c h
      obtain ⟨hev, hnext, -⟩ := kept (x := .calls e (.client c)) h (by simp)
      exact ⟨hev, hnext⟩
    refine ⟨hev, fun _ => htells _ _ _ (hnext.same rfl rfl rfl rfl), fun _ _ a i f b => ?_,
      fun _ => hnext⟩
    exact ⟨rfl, htells _ _ _ (hnext.same rfl rfl rfl rfl)⟩

end requests

/-- Every function meets the contract. -/
theorem meets (fuel : ℕ) : stream.toContract.Meets (discipline monitor released) (code fuel) :=
  StreamContract.meets_entries entryRules fuel fun _ _ _ _ he _ _ h => serves he h

/-! ## Runs -/

/-- The object that `New` makes owns nothing. -/
theorem holds_new (memory : ConnectionEnd) : Holds ⟨false, .empty⟩ (new memory) :=
  ⟨.start _, fun _ => rfl⟩

/-- **The resources are balanced** in every run whose requests find released what they do not
release: everything allocated is released exactly once, by `Delete` at the latest, and no live
object loses its field. -/
theorem resources_balanced {fuel : ℕ} {memory : ConnectionEnd} {cfg : Config CESig ConnectionEnd}
    (h : Reachable (discipline monitor released) (code fuel) (new memory) cfg) :
    cfg.log.Obeys monitor fun g s x => balanced g s x = true :=
  Contract.log_obeys (meets fuel) (holds_new memory) h

/-- The connection is refused and closed, made and read from, terminated and closed, opened and
made again, and deleted. -/
def balancedRun : List (Move CESig) :=
  [enter .openStart, back, enter (.processOptionStart (.sslEnable true)),
    enter (.processOptionStart (.sslHostname [119])), enter .connectStart, back,
    enter (.connectCompleteCB (-1)), back, enter .closeStart, back,
    enter (.processOptionStart (.sslHostname [119])), enter .connectStart, back,
    enter (.connectCompleteCB 0), back, back, enter (.getBytesStart 0), backRead [], back,
    enter (.getBytesStart 0), back, enter .terminateStart, back, back, enter .closeStart, back,
    enter .openStart, back, enter (.processOptionStart (.sslEnable true)), enter .connectStart,
    back, enter .delete, back, back]

/-- Sixteen objects are allocated, and all are released. -/
theorem resources_balanced_balancedRun :
    ∃ cfg, (Config.start (new zeroMemory)).run (discipline monitor released) (code 1) balancedRun =
        some cfg ∧
      (monitor.run cfg.log).books.made.length = 16 ∧ (monitor.run cfg.log).books.live = [] ∧
      cfg.log.Obeys monitor fun g s x => balanced g s x = true := by
  have hrun : ((Config.start (new zeroMemory)).run (discipline monitor released) (code 1)
      balancedRun).map (fun cfg => ((monitor.run cfg.log).books.made.length,
        (monitor.run cfg.log).books.live)) = some (16, []) := by
    decide +kernel
  obtain ⟨cfg, hcfg, hseen⟩ := Option.map_eq_some_iff.mp hrun
  obtain ⟨hmade, hlive⟩ := Prod.mk.inj hseen
  exact ⟨cfg, hcfg, hmade, hlive, resources_balanced (.of_run _ .start hcfg)⟩

/-- The connection is refused, and tried again: what the first configuration has made stays
behind. -/
def retriedRun : List (Move CESig) :=
  [enter .openStart, back, enter (.processOptionStart (.sslEnable true)), enter .connectStart, back,
    enter (.connectCompleteCB (-1)), back, enter .connectStart, back, enter .delete, back, back]

/-- A second configuration loses the objects of the first one. -/
theorem resources_not_balanced :
    ¬ ∀ (fuel : ℕ) (memory : ConnectionEnd) (cfg : Config CESig ConnectionEnd),
      Reachable (discipline monitor fun _ _ _ _ => true) (code fuel) (new memory) cfg →
        cfg.log.Obeys monitor fun g s x => balanced g s x = true := by
  intro hall
  have hbad : ((Config.start (new zeroMemory)).run (discipline monitor fun _ _ _ _ => true) (code 0)
      retriedRun).map (fun cfg => Log.check monitor balanced monitor.init cfg.log) =
        some false := by
    decide +kernel
  obtain ⟨cfg, hreach, hnot⟩ := Reachable.not_obeys retriedRun hbad
  exact hnot (hall 0 zeroMemory cfg hreach)

/-- Opened again while configured, upgraded twice, deleted with a hostname and no configuration:
every condition is needed. -/
def unreleasedRuns : List (List (Move CESig)) :=
  [[enter .openStart, back, enter (.processOptionStart (.sslEnable true)), enter .connectStart,
      back, enter .openStart, back, enter .delete],
    [enter .openStart, back, enter .connectStart, back, enter (.connectCompleteCB 0), back,
      enter (.processOptionStart (.sslEnable true)), back, back,
      enter (.processOptionStart (.sslEnable true))],
    [enter .openStart, back, enter (.processOptionStart (.sslHostname [119])), enter .delete]]

example : unreleasedRuns.map (fun moves =>
    ((Config.start (new zeroMemory)).run (discipline monitor fun _ _ _ _ => true) (code 0)
      moves).map fun cfg => Log.check monitor balanced monitor.init cfg.log) =
    [some false, some false, some false] := by
  decide +kernel

end ResourceBalance

end NewtonTLS
