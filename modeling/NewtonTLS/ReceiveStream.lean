/-
# The ciphertext that is received

`GetCompleteCB` appends what the inner end has delivered to `mSSLRecvBuffer`, and
`SSLRecvCallback` hands it out and asks for more.  A call that takes everything that is
held keeps the stream (`received_in_order`).  A call for less than is held moves the tail
from behind the end of the block to its front, and the tail is lost (`not_in_order`).
-/
import NewtonTLS.ConnectionEndStreams

open Reentrant

namespace NewtonTLS

namespace ReceiveStream

/-! ## What is observed -/

/-- The bytes that the inner end has delivered and the bytes handed out to mbedTLS since the
configuration, and how many gets are outstanding. -/
structure Seen : Type where
  delivered : List Byte
  returned : List Byte
  outstanding : ℕ
  deriving DecidableEq

/-- What a completion delivers. -/
def arrived (wrote : List Byte) (result : Int) : List Byte := if result = 0 then wrote else []

/-- What a call has handed out. -/
def handedOut : Option Value → List Byte
  | some (.recv _ bytes) => bytes
  | _ => []

/-- One event. -/
def next (g : Seen) : Label CESig → Seen
  | .asked .sslConfigured _ => ⟨[], [], 0⟩
  | .calls _ (.inner (.getBytesImmediateStart _ _)) => { g with outstanding := g.outstanding + 1 }
  | .enter (.getCompleteCB _ wrote result _ _) =>
    { g with delivered := g.delivered ++ arrived wrote result, outstanding := g.outstanding - 1 }
  | .leave (.sslRecvCallback _) v => { g with returned := g.returned ++ handedOut v }
  | _ => g

/-- No byte has been received or handed on. -/
abbrev monitor : Monitor CESig where
  Obs := Seen
  init := ⟨[], [], 0⟩
  next := next

/-- The inner end completes a get that is outstanding, after having written no more than the
segment of `mGetDataBuffer` takes, and reports what it has written.  mbedTLS asks for at least
one byte. -/
def completesGet (g : Seen) (s : ConnectionEnd) : Label CESig → Bool
  | .enter (.getCompleteCB of wrote result _ count) =>
    !s.mSSLConfigured || (decide (0 < g.outstanding) &&
      decide (result = 0 → count = wrote.length) &&
      match s.mGetDataBuffer with
      | some getl => decide (of = .own getl.ptr) && decide (wrote.length ≤ getl.list.getSize)
      | none => false)
  | .enter (.sslRecvCallback len) => decide (0 < len)
  | _ => true

/-- The content of the block of `mSSLRecvBuffer`. -/
def received (s : ConnectionEnd) : List Byte := (s.mSSLRecvBuffer.map Block.bytes).getD []

/-- The `mSSLRecvBufferSize` bytes held in `mSSLRecvBuffer`. -/
def held (s : ConnectionEnd) : List Byte := (received s).take s.mSSLRecvBufferSize

/-- What has been handed out and what is held is what has been delivered. -/
def inOrder (g : Seen) (s : ConnectionEnd) : Bool :=
  !s.mSSLConfigured || decide (g.returned ++ held s = g.delivered)

/-- A call of `SSLRecvCallback` that gets bytes takes all that are held. -/
def takesAll (s : ConnectionEnd) : Label CESig → Bool
  | .enter (.sslRecvCallback len) =>
    !s.mSSLConfigured || decide (s.mRecvError ≠ 0) || s.mPeerClosed ||
      decide (s.mSSLRecvBufferSize ≤ len)
  | _ => true

/-! ## The invariant -/

/-- The receiver of a configured end holds what has been delivered and not handed out. -/
structure Holds (g : Seen) (s : ConnectionEnd) (getl : OwnList) : Prop where
  get_eq : s.mGetDataBuffer = some getl
  size : (received s).length = s.mSSLRecvBufferSize
  stream : g.returned ++ received s = g.delivered
  outstanding : g.outstanding = if s.mRecvPending then 1 else 0
  position : s.mRecvPending = true → getl.list.pos = 0
  idle : s.mRecvPending = false → s.mRecvError = 0 → s.mPeerClosed = false →
    getl.list = BufferList.empty

/-- The receiver of a configured end keeps the stream. -/
def Receives (g : Seen) (s : ConnectionEnd) : Prop :=
  s.mSSLConfigured = true → ∃ getl, Holds g s getl

/-- Without SSL nothing is claimed. -/
theorem Receives.plain {g : Seen} {s : ConnectionEnd} (h : s.mSSLConfigured = false) :
    Receives g s := by
  intro hconf
  rw [h] at hconf
  cases hconf

/-- The invariant says that the bytes are in order. -/
theorem Receives.inOrder {g : Seen} {s : ConnectionEnd} (h : Receives g s) :
    inOrder g s = true := by
  unfold ReceiveStream.inOrder
  cases hconf : s.mSSLConfigured with
  | false => rfl
  | true =>
    obtain ⟨getl, hholds⟩ := h hconf
    have hheld : held s = received s := by
      rw [held, List.take_of_length_le hholds.size.le]
    simp [hheld, hholds.stream]

/-- The part of the receiving side that the invariant looks at. -/
def looked (v : ReceiveValues) : ReceiveValues := { v with inProgress := false, nextPtr := 0 }

/-- Only the configuration and the receiving fields are looked at. -/
theorem Receives.same {g : Seen} {s s' : ConnectionEnd} (h : Receives g s)
    (hconf : s'.mSSLConfigured = s.mSSLConfigured)
    (hvalues : looked s'.receiveValues = looked s.receiveValues) :
    Receives g s' := by
  intro hconf'
  obtain ⟨getl, hholds⟩ := h (hconf ▸ hconf')
  simp only [looked, ConnectionEnd.receiveValues, ReceiveValues.mk.injEq, and_true,
    true_and] at hvalues
  obtain ⟨hpending, hclosed, hlist, hbuffer, hsize, herror⟩ := hvalues
  refine ⟨getl, ⟨?_, ?_, ?_, ?_, ?_, ?_⟩⟩
  · rw [hlist, hholds.get_eq]
  · rw [received, hbuffer, hsize]
    exact hholds.size
  · rw [received, hbuffer]
    exact hholds.stream
  · rw [hpending, hholds.outstanding]
  · rw [hpending]
    exact hholds.position
  · rw [hpending, herror, hclosed]
    exact hholds.idle

/-- How much can be held once the inner end has filled `mGetDataBuffer`. -/
def reach (s : ConnectionEnd) : ℕ :=
  s.mSSLRecvBufferSize + s.mGetDataBuffer.elim 0 fun getl => getl.list.getSize

/-- The contract.  Inside of mbedTLS nothing but `SSLRecvCallback` makes room for more. -/
def stream : StreamContract monitor where
  Inv := Receives
  Every := fun _ _ _ => True
  Within := fun s s' => reach s' ≤ reach s
  refl := fun _ => le_rfl
  trans := fun _ _ _ h h' => h'.trans h

/-- The contract looks at the receiving direction only. -/
theorem sees : stream.Sees Label.isReceive where
  every := fun _ _ _ _ => trivial
  quiet := by
    intro g x hx
    cases x with
    | enter e => cases e <;> first | rfl | cases hx
    | leave e => cases e <;> first | rfl | cases hx
    | asked q => cases q <;> first | rfl | cases hx
    | calls e c =>
      cases c with
      | inner c => cases c <;> first | rfl | cases hx
      | _ => rfl
    | resumes => rfl

/-! ## The functions of the receiving side -/

section rules

variable {M : Monitor CESig} {K : Contract M ConnectionEnd} {D : Discipline M ConnectionEnd}
  {e : Entry} {stk : List Call} {g : M.Obs} {s : ConnectionEnd}

/-- Writing behind a part of a block keeps that part. -/
theorem writeAt_append (bytes rest bs : List Byte) (h : rest.length ≤ bs.length) :
    writeAt (bytes ++ rest) bytes.length bs = bytes ++ bs := by
  have hdrop : (bytes ++ rest).drop (bytes.length + bs.length) = [] := by
    apply List.drop_eq_nil_of_le
    rw [List.length_append]
    omega
  rw [writeAt, List.take_left, hdrop, List.append_nil]

/-- There is no buffer, and nothing has been received. -/
theorem received_none (h : s.mSSLRecvBuffer = none) : received s = [] := by
  rw [received, h]
  rfl

/-- What has been received is in the buffer. -/
theorem received_some {b : Block} (h : s.mSSLRecvBuffer = some b) : received s = b.bytes := by
  rw [received, h]
  rfl

/-- The object after `wrote` has been appended to `mSSLRecvBuffer`. -/
def appended (s : ConnectionEnd) (getl : OwnList) (wrote : List Byte) (p n : ℕ) : ConnectionEnd :=
  { s with
    mSSLRecvBuffer := some ⟨p, received s ++ wrote⟩
    mGetDataBuffer := some { getl with list := BufferList.empty }
    mSSLRecvBufferSize := s.mSSLRecvBufferSize + wrote.length
    nextPtr := n }

/-- The bytes of a completion come behind those that are held. -/
theorem sat_appendReceived (hK : MemoryQuiet K) {getl : OwnList} {wrote : List Byte}
    (hget : s.mGetDataBuffer = some getl) (hsize : (received s).length = s.mSSLRecvBufferSize)
    (hread : (getl.list.reset.getn wrote.length).1 = wrote) {Q : Post M ConnectionEnd Unit}
    (hQ : ∀ p n, Q g (some ()) (appended s getl wrote p n)) :
    (appendReceived wrote.length).Sat K D e stk Q g s := by
  simp only [appendReceived, Code.sat_bind, Code.sat_get, Post.andThen_some]
  cases hbuf : s.mSSLRecvBuffer with
  | some b =>
    rw [received_some hbuf] at hsize
    simp only [reallocPtr, Code.sat_bind]
    refine (hK _ rfl).sat_ask fun _ => ?_
    simp only [hget, deref, Code.sat_pure, Post.andThen_some, Code.sat_bind, Code.sat_modify,
      Option.isSome_some, if_true, hread]
    -- the block has just the size of what it holds, so that it is grown, never cut
    have hblock : writeAt (b.bytes.take (s.mSSLRecvBufferSize + wrote.length) ++
        List.replicate (s.mSSLRecvBufferSize + wrote.length - b.bytes.length) 0)
        s.mSSLRecvBufferSize wrote = received s ++ wrote := by
      rw [received_some hbuf, ← hsize, List.take_of_length_le (Nat.le_add_right _ _)]
      apply writeAt_append
      rw [List.length_replicate]
      omega
    have hend := hQ b.ptr s.nextPtr
    rw [appended, ← hblock] at hend
    exact hend
  | none =>
    rw [received_none hbuf] at hsize
    simp only [Code.sat_bind]
    refine sat_newPtr hK _ ?_
    simp only [hget, deref, Code.sat_pure, Post.andThen_some, Code.sat_bind, Code.sat_modify,
      Option.isSome_none, Bool.false_eq_true, if_false, hread]
    have hblock : writeAt (List.replicate wrote.length 0) 0 wrote = received s ++ wrote := by
      rw [received_none hbuf]
      exact writeAt_append [] _ wrote (by rw [List.length_replicate])
    have hend := hQ s.nextPtr (s.nextPtr + 1)
    rw [appended, ← hblock, ← hsize] at hend
    exact hend

/-- What a completion does to a configured end: it closes, appends bytes, or keeps an error. -/
theorem sat_completion (hK : MemoryQuiet K) (hwake : Quiet K .sendAsyncReadMessage)
    {getl : OwnList} {wrote : List Byte} {result : Int} {eof : Bool} {count : ℕ}
    (hconf : s.mSSLConfigured = true) (hget : s.mGetDataBuffer = some getl)
    (hsize : (received s).length = s.mSSLRecvBufferSize)
    (hread : (getl.list.reset.getn wrote.length).1 = wrote)
    (hcount : result = 0 → count = wrote.length) {Q : Post M ConnectionEnd Unit}
    (hclosed : result = 0 → wrote = [] →
      Q g (some ()) { s with mRecvPending := false, mPeerClosed := true })
    (hgrown : result = 0 → wrote ≠ [] → ∀ p n,
      Q g (some ()) (appended { s with mRecvPending := false } getl wrote p n))
    (hfailed : result ≠ 0 →
      Q g (some ()) { s with mRecvPending := false, mRecvError := result }) :
    (getCompleteCB result eof count).Sat K D e stk Q g s := by
  simp only [getCompleteCB, Code.sat_bind, Code.sat_get, Post.andThen_some, Code.sat_ite,
    Code.sat_modify]
  refine ⟨fun _ => ⟨fun hresult => ⟨fun hnone => ?_, fun hsome => ?_⟩, fun herror => ?_⟩,
    fun hplain => absurd hconf hplain⟩
  · -- no bytes: the other side has closed
    have hwrote : wrote = [] := List.eq_nil_of_length_eq_zero ((hcount hresult).symm.trans hnone)
    have hend := hclosed hresult hwrote
    exact ⟨fun _ => hwake.sat_ask fun _ => hend, fun _ => hend⟩
  · obtain rfl := hcount hresult
    -- bytes: they come behind what is held
    refine sat_appendReceived (s := { s with mRecvPending := false }) hK hget hsize hread
      fun p n => ?_
    have hend := hgrown hresult (fun hwrote => hsome (by rw [hwrote]; rfl)) p n
    simp only [Post.andThen_some, Code.sat_bind, Code.sat_get, Code.sat_ite]
    exact ⟨fun _ => hwake.sat_ask fun _ => hend, fun _ => hend⟩
  · have hend := hfailed herror
    exact ⟨fun _ => hwake.sat_ask fun _ => hend, fun _ => hend⟩

/-- What is handed out: all that is held, or a part, and then the question what lies behind the
block is asked. -/
theorem sat_handOut (hK : MemoryQuiet K) {len : ℕ} {Q : Post M ConnectionEnd Value}
    (hall : ∀ b, s.mSSLRecvBuffer = some b → s.mSSLRecvBufferSize ≤ len →
      Q g (some (.recv s.mSSLRecvBufferSize (b.bytes.take s.mSSLRecvBufferSize)))
        { s with mSSLRecvBuffer := none, mSSLRecvBufferSize := 0 })
    (hpart : ∀ b, s.mSSLRecvBuffer = some b → len < s.mSSLRecvBufferSize → ∀ junk,
      K.Every g s (.asked (.bytesBehindBlock b.ptr (s.mSSLRecvBufferSize - len)) junk) ∧
      ∀ b', Q (M.next g (.asked (.bytesBehindBlock b.ptr (s.mSSLRecvBufferSize - len)) junk))
        (some (.recv len (b.bytes.take len)))
        { s with mSSLRecvBuffer := some b', mSSLRecvBufferSize := s.mSSLRecvBufferSize - len }) :
    (takeReceived len).Sat K D e stk Q g s := by
  simp only [takeReceived, Code.sat_bind, Code.sat_get, Post.andThen_some]
  refine sat_deref _ fun b hbuf => ?_
  simp only [Post.andThen_some, Code.sat_bind, Code.sat_ite]
  generalize hcopied : (if len < s.mSSLRecvBufferSize then len else s.mSSLRecvBufferSize) = copied
  by_cases hpartial : len < s.mSSLRecvBufferSize
  · rw [if_pos hpartial] at hcopied
    subst hcopied
    refine ⟨fun heq => absurd heq (Nat.ne_of_lt hpartial), fun _ => sat_ask fun junk _ => ?_⟩
    obtain ⟨hev, hQ⟩ := hpart b hbuf hpartial junk
    refine ⟨hev, ?_⟩
    simp only [Post.andThen_some, Code.sat_bind, reallocPtr]
    exact (hK _ rfl).sat_ask fun _ => hQ _
  · rw [if_neg hpartial] at hcopied
    subst hcopied
    refine ⟨fun _ => sat_disposPtr hK b ?_, fun hne => absurd rfl hne⟩
    exact hall b hbuf (Nat.not_lt.mp hpartial)

/-- The object when `SSLRecvCallback` asks the inner end for what is missing. -/
def requesting (s : ConnectionEnd) (getl : OwnList) (len : ℕ) : ConnectionEnd :=
  { s with
    mRecvPending := true
    mGetDataBuffer := some { getl with
      list := getl.list.insertLast (List.replicate (len - s.mSSLRecvBufferSize) 0) }
    mSSLReceiveInProgress := true }

/-- `SSLRecvCallback` stops at an error or at the end of file.  Else it may ask the inner end for
what is missing, and looks again in a state that satisfies `P`: it returns nothing, or hands out
what is held. -/
theorem sat_receive {len : ℕ} {P : M.Obs → ConnectionEnd → Prop} {Q : Post M ConnectionEnd Value}
    (hstops : ∀ n, s.mRecvError ≠ 0 ∨ s.mPeerClosed = true → Q g (some (.recv n [])) s)
    (hlooks : s.mRecvError = 0 → s.mPeerClosed = false → P g s)
    (hasks : s.mRecvError = 0 → s.mPeerClosed = false → s.mRecvPending = false →
      ∀ getl, s.mGetDataBuffer = some getl →
        CallKept K D e stk (fun g' s' => P g' { s' with mSSLReceiveInProgress := false }) g
          (requesting s getl len) (.inner (.getBytesImmediateStart (.own getl.ptr) 1)))
    (hnothing : ∀ n g' s', P g' s' → Q g' (some (.recv n [])) s')
    (hhands : ∀ g' s', P g' s' → (takeReceived len).Sat K D e stk Q g' s') :
    (sslRecvCallback len).Sat K D e stk Q g s := by
  simp only [sslRecvCallback, Code.sat_bind, Code.sat_get, Post.andThen_some, Code.sat_ite,
    Code.sat_pure]
  refine ⟨fun herror => hstops _ (.inl herror),
    fun hgood => ⟨fun hclosed => hstops _ (.inr hclosed), fun hopen => ?_⟩⟩
  have herror : s.mRecvError = 0 := by simpa using hgood
  have hopen' : s.mPeerClosed = false := by simpa using hopen
  refine ⟨fun hask => ?_, fun _ => ?_⟩
  · obtain ⟨-, hidle⟩ := hask
    refine sat_deref _ fun getl hget => ?_
    simp only [Post.andThen_some, Code.sat_bind, Code.sat_modify]
    refine (hasks herror hopen' (by simpa using hidle) getl hget).sat_inner fun g' s' h' => ?_
    simp only [Post.andThen_some, Code.sat_bind, Code.sat_get, Code.sat_modify, Code.sat_ite,
      Code.sat_pure]
    exact ⟨fun _ => hnothing _ _ _ h', fun _ => ⟨fun _ => hnothing _ _ _ h',
      fun _ => hhands _ _ h'⟩⟩
  · have h' := hlooks herror hopen'
    exact ⟨fun _ => hnothing _ _ _ h', fun _ => ⟨fun _ => hnothing _ _ _ h',
      fun _ => hhands _ _ h'⟩⟩

end rules

/-! ## Completions -/

section completions

variable {g : Seen} {s : ConnectionEnd}

/-- What the inner end writes leaves the size of the get. -/
theorem reach_innerWrites (of : ListRef) (wrote : List Byte) (s : ConnectionEnd) :
    reach (innerWrites of wrote s) = reach s := by
  unfold innerWrites
  split
  · next getl hget =>
    split
    · simp [reach, hget]
    · rfl
  · rfl

theorem configured_innerWrites (of : ListRef) (wrote : List Byte) (s : ConnectionEnd) :
    (innerWrites of wrote s).mSSLConfigured = s.mSSLConfigured := by
  obtain ⟨v, hv, -⟩ := innerWrites_eq_withReceive of wrote s
  rw [hv]
  rfl

/-- The object after the inner end has written into `mGetDataBuffer`. -/
def written (s : ConnectionEnd) (getl : OwnList) (wrote : List Byte) : ConnectionEnd :=
  { s with mGetDataBuffer := some { getl with list := getl.list.putn wrote } }

/-- What a completion that fits finds: its get is pending, and what the inner end has written is
read back. -/
theorem Receives.completed {of : ListRef} {wrote : List Byte} {result : Int} {eof : Bool}
    {count : ℕ} (hok : completesGet g s (.enter (.getCompleteCB of wrote result eof count)) = true)
    (h : Receives g s) (hconf : s.mSSLConfigured = true) :
    ∃ getl, Holds g s getl ∧ g.outstanding = 1 ∧ (result = 0 → count = wrote.length) ∧
      innerWrites of wrote s = written s getl wrote ∧
      ((getl.list.putn wrote).reset.getn wrote.length).1 = wrote ∧
      wrote.length ≤ getl.list.getSize := by
  obtain ⟨getl, hholds⟩ := h hconf
  simp only [completesGet, hconf, hholds.get_eq, Bool.not_true, Bool.false_or, Bool.and_eq_true,
    decide_eq_true_eq] at hok
  obtain ⟨⟨hout, hcount⟩, rfl, hlen⟩ := hok
  have hone := hholds.outstanding
  have hpending : s.mRecvPending = true := by
    by_contra hidle
    -- what completes was outstanding
    rw [if_neg hidle] at hone
    omega
  rw [if_pos hpending] at hone
  refine ⟨getl, hholds, hone, hcount, ?_, ?_, hlen⟩
  · rw [innerWrites, hholds.get_eq]
    exact if_pos rfl
  · exact BufferList.getn_reset_putn getl.list wrote (hholds.position hpending) hlen

/-- A completion of a configured end keeps the stream, and no more can be held than before.  Bytes
leave the error and the end of file as they are. -/
theorem sat_completes {M : Monitor CESig} {K : Contract M ConnectionEnd}
    {D : Discipline M ConnectionEnd} {e : Entry} {stk : List Call} {γ : M.Obs}
    (hK : MemoryQuiet K) (hwake : Quiet K .sendAsyncReadMessage)
    {of : ListRef} {wrote : List Byte} {result : Int} {eof : Bool} {count : ℕ}
    (hok : completesGet g s (.enter (.getCompleteCB of wrote result eof count)) = true)
    (h : Receives g s) (hconf : s.mSSLConfigured = true) {Q : Post M ConnectionEnd Unit}
    (hQ : ∀ s', Receives (next g (.enter (.getCompleteCB of wrote result eof count))) s' →
      reach s' ≤ reach s → (result = 0 → count ≠ 0 →
        s'.mRecvError = s.mRecvError ∧ s'.mPeerClosed = s.mPeerClosed) → Q γ (some ()) s') :
    (getCompleteCB result eof count).Sat K D e stk Q γ (innerWrites of wrote s) := by
  obtain ⟨getl, hholds, hone, hcount, hwrites, hread, hlen⟩ := h.completed hok hconf
  have hreach : reach (written s getl wrote) = reach s := by
    simp [reach, written, hholds.get_eq]
  have hidle : g.outstanding - 1 = 0 := by omega
  rw [hwrites]
  refine sat_completion (s := written s getl wrote) hK hwake hconf rfl hholds.size hread hcount
    ?_ ?_ ?_
  · intro hresult hwrote
    refine hQ _ (fun _ => ⟨_, rfl, hholds.size, ?_, hidle, ?_, ?_⟩) hreach.le ?_
    · show g.returned ++ received s = g.delivered ++ arrived wrote result
      rw [hwrote, arrived, ite_self, List.append_nil, hholds.stream]
    · intro hpending
      cases hpending
    · intro _ _ hopen
      cases hopen
    · intro _ hcount'
      rw [hcount hresult, hwrote] at hcount'
      exact absurd rfl hcount'
  · intro hresult _ p n
    refine hQ _ (fun _ => ⟨_, rfl, ?_, ?_, hidle, ?_, fun _ _ _ => rfl⟩) ?_
      fun _ _ => ⟨rfl, rfl⟩
    · show (received s ++ wrote).length = s.mSSLRecvBufferSize + wrote.length
      rw [List.length_append, hholds.size]
    · show g.returned ++ (received s ++ wrote) = g.delivered ++ arrived wrote result
      rw [arrived, if_pos hresult, ← List.append_assoc, hholds.stream]
    · intro hpending
      cases hpending
    · show s.mSSLRecvBufferSize + wrote.length + 0 ≤ reach s
      rw [reach, hholds.get_eq]
      exact Nat.add_le_add_left hlen _
  · -- an error: nothing arrives, and the stream stays as it is
    intro herror
    refine hQ _ (fun _ => ⟨_, rfl, hholds.size, ?_, hidle, ?_, ?_⟩) hreach.le
      fun hresult => absurd hresult herror
    · show g.returned ++ received s = g.delivered ++ arrived wrote result
      rw [arrived, if_neg herror, List.append_nil, hholds.stream]
    · intro hpending
      cases hpending
    · intro _ hnone
      exact absurd hnone herror

end completions

/-- The receiving side of an end that is not configured tells the client. -/
theorem sat_plainCompletion {M : Monitor CESig} {C : StreamContract M}
    {extra : List Call → M.Obs → ConnectionEnd → Label CESig → Bool} {e : Entry}
    {stk : List Call} {γ : M.Obs} {s₀ s : ConnectionEnd} {result : Int} {eof : Bool} {count : ℕ}
    (hconf : s.mSSLConfigured = false) (h : C.Kept stk s₀ γ s)
    (hcall : C.Every γ s (.calls e (.client (.getComplete (.code result) eof count))) ∧
      C.Inv (M.next γ (.calls e (.client (.getComplete (.code result) eof count)))) s)
    (hback : ∀ γ' s', C.Inv γ' s' →
      C.Every γ' s' (.resumes (.client (.getComplete (.code result) eof count)) ()) ∧
      C.Inv (M.next γ' (.resumes (.client (.getComplete (.code result) eof count)) ())) s')
    {Q : Post M ConnectionEnd Unit} (hQ : ∀ γ' s', C.Kept stk s₀ γ' s' → Q γ' (some ()) s') :
    (getCompleteCB result eof count).Sat C.toContract (discipline M extra) e stk Q γ s := by
  simp only [getCompleteCB, Code.sat_bind, Code.sat_get, Post.andThen_some, Code.sat_ite]
  refine ⟨fun hconf' => ?_, fun _ => ?_⟩
  · rw [hconf] at hconf'
    cases hconf'
  · exact (h.callKept rfl hcall fun _ γ' s' h' _ => hback γ' s' h').sat_client hQ

section receive

variable {extra : List Call → Seen → ConnectionEnd → Label CESig → Bool} {e : Entry}
  {stk : List Call} {g : Seen} {s : ConnectionEnd}

/-- `GetCompleteCB` keeps the stream, whoever it is called from. -/
theorem sat_getCompleteCB {of : ListRef} {wrote : List Byte} {result : Int} {eof : Bool}
    {count : ℕ} (hok : completesGet g s (.enter (.getCompleteCB of wrote result eof count)) = true)
    (h : Receives g s) {Q : Post monitor ConnectionEnd Unit}
    (hQ : ∀ g' s', stream.Kept stk s g' s' → Q g' (some ()) s') :
    (getCompleteCB result eof count).Sat stream.toContract (discipline monitor extra) e stk Q
      (next g (.enter (.getCompleteCB of wrote result eof count))) (innerWrites of wrote s) := by
  cases hconf : s.mSSLConfigured with
  | true =>
    exact sat_completes sees.memoryQuiet (fun _ _ _ => ⟨trivial, rfl⟩) hok h hconf
      fun s' h' hle _ => hQ _ s' ⟨h', fun _ => hle⟩
  | false =>
    have hplain := (configured_innerWrites of wrote s).trans hconf
    have hkept : stream.Kept stk s
        (next g (.enter (.getCompleteCB of wrote result eof count))) (innerWrites of wrote s) :=
      ⟨.plain hplain, fun _ => (reach_innerWrites of wrote s).le⟩
    exact sat_plainCompletion hplain hkept ⟨trivial, hkept.1⟩ (fun _ _ h' => ⟨trivial, h'⟩) hQ

/-! ## Handing out -/

/-- Everything that is held is handed out. -/
theorem Holds.handOut {getl : OwnList} (h : Holds g s getl) {b : Block}
    (hbuf : s.mSSLRecvBuffer = some b) :
    Holds { g with returned := g.returned ++ b.bytes.take s.mSSLRecvBufferSize }
      { s with mSSLRecvBuffer := none, mSSLRecvBufferSize := 0 } getl := by
  have hsize := h.size
  have hstream := h.stream
  rw [received_some hbuf] at hsize hstream
  refine ⟨h.get_eq, rfl, ?_, h.outstanding, h.position, h.idle⟩
  show g.returned ++ b.bytes.take s.mSSLRecvBufferSize ++ [] = g.delivered
  rw [List.append_nil, List.take_of_length_le hsize.le, hstream]

/-- All bytes that are held are handed out. -/
theorem Receives.handOut (h : Receives g s) {b : Block} (hbuf : s.mSSLRecvBuffer = some b) :
    Receives { g with returned := g.returned ++ b.bytes.take s.mSSLRecvBufferSize }
      { s with mSSLRecvBuffer := none, mSSLRecvBufferSize := 0 } := by
  intro hconf
  obtain ⟨getl, hholds⟩ := h hconf
  exact ⟨getl, hholds.handOut hbuf⟩

/-- An idle receiver asks for what is missing, and can hold no more than that. -/
theorem Holds.requesting {getl : OwnList} (h : Holds g s getl) {len : ℕ}
    (hsize : s.mSSLRecvBufferSize ≤ len) (hidle : s.mRecvPending = false)
    (herror : s.mRecvError = 0) (hopen : s.mPeerClosed = false) :
    Holds { g with outstanding := g.outstanding + 1 } (requesting s getl len)
      { getl with list := getl.list.insertLast (List.replicate (len - s.mSSLRecvBufferSize) 0) } ∧
    reach (ReceiveStream.requesting s getl len) = len := by
  have hempty := h.idle hidle herror hopen
  have hone := h.outstanding
  rw [if_neg (by rw [hidle]; exact Bool.false_ne_true)] at hone
  refine ⟨⟨rfl, h.size, h.stream, ?_, fun _ => ?_, ?_⟩, ?_⟩
  · show g.outstanding + 1 = 1
    rw [hone]
  · show getl.list.pos = 0
    rw [hempty]
    rfl
  · intro hpending
    cases hpending
  · show s.mSSLRecvBufferSize +
      (getl.list.insertLast (List.replicate (len - s.mSSLRecvBufferSize) 0)).getSize = len
    rw [hempty, BufferList.getSize, BufferList.bytes_insertLast, BufferList.bytes_empty,
      List.nil_append, List.length_replicate]
    omega

/-- A get is requested for what is missing. -/
theorem Receives.requesting (h : Receives g s) {getl : OwnList} {len : ℕ}
    (hget : s.mGetDataBuffer = some getl)
    (hsize : s.mSSLConfigured = true → s.mSSLRecvBufferSize ≤ len)
    (hidle : s.mRecvPending = false) (herror : s.mRecvError = 0) (hopen : s.mPeerClosed = false) :
    Receives { g with outstanding := g.outstanding + 1 } (requesting s getl len) ∧
      (s.mSSLConfigured = true → reach (ReceiveStream.requesting s getl len) = len) := by
  have hboth : s.mSSLConfigured = true →
      (∃ getl', Holds { g with outstanding := g.outstanding + 1 }
        (ReceiveStream.requesting s getl len) getl') ∧
      reach (ReceiveStream.requesting s getl len) = len := by
    intro hconf
    obtain ⟨getl', hholds⟩ := h hconf
    obtain rfl : getl' = getl := Option.some.inj (hholds.get_eq.symm.trans hget)
    obtain ⟨hrequest, hreach⟩ := hholds.requesting (hsize hconf) hidle herror hopen
    exact ⟨⟨_, hrequest⟩, hreach⟩
  exact ⟨fun hconf => (hboth hconf).1, fun hconf => (hboth hconf).2⟩

/-- What is held is within reach. -/
theorem size_le_reach (s : ConnectionEnd) : s.mSSLRecvBufferSize ≤ reach s := Nat.le_add_right _ _

/-- `SSLRecvCallback` keeps the stream when it takes all that is held. -/
theorem sat_sslRecvCallback {len : ℕ} (hstk : inTLS stk = true) (h : Receives g s)
    (hall : takesAll s (.enter (.sslRecvCallback len)) = true)
    {Q : Post monitor ConnectionEnd Value}
    (hQ : ∀ n bytes g' s', Receives { g' with returned := g'.returned ++ bytes } s' →
      Q g' (some (.recv n bytes)) s') :
    (sslRecvCallback len).Sat stream.toContract (discipline monitor extra) e stk Q g s := by
  have hnothing : ∀ n g' s', Receives g' s' → Q g' (some (.recv n [])) s' := by
    intro n g' s' h'
    apply hQ
    rw [List.append_nil]
    exact h'
  have hle : s.mRecvError = 0 → s.mPeerClosed = false → s.mSSLConfigured = true →
      s.mSSLRecvBufferSize ≤ len := by
    intro herror hopen hconf
    simpa [takesAll, hconf, herror, hopen] using hall
  refine sat_receive (P := fun g' s' => Receives g' s' ∧
      (s'.mSSLConfigured = true → s'.mSSLRecvBufferSize ≤ len))
    (fun n _ => hnothing n g s h) (fun herror hopen => ⟨h, hle herror hopen⟩) ?_
    (fun n g' s' h' => hnothing n g' s' h'.1) ?_
  · intro herror hopen hidle getl hget
    obtain ⟨hholds, hreach⟩ := h.requesting hget (hle herror hopen) hidle herror hopen
    refine ⟨trivial, hholds, fun _ g' s' hat hrely _ =>
      ⟨trivial, Receives.same hat rfl rfl, fun hconf => ?_⟩⟩
    obtain ⟨hcore, hwithin⟩ := StreamContract.rely_nested rfl hstk hrely
    -- what may be held when the inner end answers at once is just what is asked for
    calc s'.mSSLRecvBufferSize ≤ reach s' := size_le_reach s'
      _ ≤ reach (requesting s getl len) := hwithin
      _ = len := hreach (hcore.mSSLConfigured ▸ hconf)
  · rintro g' s' ⟨h', hsize⟩
    refine sat_handOut sees.memoryQuiet (fun b hbuf _ => hQ _ _ _ _ (h'.handOut hbuf)) ?_
    intro b _ hpart junk
    refine ⟨trivial, fun b' => hQ _ _ _ _ fun hconf => ?_⟩
    -- a part would be handed out only if there was more than `len`
    exact absurd (hsize hconf) (Nat.not_le.mpr hpart)

/-- The receiving side serves the contract when the inner end completes what is outstanding and
every call takes all that is held. -/
theorem serves_receive {fuel : ℕ} (he : e.receives = true) (hmay : mayEnter stk e = true)
    (hok : completesGet g s (.enter e) = true) (hall : takesAll s (.enter e) = true)
    (h : Receives g s) : stream.Serves extra fuel e stk g s := by
  refine ⟨trivial, ?_⟩
  cases e with
  | getCompleteCB of wrote result eof count =>
    simp only [code, unit, Code.sat_bind, Code.sat_modify, Post.andThen_some]
    exact sat_getCompleteCB hok h fun g' s' h' => ⟨trivial, h'.1, h'.2⟩
  | sslRecvCallback len =>
    have htop : atTLS stk = true := hmay
    refine sat_sslRecvCallback (inTLS_of_atTLS htop) h hall fun n bytes g' s' h' => ?_
    refine ⟨trivial, h', fun hnested => ?_⟩
    rw [nested, htop] at hnested
    simp at hnested
  | _ => cases he

end receive

/-! ## The requests -/

/-- A new configuration has received nothing. -/
theorem fresh (s : ConnectionEnd) (v : SetupValues) : Receives ⟨[], [], 0⟩ (s.configured v) :=
  fun _ => ⟨⟨v.getl, BufferList.empty⟩, rfl, rfl, rfl, rfl, fun _ => rfl, fun _ _ _ => rfl⟩

/-- The rules for bodies outside of the traffic. -/
theorem rules (extra : List Call → Seen → ConnectionEnd → Label CESig → Bool) :
    stream.Rules extra := by
  refine sees.rules_of_plain (fun _ hx => (Label.isReceive_apart hx).1) (fun _ _ => .plain) ?_
    (fun _ _ _ _ => trivial) fun _ s v => ⟨trivial, fresh s v⟩
  · intro g s s' hvalues h
    simp only [ConnectionEnd.streamValues, Prod.mk.injEq] at hvalues
    obtain ⟨hconf, -, hreceive⟩ := hvalues
    have hlooked := congrArg looked hreceive
    exact h.same hconf hlooked

/-! ## The stream -/

/-- Every function meets the contract. -/
theorem meets (fuel : ℕ) :
    stream.toContract.Meets
      (discipline monitor fun _ g s x => completesGet g s x && takesAll s x) (code fuel) := by
  refine stream.meets (rules _).requestRules fuel fun e stk g s he hmay hok h => ?_
  obtain ⟨hget, hall⟩ := (Bool.and_eq_true _ _).mp hok
  rcases e.isTraffic_cases he with hreceive | hsend | hrest
  · exact serves_receive hreceive hmay hget hall h
  · exact stream.serves_send sees.quiet_send (fun _ _ _ h => h.same rfl rfl)
      (fun _ _ => le_rfl) hsend h
  · exact stream.serves_rest sees.quiet_rest (fun _ _ _ _ _ h => h.same rfl rfl)
      (fun _ _ _ _ => le_rfl) hrest h

/-- **The ciphertext is handed out as it was delivered.**  Whenever control passes in a run in
which the inner end completes outstanding gets and every call of `SSLRecvCallback` takes all
that is held, what has been handed out and what is held is what has been delivered. -/
theorem received_in_order {fuel : ℕ} {memory : ConnectionEnd} {cfg : Config CESig ConnectionEnd}
    (h : Reachable (discipline monitor fun _ g s x => completesGet g s x && takesAll s x)
      (code fuel) (new memory) cfg) :
    cfg.log.Obeys monitor (monitor.AtPassage fun g s => inOrder g s = true) :=
  Contract.log_passes (meets fuel) (fun _ _ _ h => h.inOrder) (.plain rfl) h

/-- Connect with SSL and begin the handshake. -/
def handshakeRun : List (Move CESig) :=
  [enter .openStart, back, enter (.processOptionStart (.sslEnable true)), enter .connectStart,
    back, enter (.connectCompleteCB 0)]

/-- Five bytes are asked for, and three of them come at once. -/
def firstGet : List (Move CESig) :=
  [enter (.sslRecvCallback 5), enter (.getCompleteCB (.own 5) [1, 2, 3] 0 true 3), back]

/-- Three bytes are taken, then the header of a record, of which the inner end delivers a part
at once and the rest after the handshake has been suspended. -/
theorem received_in_order_recordRun :
    ∃ cfg, (Config.start (new zeroMemory)).run
        (discipline monitor fun _ g s x => completesGet g s x && takesAll s x) (code 0)
        (handshakeRun ++ firstGet ++ [enter (.sslRecvCallback 2), back,
          backWith MBEDTLS_ERR_SSL_WANT_READ, enter (.getCompleteCB (.own 5) [4, 5] 0 true 2)]) =
          some cfg ∧
      monitor.run cfg.log = ⟨[1, 2, 3, 4, 5], [1, 2, 3], 0⟩ ∧
      cfg.log.Obeys monitor (monitor.AtPassage fun g s => inOrder g s = true) := by
  have hrun : ((Config.start (new zeroMemory)).run
      (discipline monitor fun _ g s x => completesGet g s x && takesAll s x) (code 0)
      (handshakeRun ++ firstGet ++ [enter (.sslRecvCallback 2), back,
        backWith MBEDTLS_ERR_SSL_WANT_READ, enter (.getCompleteCB (.own 5) [4, 5] 0 true 2)])).map
        (fun cfg => monitor.run cfg.log) = some ⟨[1, 2, 3, 4, 5], [1, 2, 3], 0⟩ := by
    decide +kernel
  obtain ⟨cfg, hcfg, hseen⟩ := Option.map_eq_some_iff.mp hrun
  exact ⟨cfg, hcfg, hseen, received_in_order (.of_run _ .start hcfg)⟩

/-- Five bytes are asked for, three come after the handshake has been suspended, and two of
these are taken. -/
theorem not_in_order :
    ¬ ∀ (fuel : ℕ) (memory : ConnectionEnd) (cfg : Config CESig ConnectionEnd),
      Reachable (discipline monitor fun _ => completesGet) (code fuel) (new memory) cfg →
        cfg.log.Obeys monitor (monitor.AtPassage fun g s => inOrder g s = true) := by
  intro hall
  have hbad : ((Config.start (new zeroMemory)).run (discipline monitor fun _ => completesGet)
      (code 0) (handshakeRun ++ [enter (.sslRecvCallback 5), back,
        backWith MBEDTLS_ERR_SSL_WANT_READ, enter (.getCompleteCB (.own 5) [1, 2, 3] 0 true 3),
        enter (.handleRequest .kAsyncReadMessageType), enter (.sslRecvCallback 2)])).map
        (fun cfg => Log.check monitor (monitor.passes inOrder) monitor.init cfg.log) =
      some false := by
    decide +kernel
  obtain ⟨cfg, hreach, hnot⟩ := Reachable.not_obeys _ hbad
  exact hnot fun before x after hlog =>
    Monitor.passes_of_atPassage (fun _ _ h => h) (hall 0 zeroMemory cfg hreach before x after hlog)

end ReceiveStream

end NewtonTLS
