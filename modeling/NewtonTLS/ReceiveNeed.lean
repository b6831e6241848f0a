/-
# What is received is needed

mbedTLS asks `SSLRecvCallback` for the bytes that it still needs.  Its need goes down by what
a call hands out, stays as it is after `MBEDTLS_ERR_SSL_WANT_READ`, and is chosen anew only
when it has reached 0.  Then the connection end holds no more than is needed, even together
with what a pending get may still deliver (`buffered_within_need`).

No call is for less than is held then, so that the tail of the block, which
`ReceiveStream.not_in_order` loses, does not come up, and the ciphertext is handed out as it
was delivered (`needed_in_order`).
-/
import NewtonTLS.ReceiveStream

open Reentrant

namespace NewtonTLS

namespace ReceiveNeed

open ReceiveStream (Seen completesGet handedOut Receives reach)

/-! ## What is observed -/

/-- The bytes that mbedTLS still needs, and whether the inner end has reported an error or the
end of file since the configuration. -/
structure Need : Type where
  need : ℕ
  ended : Bool
  deriving DecidableEq

/-- One event.  A call that finds nothing needed chooses a new need, and what it hands out is
needed no more. -/
def needNext (g : Need) : Label CESig → Need
  | .asked .sslConfigured _ => ⟨0, false⟩
  | .enter (.sslRecvCallback len) => { g with need := if g.need = 0 then len else g.need }
  | .enter (.getCompleteCB _ _ result _ count) =>
    { g with ended := g.ended || decide (result ≠ 0) || decide (count = 0) }
  | .leave (.sslRecvCallback _) v => { g with need := g.need - (handedOut v).length }
  | _ => g

/-- What is received, and what is needed. -/
abbrev monitor : Monitor CESig where
  Obs := Seen × Need
  init := (⟨[], [], 0⟩, ⟨0, false⟩)
  next := fun g x => (ReceiveStream.next g.1 x, needNext g.2 x)

/-- mbedTLS asks for what it still needs, unless it needs nothing.  After an error or the end of
file it may ask for anything. -/
def asksForNeed (g : Need) (s : ConnectionEnd) : Label CESig → Bool
  | .enter (.sslRecvCallback len) =>
    !s.mSSLConfigured || decide (s.mRecvError ≠ 0) || s.mPeerClosed || decide (g.need = 0) ||
      decide (len = g.need)
  | _ => true

/-- The capacity of the segment that a pending get fills. -/
def pendingCapacity (g : Seen) (s : ConnectionEnd) : ℕ :=
  if g.outstanding = 0 then 0 else s.mGetDataBuffer.elim 0 fun getl => getl.list.getSize

/-- The buffers of the receiving side hold no more than is needed. -/
structure WithinNeed (g : Seen × Need) (s : ConnectionEnd) : Prop where
  buffered : s.mSSLRecvBufferSize + pendingCapacity g.1 s ≤ g.2.need
  single : g.1.outstanding ≤ 1
  empty : g.1.outstanding = 0 → g.2.ended = false →
    ∃ getl, s.mGetDataBuffer = some getl ∧ getl.list = BufferList.empty

/-- A configured end keeps no remainder in `mSSLRecvBuffer`: what lies behind the block, which
only the branch that keeps one asks for, is not asked for. -/
def KeepsNoRemainder (s : ConnectionEnd) : Label CESig → Prop
  | .asked (.bytesBehindBlock _ _) _ => s.mSSLConfigured = false
  | _ => True

/-! ## The invariant -/

/-- What is held, and what the inner end may still add, is needed. -/
structure Covered (g : Need) (s : ConnectionEnd) : Prop where
  reach_le : reach s ≤ g.need
  good : g.ended = false → s.mRecvError = 0 ∧ s.mPeerClosed = false

/-- The receiver of a configured end keeps the stream and holds only what is needed. -/
structure Inv (g : Seen × Need) (s : ConnectionEnd) : Prop where
  receives : Receives g.1 s
  covered : s.mSSLConfigured = true → Covered g.2 s

/-- Without SSL nothing is claimed. -/
theorem Inv.plain {g : Seen × Need} {s : ConnectionEnd} (h : s.mSSLConfigured = false) :
    Inv g s := by
  refine ⟨.plain h, fun hconf => ?_⟩
  rw [h] at hconf
  cases hconf

/-- Only the configuration and the receiving fields are looked at. -/
theorem Inv.same {g : Seen × Need} {s s' : ConnectionEnd} (h : Inv g s)
    (hconf : s'.mSSLConfigured = s.mSSLConfigured)
    (hvalues : ReceiveStream.looked s'.receiveValues = ReceiveStream.looked s.receiveValues) :
    Inv g s' := by
  refine ⟨h.receives.same hconf hvalues, fun hconf' => ?_⟩
  obtain ⟨hreach, hgood⟩ := h.covered (hconf ▸ hconf')
  simp only [ReceiveStream.looked, ConnectionEnd.receiveValues, ReceiveValues.mk.injEq, and_true,
    true_and] at hvalues
  obtain ⟨-, hclosed, hlist, -, hsize, herror⟩ := hvalues
  constructor
  · rw [reach, hsize, hlist]
    exact hreach
  · rw [herror, hclosed]
    exact hgood

/-- The capacity of a pending get is within reach. -/
theorem pendingCapacity_le (g : Seen) (s : ConnectionEnd) :
    s.mSSLRecvBufferSize + pendingCapacity g s ≤ reach s := by
  unfold pendingCapacity
  split
  · exact ReceiveStream.size_le_reach s
  · exact le_rfl

/-- What the invariant says about the buffers. -/
theorem Inv.withinNeed {g : Seen × Need} {s : ConnectionEnd} (h : Inv g s)
    (hconf : s.mSSLConfigured = true) : WithinNeed g s := by
  obtain ⟨getl, hholds⟩ := h.receives hconf
  obtain ⟨hreach, hgood⟩ := h.covered hconf
  have hout := hholds.outstanding
  constructor
  · exact (pendingCapacity_le g.1 s).trans hreach
  · rw [hout]
    split <;> omega
  · intro hnone hended
    have hidle : s.mRecvPending = false := by
      by_contra hpending
      rw [if_pos (by simpa using hpending)] at hout
      omega
    obtain ⟨herror, hopen⟩ := hgood hended
    exact ⟨getl, hholds.get_eq, hholds.idle hidle herror hopen⟩

/-- The contract.  What can happen inside of mbedTLS is as in `ReceiveStream.stream`. -/
def stream : StreamContract monitor where
  Inv := Inv
  Every := fun _ s x => KeepsNoRemainder s x
  Within := ReceiveStream.stream.Within
  refl := ReceiveStream.stream.refl
  trans := ReceiveStream.stream.trans

/-- What mbedTLS needs changes when it receives. -/
theorem needNext_eq (g : Need) (x : Label CESig) (hx : Label.isReceive x = false) :
    needNext g x = g := by
  cases x with
  | enter e => cases e <;> first | rfl | cases hx
  | leave e => cases e <;> first | rfl | cases hx
  | asked q => cases q <;> first | rfl | cases hx
  | _ => rfl

/-- The contract looks at the receiving direction only. -/
theorem sees : stream.Sees Label.isReceive where
  every := by
    intro g s x hx
    cases x with
    | asked q a => cases q <;> trivial
    | _ => trivial
  quiet := by
    intro g x hx
    exact Prod.ext (ReceiveStream.sees.quiet g.1 x hx) (needNext_eq g.2 x hx)

/-! ## The receiving side -/

section receive

variable {extra : List Call → Seen × Need → ConnectionEnd → Label CESig → Bool} {e : Entry}
  {stk : List Call} {g : Seen × Need} {s : ConnectionEnd}

/-- `GetCompleteCB` keeps the contract, whoever it is called from. -/
theorem sat_getCompleteCB {of : ListRef} {wrote : List Byte} {result : Int} {eof : Bool}
    {count : ℕ}
    (hok : completesGet g.1 s (.enter (.getCompleteCB of wrote result eof count)) = true)
    (h : Inv g s) {Q : Post monitor ConnectionEnd Unit}
    (hQ : ∀ g' s', stream.Kept stk s g' s' → Q g' (some ()) s') :
    (getCompleteCB result eof count).Sat stream.toContract (discipline monitor extra) e stk Q
      (monitor.next g (.enter (.getCompleteCB of wrote result eof count)))
      (innerWrites of wrote s) := by
  cases hconf : s.mSSLConfigured with
  | true =>
    obtain ⟨hreach, hgood⟩ := h.covered hconf
    refine ReceiveStream.sat_completes sees.memoryQuiet (fun _ _ _ => ⟨trivial, rfl⟩) hok h.receives
      hconf fun s' h' hle hkeeps => hQ _ s' ⟨⟨h', fun _ => ⟨hle.trans hreach, ?_⟩⟩, fun _ => hle⟩
    intro hended
    -- only bytes leave it open whether more will come
    simp only [needNext, Bool.or_eq_false_iff, decide_eq_false_iff_not, not_not] at hended
    obtain ⟨⟨hnot, hresult⟩, hcount⟩ := hended
    obtain ⟨herror, hclosed⟩ := hkeeps hresult hcount
    rw [herror, hclosed]
    exact hgood hnot
  | false =>
    have hplain := (ReceiveStream.configured_innerWrites of wrote s).trans hconf
    have hkept : stream.Kept stk s
        (monitor.next g (.enter (.getCompleteCB of wrote result eof count)))
        (innerWrites of wrote s) :=
      ⟨.plain hplain, fun _ => (ReceiveStream.reach_innerWrites of wrote s).le⟩
    exact ReceiveStream.sat_plainCompletion hplain hkept ⟨trivial, hkept.1⟩
      (fun _ _ h' => ⟨trivial, h'⟩) hQ

/-- A call that looks at what is held asks for what is needed. -/
theorem need_eq_of_asks {len : ℕ} (hasks : asksForNeed g.2 s (.enter (.sslRecvCallback len)) = true)
    (hconf : s.mSSLConfigured = true) (herror : s.mRecvError = 0) (hopen : s.mPeerClosed = false) :
    (needNext g.2 (.enter (.sslRecvCallback len))).need = len := by
  have hneed : g.2.need = 0 ∨ len = g.2.need := by
    simpa [asksForNeed, hconf, herror, hopen] using hasks
  simp only [needNext]
  split <;> omega

/-- A call chooses a need only when nothing is needed, so that nothing is held either. -/
theorem Inv.enter (h : Inv g s) (len : ℕ) :
    Inv (monitor.next g (.enter (.sslRecvCallback len))) s := by
  refine ⟨h.receives, fun hconf => ?_⟩
  obtain ⟨hreach, hgood⟩ := h.covered hconf
  refine ⟨?_, hgood⟩
  simp only [needNext]
  split <;> omega

/-- What is handed out is needed no more. -/
theorem Inv.handOut (h : Inv g s) {b : Block} (hbuf : s.mSSLRecvBuffer = some b) {len : ℕ}
    {n : Int} :
    Inv (monitor.next g
        (.leave (.sslRecvCallback len) (some (.recv n (b.bytes.take s.mSSLRecvBufferSize)))))
      { s with mSSLRecvBuffer := none, mSSLRecvBufferSize := 0 } := by
  refine ⟨h.receives.handOut hbuf, fun hconf => ?_⟩
  obtain ⟨getl, hholds⟩ := h.receives hconf
  obtain ⟨hreach, hgood⟩ := h.covered hconf
  refine ⟨?_, hgood⟩
  have hsize := hholds.size
  rw [ReceiveStream.received_some hbuf] at hsize
  -- as many bytes are handed out as were held, and the capacity of the list stays
  show 0 + s.mGetDataBuffer.elim 0 (fun getl => getl.list.getSize) ≤
    g.2.need - (b.bytes.take s.mSSLRecvBufferSize).length
  rw [List.length_take, hsize, min_self]
  rw [reach] at hreach
  omega

/-- An idle receiver asks for a segment of what is missing to the need. -/
theorem Inv.requesting (h : Inv g s) {getl : OwnList} {len : ℕ}
    (hget : s.mGetDataBuffer = some getl) (hidle : s.mRecvPending = false)
    (herror : s.mRecvError = 0) (hopen : s.mPeerClosed = false)
    (hneed : s.mSSLConfigured = true → g.2.need = len) :
    Inv (monitor.next g (.calls e (.inner (.getBytesImmediateStart (.own getl.ptr) 1))))
        (ReceiveStream.requesting s getl len) ∧
      (s.mSSLConfigured = true → reach (ReceiveStream.requesting s getl len) = len) := by
  have hsize : s.mSSLConfigured = true → s.mSSLRecvBufferSize ≤ len := by
    intro hconf
    calc s.mSSLRecvBufferSize ≤ reach s := ReceiveStream.size_le_reach s
      _ ≤ g.2.need := (h.covered hconf).reach_le
      _ = len := hneed hconf
  obtain ⟨hholds, hreach⟩ := h.receives.requesting hget hsize hidle herror hopen
  refine ⟨⟨hholds, fun hconf => ⟨?_, (h.covered hconf).good⟩⟩, hreach⟩
  rw [hreach hconf]
  exact (hneed hconf).ge

/-- `SSLRecvCallback` that is asked for the need keeps the contract. -/
theorem sat_sslRecvCallback {len : ℕ} (hstk : inTLS stk = true) (h : Inv g s)
    (hneed : s.mSSLConfigured = true → s.mRecvError = 0 → s.mPeerClosed = false →
      g.2.need = len)
    {Q : Post monitor ConnectionEnd Value}
    (hQ : ∀ v g' s', Inv (monitor.next g' (.leave (.sslRecvCallback len) (some v))) s' →
      Q g' (some v) s') :
    (sslRecvCallback len).Sat stream.toContract (discipline monitor extra) e stk Q g s := by
  have hnothing : ∀ n g' s', Inv g' s' → Q g' (some (.recv n [])) s' := by
    intro n g' s' h'
    refine hQ _ g' s' ⟨?_, h'.covered⟩
    have hsame : (monitor.next g'
        (.leave (.sslRecvCallback len) (some (.recv n [])))).1 = g'.1 := by
      simp [ReceiveStream.next, handedOut]
    rw [hsame]
    exact h'.receives
  refine ReceiveStream.sat_receive (P := fun g' s' => Inv g' s' ∧
      (s'.mSSLConfigured = true → reach s' ≤ len))
    (fun n _ => hnothing n g s h) ?_ ?_ (fun n g' s' h' => hnothing n g' s' h'.1) ?_
  · intro herror hopen
    refine ⟨h, fun hconf => ?_⟩
    rw [← hneed hconf herror hopen]
    exact (h.covered hconf).reach_le
  · intro herror hopen hidle getl hget
    obtain ⟨hrequest, hreach⟩ := h.requesting (e := e) hget hidle herror hopen
      fun hconf => hneed hconf herror hopen
    refine ⟨trivial, hrequest, fun _ g' s' hat hrely _ =>
      ⟨trivial, hat.same rfl rfl, fun hconf => ?_⟩⟩
    obtain ⟨hcore, hwithin⟩ := StreamContract.rely_nested rfl hstk hrely
    -- whatever the inner end has done at once, no more can be held than was asked for
    calc reach s' ≤ reach (ReceiveStream.requesting s getl len) := hwithin
      _ = len := hreach (hcore.mSSLConfigured ▸ hconf)
  · rintro g' s' ⟨h', hreach⟩
    refine ReceiveStream.sat_handOut sees.memoryQuiet
      (fun b hbuf _ => hQ _ _ _ (h'.handOut hbuf)) ?_
    intro b _ hpart junk
    rcases Bool.eq_false_or_eq_true s'.mSSLConfigured with hconf | hplain
    · -- a part would be handed out only if more was held than is needed
      have hle := (ReceiveStream.size_le_reach s').trans (hreach hconf)
      omega
    · exact ⟨hplain, fun b' => hQ _ _ _ (.plain hplain)⟩

/-- The receiving side serves the contract when the inner end completes what is outstanding and
mbedTLS asks for what it needs. -/
theorem serves_receive {fuel : ℕ} (he : e.receives = true) (hmay : mayEnter stk e = true)
    (hok : completesGet g.1 s (.enter e) = true) (hasks : asksForNeed g.2 s (.enter e) = true)
    (h : Inv g s) : stream.Serves extra fuel e stk g s := by
  refine ⟨trivial, ?_⟩
  cases e with
  | getCompleteCB of wrote result eof count =>
    simp only [code, unit, Code.sat_bind, Code.sat_modify, Post.andThen_some]
    exact sat_getCompleteCB hok h fun g' s' h' => ⟨trivial, h'.1, h'.2⟩
  | sslRecvCallback len =>
    have htop : atTLS stk = true := hmay
    refine sat_sslRecvCallback (inTLS_of_atTLS htop) (h.enter len) (need_eq_of_asks hasks)
      fun v g' s' h' => ⟨trivial, h', fun hnested => ?_⟩
    rw [nested, htop] at hnested
    simp at hnested
  | _ => cases he

end receive

/-! ## The requests -/

/-- A new configuration holds nothing, and mbedTLS has not asked for anything yet. -/
theorem fresh (s : ConnectionEnd) (v : SetupValues) :
    Inv (⟨[], [], 0⟩, ⟨0, false⟩) (s.configured v) :=
  ⟨ReceiveStream.fresh s v, fun _ => ⟨le_rfl, fun _ => ⟨rfl, rfl⟩⟩⟩

/-- The rules for bodies outside of the traffic. -/
theorem rules (extra : List Call → Seen × Need → ConnectionEnd → Label CESig → Bool) :
    stream.Rules extra := by
  refine sees.rules_of_plain (fun _ hx => (Label.isReceive_apart hx).1) (fun _ _ => .plain) ?_
    (fun _ _ _ _ => trivial) fun _ s v => ⟨trivial, fresh s v⟩
  · intro g s s' hvalues h
    simp only [ConnectionEnd.streamValues, Prod.mk.injEq] at hvalues
    obtain ⟨hconf, -, hreceive⟩ := hvalues
    have hlooked := congrArg ReceiveStream.looked hreceive
    exact h.same hconf hlooked

/-! ## The bound -/

/-- Every function meets the contract. -/
theorem meets (fuel : ℕ) :
    stream.toContract.Meets
      (discipline monitor fun _ g s x => completesGet g.1 s x && asksForNeed g.2 s x)
      (code fuel) := by
  refine stream.meets (rules _).requestRules fuel fun e stk g s he hmay hok h => ?_
  obtain ⟨hget, hasks⟩ := (Bool.and_eq_true _ _).mp hok
  rcases e.isTraffic_cases he with hreceive | hsend | hrest
  · exact serves_receive hreceive hmay hget hasks h
  · exact stream.serves_send sees.quiet_send (fun _ _ _ h => h.same rfl rfl)
      (fun _ _ => le_rfl) hsend h
  · exact stream.serves_rest sees.quiet_rest (fun _ _ _ _ _ h => h.same rfl rfl)
      (fun _ _ _ _ => le_rfl) hrest h

/-- **The buffers of the receiving side hold no more than is needed.**  In every run in which the
inner end completes outstanding gets and mbedTLS asks for what it still needs, whenever control
passes what a configured end holds and what a pending get may add is needed, at most one get is
outstanding, and `mGetDataBuffer` is empty while there is none and more may come.  No remainder
is kept in any call. -/
theorem buffered_within_need {fuel : ℕ} {memory : ConnectionEnd}
    {cfg : Config CESig ConnectionEnd}
    (h : Reachable
      (discipline monitor fun _ g s x => completesGet g.1 s x && asksForNeed g.2 s x)
      (code fuel) (new memory) cfg) :
    cfg.log.Obeys monitor fun g s x =>
      monitor.AtPassage (fun g s => s.mSSLConfigured = true → WithinNeed g s) g s x ∧
        KeepsNoRemainder s x := by
  intro before x after hlog
  constructor
  · exact Contract.log_passes (meets fuel) (fun _ _ _ h => h.withinNeed) (.plain rfl) h
      before x after hlog
  · exact Contract.log_obeys (meets fuel) (.plain rfl) h before x after hlog

/-- Two bytes are still needed when a part of five has come at once, and they come after the
handshake has been suspended.  Then nothing is needed, and seven bytes are asked for. -/
def twoNeeds : List (Move CESig) :=
  ReceiveStream.firstGet ++ [enter (.sslRecvCallback 2), back,
    backWith MBEDTLS_ERR_SSL_WANT_READ, enter (.getCompleteCB (.own 5) [4, 5] 0 true 2),
    enter (.handleRequest .kAsyncReadMessageType), enter (.sslRecvCallback 2),
    enter (.sslRecvCallback 7), back]

/-- Two needs, each of which is met by one get. -/
theorem buffered_within_need_twoNeeds :
    ∃ cfg, (Config.start (new zeroMemory)).run
        (discipline monitor fun _ g s x => completesGet g.1 s x && asksForNeed g.2 s x) (code 0)
        (ReceiveStream.handshakeRun ++ twoNeeds) = some cfg ∧
      monitor.run cfg.log = (⟨[1, 2, 3, 4, 5], [1, 2, 3, 4, 5], 1⟩, ⟨7, false⟩) ∧
      cfg.log.Obeys monitor fun g s x =>
        monitor.AtPassage (fun g s => s.mSSLConfigured = true → WithinNeed g s) g s x ∧
          KeepsNoRemainder s x := by
  have hrun : ((Config.start (new zeroMemory)).run
      (discipline monitor fun _ g s x => completesGet g.1 s x && asksForNeed g.2 s x) (code 0)
      (ReceiveStream.handshakeRun ++ twoNeeds)).map (fun cfg => monitor.run cfg.log) =
        some (⟨[1, 2, 3, 4, 5], [1, 2, 3, 4, 5], 1⟩, ⟨7, false⟩) := by
    decide +kernel
  obtain ⟨cfg, hcfg, hseen⟩ := Option.map_eq_some_iff.mp hrun
  exact ⟨cfg, hcfg, hseen, buffered_within_need (.of_run _ .start hcfg)⟩

/-- **The ciphertext is handed out as it was delivered** when mbedTLS asks for what it needs. -/
theorem needed_in_order {fuel : ℕ} {memory : ConnectionEnd} {cfg : Config CESig ConnectionEnd}
    (h : Reachable
      (discipline monitor fun _ g s x => completesGet g.1 s x && asksForNeed g.2 s x)
      (code fuel) (new memory) cfg) :
    cfg.log.Obeys monitor (monitor.AtPassage fun g s => ReceiveStream.inOrder g.1 s = true) :=
  Contract.log_passes (meets fuel) (fun _ _ _ h => h.receives.inOrder) (.plain rfl) h

end ReceiveNeed

end NewtonTLS
