/-
# The ciphertext that is sent

`SSLSendCallback` accepts buffers, `PutCompleteCB` learns what the inner end has
consumed, and both move segments between `mSendBuffer` and `mPutDataBuffer` and start
the next put.  Within one configuration nothing is lost, repeated or reordered, at
most one put is outstanding, and an idle sender has nothing left (`Carries`).
-/
import NewtonTLS.ConnectionEndStreams

open Reentrant

namespace NewtonTLS

namespace SendStream

/-! ## What is observed -/

/-- The bytes accepted and the bytes consumed by the inner end since the configuration, and
how many puts are outstanding. -/
structure Seen : Type where
  accepted : List Byte
  consumed : List Byte
  outstanding : ℕ
  deriving DecidableEq

/-- One event. -/
def next (g : Seen) : Label CESig → Seen
  | .asked .sslConfigured _ => ⟨[], [], 0⟩
  | .asked (.sslAccepts buf) _ => { g with accepted := g.accepted ++ buf }
  | .calls _ (.inner (.putBytesStart _)) => { g with outstanding := g.outstanding + 1 }
  | .enter (.putCompleteCB _ read _ _) =>
    { g with consumed := g.consumed ++ read, outstanding := g.outstanding - 1 }
  | _ => g

/-- No byte has been taken or sent. -/
abbrev monitor : Monitor CESig where
  Obs := Seen
  init := ⟨[], [], 0⟩
  next := next

/-- The inner end completes a put that is outstanding, after having read the next bytes of
`mPutDataBuffer`. -/
def completesPut (g : Seen) (s : ConnectionEnd) : Label CESig → Bool
  | .enter (.putCompleteCB of read _ _) =>
    !s.mSSLConfigured || (decide (0 < g.outstanding) &&
      match s.mPutDataBuffer with
      | some put => decide (of = .own put.ptr) && read.isPrefixOf put.list.unread
      | none => false)
  | _ => true

/-! ## The invariant -/

/-- The two lists of a configured end hold what has been accepted and not consumed. -/
structure Flows (g : Seen) (s : ConnectionEnd) (put send : OwnList) : Prop where
  put_eq : s.mPutDataBuffer = some put
  send_eq : s.mSendBuffer = some send
  position : put.list.pos ≤ put.list.getSize
  stream : g.consumed ++ put.list.unread ++ send.list.bytes = g.accepted

/-- The stream is kept, at most one put is outstanding, and an idle sender without an error
has nothing left. -/
structure Carries (g : Seen) (s : ConnectionEnd) (put send : OwnList) : Prop
    extends Flows g s put send where
  outstanding : g.outstanding = if s.mSendPending then 1 else 0
  idle : s.mSendPending = false → s.mSendError = 0 → put.list.segs = [] ∧ send.list.segs = []

/-- The sender of a configured end carries the stream. -/
def Sends (g : Seen) (s : ConnectionEnd) : Prop :=
  s.mSSLConfigured = true → ∃ put send, Carries g s put send

/-- Without SSL nothing is claimed. -/
theorem Sends.plain {g : Seen} {s : ConnectionEnd} (h : s.mSSLConfigured = false) : Sends g s := by
  intro hconf
  rw [h] at hconf
  cases hconf

/-- The invariant looks at the sending side and the mode. -/
theorem Sends.same {g : Seen} {s s' : ConnectionEnd} (h : Sends g s)
    (hconf : s'.mSSLConfigured = s.mSSLConfigured) (hsend : s'.sendValues = s.sendValues) :
    Sends g s' := by
  intro hconf'
  obtain ⟨put, send, hc⟩ := h (hconf ▸ hconf')
  simp only [ConnectionEnd.sendValues, SendValues.mk.injEq] at hsend
  obtain ⟨hpending, hput, hsend, herror⟩ := hsend
  refine ⟨put, send, ⟨⟨?_, ?_, hc.position, hc.stream⟩, ?_, ?_⟩⟩
  · rw [hput, hc.put_eq]
  · rw [hsend, hc.send_eq]
  · rw [hpending, hc.outstanding]
  · rw [hpending, herror]
    exact hc.idle

/-- The contract. -/
def stream : StreamContract monitor where
  Inv := Sends
  Every := fun _ _ _ => True
  Within := fun _ _ => True
  refl := fun _ => trivial
  trans := fun _ _ _ _ _ => trivial

/-- The contract looks at the sending direction only. -/
theorem sees : stream.Sees Label.isSend where
  every := fun _ _ _ _ => trivial
  quiet := by
    intro g x hx
    cases x with
    | enter e => cases e <;> first | rfl | cases hx
    | leave => rfl
    | asked q => cases q <;> first | rfl | cases hx
    | calls e c =>
      cases c with
      | inner c => cases c <;> first | rfl | cases hx
      | _ => rfl
    | resumes => rfl

theorem quiet_receive : stream.Quiet Entry.receives Query.isReceive Call.isReceive :=
  sees.quietSide fun _ hx => (Label.isSend_apart hx).2.1

theorem quiet_rest : stream.Quiet Entry.rests Query.isRest Call.isRest :=
  sees.quietSide fun _ hx => (Label.isSend_apart hx).2.2

/-! ## The sending side -/

section send

variable {extra : List Call → Seen → ConnectionEnd → Label CESig → Bool} {e : Entry}
  {stk : List Call} {g : Seen} {s : ConnectionEnd} {Q : Post monitor ConnectionEnd Unit}

/-- A put is passed on while none is outstanding. -/
theorem sat_putPutDataBuffer
    (h : s.mSSLConfigured = true → ∃ put send, Flows g s put send ∧ g.outstanding = 0)
    (hQ : ∀ g' s', Sends g' s' → Q g' (some ()) s') :
    putPutDataBuffer.Sat stream.toContract (discipline monitor extra) e stk Q g s := by
  have hcall : Sends (next g (.calls e (.inner (.putBytesStart (listRef s.mPutDataBuffer)))))
      { s with mSendPending := true } := by
    intro hconf
    obtain ⟨put, send, hflow, hnone⟩ := h hconf
    refine ⟨put, send, ⟨⟨hflow.put_eq, hflow.send_eq, hflow.position, hflow.stream⟩, ?_, ?_⟩⟩
    · show g.outstanding + 1 = 1
      rw [hnone]
    · intro hidle
      cases hidle
  have hkept : CallKept stream.toContract (discipline monitor extra) e stk Sends g
      { s with mSendPending := true } (.inner (.putBytesStart (listRef s.mPutDataBuffer))) :=
    ⟨trivial, hcall, fun _ _ _ hat _ _ => ⟨trivial, hat⟩⟩
  simp only [putPutDataBuffer, Code.sat_bind, Code.sat_modify, Post.andThen_some, Code.sat_get]
  exact hkept.sat_inner hQ

/-- The inner end has read a part of what is unread. -/
theorem Flows.reads {read : List Byte} {put send : OwnList} (h : Flows g s put send)
    (hread : read <+: put.list.unread) :
    put.list.pos + read.length ≤ put.list.getSize ∧
      g.consumed ++ read ++ (put.list.skip read.length).unread ++ send.list.bytes =
        g.accepted := by
  obtain ⟨rest, hrest⟩ := hread
  have hlen : read.length + rest.length = put.list.getSize - put.list.pos := by
    rw [← List.length_append, hrest, BufferList.unread, List.length_drop, BufferList.getSize]
  have hpos := h.position
  constructor
  · omega
  · rw [BufferList.unread_skip, ← hrest, List.drop_left, List.append_assoc g.consumed, hrest]
    exact h.stream

/-- A completion of the outstanding put, up to the flag and the error it sets. -/
theorem completed {of : ListRef} {read : List Byte} {result : Int} {count : ℕ}
    (hok : completesPut g s (.enter (.putCompleteCB of read result count)) = true)
    (h : Sends g s) (hconf : s.mSSLConfigured = true) :
    ∃ put send, Flows (next g (.enter (.putCompleteCB of read result count)))
        (innerReads of read.length s) put send ∧
      (next g (.enter (.putCompleteCB of read result count))).outstanding = 0 := by
  obtain ⟨put, send, hc⟩ := h hconf
  simp only [completesPut, hconf, hc.put_eq, Bool.not_true, Bool.false_or, Bool.and_eq_true,
    decide_eq_true_eq, List.isPrefixOf_iff_prefix] at hok
  obtain ⟨hout, rfl, hread⟩ := hok
  obtain ⟨hpos, hstream⟩ := hc.toFlows.reads hread
  refine ⟨{ put with list := put.list.skip read.length }, send, ⟨?_, ?_, hpos, hstream⟩, ?_⟩
  · simp [innerReads, hc.put_eq]
  · rw [innerReads, hc.put_eq]
    simp [hc.send_eq]
  · have hone := hc.outstanding
    show g.outstanding - 1 = 0
    split at hone <;> omega

/-- `PutCompleteCB` after the inner end has read. -/
theorem sat_putCompleteCB (result : Int) (count : ℕ)
    (h : s.mSSLConfigured = true → ∃ put send, Flows g s put send ∧ g.outstanding = 0)
    (hQ : ∀ g' s', Sends g' s' → Q g' (some ()) s') :
    (putCompleteCB result count).Sat stream.toContract (discipline monitor extra) e stk Q g s := by
  simp only [putCompleteCB, Code.sat_bind, Code.sat_get, Post.andThen_some, Code.sat_ite,
    Code.sat_modify]
  refine ⟨fun hconf => ?_, fun hplain => ?_⟩
  · obtain ⟨put, send, hflow, hnone⟩ := h hconf
    -- an error stops the sending: the stream stays as it is
    refine ⟨fun hfailed => hQ _ _ fun _ => ⟨put, send, ?_⟩, fun _ => ?_⟩
    · exact ⟨⟨hflow.put_eq, hflow.send_eq, hflow.position, hflow.stream⟩, hnone,
        fun _ hok => absurd hok hfailed⟩
    · simp only [hflow.put_eq, deref, Code.sat_pure, Post.andThen_some, Code.sat_ite, Code.sat_bind,
        Code.sat_get, hflow.send_eq, Code.sat_modify]
      refine ⟨fun heof => ?_, fun _ => ?_⟩
      · -- everything has been read: the queued segments move up
        have hunread : put.list.unread = [] := (BufferList.atEOF_iff _).mp heof
        have hmoved : Flows g { s with
            mSendPending := false
            mSendBuffer := some { send with
              list := (BufferList.moveAll send.list put.list.deleteAll).1 }
            mPutDataBuffer := some { put with
              list := (BufferList.moveAll send.list put.list.deleteAll).2 } }
            { put with list := (BufferList.moveAll send.list put.list.deleteAll).2 }
            { send with list := (BufferList.moveAll send.list put.list.deleteAll).1 } := by
          refine ⟨rfl, rfl, BufferList.pos_le_getSize_moveAll_snd _ _ (Nat.zero_le _), ?_⟩
          have hstream := hflow.stream
          rw [hunread, List.append_nil] at hstream
          rw [BufferList.unread_moveAll_snd _ _ (Nat.zero_le _), BufferList.deleteAll_eq,
            BufferList.unread_empty, List.nil_append, BufferList.moveAll_fst_bytes, List.append_nil]
          exact hstream
        refine ⟨fun _ => sat_putPutDataBuffer (fun _ => ⟨_, _, hmoved, hnone⟩) hQ, fun hfirst => ?_⟩
        -- nothing was queued: the side is idle and both lists are empty
        have hsegs : send.list.segs = [] := by
          simpa [BufferList.first, List.head?_eq_none_iff] using hfirst
        refine hQ _ _ fun _ => ⟨_, _, hmoved, hnone, fun _ _ => ⟨?_, rfl⟩⟩
        simp [BufferList.moveAll, hsegs, BufferList.empty]
      -- a part has been read: the rest goes out again
      · refine sat_putPutDataBuffer (fun _ => ⟨put, send, ?_, hnone⟩) hQ
        exact ⟨rfl, rfl, hflow.position, hflow.stream⟩
  · have hkept : CallKept stream.toContract (discipline monitor extra) e stk Sends g s
        (.client (.putComplete (.code result) count)) :=
      ⟨trivial, .plain (by simpa using hplain), fun _ _ _ hat _ _ => ⟨trivial, hat⟩⟩
    exact hkept.sat_client hQ

/-- The callback accepts the bytes, or has them wait. -/
theorem sat_sslSendCallback (buf : List Byte) (h : Sends g s) {Q : Post monitor ConnectionEnd Int}
    (hQ : ∀ r g' s', Sends g' s' → Q g' (some r) s') :
    (sslSendCallback buf).Sat stream.toContract (discipline monitor extra) e stk Q g s := by
  simp only [sslSendCallback, Code.sat_bind, Code.sat_get, Post.andThen_some, Code.sat_ite]
  refine ⟨fun _ => hQ _ _ _ h, fun herror => sat_deref _ fun send hsend => ?_⟩
  simp only [Post.andThen_some, Code.sat_bind]
  refine sat_ask fun _ _ => ⟨trivial, ?_⟩
  simp only [Post.andThen_some, Code.sat_bind, Code.sat_ite, Code.sat_modify]
  refine ⟨fun hpending => hQ _ _ _ fun hconf => ?_, fun hpending => sat_deref _ fun put hput => ?_⟩
  · -- a put is outstanding: the buffer waits in `mSendBuffer`
    obtain ⟨put, send', hc⟩ := h hconf
    obtain rfl : send' = send := Option.some.inj (hc.send_eq.symm.trans hsend)
    refine ⟨put, _, ⟨⟨hc.put_eq, rfl, hc.position, ?_⟩, hc.outstanding, fun hidle => ?_⟩⟩
    · show g.consumed ++ put.list.unread ++ (send'.list.insertLast buf).bytes = g.accepted ++ buf
      rw [BufferList.bytes_insertLast, ← List.append_assoc, hc.stream]
    · rw [show s.mSendPending = false from hidle] at hpending
      cases hpending
  · -- nothing is outstanding, and nothing waits: the buffer goes out at once
    simp only [Post.andThen_some, Code.sat_bind, Code.sat_modify]
    refine sat_putPutDataBuffer (fun hconf => ?_) fun g' s' h' => hQ _ _ _ h'
    obtain ⟨put', send', hc⟩ := h hconf
    obtain rfl : send' = send := Option.some.inj (hc.send_eq.symm.trans hsend)
    obtain rfl : put' = put := Option.some.inj (hc.put_eq.symm.trans hput)
    have hnone : g.outstanding = 0 := by
      rw [hc.outstanding, if_neg hpending]
    refine ⟨_, _, ⟨rfl, rfl, BufferList.pos_le_getSize_moveAll_snd _ _ hc.position, ?_⟩, hnone⟩
    show g.consumed ++ (BufferList.moveAll (send'.list.insertLast buf) put'.list).2.unread ++
      (BufferList.moveAll (send'.list.insertLast buf) put'.list).1.bytes = g.accepted ++ buf
    rw [BufferList.unread_moveAll_snd _ _ hc.position, BufferList.moveAll_fst_bytes,
      BufferList.bytes_insertLast, List.append_nil, ← hc.stream]
    simp only [List.append_assoc]

/-- The sending side serves the contract when the inner end completes what is outstanding. -/
theorem serves_send {fuel : ℕ} (he : e.sends = true) (hok : completesPut g s (.enter e) = true)
    (h : Sends g s) : stream.Serves extra fuel e stk g s := by
  refine ⟨trivial, ?_⟩
  cases e with
  | putCompleteCB of read result count =>
    simp only [code, unit, Code.sat_bind, Code.sat_modify, Post.andThen_some]
    refine sat_putCompleteCB result count (fun hconf => completed hok h ?_)
      fun g' s' h' => ⟨trivial, h', fun _ => trivial⟩
    obtain ⟨v, hv, -⟩ := innerReads_eq_withSend of read.length s
    rw [hv] at hconf
    exact hconf
  | sslSendCallback buf =>
    simp only [code, Code.sat_bind]
    exact sat_sslSendCallback buf h fun r g' s' h' => ⟨trivial, h', fun _ => trivial⟩
  | _ => cases he

end send

/-! ## The requests -/

/-- A new configuration has sent nothing. -/
theorem fresh (s : ConnectionEnd) (v : SetupValues) : Sends ⟨[], [], 0⟩ (s.configured v) := by
  intro _
  refine ⟨⟨v.put, BufferList.empty⟩, ⟨v.send, BufferList.empty⟩, ⟨⟨rfl, rfl, ?_, rfl⟩, rfl, ?_⟩⟩
  · exact Nat.zero_le _
  · intro _ _
    exact ⟨rfl, rfl⟩

/-- The rules for bodies outside of the traffic. -/
theorem rules (extra : List Call → Seen → ConnectionEnd → Label CESig → Bool) :
    stream.Rules extra := by
  refine sees.rules_of_plain (fun _ hx => (Label.isSend_apart hx).1) (fun _ _ => .plain) ?_
    (fun _ _ _ _ => trivial) fun _ s v => ⟨trivial, fresh s v⟩
  · intro g s s' hvalues h
    simp only [ConnectionEnd.streamValues, Prod.mk.injEq] at hvalues
    exact h.same hvalues.1 hvalues.2.1

/-! ## The stream -/

/-- Every function meets the contract. -/
theorem meets (fuel : ℕ) :
    stream.toContract.Meets (discipline monitor fun _ => completesPut) (code fuel) := by
  refine stream.meets (rules _).requestRules fuel fun e stk g s he _ hok h => ?_
  rcases e.isTraffic_cases he with hreceive | hsend | hrest
  · exact stream.serves_receive quiet_receive (fun _ _ _ h => h.same rfl rfl)
      (fun _ _ => trivial) hreceive h
  · exact serves_send hsend hok h
  · exact stream.serves_rest quiet_rest (fun _ _ _ _ _ h => h.same rfl rfl)
      (fun _ _ _ _ => trivial) hrest h

/-- **The ciphertext is sent as it was accepted.**  Whenever control passes in a run in which
the inner end completes outstanding puts after reading from `mPutDataBuffer`, a configured
end carries the stream. -/
theorem ciphertext_sent {fuel : ℕ} {memory : ConnectionEnd} {cfg : Config CESig ConnectionEnd}
    (h : Reachable (discipline monitor fun _ => completesPut) (code fuel) (new memory) cfg) :
    cfg.log.Obeys monitor (monitor.AtPassage Sends) :=
  Contract.log_passes (meets fuel) (fun _ _ _ h => h) (.plain rfl) h

/-- Two flights are sent during a handshake; the second waits for the first, which goes out in
two parts. -/
def flightsRun : List (Move CESig) :=
  [enter .openStart, back, enter (.processOptionStart (.sslEnable true)), enter .connectStart,
    back, enter (.connectCompleteCB 0), enter (.sslSendCallback [1, 2, 3]), back,
    enter (.sslSendCallback [4]), backWith MBEDTLS_ERR_SSL_WANT_READ,
    enter (.putCompleteCB (.own 3) [1, 2] 0 2), back, enter (.putCompleteCB (.own 3) [3] 0 1),
    back, enter (.putCompleteCB (.own 3) [4] 0 1)]

/-- Two flights, of which the second waits for the first. -/
theorem ciphertext_sent_flightsRun :
    ∃ cfg, (Config.start (new zeroMemory)).run (discipline monitor fun _ => completesPut) (code 0)
        flightsRun = some cfg ∧
      monitor.run cfg.log = ⟨[1, 2, 3, 4], [1, 2, 3, 4], 0⟩ ∧
      cfg.log.Obeys monitor (monitor.AtPassage Sends) := by
  have hrun : ((Config.start (new zeroMemory)).run (discipline monitor fun _ => completesPut)
      (code 0) flightsRun).map (fun cfg => monitor.run cfg.log) =
      some ⟨[1, 2, 3, 4], [1, 2, 3, 4], 0⟩ := by decide +kernel
  obtain ⟨cfg, hcfg, hseen⟩ := Option.map_eq_some_iff.mp hrun
  exact ⟨cfg, hcfg, hseen, ciphertext_sent (.of_run _ .start hcfg)⟩

end SendStream

end NewtonTLS
