/-
# The orderly disconnect

`TerminateStart` sends the close notify and forwards the termination to the inner end, at
once.  What has been put by then is on its way when nothing is queued in `mSendBuffer`.  A
buffer is queued there when mbedTLS sends it while an earlier put is outstanding, and
`TerminateStart` does not wait for that put.
-/
import NewtonTLS.SendStream

open Reentrant

namespace NewtonTLS

namespace OrderlyDisconnect

/-! ## What is observed -/

/-- Whether `TerminateStart` has called for the close notify and has not forwarded the
termination yet. -/
def notifying (b : Bool) : Label CESig → Bool
  | .calls .terminateStart .mbedtlsSslCloseNotify => true
  | .calls .terminateStart (.inner .terminateStart) => false
  | _ => b

/-- The phase of `TerminateStart` alone. -/
abbrev phase : Monitor CESig where
  Obs := Bool
  init := false
  next := notifying

/-- The ciphertext, and the phase of `TerminateStart`. -/
abbrev monitor : Monitor CESig where
  Obs := SendStream.Seen × Bool
  init := (⟨[], [], 0⟩, false)
  next := fun g x => (SendStream.next g.1 x, notifying g.2 x)

/-- No byte is queued behind a put. -/
def nothingQueued (s : ConnectionEnd) : Bool :=
  match s.mSendBuffer with
  | some send => send.list.bytes.isEmpty
  | none => true

/-- SSL is configured and nothing has failed to be sent. -/
def sends (s : ConnectionEnd) : Bool := s.mSSLConfigured && decide (s.mSendError = 0)

/-- `TerminateStart` finds nothing queued, and no put is outstanding when mbedTLS sends the
alert. -/
def findsIdle (b : Bool) (s : ConnectionEnd) : Label CESig → Bool
  | .enter .terminateStart => !(sends s && s.mEstablished) || nothingQueued s
  | .enter (.sslSendCallback buf) => !(b && sends s) || !s.mSendPending || buf.isEmpty
  | _ => true

/-- Everything accepted has been handed to the inner end: it is consumed, or it is in the list
of the put that is outstanding. -/
def handedOver (g : SendStream.Seen) (s : ConnectionEnd) : Bool :=
  nothingQueued s &&
    match s.mPutDataBuffer with
    | some put => decide (g.consumed ++ put.list.unread = g.accepted) &&
        (put.list.unread.isEmpty || s.mSendPending)
    | none => false

/-- When the termination is forwarded after a close notify, everything is handed over. -/
def disconnected (g : SendStream.Seen × Bool) (s : ConnectionEnd) : Label CESig → Bool
  | .calls .terminateStart (.inner .terminateStart) => !(g.2 && sends s) || handedOver g.1 s
  | _ => true

/-! ## The invariant -/

/-- Nothing is queued while `TerminateStart` has its close notify sent. -/
def Emptied (b : Bool) (s : ConnectionEnd) : Prop :=
  b = true → sends s = true → nothingQueued s = true

/-- Outside of `TerminateStart` nothing is claimed. -/
theorem Emptied.idle (s : ConnectionEnd) : Emptied false s := fun h => by cases h

theorem Emptied.plain {b : Bool} {s : ConnectionEnd} (h : s.mSSLConfigured = false) :
    Emptied b s := by
  intro _ hsends
  rw [sends, h] at hsends
  cases hsends

theorem Emptied.empty {b : Bool} {s : ConnectionEnd} {send : OwnList}
    (hsend : s.mSendBuffer = some send) (hempty : send.list.bytes = []) : Emptied b s := by
  intro _ _
  rw [nothingQueued, hsend]
  show send.list.bytes.isEmpty = true
  rw [hempty, List.isEmpty_nil]

/-- The invariant looks at the mode, the error and the queue. -/
theorem Emptied.same {b : Bool} {s s' : ConnectionEnd} (h : Emptied b s)
    (hconf : s'.mSSLConfigured = s.mSSLConfigured) (herror : s'.mSendError = s.mSendError)
    (hsend : s'.mSendBuffer = s.mSendBuffer) : Emptied b s' := by
  intro hb hsends
  rw [sends, hconf, herror] at hsends
  rw [nothingQueued, hsend]
  exact h hb hsends

/-- The contract. -/
def stream : StreamContract phase where
  Inv := Emptied
  Every := fun b s x => x = .calls .terminateStart (.inner .terminateStart) → Emptied b s
  Within := fun _ _ => True
  refl := fun _ => trivial
  trans := fun _ _ _ _ _ => trivial

/-- Only two calls are observed. -/
theorem notifying_eq (b : Bool) {x : Label CESig} (hx : ∀ c, x ≠ .calls .terminateStart c) :
    notifying b x = b := by
  unfold notifying
  split
  · exact absurd rfl (hx _)
  · exact absurd rfl (hx _)
  · rfl

/-- An event that is not one of these calls keeps the invariant. -/
theorem kept {b : Bool} {s : ConnectionEnd} {x : Label CESig} (h : Emptied b s)
    (hx : ∀ c, x ≠ .calls .terminateStart c) :
    stream.Every b s x ∧ Emptied (notifying b x) s := by
  refine ⟨fun heq => absurd heq (hx _), ?_⟩
  rw [notifying_eq b hx]
  exact h

/-- A call that is not the close notify of `TerminateStart` keeps the invariant. -/
theorem kept_call {b : Bool} {s : ConnectionEnd} {e : Entry} {c : Call} (h : Emptied b s)
    (hx : e ≠ .terminateStart ∨ c ≠ .mbedtlsSslCloseNotify) :
    stream.Every b s (.calls e c) ∧ Emptied (notifying b (.calls e c)) s := by
  refine ⟨fun _ => h, ?_⟩
  unfold notifying
  split
  · next heq =>
    cases heq
    rcases hx with he | hc
    · exact absurd rfl he
    · exact absurd rfl hc
  · exact .idle s
  · exact h

theorem quietQuery (q : Query) : NewtonTLS.Quiet stream.toContract q := by
  intro b s a
  exact ⟨fun heq => (by cases heq), rfl⟩

/-! ## The sides that do not send -/

/-- Receiving leaves the queue alone. -/
theorem quiet_receive : stream.Quiet Entry.receives Query.isReceive Call.isReceive where
  enter := fun _ _ _ _ h => kept h (by simp)
  leave := fun _ _ _ _ _ h => kept h (by simp)
  asked := fun _ _ _ _ _ h => kept h (by simp)
  calls := by
    intro e c b s he _ h
    refine kept_call h (.inl ?_)
    rintro rfl
    cases he
  resumes := fun _ _ _ _ _ h => kept h (by simp)

theorem quiet_rest : stream.Quiet Entry.rests Query.isRest Call.isRest where
  enter := fun _ _ _ _ h => kept h (by simp)
  leave := fun _ _ _ _ _ h => kept h (by simp)
  asked := fun _ _ _ _ _ h => kept h (by simp)
  calls := by
    intro e c b s he _ h
    refine kept_call h (.inl ?_)
    rintro rfl
    cases he
  resumes := fun _ _ _ _ _ h => kept h (by simp)

/-! ## The sending side -/

section send

variable {extra : List Call → Bool → ConnectionEnd → Label CESig → Bool} {e : Entry}
  {stk : List Call} {b : Bool} {s : ConnectionEnd}

/-- What a call of the sending side leaves. -/
theorem callKept (he : e.sends = true) (h : Emptied b s) (c : Call) :
    CallKept stream.toContract (discipline phase extra) e stk Emptied b s c := by
  have hcall := kept_call (e := e) (c := c) h (.inl (by rintro rfl; cases he))
  exact ⟨hcall.1, hcall.2, fun _ _ _ hat _ _ => kept hat (by simp)⟩

/-- A put takes the bytes out of the queue. -/
theorem sat_putPutDataBuffer (he : e.sends = true) (h : Emptied b s)
    {Q : Post phase ConnectionEnd Unit} (hQ : ∀ b' s', Emptied b' s' → Q b' (some ()) s') :
    putPutDataBuffer.Sat stream.toContract (discipline phase extra) e stk Q b s := by
  have hpending : Emptied b { s with mSendPending := true } := h.same rfl rfl rfl
  simp only [putPutDataBuffer, Code.sat_bind, Code.sat_modify, Post.andThen_some, Code.sat_get]
  exact (callKept he hpending _).sat_inner hQ

/-- The next put is made of what is queued. -/
theorem sat_putCompleteCB (he : e.sends = true) (result : Int) (count : ℕ) (h : Emptied b s)
    {Q : Post phase ConnectionEnd Unit} (hQ : ∀ b' s', Emptied b' s' → Q b' (some ()) s') :
    (putCompleteCB result count).Sat stream.toContract (discipline phase extra) e stk Q b s := by
  simp only [putCompleteCB, Code.sat_bind, Code.sat_get, Post.andThen_some, Code.sat_ite,
    Code.sat_modify]
  refine ⟨fun _ => ⟨fun hfailed => hQ _ _ fun _ hsends => ?_, fun _ => ?_⟩, fun _ => ?_⟩
  · rw [sends, Bool.and_eq_true, decide_eq_true_eq] at hsends
    exact absurd hsends.2 hfailed
  · refine sat_deref _ fun put hput => ?_
    simp only [Post.andThen_some, Code.sat_ite, Code.sat_bind, Code.sat_get]
    refine ⟨fun _ => sat_deref _ fun send _ => ?_, fun _ => ?_⟩
    · -- the queue moves into the list of the next put
      simp only [Post.andThen_some, Code.sat_ite, Code.sat_bind, Code.sat_modify]
      refine ⟨fun _ => sat_putPutDataBuffer he ?_ hQ, fun _ => hQ _ _ ?_⟩
      · exact .empty rfl (BufferList.moveAll_fst_bytes send.list put.list.deleteAll)
      · exact .empty rfl (BufferList.moveAll_fst_bytes send.list put.list.deleteAll)
    · exact sat_putPutDataBuffer he (h.same rfl rfl rfl) hQ
  · exact (callKept he h _).sat_client hQ

/-- A callback that finds the connection idle puts its bytes at once. -/
theorem sat_sslSendCallback (he : e.sends = true) (buf : List Byte) (h : Emptied b s)
    (hok : findsIdle b s (.enter (.sslSendCallback buf)) = true) {Q : Post phase ConnectionEnd Int}
    (hQ : ∀ r b' s', Emptied b' s' → Q b' (some r) s') :
    (sslSendCallback buf).Sat stream.toContract (discipline phase extra) e stk Q b s := by
  simp only [sslSendCallback, Code.sat_bind, Code.sat_get, Post.andThen_some, Code.sat_ite]
  refine ⟨fun _ => hQ _ _ _ h, fun _ => sat_deref _ fun send hsend => ?_⟩
  simp only [Post.andThen_some, Code.sat_bind]
  refine (quietQuery _).sat_ask fun _ => ?_
  simp only [Post.andThen_some, Code.sat_bind, Code.sat_ite, Code.sat_modify]
  refine ⟨fun hpending => hQ _ _ _ fun hb hsends => ?_, fun _ => sat_deref _ fun put hput => ?_⟩
  · -- only an empty buffer is queued now
    have hsends' : sends s = true := hsends
    have hbuf : buf = [] := by
      simpa [findsIdle, hb, hsends', hpending] using hok
    have hempty := h hb hsends'
    rw [nothingQueued, hsend] at hempty
    show (send.list.insertLast buf).bytes.isEmpty = true
    rw [BufferList.bytes_insertLast, hbuf, List.append_nil]
    exact hempty
  · simp only [Post.andThen_some, Code.sat_bind, Code.sat_modify]
    refine sat_putPutDataBuffer he ?_ fun b' s' h' => hQ _ _ _ h'
    exact .empty rfl (BufferList.moveAll_fst_bytes (send.list.insertLast buf) put.list)

/-- The sending functions keep the queue empty. -/
theorem serves_send {fuel : ℕ} (he : e.sends = true) (hok : findsIdle b s (.enter e) = true)
    (h : Emptied b s) : stream.Serves extra fuel e stk b s := by
  have hends : ∀ v b' s', Emptied b' s' → stream.Ends stk e s b' (some v) s' := by
    intro v b' s' h'
    obtain ⟨hev, hinv⟩ := kept (x := .leave e (some v)) h' (by simp)
    exact ⟨hev, hinv, fun _ => trivial⟩
  refine ⟨(kept h (by simp)).1, ?_⟩
  cases e with
  | putCompleteCB of read result count =>
    simp only [code, unit, Code.sat_bind, Code.sat_modify, Post.andThen_some]
    refine sat_putCompleteCB rfl result count ?_ fun b' s' h' => hends _ _ _ h'
    show Emptied b (innerReads of read.length s)
    unfold innerReads
    split
    · split
      · exact h.same rfl rfl rfl
      · exact h
    · exact h
  | sslSendCallback buf =>
    simp only [code, Code.sat_bind]
    exact sat_sslSendCallback rfl buf h hok fun r b' s' h' => hends _ _ _ h'
  | _ => cases he

end send

/-! ## The requests -/

theorem callRules (extra : List Call → Bool → ConnectionEnd → Label CESig → Bool) :
    CallRules stream.toContract extra Emptied where
  at_iff := fun _ _ _ _ => Iff.rfl
  rely_out := fun _ _ _ _ _ _ hout _ => stream.rely_out hout
  rely_tls := fun _ _ _ _ _ _ hc h => stream.rely_tls hc h
  timer := fun _ _ _ _ _ h => h.same rfl rfl rfl
  clock := quietQuery _
  calls := by
    intro e stk b s c _ htls h _
    refine kept_call h (.inr ?_)
    rintro rfl
    cases htls
  resumes := fun _ _ _ _ _ _ _ h _ _ => kept h (by simp)

/-- Only `TerminateStart` is observed to write. -/
theorem sendRules (extra : List Call → Bool → ConnectionEnd → Label CESig → Bool) :
    SendRules stream.toContract extra Emptied (· ≠ .terminateStart) where
  basic := callRules extra
  putList := fun q _ => quietQuery q
  tlsCalls := fun _ _ _ _ _ he _ _ h _ => kept_call h (.inl he)
  tlsResumes := fun _ _ _ _ _ _ _ h _ _ => kept h (by simp)
  lost := fun _ _ _ _ _ h => h.same rfl rfl rfl
  closing := fun _ _ h => h.same rfl rfl rfl
  reset := fun _ _ _ h _ => kept h (by simp)

theorem readRules : ReadRules stream.toContract Emptied where
  getList := fun q _ => quietQuery q
  frame := fun _ _ _ h => h.same rfl rfl rfl
  read := fun _ _ _ _ h _ => kept_call h (.inr (by simp))
  readEnds := fun _ _ _ _ h => kept h (by simp)
  completes := fun _ _ _ _ _ _ _ h => kept_call h (.inr (by simp))

/-- What the phase contract asks of the environment. -/
def idle : List Call → Bool → ConnectionEnd → Label CESig → Bool := fun _ => findsIdle

/-- `TerminateStart` finds nothing queued, and forwards the termination while that is so. -/
theorem sat_terminateStart {stk : List Call} {b : Bool} {s : ConnectionEnd}
    (hout : OutsideTLS .terminateStart stk) (hok : findsIdle b s (.enter .terminateStart) = true)
    (h : Emptied b s) {Q : Post phase ConnectionEnd Unit}
    (hQ : ∀ b' s', Emptied b' s' → Q b' (some ()) s') :
    terminateStart.Sat stream.toContract (discipline phase idle) .terminateStart stk Q b s := by
  have hgo : ∀ b' s', Emptied b' s' → (inner .terminateStart).Sat stream.toContract
      (discipline phase idle) .terminateStart stk Q b' s' := fun b' s' h' =>
    (callRules idle).sat_inner hout h' (fun _ hl => by cases hl) rfl hQ
  simp only [terminateStart, Code.sat_bind, Code.sat_get, Post.andThen_some, Code.sat_ite]
  refine ⟨fun hlive => ?_, fun _ => hgo _ _ h⟩
  have hempty : Emptied true s := by
    -- the discipline: the alert is sent while nothing is queued
    intro _ hsends
    simpa [findsIdle, hsends, hlive.2] using hok
  refine (callRules idle).sat_tls (c := .mbedtlsSslCloseNotify) hout rfl
    ⟨fun heq => (by cases heq), hempty⟩ fun r b' s' h' _ _ _ => ?_
  obtain ⟨hev, hnext⟩ := kept (x := .resumes .mbedtlsSslCloseNotify r) h' (by simp)
  exact ⟨hev, hgo _ _ (hnext.same rfl rfl rfl)⟩

theorem entryRules :
    EntryRules stream.toContract idle Emptied fun _ _ b' s' => Emptied b' s' where
  basic := callRules idle
  enter := by
    intro stk e b s _ _ h
    obtain ⟨hev, hnext⟩ := kept (x := .enter e) h (by simp)
    exact ⟨hev, fun _ => hnext⟩
  leave := fun _ _ _ _ _ h => kept h (by simp)
  opened := fun _ _ _ _ _ => .plain rfl
  connects := fun _ _ _ _ h _ => (kept (x := .enter .connectStart) h (by simp)).2
  connected := fun _ r _ _ _ h _ => ConnectionEnd.of_connected r
    (kept (x := .enter (.connectCompleteCB r)) h (by simp)).2
    (kept (x := .enter (.connectCompleteCB r)) (h.same rfl rfl rfl) (by simp)).2
  enabled := fun _ b _ _ _ h =>
    (kept (x := .enter (.processOptionStart (.sslEnable b))) (h.same rfl rfl rfl) (by simp)).2
  closed := by
    intro stk b s _ h _
    obtain ⟨hev, hnext⟩ := kept (x := .resumes (.inner .closeStart) ()) h (by simp)
    exact ⟨hev, hnext, fun _ => sat_sslUnconfigure (fun q _ => quietQuery q) (.plain rfl)⟩
  delete := fun _ _ _ hout _ h => (callRules idle).sat_delete ⟨rfl, hout⟩ (quietQuery _)
    (fun _ => quietQuery _) (fun _ _ _ h => h.same rfl rfl rfl)
    (kept (x := .enter .delete) h (by simp)).2
    fun _ => sat_sslUnconfigure (fun q _ => quietQuery q) ⟨rfl, .plain rfl⟩
  configure := by
    intro e stk fuel b s hout hbegins
    have h : Emptied b s := hbegins.elim
      (fun _ _ _ h _ => (kept (x := .enter .connectStart) h (by simp)).2) fun _ _ _ h _ =>
      (kept (x := .enter (.processOptionStart (.sslEnable true))) (h.same rfl rfl rfl) (by simp)).2
    refine sat_configure_of_quiet (fun q _ => quietQuery q) (fun _ _ _ h => h.same rfl rfl rfl) ?_
      fuel hout h
    -- a new configuration starts with an empty queue
    intro stk b s v _ _ _
    exact ⟨fun heq => (by cases heq), .empty rfl BufferList.bytes_empty⟩
  configured := fun _ _ _ _ h => h
  setter := fun _ _ fuel o _ _ _ ho _ h =>
    sat_setter_of_quiet (fun q _ => quietQuery q) (quietQuery _) (fun _ _ _ h => h.same rfl rfl rfl)
      fuel o ho (kept (x := .enter (.processOptionStart o)) h (by simp)).2
  getSSL := by
    intro e stk fuel l threshold b s hout hgets _ h _
    have hmem : MemoryQuiet stream.toContract := fun q _ => quietQuery q
    refine (sendRules idle).sat_getFromSSL (readRules.bufferRules hmem) ?_ hout fuel l
      threshold h (fun size a _ => readRules.started hmem h size a) fun _ _ h' => h'
    rintro rfl
    cases hgets
  reread := fun _ fuel _ _ hout h _ hest _ =>
    (sendRules idle).sat_retryRead (readRules.bufferRules fun q _ => quietQuery q) (by simp)
      ⟨rfl, hout⟩ fuel h hest fun _ _ h' => h'
  put := fun _ l _ _ hout h hconf _ hest =>
    (sendRules idle).sat_putToSSL (by simp) ⟨rfl, hout⟩ l h hconf hest fun _ _ h' => h'
  terminate := fun _ _ _ hout hok h =>
    sat_terminateStart ⟨rfl, hout⟩ hok h fun _ _ h' => h'
  begins := fun _ _ _ _ _ _ heq => by cases heq
  upgrades := fun _ _ _ heq => by cases heq
  handshake := by
    intro e stk b s _ hcause
    have h : Emptied b s := hcause.inv (fun _ e _ _ _ _ h => (kept (x := .enter e) h (by simp)).2)
      (fun _ _ _ _ h => h) fun _ _ r h => (kept (x := .asked (.handshakeBegins r) ()) h (by simp)).2
    exact kept_call h (.inr (by simp))
  outcome := by
    intro e stk b s b' s' r _ _ h _ _
    obtain ⟨hev, hnext⟩ := kept (x := .resumes .mbedtlsSslHandshake r) h (by simp)
    refine ⟨hev, fun _ => kept_call (hnext.same rfl rfl rfl) (.inr (by simp)), ?_, fun _ => hnext⟩
    intro _ _ a i f t
    exact ⟨fun heq => (by cases heq), kept_call (hnext.same rfl rfl rfl) (.inr (by simp))⟩

/-- Every function meets the contract. -/
theorem meets (fuel : ℕ) : stream.toContract.Meets (discipline phase idle) (code fuel) := by
  refine StreamContract.meets_entries entryRules fuel fun e stk b s he _ hok h => ?_
  rcases e.isTraffic_cases he with hreceive | hsend | hrest
  · exact stream.serves_receive quiet_receive (fun _ _ _ h => h.same rfl rfl rfl)
      (fun _ _ => trivial) hreceive h
  · exact serves_send hsend hok h
  · exact stream.serves_rest quiet_rest (fun _ _ _ _ _ h => h.same rfl rfl rfl)
      (fun _ _ _ _ => trivial) hrest h

/-! ## What has been put is handed over -/

/-- A sender that carries the stream and has nothing queued has handed everything over. -/
theorem handedOver_of_carries {g : SendStream.Seen} {s : ConnectionEnd} {put send : OwnList}
    (h : SendStream.Carries g s put send) (herror : s.mSendError = 0)
    (hempty : nothingQueued s = true) : handedOver g s = true := by
  have hbytes : send.list.bytes = [] := by
    rw [nothingQueued, h.send_eq] at hempty
    exact List.isEmpty_iff.mp hempty
  have hstream : g.consumed ++ put.list.unread = g.accepted := by
    rw [← h.stream, hbytes, List.append_nil]
  have hsent : put.list.unread.isEmpty = true ∨ s.mSendPending = true := by
    by_cases hpending : s.mSendPending = true
    · exact .inr hpending
    · obtain ⟨hsegs, -⟩ := h.idle (by simpa using hpending) herror
      left
      rw [BufferList.unread, BufferList.bytes, hsegs, List.flatten_nil, List.drop_nil,
        List.isEmpty_nil]
  rw [handedOver, hempty, h.put_eq]
  simpa [hstream] using hsent

/-- The discipline of the runs: the inner end completes what is outstanding, and the disconnect
finds the sender idle. -/
def orderly (_ : List Call) (g : SendStream.Seen × Bool) (s : ConnectionEnd)
    (x : Label CESig) : Bool :=
  SendStream.completesPut g.1 s x && findsIdle g.2 s x

/-- **What has been acknowledged survives the disconnect**, in every run in which `TerminateStart`
finds nothing queued and mbedTLS sends the alert while no put is outstanding. -/
theorem acknowledged_handed_over {fuel : ℕ} {memory : ConnectionEnd}
    {cfg : Config CESig ConnectionEnd}
    (h : Reachable (discipline monitor orderly) (code fuel) (new memory) cfg) :
    cfg.log.Obeys monitor fun g s x => disconnected g s x = true := by
  have hsend : monitor.Reads SendStream.monitor Prod.fst := ⟨rfl, fun _ _ => rfl⟩
  have hphase : monitor.Reads phase Prod.snd := ⟨rfl, fun _ _ => rfl⟩
  -- one run, seen by the observer of the stream and by the one of the phase
  have hpasses := (SendStream.meets fuel).pull hsend (D := discipline monitor orderly) <| by
    intro stk g s x hperm
    simp only [discipline, orderly, Bool.and_eq_true] at hperm ⊢
    exact ⟨hperm.1, hperm.2.1⟩
  have hempties := (meets fuel).pull hphase (D := discipline monitor orderly) <| by
    intro stk g s x hperm
    simp only [discipline, orderly, idle, Bool.and_eq_true] at hperm ⊢
    exact ⟨hperm.1, hperm.2.2⟩
  intro before x after hl
  have hcarries := Contract.log_passes hpasses (P := fun g s => SendStream.Sends g.1 s)
    (fun _ _ _ hat => hat) (.plain rfl) h before x after hl
  have hempty := Contract.log_obeys hempties (.idle _) h before x after hl
  obtain ⟨s, x⟩ := x
  change x = .calls .terminateStart (.inner .terminateStart) → Emptied (monitor.run before).2 s
    at hempty
  unfold disconnected
  split
  · next heq =>
    subst heq
    rw [Bool.or_eq_true, Bool.not_eq_true', ← Bool.not_eq_true, Bool.and_eq_true]
    by_cases hlive : (monitor.run before).2 = true ∧ sends s = true
    · right
      obtain ⟨hb, hsends⟩ := hlive
      have hqueue : nothingQueued s = true := hempty rfl hb hsends
      rw [sends, Bool.and_eq_true, decide_eq_true_eq] at hsends
      obtain ⟨put, send, hc⟩ := hcarries hsends.1
      exact handedOver_of_carries hc hsends.2 hqueue
    · exact .inl hlive
  · rfl

/-- A put is sent and completed, and then the connection is terminated. -/
def completedRun : List (Move CESig) :=
  connectRun ++ [enter (.putBytesStart 0), enter (.sslSendCallback [1, 2]), back, backWith 2, back,
    enter (.putCompleteCB (.own 3) [1, 2] 0 2), enter .terminateStart,
    enter (.sslSendCallback [3]), back, back]

/-- The put is completed before the connection is terminated. -/
theorem acknowledged_handed_over_completedRun :
    ∃ cfg, (Config.start (new zeroMemory)).run (discipline monitor orderly) (code 0) completedRun =
        some cfg ∧
      monitor.run cfg.log = (⟨[1, 2, 3], [1, 2], 1⟩, false) ∧
      cfg.log.Obeys monitor fun g s x => disconnected g s x = true := by
  have hrun : ((Config.start (new zeroMemory)).run (discipline monitor orderly) (code 0)
      completedRun).map (fun cfg => monitor.run cfg.log) =
        some (⟨[1, 2, 3], [1, 2], 1⟩, false) := by
    decide +kernel
  obtain ⟨cfg, hcfg, hseen⟩ := Option.map_eq_some_iff.mp hrun
  exact ⟨cfg, hcfg, hseen, acknowledged_handed_over (.of_run _ .start hcfg)⟩

/-- The first of two puts is still outstanding when the connection is terminated: the second, which
the client has been told is complete, and the alert stay behind. -/
def outstandingRun : List (Move CESig) :=
  connectRun ++ [enter (.putBytesStart 0), enter (.sslSendCallback [1, 2]), back, backWith 2, back,
    enter (.putBytesStart 0), enter (.sslSendCallback [3]), backWith 1, back,
    enter .terminateStart, enter (.sslSendCallback [4]), back]

/-- A termination while a put is outstanding leaves the close notify behind. -/
theorem acknowledged_not_handed_over :
    ¬ ∀ (fuel : ℕ) (memory : ConnectionEnd) (cfg : Config CESig ConnectionEnd),
      Reachable (discipline monitor fun _ g s x => SendStream.completesPut g.1 s x) (code fuel)
          (new memory) cfg →
        cfg.log.Obeys monitor fun g s x => disconnected g s x = true := by
  intro hall
  have hbad : ((Config.start (new zeroMemory)).run (discipline monitor fun _ g s x =>
      SendStream.completesPut g.1 s x) (code 0) outstandingRun).map (fun cfg =>
        Log.check monitor disconnected monitor.init cfg.log) = some false := by
    decide +kernel
  obtain ⟨cfg, hreach, hnot⟩ := Reachable.not_obeys outstandingRun hbad
  exact hnot (hall 0 zeroMemory cfg hreach)

end OrderlyDisconnect

end NewtonTLS
