/-
# Contracts about what traffic moves

A `StreamContract` has an invariant that may look at the buffers of both directions,
and says what can happen to the object while the inner end or the client has control
inside of mbedTLS (`Within`).  That traffic leaves the core alone is known already
(`coreKept_meets`) and comes for free.

`StreamContract.meets` is the rule of the module: the requests obey `RequestRules`,
and every entry point of traffic serves the contract (`Serves`).  A side of the
traffic that the contract does not look at (`Quiet`) serves it, as the other sides do
when the contract looks at one direction only (`Sees`).
-/
import NewtonTLS.ConnectionEndRules

open Reentrant

namespace NewtonTLS

/-! ## What holds without a contract -/

/-- Nothing is asked but what holds of all traffic. -/
def coreKept : CoreContract (Monitor.blind CESig) where
  Inv := fun _ _ => True
  Every := fun _ _ _ => True
  inv_core := fun _ _ _ _ _ => trivial
  quiet := fun _ _ _ _ _ => ⟨trivial, rfl⟩

theorem coreKept_quiet (q : Query) : Quiet coreKept.toContract q := fun _ _ _ => ⟨trivial, rfl⟩

theorem coreKept_basicRules :
    BasicRules coreKept.toContract (fun _ _ _ _ => true) fun _ _ => True where
  at_iff := fun _ _ _ _ => Iff.rfl
  rely_out := fun _ _ _ _ _ hout => coreKept.rely_out hout
  rely_tls := fun _ _ _ _ _ _ hc h => (coreKept.rely_tls hc h).2
  frame := fun _ _ _ _ _ _ => trivial
  memory := fun q _ => coreKept_quiet q
  putList := fun q _ => coreKept_quiet q
  calls := fun _ _ _ _ _ _ _ _ => ⟨trivial, trivial⟩
  resumes := fun _ _ _ _ _ _ _ _ _ => ⟨trivial, trivial⟩
  reset := fun _ _ _ _ _ => ⟨trivial, trivial⟩

theorem coreKept_readRules : ReadRules coreKept.toContract fun _ _ => True where
  getList := fun q _ => coreKept_quiet q
  frame := fun _ _ _ _ => trivial
  read := fun _ _ _ _ _ _ => ⟨trivial, trivial⟩
  readEnds := fun _ _ _ _ _ => ⟨trivial, trivial⟩
  completes := fun _ _ _ _ _ _ _ _ => ⟨trivial, trivial⟩

theorem coreKept_requestRules : RequestRules coreKept.toContract (fun _ _ _ _ => true)
    (fun _ _ => True) fun _ _ _ _ => True where
  basic := coreKept_basicRules
  enter := fun _ _ _ _ _ _ _ => ⟨trivial, trivial⟩
  leave := fun _ _ _ _ _ _ => ⟨trivial, trivial⟩
  opened := fun _ _ _ _ _ => trivial
  closed := fun _ _ _ _ _ _ => ⟨trivial, trivial, fun _ => trivial⟩
  deleted := fun _ _ _ _ _ _ => trivial
  configure := fun _ _ fuel _ _ hout _ =>
    sat_configure_of_quiet (fun q _ => coreKept_quiet q) (fun _ _ _ _ => trivial)
      (fun _ _ _ _ _ _ _ => ⟨trivial, trivial⟩) fuel hout trivial
  configured := fun _ _ _ _ _ => trivial
  setter := fun _ _ fuel o _ _ _ ho _ _ =>
    sat_setter_of_quiet (fun q _ => coreKept_quiet q) (coreKept_quiet _) (fun _ _ _ _ => trivial)
      fuel o ho trivial
  getSSL := fun _ _ fuel b threshold _ _ hout _ _ =>
    coreKept_basicRules.sat_getFromSSL coreKept_readRules hout fuel b
      threshold trivial fun _ _ _ => trivial
  reread := fun _ _ fuel _ _ hout _ hest =>
    coreKept_basicRules.sat_retryRead coreKept_readRules hout fuel trivial hest
      fun _ _ _ => trivial
  begins := fun _ _ _ _ => trivial
  handshake := fun _ _ _ _ _ _ => ⟨trivial, trivial⟩
  outcome := fun _ _ _ _ _ _ _ _ _ _ _ _ =>
    ⟨trivial, fun _ => ⟨trivial, trivial⟩, fun _ _ _ _ _ _ => ⟨trivial, trivial, trivial⟩,
      fun _ => trivial⟩

/-- Under every monitor and discipline, traffic inside of mbedTLS leaves the core alone. -/
theorem coreKept_meets (M : Monitor CESig)
    (extra : List Call → M.Obs → ConnectionEnd → Label CESig → Bool) (fuel : ℕ) :
    (coreKept.toContract.see M).Meets (discipline M extra) (code fuel) := by
  refine (coreKept.meets coreKept_requestRules fuel).see fun stk g s x h => ?_
  simp only [discipline, Bool.and_eq_true] at h ⊢
  exact ⟨h.1, trivial⟩

/-! ## Stream contracts -/

/-- The inner end or the client has control inside of a function of mbedTLS. -/
def nested (stk : List Call) : Bool := inTLS stk && !atTLS stk

/-- Below a call that is not one of mbedTLS, being nested is being inside. -/
theorem nested_cons {c : Call} (hc : c.isTLS = false) (stk : List Call) :
    nested (c :: stk) = inTLS stk := by
  simp [nested, atTLS, hc]

/-- A contract about the buffers. -/
structure StreamContract (M : Monitor CESig) : Type 1 where
  Inv : M.Obs → ConnectionEnd → Prop
  Every : M.Obs → ConnectionEnd → Label CESig → Prop
  Within : ConnectionEnd → ConnectionEnd → Prop
  refl : ∀ s, Within s s
  trans : ∀ s₁ s₂ s₃, Within s₁ s₂ → Within s₂ s₃ → Within s₁ s₃

variable {M : Monitor CESig}

/-- As a contract: while mbedTLS runs the core stays as it is, and a nested call stays within
`Within`. -/
def StreamContract.toContract (C : StreamContract M) : Contract M ConnectionEnd where
  At := fun _ => C.Inv
  Rely := fun stk _ s _ s' =>
    (inTLS stk = true → SameCore s s') ∧ (nested stk = true → C.Within s s')
  Every := C.Every
  refl := fun _ _ s => ⟨fun _ => .refl s, fun _ => C.refl s⟩
  trans := fun _ _ _ _ _ _ _ h h' =>
    ⟨fun ht => (h.1 ht).trans (h'.1 ht), fun hn => C.trans _ _ _ (h.2 hn) (h'.2 hn)⟩

@[simp] theorem StreamContract.toContract_every (C : StreamContract M) :
    C.toContract.Every = C.Every := rfl

variable {C : StreamContract M}
  {extra : List Call → M.Obs → ConnectionEnd → Label CESig → Bool}
  {Conf : M.Obs → ConnectionEnd → M.Obs → ConnectionEnd → Prop}
  {fuel : ℕ} {e : Entry} {stk : List Call} {g : M.Obs} {s : ConnectionEnd}

/-- Outside of mbedTLS and of calls nothing is relied on. -/
theorem StreamContract.rely_out (hout : inTLS stk = false) {g' : M.Obs} {s' : ConnectionEnd} :
    C.toContract.Rely stk g s g' s' := by
  constructor
  · intro ht
    rw [hout] at ht
    cases ht
  · intro hn
    rw [nested, hout] at hn
    cases hn

/-- Inside of mbedTLS the core stays. -/
theorem StreamContract.rely_tls {c : Call} (hc : c.isTLS = true) {g' : M.Obs}
    {s' : ConnectionEnd} (h : C.toContract.Rely (c :: stk) g s g' s') : SameCore s s' :=
  h.1 (by rw [inTLS_cons, hc, Bool.true_or])

/-- What can happen during a call out of mbedTLS. -/
theorem StreamContract.rely_nested {c : Call} (hc : c.isTLS = false) (hstk : inTLS stk = true)
    {g' : M.Obs} {s' : ConnectionEnd} (h : C.toContract.Rely (c :: stk) g s g' s') :
    SameCore s s' ∧ C.Within s s' := by
  constructor
  · exact h.1 (by rw [inTLS_cons, hstk, Bool.or_true])
  · exact h.2 (by rw [nested_cons hc]; exact hstk)

/-- How an entry point of traffic that was entered in `s` must end. -/
def StreamContract.Ends (C : StreamContract M) (stk : List Call) (e : Entry)
    (s : ConnectionEnd) : Post M ConnectionEnd Value := fun g' v s' =>
  C.Every g' s' (.leave e v) ∧ C.Inv (M.next g' (.leave e v)) s' ∧
    (nested stk = true → C.Within s s')

/-- The entry point can be entered, and ends as it must. -/
def StreamContract.Serves (C : StreamContract M)
    (extra : List Call → M.Obs → ConnectionEnd → Label CESig → Bool) (fuel : ℕ) (e : Entry)
    (stk : List Call) (g : M.Obs) (s : ConnectionEnd) : Prop :=
  C.Every g s (.enter e) ∧ (code fuel e).Sat C.toContract (discipline M extra) e stk
    (C.Ends stk e s) (M.next g (.enter e)) s

/-- **The rule of stream contracts.** -/
theorem StreamContract.meets_entries (R : EntryRules C.toContract extra C.Inv Conf) (fuel : ℕ)
    (htraffic : ∀ e stk g s, e.isTraffic = true → mayEnter stk e = true →
      extra stk g s (.enter e) = true → C.Inv g s → C.Serves extra fuel e stk g s) :
    C.toContract.Meets (discipline M extra) (code fuel) := by
  refine (coreKept_meets M extra fuel).above ⟨fun _ _ _ _ => trivial, ?_⟩
    (R := fun stk _ s _ s' => nested stk = true → C.Within s s') ?_ ?_
  · intro stk g s g' s' h ht
    exact ⟨rfl, h.1 ht⟩
  · intro stk g s g' s' hcore hwithin
    exact ⟨fun ht => (hcore ht).2, hwithin⟩
  · intro stk e g s hperm hat
    by_cases he : e.isTraffic = true
    · simp only [discipline, permitsBase, Bool.and_eq_true] at hperm
      exact htraffic e stk g s he hperm.1 hperm.2 hat
    · obtain ⟨hev, hsat⟩ := R.meets fuel (by simpa using he) hperm hat
      exact ⟨hev, hsat.mono fun g' v s' hpost => ⟨hpost.1, hpost.2.1, hpost.2.2.2⟩⟩

/-- Every function meets the contract if the traffic serves it. -/
theorem StreamContract.meets (R : RequestRules C.toContract extra C.Inv Conf) (fuel : ℕ)
    (htraffic : ∀ e stk g s, e.isTraffic = true → mayEnter stk e = true →
      extra stk g s (.enter e) = true → C.Inv g s → C.Serves extra fuel e stk g s) :
    C.toContract.Meets (discipline M extra) (code fuel) :=
  StreamContract.meets_entries R.entryRules fuel htraffic

/-! ## Sides that are not looked at -/

/-- An entry point that was entered in `s₀` has come to `g` and `s`. -/
def StreamContract.Kept (C : StreamContract M) (stk : List Call) (s₀ : ConnectionEnd) (g : M.Obs)
    (s : ConnectionEnd) : Prop :=
  C.Inv g s ∧ (nested stk = true → C.Within s₀ s)

theorem StreamContract.Kept.start (h : C.Inv g s) : C.Kept stk s g s := ⟨h, fun _ => C.refl s⟩

/-- A call out of an entry point of traffic. -/
theorem StreamContract.Kept.callKept {s₀ : ConnectionEnd} (h : C.Kept stk s₀ g s) {c : Call}
    (hc : c.isTLS = false) (hcall : C.Every g s (.calls e c) ∧ C.Inv (M.next g (.calls e c)) s)
    (hback : ∀ r g' s', C.Inv g' s' → extra (c :: stk) g' s' (.resumes c r) = true →
      C.Every g' s' (.resumes c r) ∧ C.Inv (M.next g' (.resumes c r)) s') :
    CallKept C.toContract (discipline M extra) e stk (C.Kept stk s₀) g s c := by
  refine ⟨hcall.1, hcall.2, fun r g' s' hat hrely hperm => ?_⟩
  simp only [discipline, Bool.and_eq_true] at hperm
  obtain ⟨hev, hinv⟩ := hback r g' s' hat hperm.2
  refine ⟨hev, hinv, fun hn => C.trans _ _ _ (h.2 hn) ?_⟩
  simp only [nested, Bool.and_eq_true] at hn
  exact (StreamContract.rely_nested hc hn.1 hrely).2

/-- The contract does not look at the events of a side of the traffic. -/
structure StreamContract.Quiet (C : StreamContract M) (side : Entry → Bool) (ask : Query → Bool)
    (call : Call → Bool) : Prop where
  enter : ∀ e g s, side e = true → C.Inv g s →
    C.Every g s (.enter e) ∧ C.Inv (M.next g (.enter e)) s
  leave : ∀ e v g s, side e = true → C.Inv g s →
    C.Every g s (.leave e v) ∧ C.Inv (M.next g (.leave e v)) s
  asked : ∀ q a g s, ask q = true → C.Inv g s →
    C.Every g s (.asked q a) ∧ C.Inv (M.next g (.asked q a)) s
  calls : ∀ e c g s, side e = true → call c = true → C.Inv g s →
    C.Every g s (.calls e c) ∧ C.Inv (M.next g (.calls e c)) s
  resumes : ∀ c r g s, call c = true → C.Inv g s →
    C.Every g s (.resumes c r) ∧ C.Inv (M.next g (.resumes c r)) s

/-- The calls of the receiving side. -/
def Call.isReceive : Call → Bool
  | .inner (.getBytesImmediateStart (.own _) _) => true
  | .client (.getComplete _ _ _) => true
  | _ => false

/-- The question of the sending side. -/
def Query.isSend : Query → Bool
  | .sslAccepts _ => true
  | _ => false

/-- The calls of the sending side. -/
def Call.isSend : Call → Bool
  | .inner (.putBytesStart (.own _)) => true
  | .client (.putComplete _ _) => true
  | _ => false

/-- The calls of the rest. -/
def Call.isRest : Call → Bool
  | .client (.plain _) => true
  | _ => false

section quiet

variable {side : Entry → Bool} {ask : Query → Bool} {call : Call → Bool} {s₀ : ConnectionEnd}

theorem StreamContract.Quiet.ask_kept (A : C.Quiet side ask call) {q : Query} (hq : ask q = true)
    (a : q.Answer) (h : C.Kept stk s₀ g s) :
    C.toContract.Every g s (.asked q a) ∧ C.Kept stk s₀ (M.next g (.asked q a)) s := by
  obtain ⟨hev, hinv⟩ := A.asked q a g s hq h.1
  exact ⟨hev, hinv, h.2⟩

/-- A call of this side, which may be answered from inside. -/
theorem StreamContract.Quiet.call_kept (A : C.Quiet side ask call) (he : side e = true) {c : Call}
    (hc : call c = true) (htls : c.isTLS = false) (h : C.Kept stk s₀ g s) :
    CallKept C.toContract (discipline M extra) e stk (C.Kept stk s₀) g s c :=
  h.callKept htls (A.calls e c g s he hc h.1) fun r g' s' h' _ => A.resumes c r g' s' hc h'

/-- What an entry point of the side comes to is a right end. -/
theorem StreamContract.Quiet.ends (A : C.Quiet side ask call) (he : side e = true) {v : Value}
    (h : C.Kept stk s₀ g s) : C.Ends stk e s₀ g (some v) s := by
  obtain ⟨hev, hinv⟩ := A.leave e (some v) g s he h.1
  exact ⟨hev, hinv, h.2⟩

end quiet

/-- The receiving side serves a contract that does not look at it. -/
theorem StreamContract.serves_receive
    (A : C.Quiet Entry.receives Query.isReceive Call.isReceive)
    (hframe : ∀ g s v, C.Inv g s → C.Inv g (s.withReceive v))
    (hwithin : ∀ s v, C.Within s (s.withReceive v)) (he : e.receives = true) (h : C.Inv g s) :
    C.Serves extra fuel e stk g s := by
  obtain ⟨hev, hinv⟩ := A.enter e g s he h
  have F : ReceiveFrame C.toContract (C.Kept stk s) :=
    .of_blind (fun q hq g' s' a h' => A.ask_kept hq a h') fun g' s' v _ h' =>
      ⟨hframe g' s' v h'.1, fun hn => C.trans _ _ _ (h'.2 hn) (hwithin s' v)⟩
  exact ⟨hev, F.sat_code fuel he (.start hinv) (fun _ _ _ h' _ => A.call_kept he rfl rfl h')
    (fun _ _ _ _ _ h' _ => A.call_kept he rfl rfl h') fun v g' s' h' => A.ends he h'⟩

/-- The sending side serves a contract that does not look at it. -/
theorem StreamContract.serves_send (A : C.Quiet Entry.sends Query.isSend Call.isSend)
    (hframe : ∀ g s v, C.Inv g s → C.Inv g (s.withSend v))
    (hwithin : ∀ s v, C.Within s (s.withSend v)) (he : e.sends = true) (h : C.Inv g s) :
    C.Serves extra fuel e stk g s := by
  obtain ⟨hev, hinv⟩ := A.enter e g s he h
  have F : SendFrame C.toContract (C.Kept stk s) :=
    { accept := fun g' s' buf a h' => A.ask_kept (q := .sslAccepts buf) rfl a h'
      frame := fun g' s' v _ h' =>
        ⟨hframe g' s' v h'.1, fun hn => C.trans _ _ _ (h'.2 hn) (hwithin s' v)⟩ }
  exact ⟨hev, F.sat_code (fun _ _ _ h' _ => A.call_kept he rfl rfl h') (fun _ _ h' => h')
    fuel he (.start hinv) (fun _ _ _ _ h' _ => A.call_kept he rfl rfl h')
    fun v g' s' h' => A.ends he h'⟩

/-- The rest serves a contract that does not look at it. -/
theorem StreamContract.serves_rest (A : C.Quiet Entry.rests Query.isRest Call.isRest)
    (hframe : ∀ g s i f b, C.Inv g s → C.Inv g (s.withTimer i f b))
    (hwithin : ∀ s i f b, C.Within s (s.withTimer i f b)) (he : e.rests = true) (h : C.Inv g s) :
    C.Serves extra fuel e stk g s := by
  obtain ⟨hev, hinv⟩ := A.enter e g s he h
  have F : RestFrame C.toContract (C.Kept stk s) :=
    { ask := fun q hq g' s' a h' => A.ask_kept hq a h'
      timer := fun g' s' i f b h' =>
        ⟨hframe g' s' i f b h'.1, fun hn => C.trans _ _ _ (h'.2 hn) (hwithin s' i f b)⟩ }
  exact ⟨hev, F.sat_code fuel he (.start hinv) (fun _ _ _ h' => A.call_kept he rfl rfl h')
    fun v g' s' h' => A.ends he h'⟩

/-! ## Requests do not touch the streams -/

/-- The mode and both sides of the traffic. -/
def ConnectionEnd.streamValues (s : ConnectionEnd) : Bool × SendValues × ReceiveValues :=
  (s.mSSLConfigured, s.sendValues, { s.receiveValues with nextPtr := 0 })

/-- The events of requests, up to the mark of a configuration and the calls that pass on a
list. -/
def Label.isRequest : Label CESig → Bool
  | .enter e => !e.isTraffic
  | .leave e _ => !e.isTraffic
  | .asked .sslConfigured _ => false
  | .asked (.sslAccepts _) _ => false
  | .asked (.bytesBehindBlock _ _) _ => false
  | .asked _ _ => true
  | .calls _ (.inner c) => c.list?.isNone
  | .calls e (.client _) => !e.isTraffic
  | .calls _ _ => true
  | .resumes _ _ => true

/-! ## Contracts about one direction -/

/-- The requests for bytes. -/
def InnerCall.gets : InnerCall → Bool
  | .getBytesStart _ => true
  | .getFramedBytesStart _ => true
  | .getBytesImmediateStart _ _ => true
  | _ => false

/-- The requests that pass on bytes. -/
def InnerCall.puts : InnerCall → Bool
  | .putBytesStart _ => true
  | .putFramedBytesStart _ _ => true
  | _ => false

/-- What there is to look at in the receiving direction. -/
def Label.isReceive : Label CESig → Bool
  | .enter e => e.receives
  | .leave e _ => e.receives
  | .asked .sslConfigured _ => true
  | .asked (.bytesBehindBlock _ _) _ => true
  | .asked _ _ => false
  | .calls _ (.inner c) => c.gets
  | .calls _ _ => false
  | .resumes _ _ => false

/-- What there is to look at in the sending direction. -/
def Label.isSend : Label CESig → Bool
  | .enter e => e.sends
  | .leave e _ => e.sends
  | .asked .sslConfigured _ => true
  | .asked (.sslAccepts _) _ => true
  | .asked _ _ => false
  | .calls _ (.inner c) => c.puts
  | .calls _ _ => false
  | .resumes _ _ => false

/-- The events of a side of the traffic. -/
def Label.ofSide (side : Entry → Bool) (ask : Query → Bool) (call : Call → Bool) :
    Label CESig → Bool
  | .enter e => side e
  | .leave e _ => side e
  | .asked q _ => ask q
  | .calls _ c => call c
  | .resumes c _ => call c

/-- No request, and nothing of the sending side or of the rest, is of the receiving direction. -/
theorem Label.isReceive_apart {x : Label CESig} (hx : Label.isReceive x = true) :
    Label.isRequest x = false ∧ Label.ofSide Entry.sends Query.isSend Call.isSend x = false ∧
      Label.ofSide Entry.rests Query.isRest Call.isRest x = false := by
  cases x with
  | enter e => cases e <;> first | exact ⟨rfl, rfl, rfl⟩ | cases hx
  | leave e => cases e <;> first | exact ⟨rfl, rfl, rfl⟩ | cases hx
  | asked q => cases q <;> first | exact ⟨rfl, rfl, rfl⟩ | cases hx
  | calls e c =>
    cases c with
    | inner c => cases c <;> first | exact ⟨rfl, rfl, rfl⟩ | cases hx
    | _ => cases hx
  | resumes => cases hx

/-- No request, and nothing of the receiving side or of the rest, is of the sending direction. -/
theorem Label.isSend_apart {x : Label CESig} (hx : Label.isSend x = true) :
    Label.isRequest x = false ∧
      Label.ofSide Entry.receives Query.isReceive Call.isReceive x = false ∧
      Label.ofSide Entry.rests Query.isRest Call.isRest x = false := by
  cases x with
  | enter e => cases e <;> first | exact ⟨rfl, rfl, rfl⟩ | cases hx
  | leave e => cases e <;> first | exact ⟨rfl, rfl, rfl⟩ | cases hx
  | asked q => cases q <;> first | exact ⟨rfl, rfl, rfl⟩ | cases hx
  | calls e c =>
    cases c with
    | inner c => cases c <;> first | exact ⟨rfl, rfl, rfl⟩ | cases hx
    | _ => cases hx
  | resumes => cases hx

/-- The contract looks at no other events than these. -/
structure StreamContract.Sees (C : StreamContract M) (seen : Label CESig → Bool) : Prop where
  every : ∀ g s x, seen x = false → C.Every g s x
  quiet : ∀ g x, seen x = false → M.next g x = g

section sees

variable {seen : Label CESig → Bool}

/-- An event that is not seen keeps the invariant. -/
theorem StreamContract.Sees.kept (A : C.Sees seen) {x : Label CESig} (hx : seen x = false)
    (h : C.Inv g s) : C.Every g s x ∧ C.Inv (M.next g x) s := by
  rw [A.quiet g x hx]
  exact ⟨A.every g s x hx, h⟩

/-- What is apart from all that is seen is not seen. -/
theorem Label.unseen {x : Label CESig} {p : Label CESig → Bool} (hx : p x = true)
    (hapart : seen x = true → p x = false) : seen x = false := by
  by_contra hseen
  rw [hapart (by simpa using hseen)] at hx
  cases hx

/-- A side of which nothing is seen is quiet. -/
theorem StreamContract.Sees.quietSide (A : C.Sees seen) {side : Entry → Bool}
    {ask : Query → Bool} {call : Call → Bool}
    (hside : ∀ x, seen x = true → Label.ofSide side ask call x = false) :
    C.Quiet side ask call where
  enter := fun _ _ _ he h => A.kept (Label.unseen he (hside _)) h
  leave := fun _ _ _ _ he h => A.kept (Label.unseen he (hside _)) h
  asked := fun _ _ _ _ hq h => A.kept (Label.unseen hq (hside _)) h
  calls := fun _ _ _ _ _ hc h => A.kept (Label.unseen hc (hside _)) h
  resumes := fun _ _ _ _ hc h => A.kept (Label.unseen hc (hside _)) h

/-- A contract about the receiving direction does not look at the sending side. -/
theorem StreamContract.Sees.quiet_send (A : C.Sees Label.isReceive) :
    C.Quiet Entry.sends Query.isSend Call.isSend :=
  A.quietSide fun _ hx => (Label.isReceive_apart hx).2.1

/-- The rest is quiet for a contract about receiving. -/
theorem StreamContract.Sees.quiet_rest (A : C.Sees Label.isReceive) :
    C.Quiet Entry.rests Query.isRest Call.isRest :=
  A.quietSide fun _ hx => (Label.isReceive_apart hx).2.2

theorem StreamContract.Sees.memoryQuiet (A : C.Sees Label.isReceive) :
    MemoryQuiet C.toContract := by
  intro q hq g s a
  have hx : Label.isReceive (.asked q a) = false := by
    cases q <;> first | rfl | cases hq
  exact ⟨A.every g s _ hx, A.quiet g _ hx⟩

end sees

/-- A contract about the streams, as the requests see it: where they change the mode, and where
they pass on a list of the client. -/
structure StreamContract.Rules (C : StreamContract M)
    (extra : List Call → M.Obs → ConnectionEnd → Label CESig → Bool) : Prop where
  same : ∀ g s s', s'.streamValues = s.streamValues → C.Inv g s → C.Inv g s'
  every : ∀ g s x, Label.isRequest x = true → C.Every g s x
  quiet : ∀ g x, Label.isRequest x = true → M.next g x = g
  passes : ∀ e g s c b, e.isTraffic = false → c.list? = some (.client b) →
    s.mSSLConfigured = false → C.Inv g s →
    C.Every g s (.calls e (.inner c)) ∧ C.Inv (M.next g (.calls e (.inner c))) s
  opened : ∀ stk g s, extra stk g s (.enter .openStart) = true → C.Inv g s →
    C.Inv g { s with mSSLEnabled := false, mSSLConfigured := false }
  closed : ∀ stk g s,
    extra (.inner .closeStart :: stk) g s (.resumes (.inner .closeStart) ()) = true → C.Inv g s →
    s.mSSLConfigured = true → C.Inv g s.unconfigured
  deleted : ∀ stk g s, extra stk g s (.enter .delete) = true → C.Inv g s →
    s.mSSLConfigured = true → C.Inv g s.unconfigured
  fresh : ∀ stk g s v,
    extra stk g (ConnectionEnd.configured s v) (.asked .sslConfigured ()) = true →
    C.Inv g s → C.Every g (s.configured v) (.asked .sslConfigured ()) ∧
      C.Inv (M.next g (.asked .sslConfigured ())) (s.configured v)

/-- A contract about the configured end only, that looks at no request. -/
theorem StreamContract.Sees.rules_of_plain {seen : Label CESig → Bool} (A : C.Sees seen)
    (hrequest : ∀ x, seen x = true → Label.isRequest x = false)
    (hplain : ∀ g s, s.mSSLConfigured = false → C.Inv g s)
    (hsame : ∀ g s s', s'.streamValues = s.streamValues → C.Inv g s → C.Inv g s')
    (hcalls : ∀ e g s c, C.Every g s (.calls e (.inner c)))
    (hfresh : ∀ g s v, C.Every g (ConnectionEnd.configured s v) (.asked .sslConfigured ()) ∧
      C.Inv (M.next g (.asked .sslConfigured ())) (s.configured v)) :
    C.Rules extra where
  same := hsame
  every := fun g s x hx => A.every g s x (Label.unseen hx (hrequest x))
  quiet := fun g x hx => A.quiet g x (Label.unseen hx (hrequest x))
  passes := fun e g s c _ _ _ hconf _ => ⟨hcalls e g s c, hplain _ _ hconf⟩
  opened := fun _ _ _ _ _ => hplain _ _ rfl
  closed := fun _ _ _ _ _ _ => hplain _ _ rfl
  deleted := fun _ _ _ _ _ _ => hplain _ _ rfl
  fresh := fun _ g s v _ _ => hfresh g s v

namespace StreamContract.Rules

variable (R : C.Rules extra)
include R

/-- An event of a request keeps the invariant. -/
theorem kept {x : Label CESig} (hx : Label.isRequest x = true) (h : C.Inv g s) :
    C.toContract.Every g s x ∧ C.Inv (M.next g x) s := by
  refine ⟨R.every g s x hx, ?_⟩
  rw [R.quiet g x hx]
  exact h

/-- A completion for the client keeps the invariant. -/
theorem kept_client (hout : OutsideTLS e stk) (c : ClientCall) (h : C.Inv g s) :
    C.toContract.Every g s (.calls e (.client c)) ∧
      C.Inv (M.next g (.calls e (.client c))) s :=
  R.kept (by simp [Label.isRequest, hout.notTraffic]) h

/-- A question that makes no request. -/
theorem quietQuery {q : Query} (hq : ∀ a, Label.isRequest (.asked q a) = true) :
    NewtonTLS.Quiet C.toContract q := fun g s a =>
  ⟨R.every g s (.asked q a) (hq a), R.quiet g (.asked q a) (hq a)⟩

theorem setupQuiet : SetupQuiet C.toContract := by
  intro q hq
  apply R.quietQuery
  intro a
  cases q <;> first | rfl | cases hq

theorem basicRules : BasicRules C.toContract extra C.Inv where
  at_iff := fun _ _ _ _ => Iff.rfl
  rely_out := fun _ _ _ _ _ hout => C.rely_out hout
  rely_tls := fun _ _ _ _ _ _ hc h => C.rely_tls hc h
  frame := fun g s v h _ _ => R.same g s (s.withFlags v) rfl h
  memory := R.setupQuiet.memory
  putList := by
    intro q hq
    apply R.quietQuery
    intro a
    cases q <;> first | rfl | cases hq
  calls := by
    intro e stk g s c hout h hfits
    cases c with
    | inner c =>
      cases hl : c.list? with
      | none => exact R.kept (by simp [Label.isRequest, hl]) h
      | some l =>
        obtain ⟨⟨b, rfl⟩, hplain⟩ := hfits l hl
        exact R.passes e g s c b hout.notTraffic hl hplain h
    | client c => exact R.kept_client hout c h
    | _ => exact R.kept rfl h
  resumes := fun _ _ _ _ _ _ h _ _ => R.kept rfl h
  reset := fun _ _ _ h _ => R.kept rfl h

theorem readRules : ReadRules C.toContract C.Inv where
  getList := by
    intro q hq
    apply R.quietQuery
    intro a
    cases q <;> first | rfl | cases hq
  frame := fun g s v h => R.same g s (s.withReading v) rfl h
  read := fun _ _ _ _ h _ => R.kept rfl h
  readEnds := fun _ _ _ _ h => R.kept rfl h
  completes := fun _ _ _ _ _ _ he h => R.kept (by simp [Label.isRequest, he]) h

/-- Entering a function that is no traffic keeps the invariant. -/
theorem entered {e : Entry} (he : e.isTraffic = false) (h : C.Inv g s) :
    C.toContract.Every g s (.enter e) ∧ C.Inv (M.next g (.enter e)) s :=
  R.kept (by simp [Label.isRequest, he]) h

/-- The requests keep a contract about the streams. -/
theorem requestRules :
    RequestRules C.toContract extra C.Inv fun _ _ g' s' => C.Inv g' s' where
  basic := R.basicRules
  enter := fun _ _ _ _ he _ h => R.entered he h
  leave := fun _ _ _ _ he h => R.kept (by simp [Label.isRequest, he]) h
  opened := by
    intro stk g s hok h
    rw [R.quiet g (.enter .openStart) rfl]
    exact R.opened stk g s hok h
  closed := by
    intro stk g s _ h hok
    obtain ⟨hev, hinv⟩ := R.kept (x := .resumes (.inner .closeStart) ()) rfl h
    refine ⟨hev, hinv, fun hconf => ?_⟩
    rw [R.quiet g (.resumes (.inner .closeStart) ()) rfl]
    exact R.closed stk g s hok h hconf
  deleted := by
    intro stk g s hok h hconf
    rw [R.quiet g (.enter .delete) rfl]
    exact R.deleted stk g s hok h hconf
  configure := fun _ _ fuel _ _ hout h =>
    sat_configure_of_quiet R.setupQuiet (fun g s v h => R.same g s (s.loaded v) rfl h)
      (fun stk g s v _ h hok => R.fresh stk g s v hok h) fuel hout h
  configured := fun _ _ _ _ h => h
  setter := fun _ _ fuel o _ _ _ ho _ h =>
    sat_setter_of_quiet R.setupQuiet (R.quietQuery fun _ => rfl)
      (fun g s v h => R.same g s (s.withOptions v) rfl h) fuel o ho h
  getSSL := fun _ _ fuel b threshold _ _ hout h _ =>
    R.basicRules.sat_getFromSSL R.readRules hout fuel b threshold h
      fun _ _ h => h
  reread := fun _ _ fuel _ _ hout h hest =>
    R.basicRules.sat_retryRead R.readRules hout fuel h hest fun _ _ h => h
  begins := fun _ _ _ _ => R.every _ _ _ rfl
  handshake := by
    intro e stk g s _ hcause
    refine R.kept rfl (hcause.inv ?_ (fun _ _ _ _ h => h) fun g s r h => (R.kept rfl h).2)
    intro stk e g s he _ h
    exact (R.entered he h).2
  outcome := by
    intro e stk g s g' s' r hout _ h _ _
    obtain ⟨hev, hinv⟩ := R.kept (x := .resumes .mbedtlsSslHandshake r) rfl h
    refine ⟨hev, fun _ => R.kept_client hout _ (R.same _ s' _ rfl hinv), ?_, fun _ => hinv⟩
    intro _ _ a i f b
    have hreset := (R.kept (x := .asked .mbedtlsSslSessionReset a) rfl hinv).2
    exact ⟨R.every _ _ _ rfl, R.kept_client hout _ (R.same _ s' _ rfl hreset)⟩

end StreamContract.Rules

end NewtonTLS
