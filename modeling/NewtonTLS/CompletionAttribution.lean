/-
# Whose completion it is

`PutCompleteCB` and `GetCompleteCB` decide by `mSSLConfigured`, at the time of the
completion, whether a completion of the inner end belongs to the client or to the
connection end, and the getters decide in the same way which list is current.  That is
right as long as the mode changes only while the inner end has nothing to complete
(`completions_attributed`).  A client that upgrades with a get outstanding does not hear
of it again (`not_attributed`).
-/
import NewtonTLS.ConnectionEndStreams

open Reentrant

namespace NewtonTLS

/-- Lists of the client. -/
def ListRef.isClient : ListRef → Bool
  | .client _ => true
  | _ => false

/-- The completions of the inner end. -/
def Entry.isCompletion : Entry → Bool
  | .putCompleteCB _ _ _ _ => true
  | .getCompleteCB _ _ _ _ _ => true
  | _ => false

namespace CompletionAttribution

/-! ## What is observed -/

/-- The lists of the puts and of the gets that are outstanding at the inner end, and what is
still to be forwarded to the client. -/
structure Seen : Type where
  puts : List ListRef
  gets : List ListRef
  due : Option ClientCall
  deriving DecidableEq

/-- A request to the inner end. -/
def Seen.request (g : Seen) : InnerCall → Seen
  | .putBytesStart l => { g with puts := g.puts ++ [l] }
  | .putFramedBytesStart l _ => { g with puts := g.puts ++ [l] }
  | .getBytesStart l => { g with gets := g.gets ++ [l] }
  | .getFramedBytesStart l => { g with gets := g.gets ++ [l] }
  | .getBytesImmediateStart l _ => { g with gets := g.gets ++ [l] }
  | _ => g

/-- What is to be forwarded when a request with the list `l` completes. -/
def forwarding (l : ListRef) (c : ClientCall) : Option ClientCall :=
  if l.isClient then some c else none

/-- One event. -/
def next (g : Seen) : Label CESig → Seen
  | .calls _ (.inner c) => g.request c
  | .calls e (.client _) => if e.isCompletion then { g with due := none } else g
  | .enter (.putCompleteCB of _ r n) =>
    { g with puts := g.puts.erase of, due := forwarding of (.putComplete (.code r) n) }
  | .enter (.getCompleteCB of _ r eof n) =>
    { g with gets := g.gets.erase of, due := forwarding of (.getComplete (.code r) eof n) }
  | _ => g

/-- Nothing is outstanding, and nothing is to be forwarded. -/
abbrev monitor : Monitor CESig where
  Obs := Seen
  init := ⟨[], [], none⟩
  next := next

/-- The inner end completes what is outstanding, and the client answers for its own lists. -/
def completes (g : Seen) : Label CESig → Bool
  | .enter (.putCompleteCB of _ _ _) => decide (of ∈ g.puts)
  | .enter (.getCompleteCB of _ _ _ _) => decide (of ∈ g.gets)
  | .asked .getCurPutData l => g.puts.all fun l' => !l'.isClient || decide (l' = l)
  | .asked .getCurGetData l => g.gets.all fun l' => !l'.isClient || decide (l' = l)
  | _ => true

/-- A completion is forwarded when it is due, once, and nothing else is; a getter answers with
the list of what is outstanding. -/
def attributed (g : Seen) : Label CESig → Bool
  | .calls e (.client c) => !e.isCompletion || decide (g.due = some c)
  | .leave (.putCompleteCB _ _ _ _) _ => decide (g.due = none)
  | .leave (.getCompleteCB _ _ _ _ _) _ => decide (g.due = none)
  | .leave .getCurPutDataCB v => g.puts.all fun l => decide (v = some (.list l))
  | .leave .getCurGetDataCB v => g.gets.all fun l => decide (v = some (.list l))
  | _ => true

/-- Nothing is outstanding at the inner end. -/
def Seen.idle (g : Seen) : Bool := decide (g.puts = []) && decide (g.gets = [])

/-- The mode changes only while nothing is outstanding, and mbedTLS makes no request in the
plain mode (with the lists of a configuration that `OpenStart` has left behind). -/
def switchesIdle (g : Seen) (s : ConnectionEnd) : Label CESig → Bool
  | .asked .sslConfigured _ => g.idle
  | .resumes (.inner .closeStart) _ => !s.mSSLConfigured || g.idle
  | .enter .openStart => !s.mSSLConfigured || g.idle
  | .enter .delete => !s.mSSLConfigured || g.idle
  | .enter (.sslSendCallback _) => s.mSSLConfigured || decide (s.mPutDataBuffer = none)
  | .enter (.sslRecvCallback _) => s.mSSLConfigured || decide (s.mGetDataBuffer = none)
  | _ => true

/-! ## The invariant -/

/-- The list is the one that the mode says: the own list of the kind when SSL is configured, one
of the client otherwise. -/
def Current (s : ConnectionEnd) (own : Option OwnList) (l : ListRef) : Prop :=
  if s.mSSLConfigured then l = listRef own else l.isClient = true

/-- Everything that is outstanding was requested in the mode the object is in. -/
structure Attributes (g : Seen) (s : ConnectionEnd) : Prop where
  due : g.due = none
  puts : ∀ l ∈ g.puts, Current s s.mPutDataBuffer l
  gets : ∀ l ∈ g.gets, Current s s.mGetDataBuffer l

/-- Only the configuration and the list of the connection end count. -/
theorem Current.same {s s' : ConnectionEnd} {own own' : Option OwnList} {l : ListRef}
    (h : Current s own l) (hconf : s'.mSSLConfigured = s.mSSLConfigured)
    (hown : listRef own' = listRef own) : Current s' own' l := by
  unfold Current at h ⊢
  rw [hconf, hown]
  exact h

/-- Without SSL the current list is one of the client. -/
theorem current_plain {s : ConnectionEnd} (hplain : s.mSSLConfigured = false)
    (own : Option OwnList) (l : ListRef) : Current s own l ↔ l.isClient = true := by
  rw [Current, hplain]
  exact Iff.rfl

/-- With SSL it is that of the connection end. -/
theorem current_configured {s : ConnectionEnd} (hconf : s.mSSLConfigured = true)
    (own : Option OwnList) (l : ListRef) : Current s own l ↔ l = listRef own := by
  rw [Current, if_pos hconf]

/-- Its own lists are not the client's. -/
theorem isClient_listRef (own : Option OwnList) : (listRef own).isClient = false := by
  cases own <;> rfl

/-- What is to be forwarded is decided by the mode. -/
theorem Current.forwarding {s : ConnectionEnd} {own : Option OwnList} {l : ListRef}
    (h : Current s own l) (c : ClientCall) :
    forwarding l c = if s.mSSLConfigured then none else some c := by
  unfold Current at h
  split at h
  · next hconf =>
    rw [h, CompletionAttribution.forwarding, isClient_listRef, if_pos hconf]
    exact if_neg Bool.false_ne_true
  · next hplain =>
    rw [CompletionAttribution.forwarding, if_pos h, if_neg hplain]

theorem Seen.idle_iff (g : Seen) : g.idle = true ↔ g.puts = [] ∧ g.gets = [] := by
  rw [idle, Bool.and_eq_true, decide_eq_true_iff, decide_eq_true_iff]

/-- The mode can change when nothing is outstanding. -/
theorem Attributes.of_idle {g : Seen} (s : ConnectionEnd) (hdue : g.due = none)
    (hidle : g.idle = true) : Attributes g s := by
  obtain ⟨hputs, hgets⟩ := g.idle_iff.mp hidle
  refine ⟨hdue, ?_, ?_⟩
  · intro l hl
    rw [hputs] at hl
    cases hl
  · intro l hl
    rw [hgets] at hl
    cases hl

/-- The invariant looks at the mode and at which lists are the own ones. -/
theorem Attributes.same {g : Seen} {s s' : ConnectionEnd} (h : Attributes g s)
    (hconf : s'.mSSLConfigured = s.mSSLConfigured)
    (hput : listRef s'.mPutDataBuffer = listRef s.mPutDataBuffer)
    (hget : listRef s'.mGetDataBuffer = listRef s.mGetDataBuffer) : Attributes g s' :=
  ⟨h.due, fun l hl => (h.puts l hl).same hconf hput, fun l hl => (h.gets l hl).same hconf hget⟩

/-- A put with the list of the mode. -/
theorem Attributes.put {g : Seen} {s : ConnectionEnd} (h : Attributes g s) {l : ListRef}
    (hl : Current s s.mPutDataBuffer l) : Attributes { g with puts := g.puts ++ [l] } s := by
  refine ⟨h.due, fun l' hl' => ?_, h.gets⟩
  rcases List.mem_append.mp hl' with hold | hnew
  · exact h.puts l' hold
  · rw [List.mem_singleton.mp hnew]
    exact hl

/-- A get with the list of the mode. -/
theorem Attributes.get {g : Seen} {s : ConnectionEnd} (h : Attributes g s) {l : ListRef}
    (hl : Current s s.mGetDataBuffer l) : Attributes { g with gets := g.gets ++ [l] } s := by
  refine ⟨h.due, h.puts, fun l' hl' => ?_⟩
  rcases List.mem_append.mp hl' with hold | hnew
  · exact h.gets l' hold
  · rw [List.mem_singleton.mp hnew]
    exact hl

/-- The contract. -/
def stream : StreamContract monitor where
  Inv := Attributes
  Every := fun g _ x => attributed g x = true
  Within := fun _ _ => True
  refl := fun _ => trivial
  trans := fun _ _ _ _ _ => trivial

/-! ## The requests -/

/-- The requests of the client are not observed. -/
theorem next_request (g : Seen) (x : Label CESig) (hx : Label.isRequest x = true) :
    next g x = g := by
  cases x with
  | enter e => cases e <;> first | rfl | cases hx
  | leave e => rfl
  | asked q => rfl
  | calls e c =>
    cases c with
    | inner c => cases c <;> first | rfl | cases hx
    | client c => cases e <;> first | rfl | cases hx
    | _ => rfl
  | resumes => rfl

theorem attributed_request (g : Seen) (x : Label CESig) (hx : Label.isRequest x = true) :
    attributed g x = true := by
  cases x with
  | leave e v => cases e <;> first | rfl | cases hx
  | calls e c =>
    cases c with
    | client c => cases e <;> first | rfl | cases hx
    | _ => rfl
  | _ => rfl

/-- A list of the client that is passed on in the plain mode. -/
theorem Attributes.passes {g : Seen} {s : ConnectionEnd} (h : Attributes g s)
    (hplain : s.mSSLConfigured = false) {c : InnerCall} {b : ℕ}
    (hc : c.list? = some (.client b)) : Attributes (g.request c) s := by
  have hput : Current s s.mPutDataBuffer (.client b) := (current_plain hplain _ _).mpr rfl
  have hget : Current s s.mGetDataBuffer (.client b) := (current_plain hplain _ _).mpr rfl
  unfold InnerCall.list? at hc
  split at hc
  · exact h.put (Option.some.inj hc ▸ hput)
  · exact h.put (Option.some.inj hc ▸ hput)
  · exact h.get (Option.some.inj hc ▸ hget)
  · exact h.get (Option.some.inj hc ▸ hget)
  · exact h.get (Option.some.inj hc ▸ hget)
  · cases hc

/-- What the environment respects, and when the mode changes. -/
def extra (_ : List Call) (g : Seen) (s : ConnectionEnd) (x : Label CESig) : Bool :=
  completes g x && switchesIdle g s x

/-- SSL is switched only while nothing is outstanding. -/
theorem switched {g : Seen} {s : ConnectionEnd} (hconf : s.mSSLConfigured = true)
    (h : (true && (!s.mSSLConfigured || g.idle)) = true) : g.idle = true := by
  simpa [hconf] using h

/-- The rules for bodies outside of the traffic. -/
theorem rules : stream.Rules extra where
  same := by
    intro g s s' hvalues h
    simp only [ConnectionEnd.streamValues, ConnectionEnd.sendValues, ConnectionEnd.receiveValues,
      Prod.mk.injEq, SendValues.mk.injEq, ReceiveValues.mk.injEq] at hvalues
    obtain ⟨hconf, ⟨-, hput, -⟩, -, -, -, hget, -⟩ := hvalues
    exact h.same hconf (congrArg listRef hput) (congrArg listRef hget)
  every := fun g _ x hx => attributed_request g x hx
  quiet := next_request
  passes := fun _ _ _ _ _ _ hc hplain h => ⟨rfl, h.passes hplain hc⟩
  opened := by
    intro stk g s hok h
    by_cases hconf : s.mSSLConfigured = true
    · exact .of_idle _ h.due (switched hconf hok)
    · exact h.same (by simpa using hconf) rfl rfl
  closed := fun _ _ _ hok h hconf => .of_idle _ h.due (switched hconf hok)
  deleted := fun _ _ _ hok h hconf => .of_idle _ h.due (switched hconf hok)
  fresh := fun _ _ _ _ hok h => ⟨rfl, .of_idle _ h.due hok⟩

/-! ## The receiving side -/

section traffic

variable {e : Entry} {stk : List Call} {g : Seen} {s : ConnectionEnd}

/-- The contract is kept, and an own list is there only in the SSL mode. -/
def Requests (own : ConnectionEnd → Option OwnList) (g : Seen) (s : ConnectionEnd) : Prop :=
  Attributes g s ∧ (s.mSSLConfigured = true ∨ listRef (own s) = .null)

/-- A list that is made new has no request. -/
theorem Requests.start {own : ConnectionEnd → Option OwnList} (h : Attributes g s)
    (hok : (s.mSSLConfigured || decide (own s = none)) = true) : Requests own g s := by
  refine ⟨h, ?_⟩
  rcases (Bool.or_eq_true _ _).mp hok with hconf | hnone
  · exact .inl hconf
  · rw [of_decide_eq_true hnone]
    exact .inr rfl

/-- An own list is the current one. -/
theorem Requests.current {own : ConnectionEnd → Option OwnList} (h : Requests own g s)
    {l : OwnList} (hl : own s = some l) :
    s.mSSLConfigured = true ∧ Current s (own s) (.own l.ptr) := by
  rcases h.2 with hconf | hnone
  · refine ⟨hconf, (current_configured hconf _ _).mpr ?_⟩
    rw [hl]
    rfl
  · rw [hl] at hnone
    cases hnone

theorem receiveFrame : ReceiveFrame stream.toContract Attributes :=
  .of_blind (fun _ _ _ _ _ h => ⟨rfl, h⟩) fun _ _ _ hget h => h.same rfl rfl hget

/-- The receiving functions, as far as the gets are concerned. -/
theorem getsFrame : ReceiveFrame stream.toContract (Requests (·.mGetDataBuffer)) :=
  .of_blind (fun _ _ _ _ _ h => ⟨rfl, h⟩) fun _ _ _ hget h =>
    ⟨h.1.same rfl rfl hget, h.2.imp id fun hnone => hget.trans hnone⟩

/-- `GetCompleteCB` forwards the completion of a get of the client and no other. -/
theorem sat_getCompleteCB {of : ListRef} {wrote : List Byte} {result : Int} {eof : Bool}
    {count : ℕ} (hof : of ∈ g.gets) (h : Attributes g s) {Q : Post monitor ConnectionEnd Unit}
    (hQ : ∀ g' s', Attributes g' s' → Q g' (some ()) s') :
    (getCompleteCB result eof count).Sat stream.toContract (discipline monitor extra)
      (.getCompleteCB of wrote result eof count) stk Q
      (next g (.enter (.getCompleteCB of wrote result eof count))) (innerWrites of wrote s) := by
  have hdue := (h.gets of hof).forwarding (.getComplete (.code result) eof count)
  have hleft : ∀ l ∈ g.gets.erase of, Current s s.mGetDataBuffer l := fun l hl =>
    h.gets l (List.mem_of_mem_erase hl)
  obtain ⟨v, hv, hlist⟩ := innerWrites_eq_withReceive of wrote s
  rw [hv]
  by_cases hconf : s.mSSLConfigured = true
  -- in the SSL mode what completes is our own, and the client hears nothing
  · have hentered : Attributes (next g (.enter (.getCompleteCB of wrote result eof count))) s :=
      ⟨hdue.trans (if_pos hconf), h.puts, hleft⟩
    have hwrote := receiveFrame.frame _ _ v hlist hentered
    refine receiveFrame.sat_getCompleteCB hwrote _ _ _ (fun hplain => ?_) hQ
    rw [show s.mSSLConfigured = false from hplain] at hconf
    cases hconf
  · have hforward : CallKept stream.toContract (discipline monitor extra)
        -- otherwise the client has made it, and is told
        (.getCompleteCB of wrote result eof count) stk Attributes
        (next g (.enter (.getCompleteCB of wrote result eof count))) (s.withReceive v)
        (.client (.getComplete (.code result) eof count)) := by
      refine ⟨?_, ?_, fun _ _ _ hat _ _ => ⟨rfl, hat⟩⟩
      · show attributed _ _ = true
        simp [attributed, next, hdue, hconf]
      · exact Attributes.same (s := s) ⟨rfl, h.puts, hleft⟩ rfl rfl hlist.list
    simp only [getCompleteCB, Code.sat_bind, Code.sat_get, Post.andThen_some, Code.sat_ite]
    exact ⟨fun hconf' => absurd hconf' hconf, fun _ => hforward.sat_client hQ⟩

/-- The receiving side serves the contract. -/
theorem serves_receive {fuel : ℕ} (he : e.receives = true) (hmay : mayEnter stk e = true)
    (hok : extra stk g s (.enter e) = true) (h : Attributes g s) :
    stream.Serves extra fuel e stk g s := by
  obtain ⟨hcompletes, hswitches⟩ := (Bool.and_eq_true _ _).mp hok
  refine ⟨rfl, ?_⟩
  cases e with
  | getCompleteCB of wrote result eof count =>
    simp only [code, unit, Code.sat_bind, Code.sat_modify, Post.andThen_some]
    refine sat_getCompleteCB (of_decide_eq_true hcompletes) h fun g' s' h' => ?_
    exact ⟨decide_eq_true h'.due, h', fun _ => trivial⟩
  | sslRecvCallback len =>
    have hstart : Requests (·.mGetDataBuffer) g s := .start h hswitches
    refine getsFrame.sat_sslRecvCallback hstart len (fun g' s' getl h' hget => ?_)
      fun v g' s' h' => ⟨rfl, h'.1, fun _ => trivial⟩
    obtain ⟨hconf, hcurrent⟩ := h'.current hget
    refine ⟨rfl, h'.1.get hcurrent, fun _ g₁ s₁ hat hrely _ => ⟨rfl, hat, .inl ?_⟩⟩
    have hcore := hrely.1 (by rw [inTLS_cons, inTLS_of_atTLS hmay, Bool.or_true])
    exact hcore.mSSLConfigured.trans hconf
  | _ => cases he

/-! ## The sending side -/

/-- The sending functions, as far as the puts are concerned. -/
theorem putsFrame : SendFrame stream.toContract (Requests (·.mPutDataBuffer)) where
  accept := fun _ _ _ _ h => ⟨rfl, h⟩
  frame := fun _ _ _ hput h =>
    ⟨h.1.same rfl hput.put rfl, h.2.imp id fun hnone => hput.put.trans hnone⟩

/-- An own put goes out in the SSL mode. -/
theorem Requests.putKept (h : Requests (·.mPutDataBuffer) g s) {put : OwnList}
    (hput : s.mPutDataBuffer = some put) :
    CallKept stream.toContract (discipline monitor extra) e stk Attributes g s
      (.inner (.putBytesStart (.own put.ptr))) :=
  ⟨rfl, h.1.put (h.current hput).2, fun _ _ _ hat _ _ => ⟨rfl, hat⟩⟩

/-- `PutCompleteCB` forwards the completion of a put of the client and no other. -/
theorem sat_putCompleteCB {of : ListRef} {read : List Byte} {result : Int} {count : ℕ}
    (hof : of ∈ g.puts) (h : Attributes g s) {Q : Post monitor ConnectionEnd Unit}
    (hQ : ∀ g' s', Attributes g' s' → Q g' (some ()) s') :
    (putCompleteCB result count).Sat stream.toContract (discipline monitor extra)
      (.putCompleteCB of read result count) stk Q
      (next g (.enter (.putCompleteCB of read result count))) (innerReads of read.length s) := by
  have hdue := (h.puts of hof).forwarding (.putComplete (.code result) count)
  have hleft : ∀ l ∈ g.puts.erase of, Current s s.mPutDataBuffer l := fun l hl =>
    h.puts l (List.mem_of_mem_erase hl)
  obtain ⟨v, hv, hput⟩ := innerReads_eq_withSend of read.length s
  rw [hv]
  by_cases hconf : s.mSSLConfigured = true
  · have hentered : Requests (·.mPutDataBuffer)
        (next g (.enter (.putCompleteCB of read result count))) s :=
      ⟨⟨hdue.trans (if_pos hconf), hleft, h.gets⟩, .inl hconf⟩
    have hread := putsFrame.frame _ _ v hput hentered
    refine putsFrame.sat_putCompleteCB (fun _ _ _ h' => h'.putKept) (fun _ _ h' => h'.1) hread _ _
      (fun hplain => ?_) hQ
    rw [show s.mSSLConfigured = false from hplain] at hconf
    cases hconf
  · have hforward : CallKept stream.toContract (discipline monitor extra)
        (.putCompleteCB of read result count) stk Attributes
        (next g (.enter (.putCompleteCB of read result count))) (s.withSend v)
        (.client (.putComplete (.code result) count)) := by
      refine ⟨?_, ?_, fun _ _ _ hat _ _ => ⟨rfl, hat⟩⟩
      · show attributed _ _ = true
        simp [attributed, next, hdue, hconf]
      · exact Attributes.same (s := s) ⟨rfl, hleft, h.gets⟩ rfl hput.put rfl
    simp only [putCompleteCB, Code.sat_bind, Code.sat_get, Post.andThen_some, Code.sat_ite]
    exact ⟨fun hconf' => absurd hconf' hconf, fun _ => hforward.sat_client hQ⟩

/-- The sending side serves the contract. -/
theorem serves_send {fuel : ℕ} (he : e.sends = true) (hok : extra stk g s (.enter e) = true)
    (h : Attributes g s) : stream.Serves extra fuel e stk g s := by
  obtain ⟨hcompletes, hswitches⟩ := (Bool.and_eq_true _ _).mp hok
  refine ⟨rfl, ?_⟩
  cases e with
  | putCompleteCB of read result count =>
    simp only [code, unit, Code.sat_bind, Code.sat_modify, Post.andThen_some]
    refine sat_putCompleteCB (of_decide_eq_true hcompletes) h fun g' s' h' => ?_
    exact ⟨decide_eq_true h'.due, h', fun _ => trivial⟩
  | sslSendCallback buf =>
    have hstart : Requests (·.mPutDataBuffer) g s := .start h hswitches
    simp only [code, Code.sat_bind]
    exact putsFrame.sat_sslSendCallback (fun _ _ _ h' => h'.putKept) (fun _ _ h' => h'.1) hstart buf
      fun r g' s' h' => ⟨rfl, h', fun _ => trivial⟩
  | _ => cases he

/-! ## The rest -/

/-- A getter answers with the list of the mode: the own one, or what the client answers. -/
theorem sat_currentList {own : ConnectionEnd → Option OwnList} (lists : List ListRef) {q : Query}
    {answer : q.Answer → Value}
    (hlists : ∀ l ∈ lists, Current s (own s) l)
    (hclient : ∀ a, extra stk g s (.asked q a) = true →
      ∀ l ∈ lists, l.isClient = true → answer a = .list l)
    {Q : Post monitor ConnectionEnd Value}
    (hQ : ∀ v, (∀ l ∈ lists, v = .list l) → Q g (some v) s) :
    (configuredOr (fun s => .list (listRef (own s))) q answer).Sat stream.toContract
      (discipline monitor extra) e stk Q g s := by
  simp only [configuredOr, Code.sat_bind, Code.sat_get, Post.andThen_some, Code.sat_ite]
  refine ⟨fun hconf => hQ _ fun l hl => ?_, fun hplain => sat_ask fun a hperm => ⟨rfl, ?_⟩⟩
  · rw [(current_configured hconf _ _).mp (hlists l hl)]
  · simp only [discipline, Bool.and_eq_true] at hperm
    refine hQ _ fun l hl => hclient a hperm.2 l hl ?_
    exact (current_plain (by simpa using hplain) _ _).mp (hlists l hl)

/-- The client answers with the list of what it has outstanding. -/
theorem answers {a : ListRef} {lists : List ListRef} {switches : Bool}
    (hok : ((lists.all fun l => !l.isClient || decide (l = a)) && switches) = true) :
    ∀ l ∈ lists, l.isClient = true → a = l := by
  intro l hl hclient
  have hall := List.all_eq_true.mp ((Bool.and_eq_true _ _).mp hok).1 l hl
  rw [hclient] at hall
  exact (of_decide_eq_true hall).symm

/-- The functions that neither send nor receive. -/
theorem restFrame : RestFrame stream.toContract Attributes where
  ask := fun _ _ _ _ _ h => ⟨rfl, h⟩
  timer := fun _ _ _ _ _ h => h.same rfl rfl rfl

/-- The entry points of the rest that give back no list serve the contract. -/
theorem serves_others {fuel : ℕ} (he : e.rests = true) (hput : e ≠ .getCurPutDataCB)
    (hget : e ≠ .getCurGetDataCB) (h : Attributes g s) : stream.Serves extra fuel e stk g s := by
  have hnext : next g (.enter e) = g := by
    cases e <;> first | rfl | cases he
  have hown : e.isCompletion = false := by
    cases e <;> first | rfl | cases he
  have hleave : ∀ g' v, attributed g' (.leave e v) = true := by
    intro g' v
    cases e <;> first | rfl | exact absurd rfl hput | exact absurd rfl hget | cases he
  refine ⟨rfl, restFrame.sat_code fuel he ?_ (fun g' s' cb h' => ?_) fun v g' s' h' =>
    ⟨hleave g' _, h', fun _ => trivial⟩⟩
  · show Attributes (next g (.enter e)) s
    rw [hnext]
    exact h
  · refine ⟨?_, ?_, fun _ _ _ hat _ _ => ⟨rfl, hat⟩⟩
    · show attributed _ _ = true
      simp [attributed, hown]
    · have hsame : next g' (.calls e (.client (.plain cb))) = g' := by
        simp [next, hown]
      show Attributes (next g' (.calls e (.client (.plain cb)))) s'
      rw [hsame]
      exact h'

/-- The rest serves the contract when the client answers for its own lists. -/
theorem serves_rest {fuel : ℕ} (he : e.rests = true) (h : Attributes g s) :
    stream.Serves extra fuel e stk g s := by
  by_cases hput : e = .getCurPutDataCB
  · subst hput
    refine ⟨rfl, sat_currentList g.puts h.puts (fun a hok l hl hclient => ?_) fun v hv =>
      ⟨?_, h, fun _ => trivial⟩⟩
    · have hanswer := answers hok l hl hclient
      rw [hanswer]
    · exact List.all_eq_true.mpr fun l hl => decide_eq_true (congrArg some (hv l hl))
  by_cases hget : e = .getCurGetDataCB
  · subst hget
    refine ⟨rfl, sat_currentList g.gets h.gets (fun a hok l hl hclient => ?_) fun v hv =>
      ⟨?_, h, fun _ => trivial⟩⟩
    · have hanswer := answers hok l hl hclient
      rw [hanswer]
    · exact List.all_eq_true.mpr fun l hl => decide_eq_true (congrArg some (hv l hl))
  · exact serves_others he hput hget h

end traffic

/-! ## The attribution -/

/-- Every function meets the contract. -/
theorem meets (fuel : ℕ) : stream.toContract.Meets (discipline monitor extra) (code fuel) := by
  refine stream.meets rules.requestRules fuel fun e stk g s he hmay hok h => ?_
  rcases e.isTraffic_cases he with hreceive | hsend | hrest
  · exact serves_receive hreceive hmay hok h
  · exact serves_send hsend hok h
  · exact serves_rest hrest h

/-- **Completions go to whom they belong.**  In a run in which the inner end completes what is
outstanding, the client answers for its own lists, and the mode changes only while nothing is
outstanding. -/
theorem completions_attributed {fuel : ℕ} {memory : ConnectionEnd}
    {cfg : Config CESig ConnectionEnd}
    (h : Reachable (discipline monitor extra) (code fuel) (new memory) cfg) :
    cfg.log.Obeys monitor fun g _ x => attributed g x = true := by
  have hinit : Attributes ⟨[], [], none⟩ (new memory) := .of_idle _ rfl rfl
  exact Contract.log_obeys (meets fuel) hinit h

/-- Connect without SSL and begin a get. -/
def getRun : List (Move CESig) :=
  [enter .openStart, back, enter .connectStart, back, enter (.connectCompleteCB 0), back,
    enter (.getBytesImmediateStart 0 4), back]

/-- Enable SSL; the handshake is suspended. -/
def upgradeRun : List (Move CESig) :=
  [enter (.processOptionStart (.sslEnable true)), backWith MBEDTLS_ERR_SSL_WANT_READ]

/-- The get of the client completes before the upgrade, and the one of the handshake, of which
the inner end asks for the list, before the connection is closed. -/
def orderlyRun : List (Move CESig) :=
  getRun ++ [enter .getCurGetDataCB, enter (.getCompleteCB (.client 0) [1, 2, 3, 4] 0 true 4), back,
    enter (.processOptionStart (.sslEnable true)), enter (.sslRecvCallback 5),
    enter .getCurGetDataCB,
    back, backWith MBEDTLS_ERR_SSL_WANT_READ, enter .getCurGetDataCB,
    enter (.getCompleteCB (.own 5) [1, 2, 3] 0 true 3), enter .closeStart, back]

/-- The run is allowed, and what it forwards is attributed. -/
theorem completions_attributed_orderlyRun :
    ∃ cfg, (Config.start (new zeroMemory)).run (discipline monitor extra) (code 0) orderlyRun =
        some cfg ∧ cfg.log.Obeys monitor fun g _ x => attributed g x = true := by
  have hrun : ((Config.start (new zeroMemory)).run (discipline monitor extra) (code 0)
      orderlyRun).isSome = true := by decide +kernel
  obtain ⟨cfg, hcfg⟩ := Option.isSome_iff_exists.mp hrun
  exact ⟨cfg, hcfg, completions_attributed (.of_run _ .start hcfg)⟩

/-- The get that the client began before an upgrade completes after it, and the client is not
told. -/
theorem not_attributed :
    ¬ ∀ (fuel : ℕ) (memory : ConnectionEnd) (cfg : Config CESig ConnectionEnd),
      Reachable (discipline monitor fun _ g _ x => completes g x) (code fuel) (new memory) cfg →
        cfg.log.Obeys monitor fun g _ x => attributed g x = true := by
  intro hall
  have hbad : ((Config.start (new zeroMemory)).run (discipline monitor fun _ g _ x => completes g x)
      (code 0) (getRun ++ upgradeRun ++
        [enter (.getCompleteCB (.client 0) [1, 2, 3, 4] 0 true 4)])).map
        (fun cfg => Log.check monitor (fun g _ x => attributed g x) monitor.init cfg.log) =
      some false := by decide +kernel
  obtain ⟨cfg, hreach, hnot⟩ := Reachable.not_obeys _ hbad
  exact hnot (hall 0 zeroMemory cfg hreach)

end CompletionAttribution

end NewtonTLS
