/-
# Writes of the client

`PutBytesStart` of a configured connection reads the unread rest of the client's list, gives it
to `mbedtls_ssl_write`, and goes back to where mbedTLS has stopped when it has taken a part.
When mbedTLS reports an error nothing goes back, although the client is told that nothing was
put.

A client that puts the rest of one list again and again has its bytes accepted each once and in
order, with the position and the counts that it is told in step, exactly as long as no write
fails that has bytes (`writes_exact_iff`).
-/
import NewtonTLS.ConnectionEndRuns
import NewtonTLS.ReentrantTriple
import NewtonTLS.Steps

open Reentrant

namespace NewtonTLS

namespace ClientWrites

open Steps

/-! ## The list of the client -/

/-- The list of the client, the plaintext that mbedTLS has accepted from it, and the counts that
the client has been told. -/
structure Account : Type where
  list : BufferList Byte
  accepted : List Byte
  reported : List ℕ

/-- What an event does to the list `b` and to its account. -/
def next (b : ℕ) (a : Account) : Happening CESig → Account
  | .asked (.listGetn b' n) _ => if b' = b then { a with list := (a.list.getn n).2 } else a
  | .asked (.listSeek b' off dir) _ =>
    if b' = b ∧ dir = -1 then { a with list := a.list.seek off.toNat } else a
  | .called (.mbedtlsSslWrite buf) r =>
    { a with accepted := a.accepted ++ buf.take (r : Int).toNat }
  | .called (.client (.putComplete _ n)) _ => { a with reported := a.reported ++ [n] }
  | _ => a

/-- The event gives what the list `b` holds, and `mbedtls_ssl_write` accepts no more bytes than
it is given. -/
def Faithful (b : ℕ) (list : BufferList Byte) : Happening CESig → Prop
  | .asked (.listGetSize b') n => b' = b → (n : ℕ) = list.getSize
  | .asked (.listPosition b') n => b' = b → (n : ℕ) = list.pos
  | .asked (.listGetn b' n) bytes => b' = b → (bytes : List Byte) = (list.getn n).1
  | .called (.mbedtlsSslWrite buf) r => (r : Int) ≤ buf.length
  | _ => True

/-- Every event is faithful to the list as it is then. -/
def AllFaithful (b : ℕ) : Account → List (Happening CESig) → Prop
  | _, [] => True
  | a, x :: l => Faithful b a.list x ∧ AllFaithful b (next b a x) l

/-- `mbedtls_ssl_write` reports an error although it has been given bytes. -/
def FailedWrite : Happening CESig → Prop
  | .called (.mbedtlsSslWrite buf) r => (r : Int) < 0 ∧ buf ≠ []
  | _ => False

instance : DecidablePred FailedWrite
  | .called (.mbedtlsSslWrite buf) r => inferInstanceAs (Decidable ((r : Int) < 0 ∧ buf ≠ []))
  | .asked _ _ => .isFalse id
  | .called (.inner _) _ => .isFalse id
  | .called (.client _) _ => .isFalse id
  | .called .mbedtlsSslHandshake _ => .isFalse id
  | .called (.mbedtlsSslRead _) _ => .isFalse id
  | .called .mbedtlsSslCloseNotify _ => .isFalse id

/-! ## One write -/

/-- Some bytes are accepted, and told to the client, and the rest is unread. -/
def Advanced (a a' : Account) : Prop :=
  ∃ n, a'.list.pos = a.list.pos + n ∧ a'.list.unread = a.list.unread.drop n ∧
    a'.accepted = a.accepted ++ a.list.unread.take n ∧ a'.reported = a.reported ++ [n]

/-- Bytes have been read and not accepted, and the client is told that none were. -/
def Lost (a a' : Account) : Prop :=
  a.list.unread ≠ [] ∧ a'.list.unread = [] ∧ a'.accepted = a.accepted ∧
    a'.reported = a.reported ++ [0]

/-- The account together with what is said of all events so far: they are faithful, and a write
has failed. -/
structure Book : Type where
  faithful : Prop
  failed : Prop
  account : Account

/-- What a happening does to the book: the list of the account is compared before it changes. -/
def Book.next (b : ℕ) (g : Book) (x : Happening CESig) : Book :=
  ⟨g.faithful ∧ Faithful b g.account.list x, g.failed ∨ FailedWrite x,
    ClientWrites.next b g.account x⟩

/-- The book is the account, with what it says of all events. -/
theorem foldl_book (b : ℕ) (l : List (Happening CESig)) : ∀ g : Book,
    (l.foldl (Book.next b) g).account = l.foldl (next b) g.account ∧
      ((l.foldl (Book.next b) g).faithful ↔ g.faithful ∧ AllFaithful b g.account l) ∧
      ((l.foldl (Book.next b) g).failed ↔ g.failed ∨ ∃ x ∈ l, FailedWrite x) := by
  induction l with
  | nil => intro g; exact ⟨rfl, (and_iff_left trivial).symm, by simp⟩
  | cons x l ih =>
    intro g
    obtain ⟨haccount, hfaithful, hfailed⟩ := ih (Book.next b g x)
    refine ⟨haccount, hfaithful.trans ?_, hfailed.trans ?_⟩
    · exact and_assoc
    · rw [List.exists_mem_cons_iff]
      exact or_assoc

/-- Faithful events lead from one account to the other, without a write that fails or with one. -/
def Settled (a : Account) (g : Book) : Prop :=
  g.faithful → (¬ g.failed ∧ Advanced a g.account) ∨ (g.failed ∧ Lost a g.account)

variable {E : Environment CESig ConnectionEnd} {b : ℕ} {g : Book} {a : Account} {s : ConnectionEnd}

/-- An event that says nothing of the list and is no write. -/
theorem Book.next_of {x : Happening CESig} (hfaithful : Faithful b g.account.list x = True)
    (hfailed : FailedWrite x = False) :
    Book.next b g x = { g with account := ClientWrites.next b g.account x } := by
  unfold Book.next
  rw [hfaithful, hfailed, and_true, or_false]

/-- The client is told the count. -/
theorem leads_putComplete (result : NewtonErr) (n : ℕ) {Q : Book → Prop}
    (h : Q { g with account := { g.account with reported := g.account.reported ++ [n] } }) :
    (client (.putComplete result n)).Leads E (Book.next b) (fun g' _ => Q g') g s := by
  apply Code.leads_call_bind
  intro k
  apply Code.leads_pure
  rwa [Book.next_of rfl rfl]

/-- What mbedTLS does to its timer is not booked. -/
theorem leads_runTimerCalls_book (ts : TimerCalls) : ∀ {s},
    (runTimerCalls ts).Leads E (Book.next b) (Returns fun g' _ _ => g' = g) g s := by
  induction ts with
  | nil => exact fun {s} => Code.leads_pure ⟨s, ⟨⟩, rfl, rfl⟩
  | cons t ts ih =>
    intro s
    have htimer : (sslSetTimerCallback t.1 t.2).Leads E (Book.next b)
        (Returns fun g' _ _ => g' = g) g s := by
      unfold sslSetTimerCallback
      split
      · exact Code.leads_modify ⟨_, ⟨⟩, rfl, rfl⟩
      · apply Code.leads_ask_bind
        intro n
        apply Code.leads_modify
        exact ⟨_, ⟨⟩, rfl, Book.next_of rfl rfl⟩
    refine htimer.andThen ?_
    rintro g' s' u rfl
    exact ih

/-- Resetting the session writes nothing for the client. -/
theorem leads_sessionReset :
    mbedtlsSslSessionReset.Leads E (Book.next b) (Returns fun g' _ _ => g' = g) g s := by
  apply Code.leads_ask_bind
  intro n
  rw [Book.next_of rfl rfl]
  exact leads_runTimerCalls_book _

/-- The list as `PutBytesStart` finds it, with its rest read. -/
def Account.readOut (a : Account) : Account :=
  { a with list := a.list.skip a.list.unread.length }

/-- What follows the call of `mbedtls_ssl_write`. -/
def afterWrite (clientBuffer : ℕ) (pos len : ℕ) (r : Int) : CE Unit := do
  if 0 ≤ r then
    if r < len then
      let _ ← ask (.listSeek clientBuffer (pos + r) (-1))
    client (.putComplete (.code 0) r.toNat)
  else
    modify fun s => { s with mEstablished := false }
    mbedtlsSslSessionReset
    client (.putComplete .kCommErrConnectionAborted 0)

/-- After a write of all that is unread, the account is settled. -/
theorem leads_afterWrite {r : Int} (hr : r ≤ a.list.unread.length) {p q : Prop} (hq : ¬ q) :
    (afterWrite b a.list.pos a.list.unread.length r).Leads E (Book.next b)
      (fun g' _ => Settled a g')
      ⟨p, q ∨ r < 0 ∧ a.list.unread ≠ [],
        { a.readOut with accepted := a.accepted ++ a.list.unread.take r.toNat }⟩ s := by
  unfold afterWrite
  by_cases hok : 0 ≤ r
  · rw [if_pos hok]
    obtain ⟨n, rfl⟩ := Int.eq_ofNat_of_zero_le hok
    have hfailed : ¬ (q ∨ (n : Int) < 0 ∧ a.list.unread ≠ []) := by
      rintro (hbefore | ⟨hneg, -⟩)
      · exact hq hbefore
      · exact absurd hneg (Int.not_lt.mpr hok)
    by_cases hpart : (n : Int) < a.list.unread.length
    · -- back to where mbedTLS has stopped
      rw [if_pos hpart]
      apply Code.leads_ask_bind
      intro k
      rw [Book.next_of rfl rfl]
      apply leads_putComplete
      intro _
      refine Or.inl ⟨hfailed, n, ?_⟩
      dsimp only [next]
      rw [if_pos ⟨rfl, rfl⟩]
      exact ⟨rfl, BufferList.unread_skip _ _, rfl, rfl⟩
    · rw [if_neg hpart]
      have hall : n = a.list.unread.length := by omega
      apply leads_putComplete
      intro _
      refine Or.inl ⟨hfailed, n, ?_⟩
      rw [hall]
      exact ⟨rfl, BufferList.unread_skip _ _, rfl, rfl⟩
  · rw [if_neg hok]
    have hneg : r < 0 := Int.not_le.mp hok
    have hnone : a.list.unread.take r.toNat = [] := by
      rw [Int.toNat_of_nonpos hneg.le, List.take_zero]
    have hread : (a.list.skip a.list.unread.length).unread = [] := by
      rw [BufferList.unread_skip, List.drop_length]
    apply Code.leads_modify_bind
    refine leads_sessionReset.andThen ?_
    rintro g' s' u rfl
    apply leads_putComplete
    intro _
    rw [hnone, List.append_nil]
    by_cases hempty : a.list.unread = []
    · -- there was nothing to lose
      refine Or.inl ⟨?_, 0, ?_, ?_, ?_, rfl⟩
      · rintro (hbefore | ⟨-, hmore⟩)
        · exact hq hbefore
        · exact hmore hempty
      · show a.list.pos + a.list.unread.length = _
        rw [hempty]
        rfl
      · exact hread.trans hempty.symm
      · exact (List.append_nil _).symm
    · exact Or.inr ⟨Or.inr ⟨hneg, hempty⟩, hempty, hread, rfl, rfl⟩

/-- Nothing is said of events that are not faithful. -/
theorem leads_unfaithful {m : CE Unit} (hg : ¬ g.faithful) :
    m.Leads E (Book.next b) (fun g' _ => Settled a g') g s := by
  have hkept : m.Leads E (Book.next b) (fun g' _ => ¬ g'.faithful) g s := by
    refine Code.leads_kept (I := fun g' : Book => ¬ g'.faithful) ?_ hg m
    exact fun _ _ hbefore hnext => hbefore hnext.1
  exact hkept.mono fun _ _ hg' hfaithful => absurd hfaithful hg'

/-- Sequencing after a question to which the list has one faithful answer. -/
theorem leads_ask_faithful {q : Query} {v : q.Answer} {f : q.Answer → CE Unit}
    (hv : ∀ a', Faithful b g.account.list (.asked q a') ↔ a' = v)
    (h : (f v).Leads E (Book.next b) (fun g' _ => Settled a g')
      { g with account := next b g.account (.asked q v) } s) :
    (ask q >>= f).Leads E (Book.next b) (fun g' _ => Settled a g') g s := by
  apply Code.leads_ask_bind
  intro n
  by_cases hfaithful : Faithful b g.account.list (.asked q (E.answer n q))
  · rw [(hv _).mp hfaithful, Book.next_of (eq_true ((hv v).mpr rfl)) rfl]
    exact h
  · exact leads_unfaithful fun hg => hfaithful hg.2

/-- The account after the list has been read out. -/
theorem next_listGetn (bytes : List Byte) :
    next b a (.asked (.listGetn b (a.list.getSize - a.list.pos)) bytes) = a.readOut := by
  dsimp only [next]
  rw [if_pos rfl, BufferList.getn_getSize_sub]
  rfl

/-- The branch that sends to SSL settles the account. -/
theorem leads_putToSSL :
    (putToSSL b).Leads E (Book.next b) (fun g' _ => Settled a g') ⟨True, False, a⟩ s := by
  refine leads_ask_faithful (v := a.list.getSize) (fun _ => ⟨fun h => h rfl, fun h _ => h⟩) ?_
  refine leads_ask_faithful (v := a.list.pos) (fun _ => ⟨fun h => h rfl, fun h _ => h⟩) ?_
  refine leads_ask_faithful (v := a.list.unread) ?_ ?_
  · intro bytes
    have hread := congrArg Prod.fst a.list.getn_getSize_sub
    exact ⟨fun h => (h rfl).trans hread, fun h _ => h.trans hread.symm⟩
  · rw [show next b (next b (next b a _) _) _ = a.readOut from next_listGetn _]
    apply Code.leads_call_bind
    intro n
    by_cases hfits :
      (E.result n (.mbedtlsSslWrite a.list.unread) s).1 ≤ (a.list.unread.length : Int)
    · exact leads_afterWrite hfits id
    · exact leads_unfaithful fun hg => hfits hg.2

/-- **One write**: the account is settled, whichever way `PutBytesStart` takes. -/
theorem leads_putBytesStart (h : s.mSSLConfigured = true) :
    (putBytesStart b).Leads E (Book.next b) (fun g' _ => Settled a g') ⟨True, False, a⟩ s := by
  -- when nothing is sent, the client is told so
  have hnone : ∀ result, (client (.putComplete result 0)).Leads E (Book.next b)
      (fun g' _ => Settled a g') ⟨True, False, a⟩ s := by
    intro result
    apply leads_putComplete
    intro _
    exact Or.inl ⟨id, 0, rfl, rfl, (List.append_nil _).symm, rfl⟩
  apply Code.leads_get_bind
  rw [if_pos h]
  by_cases hclosing : s.mClosing = true
  · rw [if_pos hclosing]
    exact hnone _
  · rw [if_neg hclosing]
    by_cases hestablished : s.mEstablished = true
    · rw [if_pos hestablished]
      exact leads_putToSSL
    · rw [if_neg hestablished]
      exact hnone _

/-! ## The writes of a client -/

/-- One call of `PutBytesStart`: what answers it, and the state that it finds. -/
structure Put : Type where
  env : Environment CESig ConnectionEnd
  state : ConnectionEnd

/-- What happens in the call. -/
def Put.way (b : ℕ) (x : Put) : List (Happening CESig) :=
  ((putBytesStart b).drive x.env 0 x.state).1

/-- A call on a configured connection, which finds the list as the account says. -/
def step (b : ℕ) (a : Account) (x : Put) (a' : Account) : Prop :=
  x.state.mSSLConfigured = true ∧ AllFaithful b a (x.way b) ∧ a' = (x.way b).foldl (next b) a

/-- The position has advanced by what the client has been told, and what is unread is what mbedTLS
has not accepted. -/
def Exact (list : BufferList Byte) (a : Account) : Prop :=
  a.list.pos = list.pos + a.reported.sum ∧ a.accepted ++ a.list.unread = list.unread

/-- A call settles the account. -/
theorem step_settled {a a' : Account} {x : Put} (h : step b a x a') :
    ((∀ y ∈ x.way b, ¬ FailedWrite y) ∧ Advanced a a') ∨
      ((∃ y ∈ x.way b, FailedWrite y) ∧ Lost a a') := by
  obtain ⟨hconf, hfaithful, rfl⟩ := h
  have hsettled : Settled a ((x.way b).foldl (Book.next b) ⟨True, False, a⟩) :=
    leads_putBytesStart hconf 0
  obtain ⟨haccount, hall, hfailed⟩ := foldl_book b (x.way b) ⟨True, False, a⟩
  rw [Settled, haccount, hall, hfailed, true_and, false_or] at hsettled
  rcases hsettled hfaithful with ⟨hnone, hadvanced⟩ | ⟨hsome, hlost⟩
  · exact Or.inl ⟨fun y hy hwrite => hnone ⟨y, hy, hwrite⟩, hadvanced⟩
  · exact Or.inr ⟨hsome, hlost⟩

/-- What is accepted is accepted in order. -/
theorem exact_of_advanced {list : BufferList Byte} {a a' : Account} (h : Exact list a)
    (hstep : Advanced a a') : Exact list a' := by
  obtain ⟨n, hpos, hunread, haccepted, hreported⟩ := hstep
  constructor
  · rw [hpos, hreported, h.1, List.sum_append, List.sum_singleton, Nat.add_assoc]
  · rw [haccepted, hunread, List.append_assoc, List.take_append_drop]
    exact h.2

/-- Bytes that have been read and not accepted are missing. -/
theorem not_exact_of_lost {list : BufferList Byte} {a a' : Account} (h : Exact list a)
    (hstep : Lost a a') : ¬ Exact list a' := by
  obtain ⟨hmore, hread, haccepted, -⟩ := hstep
  rintro ⟨-, hall⟩
  rw [haccepted, hread, ← h.2] at hall
  exact hmore (List.append_cancel_left hall).symm

/-- One count is told for each call. -/
theorem reported_step {a a' : Account} {x : Put} (h : step b a x a') :
    a'.reported.length = a.reported.length + 1 := by
  rcases step_settled h with ⟨-, n, -, -, -, hreported⟩ | ⟨-, -, -, -, hreported⟩
  · rw [hreported, List.length_append, List.length_singleton]
  · rw [hreported, List.length_append, List.length_singleton]

theorem length_reported {list : BufferList Byte} {l : List (Account × Put)}
    (h : Path (step b) ⟨list, [], []⟩ l a) : a.reported.length = l.length := by
  induction h with
  | start => rfl
  | step _ hstep ih => rw [reported_step hstep, ih, List.length_append, List.length_singleton]

/-- **Client writes are accounted exactly**, after each of any number of calls, if and only if no
call of `mbedtls_ssl_write` fails that has been given bytes. -/
theorem writes_exact_iff (b : ℕ) (list : BufferList Byte) (l : List (Account × Put)) (a : Account)
    (h : Path (step b) ⟨list, [], []⟩ l a) :
    (Throughout (Exact list) l a ↔ ∀ x ∈ l, ∀ y ∈ x.2.way b, ¬ FailedWrite y) ∧
      a.reported.length = l.length := by
  refine ⟨?_, length_reported h⟩
  refine h.throughout_iff (P := Exact list) (I := fun _ => True)
    (C := fun _ x => ∀ y ∈ x.way b, ¬ FailedWrite y) trivial ⟨rfl, rfl⟩
    (fun _ _ _ _ _ => trivial) ?_
  intro a x a' _ hexact hstep
  rcases step_settled hstep with ⟨hnone, hadvanced⟩ | ⟨⟨y, hy, hfailed⟩, hlost⟩
  · exact iff_of_true (exact_of_advanced hexact hadvanced) hnone
  · exact iff_of_false (not_exact_of_lost hexact hlost) fun hnone => hnone y hy hfailed

/-- What a list answers. -/
def listAnswer (list : BufferList Byte) : (q : Query) → q.Answer
  | .listGetSize _ => list.getSize
  | .listPosition _ => list.pos
  | .listGetn _ n => (list.getn n).1
  | q => plainAnswer q

/-- A call on an established connection, in which `mbedtls_ssl_write` returns `r`. -/
def writing (list : BufferList Byte) (r : Int) : Put where
  env := ⟨fun _ => listAnswer list,
    fun _ c s => (results r (.error MBEDTLS_ERR_SSL_WANT_READ) c, s)⟩
  state := { zeroMemory with mSSLConfigured := true, mEstablished := true }

/-- Three bytes in two segments, of which mbedTLS takes two and then one. -/
theorem writes_exact_iff_partial : ∃ l a, Path (step 0) ⟨⟨[[1], [2, 3]], 0⟩, [], []⟩ l a ∧
    a.accepted = [1, 2, 3] ∧ a.reported = [2, 1] ∧ Throughout (Exact ⟨[[1], [2, 3]], 0⟩) l a := by
  have hfirst : AllFaithful 0 ⟨⟨[[1], [2, 3]], 0⟩, [], []⟩
      ((writing ⟨[[1], [2, 3]], 0⟩ 2).way 0) :=
    And.intro (fun _ => rfl) (And.intro (fun _ => rfl) (And.intro (fun _ => rfl)
      (And.intro (show (2 : Int) ≤ 3 by decide) (And.intro trivial (And.intro trivial trivial)))))
  have hsecond : AllFaithful 0 ⟨⟨[[1], [2, 3]], 2⟩, [1, 2], [2]⟩
      ((writing ⟨[[1], [2, 3]], 2⟩ 1).way 0) :=
    And.intro (fun _ => rfl) (And.intro (fun _ => rfl) (And.intro (fun _ => rfl)
      (And.intro (show (1 : Int) ≤ 1 by decide) (And.intro trivial trivial))))
  have htwo : Path (step 0) ⟨⟨[[1], [2, 3]], 0⟩, [], []⟩ _ _ :=
    Path.step .start ⟨rfl, hfirst, rfl⟩ (a := writing ⟨[[1], [2, 3]], 0⟩ 2)
  have hthree := Path.step htwo ⟨rfl, hsecond, rfl⟩ (a := writing ⟨[[1], [2, 3]], 2⟩ 1)
  refine ⟨_, _, hthree, rfl, rfl, ((writes_exact_iff _ _ _ _ hthree).1).mpr ?_⟩
  rw [forall_mem_concat, List.nil_append, List.forall_mem_singleton]
  exact ⟨by decide, by decide⟩

/-- One byte, which mbedTLS refuses with an error: the byte has been read, and the client is told
that none was put. -/
theorem not_writes_exact : ¬ ∀ (b : ℕ) (list : BufferList Byte) (l : List (Account × Put))
    (a : Account), Path (step b) ⟨list, [], []⟩ l a → Exact list a := by
  intro hall
  have hfaithful : AllFaithful 0 ⟨⟨[[1]], 0⟩, [], []⟩ ((writing ⟨[[1]], 0⟩ (-1)).way 0) :=
    And.intro (fun _ => rfl) (And.intro (fun _ => rfl) (And.intro (fun _ => rfl)
      (And.intro (show (-1 : Int) ≤ 1 by decide) (And.intro trivial (And.intro trivial trivial)))))
  have hfailed : Path (step 0) ⟨⟨[[1]], 0⟩, [], []⟩ _ _ :=
    Path.step .start ⟨rfl, hfaithful, rfl⟩ (a := writing ⟨[[1]], 0⟩ (-1))
  have hadvanced : (1 : ℕ) = 0 := (hall 0 ⟨[[1]], 0⟩ _ _ hfailed).1
  exact absurd hadvanced (by decide)

end ClientWrites

end NewtonTLS
