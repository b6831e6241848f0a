/-
# Every completion of a get answers one

`DoSSLRead` completes a get with the flag that tells the client that it is over.  A wake-up
message may find the read buffer of a get that is complete already: a failed read leaves it, and
so does a failed write.  `gets_completed_once` says that no get is completed twice and none that
has not been asked for, in any run, failures included.
-/
import Mathlib.Data.List.Induction
import NewtonTLS.OutstandingGet

open Reentrant

namespace NewtonTLS

namespace GetCompletions

open OutstandingGet

/-! ## What is observed -/

/-- A get has been asked for and nothing has been read for it yet; a get is outstanding. -/
structure Gets : Type where
  asked : Bool
  outstanding : Bool
  deriving DecidableEq, Repr

/-- The event is a request for a get. -/
def asks : Label CESig → Bool
  | .enter e => e.gets?.isSome
  | _ => false

/-- What the events say.  The first read accepts the get; later reads for the same request accept
nothing. -/
def Gets.next (g : Gets) : Label CESig → Gets
  | .enter e => if e.isTraffic then g else { g with asked := e.gets?.isSome }
  | .calls e c =>
    if completes (.calls e c) then { g with outstanding := false }
    else if accepts (.calls e c) && g.asked then ⟨false, true⟩
    else g
  | _ => g

/-- The automaton. -/
abbrev getMonitor : Monitor CESig where
  Obs := Gets
  init := ⟨false, false⟩
  next := Gets.next

/-- A get is completed only while one is outstanding. -/
def Answers (g : Gets) (_ : ConnectionEnd) (x : Label CESig) : Prop :=
  completes x = true → g.outstanding = true

/-- The read buffer belongs to the get that is outstanding, unless the connection closes. -/
def Held (g : Gets) (s : ConnectionEnd) : Prop :=
  s.mSSLReadBuffer.isSome = true → s.mClosing = false → g.outstanding = true

/-! ## The contract -/

/-- Calls that neither read nor complete a get. -/
theorem next_of_not {g : Gets} {e : Entry} {c : Call} (hcompletes : completes (.calls e c) = false)
    (haccepts : accepts (.calls e c) = false) : g.next (.calls e c) = g := by
  simp [Gets.next, hcompletes, haccepts]

theorem accepts_of_not_read {e : Entry} {c : Call} (hc : ∀ n, c ≠ .mbedtlsSslRead n) :
    accepts (.calls e c) = false := by
  cases c with
  | mbedtlsSslRead n => exact absurd rfl (hc n)
  | _ => rfl

/-- While a get is outstanding the buffer has its owner. -/
theorem Held.of_outstanding {g : Gets} (h : g.outstanding = true) (s : ConnectionEnd) : Held g s :=
  fun _ _ => h

/-- Other events answer nothing. -/
theorem answers_of_not {g : Gets} (s : ConnectionEnd) {x : Label CESig}
    (h : completes x = false) : Answers g s x := by
  intro hx
  rw [h] at hx
  cases hx

/-- Without a read buffer nothing is held. -/
theorem Held.of_none {s : ConnectionEnd} (h : s.mSSLReadBuffer = none) (g : Gets) : Held g s := by
  intro hbuf
  rw [h] at hbuf
  cases hbuf

/-- While the connection closes the buffer needs none. -/
theorem Held.of_closing {s : ConnectionEnd} (h : s.mClosing = true) (g : Gets) : Held g s := by
  intro _ hclosing
  rw [h] at hclosing
  cases hclosing

/-- The invariant looks at two fields. -/
theorem Held.same {g : Gets} {s s' : ConnectionEnd} (h : Held g s)
    (hbuf : s'.mSSLReadBuffer = s.mSSLReadBuffer) (hclosing : s'.mClosing = s.mClosing) :
    Held g s' := by
  unfold Held
  rw [hbuf, hclosing]
  exact h

/-- A request says nothing about what is outstanding. -/
theorem Held.entered {g : Gets} {s : ConnectionEnd} (h : Held g s) (e : Entry) :
    Held (g.next (.enter e)) s := by
  show Held (if e.isTraffic then g else { g with asked := e.gets?.isSome }) s
  split
  next => exact h
  next => exact h

/-- The contract. -/
def heldContract : CoreContract getMonitor where
  Inv := Held
  Every := Answers
  inv_core := fun _ _ _ h hcore => h.same hcore.mSSLReadBuffer hcore.mClosing
  quiet := by
    intro g s x _ hx
    cases x with
    | enter e =>
      refine ⟨answers_of_not s rfl, ?_⟩
      have he : e.isTraffic = true := hx
      show (if e.isTraffic then g else { g with asked := e.gets?.isSome }) = g
      rw [if_pos he]
    | calls e c =>
      obtain ⟨he, hc⟩ := hx
      have hcompletes := traffic_completes he c
      refine ⟨answers_of_not s hcompletes, next_of_not hcompletes ?_⟩
      rcases Call.isTraffic_cases hc with ⟨_, rfl⟩ | ⟨_, _, rfl⟩ | ⟨_, _, rfl, _⟩ |
        ⟨_, _, _, rfl, _⟩ | ⟨_, rfl⟩ <;> rfl
    | _ => exact ⟨answers_of_not s rfl, rfl⟩

/-- The discipline of all runs, and nothing else. -/
abbrev anything : List Call → Gets → ConnectionEnd → Label CESig → Bool := fun _ _ _ _ => true

/-- The questions are not observed. -/
theorem quietAnswers (q : Query) : Quiet heldContract.toContract q :=
  fun _ s _ => ⟨answers_of_not s rfl, rfl⟩

/-- A call that completes nothing and reads nothing. -/
theorem call_kept {g : Gets} {s : ConnectionEnd} {e : Entry} {c : Call} (h : Held g s)
    (hcompletes : completes (.calls e c) = false) (haccepts : accepts (.calls e c) = false) :
    Answers g s (.calls e c) ∧ Held (g.next (.calls e c)) s := by
  constructor
  · exact answers_of_not s hcompletes
  · rw [next_of_not hcompletes haccepts]
    exact h

theorem heldCallRules : CallRules heldContract.toContract anything Held where
  at_iff := fun _ _ _ _ => Iff.rfl
  rely_out := by
    intro stk _ _ _ _ _ hout _ htls
    rw [hout] at htls
    cases htls
  rely_tls := by
    intro c stk g s g' s' hc h
    exact (h (by rw [inTLS_cons, hc, Bool.true_or])).2
  timer := fun _ _ _ _ _ h => h.same rfl rfl
  clock := quietAnswers _
  calls := by
    intro e stk g s c _ htls h hfits
    refine call_kept h ?_ (accepts_of_not_read ?_)
    · -- a refusal is no completion
      unfold completes
      split
      · next heq =>
        cases heq
        cases hfits.1
      · rfl
    · rintro n rfl
      cases htls
  resumes := fun _ _ s _ _ _ _ h _ _ => ⟨answers_of_not s rfl, h⟩

/-! ## Reading -/

section reading

variable {e : Entry} {stk : List Call} {g : Gets} {s : ConnectionEnd}
  {Q : Post getMonitor ConnectionEnd Unit}

/-- The get that is outstanding is complete, and its read buffer is gone or the connection
closes. -/
theorem sat_answer (hout : OutsideTLS e stk) (r : Int) (n : ℕ) (hg : g.outstanding = true)
    (hdone : s.mSSLReadBuffer = none ∨ s.mClosing = true)
    (hQ : ∀ g' s', Held g' s' → Q g' (some ()) s') :
    (client (.getComplete (.code r) true n)).Sat heldContract.toContract
      (discipline getMonitor anything) e stk Q g s := by
  refine heldCallRules.sat_tell hout ⟨fun _ => hg, ?_⟩ hQ
  rcases hdone with hdone | hdone
  · exact .of_none hdone _
  · exact .of_closing hdone _

/-- The bytes that have been read are handed to the client. -/
theorem sat_moveRead (clientBuffer : ListRef) (buf : Block)
    (hQ : Q g (some ()) s.withoutReadBuffer) :
    (putnReadBuffer clientBuffer buf).Sat heldContract.toContract
      (discipline getMonitor anything) e stk Q g s :=
  sat_putnReadBuffer (fun q _ => quietAnswers q) fun _ _ => (quietAnswers _).sat_ask fun _ => hQ

/-- A failure completes the get that is outstanding. -/
theorem sat_failure (hout : OutsideTLS e stk) (hg : g.outstanding = true) (clientBuffer : ListRef)
    (r : Int) (hQ : ∀ g' s', Held g' s' → Q g' (some ()) s') :
    (readFails clientBuffer r).Sat heldContract.toContract (discipline getMonitor anything) e stk
      Q g s := by
  refine heldCallRules.sat_readFails hout (fun g _ => g.outstanding = true) hg ?_ ?_ ?_
  · intro hg
    exact call_kept (.of_outstanding hg s) rfl rfl
  · intro r g' s' _ hrely _ _
    have hsame := (hrely (by rw [inTLS_cons]; rfl)).1
    refine ⟨answers_of_not s' rfl, ?_⟩
    show g'.outstanding = true
    rw [hsame]
    exact hg
  · intro err g s hg
    have hreset : ∀ s' : ConnectionEnd, s'.mClosing = true →
        mbedtlsSslSessionReset.Sat heldContract.toContract (discipline getMonitor anything) e stk
          (Post.andThen heldContract.toContract (discipline getMonitor anything) e stk Q fun _ =>
            client (.getComplete (.code err) true s.mSSLReadCount)) g s' := fun s' hs' =>
      sat_mbedtlsSslSessionReset (quietAnswers _) (fun _ => answers_of_not s' rfl)
        fun _ _ _ _ => sat_answer hout _ _ hg (.inr hs') hQ
    simp only [failRead, Code.sat_bind, Code.sat_get, Code.sat_modify, Post.andThen_some,
      Code.sat_ite]
    refine ⟨fun _ => sat_deref _ fun buf _ => ?_, fun _ => hreset _ rfl⟩
    simp only [Post.andThen_some, Code.sat_bind]
    refine sat_moveRead _ _ ?_
    simp only [Post.andThen_some, Code.sat_bind]
    exact hreset _ rfl

/-- A get is outstanding, or will be with the next read. -/
def Reads (e : Entry) (g : Gets) : Prop :=
  g.outstanding = true ∨ g.asked = true ∧ e.gets?.isSome = true

/-- With the read the get is outstanding. -/
theorem Reads.next (h : Reads e g) (n : ℕ) :
    (g.next (.calls e (.mbedtlsSslRead n))).outstanding = true := by
  have haccepts : accepts (.calls e (.mbedtlsSslRead n)) = e.gets?.isSome := rfl
  show (if accepts (.calls e (.mbedtlsSslRead n)) && g.asked then _ else g : Gets).outstanding = _
  split
  next => rfl
  next hnot =>
    rcases h with h | ⟨hasked, hgets⟩
    · exact h
    · rw [haccepts, hgets, hasked] at hnot
      exact absurd rfl hnot

/-- `DoSSLRead` for a get that is accepted now or outstanding already. -/
theorem sat_reading (hout : OutsideTLS e stk) (fuel : ℕ) (clientBuffer : ListRef)
    (threshold : Int) (hreads : Reads e g) (hQ : ∀ g' s', Held g' s' → Q g' (some ()) s') :
    (doSSLRead fuel clientBuffer threshold).Sat heldContract.toContract
      (discipline getMonitor anything) e stk Q g s := by
  refine heldCallRules.sat_doSSLRead hout (fun g _ => Reads e g) ?_ ?_ fuel hreads
  · intro g s h
    exact ⟨answers_of_not s rfl, .of_outstanding (h.next _) s⟩
  · intro g s g' s' r h _ hrely _ _
    have hsame := (hrely (by rw [inTLS_cons]; rfl)).1
    have hg : g'.outstanding = true := by
      rw [hsame]
      exact h.next _
    refine ⟨answers_of_not s' rfl, ?_⟩
    rcases r with err | bs
    · exact ⟨fun _ => hQ _ _ (.of_outstanding hg _), fun _ => sat_failure hout hg _ _ hQ⟩
    · intro buf _
      refine ⟨fun _ => ?_, fun _ => .inl hg⟩
      simp only [completeRead, Code.sat_bind]
      refine sat_moveRead _ _ ?_
      simp only [Post.andThen_some, Code.sat_bind]
      exact sat_answer hout _ _ hg (.inl rfl) fun g₁ s₁ h₁ => hQ _ _ (h₁.same rfl rfl)

/-- `GetBytesStart` and `GetBytesImmediateStart`. -/
theorem sat_get (hout : OutsideTLS e stk) (fuel clientBuffer : ℕ) (threshold : Int)
    (hgets : e.gets? = some clientBuffer) (hasked : g.asked = true) (h : Held g s)
    (hQ : ∀ g' s', Held g' s' → Q g' (some ()) s') :
    (getFromSSL fuel clientBuffer threshold).Sat heldContract.toContract
      (discipline getMonitor anything) e stk Q g s := by
  have hrefuse : ∀ r, (client (.getComplete r false 0)).Sat heldContract.toContract
      (discipline getMonitor anything) e stk Q g s := fun r =>
    heldCallRules.sat_client hout h (by exact ⟨rfl, rfl⟩) hQ
  simp only [getFromSSL, Code.sat_bind, Code.sat_get, Post.andThen_some, Code.sat_ite]
  refine ⟨fun _ => ?_, fun _ => hrefuse _⟩
  cases s.mSSLReadBuffer with
  | some _ => exact hrefuse _
  | none =>
    simp only [Code.sat_bind]
    refine (quietAnswers _).sat_ask fun totalSize => ?_
    simp only [Post.andThen_some, Code.sat_bind]
    refine (quietAnswers _).sat_ask fun pos => ?_
    simp only [Post.andThen_some, Code.sat_bind, Code.sat_modify]
    refine sat_newPtr (fun q _ => quietAnswers q) _ ?_
    simp only [Post.andThen_some, Code.sat_bind, Code.sat_modify]
    exact sat_reading hout fuel _ _ (.inr ⟨hasked, by rw [hgets]; rfl⟩) hQ

/-- A read is tried again for the outstanding get. -/
theorem sat_reread (hout : OutsideTLS e stk) (fuel : ℕ) (hg : g.outstanding = true)
    (hQ : ∀ g' s', Held g' s' → Q g' (some ()) s') :
    (retryRead fuel).Sat heldContract.toContract (discipline getMonitor anything) e stk Q g s := by
  have hread : ∀ threshold, Code.Sat heldContract.toContract (discipline getMonitor anything) e
      stk Q (do
        let clientBuffer ← ask .getCurGetData
        doSSLRead fuel clientBuffer threshold) g s := by
    intro threshold
    simp only [Code.sat_bind]
    exact (quietAnswers _).sat_ask fun _ => sat_reading hout fuel _ _ (.inl hg) hQ
  simp only [retryRead, Code.sat_bind]
  refine (quietAnswers _).sat_ask fun nonBlocking => ?_
  simp only [Post.andThen_some, Code.sat_bind, Code.sat_ite]
  exact ⟨fun _ => (quietAnswers _).sat_ask fun threshold => hread threshold, fun _ => hread 0⟩

end reading

/-! ## The entry points -/

/-- Writing and terminating read nothing and complete no get. -/
theorem heldSendRules : SendRules heldContract.toContract anything Held fun _ => True where
  basic := heldCallRules
  putList := fun q _ => quietAnswers q
  tlsCalls := by
    intro e stk g s c _ _ _ h hfits
    apply call_kept h
    · unfold completes
      split
      · next heq =>
        cases heq
        cases hfits.1
      · rfl
    · apply accepts_of_not_read
      rintro n rfl
      cases hfits
  tlsResumes := fun _ _ s _ _ _ _ h _ _ => ⟨answers_of_not s rfl, h⟩
  lost := fun _ _ _ _ _ h => h.same rfl rfl
  closing := fun g _ _ => .of_closing rfl g
  reset := fun _ s _ h _ => ⟨answers_of_not s rfl, h⟩

/-- The entries keep what is held. -/
theorem heldEntryRules : EntryRules heldContract.toContract anything Held
    fun _ _ g' s' => Held g' s' where
  basic := heldCallRules
  enter := fun _ e _ s _ _ h => ⟨answers_of_not s rfl, fun _ => h.entered e⟩
  leave := fun _ _ _ s _ h => ⟨answers_of_not s rfl, h⟩
  opened := fun _ _ _ _ h => (h.entered _).same rfl rfl
  connects := fun _ _ _ _ h _ => h.entered _
  connected := fun _ r _ _ _ h _ =>
    ConnectionEnd.of_connected r (h.entered _) ((h.entered _).same rfl rfl)
  enabled := fun _ _ _ _ _ h => (h.entered _).same rfl rfl
  closed := fun _ _ s _ h _ => ⟨answers_of_not s rfl, h, fun _ =>
    sat_sslUnconfigure (fun q _ => quietAnswers q) (.of_none rfl _)⟩
  delete := fun _ _ _ hout _ h => heldCallRules.sat_delete ⟨rfl, hout⟩ (quietAnswers _)
    (fun _ => quietAnswers _) (fun _ _ _ h => h.same rfl rfl) (h.entered .delete)
    fun _ => sat_sslUnconfigure (fun q _ => quietAnswers q) ⟨rfl, .of_none rfl _⟩
  configure := by
    intro e stk fuel g s hout hbegins
    have h : Held g s := hbegins.elim (fun _ _ _ h _ => h.entered _)
      fun _ _ _ h _ => (h.entered _).same rfl rfl
    refine sat_configure_of_quiet (fun q _ => quietAnswers q) (fun _ _ _ h => h.same rfl rfl) ?_
      fuel hout h
    intro stk g s v _ _ _
    exact ⟨answers_of_not (s.configured v) rfl, .of_none rfl _⟩
  configured := fun _ _ _ _ h => h
  setter := fun _ _ fuel o _ _ _ ho _ h =>
    sat_setter_of_quiet (fun q _ => quietAnswers q) (quietAnswers _)
      (fun _ _ _ h => h.same rfl rfl) fuel o ho (h.entered _)
  getSSL := by
    intro e stk fuel b threshold g s hout hgets _ h _
    have hentered : g.next (.enter e) = { g with asked := true } := by
      show (if e.isTraffic then g else { g with asked := e.gets?.isSome }) = _
      rw [hout.notTraffic, hgets]
      rfl
    show (getFromSSL fuel b threshold).Sat heldContract.toContract
      (discipline getMonitor anything) e stk (fun g' _ s' => Held g' s') (g.next (.enter e)) s
    rw [hentered]
    exact sat_get hout fuel b threshold hgets rfl h fun _ _ h' => h'
  reread := fun _ fuel _ _ hout h hclosing _ hbuf =>
    sat_reread ⟨rfl, hout⟩ fuel (h hbuf hclosing) fun _ _ h' => h'
  put := fun _ b _ _ hout h hconf _ hest =>
    heldSendRules.sat_putToSSL trivial ⟨rfl, hout⟩ b h hconf hest fun _ _ h' => h'
  terminate := fun _ _ _ hout _ h =>
    heldSendRules.sat_terminateStart trivial ⟨rfl, hout⟩ (h.entered _) fun _ _ h' => h'
  begins := fun _ _ s _ _ _ => answers_of_not s rfl
  upgrades := fun _ s _ => answers_of_not s rfl
  handshake := by
    intro e stk g s _ hcause
    have h : Held g s := hcause.inv (fun _ e _ _ _ _ h => h.entered e) (fun _ _ _ _ h => h)
      fun _ _ _ h => h
    exact call_kept h rfl rfl
  outcome := by
    intro e stk g s g' s' r _ _ h _ _
    refine ⟨answers_of_not s' rfl, ?_, ?_, fun _ => h⟩
    · intro _
      unfold Tells successReport
      split
      · exact call_kept (h.same rfl rfl) rfl rfl
      · exact call_kept (h.same rfl rfl) rfl rfl
    · intro _ _ a i f b
      exact ⟨answers_of_not { s' with mEstablished := false, mClosing := true } rfl,
        call_kept (.of_closing rfl _) rfl rfl⟩

/-- Every function meets the contract. -/
theorem meets_held (fuel : ℕ) :
    heldContract.toContract.Meets (discipline getMonitor anything) (code fuel) :=
  heldContract.meets_entries heldEntryRules fuel

/-! ## What is completed has been asked for -/

/-- The events of a log that satisfy `p`. -/
def count (p : Label CESig → Bool) (l : Log CESig ConnectionEnd) : ℕ := l.countP fun x => p x.2

/-- What an observation is worth. -/
def Gets.owed (g : Gets) : ℕ := g.asked.toNat + g.outstanding.toNat

/-- An event is a request, or an answer, or neither. -/
theorem owed_next (g : Gets) (s : ConnectionEnd) (x : Label CESig) (h : Answers g s x) :
    (completes x).toNat + (g.next x).owed ≤ g.owed + (asks x).toNat := by
  obtain ⟨asked, outstanding⟩ := g
  cases x with
  | enter e =>
    show 0 + (if e.isTraffic then (⟨asked, outstanding⟩ : Gets)
      else ⟨e.gets?.isSome, outstanding⟩).owed ≤ _
    rw [Nat.zero_add]
    split
    next => exact Nat.le_add_right _ _
    next =>
      show e.gets?.isSome.toNat + outstanding.toNat ≤
        asked.toNat + outstanding.toNat + e.gets?.isSome.toNat
      omega
  | calls e c =>
    by_cases hcompletes : completes (.calls e c) = true
    · have hout : outstanding = true := h hcompletes
      simp [Gets.next, hcompletes, Gets.owed, hout, asks, Nat.add_comm]
    · rw [Bool.not_eq_true] at hcompletes
      by_cases haccepts : (accepts (.calls e c) && asked) = true
      · rw [Bool.and_eq_true] at haccepts
        obtain ⟨haccepts, rfl⟩ := haccepts
        simp [Gets.next, hcompletes, haccepts, Gets.owed, asks]
      · simp [Gets.next, hcompletes, haccepts, Gets.owed, asks]
  | _ => exact (Nat.zero_add _).le

/-- The completions of a log in which every one answers a get. -/
theorem count_completes (l : Log CESig ConnectionEnd) (h : l.Obeys getMonitor Answers) :
    count completes l + (getMonitor.run l).owed ≤ count asks l := by
  induction l using List.reverseRecOn with
  | nil => exact Nat.le_refl _
  | append_singleton l x ih =>
    have hbefore : Log.Obeys getMonitor Answers l := by
      rintro before y after rfl
      exact h before y (after ++ [x]) (by simp)
    have hlast := owed_next _ _ _ (h l x [] rfl)
    have hcompletes : count completes (l ++ [x]) = count completes l + (completes x.2).toNat := by
      rw [count, count, List.countP_append, List.countP_singleton]
      cases completes x.2 <;> rfl
    have hasks : count asks (l ++ [x]) = count asks l + (asks x.2).toNat := by
      rw [count, count, List.countP_append, List.countP_singleton]
      cases asks x.2 <;> rfl
    have hrun : getMonitor.run (l ++ [x]) = (getMonitor.run l).next x.2 := Monitor.run_concat ..
    have hsum := ih hbefore
    rw [hcompletes, hasks, hrun]
    omega

/-- **Every completion of a get answers one**: in every run, whatever fails, `DoSSLRead` completes
a get only while one is outstanding that a request has started and that has not been completed
before; so there are never more completions than requests. -/
theorem gets_completed_once {fuel : ℕ} {memory : ConnectionEnd} {cfg : Config CESig ConnectionEnd}
    (h : Reachable (discipline getMonitor anything) (code fuel) (new memory) cfg) :
    cfg.log.Obeys getMonitor Answers ∧ count completes cfg.log ≤ count asks cfg.log := by
  have hobeys := Contract.log_obeys (meets_held fuel) (.of_none rfl _) h
  exact ⟨hobeys, (Nat.le_add_right _ _).trans (count_completes _ hobeys)⟩

/-- A get waits for data, a second one is refused, and the bytes come with a wake-up. -/
def refusedRun : List (Move CESig) :=
  connectRun ++ [enter (.getBytesStart 1), backWith MBEDTLS_ERR_SSL_WANT_READ,
    enter (.getBytesStart 2), back, enter (.handleRequest .kAsyncReadMessageType), backRead [7],
    back, back]

/-- Of two gets the one that was accepted is completed, once. -/
theorem gets_completed_once_refusedRun :
    ∃ cfg, (Config.start (new zeroMemory)).run (discipline getMonitor anything) (code 1)
        refusedRun = some cfg ∧ count completes cfg.log = 1 ∧ count asks cfg.log = 2 ∧
      cfg.log.Obeys getMonitor Answers ∧ count completes cfg.log ≤ count asks cfg.log := by
  have hrun : ((Config.start (new zeroMemory)).run (discipline getMonitor anything) (code 1)
      refusedRun).map (fun cfg => (count completes cfg.log, count asks cfg.log)) =
        some (1, 2) := by decide +kernel
  obtain ⟨cfg, hcfg, hcounts⟩ := Option.map_eq_some_iff.mp hrun
  obtain ⟨hcompletes, hasks⟩ := Prod.mk.injEq .. ▸ hcounts
  exact ⟨cfg, hcfg, hcompletes, hasks, gets_completed_once (.of_run _ .start hcfg)⟩

end GetCompletions

end NewtonTLS
