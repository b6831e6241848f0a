/-
# The plaintext that is delivered

`DoSSLRead` collects what `mbedtls_ssl_read` returns in `mSSLReadBuffer`, over as many
wake-ups as it takes, and puts it into the list of the client when the threshold is reached
or the connection fails.  Within one configuration nothing is lost, repeated or reordered,
and the client is told how many bytes its list has got (`Reading`, `Idle`).
-/
import NewtonTLS.ConnectionEndStreams

open Reentrant

namespace NewtonTLS

namespace PlaintextStream

/-! ## What is observed -/

/-- The bytes read from mbedTLS and the bytes put into lists of the client since the
configuration, the list of the get that is outstanding, and how many bytes have been put into
it. -/
structure Seen : Type where
  read : List Byte
  put : List Byte
  outstanding : Option ℕ
  putNow : ℕ
  deriving DecidableEq

/-- One event. -/
def next (g : Seen) : Label CESig → Seen
  | .asked .sslConfigured _ => ⟨[], [], none, 0⟩
  | .calls e (.mbedtlsSslRead _) =>
    match e.gets? with
    | some b => { g with outstanding := some b, putNow := 0 }
    | none => g
  | .resumes (.mbedtlsSslRead _) (.ok bs) => { g with read := g.read ++ bs }
  | .asked (.listPutn b bytes) n =>
    { g with
      put := g.put ++ bytes.take n
      putNow := if g.outstanding = some b then g.putNow + n else g.putNow }
  | .calls e (.client (.getComplete (.code _) true _)) =>
    if e.isTraffic then g else { g with outstanding := none, putNow := 0 }
  | _ => g

/-- Nothing has been read or put, and no get is outstanding. -/
abbrev monitor : Monitor CESig where
  Obs := Seen
  init := ⟨[], [], none, 0⟩
  next := next

/-- A completion of a get is pending. -/
def atCompletion : List Call → Bool
  | .client (.getComplete _ _ _) :: _ => true
  | _ => false

/-- No request comes from inside a completion of a get, `mbedtls_ssl_read` returns at most what
it was asked for, and nobody changes the list of the outstanding get: the client names that
list, and it has the room it had when the get came. -/
def undisturbed (stk : List Call) (g : Seen) (s : ConnectionEnd) : Label CESig → Bool
  | .enter _ => !atCompletion stk
  | .resumes (.mbedtlsSslRead n) (.ok bs) => decide (bs.length ≤ n)
  | .asked .getCurGetData l =>
    !s.mSSLConfigured || g.outstanding.all fun b => decide (l = ListRef.client b)
  | .asked (.listPutn b bytes) n =>
    decide (g.outstanding ≠ some b) || decide (n = min bytes.length s.mSSLReadBufferSize)
  | _ => true

/-- What waits in the read buffer. -/
def held (g : Seen) (s : ConnectionEnd) : List Byte :=
  match g.outstanding, s.mSSLReadBuffer with
  | some _, some buf => buf.bytes.take s.mSSLReadCount
  | _, _ => []

/-- What has been put, and what waits, is what has been read. -/
def Delivered (g : Seen) (s : ConnectionEnd) : Prop :=
  s.mSSLConfigured = true → g.put ++ held g s = g.read

/-- A get is completed with the number of bytes that its list has got. -/
def Counted (g : Seen) (s : ConnectionEnd) : Label CESig → Prop
  | .calls e (.client (.getComplete (.code _) true n)) =>
    s.mSSLConfigured = true → e.isTraffic = false → n = g.putNow
  | _ => True

/-! ## The invariant -/

/-- Nothing is outstanding, and everything has been put. -/
structure Idle (g : Seen) (s : ConnectionEnd) : Prop where
  outstanding : g.outstanding = none
  buffer : s.mSSLReadBuffer = none ∨ s.mClosing = true
  put_eq : g.put = g.read
  putNow : g.putNow = 0

/-- The read buffer holds what has been read and not been put. -/
structure Reading (g : Seen) (s : ConnectionEnd) (buf : Block) : Prop where
  buffer : s.mSSLReadBuffer = some buf
  size : buf.bytes.length = s.mSSLReadBufferSize
  count : s.mSSLReadCount ≤ s.mSSLReadBufferSize
  stream : g.put ++ buf.bytes.take s.mSSLReadCount = g.read
  putNow : g.putNow = 0

/-- A configured end is idle or reads for the get that is outstanding. -/
def Delivers (g : Seen) (s : ConnectionEnd) : Prop :=
  s.mSSLConfigured = true → Idle g s ∨ ∃ b buf, g.outstanding = some b ∧ Reading g s buf

/-- Without SSL nothing is claimed. -/
theorem Delivers.plain {g : Seen} {s : ConnectionEnd} (h : s.mSSLConfigured = false) :
    Delivers g s := by
  intro hconf
  rw [h] at hconf
  cases hconf

/-- The invariant says what has been delivered. -/
theorem Delivers.delivered {g : Seen} {s : ConnectionEnd} (h : Delivers g s) : Delivered g s := by
  intro hconf
  rcases h hconf with hidle | ⟨b, buf, hout, hread⟩
  · simp only [held, hidle.outstanding, List.append_nil, hidle.put_eq]
  · simp only [held, hout, hread.buffer, hread.stream]

/-- Nothing has been put for the get that is outstanding until it is completed. -/
theorem Delivers.putNow {g : Seen} {s : ConnectionEnd} (h : Delivers g s)
    (hconf : s.mSSLConfigured = true) : g.putNow = 0 := by
  rcases h hconf with hidle | ⟨_, _, _, hread⟩
  · exact hidle.putNow
  · exact hread.putNow

/-- Only the buffer, its size and its count are looked at. -/
theorem Reading.same {g : Seen} {s s' : ConnectionEnd} {buf : Block} (h : Reading g s buf)
    (hbuf : s'.mSSLReadBuffer = s.mSSLReadBuffer)
    (hsize : s'.mSSLReadBufferSize = s.mSSLReadBufferSize)
    (hcount : s'.mSSLReadCount = s.mSSLReadCount) : Reading g s' buf := by
  constructor
  · rw [hbuf, h.buffer]
  · rw [hsize, h.size]
  · rw [hcount, hsize]
    exact h.count
  · rw [hcount, h.stream]
  · exact h.putNow

/-- The invariant looks at the mode and the read buffer; closing does not hurt. -/
theorem Delivers.same {g : Seen} {s s' : ConnectionEnd} (h : Delivers g s)
    (hconf : s'.mSSLConfigured = s.mSSLConfigured)
    (hbuf : s'.mSSLReadBuffer = s.mSSLReadBuffer)
    (hsize : s'.mSSLReadBufferSize = s.mSSLReadBufferSize)
    (hcount : s'.mSSLReadCount = s.mSSLReadCount)
    (hclosing : s'.mClosing = s.mClosing ∨ s'.mClosing = true) : Delivers g s' := by
  intro hconf'
  rcases h (hconf ▸ hconf') with hidle | ⟨b, buf, hout, hread⟩
  · refine .inl ⟨hidle.outstanding, ?_, hidle.put_eq, hidle.putNow⟩
    rw [hbuf]
    rcases hclosing with hclosing | hclosing
    · rw [hclosing]
      exact hidle.buffer
    · exact .inr hclosing
  · exact .inr ⟨b, buf, hout, hread.same hbuf hsize hcount⟩

theorem Delivers.core {g : Seen} {s s' : ConnectionEnd} (h : Delivers g s) (hcore : SameCore s s') :
    Delivers g s' :=
  h.same hcore.mSSLConfigured hcore.mSSLReadBuffer hcore.mSSLReadBufferSize hcore.mSSLReadCount
    (.inl hcore.mClosing)

/-- A new configuration has read nothing. -/
theorem fresh (s : ConnectionEnd) (v : SetupValues) :
    Delivers ⟨[], [], none, 0⟩ (s.configured v) := fun _ => .inl ⟨rfl, .inl rfl, rfl, rfl⟩

/-! ## Reading into the buffer -/

/-- What is written comes behind what is kept. -/
theorem take_writeAt {bytes bs : List Byte} {n : ℕ} (h : n ≤ bytes.length) :
    (writeAt bytes n bs).take (n + bs.length) = bytes.take n ++ bs := by
  have hlen : (bytes.take n ++ bs).length = n + bs.length := by
    rw [List.length_append, List.length_take, Nat.min_eq_left h]
  rw [writeAt, ← hlen, List.take_left]

/-- Writing inside leaves the length. -/
theorem length_writeAt {bytes bs : List Byte} {n : ℕ} (h : n + bs.length ≤ bytes.length) :
    (writeAt bytes n bs).length = bytes.length := by
  simp only [writeAt, List.length_append, List.length_take, List.length_drop]
  omega

/-- What `mbedtls_ssl_read` returns is appended to what the buffer holds. -/
theorem Reading.read {g : Seen} {s : ConnectionEnd} {buf : Block} (h : Reading g s buf)
    {bs : List Byte} (hbs : bs.length ≤ s.readRoom) :
    Reading { g with read := g.read ++ bs } (s.withRead buf bs)
      { buf with bytes := writeAt buf.bytes s.mSSLReadCount bs } := by
  have hcount := h.count
  have hsize := h.size
  rw [ConnectionEnd.readRoom] at hbs
  have hfits : s.mSSLReadCount + bs.length ≤ buf.bytes.length := by omega
  constructor
  · rfl
  · exact (length_writeAt hfits).trans hsize
  · show s.mSSLReadCount + bs.length ≤ s.mSSLReadBufferSize
    omega
  · show g.put ++ (writeAt buf.bytes s.mSSLReadCount bs).take (s.mSSLReadCount + bs.length) =
      g.read ++ bs
    rw [take_writeAt (by omega), ← List.append_assoc, h.stream]
  · exact h.putNow

/-! ## The contract -/

theorem next_traffic {g : Seen} {s : ConnectionEnd} {x : Label CESig} (hx : Traffic s x) :
    Counted g s x ∧ next g x = g := by
  cases x with
  | enter e => exact ⟨trivial, rfl⟩
  | leave e v => exact ⟨trivial, rfl⟩
  | asked q a => cases q <;> first | exact ⟨trivial, rfl⟩ | cases hx
  | calls e c =>
    obtain ⟨he, hc⟩ := hx
    constructor
    · unfold Counted
      split
      · next heq =>
        cases heq
        intro _ hnot
        rw [he] at hnot
        cases hnot
      · trivial
    · unfold next
      split <;> next heq => first
        | rfl
        | cases heq <;> first | exact if_pos he | cases hc
  | resumes c r => cases c <;> first | exact ⟨trivial, rfl⟩ | cases hx

/-- The streams, with the counts of the completions. -/
def core : CoreContract monitor where
  Inv := Delivers
  Every := Counted
  inv_core := fun _ _ _ h hcore => h.core hcore
  quiet := fun _ _ _ _ hx => next_traffic hx

/-- The contract: nothing happens inside of a completion of a get. -/
def contract : Contract monitor ConnectionEnd := core.toContract.still atCompletion

/-- Only three questions are observed. -/
theorem quietQuery {q : Query} (hput : ∀ b bytes, q ≠ .listPutn b bytes)
    (hconf : q ≠ .sslConfigured) : Quiet contract q := by
  intro g s a
  refine ⟨trivial, ?_⟩
  cases q with
  | listPutn b bytes => exact absurd rfl (hput b bytes)
  | sslConfigured => exact absurd rfl hconf
  | _ => rfl

/-- The questions of the setup are not observed. -/
theorem setupQuiet : SetupQuiet contract := by
  intro q hq
  apply quietQuery
  · rintro b bytes rfl
    cases hq
  · rintro rfl
    cases hq

theorem putListQuiet {q : Query} (hq : q.isPutList = true) : Quiet contract q := by
  apply quietQuery
  · rintro b bytes rfl
    cases hq
  · rintro rfl
    cases hq

/-- Calls that fit the state, beside those that read, are not observed. -/
theorem call_kept {g : Seen} {s : ConnectionEnd} (e : Entry) {c : Call} (hfits : c.fits e s) :
    Counted g s (.calls e c) ∧ next g (.calls e c) = g := by
  cases c with
  | client c =>
    cases c with
    | getComplete r b n =>
      obtain ⟨rfl, -⟩ := hfits
      exact ⟨by cases r <;> trivial, by cases r <;> rfl⟩
    | _ => exact ⟨trivial, rfl⟩
  | mbedtlsSslRead n => exact hfits.elim
  | _ => exact ⟨trivial, rfl⟩

/-- Calls keep what has been delivered. -/
theorem callRules : CallRules contract undisturbed Delivers where
  at_iff := fun _ _ _ _ => Iff.rfl
  rely_out := by
    intro stk e g s g' s' hout hok
    refine ⟨core.rely_out hout, fun hst => ?_⟩
    simp only [undisturbed, hst, Bool.not_true, Bool.false_eq_true] at hok
  rely_tls := fun _ _ _ _ _ _ hc h => (core.rely_tls hc h.1).2
  timer := fun _ _ _ _ _ h => h.same rfl rfl rfl rfl (.inl rfl)
  clock := setupQuiet.memory _ rfl
  calls := by
    intro e stk g s c _ _ h hfits
    obtain ⟨hev, hnext⟩ := call_kept (g := g) e hfits
    refine ⟨hev, ?_⟩
    show Delivers (next g (.calls e c)) s
    rw [hnext]
    exact h
  resumes := by
    intro stk g s c r _ htls h _ _
    refine ⟨trivial, ?_⟩
    cases c <;> first | exact h | cases htls

/-! ## Completing a get -/

/-- The list of the get that `e` serves is `b`. -/
def ServesList (e : Entry) (b : ℕ) (g : Seen) : Prop :=
  e.gets? = some b ∨ e.gets? = none ∧ g.outstanding = some b

/-- A configured end reads for the list `l`. -/
def ReadsFor (e : Entry) (l : ListRef) (g : Seen) (s : ConnectionEnd) : Prop :=
  s.mSSLConfigured = true → ∃ b buf, l = .client b ∧ ServesList e b g ∧ Reading g s buf

/-- A configured end has everything put, the last `n` bytes for the outstanding get. -/
def PutAll (n : ℕ) (g : Seen) (s : ConnectionEnd) : Prop :=
  s.mSSLConfigured = true → g.put = g.read ∧ g.putNow = n

section complete

variable {e : Entry} {stk : List Call} {g : Seen} {s : ConnectionEnd} {l : ListRef}
  {Q : Post monitor ConnectionEnd Unit}

/-- The bytes held go into the list of the outstanding get, which has room for them. -/
theorem Reading.putn {b n : ℕ} {buf : Block} (h : Reading g s buf) (hout : g.outstanding = some b)
    (hok : undisturbed stk g s (.asked (.listPutn b (buf.bytes.take s.mSSLReadCount)) n) = true) :
    (next g (.asked (.listPutn b (buf.bytes.take s.mSSLReadCount)) n)).put = g.read ∧
      (next g (.asked (.listPutn b (buf.bytes.take s.mSSLReadCount)) n)).putNow =
        s.mSSLReadCount := by
  have hlen : (buf.bytes.take s.mSSLReadCount).length = s.mSSLReadCount := by
    rw [List.length_take, h.size, Nat.min_eq_left h.count]
  have hn : n = s.mSSLReadCount := by
    simp only [undisturbed, hout, hlen, Nat.min_eq_left h.count, ne_eq, not_true, decide_false,
      Bool.false_or, decide_eq_true_eq] at hok
    exact hok
  subst hn
  constructor
  · show g.put ++ (buf.bytes.take s.mSSLReadCount).take s.mSSLReadCount = g.read
    rw [List.take_take, Nat.min_self, h.stream]
  · show (if g.outstanding = some b then g.putNow + s.mSSLReadCount else g.putNow) =
      s.mSSLReadCount
    rw [if_pos hout, h.putNow, Nat.zero_add]

/-- The read buffer is put into the list. -/
theorem sat_putn {buf : Block}
    (h : s.mSSLConfigured = true → ∃ b, l = .client b ∧ g.outstanding = some b ∧ Reading g s buf)
    (hQ : ∀ g', PutAll s.mSSLReadCount g' s.withoutReadBuffer →
      Q g' (some ()) s.withoutReadBuffer) :
    (putnReadBuffer l buf).Sat contract (discipline monitor undisturbed) e stk Q g s := by
  refine sat_putnReadBuffer setupQuiet.memory fun b hb => sat_ask fun n hok => ⟨trivial, ?_⟩
  refine hQ _ fun hconf => ?_
  simp only [discipline, Bool.and_eq_true] at hok
  obtain ⟨b', hb', hout, hread⟩ := h hconf
  obtain rfl : b' = b := by
    rw [hb] at hb'
    cases hb'
    rfl
  exact hread.putn hout hok.2

/-- The client is told how many bytes have been put for its get; nothing happens before it
returns. -/
theorem sat_complete (hout : OutsideTLS e stk) (r : Int) (n : ℕ) (h : PutAll n g s)
    (hbuffer : s.mSSLReadBuffer = none ∨ s.mClosing = true)
    (hQ : ∀ g', (s.mSSLConfigured = true → Idle g' s) → Q g' (some ()) s) :
    (client (.getComplete (.code r) true n)).Sat contract (discipline monitor undisturbed) e stk
      Q g s := by
  have hnext : next g (.calls e (.client (.getComplete (.code r) true n))) =
      { g with outstanding := none, putNow := 0 } := by
    simp only [next, hout.notTraffic, Bool.false_eq_true, if_false]
  have hidle : s.mSSLConfigured = true →
      Idle (next g (.calls e (.client (.getComplete (.code r) true n)))) s := by
    intro hconf
    rw [hnext]
    exact ⟨rfl, hbuffer, (h hconf).1, rfl⟩
  have hcounted : Counted g s (.calls e (.client (.getComplete (.code r) true n))) :=
    fun hconf _ => (h hconf).2.symm
  simp only [client, Code.sat_bind]
  refine callRules.sat_call (c := .client (.getComplete (.code r) true n)) hout rfl
    ⟨hcounted, fun hconf => .inl (hidle hconf)⟩ fun u g' s' _ hrely _ => ⟨trivial, ?_⟩
  obtain ⟨rfl, rfl⟩ := hrely.2 rfl
  exact hQ _ hidle

/-- The threshold is reached. -/
theorem sat_completeRead (hout : OutsideTLS e stk) {buf : Block}
    (h : s.mSSLConfigured = true → ∃ b, l = .client b ∧ g.outstanding = some b ∧ Reading g s buf)
    (hQ : ∀ g' s', Delivers g' s' → Q g' (some ()) s') :
    (completeRead l buf s.mSSLReadCount).Sat contract (discipline monitor undisturbed) e stk
      Q g s := by
  simp only [completeRead, Code.sat_bind]
  refine sat_putn h fun g' hput => ?_
  simp only [Post.andThen_some, Code.sat_bind]
  refine sat_complete hout _ _ hput (.inl rfl) fun g'' hidle => hQ _ _ fun hconf => .inl ?_
  obtain ⟨hnone, -, hput, hnow⟩ := hidle hconf
  exact ⟨hnone, .inl rfl, hput, hnow⟩

/-- The connection has failed: what is held is put, if there is anything. -/
theorem sat_failRead (hout : OutsideTLS e stk) (err : Int)
    (h : s.mSSLConfigured = true → ∃ b buf, l = .client b ∧ g.outstanding = some b ∧
      Reading g s buf)
    (hQ : ∀ g' s', Delivers g' s' → Q g' (some ()) s') :
    (failRead l err).Sat contract (discipline monitor undisturbed) e stk Q g s := by
  have hend : ∀ g' s', PutAll s.mSSLReadCount g' s' → s'.mClosing = true →
      mbedtlsSslSessionReset.Sat contract (discipline monitor undisturbed) e stk
        (Post.andThen contract (discipline monitor undisturbed) e stk Q
          fun _ => client (.getComplete (.code err) true s.mSSLReadCount)) g' s' := by
    intro g' s' hput hclosing
    refine sat_mbedtlsSslSessionReset (setupQuiet _ rfl) (fun _ => trivial) fun a i f b => ?_
    exact sat_complete hout _ _ hput (.inr hclosing) fun g'' hidle =>
      hQ _ _ fun hconf => .inl (hidle hconf)
  simp only [failRead, Code.sat_bind, Code.sat_get, Code.sat_modify, Post.andThen_some,
    Code.sat_ite]
  refine ⟨fun hsome => sat_deref _ fun buf hbuf => ?_, fun hnone => hend _ _ ?_ rfl⟩
  · simp only [Post.andThen_some, Code.sat_bind]
    refine sat_putn (fun hconf => ?_) fun g' hput => ?_
    · obtain ⟨b, buf', hl, houtst, hread⟩ := h hconf
      obtain rfl : buf' = buf := Option.some.inj (hread.buffer.symm.trans hbuf)
      -- the buffer that is put is the one that was read into
      exact ⟨b, hl, houtst, hread.same rfl rfl rfl⟩
    · simp only [Post.andThen_some, Code.sat_bind]
      exact hend _ _ hput rfl
  · intro hconf
    obtain ⟨b, buf, -, -, hread⟩ := h hconf
    -- nothing was read: nothing is put, and none of the stream is held
    have hzero : s.mSSLReadCount = 0 := Nat.eq_zero_of_not_pos hnone
    refine ⟨?_, hread.putNow.trans hzero.symm⟩
    rw [← hread.stream, hzero, List.take_zero, List.append_nil]

end complete

/-! ## Reading -/

section reading

variable {e : Entry} {stk : List Call} {g : Seen} {s : ConnectionEnd} {l : ListRef}
  {Q : Post monitor ConnectionEnd Unit}

/-- When `mbedtls_ssl_read` is called, its get is outstanding. -/
theorem ReadsFor.called (h : ReadsFor e l g s) (n : ℕ) (hconf : s.mSSLConfigured = true) :
    ∃ b buf, l = .client b ∧ (next g (.calls e (.mbedtlsSslRead n))).outstanding = some b ∧
      Reading (next g (.calls e (.mbedtlsSslRead n))) s buf := by
  obtain ⟨b, buf, hl, hserves, hread⟩ := h hconf
  refine ⟨b, buf, hl, ?_⟩
  rcases hserves with hgets | ⟨hgets, hout⟩
  · have hnext : next g (.calls e (.mbedtlsSslRead n)) =
        { g with outstanding := some b, putNow := 0 } := by simp only [next, hgets]
    rw [hnext]
    exact ⟨rfl, hread.buffer, hread.size, hread.count, hread.stream, rfl⟩
  · have hnext : next g (.calls e (.mbedtlsSslRead n)) = g := by simp only [next, hgets]
    rw [hnext]
    exact ⟨hout, hread⟩

/-- The list that a get serves is the one that is outstanding when it reads. -/
theorem ServesList.called {b b' n : ℕ} (h : ServesList e b g)
    (hout : (next g (.calls e (.mbedtlsSslRead n))).outstanding = some b') :
    ServesList e b' (next g (.calls e (.mbedtlsSslRead n))) := by
  rcases h with hgets | ⟨hgets, -⟩
  · have hb : (next g (.calls e (.mbedtlsSslRead n))).outstanding = some b := by
      simp only [next, hgets]
    obtain rfl : b = b' := Option.some.inj (hb.symm.trans hout)
    exact .inl hgets
  · exact .inr ⟨hgets, hout⟩

/-- A read that fails hands over what has been read, and reports as many bytes. -/
theorem sat_readFails (hout : OutsideTLS e stk) (err : Int) (hdelivers : Delivers g s)
    (h : s.mSSLConfigured = true → ∃ b buf, l = .client b ∧ g.outstanding = some b ∧
      Reading g s buf)
    (hQ : ∀ g' s', Delivers g' s' → Q g' (some ()) s') :
    (readFails l err).Sat contract (discipline monitor undisturbed) e stk Q g s := by
  refine callRules.sat_readFails hout (fun g s => Delivers g s ∧ (s.mSSLConfigured = true →
    ∃ b buf, l = .client b ∧ g.outstanding = some b ∧ Reading g s buf)) ⟨hdelivers, h⟩
    (fun h => ⟨trivial, h.1⟩) ?_ fun err g s h => sat_failRead hout err h.2 hQ
  intro r g' s' h' hrely hcore _
  obtain ⟨rfl, -⟩ := hrely.1 rfl
  refine ⟨trivial, h', fun hconf => ?_⟩
  obtain ⟨b, buf, hl, houtst, hread⟩ := h (hcore.mSSLConfigured ▸ hconf)
  exact ⟨b, buf, hl, houtst, hread.same hcore.mSSLReadBuffer hcore.mSSLReadBufferSize
    hcore.mSSLReadCount⟩

/-- `DoSSLRead`, over any number of rounds. -/
theorem sat_doSSLRead (hout : OutsideTLS e stk) (fuel : ℕ) (threshold : Int)
    (h : ReadsFor e l g s) (hQ : ∀ g' s', Delivers g' s' → Q g' (some ()) s') :
    (doSSLRead fuel l threshold).Sat contract (discipline monitor undisturbed) e stk Q g s := by
  refine callRules.sat_doSSLRead hout (ReadsFor e l) ?_ ?_ fuel h
  · intro g s h
    refine ⟨trivial, fun hconf => .inr ?_⟩
    obtain ⟨b, buf, -, houtst, hread⟩ := h.called s.readRoom hconf
    exact ⟨b, buf, houtst, hread⟩
  · intro g s g' s' r h h' hrely hcore hok
    obtain ⟨rfl, -⟩ := hrely.1 rfl
    -- the read buffer and the get are what they were when `mbedtls_ssl_read` was called
    have hsame : s'.mSSLConfigured = true → ∃ b buf, l = .client b ∧ ServesList e b
        (next g (.calls e (.mbedtlsSslRead s.readRoom))) ∧
        (next g (.calls e (.mbedtlsSslRead s.readRoom))).outstanding = some b ∧
        Reading (next g (.calls e (.mbedtlsSslRead s.readRoom))) s' buf := by
      intro hconf
      rw [hcore.mSSLConfigured] at hconf
      obtain ⟨_, _, _, hserves, _⟩ := h hconf
      obtain ⟨b, buf, hl, houtst, hread⟩ := h.called s.readRoom hconf
      exact ⟨b, buf, hl, hserves.called houtst, houtst, hread.same hcore.mSSLReadBuffer
        hcore.mSSLReadBufferSize hcore.mSSLReadCount⟩
    refine ⟨trivial, ?_⟩
    rcases r with err | bs
    -- the read stays open, or the get is completed with the failure
    · refine ⟨fun _ => hQ _ _ h', fun _ => sat_readFails hout err h' (fun hconf => ?_) hQ⟩
      obtain ⟨b, buf, hl, -, houtst, hread⟩ := hsame hconf
      exact ⟨b, buf, hl, houtst, hread⟩
    · intro buf hbuf
      have hroom : s'.mSSLReadBufferSize - s'.mSSLReadCount = s.readRoom := by
        rw [hcore.mSSLReadBufferSize, hcore.mSSLReadCount]
      -- mbedTLS was given the room that there still is
      have hbs : bs.length ≤ s'.readRoom := by
        rw [ConnectionEnd.readRoom, hroom]
        simpa only [undisturbed, decide_eq_true_eq] using hok
      have hmore : ∀ buf', Reading (next g (.calls e (.mbedtlsSslRead s.readRoom))) s' buf' →
          Reading (next (next g (.calls e (.mbedtlsSslRead s.readRoom)))
            (.resumes (.mbedtlsSslRead s.readRoom) (.ok bs))) (s'.withRead buf bs)
            { buf with bytes := writeAt buf.bytes s'.mSSLReadCount bs } := by
        intro buf' hread
        obtain rfl : buf' = buf := Option.some.inj (hread.buffer.symm.trans hbuf)
        exact hread.read hbs
      refine ⟨fun _ => sat_completeRead hout (fun hconf => ?_) hQ, fun _ hconf => ?_⟩
      · obtain ⟨b, buf', hl, -, houtst, hread⟩ := hsame hconf
        exact ⟨b, hl, houtst, hmore buf' hread⟩
      · obtain ⟨b, buf', hl, hserves, -, hread⟩ := hsame hconf
        exact ⟨b, _, hl, hserves, hmore buf' hread⟩

/-- An accepted get starts with an empty read buffer. -/
theorem sat_getFromSSL (hout : OutsideTLS e stk) (fuel : ℕ) {b : ℕ} (threshold : Int)
    (hgets : e.gets? = some b) (h : Delivers g s)
    (hQ : ∀ g' s', Delivers g' s' → Q g' (some ()) s') :
    (getFromSSL fuel b threshold).Sat contract (discipline monitor undisturbed) e stk Q g s := by
  have hrefuse : ∀ r, (client (.getComplete r false 0)).Sat contract
      (discipline monitor undisturbed) e stk Q g s := fun r =>
    callRules.sat_client hout h (by exact ⟨rfl, rfl⟩) hQ
  simp only [getFromSSL, Code.sat_bind, Code.sat_get, Post.andThen_some, Code.sat_ite]
  refine ⟨fun _ => ?_, fun _ => hrefuse _⟩
  cases hbuf : s.mSSLReadBuffer with
  | some _ => exact hrefuse _
  | none =>
    simp only [Code.sat_bind]
    refine (putListQuiet rfl).sat_ask fun totalSize => ?_
    simp only [Post.andThen_some, Code.sat_bind]
    refine (putListQuiet rfl).sat_ask fun pos => ?_
    simp only [Post.andThen_some, Code.sat_bind, Code.sat_modify]
    refine sat_newPtr setupQuiet.memory _ ?_
    simp only [Post.andThen_some, Code.sat_bind, Code.sat_modify]
    refine sat_doSSLRead hout fuel threshold (fun hconf => ?_) hQ
    rcases h hconf with hidle | ⟨_, _, _, hread⟩
    -- without a read buffer no get is outstanding
    · refine ⟨b, _, rfl, .inl hgets, rfl, List.length_replicate, Nat.zero_le _, ?_, hidle.putNow⟩
      rw [List.take_zero, List.append_nil, hidle.put_eq]
    · have hsome := hread.buffer
      rw [hbuf] at hsome
      cases hsome

/-- A wake-up goes on reading for the get that is outstanding. -/
theorem sat_retryRead (hout : OutsideTLS e stk) (hgets : e.gets? = none) (fuel : ℕ)
    (h : Delivers g s) (hclosing : s.mClosing = false) (hsome : s.mSSLReadBuffer.isSome = true)
    (hQ : ∀ g' s', Delivers g' s' → Q g' (some ()) s') :
    (retryRead fuel).Sat contract (discipline monitor undisturbed) e stk Q g s := by
  have hread : ∀ threshold, Code.Sat contract (discipline monitor undisturbed) e stk Q (do
      let clientBuffer ← ask .getCurGetData
      doSSLRead fuel clientBuffer threshold) g s := by
    intro threshold
    simp only [Code.sat_bind]
    refine sat_ask fun l hok => ⟨trivial, ?_⟩
    simp only [discipline, Bool.and_eq_true] at hok
    refine sat_doSSLRead hout fuel threshold (fun hconf => ?_) hQ
    rcases h hconf with hidle | ⟨b, buf, houtst, hread⟩
    -- there is a buffer and the end is not closing: a get is outstanding
    · rcases hidle.buffer with hnone | hclosed
      · rw [hnone] at hsome
        cases hsome
      · rw [hclosing] at hclosed
        cases hclosed
    · have hl : l = .client b := by
        simpa only [undisturbed, hconf, houtst, Bool.not_true, Bool.false_or, Option.all_some,
          decide_eq_true_eq] using hok.2
      exact ⟨b, buf, hl, .inr ⟨hgets, houtst⟩, hread⟩
  simp only [retryRead, Code.sat_bind]
  refine (quietQuery (fun _ _ h => by cases h) fun h => by cases h).sat_ask fun nonBlocking => ?_
  simp only [Post.andThen_some, Code.sat_bind, Code.sat_ite]
  refine ⟨fun _ => ?_, fun _ => hread 0⟩
  exact (quietQuery (fun _ _ h => by cases h) fun h => by cases h).sat_ask hread

end reading

/-! ## The requests -/

/-- Writing and terminating do not touch the read buffer. -/
theorem sendRules : SendRules contract undisturbed Delivers fun _ => True where
  basic := callRules
  putList := fun _ hq => putListQuiet hq
  tlsCalls := by
    intro e stk g s c _ _ _ h hfits
    obtain ⟨hev, hnext⟩ := call_kept (g := g) e hfits
    refine ⟨hev, ?_⟩
    show Delivers (next g (.calls e c)) s
    rw [hnext]
    exact h
  tlsResumes := by
    intro stk g s c r _ _ h hplain _
    refine ⟨trivial, ?_⟩
    cases c <;> first | exact h | cases hplain
  lost := fun _ _ _ _ _ h => h.same rfl rfl rfl rfl (.inl rfl)
  closing := fun _ _ h => h.same rfl rfl rfl rfl (.inr rfl)
  reset := fun _ _ _ h _ => ⟨trivial, h⟩

theorem entryRules :
    EntryRules contract undisturbed Delivers fun _ _ g' s' => Delivers g' s' where
  basic := callRules
  enter := fun _ _ _ _ _ _ h => ⟨trivial, fun _ => h⟩
  leave := fun _ _ _ _ _ h => ⟨trivial, h⟩
  opened := fun _ _ _ _ _ => .plain rfl
  connects := fun _ _ _ _ h _ => h
  connected := fun _ r _ _ _ h _ =>
    ConnectionEnd.of_connected r h (h.same rfl rfl rfl rfl (.inl rfl))
  enabled := fun _ _ _ _ _ h => h.same rfl rfl rfl rfl (.inl rfl)
  closed := fun _ _ _ _ h _ => ⟨trivial, h, fun _ =>
    sat_sslUnconfigure setupQuiet.memory (.plain rfl)⟩
  delete := fun _ _ _ hout _ h => callRules.sat_delete ⟨rfl, hout⟩ (setupQuiet.memory _ rfl)
    (fun _ => setupQuiet.memory _ rfl) (fun _ _ _ h => h.same rfl rfl rfl rfl (.inl rfl)) h
    fun _ => sat_sslUnconfigure setupQuiet.memory ⟨rfl, .plain rfl⟩
  configure := by
    intro e stk fuel g s hout hbegins
    have h : Delivers g s := hbegins.elim (fun _ _ _ h _ => h)
      fun _ _ _ h _ => h.same rfl rfl rfl rfl (.inl rfl)
    refine sat_configure_of_quiet setupQuiet (fun _ _ _ h => h.same rfl rfl rfl rfl (.inl rfl)) ?_
      fuel hout h
    exact fun _ _ s v _ _ _ => ⟨trivial, fresh s v⟩
  configured := fun _ _ _ _ h => h
  setter := by
    intro e stk fuel o g s _ ho _ h
    refine sat_setter_of_quiet setupQuiet ?_ (fun _ _ _ h => h.same rfl rfl rfl rfl (.inl rfl)) fuel
      o ho h
    exact quietQuery (fun _ _ h => by cases h) fun h => by cases h
  getSSL := fun _ _ fuel _ threshold _ _ hout hgets _ h _ =>
    sat_getFromSSL hout fuel threshold hgets h fun _ _ h' => h'
  reread := fun _ fuel _ _ hout h hclosing _ hsome =>
    sat_retryRead ⟨rfl, hout⟩ rfl fuel h hclosing hsome fun _ _ h' => h'
  put := fun _ b _ _ hout h hconf _ hest =>
    sendRules.sat_putToSSL trivial ⟨rfl, hout⟩ b h hconf hest fun _ _ h' => h'
  terminate := fun _ _ _ hout _ h =>
    sendRules.sat_terminateStart trivial ⟨rfl, hout⟩ h fun _ _ h' => h'
  begins := fun _ _ _ _ _ _ => trivial
  upgrades := fun _ _ _ => trivial
  handshake := by
    intro e stk g s _ hcause
    have h : Delivers g s := hcause.inv (fun _ _ _ _ _ _ h => h) (fun _ _ _ _ h => h)
      fun _ _ _ h => h
    exact ⟨trivial, h⟩
  outcome := by
    intro e stk g s g' s' r hout _ h _ _
    refine ⟨trivial, ?_, ?_, fun _ => h⟩
    · intro _
      have htell : Delivers g' { s' with mEstablished := true } := h.same rfl rfl rfl rfl (.inl rfl)
      unfold successReport
      split
      · exact ⟨trivial, htell⟩
      · exact ⟨trivial, htell⟩
    · intro _ _ a i f b
      exact ⟨trivial, trivial, h.same rfl rfl rfl rfl (.inr rfl)⟩

/-- Every function meets the contract. -/
theorem meets (fuel : ℕ) : contract.Meets (discipline monitor undisturbed) (code fuel) := by
  refine CoreContract.meets_still entryRules ?_ fuel
  intro stk e g s hok
  simpa only [undisturbed, Bool.not_eq_true'] using hok

/-! ## The stream -/

/-- **The plaintext is delivered as it was read**, and every get is completed with the number of
bytes that its list has got. -/
theorem plaintext_delivered {fuel : ℕ} {memory : ConnectionEnd} {cfg : Config CESig ConnectionEnd}
    (h : Reachable (discipline monitor undisturbed) (code fuel) (new memory) cfg) :
    cfg.log.Obeys monitor fun g s x => Counted g s x ∧ monitor.AtPassage Delivered g s x := by
  intro before x after hl
  constructor
  · exact Contract.log_obeys (meets fuel) (.plain rfl) h before x after hl
  · exact Contract.log_passes (meets fuel) (fun _ _ _ h => h.delivered) (.plain rfl) h before x
      after hl

/-- Every list of the client has room for four bytes. -/
def fourBytes : (q : Query) → q.Answer
  | .listGetSize _ => (4 : ℕ)
  | q => plainAnswer q

/-- A get with threshold 3 is served in two parts, and the next one fails after one byte. -/
def partsRun : List (Move CESig) :=
  connectRun ++ [.enter (.getBytesImmediateStart 0 3) fun _ => fourBytes, backRead [1, 2],
    backWith MBEDTLS_ERR_SSL_WANT_READ,
    .enter (.handleRequest .kAsyncReadMessageType) fun _ => fun
      | .getCurGetNonBlocking => true
      | .getCurGetThreshold => (3 : Int)
      | q => plainAnswer q, backRead [3], back, back,
    .enter (.getBytesImmediateStart 0 3) fun _ => fourBytes, backRead [4],
    .resume (results 0 (.error (-1))) fun _ => plainAnswer]

/-- A get with a threshold is completed by two reads. -/
theorem plaintext_delivered_partsRun :
    ∃ cfg, (Config.start (new zeroMemory)).run (discipline monitor undisturbed) (code 3) partsRun =
        some cfg ∧
      monitor.run cfg.log = ⟨[1, 2, 3, 4], [1, 2, 3, 4], none, 0⟩ ∧
      cfg.log.Obeys monitor fun g s x => Counted g s x ∧ monitor.AtPassage Delivered g s x := by
  have hrun : ((Config.start (new zeroMemory)).run (discipline monitor undisturbed) (code 3)
      partsRun).map (fun cfg => monitor.run cfg.log) =
        some ⟨[1, 2, 3, 4], [1, 2, 3, 4], none, 0⟩ := by
    decide +kernel
  obtain ⟨cfg, hcfg, hseen⟩ := Option.map_eq_some_iff.mp hrun
  exact ⟨cfg, hcfg, hseen, plaintext_delivered (.of_run _ .start hcfg)⟩

end PlaintextStream

end NewtonTLS
