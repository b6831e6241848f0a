/-
# Runs of the tasks that use mbedTLS

Any number of tasks call platform functions, in any order, while `newt` serves their events and
goes on with its own work.  A call that is answered gives its task what the function would have
given it in `newt` at one moment of the call (`platform_call_atomic`).  Two things that mbedTLS
relies on follow for all tasks together: the seed that is read is the one that was written last
(`seed_read_back`), and no entropy is handed out twice (`entropy_shared_once`).
-/
import NewtonTLS.TaskCalls

namespace NewtonTLS

namespace TaskCalls

open PortCalls Steps

variable {Task : Type} {makeString : List Byte → List UniChar}

/-- The tasks, their memory and `newt`. -/
abbrev Tasks (Task : Type) : Type := State Task Newt TMbedTLSEvent UInt32 ℕ Byte

/-- A step of a task or of `newt`. -/
abbrev TaskAction (Task : Type) : Type := Action Task Work TMbedTLSEvent ℕ Byte

/-- A record of a run. -/
abbrev Record (Task : Type) : Type := List (Tasks Task × TaskAction Task)

/-- In no step of the record does the task go on. -/
def Blocked (t : Task) (l : Record Task) : Prop := ∀ y ∈ l, y.2 ≠ .resume t ∧ y.2 ≠ .fail t

section calls

variable [DecidableEq Task]

variable (makeString) in
/-- A step of the tasks or of `newt`. -/
abbrev TaskStep : Tasks Task → TaskAction Task → Tasks Task → Prop := Step (newtService makeString)

/-! ## Calls that nothing else happens in -/

/-- The characters of names as they are. -/
def latin (name : List Byte) : List UniChar := name.map UInt8.toUInt16

/-- The task has called. -/
def called (s : Tasks Bool) (t : Bool) (f : Platform) : Tasks Bool :=
  { s with
    status := Function.update s.status t (.waiting f.event (lends f.event s.mem))
    port := s.port ++ [t] }

/-- The event, the only one, has been served. -/
def answered (s : Tasks Bool) (t : Bool) (f : Platform) : Tasks Bool where
  world := (aeHandlerProc latin f.event s.world s.mem).2.1
  mem := (aeHandlerProc latin f.event s.world s.mem).2.2
  status := Function.update (called s t f).status t
    (.served (aeHandlerProc latin f.event s.world s.mem).1 (lends f.event s.mem))
  port := []

/-- The task has gone on. -/
def goneOn (s : Tasks Bool) (t : Bool) (f : Platform) : Tasks Bool :=
  { answered s t f with status := Function.update (answered s t f).status t .running }

/-- The steps of a call. -/
theorem steps_alone {s : Tasks Bool} (hquiet : s.Quiet) (t : Bool) (f : Platform) :
    TaskStep latin s (.call t f.event) (called s t f) ∧
      TaskStep latin (called s t f) .serve (answered s t f) := by
  constructor
  · refine .call (hquiet.1 t) fun t' => ?_
    rw [hquiet.1 t']
    exact Set.empty_disjoint _
  · apply Step.serve
    · show s.port ++ [t] = [t]
      rw [hquiet.2]
      rfl
    · exact Function.update_self _ _ _

theorem status_answered {s : Tasks Bool} {t : Bool} {f : Platform} {result : UInt32}
    (hresult : (aeHandlerProc latin f.event s.world s.mem).1 = some result) :
    (answered s t f).status t = .served (some result) (lends f.event s.mem) := by
  rw [← hresult]
  exact Function.update_self _ _ _

theorem resume_alone {s : Tasks Bool} {t : Bool} {f : Platform} {result : UInt32}
    (hresult : (aeHandlerProc latin f.event s.world s.mem).1 = some result) :
    TaskStep latin (answered s t f) (.resume t) (goneOn s t f) :=
  .resume (status_answered hresult)

theorem quiet_goneOn {s : Tasks Bool} (hquiet : s.Quiet) (t : Bool) (f : Platform) :
    State.Quiet (goneOn s t f) := by
  refine ⟨fun t' => ?_, rfl⟩
  show Function.update (Function.update (Function.update s.status t _) t _) t _ t' = .running
  rcases eq_or_ne t' t with rfl | hne
  · exact Function.update_self _ _ _
  · rw [Function.update_of_ne hne, Function.update_of_ne hne, Function.update_of_ne hne,
      hquiet.1 t']

/-- Two tasks besides `newt`, neither of which has called; there is some entropy. -/
def installed : Tasks Bool where
  world :=
    { context := some ⟨.install (some [0x12, 0x34, 0x56]), none⟩
      gmt := none
      serialNumber := .otherException
      store := ⟨[], none⟩
      stack := 0 }
  mem := fun x => UInt8.ofNat x
  status := fun _ => .running
  port := []

theorem quiet_installed : State.Quiet installed := ⟨fun _ => rfl, rfl⟩

/-! ## Calls in a run -/

variable {start s₀ s₁ s s' : Tasks Task} {l₀ l : Record Task} {t : Task} {f : Platform}

/-- The call has an effect at one moment, when `newt` is in the state `at'`: the outcome, what
happens to `newt` and what is left in the memory are those of the function in `newt`, on the
memory `m` that the task had at the call. -/
structure TakesEffect (makeString : List Byte → List UniChar) (f : Platform) (m : Memory)
    (outcome : Outcome) (s' at' : Tasks Task) : Prop where
  outcome : (f.inNewtTask makeString at'.world m).1 = some outcome
  world : ∀ next, TaskStep makeString at' .serve next →
    next.world = (f.inNewtTask makeString at'.world m).2.1
  mem : ∀ x ∈ lends f.event m, s'.mem x = (f.inNewtTask makeString at'.world m).2.2 x

/-- An event that has been served with a reply. -/
theorem takesEffect_of_served {m : Memory} {at' : Tasks Task} {result : UInt32} {lent : Set ℕ}
    (hserved : ServedAt (newtService makeString) t f.event m l s at')
    (hstatus : s.status t = .served (some result) lent) :
    TakesEffect makeString f m (f.afterRPC (.ok result)) s at' := by
  have hreply : (aeHandlerProc makeString f.event at'.world m).1 = some result := by
    have hsame := hserved.status.symm.trans hstatus
    rw [Status.served.injEq] at hsame
    exact hsame.1
  constructor
  · rw [inNewtTask_eq, hreply]
    rfl
  · rw [inNewtTask_eq]
    exact hserved.world
  · rw [inNewtTask_eq]
    exact hserved.mem

/-- A call that the task goes on from has been served with a reply. -/
theorem served_of_resume (hproper : Proper (newtService makeString) s₀)
    (hcall : TaskStep makeString s₀ (.call t f.event) s₁)
    (hduring : Path (TaskStep makeString) s₁ l s) (hblocked : Blocked t l)
    (hresume : TaskStep makeString s (.resume t) s') :
    ∃ at' result lent, ServedAt (newtService makeString) t f.event s₀.mem l s at' ∧
      s.status t = .served (some result) lent ∧ s'.mem = s.mem := by
  cases hresume with
  | @resume _ result lent hstatus =>
    rcases hcall.served hproper hduring hblocked with hwaits | ⟨at', hserved⟩
    · rw [hwaits.status] at hstatus
      cases hstatus
    · exact ⟨at', result, lent, hserved, hstatus, rfl⟩

/-- The seed of the preferences, while the package is installed. -/
def SeedIs (seed : List Byte) (s : Tasks Task) : Prop :=
  ∀ context, s.world.context = some context → context.nvSeed = some seed

/-- The step writes the seed. -/
def WritesSeed (y : Tasks Task × TaskAction Task) : Prop :=
  ∃ buf buf_len, request? y.1 y.2 = some (.nvSeedWrite buf buf_len)

omit [DecidableEq Task] in
/-- What happens in `newt` besides does not change the seed. -/
theorem contextAfter_nvSeed {k : Work} {c context : Context} (h : k.contextAfter c = some context) :
    context.nvSeed = c.nvSeed := by
  cases k with
  | removeScript => cases h
  | _ => cases h; rfl

omit [DecidableEq Task] in
/-- Only the handler of its event changes the seed. -/
theorem contextAfter_nvSeed_event {event : TMbedTLSEvent}
    (hevent : ∀ buf buf_len, event ≠ .nvSeedWrite buf buf_len) (m : Memory) (c : Context) :
    (contextAfter event m c).nvSeed = c.nvSeed := by
  cases event with
  | nvSeedWrite buf buf_len => exact absurd rfl (hevent buf buf_len)
  | _ => rfl

/-- A step that does not write the seed keeps it. -/
theorem SeedIs.step {seed : List Byte} {y : Tasks Task × TaskAction Task} (hseed : SeedIs seed y.1)
    (hstep : TaskStep makeString y.1 y.2 s') (hwrites : ¬ WritesSeed y) : SeedIs seed s' := by
  intro context hcontext
  rcases hstep.world_cases with ⟨event, hrequest, hworld⟩ | ⟨-, k, -, hworld⟩ | ⟨-, -, hworld⟩
  · have hevent : ∀ buf buf_len, event ≠ .nvSeedWrite buf buf_len := by
      rintro buf buf_len rfl
      exact hwrites ⟨buf, buf_len, hrequest⟩
    rw [hworld, show (newtService makeString).serve = aeHandlerProc makeString from rfl,
      aeHandlerProc_context, Option.map_eq_some_iff] at hcontext
    obtain ⟨c, hc, rfl⟩ := hcontext
    rw [contextAfter_nvSeed_event hevent]
    exact hseed c hc
  · rw [hworld, show (newtService makeString).work k y.1.world = k.run y.1.world from rfl,
      Work.run_context, Option.bind_eq_some_iff] at hcontext
    obtain ⟨c, hc, hafter⟩ := hcontext
    rw [contextAfter_nvSeed hafter]
    exact hseed c hc
  · rw [hworld] at hcontext
    exact hseed context hcontext

/-- Steps that do not write the seed keep it. -/
theorem SeedIs.path {seed : List Byte} (hpath : Path (TaskStep makeString) start l s)
    (hseed : SeedIs seed start) (hwrites : ∀ y ∈ l, ¬ WritesSeed y) : SeedIs seed s :=
  hpath.kept hseed fun y hy _ hbefore hstep => hbefore.step hstep (hwrites y hy)

/-- Serving the event writes the seed. -/
theorem seedIs_of_nvSeedWrite {buf : ℕ} {buf_len : UInt32} {m : Memory} {at' next : Tasks Task}
    (hserved : ServedAt (newtService makeString) t (.nvSeedWrite buf buf_len) m l s at')
    (hserve : TaskStep makeString at' .serve next) :
    SeedIs (m.bytes buf buf_len.toNat) next := by
  intro context hcontext
  rw [hserved.world next hserve,
    show (newtService makeString).serve = aeHandlerProc makeString from rfl,
    aeHandlerProc_context, Option.map_eq_some_iff] at hcontext
  obtain ⟨c, -, rfl⟩ := hcontext
  rfl

/-- What reading the seed does. -/
theorem nvSeedRead_eq {w : Newt} (m : Memory) (buf : ℕ) (buf_len : UInt32) {context : Context}
    {seed : List Byte} (hcontext : w.context = some context) (hseed : context.nvSeed = some seed) :
    nvSeedRead w m buf buf_len =
      (some (Int32.ofNat (min seed.length buf_len.toNat)), w,
        m.blockMove buf (seed.take (min seed.length buf_len.toNat))) := by
  have hmin : (if seed.length > buf_len.toNat then buf_len.toNat else seed.length) =
      min seed.length buf_len.toNat := by
    split <;> omega
  unfold nvSeedRead
  rw [hcontext]
  dsimp only
  rw [hseed]
  dsimp only
  rw [hmin]

/-- The bytes from the beginning of a block. -/
theorem take_bytes (m : Memory) (p : ℕ) {k n : ℕ} (hk : k ≤ n) :
    (m.bytes p n).take k = m.bytes p k := by
  unfold Memory.bytes
  rw [← List.map_take, List.take_range, Nat.min_eq_left hk]

/-- **The seed that is read is the one that was written.**  When a task has written the seed, and
no other call writes one until `newt` serves a later reading in any task, then the bytes that are
read are those that the writing task had in its buffer at its call, as many as both buffers
hold. -/
theorem seed_read_back {s₂ s₃ s₄ s₅ s₆ s₇ : Tasks Task} {l₁ l₂ l₃ : Record Task} {t' : Task}
    {buf buf' : ℕ} {buf_len buf_len' : UInt32} (hquiet : start.Quiet)
    (hbefore : Path (TaskStep makeString) start l₀ s₀)
    (hwrite : TaskStep makeString s₀ (.call t (Platform.nvSeedWrite buf buf_len).event) s₁)
    (hwriting : Path (TaskStep makeString) s₁ l₁ s₂) (hblocked : Blocked t l₁)
    (hwritten : TaskStep makeString s₂ (.resume t) s₃)
    (hbetween : Path (TaskStep makeString) s₃ l₂ s₄)
    (hread : TaskStep makeString s₄ (.call t' (Platform.nvSeedRead buf' buf_len').event) s₅)
    (hreading : Path (TaskStep makeString) s₅ l₃ s₆) (hblocked' : Blocked t' l₃)
    (hreturned : TaskStep makeString s₆ (.resume t') s₇)
    (hothers : ∀ y ∈ l₁, WritesSeed y → Serves t y) (hnone : ∀ y ∈ l₂ ++ l₃, ¬ WritesSeed y) :
    (∃ result lent, s₆.status t' = .served (some result) lent ∧
      (Platform.nvSeedRead buf' buf_len').afterRPC (.ok result) =
        .result (Int32.ofNat (min buf_len.toNat buf_len'.toNat))) ∧
    Memory.bytes s₇.mem buf' (min buf_len.toNat buf_len'.toNat) =
      Memory.bytes s₀.mem buf (min buf_len.toNat buf_len'.toNat) := by
  have hproper₀ := PortCalls.Path.proper hbefore hquiet.proper
  have hproper₂ := PortCalls.Path.proper hwriting (hwrite.proper hproper₀)
  have hproper₄ := PortCalls.Path.proper hbetween (hwritten.proper hproper₂)
  have hnone₂ : ∀ y ∈ l₂, ¬ WritesSeed y := fun y hy => hnone y (List.mem_append_left _ hy)
  have hnone₃ : ∀ y ∈ l₃, ¬ WritesSeed y := fun y hy => hnone y (List.mem_append_right _ hy)
  -- the seed is written at one moment of the first call
  obtain ⟨at₁, -, -, hserved₁, -, -⟩ :=
    served_of_resume hproper₀ hwrite hwriting hblocked hwritten
  obtain ⟨pre₁, post₁, rfl, -, -, hpost₁⟩ := hserved₁.once
  obtain ⟨-, next₁, hserve₁, hrest₁⟩ := hwriting.split
  have hseed₁ := seedIs_of_nvSeedWrite hserved₁ hserve₁
  -- it stays until it is read
  have hseed₂ : SeedIs (Memory.bytes s₀.mem buf buf_len.toNat) s₂ := by
    apply SeedIs.path hrest₁ hseed₁
    intro y hy hwrites
    apply hpost₁ y hy
    exact hothers y (List.mem_append_right _ (List.mem_cons_of_mem _ hy)) hwrites
  have hseed₃ : SeedIs (Memory.bytes s₀.mem buf buf_len.toNat) s₃ :=
    SeedIs.step (y := (s₂, .resume t)) hseed₂ hwritten (by rintro ⟨_, _, h⟩; cases h)
  have hseed₄ := SeedIs.path hbetween hseed₃ hnone₂
  have hseed₅ : SeedIs (Memory.bytes s₀.mem buf buf_len.toNat) s₅ :=
    SeedIs.step (y := (s₄, .call t' _)) hseed₄ hread (by rintro ⟨_, _, h⟩; cases h)
  -- it is read at one moment of the second call
  obtain ⟨at₂, result₂, lent₂, hserved₂, hstatus₂, hsame⟩ :=
    served_of_resume hproper₄ hread hreading hblocked' hreturned
  obtain ⟨pre₂, post₂, hl₃, -, -, -⟩ := hserved₂.once
  rw [hl₃] at hreading hnone₃
  have hseed : SeedIs (Memory.bytes s₀.mem buf buf_len.toNat) at₂ :=
    SeedIs.path hreading.split.1 hseed₅ fun y hy => hnone₃ y (List.mem_append_left _ hy)
  obtain ⟨houtcome, -, hmem⟩ := takesEffect_of_served hserved₂ hstatus₂
  obtain ⟨context, hcontext⟩ : ∃ context, at₂.world.context = some context := by
    cases hcontext : at₂.world.context with
    | none => simp [Platform.inNewtTask, nvSeedRead, hcontext] at houtcome
    | some context => exact ⟨context, rfl⟩
  have hreads := nvSeedRead_eq s₄.mem buf' buf_len' hcontext (hseed context hcontext)
  rw [length_bytes] at hreads
  dsimp only [Platform.inNewtTask] at houtcome hmem
  rw [hreads] at houtcome hmem
  constructor
  · refine ⟨result₂, lent₂, hstatus₂, ?_⟩
    rw [← Option.some.inj houtcome]
    dsimp only
    rw [Int32.toInt32_toUInt32]
  · rw [hsame, ← take_bytes s₀.mem buf (Nat.min_le_left _ buf_len'.toNat)]
    have hleft : Memory.bytes s₆.mem buf' (min buf_len.toNat buf_len'.toNat) =
        (Memory.blockMove s₄.mem buf' ((Memory.bytes s₀.mem buf buf_len.toNat).take
          (min buf_len.toNat buf_len'.toNat))).bytes buf' (min buf_len.toNat buf_len'.toNat) := by
      apply bytes_congr
      intro x hx
      exact hmem x (mem_block_of_le hx (Nat.min_le_right _ _))
    have hlength : ((Memory.bytes s₀.mem buf buf_len.toNat).take
        (min buf_len.toNat buf_len'.toNat)).length = min buf_len.toNat buf_len'.toNat := by
      rw [List.length_take, length_bytes]
      omega
    have hmoved := bytes_blockMove s₄.mem buf' ((Memory.bytes s₀.mem buf buf_len.toNat).take
      (min buf_len.toNat buf_len'.toNat))
    rw [hlength] at hmoved
    rw [hleft, hmoved]

/-- One task writes 3 bytes, and another one, whose buffer has room for 4, reads them. -/
theorem seed_read_back_three :
    Memory.bytes (goneOn (goneOn installed true (.nvSeedWrite 16 3)) false
      (.nvSeedRead 32 4)).mem 32 3 = [16, 17, 18] := by
  obtain ⟨hcall, hserve⟩ := steps_alone quiet_installed true (.nvSeedWrite 16 3)
  have hquiet := quiet_goneOn quiet_installed true (.nvSeedWrite 16 3)
  obtain ⟨hcall', hserve'⟩ := steps_alone hquiet false (.nvSeedRead 32 4)
  refine (seed_read_back quiet_installed .start hcall (.step .start hserve) (by simp [Blocked])
    (resume_alone rfl) .start hcall' (.step .start hserve') (by simp [Blocked])
    (resume_alone rfl) ?_ ?_).2.trans (by decide)
  · intro y hy _
    rw [List.nil_append, List.mem_singleton] at hy
    rw [hy]
    exact ⟨rfl, rfl⟩
  · intro y hy
    rw [List.nil_append, List.nil_append, List.mem_singleton] at hy
    rw [hy]
    rintro ⟨buf, buf_len, hrequest⟩
    cases hrequest

/-! ## Entropy -/

/-- The bytes that a step hands out. -/
def handedOut (y : Tasks Task × TaskAction Task) : Option (List Byte) :=
  match request? y.1 y.2, y.1.world.context with
  | some (.hardwarePoll _ len), some c => (c.entropyCollector.hardwarePoll len.toNat).1
  | _, _ => none

/-- The nibbles that a step collects. -/
def collected (y : Tasks Task × TaskAction Task) : List ℕ :=
  match y.2, y.1.world.context with
  | .work k, some c => k.event?.elim [] fun e =>
      ((⟨c.entropyCollector, [], []⟩ : EntropyStream.Run).step e).collected
  | _, _ => []

/-- The step serves a poll whose length has lost bits, and which repeats what it gets. -/
def Repeats (y : Tasks Task × TaskAction Task) : Prop :=
  match request? y.1 y.2, y.1.world.context with
  | some (.hardwarePoll _ len), some c => c.entropyCollector.Repeats len.toNat
  | _, _ => False

/-- While the package is installed, what has been handed out, what is stored and what is pending
is what was found and what has been collected since, in order, exactly when no poll has
repeated. -/
def Accounted (found : List ℕ) (l : Record Task) (s : Tasks Task) : Prop :=
  ∀ context, s.world.context = some context →
    EntropyStream.Judged (∀ y ∈ l, ¬ Repeats y) found
      ⟨context.entropyCollector, l.flatMap collected, (l.filterMap handedOut).flatten⟩

omit [DecidableEq Task] in
/-- What a step hands out and collects is added at the end. -/
theorem record_concat (l : Record Task) (y : Tasks Task × TaskAction Task) :
    (l ++ [y]).flatMap collected = l.flatMap collected ++ collected y ∧
      ((l ++ [y]).filterMap handedOut).flatten =
        (l.filterMap handedOut).flatten ++ (handedOut y).getD [] := by
  constructor
  · rw [List.flatMap_append, List.flatMap_cons, List.flatMap_nil, List.append_nil]
  · rw [List.filterMap_append, List.flatten_append]
    congr 1
    cases hout : handedOut y with
    | none =>
      rw [List.filterMap_cons_none hout]
      rfl
    | some bytes =>
      rw [List.filterMap_cons_some hout]
      exact List.append_nil bytes

/-- A step of the collector does not depend on what has been collected and written before. -/
theorem run_step (c : EntropyStream.Collector) (nibbles : List ℕ) (written : List Byte)
    (e : EntropyStream.Event) :
    (⟨c, nibbles, written⟩ : EntropyStream.Run).step e =
      ⟨collectorAfter c e, nibbles ++ ((⟨c, [], []⟩ : EntropyStream.Run).step e).collected,
        written ++ ((⟨c, [], []⟩ : EntropyStream.Run).step e).written⟩ := by
  cases e <;> simp [EntropyStream.Run.step, collectorAfter]

/-- The events of the collector write nothing for mbedTLS. -/
theorem written_of_event? {k : Work} {e : EntropyStream.Event} (h : k.event? = some e)
    (c : EntropyStream.Collector) : ((⟨c, [], []⟩ : EntropyStream.Run).step e).written = [] := by
  cases k <;> cases h <;> rfl

/-- The events of the collector are no polls. -/
theorem not_repeats_of_event? {k : Work} {e : EntropyStream.Event} (h : k.event? = some e)
    (c : EntropyStream.Collector) : ¬ e.Repeats c := by
  cases k <;> cases h <;> exact id

omit [DecidableEq Task] in
/-- What is accounted for stays so when the collector makes the step of an event. -/
theorem Accounted.event {found : List ℕ} {y : Tasks Task × TaskAction Task} {c : Context}
    (h : Accounted found l y.1) (hc : y.1.world.context = some c) (e : EntropyStream.Event)
    (hcollected :
      collected y = ((⟨c.entropyCollector, [], []⟩ : EntropyStream.Run).step e).collected)
    (hwritten : (handedOut y).getD [] =
      ((⟨c.entropyCollector, [], []⟩ : EntropyStream.Run).step e).written)
    (hrepeats : Repeats y ↔ e.Repeats c.entropyCollector) :
    EntropyStream.Judged (∀ x ∈ l ++ [y], ¬ Repeats x) found
      ⟨collectorAfter c.entropyCollector e, (l ++ [y]).flatMap collected,
        ((l ++ [y]).filterMap handedOut).flatten⟩ := by
  obtain ⟨hnibbles, hbytes⟩ := record_concat l y
  have hnext := (h c hc).step e (forall_mem_concat.trans (and_congr_right fun _ =>
    not_congr hrepeats))
  rw [run_step] at hnext
  rw [hnibbles, hbytes, hcollected, hwritten]
  exact hnext

omit [DecidableEq Task] in
/-- What is accounted for stays so when the collector does nothing. -/
theorem Accounted.same {found : List ℕ} {y : Tasks Task × TaskAction Task} {c : Context}
    (h : Accounted found l y.1) (hc : y.1.world.context = some c) (hcollected : collected y = [])
    (hwritten : handedOut y = none) (hsound : ¬ Repeats y) :
    EntropyStream.Judged (∀ x ∈ l ++ [y], ¬ Repeats x) found
      ⟨c.entropyCollector, (l ++ [y]).flatMap collected,
        ((l ++ [y]).filterMap handedOut).flatten⟩ := by
  obtain ⟨hnibbles, hbytes⟩ := record_concat l y
  rw [hnibbles, hbytes, hcollected, hwritten, List.append_nil, Option.getD_none, List.append_nil,
    forall_mem_concat, and_iff_left hsound]
  exact h c hc

omit [DecidableEq Task] in
/-- A step that serves a request collects nothing. -/
theorem collected_of_request {y : Tasks Task × TaskAction Task} {event : TMbedTLSEvent}
    (h : request? y.1 y.2 = some event) : collected y = [] := by
  unfold collected
  split
  · next k _ hk _ =>
    rw [hk] at h
    cases h
  · rfl

/-- Every step keeps the account. -/
theorem Accounted.step {found : List ℕ} {y : Tasks Task × TaskAction Task}
    (h : Accounted found l y.1) (hstep : TaskStep makeString y.1 y.2 s') :
    Accounted found (l ++ [y]) s' := by
  intro context hcontext
  rcases hstep.world_cases with
    ⟨event, hrequest, hworld⟩ | ⟨hrequest, k, hk, hworld⟩ | ⟨hrequest, hwork, hworld⟩
  · rw [hworld, show (newtService makeString).serve = aeHandlerProc makeString from rfl,
      aeHandlerProc_context, Option.map_eq_some_iff] at hcontext
    obtain ⟨c, hc, rfl⟩ := hcontext
    have hcollected := collected_of_request hrequest
    cases event with
    | hardwarePoll output len =>
      apply h.event hc (.hardwarePoll len.toNat)
      · rw [hcollected]
        rfl
      · unfold handedOut
        rw [hrequest, hc]
        rfl
      · unfold Repeats
        rw [hrequest, hc]
        rfl
    | _ =>
      apply h.same hc hcollected
      · unfold handedOut
        rw [hrequest, hc]
      · unfold Repeats
        rw [hrequest, hc]
        exact id
  · rw [hworld, show (newtService makeString).work k y.1.world = k.run y.1.world from rfl,
      Work.run_context, Option.bind_eq_some_iff] at hcontext
    obtain ⟨c, hc, hafter⟩ := hcontext
    have hout : handedOut y = none := by
      unfold handedOut
      rw [hrequest]
    have hsound : ¬ Repeats y := by
      unfold Repeats
      rw [hrequest]
      exact id
    have hcollected : collected y = k.event?.elim [] fun e =>
        ((⟨c.entropyCollector, [], []⟩ : EntropyStream.Run).step e).collected := by
      unfold collected
      rw [hk, hc]
    cases hevent : k.event? with
    | none =>
      rw [hevent] at hcollected
      have hsame : context = c := by
        cases k <;> cases hevent <;> cases hafter <;> rfl
      rw [hsame]
      exact h.same hc hcollected hout hsound
    | some e =>
      rw [hevent] at hcollected
      have hnext : context.entropyCollector = collectorAfter c.entropyCollector e := by
        cases k <;> cases hevent <;> cases hafter <;> rfl
      rw [hnext]
      apply h.event hc e hcollected
      · rw [hout, written_of_event? hevent]
        rfl
      · exact iff_of_false hsound (not_repeats_of_event? hevent c.entropyCollector)
  · rw [hworld] at hcontext
    apply h.same hcontext
    · unfold collected
      split
      · next k _ hk _ => exact absurd hk (hwork k)
      · rfl
    · unfold handedOut
      rw [hrequest]
    · unfold Repeats
      rw [hrequest]
      exact id

/-- Every run keeps the account. -/
theorem Accounted.path {found : List ℕ} (hpath : Path (TaskStep makeString) start l s)
    (hstart : Accounted found [] start) : Accounted found l s := by
  induction hpath with
  | start => exact hstart
  | step _ hstep ih => exact Accounted.step (y := (_, _)) ih hstep

omit [DecidableEq Task] in
/-- Nothing has been handed out or collected when the package is installed. -/
theorem accounted_install {found : Option (List Byte)} {nvSeed : Option (List Byte)}
    (hinstalled : start.world.context = some ⟨.install found, nvSeed⟩) :
    Accounted (EntropyStream.nibbles (found.getD [])) [] start := by
  intro context hcontext
  rw [hinstalled] at hcontext
  cases hcontext
  refine .inl ⟨List.forall_mem_nil _, ?_, ?_⟩
  · intro n hn
    cases hn
  · simp [EntropyStream.Collector.contents, EntropyStream.Collector.install, EntropyStream.nibbles]

/-- The buffer of a call that has been answered holds what one step has handed out. -/
theorem handedOut_of_served {m : Memory} {at' : Tasks Task} {output : ℕ} {len result : UInt32}
    {lent : Set ℕ}
    (hserved : ServedAt (newtService makeString) t (.hardwarePoll output len) m l s at')
    (hstatus : s.status t = .served (some result) lent) (hport : at'.port.head? = some t) :
    handedOut (at', (.serve : TaskAction Task)) =
      some (Memory.bytes s.mem output result.toNat) := by
  obtain ⟨houtcome, -, hmem⟩ :=
    takesEffect_of_served (f := .hardwarePoll output len) hserved hstatus
  dsimp only [Platform.inNewtTask, hardwarePoll] at houtcome hmem
  cases hcontext : at'.world.context with
  | none =>
    rw [hcontext] at houtcome
    cases houtcome
  | some c =>
    rw [hcontext] at houtcome hmem
    have hlength := length_hardwarePoll c.entropyCollector len.toNat
    dsimp only at houtcome hmem
    cases hwritten : (c.entropyCollector.hardwarePoll len.toNat).1 with
    | none =>
      rw [hwritten] at houtcome
      cases houtcome
    | some bytes =>
      rw [hwritten] at houtcome hmem hlength
      have hresult : UInt32.ofNat bytes.length = result := by
        have hsame := Option.some.inj houtcome
        dsimp only [Platform.afterRPC] at hsame
        rw [Outcome.polled.injEq] at hsame
        exact hsame.2
      have htoNat : result.toNat = bytes.length := by
        rw [← hresult, UInt32.toNat_ofNat_of_lt']
        exact lt_of_le_of_lt hlength len.toNat_lt
      have hleft : Memory.bytes s.mem output result.toNat =
          Memory.bytes (Memory.blockMove m output bytes) output result.toNat := by
        apply bytes_congr
        intro x hx
        rw [htoNat] at hx
        exact hmem x (mem_block_of_le hx hlength)
      have hrequest : request? at' (.serve : TaskAction Task) =
          some (.hardwarePoll output len) := by
        unfold request?
        cases hqueue : at'.port with
        | nil =>
          rw [hqueue] at hport
          cases hport
        | cons t' port =>
          rw [hqueue, List.head?_cons] at hport
          cases hport
          dsimp only
          rw [hserved.waiting]
      unfold handedOut
      dsimp only
      rw [hrequest, hcontext]
      dsimp only
      rw [hwritten, hleft, htoNat, bytes_blockMove]

/-- **Entropy is shared and used once.**  In every run of any number of tasks, the nibbles of the
bytes that have been handed out to them, in the order of the events that `newt` serves, those that
are stored and those that are pending are, in this order, the ones found at the installation and
the ones collected since, exactly when no poll has repeated; and a task that has been answered has
in its buffer what one step of the run, during its call, has handed out. -/
theorem entropy_shared_once {found nvSeed : Option (List Byte)} (hquiet : start.Quiet)
    (hinstalled : start.world.context = some ⟨.install found, nvSeed⟩)
    (hrun : Path (TaskStep makeString) start l s) :
    (∀ context, s.world.context = some context →
      (EntropyStream.nibbles (l.filterMap handedOut).flatten ++
          EntropyStream.nibbles (context.entropyCollector.entropy.getD []) ++
          context.entropyCollector.penEntropy =
        EntropyStream.nibbles (found.getD []) ++ l.flatMap collected ↔ ∀ y ∈ l, ¬ Repeats y)) ∧
    ∀ s₀ s₂ t output len result lent l₀ l₁ l₂,
      l = l₀ ++ (s₀, .call t (Platform.hardwarePoll output len).event) ::
        (l₁ ++ (s₂, .resume t) :: l₂) →
      Blocked t l₁ → s₂.status t = .served (some result) lent →
      ∃ pre at' post, l₁ = pre ++ (at', .serve) :: post ∧ at'.port.head? = some t ∧
        handedOut (at', (.serve : TaskAction Task)) =
          some (Memory.bytes s₂.mem output result.toNat) := by
  constructor
  · intro context hcontext
    rw [List.append_assoc]
    exact (Accounted.path hrun (accounted_install hinstalled) context hcontext).account_eq_iff
  · rintro s₀ s₂ t output len result lent l₀ l₁ l₂ rfl hblocked hstatus
    obtain ⟨hbefore, s₁, hcall, hrest⟩ := hrun.split
    obtain ⟨hduring, s₃, hresume, -⟩ := hrest.split
    obtain ⟨at', -, -, hserved, -, -⟩ := served_of_resume (f := .hardwarePoll output len)
      (PortCalls.Path.proper hbefore hquiet.proper) hcall hduring hblocked hresume
    obtain ⟨pre, post, hl₁, hserves, -, -⟩ := hserved.once
    exact ⟨pre, at', post, hl₁, hserves.2, handedOut_of_served hserved hstatus hserves.2⟩

omit [DecidableEq Task] in
/-- A poll whose length has at most 29 bits does not repeat. -/
theorem not_repeats_of_lt {y : Tasks Task × TaskAction Task}
    (h : ∀ output len, request? y.1 y.2 = some (.hardwarePoll output len) →
      len.toNat < 536870912) : ¬ Repeats y := by
  unfold Repeats
  split
  · next output len c hrequest _ =>
    exact EntropyStream.Collector.not_repeats_of_lt (h output len hrequest)
  · exact id

/-- One task polls for two bytes. -/
def polling : Record Bool :=
  [(installed, .call true (Platform.hardwarePoll 16 2).event),
    (called installed true (.hardwarePoll 16 2), .serve),
    (answered installed true (.hardwarePoll 16 2), .resume true)]

/-- Two of three bytes are handed out, and the account is in order. -/
theorem entropy_shared_once_two :
    handedOut (called installed true (.hardwarePoll 16 2), (.serve : TaskAction Bool)) =
      some (Memory.bytes (answered installed true (.hardwarePoll 16 2)).mem 16 2) ∧
    ∀ context, (goneOn installed true (.hardwarePoll 16 2)).world.context = some context →
      EntropyStream.nibbles (polling.filterMap handedOut).flatten ++
          EntropyStream.nibbles (context.entropyCollector.entropy.getD []) ++
          context.entropyCollector.penEntropy =
        EntropyStream.nibbles [0x12, 0x34, 0x56] ++ polling.flatMap collected := by
  obtain ⟨hcall, hserve⟩ := steps_alone quiet_installed true (.hardwarePoll 16 2)
  have hresume : TaskStep latin (answered installed true (.hardwarePoll 16 2)) (.resume true)
      (goneOn installed true (.hardwarePoll 16 2)) := by
    have hresult : (aeHandlerProc latin (Platform.hardwarePoll 16 2).event installed.world
        installed.mem).1 = some 2 := by decide
    exact resume_alone hresult
  obtain ⟨haccount, hanswer⟩ := entropy_shared_once quiet_installed rfl
    (.step (.step (.step .start hcall) hserve) hresume)
  constructor
  · obtain ⟨pre, at', post, hl, -, hout⟩ := hanswer installed
      (answered installed true (.hardwarePoll 16 2)) true 16 2 2 _ []
      [(called installed true (.hardwarePoll 16 2), .serve)] [] rfl (by simp [Blocked])
      (status_answered (by decide))
    rcases pre with _ | ⟨y, pre⟩
    · rw [List.nil_append, List.cons.injEq, Prod.mk.injEq] at hl
      rw [hl.1.1]
      exact hout
    · rw [List.cons_append, List.cons.injEq] at hl
      exact absurd hl.2.symm (List.append_ne_nil_of_right_ne_nil _ (List.cons_ne_nil _ _))
  · intro context hcontext
    refine (haccount context hcontext).mpr fun y hy => not_repeats_of_lt fun output len hlen => ?_
    have hserved : request? (called installed true (.hardwarePoll 16 2))
        (.serve : TaskAction Bool) = some (.hardwarePoll 16 2) := rfl
    simp only [List.nil_append, List.cons_append, List.mem_cons, List.not_mem_nil,
      or_false] at hy
    rcases hy with rfl | rfl | rfl
    · cases hlen
    · cases hserved.symm.trans hlen
      decide
    · cases hlen

end calls

end TaskCalls

end NewtonTLS
