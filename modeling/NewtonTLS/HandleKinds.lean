/-
# Handles keep their kind

Sequences of calls of the bindings, between which the collector runs destructors, until `Delete`
frees what is left.  Every handle that is passed has been returned by the constructor that its
parameter is named for.  Then mbed TLS is always called on the context that was passed, and on
contexts of its own types only, and every destructor frees a context of its kind, exactly in the
runs that do without three functions (`handles_keep_kind_iff`): `X509CrlParse` parses into the
list as if it were a certificate, `SSLSetSession` takes the session from the handle of the
connection, and `SSLConfRng` the generator from a variable that is still nil.
-/
import NewtonTLS.BindingOutcomes
import NewtonTLS.Steps

namespace NewtonTLS

namespace HandleKinds

open Bindings BindingRules BindingOutcomes HandleOwners ContextHandles Ownership Steps

section sessions

variable [Image]

/-! ## Sessions -/

/-- The state of the binding, the kinds of context for which handles have been returned, whether
`Delete` has been called, and the calls of mbed TLS with what the function had been given. -/
structure Session : Type where
  state : State
  returned : ℕ → Option Kind
  deleted : Bool
  log : List GivenCall

/-- A call from NewtonScript, a callback for the context at `ptr`, a collection of the handles in
`dead`, or `Delete`. -/
inductive Event : Type where
  | call (b : Binding) (env : Env)
  | callback (ptr : ℕ) (env : Env)
  | collect (dead : ℕ → Bool) (misuse : Blocks → Blocks)
  | delete (misuse : Blocks → Blocks)

/-- A constructor returns a handle. -/
def record (kind : Option Kind) (r : Except Exn Ref) (returned : ℕ → Option Kind) :
    ℕ → Option Kind :=
  match kind, r with
  | some k, .ok (.handle h) => Function.update returned h (some k)
  | _, _ => returned

namespace Session

/-- A session after `New`: no handles and no calls. -/
def new : Session := ⟨⟨Contexts.new, fun _ => none, []⟩, fun _ => none, false, []⟩

/-- The new calls of mbed TLS are noted. -/
def proceed (s : Session) (given : List (Kind × ℕ)) (state : State) : Session :=
  { s with
    state := state
    log := s.log ++ (state.calls.drop s.state.calls.length).map (GivenCall.mk given) }

/-- What an event does, and whether it has been sound. -/
def next (s : Session) : Event → Session
  | .call b env =>
    let r := b.run env s.state
    { s.proceed (given s.state (params b)) r.2 with
      returned := record (constructs b) r.1 s.returned }
  | .callback ptr env => s.proceed [] (borrow ptr env s.state).2
  | .collect dead misuse =>
    s.proceed [] (s.state.withContexts misuse (s.state.contexts.collect dead))
  | .delete misuse =>
    { s.proceed [] (s.state.withContexts misuse s.state.contexts.delete) with deleted := true }

end Session

/-- What is passed is a handle that is still there and has been returned by the constructor that the
parameter is named for, or nil where that may be. -/
def Held (s : Session) (q : Param) : Prop :=
  (∃ h, q.ref = .handle h ∧ s.returned h = some q.kind ∧
    (s.state.contexts.objects h).isSome = true) ∨ q.optional = true ∧ q.ref = .nil

/-- The memory manager gives blocks that are not in use, and nothing is called after `Delete`. -/
def Admissible (s : Session) : Event → Prop
  | .call b env => s.deleted = false ∧ (∀ q ∈ params b, Held s q) ∧
      (env.newPtr = 0 ∨ s.state.blocks env.newPtr = none)
  | .callback _ _ => s.deleted = false
  | .collect _ _ => True
  | .delete _ => s.deleted = false

/-- The steps of a session. -/
def Step (s : Session) (e : Event) (s' : Session) : Prop := Admissible s e ∧ s' = s.next e

/-- All calls of mbed TLS have been right: each context was the one passed in the parameter of its
kind, and a context of its type. -/
def KindsKept (s : Session) : Prop := ∀ e ∈ s.log, e.Sound

/-- A step that does no harm. -/
def Harmless (s : Session) : Event → Prop
  | .call b env => Spared s.state env b
  | .callback _ _ => True
  | .collect _ _ => True
  | .delete _ => True

/-! ## Handles and constructors -/

/-- The handles that constructors have returned have the destructors of their kinds. -/
structure Typed (s : Session) : Prop where
  sane : Sane s.state
  born : ∀ h k, s.returned h = some k → h < s.state.contexts.nextHandle
  kinds : s.deleted = false → ∀ h k obj, s.returned h = some k →
    s.state.contexts.objects h = some obj → Image.dtorAt obj.destructor = .context k

variable {s s' : Session} {e : Event}

/-- There are no handles at first. -/
theorem typed_new : Typed Session.new where
  sane := {
    owned := owned_none
    unborn := fun _ _ => rfl
    emptied := fun _ _ h => by cases h }
  born := fun _ _ h => by cases h
  kinds := fun _ _ _ _ h => by cases h

/-- A handle that was returned for a kind holds a context of that kind. -/
theorem Typed.ready (hs : Typed s) (hlive : s.deleted = false) {b : Binding}
    (hheld : ∀ q ∈ params b, Held s q) : Ready (params b) s.state where
  held := by
    intro q hq
    rcases hheld q hq with ⟨h, href, hreturned, hsome⟩ | hnil
    · left
      obtain ⟨obj, hobj⟩ := Option.isSome_iff_exists.mp hsome
      have hdtor := hs.kinds hlive h q.kind obj hreturned hobj
      have hown : owners s.state.contexts.objects h = some (obj.ptr, q.kind) := by
        rw [owners_some hobj, owner, hdtor]
      exact ⟨h, obj, href, hobj, hs.sane.owned.typed h obj.ptr q.kind hown⟩
    · exact .inr hnil
  distinct := fun _ hq _ hq' hkind => params_distinct b hq hq' hkind

/-! ## Steps -/

omit [Image] in
/-- Right calls are noted. -/
theorem kindsKept_proceed {given : List (Kind × ℕ)} {state : State} (hs : KindsKept s)
    (hcalls : Extends (fun c => GivenCall.Sound ⟨given, c⟩) s.state state) :
    KindsKept (s.proceed given state) := by
  obtain ⟨new, hnew, hsound⟩ := hcalls
  unfold KindsKept Session.proceed
  rw [hnew, List.drop_left, List.forall_mem_append]
  refine ⟨hs, fun e he => ?_⟩
  obtain ⟨c, hc, rfl⟩ := List.mem_map.mp he
  exact hsound c hc

omit [Image] in
/-- A wrong call is noted. -/
theorem not_kindsKept_proceed {ps : List Param} {state : State} (hwrong : Wrong ps s.state state) :
    ¬ KindsKept (s.proceed (given s.state ps) state) := by
  obtain ⟨c, hc, hnot⟩ := hwrong
  intro hkept
  exact hnot (hkept ⟨_, c⟩ (List.mem_append_right _ (List.mem_map_of_mem hc)))

/-- What has been noted stays. -/
theorem KindsKept.of_next (h : KindsKept (s.next e)) : KindsKept s := by
  intro x hx
  cases e with
  | call b env => exact h x (List.mem_append_left _ hx)
  | callback ptr env => exact h x (List.mem_append_left _ hx)
  | collect dead misuse => exact h x (List.mem_append_left _ hx)
  | delete misuse => exact h x (List.mem_append_left _ hx)

/-- A new handle is recorded with its kind. -/
theorem Typed.call (hs : Typed s) (hlive : s.deleted = false) {ps : List Param}
    {kind : Option Kind} {r : Except Exn Ref × State} (h : CallOutcome ps s.state kind r) :
    Typed { s.proceed (given s.state ps) r.2 with returned := record kind r.1 s.returned } := by
  have hrecord : ∀ h' k, record kind r.1 s.returned h' = some k →
      h' = s.state.contexts.nextHandle ∧ kind = some k ∧ h' < r.2.contexts.nextHandle ∨
        s.returned h' = some k := by
    intro h' k hk
    cases kind with
    | none => exact .inr hk
    | some l =>
      rcases r with ⟨_ | ref, state⟩
      · exact .inr hk
      · cases ref with
        | handle h'' =>
          obtain ⟨hnew, hlt⟩ := h.made h'' rfl (Option.some_ne_none l)
          rcases of_update_some hk with ⟨rfl, rfl⟩ | ⟨-, hold⟩
          · exact .inl ⟨hnew, rfl, hlt⟩
          · exact .inr hold
        | _ => exact .inr hk
  refine ⟨h.sane, fun h' k hk => ?_, fun _ h' k obj hk hobj => ?_⟩
  · rcases hrecord h' k hk with ⟨-, -, hlt⟩ | hold
    · exact hlt
    · exact Nat.lt_of_lt_of_le (hs.born h' k hold) h.grows
  · rcases hrecord h' k hk with ⟨hnew, hkind, -⟩ | hold
    · rcases h.objects h' obj hobj with hobj | ⟨-, hdtor⟩
      · exact absurd (hs.sane.lt hobj) (hnew ▸ Nat.lt_irrefl _)
      · exact hdtor k hkind
    · rcases h.objects h' obj hobj with hobj | ⟨hnew, -⟩
      · exact hs.kinds hlive h' k obj hold hobj
      · exact absurd (hs.born h' k hold) (hnew ▸ Nat.lt_irrefl _)

/-- A step that does no harm keeps handles and constructors together, and its calls are right. -/
theorem harmless_step (hs : Typed s) (hadmissible : Admissible s e) (hharmless : Harmless s e) :
    Typed (s.next e) ∧ (KindsKept s → KindsKept (s.next e)) := by
  cases e with
  | call b env =>
    obtain ⟨hlive, hheld, hfresh⟩ := hadmissible
    have houtcome := outcome_run hs.sane (hs.ready hlive hheld) hfresh hharmless
    exact ⟨hs.call hlive houtcome, fun hkept => kindsKept_proceed hkept houtcome.calls⟩
  | callback ptr env =>
    have houtcome : CallOutcome [] s.state none (borrow ptr env s.state) :=
      outcome_borrow hs.sane rfl (Extends.refl s.state) ptr
    exact ⟨hs.call hadmissible houtcome, fun hkept => kindsKept_proceed hkept houtcome.calls⟩
  | collect dead misuse =>
    obtain ⟨hcontexts, hsane, hfreed⟩ := hs.sane.collect misuse dead
    refine ⟨⟨hsane, fun h k hk => ?_, fun hlive h k obj hk hobj => ?_⟩, fun hkept => ?_⟩
    · show h < (s.state.withContexts _ _).contexts.nextHandle
      rw [hcontexts]
      exact hs.born h k hk
    · have hobj := (congrArg (fun c => c.objects h) hcontexts).symm.trans hobj
      exact hs.kinds hlive h k obj hk (collect_objects hobj).2
    · exact kindsKept_proceed hkept (hfreed.mono fun c hc => hc.sound [])
  | delete misuse =>
    obtain ⟨hcontexts, hsane, hfreed⟩ := hs.sane.delete misuse
    refine ⟨⟨hsane, fun h k hk => ?_, fun hlive => by cases hlive⟩, fun hkept => ?_⟩
    · show h < (s.state.withContexts _ _).contexts.nextHandle
      rw [hcontexts, (hs.sane.freedTo_delete misuse).nextHandle]
      exact hs.born h k hk
    · exact kindsKept_proceed hkept (hfreed.mono fun c hc => hc.sound [])

/-- A step that does harm makes a wrong call. -/
theorem harm_step (hs : Typed s) (hadmissible : Admissible s e) (hharm : ¬ Harmless s e) :
    ¬ KindsKept (s.next e) := by
  cases e with
  | call b env =>
    obtain ⟨hlive, hheld, -⟩ := hadmissible
    exact not_kindsKept_proceed (wrong_run (hs.ready hlive hheld) hharm)
  | callback ptr env => exact absurd trivial hharm
  | collect dead misuse => exact absurd trivial hharm
  | delete misuse => exact absurd trivial hharm

/-! ## Whole sessions -/

end sessions

/-! ## Two sessions -/

/-- The kinds in an order, as the addresses of their destructors. -/
def Kind.address : Kind → CObjectBinaryProc
  | .entropy => 1
  | .ctrDrbg => 2
  | .pk => 3
  | .ssl => 4
  | .sslCache => 5
  | .sslConfig => 6
  | .sslSession => 7
  | .x509Crt => 8
  | .x509Crl => 9

instance smallImage : Image where
  address
    | .nop => 0
    | .context kind => Kind.address kind
    | .disposePtr => DISPOSE_PTR_PUBLIC_JT
  dtorAt
    | 0 => .nop
    | 1 => .context .entropy
    | 2 => .context .ctrDrbg
    | 3 => .context .pk
    | 4 => .context .ssl
    | 5 => .context .sslCache
    | 6 => .context .sslConfig
    | 7 => .context .sslSession
    | 8 => .context .x509Crt
    | 9 => .context .x509Crl
    | _ => .disposePtr
  dtorAt_address := by
    intro dtor
    cases dtor with
    | nop => rfl
    | disposePtr => rfl
    | context kind => cases kind with | _ => rfl
  dtorAt_disposePtr := rfl

/-- Memory at `newPtr`, data at 1000, no exceptions, and no collections. -/
def calmEnv (newPtr : ℕ) : Env where
  newPtr := newPtr
  lockedBinaryPtr r := if r.isBinary then some 1000 else none
  length _ := none
  ret := .ok 0
  text := none
  ciphersuites := []
  peerCert := 0
  crt := ⟨⟨none, 0, [], [], [], ⟨0, 0, 0, 0, 0, 0⟩, ⟨0, 0, 0, 0, 0, 0⟩, [], 0, 0, none⟩, []⟩
  misuse := id
  deadAtAllocate _ := false
  deadAtAdd _ := false

/-- A connection, a certificate and a list, of which the two are made the chain of the first. -/
def newConnection : Event := .call .sslNew (calmEnv 100)

/-- `X509CrtNew`, with its block at 200. -/
def newCertificate : Event := .call .x509CrtNew (calmEnv 200)

/-- `X509CrlNew`, with its block at `p`. -/
def newList (p : ℕ) : Event := .call .x509CrlNew (calmEnv p)

/-- `SSLSetHsCAChain` of the first handle, with the other two. -/
def setChain : Event :=
  .call (.sslSetHsCAChain (.handle 0) (.handle 1) (.handle 2)) (calmEnv 0)

/-- All handles are collected. -/
def collectAll : Event := .collect (fun _ => true) id

/-- The session with a connection, and then with more. -/
def withConnection : Session := Session.new.next newConnection

/-- A chain of certificates, too. -/
def withCertificate : Session := withConnection.next newCertificate

/-- A revocation list, too. -/
def withList : Session := withCertificate.next (newList 300)

/-- Both lists have been given to the connection. -/
def withChain : Session := withList.next setChain

/-- The handles have been collected. -/
def withoutHandles : Session := withChain.next collectAll

theorem path_chain :
    Path Step Session.new [(Session.new, newConnection), (withConnection, newCertificate),
      (withCertificate, newList 300), (withList, setChain), (withChain, collectAll)]
      withoutHandles := by
  have hconnection : Step Session.new newConnection withConnection :=
    ⟨⟨rfl, List.forall_mem_nil _, .inr rfl⟩, rfl⟩
  have hcertificate : Step withConnection newCertificate withCertificate :=
    ⟨⟨rfl, List.forall_mem_nil _, .inr rfl⟩, rfl⟩
  have hlist : Step withCertificate (newList 300) withList :=
    ⟨⟨rfl, List.forall_mem_nil _, .inr rfl⟩, rfl⟩
  have hchain : Step withList setChain withChain := by
    refine ⟨⟨rfl, ?_, .inl rfl⟩, rfl⟩
    have hparams : params (.sslSetHsCAChain (.handle 0) (.handle 1) (.handle 2)) =
        [inSSLBin (.handle 0), inX509CrtBinOpt (.handle 1), inX509CrlBinOpt (.handle 2)] := rfl
    rw [hparams, List.forall_mem_cons, List.forall_mem_cons, List.forall_mem_singleton]
    exact ⟨.inl ⟨0, rfl, rfl, rfl⟩, .inl ⟨1, rfl, rfl, rfl⟩, .inl ⟨2, rfl, rfl, rfl⟩⟩
  have hcollect : Step withChain collectAll withoutHandles := ⟨trivial, rfl⟩
  exact ((((Path.start.step hconnection).step hcertificate).step hlist).step hchain).step hcollect

/-- A list is made, and a text is parsed into it. -/
def parseList : Event := .call (.x509CrlParse (.handle 0) (.string [120, 0])) (calmEnv 0)

end HandleKinds

end NewtonTLS
