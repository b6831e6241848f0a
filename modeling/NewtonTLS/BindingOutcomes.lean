/-
# What a call of a binding leaves

A call whose handle parameters are as they should be leaves handles and native blocks that fit
together, makes calls of mbed TLS that are right, and has no new handle but that of the context
that it makes or borrows (`outcome_run`).  Three functions are different: `X509CrlParse` gives a
list as a certificate, `SSLSetSession` the context of the connection as a session, and `SSLConfRng`
what the ROM makes of nil as a generator.  A call of one of them that comes so far is wrong.
-/
import NewtonTLS.HandleOwners

namespace NewtonTLS

namespace BindingOutcomes

open Bindings BindingRules HandleOwners ContextHandles Ownership

/-! ## The functions that make a context, and those that are wrong -/

/-- The kind of context that a function makes. -/
def constructs : Binding → Option Kind
  | .entropyNew => some .entropy
  | .ctrDrbgNew => some .ctrDrbg
  | .pkNew => some .pk
  | .sslNew => some .ssl
  | .sslCacheNew => some .sslCache
  | .sslConfigNew => some .sslConfig
  | .sslSessionNew => some .sslSession
  | .sslGetSession _ => some .sslSession
  | .x509CrtNew => some .x509Crt
  | .x509CrlNew => some .x509Crl
  | _ => none

/-- The calls of the three functions that do no harm: they do not get as far as mbed TLS, or what
the ROM makes of nil happens to be the generator. -/
def Spared (s : State) (env : Env) : Binding → Prop
  | .sslSetSession _ _ => False
  | .sslConfRng _ inCtrDrbgContextBin =>
    ∀ q, env.lockedBinaryPtr .nil = some q → q = pointer s inCtrDrbgContextBin
  | .x509CrlParse _ inCRLBin => ∃ e, (lockedBinaryMaybeString inCRLBin env s).1 = .error e
  | _ => True

/-! ## New contexts -/

section native_

variable {ps : List Param} {s₀ s : State} {k : Kind} {p : ℕ} {env : Env}

/-- In `s`, a new context of kind `k`, which no handle owns, is at `p`; all else is as in `s₀`. -/
structure Holding (ps : List Param) (s₀ s : State) (p : ℕ) (k : Kind) : Prop where
  contexts : s.contexts = s₀.contexts
  others : ∀ q, q ≠ p → s.blocks q = s₀.blocks q
  found : s.blocks p = some (.context k)
  fresh : s₀.blocks p = none
  calls : RightCalls ps s₀ s₀ s

/-- Contexts of the right types are given to mbed TLS. -/
theorem Holding.call (h : Holding ps s₀ s p k) {objects : List (Kind × ℕ)}
    (hfound : ∀ o ∈ objects, s.blocks o.2 = some (.context o.1))
    (hpassed : ∀ o ∈ objects, ∀ g ∈ given s₀ ps, g.1 = o.1 → o.2 = g.2)
    (misuse : Blocks → Blocks) (f : NativeFunction) (values : List Bindings.Value) :
    Holding ps s₀ (s.call misuse .binding f objects values) p k := by
  have hblocks : (s.call misuse .binding f objects values).blocks = s.blocks :=
    if_pos fun o ho => .inr (hfound o ho)
  refine ⟨h.contexts, ?_, ?_, h.fresh, h.calls.trans ⟨_, rfl, ?_⟩⟩
  · rw [hblocks]
    exact h.others
  · rw [hblocks]
    exact h.found
  · rw [List.forall_mem_singleton]
    intro o ho
    obtain ⟨o', ho', rfl⟩ := List.mem_map.mp ho
    exact ⟨fun _ => hpassed o' ho', .inl (hfound o' ho')⟩

/-- What `NewPtr` and `mbedtls_…_init` leave. -/
def created (s : State) (p : ℕ) (k : Kind) : State :=
  { s with blocks := Function.update s.blocks p (some (.context k)) }

/-- A new context is held as soon as its block has been initialised. -/
theorem holding_created (ps : List Param) (k : Kind) (hfresh : s.blocks p = none) :
    Holding ps s (created s p k) p k where
  contexts := rfl
  others := fun _ hne => Function.update_of_ne hne _ _
  found := Function.update_self _ _ _
  fresh := hfresh
  calls := extends_of_eq rfl

/-- `NewPtr` and `mbedtls_…_init`, and what follows: the task is aborted without memory. -/
theorem create_run {f : ℕ → Native Ref} :
    (Bindings.newPtr >>= fun p => initialise k p >>= fun _ => f p) env s =
      if env.newPtr = 0 then (.error .abort, s)
      else f env.newPtr env (created s env.newPtr k) := by
  have hnew : Bindings.newPtr env s = (.ok env.newPtr, { s with
      blocks := if env.newPtr = 0 then s.blocks
        else Function.update s.blocks env.newPtr (some .raw) }) := rfl
  rw [bind_of_ok hnew]
  by_cases hp : env.newPtr = 0
  · rw [if_pos hp, if_pos hp, initialise, if_pos hp]
    rfl
  · rw [if_neg hp, if_neg hp, initialise, if_neg hp]
    show f env.newPtr env { s with
      blocks := Function.update (Function.update s.blocks env.newPtr (some .raw)) env.newPtr
        (some (.context k)) } = _
    rw [Function.update_idem, created]

/-! ## The functions that use a handle as something else -/

/-- One of the new calls of mbed TLS is wrong. -/
def Wrong (ps : List Param) (s s' : State) : Prop :=
  ∃ c ∈ s'.calls.drop s.calls.length, ¬ GivenCall.Sound ⟨given s ps, c⟩

/-- A wrong call between others. -/
theorem wrong_call {P Q : NativeCall → Prop} {s₁ s₂ : State} (hbefore : Extends P s s₁)
    {objects : List (Kind × ℕ)} {misuse : Blocks → Blocks} {f : NativeFunction}
    {values : List Bindings.Value}
    (hafter : Extends Q (s₁.call misuse .binding f objects values) s₂)
    {o : Kind × ℕ} (ho : o ∈ objects)
    (hwrong : (∃ g ∈ given s ps, g.1 = o.1 ∧ o.2 ≠ g.2) ∨
      s₁.blocks o.2 ≠ some (.context o.1) ∧ (o.1, 0) ∉ given s ps) : Wrong ps s s₂ := by
  obtain ⟨before, hbefore, -⟩ := hbefore
  obtain ⟨after, hafter, -⟩ := hafter
  refine ⟨⟨.binding, f, objects.map fun o => ⟨o.1, o.2, s₁.blocks o.2⟩, values⟩, ?_, ?_⟩
  · have hcalls : s₂.calls = s.calls ++ (before ++
        [⟨.binding, f, objects.map fun o => ⟨o.1, o.2, s₁.blocks o.2⟩, values⟩] ++ after) := by
      rw [hafter, State.call, hbefore]
      simp only [List.append_assoc]
    rw [hcalls, List.drop_left]
    exact List.mem_append_left _ (List.mem_append_right _ (List.mem_singleton_self _))
  · intro hsound
    obtain ⟨hpassed, hfound⟩ := hsound ⟨o.1, o.2, s₁.blocks o.2⟩ (List.mem_map_of_mem ho)
    rcases hwrong with ⟨g, hg, hkind, hne⟩ | ⟨hother, hnot⟩
    · exact hne (hpassed rfl g hg hkind)
    · rcases hfound with hfound | ⟨-, hnull⟩
      · exact hother hfound
      · exact hnot hnull

/-- The function goes on after its call. -/
theorem status_extends (s : State) (env : Env) :
    RightCalls [] s s ((returned >>= castOrThrowError) env s).2 :=
  (quiet_status env s ⟨rfl, rfl⟩).2.1

/-- `SSLSetSession` gives the context of the connection as a session. -/
theorem wrong_sslSetSession {a b : Ref} (hready : Ready (params (.sslSetSession a b)) s) :
    Wrong (params (.sslSetSession a b)) s (sslSetSession a b env s).2 := by
  have hssl : inSSLBin a ∈ params (.sslSetSession a b) := List.mem_cons_self
  have hsession : inSession b ∈ params (.sslSetSession a b) :=
    List.mem_cons_of_mem _ List.mem_cons_self
  obtain ⟨h, obj, ha, hobj, hblock, -⟩ := hready.handle hssl rfl
  obtain ⟨h', obj', -, -, hblock', hptr'⟩ := hready.handle hsession rfl
  obtain rfl : a = .handle h := ha
  have hrun : sslSetSession (.handle h) b env s = (returned >>= castOrThrowError) env
      (s.call env.misuse .binding .sslSetSession [(.ssl, obj.ptr), (.sslSession, obj.ptr)] []) := by
    unfold sslSetSession
    rw [bind_of_ok (lockedBinaryPtr_some hobj), bind_of_ok (lockedBinaryPtr_some hobj)]
    rfl
  rw [hrun]
  refine wrong_call (Extends.refl (P := fun _ => True) s) (status_extends _ env)
    (List.mem_cons_of_mem _ (List.mem_singleton_self _))
    (.inl ⟨_, List.mem_map_of_mem hsession, rfl, ?_⟩)
  -- the session is in another block
  intro heq
  have hsame : obj.ptr = obj'.ptr := heq.trans hptr'
  rw [← hsame, hblock] at hblock'
  cases hblock'

/-- `SSLConfRng` gives what the ROM makes of nil as the generator. -/
theorem wrong_sslConfRng {a b : Ref} (hready : Ready (params (.sslConfRng a b)) s) {q : ℕ}
    (hq : env.lockedBinaryPtr .nil = some q) (hne : q ≠ pointer s b) :
    Wrong (params (.sslConfRng a b)) s (sslConfRng a b env s).2 := by
  have hconfig : inSSLConfigBin a ∈ params (.sslConfRng a b) := List.mem_cons_self
  have hrng : inCtrDrbgContextBin b ∈ params (.sslConfRng a b) :=
    List.mem_cons_of_mem _ List.mem_cons_self
  obtain ⟨h, obj, ha, hobj, -, -⟩ := hready.handle hconfig rfl
  obtain rfl : a = .handle h := ha
  have hnil : lockedBinaryPtr .nil env s = (.ok q, s) := by
    show ofOption (env.lockedBinaryPtr .nil) env s = _
    rw [hq]
    rfl
  have hrun : sslConfRng (.handle h) b env s = (.ok .nil, s.call env.misuse .binding .sslConfRng
      [(.sslConfig, obj.ptr), (.ctrDrbg, q)] [.constant .mbedtlsCtrDrbgRandom]) := by
    unfold sslConfRng
    rw [bind_of_ok (lockedBinaryPtr_some hobj), bind_of_ok hnil]
    rfl
  rw [hrun]
  exact wrong_call (Extends.refl (P := fun _ => True) s) (Extends.refl (P := fun _ => True) _)
    (List.mem_cons_of_mem _ (List.mem_singleton_self _))
    (.inl ⟨_, List.mem_map_of_mem hrng, rfl, hne⟩)

/-- `X509CrlParse` gives a list as a certificate. -/
theorem wrong_x509CrlParse {a b : Ref} (hready : Ready (params (.x509CrlParse a b)) s)
    {x : Bindings.Value × ℕ} (hx : (lockedBinaryMaybeString b env s).1 = .ok x) :
    Wrong (params (.x509CrlParse a b)) s (x509CrlParse a b env s).2 := by
  have hcrl : inX509CrlBin a ∈ params (.x509CrlParse a b) := List.mem_cons_self
  obtain ⟨h, obj, ha, hobj, hblock, -⟩ := hready.handle hcrl rfl
  obtain rfl : a = .handle h := ha
  have hquiet : QuietAny [] s (lockedBinaryMaybeString b) := quiet_lockedBinaryMaybeString b
  obtain ⟨⟨hcontexts, hblocks⟩, hcalls, -⟩ := hquiet env s ⟨rfl, rfl⟩
  rcases hread : lockedBinaryMaybeString b env s with ⟨r, s₁⟩
  rw [hread] at hcontexts hblocks hcalls hx
  rw [show r = .ok x from hx] at hread
  have hrun : x509CrlParse (.handle h) b env s = (returned >>= castOrThrowError) env
      (s₁.call env.misuse .binding .x509CrtParse [(.x509Crt, obj.ptr)] [x.1, .int x.2]) := by
    unfold x509CrlParse
    rw [bind_of_ok hread]
    show (lockedBinaryPtr (.handle h) >>= _) env s₁ = _
    rw [bind_of_ok (lockedBinaryPtr_some ((congrFun (congrArg _ hcontexts) h).trans hobj))]
    rfl
  rw [hrun]
  refine wrong_call hcalls (status_extends _ env) (List.mem_singleton_self _) (.inr ⟨?_, ?_⟩)
  · show s₁.blocks obj.ptr ≠ _
    rw [hblocks, hblock]
    intro heq
    cases heq
  · rw [given, params, List.map_singleton, List.mem_singleton]
    intro heq
    cases heq

end native_

variable [Image]

/-! ## What a call leaves -/

/-- What a call leaves that is given `ps`: the handles and the blocks fit together, the calls of
mbed TLS are right, and the only new handle is that of a new context of kind `kind`, if the function
makes one. -/
structure CallOutcome (ps : List Param) (s : State) (kind : Option Kind)
    (r : Except Exn Ref × State) : Prop where
  sane : Sane r.2
  calls : RightCalls ps s s r.2
  objects : ∀ h obj, r.2.contexts.objects h = some obj → s.contexts.objects h = some obj ∨
    h = s.contexts.nextHandle ∧ ∀ k, kind = some k → Image.dtorAt obj.destructor = .context k
  grows : s.contexts.nextHandle ≤ r.2.contexts.nextHandle
  made : ∀ h, r.1 = .ok (.handle h) → kind ≠ none →
    h = s.contexts.nextHandle ∧ h < r.2.contexts.nextHandle

section outcomes

variable {ps : List Param} {s₀ s : State} {kind : Option Kind} {k : Kind} {p : ℕ} {env : Env}

/-- Without a new handle. -/
theorem outcome_of_same (hs : Sane s) (hcontexts : s.contexts = s₀.contexts)
    (hcalls : RightCalls ps s₀ s₀ s) {r : Except Exn Ref}
    (hr : ∀ h, r = .ok (.handle h) → kind = none) : CallOutcome ps s₀ kind (r, s) where
  sane := hs
  calls := hcalls
  objects := by
    rw [hcontexts]
    exact fun h obj hobj => .inl hobj
  grows := by rw [hcontexts]
  made := fun h hh hkind => absurd (hr h hh) hkind

/-- Nothing but the calls has changed. -/
theorem sane_same (hs : Sane s₀) (hsame : Same s₀ s) : Sane s := by
  obtain ⟨hcontexts, hblocks⟩ := hsame
  refine ⟨?_, ?_, ?_⟩
  · rw [hcontexts, hblocks]
    exact hs.owned
  · rw [hcontexts]
    exact hs.unborn
  · rw [hcontexts]
    exact hs.emptied

/-- A quiet beginning. -/
theorem outcome_quiet_bind {α : Type} {m : Native α} {f : α → Native Ref} {Q : α → Prop}
    (h : NativeQuiet ps s₀ m Q) (hs : Sane s₀) (hsame : Same s₀ s)
    (hcalls : RightCalls ps s₀ s₀ s)
    (hf : ∀ a s', Q a → Same s₀ s' → RightCalls ps s₀ s₀ s' →
      CallOutcome ps s₀ kind (f a env s')) : CallOutcome ps s₀ kind ((m >>= f) env s) := by
  obtain ⟨hsame', hcalls', hQ⟩ := h env s hsame
  rcases hm : m env s with ⟨e | a, s'⟩
  · rw [hm] at hsame' hcalls'
    rw [bind_of_error hm]
    have hafter := hcalls.trans hcalls'
    exact outcome_of_same (sane_same hs hsame') hsame'.1 hafter fun _ h => by cases h
  · rw [hm] at hsame' hcalls' hQ
    rw [bind_of_ok hm]
    exact hf a s' (hQ a rfl) hsame' (hcalls.trans hcalls')

/-- A quiet end. -/
theorem outcome_of_quiet {m : Native Ref} (h : QuietAny ps s₀ m) (hs : Sane s₀)
    (hsame : Same s₀ s) (hcalls : RightCalls ps s₀ s₀ s) (env : Env) :
    CallOutcome ps s₀ none (m env s) := by
  obtain ⟨hsame', hcalls', -⟩ := h env s hsame
  exact outcome_of_same (sane_same hs hsame') hsame'.1 (hcalls.trans hcalls') fun _ _ => rfl

/-- What the handles own is theirs, while one context is held besides. -/
theorem Holding.owned (h : Holding ps s₀ s p k) (hs : Sane s₀) :
    Owned (owners s.contexts.objects) s.blocks := by
  have hblocks : s.blocks = Function.update s₀.blocks p (s.blocks p) := by
    funext q
    by_cases heq : q = p
    · rw [heq, Function.update_self]
    · rw [Function.update_of_ne heq, h.others q heq]
  rw [h.contexts, hblocks]
  exact hs.owned.update_unowned (fun i k => hs.owned.unowned h.fresh i k) _

/-- The state is sane while the context is held. -/
theorem Holding.sane (h : Holding ps s₀ s p k) (hs : Sane s₀) : Sane s where
  owned := h.owned hs
  unborn := by
    rw [h.contexts]
    exact hs.unborn
  emptied := by
    rw [h.contexts]
    exact hs.emptied

/-- No handle owns the context that is held. -/
theorem Holding.unowned (h : Holding ps s₀ s p k) (hs : Sane s₀) (i : ℕ) (l : Kind) :
    owners s.contexts.objects i ≠ some (p, l) := by
  rw [h.contexts]
  exact hs.owned.unowned h.fresh i l

/-- A new handle is the only one. -/
theorem outcome_allocate {dtor : Dtor} (hs : Sane s) (hcontexts : s.contexts = s₀.contexts)
    (hcalls : RightCalls ps s₀ s₀ s)
    (hown : Owned (Function.update (owners s.contexts.objects) s.contexts.nextHandle
      (owner ⟨p, Image.address dtor⟩)) s.blocks)
    (hdtor : dtor ≠ .disposePtr) (hkind : ∀ k, kind = some k → dtor = .context k) :
    CallOutcome ps s₀ kind (doAllocateCObjectBinary p dtor env s) := by
  obtain ⟨hnew, hsane, hfreed⟩ := hs.doAllocate hown hdtor env.misuse env.deadAtAllocate
    env.deadAtAdd rfl
  have hnext := doAllocate_nextHandle s.contexts p (Image.address dtor) env.deadAtAllocate
    env.deadAtAdd
  refine ⟨hsane, hcalls.trans (hfreed.mono fun c hc => hc.sound _), ?_, ?_, ?_⟩
  · intro h obj hobj
    have hobj := (congrArg (fun c => c.objects h) hnew).symm.trans hobj
    rw [← hcontexts]
    rcases doAllocate_objects hobj with ⟨rfl, rfl⟩ | hold
    · right
      refine ⟨rfl, fun k hk => ?_⟩
      rw [Image.dtorAt_address, hkind k hk]
    · exact .inl hold
  · show s₀.contexts.nextHandle ≤ (s.withContexts _ _).contexts.nextHandle
    rw [hnew, hnext, hcontexts]
    exact Nat.le_succ _
  · rintro h hh -
    cases hh
    refine ⟨congrArg Contexts.nextHandle hcontexts, ?_⟩
    show s.contexts.nextHandle < (s.withContexts _ _).contexts.nextHandle
    rw [hnew, hnext]
    exact Nat.lt_succ_self _

/-- The new context gets its handle. -/
theorem Holding.allocate (h : Holding ps s₀ s p k) (hs : Sane s₀) :
    CallOutcome ps s₀ (some k) (doAllocateCObjectBinary p (.context k) env s) := by
  refine outcome_allocate (h.sane hs) h.contexts h.calls ?_ (fun h => by cases h) ?_
  · rw [owner, Image.dtorAt_address]
    exact (h.owned hs).take h.found (h.unowned hs)
  · intro l hl
    cases hl
    rfl

/-- The new context is freed again. -/
theorem Holding.destroy (h : Holding ps s₀ s p k) (hs : Sane s₀) (misuse : Blocks → Blocks) :
    Sane (s.runDtor misuse (.context k) p) ∧
      (s.runDtor misuse (.context k) p).contexts = s₀.contexts ∧
      RightCalls ps s₀ s₀ (s.runDtor misuse (.context k) p) := by
  obtain ⟨hcontexts, howned, hfreed⟩ :=
    runDtor_context misuse h.found (h.owned hs) (h.unowned hs)
  have hsame := hcontexts.trans h.contexts
  refine ⟨⟨?_, ?_, ?_⟩, hsame, h.calls.trans (hfreed.mono fun c hc => hc.sound _)⟩
  · rw [hcontexts]
    exact howned
  · rw [hsame]
    exact hs.unborn
  · rw [hsame]
    exact hs.emptied

/-! ## The functions that make or borrow a context -/

/-- A new context is made, if there is memory for it, and then `f` goes on. -/
theorem outcome_create {f : ℕ → Native Ref} (hs : Sane s)
    (hfresh : env.newPtr = 0 ∨ s.blocks env.newPtr = none)
    (hf : s.blocks env.newPtr = none →
      CallOutcome ps s kind (f env.newPtr env (created s env.newPtr k))) :
    CallOutcome ps s kind
      ((Bindings.newPtr >>= fun p => initialise k p >>= fun _ => f p) env s) := by
  rw [create_run]
  by_cases hp : env.newPtr = 0
  · rw [if_pos hp]
    exact outcome_of_same hs rfl (Extends.refl s) fun _ h => by cases h
  · rw [if_neg hp]
    exact hf (hfresh.resolve_left hp)

/-- The constructors return a handle of their kind. -/
theorem outcome_newContext (hs : Sane s) (hfresh : env.newPtr = 0 ∨ s.blocks env.newPtr = none) :
    CallOutcome ps s (some k) (newContext k (.context k) env s) :=
  outcome_create hs hfresh fun hfree => (holding_created ps k hfree).allocate hs

/-- `EntropyNew` calls mbed TLS in between. -/
theorem outcome_entropyNew (hs : Sane s) (hfresh : env.newPtr = 0 ∨ s.blocks env.newPtr = none) :
    CallOutcome [] s (some .entropy) (entropyNew env s) := by
  refine outcome_create hs hfresh fun hfree => ?_
  have hnew := holding_created [] .entropy hfree
  -- the source is added to the new context
  refine (hnew.call (List.forall_mem_singleton.mpr hnew.found) ?_ env.misuse
    .entropyAddSource _).allocate hs
  exact fun _ _ g hg => absurd hg List.not_mem_nil

/-- A borrowed context has no owner. -/
theorem outcome_borrow (hs : Sane s) (hcontexts : s.contexts = s₀.contexts)
    (hcalls : RightCalls ps s₀ s₀ s) (p : ℕ) :
    CallOutcome ps s₀ none (borrow p env s) := by
  refine outcome_allocate hs hcontexts hcalls ?_ (fun h => by cases h) fun _ h => by cases h
  rw [owner, NOPDtor, Image.dtorAt_address]
  exact hs.owned.giveUp _

/-- The certificate of the peer is borrowed. -/
theorem outcome_sslGetPeerCert {a : Ref} (hs : Sane s) (hready : Ready [inSSLBin a] s) :
    CallOutcome [inSSLBin a] s none (sslGetPeerCert a env s) := by
  have hquiet : QuietAny [inSSLBin a] s (callOn .ssl .sslGetPeerCert a (pure [])) :=
    quiet_onSSL hready List.mem_cons_self _ (quiet_pure trivial)
  refine outcome_quiet_bind hquiet hs ⟨rfl, rfl⟩ (Extends.refl s) fun _ s' _ hsame hcalls => ?_
  have hs' := sane_same hs hsame
  show CallOutcome _ _ _ ((if env.peerCert = 0 then pure Ref.nil else borrow env.peerCert) env s')
  by_cases hret : env.peerCert = 0
  · rw [if_pos hret]
    exact outcome_of_same hs' hsame.1 hcalls fun _ h => by cases h
  · rw [if_neg hret]
    exact outcome_borrow hs' hsame.1 hcalls env.peerCert

omit [Image] in
/-- What mbed TLS has returned does not change the state. -/
theorem returned_eq : returned env s = (env.ret, s) := by
  show ofExcept env.ret env s = _
  cases env.ret with
  | error e => rfl
  | ok ret => rfl

omit [Image] in
/-- A status is no handle. -/
theorem castOrThrowError_eq (env : Env) (s : State) (err : ℤ) :
    ∃ r, castOrThrowError err env s = (r, s) ∧ ∀ h, r ≠ .ok (.handle h) := by
  unfold castOrThrowError
  split_ifs <;> exact ⟨_, rfl, fun _ h => by cases h⟩

theorem outcome_status (hs : Sane s) (hcontexts : s.contexts = s₀.contexts)
    (hcalls : RightCalls ps s₀ s₀ s) (err : ℤ) :
    CallOutcome ps s₀ kind (castOrThrowError err env s) := by
  obtain ⟨r, hr, hno⟩ := castOrThrowError_eq env s err
  rw [hr]
  exact outcome_of_same hs hcontexts hcalls fun h hh => absurd hh (hno h)

/-- The session gets its handle, or is freed where it has been made. -/
theorem outcome_sessionHandle (h : Holding ps s₀ s p .sslSession) (hs : Sane s₀) :
    CallOutcome ps s₀ (some .sslSession) (sessionHandle p env s) := by
  unfold sessionHandle
  cases hret : env.ret with
  | error e =>
    rw [bind_of_error (returned_eq.trans (by rw [hret]))]
    exact outcome_of_same (h.sane hs) h.contexts h.calls fun _ h => by cases h
  | ok ret =>
    rw [bind_of_ok (returned_eq.trans (by rw [hret]))]
    by_cases hzero : ret = 0
    · rw [if_pos hzero]
      exact h.allocate hs
    · rw [if_neg hzero]
      obtain ⟨hsane, hcontexts, hcalls⟩ := h.destroy hs env.misuse
      exact outcome_status hsane hcontexts hcalls ret

/-- The session gets a handle, or it is freed again. -/
theorem outcome_sslGetSession {a : Ref} (hs : Sane s) (hready : Ready [inSSLBin a] s)
    (hfresh : env.newPtr = 0 ∨ s.blocks env.newPtr = none) :
    CallOutcome [inSSLBin a] s (some .sslSession) (sslGetSession a env s) := by
  refine outcome_create hs hfresh fun hfree => ?_
  have hnew := holding_created [inSSLBin a] .sslSession hfree
  obtain ⟨h, obj, href, hobj, hblock, hptr⟩ := hready.handle List.mem_cons_self rfl
  obtain rfl : a = .handle h := href
  -- the context of the handle is not the new block
  have hne : obj.ptr ≠ env.newPtr := by
    intro heq
    rw [heq, hfree] at hblock
    cases hblock
  have hctx : (created s env.newPtr .sslSession).blocks obj.ptr = some (.context .ssl) :=
    (Function.update_of_ne hne _ _).trans hblock
  have hfound : ∀ o ∈ [(Kind.ssl, obj.ptr), (.sslSession, env.newPtr)],
      (created s env.newPtr .sslSession).blocks o.2 = some (.context o.1) :=
    List.forall_mem_cons.mpr ⟨hctx, List.forall_mem_singleton.mpr hnew.found⟩
  have hpassed : ∀ o ∈ [(Kind.ssl, obj.ptr), (.sslSession, env.newPtr)],
      ∀ g ∈ given s [inSSLBin (.handle h)], g.1 = o.1 → o.2 = g.2 := by
    intro o ho g hg hkind
    rw [given, List.map_singleton, List.mem_singleton] at hg
    subst hg
    rcases List.mem_cons.mp ho with rfl | ho
    · exact hptr.symm
    · rw [List.mem_singleton.mp ho] at hkind
      cases hkind
  rw [bind_of_ok (lockedBinaryPtr_some (s := created s env.newPtr .sslSession) hobj)]
  exact outcome_sessionHandle (hnew.call hfound hpassed env.misuse .sslGetSession []) hs

/-! ## All functions -/

omit [Image] in
/-- The other functions construct nothing. -/
theorem constructs_plain {b : Binding} (h : Plain b) : constructs b = none := by
  cases b with
  | entropyNew | ctrDrbgNew | pkNew | sslNew | sslCacheNew | sslConfigNew | sslSessionNew
  | x509CrtNew | x509CrlNew | sslGetSession _ => exact h.elim
  | _ => rfl

/-- Nothing is given as a generator, or the generator that was passed. -/
theorem outcome_sslConfRng {a b : Ref} (hs : Sane s) (hready : Ready (params (.sslConfRng a b)) s)
    (hnil : ∀ q, env.lockedBinaryPtr .nil = some q → q = pointer s b) :
    CallOutcome (params (.sslConfRng a b)) s none (sslConfRng a b env s) := by
  have hconfig : inSSLConfigBin a ∈ params (.sslConfRng a b) := List.mem_cons_self
  have hrng : inCtrDrbgContextBin b ∈ params (.sslConfRng a b) :=
    List.mem_cons_of_mem _ List.mem_cons_self
  refine outcome_quiet_bind (quiet_param hready hconfig rfl) hs ⟨rfl, rfl⟩ (Extends.refl s) ?_
  intro config s' hp hsame hcalls
  have hlocked : lockedBinaryPtr .nil env s' = ofOption (env.lockedBinaryPtr .nil) env s' := rfl
  cases hq : env.lockedBinaryPtr .nil with
  | none =>
    rw [hq] at hlocked
    have hraised : lockedBinaryPtr .nil env s' = (.error .rom, s') := hlocked
    show CallOutcome _ _ _ ((lockedBinaryPtr .nil >>= _) env s')
    rw [bind_of_error hraised]
    exact outcome_of_same (sane_same hs hsame) hsame.1 hcalls fun _ _ => rfl
  | some q =>
    rw [hq] at hlocked
    have hgiven : lockedBinaryPtr .nil env s' = (.ok q, s') := hlocked
    show CallOutcome _ _ _ ((lockedBinaryPtr .nil >>= _) env s')
    rw [bind_of_ok hgiven]
    have hpassed := passed_cons hconfig hp (passed_one hrng (hnil q hq))
    have hquiet := quiet_call hready hpassed .sslConfRng [.constant .mbedtlsCtrDrbgRandom]
    exact outcome_of_quiet (hquiet.andThen quiet_result) hs hsame hcalls env

/-- Nothing is parsed. -/
theorem outcome_x509CrlParse {a b : Ref} (hs : Sane s) {e : Exn}
    (he : (lockedBinaryMaybeString b env s).1 = .error e) :
    CallOutcome ps s none (x509CrlParse a b env s) := by
  have hquiet : QuietAny ps s (lockedBinaryMaybeString b) := quiet_lockedBinaryMaybeString b
  obtain ⟨hsame, hcalls, -⟩ := hquiet env s ⟨rfl, rfl⟩
  rcases hread : lockedBinaryMaybeString b env s with ⟨r, s'⟩
  rw [hread] at hsame hcalls he
  rw [show r = .error e from he] at hread
  have hrun : x509CrlParse a b env s = (.error e, s') := bind_of_error hread
  rw [hrun]
  exact outcome_of_same (sane_same hs hsame) hsame.1 hcalls fun _ h => by cases h

/-- **What a call leaves**, unless it is one of those that do harm. -/
theorem outcome_run {b : Binding} (hs : Sane s) (hready : Ready (params b) s)
    (hfresh : env.newPtr = 0 ∨ s.blocks env.newPtr = none) (hspared : Spared s env b) :
    CallOutcome (params b) s (constructs b) (b.run env s) := by
  by_cases hplain : Plain b
  · rw [constructs_plain hplain]
    exact outcome_of_quiet (quiet_run hplain hready) hs ⟨rfl, rfl⟩ (Extends.refl s) env
  · cases b with
    | entropyNew => exact outcome_entropyNew hs hfresh
    | ctrDrbgNew | pkNew | sslNew | sslCacheNew | sslConfigNew | sslSessionNew | x509CrtNew
    | x509CrlNew => exact outcome_newContext hs hfresh
    | sslGetPeerCert a => exact outcome_sslGetPeerCert hs hready
    | sslGetSession a => exact outcome_sslGetSession hs hready hfresh
    | sslSetSession a b => exact hspared.elim
    | sslConfRng a b => exact outcome_sslConfRng hs hready hspared
    | x509CrlParse a b =>
      obtain ⟨e, he⟩ := hspared
      exact outcome_x509CrlParse hs he
    | _ => exact absurd trivial hplain

/-- A call that does harm is wrong. -/
theorem wrong_run {b : Binding} (hready : Ready (params b) s) (hharm : ¬ Spared s env b) :
    Wrong (params b) s (b.run env s).2 := by
  cases b with
  | sslSetSession a b => exact wrong_sslSetSession hready
  | sslConfRng a b =>
    obtain ⟨q, hq⟩ := not_forall.mp hharm
    obtain ⟨hq, hne⟩ := Classical.not_imp.mp hq
    exact wrong_sslConfRng hready hq hne
  | x509CrlParse a b =>
    cases hread : (lockedBinaryMaybeString b env s).1 with
    | error e => exact absurd ⟨e, hread⟩ hharm
    | ok x => exact wrong_x509CrlParse hready hread
  | _ => exact absurd trivial hharm

end outcomes

end BindingOutcomes

end NewtonTLS
