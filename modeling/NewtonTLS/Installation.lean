/-
# The package from installation to removal

The scripts of the package (`NTK Projects/mbedTLS.f`) make the one object that implements the
interface, watch for the package of the Internet Enabler, exchange its connection end for the one
of mbedTLS while both packages are there, and take everything back.  The system calls them as the
user installs and removes the two packages, in any order.  `installation_refines` says what the
scripts are for and that they do it when nothing fails; `removed_without_trace` that a package that
has gone cannot be told from one that never came.
-/
import Mathlib.Data.List.Induction
import NewtonTLS.ClassRegistry
import NewtonTLS.Steps

namespace NewtonTLS

namespace Installation

open ClassRegistry Steps

/-! ## The system -/

/-- The slots of the global variable `kAppSymbol` that the scripts here read. -/
structure GlobalContext : Type where
  connectionEndInstalled : Bool
  deriving DecidableEq, Repr

/-- What the scripts find.  `unit` says that the unit `|Inet Protos:NIE|` can be imported, and
`present` that the package of mbedTLS is installed.  `interface` is the object under the name
`mbedTLS`; `live` are the objects made and not deleted, `made` counts all of them.  `dangling`
records a call to an object that had been deleted. -/
structure World (ClassInfo : Type) : Type where
  registries : Registries ClassInfo
  unit : Bool
  present : Bool
  interface : Option ℕ
  live : List ℕ
  made : ℕ
  globalContext : Option GlobalContext
  regSoupChangeCb : Bool
  procrastinated : Bool
  dangling : Bool
  deriving DecidableEq, Repr

/-- How the system answers one use of `PMbedTLSInterface::GetInterfaceSingleton` or
`DeleteInterfaceSingleton`.  `lookup` is an error other than `kError_Not_Registered`, if `Lookup`
fails; `new` says that `New` makes an object; the others are 0 or an error. -/
structure NameAnswers : Type where
  lookup : Option SystemErr
  new : Bool
  registerName : SystemErr
  unRegisterName : SystemErr
  deriving DecidableEq, Repr

/-- The answers that one script gets: for `Install`, for the functions that exchange the
connection end or delete the interface, and from the class registry. -/
structure ScriptAnswers : Type where
  install : NameAnswers
  names : NameAnswers
  classes : Answers
  deriving DecidableEq, Repr

/-- What ends a script early. -/
inductive Exception : Type where
  | outOfMemory
  | mbedTLSException (e : SystemErr)
  deriving DecidableEq, Repr

variable {ClassInfo : Type} [DecidableEq ClassInfo]

/-! ## The interface -/

/-- `PMbedTLSInterface::GetInterfaceSingleton`. -/
def getInterfaceSingleton (a : NameAnswers) (create : Bool) (w : World ClassInfo) :
    Except Exception (Option ℕ) × World ClassInfo :=
  match a.lookup with
  | some theErr => (.error (.mbedTLSException theErr), w)
  | none =>
    match w.interface with
    | some theResult => (.ok (some theResult), w)
    | none =>
      if create then
        if a.new then
          let theResult := w.made
          let w := { w with live := theResult :: w.live, made := w.made + 1 }
          -- the object stays when its name cannot be registered
          if a.registerName ≠ 0 then (.error (.mbedTLSException a.registerName), w)
          else (.ok (some theResult), { w with interface := some theResult })
        else (.error .outOfMemory, w)
      else (.ok none, w)

/-- A member function of the object `p` is called, which does `f` to the registries; the flag says
that it returns. -/
def call (p : ℕ) (f : Registries ClassInfo → Result × Registries ClassInfo)
    (w : World ClassInfo) : Bool × World ClassInfo :=
  if p ∈ w.live then
    ((f w.registries).1 ≠ .nullPointer, { w with registries := (f w.registries).2 })
  else (true, { w with dangling := true })

/-- `PMbedTLS::Delete`, which always removes the connection end; an exception on the way leaves
the object behind. -/
def delete (own : ClassInfo) (b : Answers) (p : ℕ) (w : World ClassInfo) :
    Bool × World ClassInfo :=
  match call p (ClassRegistry.removeConnectionEnd own b) w with
  | (false, w) => (false, w)
  | (true, w) => (true, { w with live := w.live.erase p })

/-- `PMbedTLSInterface::DeleteInterfaceSingleton`. -/
def deleteInterfaceSingleton (own : ClassInfo) (a : NameAnswers) (b : Answers)
    (w : World ClassInfo) : World ClassInfo :=
  match getInterfaceSingleton a false w with
  | (.error _, w) => w
  | (.ok none, w) => w
  | (.ok (some interface), w) =>
    match delete own b interface w with
    | (false, w) => w
    | (true, w) => if a.unRegisterName = 0 then { w with interface := none } else w

/-! ## The functions of the module -/

/-- `Install` (`NTKModule/mbedTLSInterface.cpp`); the flag says that it returns. -/
def install (a : NameAnswers) (w : World ClassInfo) : Bool × World ClassInfo :=
  match getInterfaceSingleton a true w with
  | (.error _, w) => (false, w)
  | (.ok _, w) => (true, w)

/-- `InstallConnectionEnd` of the module; the flag says that it returns. -/
def installConnectionEnd (own : ClassInfo) (a : NameAnswers) (b : Answers) (w : World ClassInfo) :
    Bool × World ClassInfo :=
  match getInterfaceSingleton a true w with
  | (.error _, w) => (false, w)
  | (.ok none, w) => (true, w)
  | (.ok (some interface), w) => call interface (ClassRegistry.installConnectionEnd own b) w

/-- `RemoveConnectionEnd` of the module; the flag says that it returns. -/
def removeConnectionEnd (own : ClassInfo) (a : NameAnswers) (b : Answers) (w : World ClassInfo) :
    Bool × World ClassInfo :=
  match getInterfaceSingleton a false w with
  | (.error _, w) => (false, w)
  | (.ok none, w) => (true, w)
  | (.ok (some interface), w) => call interface (ClassRegistry.removeConnectionEnd own b) w

/-! ## The scripts -/

/-- The slot `connectionEndInstalled` of the global context, NIL without one. -/
def World.connectionEndInstalled (w : World ClassInfo) : Bool :=
  w.globalContext.elim false GlobalContext.connectionEndInstalled

/-- The slot is set. -/
def World.setConnectionEndInstalled (w : World ClassInfo) (value : Bool) : World ClassInfo :=
  { w with globalContext := w.globalContext.map fun _ => ⟨value⟩ }

/-- `MaybeInstallConnectionEnd`: the imports are missing unless the unit is there. -/
def maybeInstallConnectionEnd (own : ClassInfo) (a : ScriptAnswers) (w : World ClassInfo) :
    World ClassInfo :=
  if w.connectionEndInstalled then w
  else if w.unit then
    match installConnectionEnd own a.names a.classes w with
    | (false, w) => w
    -- what the function answers is not looked at
    | (true, w) => w.setConnectionEndInstalled true
  else w

/-- `InstallScript`. -/
def installScript (own : ClassInfo) (a : ScriptAnswers) (w : World ClassInfo) : World ClassInfo :=
  match install a.install { w with present := true, globalContext := some ⟨false⟩ } with
  | (false, w) => w
  | (true, w) => maybeInstallConnectionEnd own a { w with regSoupChangeCb := true }

/-- `RemoveScript`. -/
def removeScript (own : ClassInfo) (a : ScriptAnswers) (w : World ClassInfo) : World ClassInfo :=
  deleteInterfaceSingleton own a.names a.classes
    { w with present := false, regSoupChangeCb := false, globalContext := none }

/-- `ImportDisabled` for the unit `|Inet Protos:NIE|`. -/
def importDisabled (own : ClassInfo) (a : ScriptAnswers) (w : World ClassInfo) : World ClassInfo :=
  if w.connectionEndInstalled then
    match removeConnectionEnd own a.names a.classes w with
    | (false, w) => w
    | (true, w) => w.setConnectionEndInstalled false
  else w

/-- The call that `regSoupChangeCb` has put off. -/
def procrastinatedCall (own : ClassInfo) (a : ScriptAnswers) (w : World ClassInfo) :
    World ClassInfo :=
  if w.globalContext.isSome then maybeInstallConnectionEnd own a w else w

/-! ## Runs -/

/-- What happens.  The Internet Enabler registers its class when its package is installed; when it
is removed, the parts that import the unit hear of it before the class is deregistered.  The soup
of packages changes, which a registered callback answers by a call later on. -/
inductive Event : Type where
  | nieInstalled
  | nieRemoved
  | packageInstalled
  | packageRemoved
  | packagesChanged
  | procrastinatedCall
  deriving DecidableEq, Repr

/-- The event can happen. -/
def Event.Enabled (w : World ClassInfo) : Event → Prop
  | .nieInstalled => w.unit = false
  | .nieRemoved => w.unit = true
  | .packageInstalled => w.present = false
  | .packageRemoved => w.present = true
  | .packagesChanged => True
  | .procrastinatedCall => w.procrastinated = true

/-- The system tells a part that imports the unit. -/
def announceRemoval (own : ClassInfo) (a : ScriptAnswers) (w : World ClassInfo) :
    World ClassInfo :=
  if w.present then importDisabled own a w else w

/-- What an event does; `original` is the class of the Internet Enabler. -/
def Event.run (own original : ClassInfo) (a : ScriptAnswers) (w : World ClassInfo) :
    Event → World ClassInfo
  | .nieInstalled =>
    { w with
      unit := true
      registries.registered := w.registries.registered <|> some original }
  | .nieRemoved =>
    let w := announceRemoval own a w
    { w with
      unit := false
      registries.registered :=
        if w.registries.registered = some original then none else w.registries.registered }
  | .packageInstalled => installScript own a w
  | .packageRemoved => removeScript own a w
  | .packagesChanged => { w with procrastinated := w.procrastinated || w.regSoupChangeCb }
  | .procrastinatedCall =>
    Installation.procrastinatedCall own a { w with procrastinated := false }

/-- A step of the system. -/
def Step (own original : ClassInfo) (w : World ClassInfo) (x : Event × ScriptAnswers)
    (w' : World ClassInfo) : Prop :=
  x.1.Enabled w ∧ w' = x.1.run own original x.2 w

/-- Neither package is installed. -/
def World.start : World ClassInfo where
  registries := ⟨none, none⟩
  unit := false
  present := false
  interface := none
  live := []
  made := 0
  globalContext := none
  regSoupChangeCb := false
  procrastinated := false
  dangling := false

/-! ## What the scripts are for -/

/-- Which packages are installed, and whether the Internet Enabler makes connection ends of
mbedTLS. -/
structure Setting : Type where
  nie : Bool
  installed : Bool
  attached : Bool
  deriving DecidableEq, Repr

/-- Connection ends of mbedTLS are made only while both packages are there. -/
def Setting.Valid (p : Setting) : Prop := p.attached = true → p.installed = true ∧ p.nie = true

/-- The class of mbedTLS takes the place of the other as soon as the scripts can know of both, and
gives it back before either package goes. -/
def Setting.step (p : Setting) : Event → Setting
  | .nieInstalled => { p with nie := true }
  | .nieRemoved => { p with nie := false, attached := false }
  | .packageInstalled => { p with installed := true, attached := p.nie }
  | .packageRemoved => { p with installed := false, attached := false }
  | .packagesChanged => p
  | .procrastinatedCall => { p with attached := p.installed && p.nie }

/-- The class registered as `PInetToolCE`, and the original one while it is not. -/
def Setting.registries (own original : ClassInfo) (p : Setting) : Registries ClassInfo :=
  if p.attached then ⟨some own, some original⟩
  else ⟨if p.nie then some original else none, none⟩

/-- The world in a setting: one object under the name and no other, if the package is installed. -/
def Setting.world (own original : ClassInfo) (p : Setting) (object made : ℕ)
    (procrastinated : Bool) : World ClassInfo where
  registries := p.registries own original
  unit := p.nie
  present := p.installed
  interface := if p.installed then some object else none
  live := if p.installed then [object] else []
  made := made
  globalContext := if p.installed then some ⟨p.attached⟩ else none
  regSoupChangeCb := p.installed
  procrastinated := procrastinated
  dangling := false

/-- Nothing fails. -/
def fine : ScriptAnswers where
  install := ⟨none, true, 0, 0⟩
  names := ⟨none, true, 0, 0⟩
  classes := noFailure

section scripts

variable (own original : ClassInfo) {p : Setting} (object made : ℕ) (procrastinated : Bool)

theorem Setting.Valid.step (hp : p.Valid) (e : Event) (hnie : e = .nieInstalled → p.nie = false)
    (hpresent : e = .packageInstalled → p.installed = false) : (p.step e).Valid := by
  intro hattached
  cases e with
  | nieInstalled =>
    have hboth := hp hattached
    rw [hnie rfl] at hboth
    cases hboth.2
  | nieRemoved => cases hattached
  | packageInstalled => exact ⟨rfl, hattached⟩
  | packageRemoved => cases hattached
  | packagesChanged => exact hp hattached
  | procrastinatedCall =>
    rw [Setting.step, Bool.and_eq_true] at hattached
    exact hattached

omit [DecidableEq ClassInfo] in
/-- The original class is exchanged for the class of mbedTLS. -/
theorem installConnectionEnd_registries (hnie : p.nie = true) (hattached : p.attached = false) :
    ClassRegistry.installConnectionEnd own noFailure (p.registries own original) =
      (.trueref, Setting.registries own original { p with attached := true }) := by
  simp [Setting.registries, hnie, hattached, ClassRegistry.installConnectionEnd, notRegistered,
    noFailure]

/-- The original class comes back. -/
theorem removeConnectionEnd_registries (hnie : p.nie = true) (hattached : p.attached = true) :
    ClassRegistry.removeConnectionEnd own noFailure (p.registries own original) =
      (.trueref, Setting.registries own original { p with attached := false }) := by
  simp [Setting.registries, hnie, hattached, ClassRegistry.removeConnectionEnd, notRegistered,
    theResult, noFailure]

/-- Without the class of mbedTLS there is nothing to remove. -/
theorem removeConnectionEnd_registries_of_not_attached (hattached : p.attached = false) :
    ClassRegistry.removeConnectionEnd own noFailure (p.registries own original) =
      (.nilref, p.registries own original) := by
  simp [Setting.registries, hattached, ClassRegistry.removeConnectionEnd, notRegistered, noFailure]

omit [DecidableEq ClassInfo] in
/-- The connection end is installed if that has not been done and the unit is there. -/
theorem maybeInstallConnectionEnd_world (hp : p.Valid) (hinstalled : p.installed = true) :
    maybeInstallConnectionEnd own fine (p.world own original object made procrastinated) =
      Setting.world own original { p with attached := p.nie } object made procrastinated := by
  by_cases hattached : p.attached = true
  · have hsame : { p with attached := p.nie } = p :=
      congrArg (fun value => { p with attached := value })
        ((hp hattached).2.trans hattached.symm)
    rw [hsame]
    simp [maybeInstallConnectionEnd, World.connectionEndInstalled, Setting.world, hinstalled,
      hattached]
  · rw [Bool.not_eq_true] at hattached
    by_cases hnie : p.nie = true
    · have hregistries := installConnectionEnd_registries own original hnie hattached
      rw [hnie]
      simp [maybeInstallConnectionEnd, World.connectionEndInstalled, Setting.world, hinstalled,
        hattached, hnie, fine, Installation.installConnectionEnd, getInterfaceSingleton, call,
        hregistries, World.setConnectionEndInstalled]
    · rw [Bool.not_eq_true] at hnie
      simp [maybeInstallConnectionEnd, World.connectionEndInstalled, Setting.world, hinstalled,
        hattached, hnie, Setting.registries]

omit [DecidableEq ClassInfo] in
/-- The installation leads to the world of the next setting. -/
theorem installScript_world (hp : p.Valid) (hinstalled : p.installed = false) :
    installScript own fine (p.world own original object made procrastinated) =
      Setting.world own original (p.step .packageInstalled) made (made + 1) procrastinated := by
  have hattached : p.attached = false := by
    by_contra h
    rw [(hp (by simpa using h)).1] at hinstalled
    cases hinstalled
  have hvalid : Setting.Valid { p with installed := true, attached := false } := by
    intro h
    cases h
  have hworld : install fine.install { p.world own original object made procrastinated with
      present := true, globalContext := some ⟨false⟩ } =
        (true, { Setting.world own original { p with installed := true, attached := false } made
          (made + 1) procrastinated with regSoupChangeCb := false }) := by
    simp [install, fine, getInterfaceSingleton, Setting.world, hinstalled, hattached,
      Setting.registries]
  rw [installScript, hworld]
  exact maybeInstallConnectionEnd_world own original made (made + 1) procrastinated hvalid rfl

theorem removeScript_world (hp : p.Valid) (hinstalled : p.installed = true) :
    removeScript own fine (p.world own original object made procrastinated) =
      Setting.world own original (p.step .packageRemoved) object made procrastinated := by
  obtain ⟨result, hresult, hremoved⟩ : ∃ result, result ≠ .nullPointer ∧
      ClassRegistry.removeConnectionEnd own noFailure (p.registries own original) =
        (result, Setting.registries own original (p.step .packageRemoved)) := by
    by_cases hattached : p.attached = true
    · refine ⟨.trueref, by simp, ?_⟩
      exact removeConnectionEnd_registries own original (hp hattached).2 hattached
    · rw [Bool.not_eq_true] at hattached
      refine ⟨.nilref, by simp, ?_⟩
      rw [removeConnectionEnd_registries_of_not_attached own original hattached,
        Setting.registries, hattached]
      rfl
  simp [removeScript, deleteInterfaceSingleton, getInterfaceSingleton, fine, Setting.world,
    hinstalled, delete, call, hremoved, hresult, Setting.step]

theorem announceRemoval_world (hp : p.Valid) (hnie : p.nie = true) :
    announceRemoval own fine (p.world own original object made procrastinated) =
      Setting.world own original { p with attached := false } object made procrastinated := by
  by_cases hattached : p.attached = true
  · have hregistries := removeConnectionEnd_registries own original hnie hattached
    have hinstalled := (hp hattached).1
    simp [announceRemoval, importDisabled, World.connectionEndInstalled, Setting.world, hinstalled,
      hattached, fine, Installation.removeConnectionEnd, getInterfaceSingleton, call, hregistries,
      World.setConnectionEndInstalled]
  · rw [Bool.not_eq_true] at hattached
    have hsame : { p with attached := false } = p := by rw [← hattached]
    rw [hsame]
    by_cases hinstalled : p.installed = true
    · simp [announceRemoval, importDisabled, World.connectionEndInstalled, Setting.world,
        hinstalled, hattached]
    · simp [announceRemoval, Setting.world, hinstalled]

/-- **One event**, if nothing fails, does what it is for. -/
theorem event_world (hp : p.Valid) (e : Event)
    (he : e.Enabled (p.world own original object made procrastinated)) :
    (p.step e).Valid ∧ ∃ object' made' procrastinated',
      e.run own original fine (p.world own original object made procrastinated) =
        Setting.world own original (p.step e) object' made' procrastinated' := by
  constructor
  · apply hp.step e
    · rintro rfl
      exact he
    · rintro rfl
      exact he
  cases e with
  | nieInstalled =>
    have hnie : p.nie = false := he
    have hattached : p.attached = false := by
      by_contra h
      rw [(hp (by simpa using h)).2] at hnie
      cases hnie
    refine ⟨object, made, procrastinated, ?_⟩
    simp [Event.run, Setting.world, Setting.registries, Setting.step, hattached, hnie]
  | nieRemoved =>
    have hannounce := announceRemoval_world own original object made procrastinated hp he
    refine ⟨object, made, procrastinated, ?_⟩
    simp only [Event.run, hannounce]
    cases hinstalled : p.installed with
    | false => simp [Setting.world, Setting.registries, Setting.step, hinstalled]
    | true => simp [Setting.world, Setting.registries, Setting.step, hinstalled]
  | packageInstalled =>
    exact ⟨made, made + 1, procrastinated,
      installScript_world own original object made procrastinated hp he⟩
  | packageRemoved =>
    exact ⟨object, made, procrastinated,
      removeScript_world own original object made procrastinated hp he⟩
  | packagesChanged => exact ⟨object, made, procrastinated || p.installed, rfl⟩
  | procrastinatedCall =>
    refine ⟨object, made, false, ?_⟩
    show procrastinatedCall own fine (p.world own original object made false) = _
    by_cases hinstalled : p.installed = true
    · have hmaybe := maybeInstallConnectionEnd_world own original object made false hp hinstalled
      have hcontext : (p.world own original object made false).globalContext.isSome = true := by
        simp [Setting.world, hinstalled]
      rw [procrastinatedCall, if_pos hcontext, hmaybe, Setting.step, hinstalled, Bool.true_and]
    · rw [Bool.not_eq_true] at hinstalled
      have hattached : p.attached = false := by
        by_contra h
        rw [(hp (by simpa using h)).1] at hinstalled
        cases hinstalled
      simp [procrastinatedCall, Setting.world, Setting.registries, Setting.step, hinstalled,
        hattached]

end scripts

/-! ## Whole runs -/

section runs

variable {own original : ClassInfo} {l l' : List (World ClassInfo × Event × ScriptAnswers)}
  {w w' : World ClassInfo}

/-- The setting after a run. -/
def setting (l : List (World ClassInfo × Event × ScriptAnswers)) : Setting :=
  l.foldl (fun p x => p.step x.2.1) ⟨false, false, false⟩

/-- Nothing fails during the run. -/
def Fine (l : List (World ClassInfo × Event × ScriptAnswers)) : Prop := ∀ x ∈ l, x.2.2 = fine

/-- A run in which nothing fails ends in the world of its setting. -/
theorem run_world (h : Path (Step own original) World.start l w) (hfine : Fine l) :
    (setting l).Valid ∧ ∃ object made procrastinated,
      w = (setting l).world own original object made procrastinated := by
  induction h with
  | start =>
    refine ⟨?_, 0, 0, false, rfl⟩
    intro hattached
    cases hattached
  | @step l s a s' hpath hstep ih =>
    unfold Fine at hfine
    rw [forall_mem_concat] at hfine
    obtain ⟨hvalid, object, made, procrastinated, rfl⟩ := ih hfine.1
    obtain ⟨e, answers⟩ := a
    have hanswers : answers = fine := hfine.2
    obtain ⟨henabled, rfl⟩ := hstep
    have hsetting : setting (l ++ [((setting l).world own original object made procrastinated,
        e, answers)]) = (setting l).step e := List.foldl_append ..
    rw [hsetting, hanswers]
    exact event_world own original object made procrastinated hvalid e henabled

/-- **The connection end of mbedTLS is registered exactly while it should be**: after every run in
which nothing fails the world is the one of the setting, which says of each event what it is for. -/
theorem installation_refines (own original : ClassInfo)
    (l : List (World ClassInfo × Event × ScriptAnswers)) (w : World ClassInfo)
    (h : Path (Step own original) World.start l w) (hfine : Fine l) :
    ∃ object made procrastinated,
      w = (setting l).world own original object made procrastinated :=
  (run_world h hfine).2

/-- A run goes on with the given events, one after the other. -/
def play (own original : ClassInfo) : List (World ClassInfo × Event × ScriptAnswers) →
    World ClassInfo → List (Event × ScriptAnswers) →
      List (World ClassInfo × Event × ScriptAnswers) × World ClassInfo
  | l, w, [] => (l, w)
  | l, w, x :: rest => play own original (l ++ [(w, x)]) (x.1.run own original x.2 w) rest

/-- Each of the events can happen when its turn comes. -/
def Playable (own original : ClassInfo) : World ClassInfo → List (Event × ScriptAnswers) → Prop
  | _, [] => True
  | w, x :: rest => x.1.Enabled w ∧ Playable own original (x.1.run own original x.2 w) rest

/-- What has been played is a run. -/
theorem path_play (xs : List (Event × ScriptAnswers)) :
    ∀ {l : List (World ClassInfo × Event × ScriptAnswers)} {w : World ClassInfo},
      Path (Step own original) World.start l w → Playable own original w xs →
        Path (Step own original) World.start (play own original l w xs).1
          (play own original l w xs).2 := by
  induction xs with
  | nil =>
    intro l w h _
    exact h
  | cons x rest ih =>
    rintro l w h ⟨hx, hrest⟩
    exact ih (.step h ⟨hx, rfl⟩) hrest

/-- The package is there before the Internet Enabler. -/
def waiting : List (World ℕ × Event × ScriptAnswers) × World ℕ :=
  play 1 0 [] World.start [(.packageInstalled, fine), (.nieInstalled, fine),
    (.packagesChanged, fine), (.procrastinatedCall, fine)]

/-- The package waits for the Internet Enabler. -/
theorem installation_refines_waiting : (setting waiting.1).attached = true ∧
    ∃ object made procrastinated,
      waiting.2 = (setting waiting.1).world 1 0 object made procrastinated :=
  ⟨rfl, installation_refines 1 0 waiting.1 waiting.2
    (path_play _ .start ⟨rfl, rfl, trivial, rfl, trivial⟩) (by
      unfold Fine
      decide)⟩

/-- The event is one of the package of the Internet Enabler. -/
def Event.ofNie : Event → Bool
  | .nieInstalled => true
  | .nieRemoved => true
  | _ => false

/-- The events of the Internet Enabler in a run. -/
def nieEvents (l : List (World ClassInfo × Event × ScriptAnswers)) : List Event :=
  (l.map fun x => x.2.1).filter Event.ofNie

/-- Whether the Internet Enabler is there after an event of its own. -/
def afterNieEvent (_ : Bool) (e : Event) : Bool := e = .nieInstalled

omit [DecidableEq ClassInfo] in
/-- Whether the Internet Enabler is there depends on its own events. -/
theorem setting_nie (l : List (World ClassInfo × Event × ScriptAnswers)) :
    (setting l).nie = (nieEvents l).foldl afterNieEvent false := by
  induction l using List.reverseRecOn with
  | nil => rfl
  | append_singleton l x ih =>
    have hsetting : setting (l ++ [x]) = (setting l).step x.2.1 := List.foldl_append ..
    have hevents : nieEvents (l ++ [x]) = nieEvents l ++ [x.2.1].filter Event.ofNie := by
      rw [nieEvents, List.map_append, List.filter_append]
      rfl
    rw [hsetting, hevents, List.foldl_append, ← ih]
    cases x.2.1 <;> rfl

omit [DecidableEq ClassInfo] in
/-- Without the package only the Internet Enabler counts. -/
theorem world_of_not_installed {p : Setting} (hp : p.Valid) (hinstalled : p.installed = false)
    (object made : ℕ) (procrastinated : Bool) :
    p.world own original object made procrastinated =
      Setting.world own original ⟨p.nie, false, false⟩ 0 made procrastinated := by
  obtain ⟨nie, installed, attached⟩ := p
  have hattached : attached = false := by
    by_contra h
    rw [(hp (by simpa using h)).1] at hinstalled
    cases hinstalled
  subst hinstalled hattached
  rfl

/-- **Removing the package leaves no trace.**  Two runs in which nothing fails and the Internet
Enabler comes and goes in the same way leave the same class registry and name server, no object
and no callback, whatever was done with mbedTLS in each, as long as it is not installed in the
end. -/
theorem removed_without_trace (own original : ClassInfo)
    (l l' : List (World ClassInfo × Event × ScriptAnswers)) (w w' : World ClassInfo)
    (h : Path (Step own original) World.start l w) (hfine : Fine l)
    (h' : Path (Step own original) World.start l' w') (hfine' : Fine l')
    (hpresent : w.present = false) (hpresent' : w'.present = false)
    (hnie : nieEvents l = nieEvents l') :
    { w with made := w'.made, procrastinated := w'.procrastinated } = w' := by
  obtain ⟨hvalid, object, made, procrastinated, rfl⟩ := run_world h hfine
  obtain ⟨hvalid', object', made', procrastinated', rfl⟩ := run_world h' hfine'
  have hsame : (setting l).nie = (setting l').nie := by
    rw [setting_nie, setting_nie, hnie]
  rw [world_of_not_installed hvalid hpresent, world_of_not_installed hvalid' hpresent', hsame]
  rfl

/-- The Internet Enabler alone, and with a package that comes and goes. -/
def alone : List (World ℕ × Event × ScriptAnswers) × World ℕ :=
  play 1 0 [] World.start [(.nieInstalled, fine)]

/-- The Internet Enabler, with a package that comes and goes. -/
def visited : List (World ℕ × Event × ScriptAnswers) × World ℕ :=
  play 1 0 [] World.start [(.nieInstalled, fine), (.packageInstalled, fine),
    (.packagesChanged, fine), (.packageRemoved, fine), (.procrastinatedCall, fine)]

/-- The package has come and gone. -/
theorem removed_without_trace_visited :
    { visited.2 with made := alone.2.made, procrastinated := alone.2.procrastinated } = alone.2 :=
  removed_without_trace 1 0 visited.1 alone.1 visited.2 alone.2
    (path_play _ .start ⟨rfl, rfl, trivial, rfl, rfl, trivial⟩) (by
      unfold Fine
      decide)
    (path_play _ .start ⟨rfl, trivial⟩) (by
      unfold Fine
      decide) rfl rfl rfl

end runs

end Installation

end NewtonTLS
