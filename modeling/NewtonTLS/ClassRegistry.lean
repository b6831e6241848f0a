/-
# Installing and removing the connection end

`InstallConnectionEnd` and `RemoveConnectionEnd` (`Protocol/PMbedTLS.cpp`) exchange the class
that is registered as `PInetToolCE`, and keep the original one in the name server.  Each is a
sequence of calls to the system, any of which may fail.  Neither takes back what it has done
when a later call fails: `kept_iff_orderly` says which failures the original class survives.
-/
import Mathlib.Data.Set.Basic

namespace NewtonTLS

namespace ClassRegistry

/-! ## The system -/

/-- An error of the system; 0 is `noErr`. -/
abbrev SystemErr : Type := ℤ

/-- The class registered under the implementation name `PInetToolCE`, and the class info stored
under the name of this module in the name server. -/
structure Registries (ClassInfo : Type) : Type where
  registered : Option ClassInfo
  named : Option ClassInfo
  deriving DecidableEq, Repr

/-- How the system answers the calls of one request.  `lookup` is an error other than
`kError_Not_Registered`, if `Lookup` fails; the others are 0 or an error, which leaves the
registries as they are. -/
structure Answers : Type where
  lookup : Option SystemErr
  unRegisterName : SystemErr
  deRegister : SystemErr
  registerName : SystemErr
  register : SystemErr
  deriving DecidableEq, Repr

/-- What a request returns: NIL, TRUE, an error, or an exception after a call on a NULL
pointer. -/
inductive Result : Type where
  | nilref
  | trueref
  | error (e : SystemErr)
  | nullPointer
  deriving DecidableEq, Repr

/-- The request reports that it failed. -/
def Result.failed : Result → Bool
  | .nilref => false
  | .trueref => false
  | .error _ => true
  | .nullPointer => true

variable {ClassInfo : Type} [DecidableEq ClassInfo]

/-- `Lookup` finds nothing under the name. -/
def notRegistered (a : Answers) (r : Registries ClassInfo) : Bool :=
  a.lookup.isNone && r.named.isNone

/-- The class info that `Lookup` has stored in `theResult`, which is NULL before. -/
def theResult (a : Answers) (r : Registries ClassInfo) : Option ClassInfo :=
  if a.lookup.isNone then r.named else none

/-! ## The requests -/

/-- `PMbedTLS::InstallConnectionEnd`; `own` is `PMbedTLSConnectionEnd::ClassInfo()`. -/
def installConnectionEnd (own : ClassInfo) (a : Answers) (r : Registries ClassInfo) :
    Result × Registries ClassInfo :=
  if notRegistered a r then
    match r.registered with
    | none => (.nilref, r)
    | some inetConnectionEndClassInfo =>
      if a.deRegister ≠ 0 then (.error a.deRegister, r)
      else
        let r := { r with registered := none }
        if a.registerName ≠ 0 then (.error a.registerName, r)
        else
          let r := { r with named := some inetConnectionEndClassInfo }
          if a.register ≠ 0 then (.error a.register, r)
          else (.trueref, { r with registered := some own })
  else (.nilref, r)

/-- `PMbedTLS::RemoveConnectionEnd`. -/
def removeConnectionEnd (own : ClassInfo) (a : Answers) (r : Registries ClassInfo) :
    Result × Registries ClassInfo :=
  if notRegistered a r then (.nilref, r)
  else
    let found := theResult a r
    let r := if a.unRegisterName = 0 then { r with named := none } else r
    if r.registered ≠ some own then (.error (-1), r)
    else if a.deRegister ≠ 0 then (.error a.deRegister, r)
    else
      let r := { r with registered := none }
      match found with
      | none => (.nullPointer, r)
      | some original =>
        if a.register ≠ 0 then (.error a.register, r)
        else (.trueref, { r with registered := some original })

/-! ## Runs -/

/-- A request. -/
inductive Request : Type where
  | installConnectionEnd
  | removeConnectionEnd
  deriving DecidableEq, Repr

/-- A request is carried out. -/
def Request.run (own : ClassInfo) (a : Answers) (r : Registries ClassInfo) :
    Request → Result × Registries ClassInfo
  | .installConnectionEnd => ClassRegistry.installConnectionEnd own a r
  | .removeConnectionEnd => ClassRegistry.removeConnectionEnd own a r

/-- The original class is registered, or recorded in the name server. -/
def Kept (original : ClassInfo) (r : Registries ClassInfo) : Prop :=
  r.registered = some original ∨ r.named = some original

/-- In every state of the run the original class is kept, and every request that reports an error
has left the registries as they were. -/
def KeptThroughout (own original : ClassInfo) :
    Registries ClassInfo → List (Request × Answers) → Prop
  | r, [] => Kept original r
  | r, (q, a) :: rest => Kept original r ∧
      ((q.run own a r).1.failed = true → (q.run own a r).2 = r) ∧
      KeptThroughout own original (q.run own a r).2 rest

/-! ## Which failures are harmless -/

/-- An installation that deregisters a class goes on to the end. -/
def installOrderly (a : Answers) (r : Registries ClassInfo) : Prop :=
  notRegistered a r = true → r.registered.isSome = true → a.deRegister = 0 →
    a.registerName = 0 ∧ a.register = 0

/-- A removal that takes the name away deregisters the class of this module, and one that
deregisters this class has found a class, which it registers. -/
def removeOrderly (own : ClassInfo) (a : Answers) (r : Registries ClassInfo) : Prop :=
  notRegistered a r = false →
    (r.named.isSome = true → a.unRegisterName = 0 → r.registered = some own ∧ a.deRegister = 0) ∧
    (r.registered = some own → a.deRegister = 0 → a.lookup = none ∧ a.register = 0)

/-- The failures of the request are harmless. -/
def Request.Orderly (own : ClassInfo) (a : Answers) (r : Registries ClassInfo) : Request → Prop
  | .installConnectionEnd => installOrderly a r
  | .removeConnectionEnd => removeOrderly own a r

/-- The failures of all requests of the run are harmless. -/
def OrderlyThroughout (own : ClassInfo) : Registries ClassInfo → List (Request × Answers) → Prop
  | _, [] => True
  | r, (q, a) :: rest => q.Orderly own a r ∧ OrderlyThroughout own (q.run own a r).2 rest

/-! ## Requests one by one -/

section requests

variable {own original : ClassInfo} {a : Answers} {r : Registries ClassInfo}

omit [DecidableEq ClassInfo] in
/-- With the original class kept and nothing under the name, it is the registered class. -/
theorem Kept.registered_of_named_none (h : Kept original r) (hnamed : r.named = none) :
    r.registered = some original := by
  rcases h with h | h
  · exact h
  · rw [hnamed] at h
    cases h

omit [DecidableEq ClassInfo] in
/-- An installation is harmless exactly when its failures are. -/
theorem install_iff (h : Kept original r) :
    (((installConnectionEnd own a r).1.failed = true → (installConnectionEnd own a r).2 = r) ∧
      Kept original (installConnectionEnd own a r).2) ↔ installOrderly a r := by
  unfold installConnectionEnd installOrderly
  by_cases habsent : notRegistered a r = true
  · have hnamed : r.named = none := by
      simp only [notRegistered, Bool.and_eq_true, Option.isNone_iff_eq_none] at habsent
      exact habsent.2
    have hreg := h.registered_of_named_none hnamed
    rw [if_pos habsent, hreg]
    by_cases hde : a.deRegister = 0
    · by_cases hname : a.registerName = 0
      · -- from here on each failure leaves what has been done so far
        by_cases hregister : a.register = 0
        · simp [habsent, hde, hname, hregister, Result.failed, Kept]
        · -- the name is taken, but no class is registered
          have hchanged : ({ registered := none, named := some original } : Registries ClassInfo)
              ≠ r := by
            intro heq
            rw [← heq] at hnamed
            cases hnamed
          simp [habsent, hde, hname, hregister, Result.failed, hchanged]
      · -- the class is deregistered and not recorded
        have hchanged : ({ r with registered := none } : Registries ClassInfo) ≠ r := by
          intro heq
          rw [← heq] at hreg
          cases hreg
        simp [habsent, hde, hname, Result.failed, hchanged]
    · simp [hde, Result.failed, h]
  · -- the class stays, and nothing has been done
    rw [if_neg habsent]
    simp [habsent, Result.failed, h]

/-- A removal is harmless exactly when its failures are. -/
theorem remove_iff (hown : own ≠ original) (h : Kept original r) :
    (((removeConnectionEnd own a r).1.failed = true → (removeConnectionEnd own a r).2 = r) ∧
      Kept original (removeConnectionEnd own a r).2) ↔ removeOrderly own a r := by
  unfold removeConnectionEnd removeOrderly
  by_cases habsent : notRegistered a r = true
  · rw [if_pos habsent]
    simp [habsent, Result.failed, h]
  · rw [if_neg habsent]
    have habsent' : notRegistered a r = false := by simpa using habsent
    -- what `UnRegisterName` leaves
    obtain ⟨r₁, hr₁⟩ : ∃ r₁, r₁ = if a.unRegisterName = 0 then { r with named := none } else r :=
      ⟨_, rfl⟩
    have hreg₁ : r₁.registered = r.registered := by
      rw [hr₁]
      split <;> rfl
    have hsame : r₁ = r ↔ (r.named.isSome = true → a.unRegisterName ≠ 0) := by
      rw [hr₁]
      by_cases hun : a.unRegisterName = 0
      · obtain ⟨registered, named⟩ := r
        cases named <;> simp [hun]
      · simp [hun]
    simp only [← hr₁, hreg₁, habsent', true_implies]
    by_cases hours : r.registered = some own
    · -- our class is there: it goes, and the original one comes back
      have hnamed : r.named = some original := by
        rcases h with h | h
        · rw [hours, Option.some.injEq] at h
          exact absurd h hown
        · exact h
      by_cases hde : a.deRegister = 0
      · have hchanged : ({ r₁ with registered := none } : Registries ClassInfo) ≠ r := by
          intro heq
          rw [← heq] at hours
          cases hours
        cases hlookup : a.lookup with
        | some e => simp [hours, hde, theResult, hlookup, Result.failed, hchanged]
        | none =>
          by_cases hregister : a.register = 0
          · simp [hours, hde, theResult, hlookup, hnamed, hregister, Result.failed, Kept]
          · simp [hours, hde, theResult, hlookup, hnamed, hregister, Result.failed, hchanged]
      · have hkept : r₁ = r → Kept original r₁ := fun heq => heq ▸ h
        simp only [hours, hde, Result.failed, ne_eq, not_true_eq_false, not_false_eq_true, if_true,
          if_false, hsame, true_implies, and_false, false_implies, implies_true, and_true]
        exact ⟨fun hboth => hboth.1, fun hkeep => ⟨hkeep, hkept (hsame.mpr hkeep)⟩⟩
    · -- it is not: the name is all that has changed
      have hkept : r₁ = r → Kept original r₁ := fun heq => heq ▸ h
      simp only [hours, Result.failed, ne_eq, not_false_eq_true, if_true, hsame, true_implies,
        false_and, false_implies, and_true]
      exact ⟨fun hboth => hboth.1, fun hkeep => ⟨hkeep, hkept (hsame.mpr hkeep)⟩⟩

/-- A request keeps the registry exactly when it is orderly. -/
theorem request_iff (hown : own ≠ original) (h : Kept original r) (q : Request) :
    (((q.run own a r).1.failed = true → (q.run own a r).2 = r) ∧ Kept original (q.run own a r).2) ↔
      q.Orderly own a r := by
  cases q with
  | installConnectionEnd => exact install_iff h
  | removeConnectionEnd => exact remove_iff hown h

end requests

/-! ## Whole runs -/

/-- A run keeps the original class if and only if its failures are harmless. -/
theorem keptThroughout_iff {own original : ClassInfo} (hown : own ≠ original)
    (run : List (Request × Answers)) :
    ∀ {r : Registries ClassInfo}, Kept original r →
      (KeptThroughout own original r run ↔ OrderlyThroughout own r run) := by
  induction run with
  | nil =>
    intro r h
    exact ⟨fun _ => trivial, fun _ => h⟩
  | cons event rest ih =>
    obtain ⟨q, a⟩ := event
    intro r h
    have hone := request_iff (a := a) hown h q
    constructor
    · rintro ⟨-, hsame, hrest⟩
      have hnext : Kept original (q.run own a r).2 := by
        cases rest with
        | nil => exact hrest
        | cons _ _ => exact hrest.1
      exact ⟨hone.mp ⟨hsame, hnext⟩, (ih hnext).mp hrest⟩
    · rintro ⟨horderly, hrest⟩
      obtain ⟨hsame, hnext⟩ := hone.mpr horderly
      exact ⟨h, hsame, (ih hnext).mpr hrest⟩

/-- **The original class is kept** through a run that starts with it registered and nothing under
the name, and errors change nothing, if and only if the failures of the run are harmless. -/
theorem kept_iff_orderly (own original : ClassInfo) (hown : own ≠ original)
    (run : List (Request × Answers)) :
    KeptThroughout own original ⟨some original, none⟩ run ↔
      OrderlyThroughout own ⟨some original, none⟩ run :=
  keptThroughout_iff hown run (.inl rfl)

/-- Nothing fails. -/
def noFailure : Answers := ⟨none, 0, 0, 0, 0⟩

/-- The class is installed, removed and installed again. -/
def roundTrip : List (Request × Answers) :=
  [(.installConnectionEnd, noFailure), (.removeConnectionEnd, noFailure),
    (.installConnectionEnd, noFailure)]

/-- A package is installed and removed, and the original class is back. -/
theorem kept_iff_orderly_roundTrip :
    (1 : ℕ) ≠ 0 ∧ KeptThroughout 1 0 ⟨some 0, none⟩ roundTrip := by
  refine ⟨by decide, (kept_iff_orderly 1 0 (by decide) roundTrip).mpr ?_⟩
  simp [roundTrip, OrderlyThroughout, Request.Orderly, Request.run, installOrderly, removeOrderly,
    ClassRegistry.installConnectionEnd, ClassRegistry.removeConnectionEnd, notRegistered,
    theResult, noFailure]

/-- When `RegisterName` fails, the class has been deregistered and is not recorded. -/
theorem not_kept : ¬ ∀ (own original : ℕ) (run : List (Request × Answers)), own ≠ original →
    KeptThroughout own original ⟨some original, none⟩ run := by
  intro hall
  obtain ⟨-, -, hkept⟩ := hall 1 0
    [(.installConnectionEnd, { noFailure with registerName := -10003 })] (by decide)
  rcases hkept with h | h
  · cases h
  · cases h

end ClassRegistry

end NewtonTLS
