/-
# Reading from the front of a text

A reader takes a part from the front of a text and leaves the rest.  It is local if it does not
look behind what it leaves: unless it came to the end of the text, it reads the same in front of
any other text.

Nothing in this module is about a particular reader.
-/
import Mathlib.Data.List.Infix

namespace Reading

variable {α β γ : Type}

/-- A reader: what it has read, and the rest. -/
abbrev Reader (α β : Type) : Type := List α → Option (β × List α)

/-- A reader that takes from the front, and does not look behind what it leaves. -/
structure Local (r : Reader α β) : Prop where
  suffix : ∀ {s : List α} {x : β} {rest : List α}, r s = some (x, rest) → rest <:+ s
  append : ∀ {s : List α} {x : β} {rest : List α}, r s = some (x, rest) → rest ≠ [] →
    ∀ g, r (s ++ g) = some (x, rest ++ g)

/-- A reader that reads nothing. -/
theorem Local.value (a : Option β) : Local (α := α) fun s => a.map fun x => (x, s) := by
  constructor
  · intro s x rest h
    obtain ⟨y, -, hy⟩ := Option.map_eq_some_iff.mp h
    rw [Prod.mk.injEq] at hy
    rw [hy.2]
  · intro s x rest h _ g
    obtain ⟨y, rfl, hy⟩ := Option.map_eq_some_iff.mp h
    rw [Prod.mk.injEq] at hy
    rw [← hy.1, ← hy.2]
    rfl

/-- One reader after the other. -/
theorem Local.bind {r : Reader α β} {f : β → Reader α γ} (hr : Local r) (hf : ∀ x, Local (f x)) :
    Local fun s => (r s).bind fun y => f y.1 y.2 := by
  constructor
  · intro s z rest h
    obtain ⟨⟨x, mid⟩, hx, hz⟩ := Option.bind_eq_some_iff.mp h
    exact ((hf x).suffix hz).trans (hr.suffix hx)
  · intro s z rest h hrest g
    obtain ⟨⟨x, mid⟩, hx, hz⟩ := Option.bind_eq_some_iff.mp h
    -- something is left in between, for something is left in the end
    have hmid : mid ≠ [] := by
      rintro rfl
      exact hrest (List.suffix_nil.mp ((hf x).suffix hz))
    show (r (s ++ g)).bind _ = _
    rw [hr.append hx hmid g]
    exact (hf x).append hz hrest g

/-- A reader that looks at the next character: it takes it and reads on, or leaves it. -/
theorem Local.peek {r : Reader α β} (hnil : ∀ y, r [] = some y → y.2 = [])
    (hcons : ∀ c, Local (fun s => r (c :: s)) ∨
      ∃ a : Option β, ∀ s, r (c :: s) = a.map fun x => (x, c :: s)) : Local r := by
  constructor
  · intro s x rest h
    cases s with
    | nil => rw [show rest = [] from hnil _ h]
    | cons c s =>
      rcases hcons c with hc | ⟨a, ha⟩
      · exact (hc.suffix h).trans (List.suffix_cons c s)
      · rw [ha] at h
        exact (Local.value a).suffix h
  · intro s x rest h hrest g
    cases s with
    | nil => exact absurd (hnil _ h) hrest
    | cons c s =>
      rcases hcons c with hc | ⟨a, ha⟩
      · exact hc.append h hrest g
      · rw [ha] at h
        rw [List.cons_append, ha]
        exact (Local.value a).append h hrest g

/-- Readers that agree. -/
theorem Local.congr {r r' : Reader α β} (hr : Local r) (h : ∀ s, r' s = r s) : Local r' := by
  rw [show r' = r from funext h]
  exact hr

end Reading
