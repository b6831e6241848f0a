/-
# Splitting the stored entropy

`GetEntropyData` of `NTK Projects/mbedTLS.f`, what it returns beside what it leaves in
`prefs.entropy`.  Both copies of its last branch go to the end of the store, so that the
branch returns the whole store and keeps a part of it too.  Bytes are either handed out or kept
exactly when the store is handed out whole (`splits_iff`).
-/
import NewtonTLS.EntropyStream

namespace NewtonTLS

namespace EntropySplit

open EntropyStream

/-! ## Handed out or kept -/

/-- At most `count` bytes are returned, and with those that remain they are the bytes that were
stored. -/
def Splits (c : Collector) (entropy : List Byte) (count : ℕ) : Prop :=
  ∃ data, (c.getEntropyData count).1 = some data ∧ data.length ≤ count ∧
    data ++ (c.getEntropyData count).2.entropy.getD [] = stored c entropy count

/-- **Every byte is handed out or kept**, and not more than `count` are handed out, if and only if
the store is handed out whole: it has at most `count` bytes, the pending ones included. -/
theorem splits_iff (c : Collector) (entropy : List Byte) (count : ℕ)
    (h : c.entropy = some entropy) :
    Splits c entropy count ↔ entropy.length + c.penEntropy.length / 2 ≤ count := by
  unfold Splits
  rw [← Collector.length_stored_le_iff, Collector.getEntropyData_eq h, Collector.takeEntropy_eq]
  dsimp only
  constructor
  · rintro ⟨data, hdata, hlength, -⟩
    rwa [Option.some.inj hdata]
  · intro hwhole
    refine ⟨_, rfl, hwhole, ?_⟩
    rw [if_pos hwhole, Option.getD_none, List.append_nil]

/-- Two bytes in the store, three nibbles pending, and room for all. -/
theorem splits_iff_whole :
    ({ Collector.install (some [1, 2]) with penEntropy := [3, 4, 5] } : Collector).entropy =
        some [1, 2] ∧
      Splits { Collector.install (some [1, 2]) with penEntropy := [3, 4, 5] } [1, 2] 3 :=
  ⟨rfl, (splits_iff _ _ _ rfl).mpr (by decide)⟩

/-- One of two bytes is asked for: both are returned, and the second one remains. -/
theorem not_splits : ¬ ∀ (c : Collector) (entropy : List Byte) (count : ℕ),
    c.entropy = some entropy → Splits c entropy count := by
  intro hall
  obtain ⟨data, hdata, hlength, -⟩ := hall (.install (some [1, 2])) [1, 2] 1 rfl
  rw [Collector.getEntropyData_eq rfl, Collector.takeEntropy_eq] at hdata
  rw [← Option.some.inj hdata] at hlength
  exact absurd hlength (by decide)

end EntropySplit

end NewtonTLS
