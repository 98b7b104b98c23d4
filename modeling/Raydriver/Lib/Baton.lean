import Mathlib.Data.List.Infix

/-!
# A baton that is spent once

Several holders and the state they share pass one baton around until somebody spends it.
The places are described by what can be seen of them: a flag says whether the shared state
has the baton, a predicate says whether a given holder has it, and a counter goes up when it
is spent.

## Main definitions

* `Place` — where a baton can be.
* `Baton shared holds base count` — it is in exactly one place, and the counter has gone up
  from `base` when it has been spent.

## Main results

* `Baton.give`, `Baton.take`, `Baton.pay`, `Baton.close` — the baton changes hands.
* `Baton.spent` — when nobody has it, it has been spent, once.
-/

namespace Lts

variable {ι : Type*}

/-- Where the baton is. -/
inductive Place (ι : Type*) where
  | holder (i : ι)
  | shared
  | spent

/-- The baton is in one place, and the counter says whether it has been spent. -/
def Baton (shared : Bool) (holds : ι → Bool) (base count : ℕ) : Prop :=
  ∃ p : Place ι, (shared = true ↔ p = .shared) ∧ (∀ i, holds i = true ↔ p = .holder i) ∧
    (p = .spent → count = base + 1) ∧ (p ≠ .spent → count = base)

namespace Baton

variable {shared shared' : Bool} {holds holds' : ι → Bool} {base count count' : ℕ} {i : ι}

/-- A holder has the baton, and nothing has been spent. -/
theorem of_holder (hi : holds i = true) (hothers : ∀ k, k ≠ i → holds k = false) :
    Baton false holds base base := by
  refine ⟨.holder i, ⟨nofun, nofun⟩, fun k => ⟨fun hk => ?_, fun hk => ?_⟩, nofun, fun _ => rfl⟩
  · by_contra hne
    rw [hothers k fun hki => hne (by rw [hki])] at hk
    cases hk
  · cases hk
    exact hi

/-- Nothing moves. -/
theorem keep (h : Baton shared holds base count) (hs : shared' = shared)
    (hh : ∀ k, holds' k = holds k) (hc : count' = count) : Baton shared' holds' base count' := by
  obtain rfl : holds' = holds := funext hh
  rw [hs, hc]
  exact h

/-- Two holders are one. -/
theorem unique {k : ι} (h : Baton shared holds base count) (hi : holds i = true)
    (hk : holds k = true) : k = i := by
  obtain ⟨p, -, hh, -⟩ := h
  cases ((hh i).mp hi).symm.trans ((hh k).mp hk)
  rfl

/-- The shared state has it, so nobody else does. -/
theorem not_holds (h : Baton shared holds base count) (hs : shared = true) (i : ι) :
    holds i = false := by
  obtain ⟨p, hp, hh, -⟩ := h
  by_contra hi
  cases (hp.mp hs).symm.trans ((hh i).mp (by simpa using hi))

/-- A holder has it, so the shared state does not. -/
theorem not_shared (h : Baton shared holds base count) (hi : holds i = true) : shared = false := by
  by_contra hs
  rw [h.not_holds (by simpa using hs) i] at hi
  cases hi

/-- A holder gives the baton to the shared state. -/
theorem give (h : Baton shared holds base count) (hi : holds i = true) (hi' : holds' i = false)
    (hothers : ∀ k, k ≠ i → holds' k = holds k) : Baton true holds' base count := by
  have hnone : ∀ k, holds' k = false := by
    intro k
    by_cases hk : k = i
    · rw [hk]
      exact hi'
    · rw [hothers k hk]
      by_contra hkt
      exact hk (h.unique hi (by simpa using hkt))
  obtain ⟨p, -, hh, -, hc⟩ := h
  refine ⟨.shared, ⟨fun _ => rfl, fun _ => rfl⟩, fun k => ⟨fun hk => ?_, nofun⟩, nofun,
    fun _ => hc ?_⟩
  · rw [hnone k] at hk
    cases hk
  · rw [(hh i).mp hi]
    exact nofun

/-- The shared state gives the baton to a holder. -/
theorem take (h : Baton shared holds base count) (hs : shared = true) (hi' : holds' i = true)
    (hothers : ∀ k, k ≠ i → holds' k = holds k) : Baton false holds' base count := by
  have hnone := h.not_holds hs
  obtain ⟨p, hp, hh, -, hc⟩ := h
  have hcount : count = base := hc (by rw [hp.mp hs]; exact nofun)
  rw [hcount]
  exact of_holder hi' fun k hk => (hothers k hk).trans (hnone k)

/-- A holder spends the baton. -/
theorem pay (h : Baton shared holds base count) (hi : holds i = true) (hi' : holds' i = false)
    (hothers : ∀ k, k ≠ i → holds' k = holds k) : Baton false holds' base (count + 1) := by
  have hgiven := h.give hi hi' hothers
  have hnone := hgiven.not_holds rfl
  obtain ⟨p, hp, -, -, hc⟩ := hgiven
  have hcount : count = base := hc (by rw [hp.mp rfl]; exact nofun)
  refine ⟨.spent, ⟨nofun, nofun⟩, fun k => ⟨fun hk => ?_, nofun⟩, fun _ => by rw [hcount],
    fun hne => absurd rfl hne⟩
  rw [hnone k] at hk
  cases hk

/-- The shared state spends the baton. -/
theorem close (h : Baton shared holds base count) (hs : shared = true)
    (hh : ∀ k, holds' k = holds k) : Baton false holds' base (count + 1) := by
  have hnone := h.not_holds hs
  obtain ⟨p, hp, -, -, hc⟩ := h
  have hcount : count = base := hc (by rw [hp.mp hs]; exact nofun)
  refine ⟨.spent, ⟨nofun, nofun⟩, fun k => ⟨fun hk => ?_, nofun⟩, fun _ => by rw [hcount],
    fun hne => absurd rfl hne⟩
  rw [hh k, hnone k] at hk
  cases hk

/-- **When nobody has the baton, it has been spent, once.** -/
theorem spent (h : Baton shared holds base count) (hs : shared = false)
    (hh : ∀ k, holds k = false) : count = base + 1 := by
  obtain ⟨p, hp, hholds, hspent, -⟩ := h
  refine hspent ?_
  cases p with
  | holder i =>
    have hi := (hholds i).mpr rfl
    rw [hh i] at hi
    cases hi
  | shared =>
    rw [hp.mpr rfl] at hs
    cases hs
  | spent => rfl

end Baton

end Lts
