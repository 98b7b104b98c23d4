import Mathlib.Data.List.Infix

/-!
# A lock and who holds it

A mutex remembers at most one owner, and each thread is or is not at a point of its program
that lies between the lock and the release.  The two agree when every way out of the region
gives the lock back: then a free lock means that nobody is inside, and a lock that is taken
belongs to the one thread that is.

## Main definitions

* `Owned lock holds` — the lock is with `i` exactly when `i` is inside.
* `MutexStep` — what a step of the thread `i` does to the lock.

## Main results

* `Owned.unique`, `Owned.free_iff` — mutual exclusion, and what a free lock says.
* `Owned.change`, `Owned.drop` — the agreement is kept by a step, and by the drop of a thread.
-/

namespace Lts

variable {ι : Type*}

/-- The lock is with `i` exactly when `i` is inside. -/
def Owned (lock : Option ι) (holds : ι → Bool) : Prop := ∀ i, lock = some i ↔ holds i = true

/-- What a step of `i` does to the lock: nothing, or it takes the free lock, or it gives it
back. -/
inductive MutexStep (i : ι) (held held' : Bool) (lock lock' : Option ι) : Prop where
  | keep (hheld : held' = held) (hlock : lock' = lock)
  | take (hheld : held' = true) (hfree : lock = none) (hlock : lock' = some i)
  | give (hheld : held = true) (hheld' : held' = false) (hlock : lock' = none)

namespace Owned

variable {lock lock' : Option ι} {holds holds' : ι → Bool} {i j : ι}

/-- **Mutual exclusion**. -/
theorem unique (h : Owned lock holds) (hi : holds i = true) (hj : holds j = true) : i = j :=
  Option.some.inj (((h i).mpr hi).symm.trans ((h j).mpr hj))

theorem free_iff (h : Owned lock holds) : lock = none ↔ ∀ i, holds i = false := by
  constructor
  · intro hfree i
    by_contra hi
    have howner := (h i).mpr (by simpa using hi)
    rw [hfree] at howner
    cases howner
  · intro hnone
    cases hlock : lock with
    | none => rfl
    | some i =>
      have hi := (h i).mp hlock
      rw [hnone i] at hi
      cases hi

/-- Nothing moves. -/
theorem keep (h : Owned lock holds) (hlock : lock' = lock) (hholds : ∀ k, holds' k = holds k) :
    Owned lock' holds' := by
  intro k
  rw [hlock, hholds k]
  exact h k

/-- **A step of one thread keeps the agreement.** -/
theorem change (h : Owned lock holds) (hc : MutexStep i (holds i) (holds' i) lock lock')
    (hothers : ∀ k, k ≠ i → holds' k = holds k) : Owned lock' holds' := by
  rcases hc with ⟨hheld, hlock⟩ | ⟨hheld, hfree, hlock⟩ | ⟨hheld, hheld', hlock⟩
  · apply h.keep hlock
    intro k
    by_cases hk : k = i
    · rw [hk, hheld]
    · exact hothers k hk
  · have hnone := h.free_iff.mp hfree
    intro k
    rw [hlock]
    by_cases hk : k = i
    · rw [hk, hheld]
      exact ⟨fun _ => rfl, fun _ => rfl⟩
    · rw [hothers k hk, hnone k]
      exact ⟨fun he => absurd (Option.some.inj he).symm hk, fun he => by cases he⟩
  · intro k
    rw [hlock]
    refine ⟨fun he => (by cases he), fun hk => ?_⟩
    by_cases hki : k = i
    · rw [hki, hheld'] at hk
      cases hk
    · rw [hothers k hki] at hk
      exact absurd (h.unique hk hheld) hki

/-- A thread that is dropped gives the lock back if it has it. -/
theorem drop [DecidableEq ι] (h : Owned lock holds) (hi : holds' i = false)
    (hothers : ∀ k, k ≠ i → holds' k = holds k) :
    Owned (if lock = some i then none else lock) holds' := by
  by_cases hmine : lock = some i
  · rw [if_pos hmine]
    exact h.change (.give ((h i).mp hmine) hi rfl) hothers
  · rw [if_neg hmine]
    refine h.change (.keep ?_ rfl) hothers
    rw [hi, Bool.eq_false_iff.mpr fun hheld => hmine ((h i).mpr hheld)]

end Owned

end Lts
