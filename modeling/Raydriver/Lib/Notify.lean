import Mathlib.Data.List.Infix

/-!
# A wake-up object and the tasks that sleep on it

A `Notify` wakes tasks in two ways: `notifyWaiters` wakes each future created before the
call, and `notifyOne` leaves a permit, which one future can take.  A task that sleeps until
some condition holds creates its future first and looks at the condition afterwards; whoever
makes the condition true owes a call of `notifyWaiters`.

## Main definitions

* `Notify` — the calls of `notifyWaiters` so far, and the permit.
* `Notify.notified` — a new future, which remembers the calls before it.
* `Notify.woken` — it can complete.
* `Notify.Covers` — a future that nobody has woken misses the condition at most as long as
  somebody owes a call.

## Main results

* `Notify.Covers.sleep` — a task that finds the condition false is covered.
* `Notify.Covers.mono`, `Notify.Covers.notifyWaiters` — what others do keeps it so.
* `Notify.Covers.not_asleep` — **where nobody owes a call, no task sleeps though its condition
  holds.**
-/

namespace Lts

/-- A wake-up object. -/
structure Notify where
  /-- The calls of `notifyWaiters` so far. -/
  calls : ℕ := 0
  permit : Bool := false
  deriving DecidableEq, Repr, Inhabited

namespace Notify

/-- Wake every future created so far. -/
def notifyWaiters (n : Notify) : Notify := { n with calls := n.calls + 1 }

/-- Leave a permit. -/
def notifyOne (n : Notify) : Notify := { n with permit := true }

/-- A new future. -/
def notified (n : Notify) : ℕ := n.calls

/-- Nobody has called `notifyWaiters` since the future was created. -/
def Asleep (n : Notify) (created : ℕ) : Prop := created = n.calls

instance (n : Notify) (created : ℕ) : Decidable (n.Asleep created) :=
  inferInstanceAs (Decidable (created = n.calls))

/-- A future completes when it was woken, or takes the permit. -/
def woken (n : Notify) (created : ℕ) : Bool := !decide (n.Asleep created) || n.permit

/-- What a future that completes leaves: one that was woken leaves the permit to others. -/
def complete (created : ℕ) (n : Notify) : Notify :=
  if n.Asleep created then { n with permit := false } else n

variable {n : Notify} {owed owed' cond cond' : Prop} {created : ℕ}

@[simp] theorem calls_notifyOne : n.notifyOne.calls = n.calls := rfl

@[simp] theorem calls_notifyWaiters : n.notifyWaiters.calls = n.calls + 1 := rfl

@[simp] theorem calls_complete : (n.complete created).calls = n.calls := by
  unfold complete
  split <;> rfl

theorem woken_of_not_asleep (h : ¬n.Asleep created) : n.woken created = true := by
  unfold woken
  rw [decide_eq_false h]
  rfl

/-- The future was created before, and if the condition holds while it is asleep, then
somebody owes a call. -/
structure Covers (n : Notify) (owed cond : Prop) (created : ℕ) : Prop where
  before : created ≤ n.calls
  missed : n.Asleep created → cond → owed

namespace Covers

/-- A task that finds the condition false after it created its future can sleep. -/
theorem sleep (hc : created ≤ n.calls) (h : ¬cond) : n.Covers owed cond created :=
  ⟨hc, fun _ hcond => absurd hcond h⟩

/-- Others may make the condition true if they owe a call then, and may not forget one. -/
theorem mono {m : Notify} (h : n.Covers owed cond created) (hcalls : m.calls = n.calls)
    (hcond : cond' → cond ∨ owed') (howed : owed → owed') : m.Covers owed' cond' created := by
  refine ⟨hcalls ▸ h.before, fun hasleep hnow => ?_⟩
  rcases hcond hnow with hbefore | hnow
  · exact howed (h.missed (hasleep.trans hcalls) hbefore)
  · exact hnow

/-- A call of `notifyWaiters` leaves nobody asleep, so nothing is owed to the futures there
are. -/
theorem notifyWaiters (h : created ≤ n.calls) : n.notifyWaiters.Covers owed cond created := by
  refine ⟨Nat.le_succ_of_le h, fun hasleep => ?_⟩
  have hlater : created = n.calls + 1 := hasleep
  omega

/-- **Where nobody owes a call, no task sleeps though its condition holds.** -/
theorem not_asleep (h : n.Covers owed cond created) (howed : ¬owed) (hcond : cond) :
    ¬n.Asleep created :=
  fun hasleep => howed (h.missed hasleep hcond)

end Covers

end Notify

end Lts
