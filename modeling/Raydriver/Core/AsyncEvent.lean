import Raydriver.Lib.Notify
import Raydriver.Lib.Refinement

/-!
# The event that ends a wait

A request is answered, and a handshake is there, when an `AsyncEvent` is set.  It is a flag
under a mutex and a `Notify`: `set` stores the flag, wakes the calls of `wait` that sleep,
and leaves a permit; `wait` looks at the flag before and after it creates its future.  Each
of these is a step of its own, and calls of `set`, `clear` and `wait` run between any two of
them.

What the sessions rely on is less: a latch, at which a call waits until it is set.

## Main definitions

* `EventWait` — a call of `wait`, with the point it is at.
* `AsyncEvent`, `AsyncEvent.step` — the event, the calls on it, and their interleaving.
* `Latch`, `Latch.step` — the latch.
* `AsyncEvent.latch` — the event as a latch.

## Main results

* `simulation_latch` — the steps of the event are those of the latch.
* `step_covered` — one step keeps every sleeping call covered.
* `asyncEvent_is_latch` — **the event is a latch, and no call sleeps on it while it is set.**
-/

namespace Raydriver

open Lts

/-! ### The latch -/

/-- A call at the latch. -/
inductive LatchCall where
  | waiting
  | returned
  | dropped
  deriving DecidableEq, Repr, Inhabited

/-- A flag, and the calls that wait for it. -/
structure Latch where
  isSet : Bool := false
  calls : List LatchCall := []
  deriving DecidableEq, Repr, Inhabited

/-- What happens at a latch. -/
inductive LatchLabel where
  | set
  | clear
  | call
  /-- The call `i` returns. -/
  | return (i : ℕ)
  | drop (i : ℕ)
  deriving DecidableEq, Repr, Inhabited

/-- A call returns at a moment when the flag is set, and no call comes back. -/
def Latch.step : LatchLabel → Latch → Option Latch
  | .set, s => some { s with isSet := true }
  | .clear, s => some { s with isSet := false }
  | .call, s => some { s with calls := s.calls ++ [.waiting] }
  | .return i, s =>
    if s.isSet = true ∧ s.calls[i]? = some .waiting then
      some { s with calls := s.calls.set i .returned }
    else none
  | .drop i, s =>
    if s.calls[i]? = some .waiting then some { s with calls := s.calls.set i .dropped } else none

/-! ### The event -/

/-- The points a call of `wait` passes. -/
inductive EventWait where
  /-- The look at the flag at the head of the loop. -/
  | check
  | create
  /-- The second look, after the future was created. -/
  | recheck (created : ℕ)
  /-- `notified.await`. -/
  | parked (created : ℕ)
  | returned
  /-- The future of the call was dropped. -/
  | dropped
  deriving DecidableEq, Repr, Inhabited

/-- `wait`: the next step. -/
def EventWait.poll (isSet : Bool) (n : Notify) : EventWait → Option (EventWait × Notify)
  | .check => some (if isSet then .returned else .create, n)
  | .create => some (.recheck n.notified, n)
  | .recheck created => some (if isSet then .returned else .parked created, n)
  | .parked created => if n.woken created then some (.check, n.complete created) else none
  | .returned => none
  | .dropped => none

/-- The call has not returned. -/
def EventWait.call : EventWait → LatchCall
  | .returned => .returned
  | .dropped => .dropped
  | _ => .waiting

/-- What `set` does after it stored the flag. -/
inductive EventSignal where
  | notifyWaiters
  | notifyOne
  deriving DecidableEq, Repr, Inhabited

/-- The flag and the `Notify`, the calls of `wait`, and for each call of `set` under way the
signals it has still to send. -/
structure AsyncEvent where
  isSet : Bool := false
  notify : Notify := {}
  waits : List EventWait := []
  signals : List (List EventSignal) := []
  deriving DecidableEq, Repr, Inhabited

/-- Who moves. -/
inductive EventLabel where
  | set
  /-- The call `i` of `set` sends its next signal. -/
  | signal (i : ℕ)
  | clear
  | wait
  /-- The call `i` of `wait` takes its next step. -/
  | poll (i : ℕ)
  | drop (i : ℕ)
  deriving DecidableEq, Repr, Inhabited

namespace AsyncEvent

/-- A signal takes effect. -/
def deliver (s : AsyncEvent) : EventSignal → AsyncEvent
  | .notifyWaiters => { s with notify := s.notify.notifyWaiters }
  | .notifyOne => { s with notify := s.notify.notifyOne }

/-- One step of the interleaving. -/
def step : EventLabel → AsyncEvent → Option AsyncEvent
  | .set, s =>
    some { s with isSet := true, signals := s.signals ++ [[.notifyWaiters, .notifyOne]] }
  | .signal i, s =>
    match s.signals[i]? with
    | some (x :: rest) => some (({ s with signals := s.signals.set i rest }).deliver x)
    | _ => none
  | .clear, s => some { s with isSet := false }
  | .wait, s => some { s with waits := s.waits ++ [.check] }
  | .poll i, s => do
    let w ← s.waits[i]?
    let (w', n) ← w.poll s.isSet s.notify
    some { s with notify := n, waits := s.waits.set i w' }
  | .drop i, s =>
    if (s.waits[i]?).map EventWait.call = some .waiting then
      some { s with waits := s.waits.set i .dropped }
    else none

/-- No call of `set` is under way. -/
def Quiet (s : AsyncEvent) : Prop := ∀ p ∈ s.signals, p = []

instance : DecidablePred Quiet :=
  fun s => inferInstanceAs (Decidable (∀ p ∈ s.signals, p = []))

/-! ### The event is a latch -/

/-- The event as a latch. -/
def latch (s : AsyncEvent) : Latch := { isSet := s.isSet, calls := s.waits.map EventWait.call }

/-- What a step is at the latch: a look at the flag that finds it set is a return. -/
def observed (s : AsyncEvent) : EventLabel → Option LatchLabel
  | .set => some .set
  | .signal _ => none
  | .clear => some .clear
  | .wait => some .call
  | .poll i =>
    match s.waits[i]? with
    | some .check | some (.recheck _) => if s.isSet then some (.return i) else none
    | _ => none
  | .drop i => some (.drop i)

variable {s t : AsyncEvent} {l : EventLabel}

/-- A step that is not a return leaves the call waiting. -/
theorem map_set_of_call {ws : List EventWait} {i : ℕ} {w w' : EventWait} (hi : ws[i]? = some w)
    (hcall : w'.call = w.call) : (ws.set i w').map EventWait.call = ws.map EventWait.call := by
  apply List.ext_getElem?
  intro k
  rw [List.map_set, List.getElem?_set]
  split_ifs with hik hlt
  · subst hik
    rw [List.getElem?_map, hi, Option.map_some, hcall]
  · subst hik
    rw [List.length_map] at hlt
    rw [List.getElem?_eq_none (by rw [List.length_map]; omega)]
  · rfl

theorem simulation_latch :
    Simulation step AnyStep Latch.step (fun _ => True) latch observed where
  keeps _ _ _ _ _ _ := trivial
  stutter s l t _ hst _ hobs := by
    cases l with
    | set => cases hobs
    | clear => cases hobs
    | wait => cases hobs
    | drop i => cases hobs
    | signal i =>
      simp only [step] at hst
      split at hst
      case h_2 => cases hst
      case h_1 x rest hi =>
        cases hst
        cases x <;> rfl
    | poll i =>
      obtain ⟨w, hi, hst⟩ := Option.bind_eq_some_iff.mp hst
      obtain ⟨⟨w', n⟩, hpoll, hst⟩ := Option.bind_eq_some_iff.mp hst
      cases hst
      simp only [observed, hi] at hobs
      have hcall : w'.call = w.call := by
        cases w with
        | check | recheck =>
          have hset : s.isSet = false := by simpa using hobs
          simp only [EventWait.poll, hset, Option.some.injEq, Prod.mk.injEq] at hpoll
          rw [← hpoll.1]
          rfl
        | create =>
          cases hpoll
          rfl
        | parked created =>
          simp only [EventWait.poll] at hpoll
          split_ifs at hpoll
          cases hpoll
          rfl
        | returned => cases hpoll
        | dropped => cases hpoll
      simp only [latch, map_set_of_call hi hcall]
  move s l t k _ hst _ hobs := by
    cases l with
    | set =>
      cases hst
      cases hobs
      rfl
    | clear =>
      cases hst
      cases hobs
      rfl
    | signal i => cases hobs
    | wait =>
      cases hst
      cases hobs
      simp [Latch.step, latch, EventWait.call]
    | drop i =>
      simp only [step] at hst
      split_ifs at hst with hwaiting
      cases hst
      cases hobs
      simp only [Latch.step, latch, List.getElem?_map, hwaiting, if_true, List.map_set]
      rfl
    | poll i =>
      obtain ⟨w, hi, hst⟩ := Option.bind_eq_some_iff.mp hst
      obtain ⟨⟨w', n⟩, hpoll, hst⟩ := Option.bind_eq_some_iff.mp hst
      cases hst
      simp only [observed, hi] at hobs
      -- only the two looks at the flag are seen, and both find it set
      have hlook : s.isSet = true ∧ k = .return i ∧ w.call = .waiting ∧ w' = .returned := by
        cases w with
        | check | recheck =>
          dsimp only at hobs
          split_ifs at hobs with hset
          simp only [EventWait.poll, hset, if_true, Option.some.injEq, Prod.mk.injEq] at hpoll
          exact ⟨hset, (Option.some.inj hobs).symm, rfl, hpoll.1.symm⟩
        | _ => cases hobs
      obtain ⟨hset, rfl, hwaiting, rfl⟩ := hlook
      have henabled : s.isSet = true ∧ (s.waits.map EventWait.call)[i]? = some .waiting := by
        refine ⟨hset, ?_⟩
        rw [List.getElem?_map, hi, Option.map_some, hwaiting]
      simp only [latch, List.map_set]
      exact if_pos henabled

/-! ### No call sleeps while the event is set -/

/-- A call of `set` has still to wake the calls that sleep. -/
def Owes (s : AsyncEvent) : Prop := ∃ p ∈ s.signals, EventSignal.notifyWaiters ∈ p

/-- The call does not miss that the flag is set. -/
def Covered (s : AsyncEvent) : EventWait → Prop
  | .recheck created => created ≤ s.notify.calls
  | .parked created => s.notify.Covers s.Owes (s.isSet = true) created
  | _ => True

/-- No call of `notifyWaiters` is undone, whoever sets the flag owes one, and none is
forgotten. -/
structure Keeps (s t : AsyncEvent) : Prop where
  calls : t.notify.calls = s.notify.calls
  isSet : t.isSet = true → s.isSet = true ∨ t.Owes
  owes : s.Owes → t.Owes

/-- What others do keeps a call covered. -/
theorem Covered.kept {w : EventWait} (hw : s.Covered w) (h : Keeps s t) : t.Covered w := by
  cases w with
  | recheck created =>
    have hbefore : created ≤ s.notify.calls := hw
    have hcalls := h.calls
    show created ≤ t.notify.calls
    omega
  | parked created => exact Notify.Covers.mono hw h.calls h.isSet h.owes
  | _ => trivial

/-- A signal that is not the wake-up leaves what is owed. -/
theorem owes_of_notifyOne {i : ℕ} {rest : List EventSignal}
    (hi : s.signals[i]? = some (.notifyOne :: rest)) (h : s.Owes) :
    ∃ p ∈ s.signals.set i rest, EventSignal.notifyWaiters ∈ p := by
  obtain ⟨p, hp, hmem⟩ := h
  obtain ⟨k, hk⟩ := List.mem_iff_getElem?.mp hp
  by_cases hik : i = k
  · subst hik
    rw [hi] at hk
    cases hk
    have hrest : EventSignal.notifyWaiters ∈ rest := by simpa using hmem
    exact ⟨rest, List.mem_set (List.getElem?_eq_some_iff.mp hi).1 rest, hrest⟩
  · refine ⟨p, ?_, hmem⟩
    apply List.mem_iff_getElem?.mpr
    exact ⟨k, by rw [List.getElem?_set_ne hik, hk]⟩

/-- The calls there were stay covered when a signal takes effect. -/
theorem deliver_covered {i : ℕ} {x : EventSignal} {rest : List EventSignal}
    (hi : s.signals[i]? = some (x :: rest)) {w : EventWait} (h : s.Covered w) :
    (({ s with signals := s.signals.set i rest } : AsyncEvent).deliver x).Covered w := by
  cases x with
  | notifyWaiters =>
    -- everybody who sleeps is woken, whatever was owed to them
    cases w with
    | recheck created => exact Nat.le_succ_of_le h
    | parked created => exact Notify.Covers.notifyWaiters (Notify.Covers.before h)
    | _ => trivial
  | notifyOne =>
    exact h.kept ⟨rfl, .inl, owes_of_notifyOne hi⟩

/-- What a call leaves when it takes a step. -/
theorem poll_covered {w w' : EventWait} {n : Notify} (hw : s.Covered w)
    (h : w.poll s.isSet s.notify = some (w', n)) :
    n.calls = s.notify.calls ∧ s.Covered w' := by
  cases w with
  | check =>
    cases h
    cases s.isSet <;> exact ⟨rfl, trivial⟩
  | create =>
    cases h
    exact ⟨rfl, Nat.le_refl _⟩
  | recheck created =>
    cases h
    refine ⟨rfl, ?_⟩
    by_cases hset : s.isSet = true
    · rw [if_pos hset]
      trivial
    · rw [if_neg hset]
      -- the second look found the flag clear, and the future is older than the look
      exact .sleep hw hset
  | parked created =>
    simp only [EventWait.poll] at h
    split_ifs at h
    cases h
    exact ⟨Notify.calls_complete, trivial⟩
  | returned => cases h
  | dropped => cases h

/-- **One step keeps every call covered.** -/
theorem step_covered (hs : ∀ w ∈ s.waits, s.Covered w) (h : step l s = some t) :
    ∀ w ∈ t.waits, t.Covered w := by
  intro w hw
  cases l with
  | set =>
    cases h
    -- `set` queues its own signal for whoever waits already
    refine (hs w hw).kept ⟨rfl, ?_, ?_⟩
    · intro _
      exact .inr ⟨_, List.mem_append_right _ (List.mem_singleton.mpr rfl), by decide⟩
    · rintro ⟨p, hp, hmem⟩
      exact ⟨p, List.mem_append_left _ hp, hmem⟩
  | signal i =>
    simp only [step] at h
    split at h
    case h_2 => cases h
    case h_1 x rest hi =>
      cases h
      apply deliver_covered hi
      cases x <;> exact hs w hw
  | clear =>
    cases h
    refine (hs w hw).kept ⟨rfl, ?_, id⟩
    intro hset
    cases hset
  -- a new call is still to be polled
  | wait =>
    cases h
    rcases List.mem_append.mp hw with hw | hw
    · exact (hs w hw).kept ⟨rfl, .inl, id⟩
    · rw [List.mem_singleton.mp hw]
      trivial
  | poll i =>
    obtain ⟨v, hi, h⟩ := Option.bind_eq_some_iff.mp h
    obtain ⟨⟨v', n⟩, hpoll, h⟩ := Option.bind_eq_some_iff.mp h
    cases h
    obtain ⟨hcalls, hv'⟩ := poll_covered (hs v (List.mem_of_getElem? hi)) hpoll
    rcases List.mem_or_eq_of_mem_set hw with hw | hw
    · exact (hs w hw).kept ⟨hcalls, .inl, id⟩
    · rw [hw]
      exact hv'.kept ⟨hcalls, .inl, id⟩
  | drop i =>
    simp only [step] at h
    split_ifs at h
    cases h
    rcases List.mem_or_eq_of_mem_set hw with hw | hw
    · exact (hs w hw).kept ⟨rfl, .inl, id⟩
    · rw [hw]
      trivial

theorem run_covered (h : Run step AnyStep {} s) : ∀ w ∈ s.waits, s.Covered w := by
  apply h.invariant (I := fun s => ∀ w ∈ s.waits, s.Covered w)
  · intro a l b ha hst _
    exact step_covered ha hst
  · intro w hw
    exact absurd hw List.not_mem_nil

theorem Quiet.not_owes (h : s.Quiet) : ¬s.Owes := by
  rintro ⟨p, hp, hmem⟩
  rw [h p hp] at hmem
  cases hmem

/-- The call `i` looks at the flag, and finds it set. -/
theorem poll_returns {i : ℕ} {w : EventWait} (hi : s.waits[i]? = some w) (hset : s.isSet = true)
    (hw : w = .check ∨ ∃ created, w = .recheck created) :
    step (.poll i) s = some { s with waits := s.waits.set i .returned } := by
  have hpoll : w.poll s.isSet s.notify = some (.returned, s.notify) := by
    rcases hw with rfl | ⟨created, rfl⟩ <;> simp only [EventWait.poll, hset, if_true]
  simp only [step, hi, Option.bind_eq_bind, Option.bind_some, hpoll]

/-- A call that is not asleep returns in two steps, if it takes them while the flag is set. -/
theorem returns_of_set {i : ℕ} {w : EventWait} (hi : s.waits[i]? = some w)
    (hwaiting : w.call = .waiting) (hset : s.isSet = true)
    (hwoken : ∀ created, w = .parked created → s.notify.woken created = true) :
    ∃ ls t, (∀ l ∈ ls, l = .poll i) ∧ ls.length ≤ 2 ∧ exec step ls s = some t ∧
      t.waits[i]? = some .returned := by
  have hlt : i < s.waits.length := (List.getElem?_eq_some_iff.mp hi).1
  -- a call that is about to look at the flag returns at once
  have hlook : ∀ {u : AsyncEvent} {v : EventWait}, u.waits[i]? = some v → u.isSet = true →
      (v = .check ∨ ∃ created, v = .recheck created) → i < u.waits.length →
      ∃ t, step (.poll i) u = some t ∧ t.waits[i]? = some .returned := by
    intro u v hv hu hcase hlen
    exact ⟨_, poll_returns hv hu hcase, List.getElem?_set_self hlen⟩
  -- and any other one does so after one more step
  have htwo : ∀ {u : AsyncEvent} {v : EventWait}, step (.poll i) s = some u →
      u.waits = s.waits.set i v → u.isSet = true → (v = .check ∨ ∃ created, v = .recheck created) →
      ∃ ls t, (∀ l ∈ ls, l = .poll i) ∧ ls.length ≤ 2 ∧ exec step ls s = some t ∧
        t.waits[i]? = some .returned := by
    intro u v hstep hwaits hu hcase
    have hlen : i < u.waits.length := by
      rw [hwaits, List.length_set]
      exact hlt
    have hv : u.waits[i]? = some v := by
      rw [hwaits]
      exact List.getElem?_set_self hlt
    obtain ⟨t, ht, hreturned⟩ := hlook hv hu hcase hlen
    refine ⟨[.poll i, .poll i], t, by simp, by simp, ?_, hreturned⟩
    simp only [exec, hstep, ht, Option.bind_some]
  cases w with
  | check | recheck =>
    obtain ⟨t, ht, hreturned⟩ := hlook hi hset (by simp) hlt
    refine ⟨[.poll i], t, by simp, by simp, ?_, hreturned⟩
    simp only [exec, ht, Option.bind_some]
  | create =>
    refine htwo (v := .recheck s.notify.notified) (u := { s with waits := s.waits.set i _ }) ?_ rfl
      hset (.inr ⟨_, rfl⟩)
    simp only [step, hi, Option.bind_eq_bind, Option.bind_some, EventWait.poll]
  | parked created =>
    refine htwo (v := .check) (u := { s with
      notify := s.notify.complete created, waits := s.waits.set i .check }) ?_ rfl hset (.inl rfl)
    simp only [step, hi, Option.bind_eq_bind, Option.bind_some, EventWait.poll,
      hwoken created rfl, if_true]
  | returned => cases hwaiting
  | dropped => cases hwaiting

/-- **The event is a latch, and no call sleeps on it while it is set.**  Whatever the calls of
`set`, `clear` and `wait`, and however their steps interleave: the event goes through states of
a latch, at which a call of `wait` returns only while the flag is set; and in each state in
which the flag is set and no call of `set` is under way, each call of `wait` that was not
dropped returns with two of its own steps at most. -/
theorem asyncEvent_is_latch (s : AsyncEvent) (h : Run step AnyStep {} s) :
    Run Latch.step AnyStep {} s.latch ∧
      (s.isSet = true → s.Quiet → ∀ (i : ℕ) (w : EventWait), s.waits[i]? = some w →
        w.call = .waiting → ∃ ls t, (∀ l ∈ ls, l = .poll i) ∧ ls.length ≤ 2 ∧
          exec step ls s = some t ∧ t.waits[i]? = some .returned) := by
  refine ⟨simulation_latch.run h trivial, fun hset hquiet i w hi hwaiting => ?_⟩
  apply returns_of_set hi hwaiting hset
  rintro created rfl
  have hcovered : s.notify.Covers s.Owes (s.isSet = true) created :=
    run_covered h _ (List.mem_of_getElem? hi)
  exact Notify.woken_of_not_asleep (hcovered.not_asleep hquiet.not_owes hset)

/-- A call parks, and the event is set. -/
def parkThenSet : List EventLabel :=
  [.wait, .poll 0, .poll 0, .poll 0, .set, .signal 0, .signal 0]

/-- The call that parked returns. -/
theorem asyncEvent_is_latch_parked :
    ∃ ls t, (∀ l ∈ ls, l = .poll 0) ∧ ls.length ≤ 2 ∧
      exec step ls (reach step parkThenSet {}) = some t ∧ t.waits[0]? = some .returned :=
  (asyncEvent_is_latch _ (run_reach (by decide))).2 (by decide) (by decide) 0 (.parked 0)
    (by decide) rfl

end AsyncEvent

end Raydriver
