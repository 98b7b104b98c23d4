import Raydriver.Grbl.Accounting
import Raydriver.Lib.Notify
import Raydriver.Lib.Run

/-!
# The tasks that wait on the flow control

`wait_for_space` and `wait_pending_empty` look at the accounting, create a `Notified`, look
again, and sleep.  Each of these is a step of its own here, and the operations that free
space run between any two of them; so do the signals an operation sends one by one.

## Main definitions

* `Waiter` — a call of `wait_for_space` or `wait_pending_empty`, with the point it is at.
* `spacePoll`, `emptyPoll` — the next step of a call.
* `FlowTasks` — the flow control, the calls on it and the operations still sending signals.
* `FlowTasks.step` — the interleaving.
* `FlowTasks.Quiet` — no parse result is unflushed and no operation is under way.

## Main results

* `parseIncoming_marks` — space that a chunk frees is marked for the flush.
* `step_covered` — one step keeps every sleeping call covered.
* `no_waiter_sleeps` — **no call sleeps on what it waits for**, and `wait_for_space` returns
  `Ok` only when its bytes fit.
-/

namespace Raydriver

open Lts FlowInner

/-! ### One call -/

/-- The points a call of `wait_for_space` or `wait_pending_empty` passes. -/
inductive WaitPoint where
  /-- The condition of the loop. -/
  | check
  /-- The deadline, in `wait_for_space` before the future is created. -/
  | deadline
  | create
  /-- The second look, after the future was created. -/
  | recheck (created : ℕ)
  /-- The deadline, in `wait_pending_empty` after the second look. -/
  | deadlineWith (created : ℕ)
  /-- The `select!`. -/
  | parked (created : ℕ)
  | returned (ok : Bool)
  /-- The future of the call was dropped. -/
  | dropped
  deriving DecidableEq, Repr, Inhabited

/-- `wait_for_space(needed)`: the next step.  `elapsed` says that the deadline has passed,
and at the `select!` that its second branch runs. -/
def spacePoll (needed : ℕ) (elapsed : Bool) (f : FlowInner) (n : Notify) :
    WaitPoint → Option (WaitPoint × Notify)
  | .check => some (if f.needsSpace needed then .deadline else .returned true, n)
  | .deadline => some (if elapsed then .returned false else .create, n)
  | .create => some (.recheck n.notified, n)
  | .recheck created => some (if f.needsSpace needed then .parked created else .returned true, n)
  | .parked created =>
    if elapsed then some (.returned (!f.needsSpace needed), n)
    else if n.woken created then some (.check, n.complete created)
    else none
  | _ => none

/-- `wait_pending_empty(timeout)`: the next step; `timed` says that there is a timeout. -/
def emptyPoll (timed elapsed : Bool) (f : FlowInner) (n : Notify) :
    WaitPoint → Option (WaitPoint × Notify)
  | .check => some (if f.pending.isEmpty then .returned true else .create, n)
  | .create => some (.recheck n.notified, n)
  | .recheck created =>
    if f.pending.isEmpty then some (.returned true, n)
    else if timed then some (.deadlineWith created, n)
    else some (.parked created, n)
  | .deadlineWith created =>
    some (if elapsed && !f.pending.isEmpty then .returned false else .parked created, n)
  | .parked created =>
    if elapsed then if timed then some (.returned f.pending.isEmpty, n) else none
    else if n.woken created then some (.check, n.complete created)
    else none
  | _ => none

/-- A call, and the point it is at. -/
inductive Waiter where
  | space (needed : ℕ) (p : WaitPoint)
  | empty (timed : Bool) (p : WaitPoint)
  deriving DecidableEq, Repr, Inhabited

/-- A call is dropped at the point it is at. -/
def Waiter.drop : Waiter → Waiter
  | .space needed _ => .space needed .dropped
  | .empty timed _ => .empty timed .dropped

/-! ### The interleaving -/

/-- What an operation does after its critical section. -/
inductive Signal where
  | spaceWaiters
  | spaceOne
  | drainedWaiters
  | drainedOne
  /-- The end of `reset`. -/
  | clearBuffer
  deriving DecidableEq, Repr, Inhabited

/-- `signal_space_available`. -/
def signalSpaceAvailable : List Signal := [.spaceWaiters, .spaceOne]

/-- `notify_drained`. -/
def notifyDrained : List Signal := [.drainedWaiters, .drainedOne]

/-- The flow control, the calls waiting on it, and for each operation under way the signals
it has still to send. -/
structure FlowTasks where
  flow : FlowInner
  spaceAvailable : Notify := {}
  pendingDrained : Notify := {}
  waiters : List Waiter := []
  signals : List (List Signal) := []
  deriving DecidableEq, Repr, Inhabited

namespace FlowTasks

/-- A signal takes effect. -/
def deliver (s : FlowTasks) : Signal → FlowTasks
  | .spaceWaiters => { s with spaceAvailable := s.spaceAvailable.notifyWaiters }
  | .spaceOne => { s with spaceAvailable := s.spaceAvailable.notifyOne }
  | .drainedWaiters => { s with pendingDrained := s.pendingDrained.notifyWaiters }
  | .drainedOne => { s with pendingDrained := s.pendingDrained.notifyOne }
  | .clearBuffer => { s with flow := s.flow.withBuffer [] }

/-- The next step of a waiting call. -/
def poll (elapsed : Bool) (s : FlowTasks) : Waiter → Option (Waiter × FlowTasks)
  | .space needed p =>
    (spacePoll needed elapsed s.flow s.spaceAvailable p).map fun (q, n) =>
      (.space needed q, { s with spaceAvailable := n })
  | .empty timed p =>
    (emptyPoll timed elapsed s.flow s.pendingDrained p).map fun (q, n) =>
      (.empty timed q, { s with pendingDrained := n })

/-- Who moves. -/
inductive Label where
  | trackCommand (length : ℕ) (opIndex : Option ℤ) (command : Text)
  | parseIncoming (data : Bytes)
  | flushNotifications
  | resetFlowControl
  | reset
  | signalSpaceAvailable
  /-- The operation `i` sends its next signal. -/
  | signal (i : ℕ)
  | waitForSpace (needed : ℕ)
  | waitPendingEmpty (timed : Bool)
  /-- The call `i` takes its next step. -/
  | poll (i : ℕ) (elapsed : Bool)
  | drop (i : ℕ)
  deriving DecidableEq, Repr, Inhabited

/-- One step of the interleaving. -/
def step : Label → FlowTasks → Option FlowTasks
  | .trackCommand length opIndex command, s =>
    some { s with flow := s.flow.trackCommand length opIndex command }
  | .parseIncoming data, s => some { s with flow := (s.flow.parseIncoming data).1 }
  | .flushNotifications, s =>
    let (f, space, drained) := s.flow.flushNotifications
    some { s with
      flow := f
      signals := s.signals ++ [(if space then Raydriver.signalSpaceAvailable else []) ++
        (if drained then notifyDrained else [])] }
  | .resetFlowControl, s =>
    some { s with
      flow := s.flow.resetFlowControl
      signals := s.signals ++ [notifyDrained ++ Raydriver.signalSpaceAvailable] }
  | .reset, s =>
    some { s with
      flow := s.flow.resetFlowControl
      signals := s.signals ++
        [notifyDrained ++ Raydriver.signalSpaceAvailable ++ [.clearBuffer]] }
  | .signalSpaceAvailable, s =>
    some { s with signals := s.signals ++ [Raydriver.signalSpaceAvailable] }
  | .signal i, s =>
    match s.signals[i]? with
    | some (x :: rest) => some (({ s with signals := s.signals.set i rest }).deliver x)
    | _ => none
  | .waitForSpace needed, s => some { s with waiters := s.waiters ++ [.space needed .check] }
  | .waitPendingEmpty timed, s => some { s with waiters := s.waiters ++ [.empty timed .check] }
  | .poll i elapsed, s => do
    let w ← s.waiters[i]?
    let (w', t) ← s.poll elapsed w
    some { t with waiters := t.waiters.set i w' }
  | .drop i, s => do
    let w ← s.waiters[i]?
    some { s with waiters := s.waiters.set i w.drop }

/-- No parse result is unflushed and no operation is under way. -/
structure Quiet (s : FlowTasks) : Prop where
  acked : s.flow.ackedSinceFlush = false
  drained : s.flow.drainedSinceFlush = false
  signals : ∀ p ∈ s.signals, p = []

end FlowTasks

/-! ### What a chunk frees -/

/-- Space freed and a queue emptied are marked for the next flush. -/
structure Marks (f g : FlowInner) : Prop where
  rxSize : g.rxSize = f.rxSize
  space : g.rxCount = f.rxCount ∨ g.ackedSinceFlush = true
  pending : f.pending ≠ [] → g.pending = [] → g.drainedSinceFlush = true
  acked : f.ackedSinceFlush = true → g.ackedSinceFlush = true
  drained : f.drainedSinceFlush = true → g.drainedSinceFlush = true

namespace Marks

variable {f g h : FlowInner}

theorem trans (hfg : Marks f g) (hgh : Marks g h) : Marks f h where
  rxSize := hgh.rxSize.trans hfg.rxSize
  space := by
    rcases hgh.space with hcount | hacked
    · rcases hfg.space with hcount' | hacked
      · exact .inl (hcount.trans hcount')
      · exact .inr (hgh.acked hacked)
    · exact .inr hacked
  pending hf hh := by
    by_cases hg : g.pending = []
    · exact hgh.drained (hfg.pending hf hg)
    · exact hgh.pending hg hh
  acked hf := hgh.acked (hfg.acked hf)
  drained hf := hgh.drained (hfg.drained hf)

/-- An acknowledgement marks what it frees. -/
theorem acknowledge (r : GrblResponseType) (t : Text) (f : FlowInner) :
    Marks f (f.acknowledge r t).1 := by
  obtain ⟨count, size, buffer, pending, acked, drained⟩ := f
  cases pending with
  | nil => exact ⟨rfl, .inr rfl, fun hf => absurd rfl hf, fun _ => rfl, fun hd => by
      simp [FlowInner.acknowledge, ackOkLocked]⟩
  | cons p ps =>
    refine ⟨rfl, .inr rfl, fun _ hps => ?_, fun _ => rfl, fun hd => ?_⟩
    · have hnil : ps = [] := hps
      simp [FlowInner.acknowledge, ackOkLocked, hnil]
    · have hdrained : drained = true := hd
      simp [FlowInner.acknowledge, ackOkLocked, hdrained]

/-- A call with room for its bytes behind the chunk had it before, or the chunk is marked. -/
theorem needsSpace (h : Marks f g) {needed : ℕ} (hg : g.needsSpace needed = false) :
    f.needsSpace needed = false ∨ g.ackedSinceFlush = true := by
  rcases h.space with hcount | hacked
  · left
    rw [← hg]
    unfold FlowInner.needsSpace rxBufferSize
    rw [hcount, h.rxSize]
  · exact .inr hacked

/-- A queue that is empty behind the chunk was so before, or the chunk is marked. -/
theorem isEmpty (h : Marks f g) (hg : g.pending.isEmpty = true) :
    f.pending.isEmpty = true ∨ g.drainedSinceFlush = true := by
  by_cases hf : f.pending = []
  · exact .inl (List.isEmpty_iff.mpr hf)
  · exact .inr (h.pending hf (List.isEmpty_iff.mp hg))

end Marks

theorem Trace.marks {f g : FlowInner} {es : List Extracted} (h : Trace f es g) : Marks f g := by
  induction h with
  | refl => exact ⟨rfl, .inl rfl, fun hf hg => absurd hg hf, id, id⟩
  | buffer b _ ih => exact ⟨ih.rxSize, ih.space, ih.pending, ih.acked, ih.drained⟩
  | ack hr t _ ih => exact (Marks.acknowledge _ t _).trans ih
  | line t _ ih => exact ih

/-- **Space that a chunk frees is marked for the flush.** -/
theorem parseIncoming_marks (data : Bytes) (f : FlowInner) :
    Marks f (f.parseIncoming data).1 := by
  rw [parseIncoming_eq]
  exact (parseExtracted_trace data f).marks

/-! ### Covered calls -/

namespace FlowTasks

/-- Somebody has still to wake the calls that wait for space. -/
def OwesSpace (s : FlowTasks) : Prop :=
  s.flow.ackedSinceFlush = true ∨ ∃ p ∈ s.signals, Signal.spaceWaiters ∈ p

/-- Somebody has still to wake the calls that wait for the queue to drain. -/
def OwesDrained (s : FlowTasks) : Prop :=
  s.flow.drainedSinceFlush = true ∨ ∃ p ∈ s.signals, Signal.drainedWaiters ∈ p

/-- A future of `space_available` does not miss that `needed` bytes fit. -/
def CoversSpace (s : FlowTasks) (needed created : ℕ) : Prop :=
  s.spaceAvailable.Covers s.OwesSpace (s.flow.needsSpace needed = false) created

/-- A future of `pending_drained` does not miss that the queue is empty. -/
def CoversDrained (s : FlowTasks) (created : ℕ) : Prop :=
  s.pendingDrained.Covers s.OwesDrained (s.flow.pending.isEmpty = true) created

/-- The call at its point does not miss what it waits for. -/
def Covered (s : FlowTasks) : Waiter → Prop
  | .space _ (.recheck created) => created ≤ s.spaceAvailable.calls
  | .space needed (.parked created) => s.CoversSpace needed created
  | .empty _ (.recheck created) => created ≤ s.pendingDrained.calls
  | .empty _ (.deadlineWith created) => s.CoversDrained created
  | .empty _ (.parked created) => s.CoversDrained created
  | _ => True

/-- From `s` to `t` no future misses anything. -/
structure Keeps (s t : FlowTasks) : Prop where
  spaceCalls : s.spaceAvailable.calls ≤ t.spaceAvailable.calls
  drainedCalls : s.pendingDrained.calls ≤ t.pendingDrained.calls
  space : ∀ needed created, s.CoversSpace needed created → t.CoversSpace needed created
  drained : ∀ created, s.CoversDrained created → t.CoversDrained created

variable {s t : FlowTasks}

theorem Keeps.covered (h : Keeps s t) {w : Waiter} (hw : s.Covered w) : t.Covered w := by
  cases w with
  | space needed p =>
    cases p
    case recheck created => exact Nat.le_trans hw h.spaceCalls
    case parked created => exact h.space needed created hw
    all_goals trivial
  | empty timed p =>
    cases p
    case recheck created => exact Nat.le_trans hw h.drainedCalls
    case deadlineWith created => exact h.drained created hw
    case parked created => exact h.drained created hw
    all_goals trivial

/-- The calls there were are covered still. -/
theorem Keeps.all (hs : ∀ w ∈ s.waiters, s.Covered w) (ht : t.waiters = s.waiters)
    (h : Keeps s t) : ∀ w ∈ t.waiters, t.Covered w :=
  fun w hw => h.covered (hs w (ht ▸ hw))

/-- What frees space or empties the queue owes a signal for it, and none is forgotten. -/
theorem Keeps.of_owes (hspace : t.spaceAvailable.calls = s.spaceAvailable.calls)
    (hdrained : t.pendingDrained.calls = s.pendingDrained.calls)
    (hfits : ∀ needed, t.flow.needsSpace needed = false →
      s.flow.needsSpace needed = false ∨ t.OwesSpace)
    (hempty : t.flow.pending.isEmpty = true → s.flow.pending.isEmpty = true ∨ t.OwesDrained)
    (howesSpace : s.OwesSpace → t.OwesSpace) (howesDrained : s.OwesDrained → t.OwesDrained) :
    Keeps s t where
  spaceCalls := hspace.ge
  drainedCalls := hdrained.ge
  space _ _ h := h.mono hspace (hfits _) howesSpace
  drained _ h := h.mono hdrained hempty howesDrained

/-- Where the accounting stays as it is. -/
theorem Keeps.of_flow (hspace : t.spaceAvailable.calls = s.spaceAvailable.calls)
    (hdrained : t.pendingDrained.calls = s.pendingDrained.calls)
    (hcount : t.flow.rxCount = s.flow.rxCount) (hsize : t.flow.rxSize = s.flow.rxSize)
    (hpending : t.flow.pending = s.flow.pending)
    (howesSpace : s.OwesSpace → t.OwesSpace) (howesDrained : s.OwesDrained → t.OwesDrained) :
    Keeps s t := by
  refine .of_owes hspace hdrained (fun needed hfits => .inl ?_) (fun hempty => .inl ?_)
    howesSpace howesDrained
  · rw [← hfits]
    unfold needsSpace rxBufferSize
    rw [hcount, hsize]
  · rw [← hempty, hpending]

/-- A signal at the head of what an operation has to send is not any other one. -/
theorem mem_signals_set {signals : List (List Signal)} {i : ℕ} {x y : Signal}
    {rest : List Signal} (hi : signals[i]? = some (x :: rest)) (hne : y ≠ x)
    (h : ∃ p ∈ signals, y ∈ p) : ∃ p ∈ signals.set i rest, y ∈ p := by
  obtain ⟨p, hp, hy⟩ := h
  obtain ⟨k, hk, rfl⟩ := List.mem_iff_getElem.mp hp
  have hilt : i < signals.length := (List.getElem?_eq_some_iff.mp hi).1
  by_cases hik : i = k
  · subst hik
    rw [List.getElem?_eq_getElem hk] at hi
    rw [Option.some.inj hi] at hy
    rcases List.mem_cons.mp hy with hy | hy
    · exact absurd hy hne
    · exact ⟨rest, List.mem_set hilt rest, hy⟩
  · refine ⟨signals[k], List.mem_iff_getElem.mpr ⟨k, by rwa [List.length_set], ?_⟩, hy⟩
    rw [List.getElem_set_ne hik]

/-- An operation that sends more signals forgets none. -/
theorem owesSpace_append {p : List Signal} (ht : t.signals = s.signals ++ [p])
    (hacked : s.flow.ackedSinceFlush = true →
      t.flow.ackedSinceFlush = true ∨ Signal.spaceWaiters ∈ p) :
    s.OwesSpace → t.OwesSpace := by
  rintro (h | ⟨q, hq, hmem⟩)
  · rcases hacked h with h | h
    · exact .inl h
    · exact .inr ⟨p, by rw [ht]; simp, h⟩
  · exact .inr ⟨q, by rw [ht]; exact List.mem_append_left _ hq, hmem⟩

theorem owesDrained_append {p : List Signal} (ht : t.signals = s.signals ++ [p])
    (hdrained : s.flow.drainedSinceFlush = true →
      t.flow.drainedSinceFlush = true ∨ Signal.drainedWaiters ∈ p) :
    s.OwesDrained → t.OwesDrained := by
  rintro (h | ⟨q, hq, hmem⟩)
  · rcases hdrained h with h | h
    · exact .inl h
    · exact .inr ⟨p, by rw [ht]; simp, h⟩
  · exact .inr ⟨q, by rw [ht]; exact List.mem_append_left _ hq, hmem⟩

/-- **A signal that is sent wakes whom it owed to wake.** -/
theorem deliver_keeps {i : ℕ} {x : Signal} {rest : List Signal}
    (hi : s.signals[i]? = some (x :: rest)) :
    Keeps s (({ s with signals := s.signals.set i rest }).deliver x) := by
  have hspace : x ≠ .spaceWaiters → s.OwesSpace →
      (({ s with signals := s.signals.set i rest }).deliver x).OwesSpace := by
    rintro hx (h | h)
    · exact .inl (by cases x <;> exact h)
    · exact .inr (by cases x <;> exact mem_signals_set hi (Ne.symm hx) h)
  have hdrained : x ≠ .drainedWaiters → s.OwesDrained →
      (({ s with signals := s.signals.set i rest }).deliver x).OwesDrained := by
    rintro hx (h | h)
    · exact .inl (by cases x <;> exact h)
    · exact .inr (by cases x <;> exact mem_signals_set hi (Ne.symm hx) h)
  cases x with
  | spaceWaiters =>
    exact ⟨Nat.le_succ _, Nat.le_refl _, fun _ _ h => .notifyWaiters h.before,
      fun _ h => h.mono rfl .inl (hdrained nofun)⟩
  | drainedWaiters =>
    exact ⟨Nat.le_refl _, Nat.le_succ _, fun _ _ h => h.mono rfl .inl (hspace nofun),
      fun _ h => .notifyWaiters h.before⟩
  | spaceOne => exact .of_flow rfl rfl rfl rfl rfl (hspace nofun) (hdrained nofun)
  | drainedOne => exact .of_flow rfl rfl rfl rfl rfl (hspace nofun) (hdrained nofun)
  | clearBuffer => exact .of_flow rfl rfl rfl rfl rfl (hspace nofun) (hdrained nofun)

/-! ### The steps of a call -/

theorem poll_keeps {elapsed : Bool} {w w' : Waiter} (h : s.poll elapsed w = some (w', t)) :
    Keeps s t ∧ t.waiters = s.waiters := by
  cases w with
  | space needed p =>
    obtain ⟨⟨q, n⟩, hq, hst⟩ := Option.map_eq_some_iff.mp h
    cases hst
    refine ⟨.of_flow ?_ rfl rfl rfl rfl id id, rfl⟩
    cases p <;> simp only [spacePoll] at hq <;> (try split_ifs at hq) <;> cases hq <;> simp
  | empty timed p =>
    obtain ⟨⟨q, n⟩, hq, hst⟩ := Option.map_eq_some_iff.mp h
    cases hst
    refine ⟨.of_flow rfl ?_ rfl rfl rfl id id, rfl⟩
    cases p <;> simp only [emptyPoll] at hq <;> (try split_ifs at hq) <;> cases hq <;> simp

/-- A call goes to sleep only on a future it created before it looked the last time. -/
theorem spacePoll_covered {needed : ℕ} {elapsed : Bool} {p q : WaitPoint} {n : Notify}
    (hp : s.Covered (.space needed p))
    (h : spacePoll needed elapsed s.flow s.spaceAvailable p = some (q, n)) :
    ({ s with spaceAvailable := n } : FlowTasks).Covered (.space needed q) := by
  cases p with
  | check =>
    cases h
    cases s.flow.needsSpace needed <;> trivial
  | deadline =>
    cases h
    cases elapsed <;> trivial
  | create =>
    cases h
    exact Nat.le_refl _
  | recheck created =>
    cases h
    by_cases hneeds : s.flow.needsSpace needed = true
    · rw [if_pos hneeds]
      -- the second look found no space, and the future is older than the look
      exact .sleep hp (by simpa using hneeds)
    · rw [if_neg hneeds]
      trivial
  | parked created =>
    simp only [spacePoll] at h
    split_ifs at h
    · cases h
      trivial
    · cases h
      trivial
  | deadlineWith created => cases h
  | returned ok => cases h
  | dropped => cases h

theorem emptyPoll_covered {timed elapsed : Bool} {p q : WaitPoint} {n : Notify}
    (hp : s.Covered (.empty timed p))
    (h : emptyPoll timed elapsed s.flow s.pendingDrained p = some (q, n)) :
    ({ s with pendingDrained := n } : FlowTasks).Covered (.empty timed q) := by
  cases p with
  | check =>
    cases h
    cases s.flow.pending.isEmpty <;> trivial
  | create =>
    cases h
    exact Nat.le_refl _
  | recheck created =>
    simp only [emptyPoll] at h
    split_ifs at h with hempty htimed
    · cases h
      trivial
    · cases h
      exact .sleep hp hempty
    · cases h
      exact .sleep hp hempty
  | deadlineWith created =>
    cases h
    cases hret : elapsed && !s.flow.pending.isEmpty with
    | false => exact hp
    | true => trivial
  | parked created =>
    simp only [emptyPoll] at h
    split_ifs at h
    · cases h
      trivial
    · cases h
      trivial
  | deadline => cases h
  | returned ok => cases h
  | dropped => cases h

theorem poll_covered {elapsed : Bool} {w w' : Waiter} (hw : s.Covered w)
    (h : s.poll elapsed w = some (w', t)) : t.Covered w' := by
  cases w with
  | space needed p =>
    obtain ⟨⟨q, n⟩, hq, hst⟩ := Option.map_eq_some_iff.mp h
    cases hst
    exact spacePoll_covered hw hq
  | empty timed p =>
    obtain ⟨⟨q, n⟩, hq, hst⟩ := Option.map_eq_some_iff.mp h
    cases hst
    exact emptyPoll_covered hw hq

/-! ### The interleaving keeps every call covered -/

/-- **One step keeps every call covered.** -/
theorem step_covered {l : Label} (hs : ∀ w ∈ s.waiters, s.Covered w) (h : step l s = some t) :
    ∀ w ∈ t.waiters, t.Covered w := by
  cases l with
  | trackCommand length opIndex command =>
    cases h
    refine Keeps.all hs rfl (.of_owes rfl rfl (fun needed hfits => .inl ?_) (fun hempty => ?_)
      id id)
    -- a new entry takes room away, so nobody is owed a wake-up for it
    · have hfits : ¬s.flow.rxCount + length + needed > s.flow.rxBufferSize :=
        of_decide_eq_false hfits
      apply decide_eq_false
      omega
    · simp [trackCommand] at hempty
  | parseIncoming data =>
    cases h
    -- acknowledgements free room: `parse_incoming` owes the signal that the flush will send
    have hmarks := parseIncoming_marks data s.flow
    generalize (s.flow.parseIncoming data).1 = g at hmarks ⊢
    refine Keeps.all hs rfl (.of_owes rfl rfl (fun needed hfits => ?_) (fun hempty => ?_) ?_ ?_)
    · exact (hmarks.needsSpace hfits).imp_right .inl
    · exact (hmarks.isEmpty hempty).imp_right .inl
    · exact Or.imp_left hmarks.acked
    · exact Or.imp_left hmarks.drained
  | flushNotifications =>
    cases h
    refine Keeps.all hs rfl (.of_flow rfl rfl rfl rfl rfl (owesSpace_append rfl ?_)
      (owesDrained_append rfl ?_))
    · exact fun hacked => .inr (by simp [hacked, Raydriver.signalSpaceAvailable])
    · exact fun hdrained => .inr (by simp [hdrained, notifyDrained])
  | resetFlowControl =>
    cases h
    -- a reset empties the list, and queues both signals itself
    refine Keeps.all hs rfl (.of_owes rfl rfl (fun _ _ => .inr ?_) (fun _ => .inr ?_)
      (owesSpace_append rfl .inl) (owesDrained_append rfl .inl))
    · exact .inr ⟨_, List.mem_append_right _ (List.mem_singleton.mpr rfl), by decide⟩
    · exact .inr ⟨_, List.mem_append_right _ (List.mem_singleton.mpr rfl), by decide⟩
  | reset =>
    cases h
    refine Keeps.all hs rfl (.of_owes rfl rfl (fun _ _ => .inr ?_) (fun _ => .inr ?_)
      (owesSpace_append rfl .inl) (owesDrained_append rfl .inl))
    · exact .inr ⟨_, List.mem_append_right _ (List.mem_singleton.mpr rfl), by decide⟩
    · exact .inr ⟨_, List.mem_append_right _ (List.mem_singleton.mpr rfl), by decide⟩
  | signalSpaceAvailable =>
    cases h
    exact Keeps.all hs rfl (.of_flow rfl rfl rfl rfl rfl (owesSpace_append rfl .inl)
      (owesDrained_append rfl .inl))
  | signal i =>
    simp only [step] at h
    split at h
    case h_2 => cases h
    case h_1 x rest hi =>
      cases h
      exact Keeps.all hs (by cases x <;> rfl) (deliver_keeps hi)
  | waitForSpace needed =>
    cases h
    intro w hw
    rcases List.mem_append.mp hw with hw | hw
    · exact hs w hw
    · rw [List.mem_singleton.mp hw]
      trivial
  | waitPendingEmpty timed =>
    cases h
    intro w hw
    rcases List.mem_append.mp hw with hw | hw
    · exact hs w hw
    · rw [List.mem_singleton.mp hw]
      trivial
  -- a call asks again: the others are as before, and its own cover is renewed
  | poll i elapsed =>
    obtain ⟨w, hi, h⟩ := Option.bind_eq_some_iff.mp h
    obtain ⟨⟨w', u⟩, hpoll, h⟩ := Option.bind_eq_some_iff.mp h
    cases h
    obtain ⟨hkeeps, hwaiters⟩ := poll_keeps hpoll
    intro v hv
    rcases List.mem_or_eq_of_mem_set hv with hv | hv
    · exact hkeeps.covered (hs v (hwaiters ▸ hv))
    · rw [hv]
      have hnew : u.Covered w' := poll_covered (hs w (List.mem_of_getElem? hi)) hpoll
      exact Keeps.covered (s := u) (.of_flow rfl rfl rfl rfl rfl id id) hnew
  | drop i =>
    obtain ⟨w, hi, h⟩ := Option.bind_eq_some_iff.mp h
    cases h
    intro v hv
    rcases List.mem_or_eq_of_mem_set hv with hv | hv
    · exact hs v hv
    · rw [hv]
      cases w <;> trivial

/-- No call has begun, and nothing is under way. -/
def start (f : FlowInner) : FlowTasks := { flow := f }

theorem run_covered {f : FlowInner} (h : Run step AnyStep (start f) s) :
    ∀ w ∈ s.waiters, s.Covered w := by
  apply h.invariant (I := fun s => ∀ w ∈ s.waiters, s.Covered w)
  · intro a l b ha hst _
    exact step_covered ha hst
  · intro w hw
    exact absurd hw List.not_mem_nil

theorem Quiet.not_owesSpace (h : s.Quiet) : ¬s.OwesSpace := by
  rintro (hacked | ⟨p, hp, hmem⟩)
  · rw [h.acked] at hacked
    cases hacked
  · rw [h.signals p hp] at hmem
    cases hmem

theorem Quiet.not_owesDrained (h : s.Quiet) : ¬s.OwesDrained := by
  rintro (hdrained | ⟨p, hp, hmem⟩)
  · rw [h.drained] at hdrained
    cases hdrained
  · rw [h.signals p hp] at hmem
    cases hmem

/-- `wait_for_space` returns `Ok` from a look that found its bytes to fit. -/
theorem spacePoll_ok {needed : ℕ} {elapsed : Bool} {f : FlowInner} {n m : Notify}
    {p : WaitPoint} (h : spacePoll needed elapsed f n p = some (.returned true, m)) :
    f.needsSpace needed = false := by
  cases p with
  | check =>
    by_contra hneeds
    simp [spacePoll, hneeds] at h
  | deadline => cases elapsed <;> simp [spacePoll] at h
  | create => simp [spacePoll] at h
  | recheck created =>
    by_contra hneeds
    simp [spacePoll, hneeds] at h
  | parked created =>
    simp only [spacePoll] at h
    split_ifs at h
    · simpa using congrArg Prod.fst (Option.some.inj h)
    · simp at h
  | deadlineWith created => cases h
  | returned ok => cases h
  | dropped => cases h

/-- A call that is not the one that begins was there before. -/
theorem getElem?_of_append {ws : List Waiter} {v w : Waiter} {i : ℕ}
    (h : (ws ++ [v])[i]? = some w) (hne : w ≠ v) : ws[i]? = some w := by
  by_cases hi : i < ws.length
  · rwa [List.getElem?_append_left hi] at h
  · rw [List.getElem?_append_right (not_lt.mp hi)] at h
    exact absurd (List.mem_singleton.mp (List.mem_of_getElem? h)) hne

/-- **`wait_for_space` returns `Ok` at a moment when its bytes fit.** -/
theorem step_returns {l : Label} {i needed : ℕ} (h : step l s = some t)
    (hbefore : s.waiters[i]? ≠ some (.space needed (.returned true)))
    (hafter : t.waiters[i]? = some (.space needed (.returned true))) :
    t.flow.needsSpace needed = false := by
  cases l with
  | poll k elapsed =>
    obtain ⟨w, hk, h⟩ := Option.bind_eq_some_iff.mp h
    obtain ⟨⟨w', u⟩, hpoll, h⟩ := Option.bind_eq_some_iff.mp h
    cases h
    have hwaiters := (poll_keeps hpoll).2
    have hik : k = i := by
      by_contra hne
      rw [List.getElem?_set_ne hne, hwaiters] at hafter
      exact hbefore hafter
    subst hik
    have hw' : w' = .space needed (.returned true) := by
      rw [List.getElem?_set_self', hwaiters, hk] at hafter
      exact Option.some.inj hafter
    subst hw'
    cases w with
    | space n p =>
      obtain ⟨⟨q, m⟩, hq, hst⟩ := Option.map_eq_some_iff.mp hpoll
      cases hst
      -- the call looked once more, and found the space
      exact spacePoll_ok hq
    | empty timed p =>
      obtain ⟨⟨q, m⟩, hq, hst⟩ := Option.map_eq_some_iff.mp hpoll
      cases hst
  -- a dropped call has returned nothing
  | drop k =>
    obtain ⟨w, hk, h⟩ := Option.bind_eq_some_iff.mp h
    cases h
    have hik : k = i := by
      by_contra hne
      rw [List.getElem?_set_ne hne] at hafter
      exact hbefore hafter
    subst hik
    rw [List.getElem?_set_self', hk] at hafter
    cases w <;> cases Option.some.inj hafter
  | signal k =>
    simp only [step] at h
    split at h
    case h_2 => cases h
    case h_1 x rest hk =>
      cases h
      exact absurd (by cases x <;> exact hafter) hbefore
  | waitForSpace n =>
    cases h
    exact absurd (getElem?_of_append hafter nofun) hbefore
  | waitPendingEmpty timed =>
    cases h
    exact absurd (getElem?_of_append hafter nofun) hbefore
  | trackCommand | parseIncoming | flushNotifications | resetFlowControl | reset
  | signalSpaceAvailable =>
    cases h
    exact absurd hafter hbefore

/-! ### The main result -/

/-- **No call sleeps on what it waits for.**  Whatever the calls and the operations, and
however their steps interleave: in each state where no parse result is unflushed and no
operation is under way, a call parked in `wait_for_space` that nobody has woken lacks the
space, and one parked in `wait_pending_empty` has commands pending; and whenever a call of
`wait_for_space` returns `Ok`, its bytes fit. -/
theorem no_waiter_sleeps (f : FlowInner) (s : FlowTasks) (h : Run step AnyStep (start f) s) :
    (s.Quiet →
      (∀ needed created, Waiter.space needed (.parked created) ∈ s.waiters →
        s.spaceAvailable.Asleep created → s.flow.needsSpace needed = true) ∧
      (∀ timed created, Waiter.empty timed (.parked created) ∈ s.waiters →
        s.pendingDrained.Asleep created → s.flow.pending ≠ [])) ∧
    (∀ (l : Label) (t : FlowTasks) (i needed : ℕ), step l s = some t →
      s.waiters[i]? ≠ some (Waiter.space needed (.returned true)) →
      t.waiters[i]? = some (Waiter.space needed (.returned true)) →
      t.flow.needsSpace needed = false) := by
  have hcovered := run_covered h
  refine ⟨fun hquiet => ⟨fun needed created hw hasleep => ?_, fun timed created hw hasleep => ?_⟩,
    fun l t i needed hst hbefore hafter => step_returns hst hbefore hafter⟩
  · have hspace : s.CoversSpace needed created := hcovered _ hw
    by_contra hfits
    exact hspace.not_asleep hquiet.not_owesSpace (by simpa using hfits) hasleep
  · have hdrained : s.CoversDrained created := hcovered _ hw
    intro hempty
    exact hdrained.not_asleep hquiet.not_owesDrained (List.isEmpty_iff.mpr hempty) hasleep

/-- A buffer of eight bytes holds six, and somebody waits for three more. -/
def fullLabels : List Label :=
  [.trackCommand 6 none "G0 X1".toList, .waitForSpace 3, .poll 0 false, .poll 0 false,
    .poll 0 false, .poll 0 false]

/-- There the call is parked, and it is right to be. -/
theorem no_waiter_sleeps_full :
    (reach step fullLabels (start { rxSize := some 8 })).waiters = [.space 3 (.parked 0)] ∧
      (reach step fullLabels (start { rxSize := some 8 })).flow.needsSpace 3 = true := by
  have hrun : Run step AnyStep (start { rxSize := some 8 })
      (reach step fullLabels (start { rxSize := some 8 })) := run_reach (by decide)
  refine ⟨by decide, ?_⟩
  refine ((no_waiter_sleeps _ _ hrun).1 ⟨by decide, by decide, by decide⟩).1 3 0 (by decide) ?_
  decide

end FlowTasks

end Raydriver
