import Raydriver.Grbl.Lock

/-!
# Whoever holds the lock can give it back

The job line that waits for space under `cmd_lock` may wait for long, and so may the poll and
the recovery that the wait starts.  None of them waits for anybody who needs the lock.  With
each wait ending in its timeout, and the polls unanswered, the holder comes to the end of the
region by steps of its own: the unanswered polls are counted, and at their limit the device is
given up.  The one wait without a timeout is the wait of an interactive command for the
acknowledgements of what was sent before it.

## Main definitions

* `Frees i c b` — task `i` frees the lock by steps of its own.
* `Body.awaitsAcks` — the interactive command waits for pending acknowledgements.

## Main results

* `frees_spaceCheck` — a job line gives up after so many unanswered polls.
* `frees_of_holdsLock` — from every counter under the lock.
* `lock_is_released` — **no reachable state is stuck on the lock**.
-/

namespace Raydriver

open Lts

/-- Task `i` frees the lock by steps of its own, which neither end a task nor spawn one. -/
inductive Frees (i : ℕ) : Core → Body → Prop where
  | last {c c' : Core} {b b' : Body} (ch : Choice)
      (h : ∀ n, advance n i ch c b = some (c', b', [])) (hfree : c'.cmdLock = none) : Frees i c b
  | more {c c' : Core} {b b' : Body} (ch : Choice)
      (h : ∀ n, advance n i ch c b = some (c', b', [])) (hended : c'.ended = c.ended)
      (haborted : c'.aborted = c.aborted) (hf : Frees i c' b') : Frees i c b

section Stream

variable {i : ℕ} {job : Job} {c c' : Core} {pc pc' : StreamPc} {s : Send}

/-- A step of the streaming task. -/
theorem Frees.stream (ch : Choice) (h : advanceStream i job ch c pc = some (c', pc'))
    (hended : c'.ended = c.ended) (haborted : c'.aborted = c.aborted)
    (hf : Frees i c' (.stream job pc')) : Frees i c (.stream job pc) := by
  refine .more ch (fun n => ?_) hended haborted hf
  simp only [advance, h, Option.map_some]

/-- The step of the streaming task that frees the lock. -/
theorem Frees.stream_last (ch : Choice) (h : advanceStream i job ch c pc = some (c', pc'))
    (hfree : c'.cmdLock = none) : Frees i c (.stream job pc) := by
  have hlast : ∀ n, advance n i ch c (.stream job pc) = some (c', .stream job pc', []) := by
    intro n
    simp only [advance, h, Option.map_some]
  exact .last ch hlast hfree

theorem frees_writing (err : Option String) : Frees i c (.stream job (.writing s err)) := by
  cases err with
  | none => exact .stream_last {} rfl rfl
  | some e => exact .stream_last {} rfl rfl

theorem frees_send : Frees i c (.stream job (.send s)) :=
  .stream {} rfl rfl rfl (frees_writing _)

theorem frees_stallEnd_false : Frees i c (.stream job (.stallEnd s false)) :=
  .stream_last {} rfl rfl

/-- The poll found nothing. -/
theorem frees_pollEnd_false
    (h : c.deviceStoppedResponding = false → Frees i c (.stream job (.spaceCheck s))) :
    Frees i c (.stream job (.pollEnd (.stall s) false)) := by
  by_cases hstop : c.deviceStoppedResponding = true
  · have hstep : advanceStream i job {} c (.pollEnd (.stall s) false) =
        some (c.markDeviceUnresponsive, .stallEnd s false) := by
      simp only [advanceStream, hstop, if_true]
    exact .stream {} hstep rfl rfl frees_stallEnd_false
  rw [Bool.not_eq_true] at hstop
  by_cases halarm : c.isAlarm = true
  · have hstep : advanceStream i job {} c (.pollEnd (.stall s) false) =
        some (c.raiseOnAlarm, .stallEnd s false) := by
      simp only [advanceStream, hstop, halarm, Bool.false_eq_true, if_true, if_false]
    exact .stream {} hstep rfl rfl frees_stallEnd_false
  · have hstep : advanceStream i job {} c (.pollEnd (.stall s) false) =
        some (c, .stallEnd s true) := by
      simp only [advanceStream, hstop, halarm, Bool.false_eq_true, if_false, ite_self]
    exact .stream {} hstep rfl rfl (.stream {} rfl rfl rfl (h hstop))

/-- A poll that cannot be sent is counted as unanswered. -/
theorem frees_pollFailed (h : ∀ c' : Core, c'.config = c.config →
      c'.consecutiveUnansweredPolls = c.consecutiveUnansweredPolls + 1 →
      c'.deviceStoppedResponding = false → Frees i c' (.stream job (.spaceCheck s))) :
    Frees i c (.stream job (.pollFailed (.stall s))) :=
  .stream {} rfl rfl rfl (frees_pollEnd_false (h _ rfl rfl))

/-- A job line that has no space now, from the counter where it awaits some. -/
theorem frees_spaceWait_of_needsSpace (hspace : c.needsSpace s.payload = true)
    (h : ∀ c' : Core, c'.config = c.config →
      c'.consecutiveUnansweredPolls = c.consecutiveUnansweredPolls + 1 →
      c'.deviceStoppedResponding = false → Frees i c' (.stream job (.spaceCheck s))) :
    Frees i c (.stream job (.spaceWait s)) := by
  have hwait : advanceStream i job { timedOut := true } c (.spaceWait s) =
      some (c, .stall s) := by
    simp only [advanceStream, hspace, Bool.not_true, Bool.false_eq_true, if_true, if_false]
  refine .stream _ hwait rfl rfl ?_
  by_cases hcancelled : c.isCancelled = true
  · have hstep : advanceStream i job {} c (.stall s) = some (c, .stallEnd s false) := by
      simp only [advanceStream, hcancelled, if_true]
    exact .stream {} hstep rfl rfl frees_stallEnd_false
  · have hstep : advanceStream i job {} c (.stall s) = some (c, .poll (.stall s)) := by
      simp only [advanceStream, hcancelled, Bool.false_eq_true, if_false]
    refine .stream {} hstep rfl rfl (.stream {} rfl rfl rfl ?_)
    -- the poll fails, whether or not there is a transport
    by_cases hopen : c.isOpen = true
    · refine .stream { writeError := some "" } (if_pos hopen) rfl rfl ?_
      exact .stream {} rfl rfl rfl (frees_pollFailed h)
    · exact .stream {} (if_neg hopen) rfl rfl (frees_pollFailed h)

/-- **A job line that gets no space gives up after so many unanswered polls.** -/
theorem frees_spaceCheck_of_le (k : ℕ) (c : Core)
    (hk : c.config.unansweredPollLimit ≤ c.consecutiveUnansweredPolls + k) :
    Frees i c (.stream job (.spaceCheck s)) := by
  induction k generalizing c with
  | zero =>
    by_cases hspace : c.needsSpace s.payload = true
    · refine .stream {} (if_pos hspace) rfl rfl (frees_spaceWait_of_needsSpace hspace ?_)
      intro c' hconfig hpolls hstop
      -- one more unanswered poll, and the limit was reached before
      rw [Core.deviceStoppedResponding, decide_eq_false_iff_not, hconfig, hpolls] at hstop
      omega
    · exact .stream {} (if_neg hspace) rfl rfl frees_send
  | succ k ih =>
    by_cases hspace : c.needsSpace s.payload = true
    · refine .stream {} (if_pos hspace) rfl rfl (frees_spaceWait_of_needsSpace hspace ?_)
      intro c' hconfig hpolls _
      apply ih
      rw [hconfig, hpolls]
      omega
    · exact .stream {} (if_neg hspace) rfl rfl frees_send

theorem frees_spaceCheck : Frees i c (.stream job (.spaceCheck s)) :=
  frees_spaceCheck_of_le c.config.unansweredPollLimit c (Nat.le_add_left _ _)

theorem frees_stallEnd (handled : Bool) : Frees i c (.stream job (.stallEnd s handled)) := by
  cases handled with
  | false => exact frees_stallEnd_false
  | true => exact .stream {} rfl rfl rfl frees_spaceCheck

theorem frees_spaceWait : Frees i c (.stream job (.spaceWait s)) := by
  by_cases hspace : c.needsSpace s.payload = true
  · exact frees_spaceWait_of_needsSpace hspace fun _ _ _ _ => frees_spaceCheck
  · have hstep : advanceStream i job {} c (.spaceWait s) = some (c, .send s) := by
      simp only [advanceStream, hspace, Bool.not_false, if_true]
    exact .stream {} hstep rfl rfl frees_send

/-! ### The recovery -/

theorem frees_recoverReset : Frees i c (.stream job (.recoverReset (.stall s))) :=
  .stream {} rfl rfl rfl (.stream {} rfl rfl rfl (frees_stallEnd _))

/-- The recovery of a stalled line goes on under its lock; that of the drain frees its own. -/
theorem frees_recoverSent (w : Site) : Frees i c (.stream job (.recoverSent w)) := by
  cases w with
  | drain => exact .stream_last {} rfl rfl
  | stall s =>
    by_cases hpending : c.flow.pending.isEmpty = true
    · have hstep : advanceStream i job {} c (.recoverSent (.stall s)) =
          some ((Site.stall s).unlock c, .recoverReset (.stall s)) := by
        simp only [advanceStream, Site.unlock, hpending, if_true]
      exact .stream {} hstep rfl rfl frees_recoverReset
    · have hstep : advanceStream i job {} c (.recoverSent (.stall s)) =
          some ((Site.stall s).unlock c, .recoverDrain (.stall s)) := by
        simp only [advanceStream, Site.unlock, hpending, Bool.false_eq_true, if_false]
      refine .stream {} hstep rfl rfl ?_
      exact .stream { timedOut := true } (if_pos (Bool.or_true _)) rfl rfl frees_recoverReset

theorem frees_recoverSend (w : Site) : Frees i c (.stream job (.recoverSend w)) :=
  .stream {} rfl rfl rfl (.stream {} rfl rfl rfl (frees_recoverSent w))

theorem frees_recoverSpace (w : Site) : Frees i c (.stream job (.recoverSpace w)) := by
  by_cases hspace : c.needsSpace dwellLine = true
  · have hstep : advanceStream i job { timedOut := true } c (.recoverSpace w) =
        some (c, .recoverSent w) := by
      simp only [advanceStream, hspace, Bool.not_true, Bool.false_eq_true, if_true, if_false]
    exact .stream _ hstep rfl rfl (frees_recoverSent w)
  · have hstep : advanceStream i job {} c (.recoverSpace w) = some (c, .recoverSend w) := by
      simp only [advanceStream, hspace, Bool.not_false, if_true]
    exact .stream {} hstep rfl rfl (frees_recoverSend w)

theorem frees_recoverStart (w : Site) : Frees i c (.stream job (.recoverStart w)) := by
  refine .stream {} rfl rfl rfl ?_
  split_ifs
  · exact frees_recoverSpace w
  · exact frees_recoverSend w

theorem frees_recover : Frees i c (.stream job (.recover (.stall s))) := by
  by_cases hopen : c.isOpen = true
  · exact .stream {} (if_pos hopen) rfl rfl (frees_recoverStart _)
  · exact .stream {} (if_neg hopen) rfl rfl (.stream {} rfl rfl rfl (frees_stallEnd _))

/-! ### The poll -/

theorem frees_pollEnd (idle : Bool) : Frees i c (.stream job (.pollEnd (.stall s) idle)) := by
  by_cases hstop : c.deviceStoppedResponding = true
  · have hstep : advanceStream i job {} c (.pollEnd (.stall s) idle) =
        some (c.markDeviceUnresponsive, .stallEnd s false) := by
      simp only [advanceStream, hstop, if_true]
    exact .stream {} hstep rfl rfl frees_stallEnd_false
  by_cases halarm : c.isAlarm = true
  · have hstep : advanceStream i job {} c (.pollEnd (.stall s) idle) =
        some (c.raiseOnAlarm, .stallEnd s false) := by
      simp only [advanceStream, hstop, halarm, Bool.false_eq_true, if_true, if_false]
    exact .stream {} hstep rfl rfl frees_stallEnd_false
  by_cases hrecover : c.config.deadlockDetection = true ∧ idle = true ∧
      c.needsSpace s.payload = true
  · have hstep : advanceStream i job {} c (.pollEnd (.stall s) idle) =
        some (c, .recover (.stall s)) := by
      simp only [advanceStream, hstop, halarm, hrecover.1, hrecover.2.1, hrecover.2.2,
        Bool.false_eq_true, Bool.not_true, if_true, if_false]
    exact .stream {} hstep rfl rfl frees_recover
  · have hstep : advanceStream i job {} c (.pollEnd (.stall s) idle) =
        some (c, .stallEnd s true) := by
      simp only [advanceStream, hstop, halarm, Bool.false_eq_true, if_false, Bool.not_eq_true']
      split_ifs with hdetect hidle hspace
      · rfl
      · rfl
      · exact absurd ⟨by simpa using hdetect, hidle, by simpa using hspace⟩ hrecover
      · rfl
    exact .stream {} hstep rfl rfl (frees_stallEnd true)

theorem frees_pollDone (before : ℕ) :
    Frees i c (.stream job (.pollDone (.stall s) before)) :=
  .stream {} rfl rfl rfl (frees_pollEnd _)

/-- A poll is awaited for as many attempts as are left. -/
theorem frees_pollAwait (before left : ℕ) (c : Core) :
    Frees i c (.stream job (.pollAwait (.stall s) before left)) := by
  induction left with
  | zero => exact .stream {} rfl rfl rfl (frees_pollDone before)
  | succ left ih =>
    refine .stream {} rfl rfl rfl ?_
    by_cases hunknown : (c.rawGrblStatus == .unknown) = true
    · exact .stream {} (if_pos hunknown) rfl rfl ih
    · exact .stream {} (if_neg hunknown) rfl rfl (frees_pollDone before)

theorem frees_pollSleep (before left : ℕ) :
    Frees i c (.stream job (.pollSleep (.stall s) before left)) := by
  by_cases hunknown : (c.rawGrblStatus == .unknown) = true
  · exact .stream {} (if_pos hunknown) rfl rfl (frees_pollAwait before left c)
  · exact .stream {} (if_neg hunknown) rfl rfl (frees_pollDone before)

theorem frees_pollFailed_site (w : Site) : Frees i c (.stream job (.pollFailed w)) := by
  cases w with
  | drain => exact .stream_last {} rfl rfl
  | stall s => exact frees_pollFailed fun _ _ _ _ => frees_spaceCheck

theorem frees_pollWriting (w : Site) (before : ℕ) (err : Option String) :
    Frees i c (.stream job (.pollWriting w before err)) := by
  cases err with
  | some e => exact .stream {} rfl rfl rfl (frees_pollFailed_site w)
  | none =>
    cases w with
    | drain => exact .stream_last {} rfl rfl
    | stall s => exact .stream {} rfl rfl rfl (frees_pollAwait before _ _)

theorem frees_pollSend (w : Site) (before : ℕ) :
    Frees i c (.stream job (.pollSend w before)) := by
  by_cases hopen : c.isOpen = true
  · exact .stream {} (if_pos hopen) rfl rfl (frees_pollWriting w before none)
  · exact .stream {} (if_neg hopen) rfl rfl (frees_pollFailed_site w)

theorem frees_stall : Frees i c (.stream job (.stall s)) := by
  refine .stream {} rfl rfl rfl ?_
  split_ifs
  · exact frees_stallEnd_false
  · exact .stream {} rfl rfl rfl (frees_pollSend _ _)

theorem frees_locked : Frees i c (.stream job (.locked s)) := by
  by_cases hopen : c.isOpen = true
  · exact .stream {} (if_pos hopen) rfl rfl frees_spaceCheck
  · exact .stream_last {} (if_neg hopen) rfl

/-- **The streaming task**, from every counter under the lock. -/
theorem frees_of_stream (h : pc.holdsLock = true) : Frees i c (.stream job pc) := by
  cases pc with
  | locked s => exact frees_locked
  | spaceCheck s => exact frees_spaceCheck
  | spaceWait s => exact frees_spaceWait
  | send s => exact frees_send
  | writing s err => exact frees_writing err
  | stall s => exact frees_stall
  | stallEnd s handled => exact frees_stallEnd handled
  | pollSend w before => exact frees_pollSend w before
  | pollWriting w before err => exact frees_pollWriting w before err
  | pollFailed w => exact frees_pollFailed_site w
  | recoverStart w => exact frees_recoverStart w
  | recoverSpace w => exact frees_recoverSpace w
  | recoverSend w => exact frees_recoverSend w
  | recoverWriting w => exact .stream {} rfl rfl rfl (frees_recoverSent w)
  | recoverSent w => exact frees_recoverSent w
  | poll w =>
    cases w with
    | drain => cases h
    | stall s => exact .stream {} rfl rfl rfl (frees_pollSend _ _)
  | pollAwait w before left =>
    cases w with
    | drain => cases h
    | stall s => exact frees_pollAwait before left c
  | pollSleep w before left =>
    cases w with
    | drain => cases h
    | stall s => exact frees_pollSleep before left
  | pollDone w before =>
    cases w with
    | drain => cases h
    | stall s => exact frees_pollDone before
  | pollEnd w idle =>
    cases w with
    | drain => cases h
    | stall s => exact frees_pollEnd idle
  | recover w =>
    cases w with
    | drain => cases h
    | stall s => exact frees_recover
  | recoverDrain w =>
    cases w with
    | drain => cases h
    | stall s =>
      exact .stream { timedOut := true } (if_pos (Bool.or_true _)) rfl rfl frees_recoverReset
  | recoverReset w =>
    cases w with
    | drain => cases h
    | stall s => exact frees_recoverReset
  | recoverEnd w =>
    cases w with
    | drain => cases h
    | stall s => exact .stream {} rfl rfl rfl (frees_stallEnd _)
  | _ => cases h

end Stream

/-! ### Commands -/

section Commands

variable {i r : ℕ} {c c' : Core} {command : Text}

theorem Frees.queue {pc pc' : QueuePc} (ch : Choice) (h : advanceQueue i ch c pc = some (c', pc'))
    (hended : c'.ended = c.ended) (haborted : c'.aborted = c.aborted)
    (hf : Frees i c' (.queue pc')) : Frees i c (.queue pc) := by
  refine .more ch (fun n => ?_) hended haborted hf
  simp only [advance, h, Option.map_some]

theorem Frees.queue_last {pc pc' : QueuePc} (ch : Choice)
    (h : advanceQueue i ch c pc = some (c', pc')) (hfree : c'.cmdLock = none) :
    Frees i c (.queue pc) := by
  have hlast : ∀ n, advance n i ch c (.queue pc) = some (c', .queue pc', []) := by
    intro n
    simp only [advance, h, Option.map_some]
  exact .last ch hlast hfree

theorem Frees.interactive {pc pc' : InteractivePc} (ch : Choice)
    (h : advanceInteractive i command ch c pc = some (c', pc'))
    (hended : c'.ended = c.ended) (haborted : c'.aborted = c.aborted)
    (hf : Frees i c' (.interactive command pc')) : Frees i c (.interactive command pc) := by
  refine .more ch (fun n => ?_) hended haborted hf
  simp only [advance, h, Option.map_some]

theorem frees_queueSend : Frees i c (.queue (.send r)) :=
  .queue {} rfl rfl rfl (.queue_last {} rfl rfl)

theorem frees_queueSpace : Frees i c (.queue (.space r)) :=
  .queue { timedOut := true } (if_pos (Bool.or_true _)) rfl rfl frees_queueSend

/-- **The command queue**, from every counter under the lock. -/
theorem frees_of_queue {pc : QueuePc} (h : pc.holdsLock = true) : Frees i c (.queue pc) := by
  cases pc with
  | locked r =>
    by_cases hopen : c.isOpen = true
    · by_cases hspace : c.needsSpace (commandLine (c.commandOf r)) = true
      · have hstep : advanceQueue i {} c (.locked r) = some (c, .space r) := by
          simp only [advanceQueue, hopen, hspace, Bool.not_true, Bool.false_eq_true, if_false,
            if_true]
        exact .queue {} hstep rfl rfl frees_queueSpace
      · have hstep : advanceQueue i {} c (.locked r) = some (c, .send r) := by
          simp only [advanceQueue, hopen, hspace, Bool.not_true, Bool.false_eq_true, if_false]
        exact .queue {} hstep rfl rfl frees_queueSend
    · have hstep : advanceQueue i {} c (.locked r) = some (c.unlock, .clear) := by
        simp only [advanceQueue, hopen, Bool.not_false, if_true]
      exact .queue_last {} hstep rfl
  | space r => exact frees_queueSpace
  | send r => exact frees_queueSend
  | writing r err => exact .queue_last {} rfl rfl
  | _ => cases h

theorem frees_finish (result : Option (List Text)) :
    Frees i c (.interactive command (.finish r result)) := by
  have hlast : ∀ n, advance n i {} c (.interactive command (.finish r result)) =
      some ({ c with interactiveRequest := none, cmdLock := none },
        .interactive command (.returned result), []) := by
    intro n
    simp only [advance, advanceInteractive, Option.map_some]
  exact .last {} hlast rfl

theorem frees_interactiveWait : Frees i c (.interactive command (.wait r)) := by
  by_cases hfinished : c.isFinished r = true
  · exact .interactive {} (if_pos hfinished) rfl rfl (frees_finish _)
  · have hstep : advanceInteractive i command { timedOut := true } c (.wait r) =
        some (c, .finish r none) := by
      simp only [advanceInteractive, hfinished, Bool.false_eq_true, if_true, if_false]
    exact .interactive _ hstep rfl rfl (frees_finish _)

theorem frees_interactiveWriting (err : Option String) :
    Frees i c (.interactive command (.writing r err)) := by
  refine .interactive {} rfl rfl rfl ?_
  split_ifs
  · exact frees_interactiveWait
  · exact frees_finish _

theorem frees_interactiveSend : Frees i c (.interactive command (.send r)) :=
  .interactive {} rfl rfl rfl (frees_interactiveWriting _)

theorem frees_interactiveSpace : Frees i c (.interactive command (.space r)) :=
  .interactive { timedOut := true } (if_pos (Bool.or_true _)) rfl rfl frees_interactiveSend

theorem frees_begin : Frees i c (.interactive command (.begin r)) := by
  refine .interactive {} rfl rfl rfl ?_
  split_ifs
  · exact frees_interactiveSpace
  · exact frees_interactiveSend

/-- The interactive command awaits, without a timeout, the acknowledgements that are pending,
or is about to. -/
def Body.awaitsAcks (b : Body) (c : Core) : Prop :=
  c.flow.pending.isEmpty = false ∧
    ∃ command r, b = .interactive command (.drainWait r) ∨ b = .interactive command (.locked r)

/-- **An interactive command**, from every counter under the lock but one. -/
theorem frees_of_interactive {pc : InteractivePc} (h : pc.holdsLock = true)
    (hacks : ¬(Body.interactive command pc).awaitsAcks c) :
    Frees i c (.interactive command pc) := by
  have hempty : ∀ r, pc = .drainWait r ∨ pc = .locked r → c.flow.pending.isEmpty = true := by
    intro r hpc
    by_contra hpending
    refine hacks ⟨by simpa using hpending, command, r, ?_⟩
    rcases hpc with rfl | rfl
    · exact .inl rfl
    · exact .inr rfl
  cases pc with
  | locked r =>
    have hstep : advanceInteractive i command {} c (.locked r) = some (c, .begin r) := by
      simp only [advanceInteractive, hempty r (.inr rfl), if_true]
    exact .interactive {} hstep rfl rfl frees_begin
  | drainWait r => exact .interactive {} (if_pos (hempty r (.inl rfl))) rfl rfl frees_begin
  | begin r => exact frees_begin
  | space r => exact frees_interactiveSpace
  | send r => exact frees_interactiveSend
  | writing r err => exact frees_interactiveWriting err
  | wait r => exact frees_interactiveWait
  | finish r result => exact frees_finish result
  | _ => cases h

/-- **From every counter under the lock.** -/
theorem frees_of_holdsLock {b : Body} (h : b.holdsLock = true) (hacks : ¬b.awaitsAcks c) :
    Frees i c b := by
  cases b with
  | stream job pc => exact frees_of_stream h
  | queue pc => exact frees_of_queue h
  | interactive command pc => exact frees_of_interactive h hacks
  | _ => cases h

end Commands

/-! ### The session -/

section Session

variable {s : Sys} {i : ℕ}

/-- A task takes a step that spawns nobody. -/
theorem Sys.step_of_advance {b b' : Body} {c' : Core} {ch : Choice} (hb : s.tasks[i]? = some b)
    (halive : s.alive i = true)
    (hactive : s.active = some i ∨ (s.active = none ∧ b.suspended = true))
    (h : advance s.tasks.length i ch s.core b = some (c', b', [])) :
    Sys.step (.task i ch) s =
      some ⟨c', s.tasks.set i b', if b'.suspended then none else some i⟩ := by
  have hguard : (s.alive i && (s.active = some i || (s.active = none && b.suspended))) = true := by
    rw [halive]
    rcases hactive with hactive | ⟨hactive, hsuspended⟩
    · rw [hactive]
      simp
    · rw [hactive, hsuspended]
      simp
  simp only [Sys.step, Sys.advanceTask, hb, hguard, if_true, h, Option.map_some, List.append_nil]

/-- The steps of one task are steps of the session. -/
theorem Frees.exec {c : Core} {b : Body} (hf : Frees i c b) (hc : s.core = c)
    (hb : s.tasks[i]? = some b) (halive : s.alive i = true)
    (hactive : s.active = some i ∨ (s.active = none ∧ b.suspended = true)) :
    ∃ ls t, (∀ l ∈ ls, ∃ ch, l = .task i ch) ∧ exec Sys.step ls s = some t ∧
      t.core.cmdLock = none := by
  induction hf generalizing s with
  | @last c c' b b' ch h hfree =>
    subst hc
    refine ⟨[.task i ch], ⟨c', s.tasks.set i b', if b'.suspended then none else some i⟩,
      fun l hl => ⟨ch, List.mem_singleton.mp hl⟩, ?_, hfree⟩
    rw [exec_cons, Sys.step_of_advance hb halive hactive (h _)]
    rfl
  | @more c c' b b' ch h hended haborted hf ih =>
    subst hc
    have hlt : i < s.tasks.length := (List.getElem?_eq_some_iff.mp hb).1
    have halive' : (⟨c', s.tasks.set i b', if b'.suspended then none else some i⟩ : Sys).alive i =
        true := by
      unfold Sys.alive
      rw [hended, haborted]
      exact halive
    have hactive' : (if b'.suspended then none else some i) = some i ∨
        ((if b'.suspended then none else some i) = none ∧ b'.suspended = true) := by
      by_cases hsuspended : b'.suspended = true
      · exact .inr ⟨if_pos hsuspended, hsuspended⟩
      · exact .inl (if_neg hsuspended)
    obtain ⟨ls, t, hls, hexec, hfree⟩ := ih rfl (List.getElem?_set_self hlt) halive' hactive'
    refine ⟨.task i ch :: ls, t, ?_, ?_, hfree⟩
    · intro l hl
      rcases List.mem_cons.mp hl with rfl | hl
      · exact ⟨ch, rfl⟩
      · exact hls l hl
    · rw [exec_cons, Sys.step_of_advance hb halive hactive (h _)]
      exact hexec

/-- Every task but the one that is between two await points is at one. -/
def Sys.Parked (s : Sys) : Prop :=
  ∀ (i : ℕ) (b : Body), s.tasks[i]? = some b → s.active ≠ some i → b.suspended = true

theorem suspended_of_spawned {n : ℕ} {ch : Choice} {c c' : Core} {b b' : Body}
    {spawned : List Body} (h : advance n i ch c b = some (c', b', spawned)) :
    ∀ d ∈ spawned, d.suspended = true := by
  have hnone : ∀ d ∈ ([] : List Body), d.suspended = true := fun d hd => absurd hd List.not_mem_nil
  have hone : ∀ {d : Body} {spawns : Bool}, d.suspended = true →
      ∀ e ∈ (if spawns then [d] else []), e.suspended = true := by
    intro d spawns hd e he
    split_ifs at he
    · rw [List.mem_singleton.mp he]
      exact hd
    · exact hnone e he
  cases b with
  | run job pc =>
    obtain ⟨⟨c1, pc1, spawns⟩, h1, h2⟩ := Option.map_eq_some_iff.mp h
    cases h2
    exact hone rfl
  | link connect pc =>
    obtain ⟨⟨c1, pc1, spawns⟩, h1, h2⟩ := Option.map_eq_some_iff.mp h
    cases h2
    exact hone rfl
  | _ =>
    obtain ⟨⟨c1, pc1⟩, h1, h2⟩ := Option.map_eq_some_iff.mp h
    cases h2
    exact hnone

/-- **Every step leaves all tasks but the active one at an await point.** -/
theorem Sys.Parked.step {u : Sys} {l : Label} (h : s.Parked) (hs : Sys.step l s = some u) :
    u.Parked := by
  by_cases hl : ∃ i ch, l = .task i ch
  · obtain ⟨j, ch, rfl⟩ := hl
    obtain ⟨b, c', b', spawned, hb, -, hactive, hadv, rfl⟩ := Sys.step_task hs
    have hlt : j < s.tasks.length := (List.getElem?_eq_some_iff.mp hb).1
    have hspawned := suspended_of_spawned hadv
    intro k d hk hkactive
    dsimp only at hk hkactive
    rw [List.getElem?_append] at hk
    split_ifs at hk with hklt
    · by_cases hjk : j = k
      · subst hjk
        rw [List.getElem?_set_self hlt] at hk
        cases hk
        -- the task that has just run: it is the active one unless it waits
        by_contra hsuspended
        exact hkactive (if_neg hsuspended)
      · rw [List.getElem?_set_ne hjk] at hk
        refine h k d hk ?_
        rcases hactive with hactive | ⟨hactive, -⟩
        · rw [hactive]
          exact fun he => hjk (Option.some.inj he)
        · rw [hactive]
          exact fun he => by cases he
    · exact hspawned d (List.mem_of_getElem? hk)
  · obtain ⟨hactive, -, -, -, -, -⟩ := Sys.step_other hs fun i ch hi => hl ⟨i, ch, hi⟩
    -- nothing is active here, so every task waits
    have hall : ∀ (k : ℕ) (d : Body), s.tasks[k]? = some d → d.suspended = true := by
      intro k d hk
      refine h k d hk ?_
      rw [hactive]
      exact fun he => by cases he
    have hsame : u.tasks = s.tasks → u.Parked := fun ht k d hk _ => hall k d (by rw [← ht]; exact hk)
    cases l with
    | task i ch => exact absurd ⟨i, ch, rfl⟩ hl
    | call op =>
      simp only [Sys.step] at hs
      split_ifs at hs
      cases hs
      intro k d hk hkactive
      dsimp only at hk hkactive
      rw [List.getElem?_append] at hk
      split_ifs at hk with hklt
      · exact hall k d hk
      · have hkey : k - s.tasks.length = 0 := by
          have := (List.getElem?_eq_some_iff.mp hk).1
          simpa using this
        exact absurd (congrArg some (by omega)) hkactive
    | drop i =>
      simp only [Sys.step, Sys.dropTask] at hs
      split at hs
      case isFalse => cases hs
      cases hs
      exact hsame rfl
    | _ =>
      simp only [Sys.step, Sys.outside] at hs
      split_ifs at hs
      cases hs
      exact hsame rfl

/-- **No reachable state is stuck on the lock.**  In every state of a session in which no task
is between two await points: the task that has `cmd_lock` gives it back by steps of its own, each
of its waits ending in a timeout, or by being dropped if it was aborted; no step of another task
is needed, and no answer of the device.  The exception is an interactive command at its wait
for the acknowledgements of what was sent before it. -/
theorem lock_is_released {s₀ : Sys} (h0 : s₀.tasks = []) (hfree : s₀.core.cmdLock = none)
    (hr : Run Sys.step AnyStep s₀ s) (hidle : s.active = none) (hlock : s.core.cmdLock = some i)
    (hacks : ∀ b, s.tasks[i]? = some b → ¬b.awaitsAcks s.core) :
    ∃ ls t, (∀ l ∈ ls, l = .drop i ∨ ∃ ch, l = .task i ch) ∧ exec Sys.step ls s = some t ∧
      t.core.cmdLock = none := by
  have howned := owned_of_run h0 hfree hr
  have hparked : s.Parked := hr.invariant (I := Sys.Parked) (fun _ _ _ h hs _ => h.step hs)
    fun k d hk => by rw [h0] at hk; cases hk
  have hholds := (howned i).mp hlock
  unfold Sys.holds at hholds
  rw [Bool.and_eq_true, Option.any_eq_true] at hholds
  obtain ⟨⟨b, hb, hheld⟩, hended⟩ := hholds
  -- an aborted task is dropped, and its guard with it
  by_cases haborted : s.core.aborted.contains i = true
  · refine ⟨[.drop i], { s with core := { s.core with
      ended := i :: s.core.ended, cmdLock := none } }, ?_, ?_, rfl⟩
    · intro l hl
      exact .inl (List.mem_singleton.mp hl)
    · simp only [exec_cons, exec_nil, Sys.step, Sys.dropTask, hidle, haborted, hended, hlock,
        Bool.and_true, decide_true, if_true, Option.bind_some]
  · have halive : s.alive i = true := by
      unfold Sys.alive
      rw [Bool.eq_false_iff.mpr haborted, hended]
      rfl
    -- any other goes on from its await point until it has given the lock back
    have hsuspended : b.suspended = true := by
      refine hparked i b hb ?_
      rw [hidle]
      exact fun he => by cases he
    obtain ⟨ls, t, hls, hexec, hlast⟩ :=
      (frees_of_holdsLock hheld (hacks b hb)).exec rfl hb halive (.inr ⟨hidle, hsuspended⟩)
    exact ⟨ls, t, fun l hl => .inr (hls l hl), hexec, hlast⟩

/-- The line that waits for space gives up the lock. -/
theorem lock_is_released_waiting :
    ∃ ls t, (∀ l ∈ ls, l = .drop 1 ∨ ∃ ch, l = .task 1 ch) ∧
      exec Sys.step ls (reach Sys.step lineWaits tightSession) = some t ∧ t.core.cmdLock = none := by
  refine @lock_is_released _ 1 tightSession rfl rfl (run_reach (by decide)) (by decide)
    (by decide) fun b hb => ?_
  have hbody : (reach Sys.step lineWaits tightSession).tasks[1]? = some (.stream twoLines
      (.spaceWait ⟨1, "G1 X2".toList, none, []⟩)) := by decide
  rw [hbody] at hb
  cases hb
  rintro ⟨-, command, r, hb | hb⟩ <;> cases hb

end Session

end Raydriver
