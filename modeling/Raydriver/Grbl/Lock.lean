import Raydriver.Grbl.Frames
import Raydriver.Lib.Mutex

/-!
# Mutual exclusion of senders

A job line, a queued command and an interactive command are sent under `cmd_lock`, and
the interactive command keeps it until its response is there.  The streaming task also
takes it for the poll and the recovery at the end of the job.

## Main definitions

* `Body.holdsLock` — the counters at which a task holds the lock.
* `LockChange` — what a step does to the lock.
* `Locked` — whoever is at such a counter is the owner of the lock.
* `Sys.holds` — the task is alive at such a counter.

## Main results

* `advance_lock` — the lock under a step of any task.
* `Locked.step` — **mutual exclusion is kept by every step**.
* `lock_is_never_lost` — **the lock is with a task exactly while the task is alive under it.**
-/

namespace Raydriver

open Lts

/-! ### Who holds the lock -/

/-- The stall callback runs under the lock of its send. -/
def Site.underLock : Site → Bool
  | .stall _ => true
  | .drain => false

/-- The streaming task is under the lock. -/
def StreamPc.holdsLock : StreamPc → Bool
  | .locked _ | .spaceCheck _ | .spaceWait _ | .send _ | .writing _ _ | .stall _ | .stallEnd _ _
  | .pollSend _ _ | .pollWriting _ _ _ | .pollFailed _ | .recoverStart _ | .recoverSpace _
  | .recoverSend _ | .recoverWriting _ | .recoverSent _ => true
  | .poll w | .pollAwait w _ _ | .pollSleep w _ _ | .pollDone w _ | .pollEnd w _ | .recover w
  | .recoverDrain w | .recoverReset w | .recoverEnd w => w.underLock
  | _ => false

/-- The queue loop is under the lock. -/
def QueuePc.holdsLock : QueuePc → Bool
  | .locked _ | .space _ | .send _ | .writing _ _ => true
  | _ => false

/-- The interactive command is under the lock. -/
def InteractivePc.holdsLock : InteractivePc → Bool
  | .locked _ | .drainWait _ | .begin _ | .space _ | .send _ | .writing _ _ | .wait _
  | .finish _ _ => true
  | _ => false

/-- The task is under the lock. -/
def Body.holdsLock : Body → Bool
  | .stream _ pc => pc.holdsLock
  | .queue pc => pc.holdsLock
  | .interactive _ pc => pc.holdsLock
  | _ => false

/-- What a step of task `i` does to the lock: nothing, or it takes the free lock, or it
releases it. -/
inductive LockChange (i : ℕ) (held held' : Bool) (c c' : Core) : Prop where
  | keep (hheld : held' = held) (hlock : c'.cmdLock = c.cmdLock)
  | take (hheld : held' = true) (hfree : c.cmdLock = none) (hlock : c'.cmdLock = some i)
  | give (hheld : held = true) (hheld' : held' = false) (hlock : c'.cmdLock = none)

section Steps

variable {n i : ℕ} {ch : Choice} {c c' : Core}

/-- The drop of the guard behind a poll or a recovery. -/
theorem LockChange.of_site (w : Site) (c : Core) :
    LockChange i true w.underLock c (w.unlock c) := by
  cases w with
  | stall s => exact .keep rfl rfl
  | drain => exact .give rfl rfl rfl

theorem advanceStream_lock {job : Job} {pc pc' : StreamPc}
    (h : advanceStream i job ch c pc = some (c', pc')) :
    LockChange i pc.holdsLock pc'.holdsLock c c' := by
  cases pc with
  | loopTop idx rest =>
    cases rest <;> simp only [advanceStream] at h <;> (try split_ifs at h) <;> cases h <;>
      exact .keep rfl rfl
  | lockWait s =>
    simp only [advanceStream] at h
    split_ifs at h with hfree
    cases h
    exact .take rfl (Option.isNone_iff_eq_none.mp hfree) rfl
  | locked s =>
    simp only [advanceStream] at h
    split_ifs at h <;> cases h
    · exact .keep rfl rfl
    -- the port is gone: the lock is let go, and nothing is sent
    · exact .give rfl rfl rfl
  | writing s err =>
    cases err <;> cases h <;> exact .give rfl rfl rfl
  | stall s =>
    cases h
    refine .keep ?_ rfl
    split_ifs <;> rfl
  | stallEnd s handled =>
    simp only [advanceStream] at h
    split_ifs at h <;> cases h
    · exact .keep rfl rfl
    · exact .give rfl rfl rfl
  -- a poll in a stall runs under the lock of the line, one in the drain takes its own
  | poll w =>
    cases w <;> cases h <;> exact .keep rfl rfl
  | pollLock before =>
    simp only [advanceStream] at h
    split_ifs at h with hfree
    cases h
    exact .take rfl (Option.isNone_iff_eq_none.mp hfree) rfl
  | pollWriting w before err =>
    cases err <;> cases h
    · exact .of_site w c
    · exact .keep rfl rfl
  | pollFailed w =>
    cases h
    cases w with
    | stall s => exact .keep rfl rfl
    | drain => exact .give rfl rfl rfl
  | pollAwait w before left =>
    cases left <;> cases h <;> exact .keep rfl rfl
  | pollEnd w idle =>
    cases w <;> simp only [advanceStream] at h <;> split_ifs at h <;> cases h <;>
      exact .keep rfl rfl
  | recover w =>
    cases w <;> simp only [advanceStream] at h <;> split_ifs at h <;> cases h <;>
      exact .keep rfl rfl
  | recoverLock =>
    simp only [advanceStream] at h
    split_ifs at h with hfree
    cases h
    exact .take rfl (Option.isNone_iff_eq_none.mp hfree) rfl
  | recoverStart w =>
    cases h
    refine .keep ?_ rfl
    split_ifs <;> rfl
  | recoverSent w =>
    cases h
    -- what follows depends on the pending list, the lock does not
    have hpc (c : Core) : (if c.flow.pending.isEmpty then StreamPc.recoverReset w
        else .recoverDrain w).holdsLock = w.underLock := by
      split_ifs <;> rfl
    rw [hpc]
    exact .of_site w c
  | recoverEnd w =>
    cases w <;> cases h <;> exact .keep rfl rfl
  | outcome err =>
    cases err <;> simp only [advanceStream] at h <;> (try split_ifs at h) <;> cases h <;>
      exact .keep rfl rfl
  | cancelling pc e =>
    simp only [advanceStream] at h
    split at h
    · cases h
      exact .keep rfl rfl
    · obtain ⟨⟨c1, pc1⟩, h1, h2⟩ := Option.map_eq_some_iff.mp h
      cases h2
      exact .keep rfl (advanceCancel_frame h1).1.cmdLock
  | _ =>
    simp only [advanceStream] at h
    try split_ifs at h
    all_goals cases h
    all_goals exact .keep rfl rfl

theorem advanceQueue_lock {pc pc' : QueuePc} (h : advanceQueue i ch c pc = some (c', pc')) :
    LockChange i pc.holdsLock pc'.holdsLock c c' := by
  cases pc with
  | top =>
    simp only [advanceQueue] at h
    split_ifs at h <;> cases h <;> exact .keep rfl rfl
  | recv =>
    simp only [advanceQueue] at h
    split at h
    · cases h
    · split_ifs at h <;> cases h <;> exact .keep rfl rfl
  | lockWait r =>
    simp only [advanceQueue] at h
    split_ifs at h with hfree
    cases h
    exact .take rfl (Option.isNone_iff_eq_none.mp hfree) rfl
  | locked r =>
    simp only [advanceQueue] at h
    split_ifs at h <;> cases h
    · exact .give rfl rfl rfl
    · exact .keep rfl rfl
    · exact .keep rfl rfl
  | writing r err =>
    cases h
    refine .give rfl ?_ rfl
    split_ifs <;> rfl
  | _ =>
    simp only [advanceQueue] at h
    try split_ifs at h
    all_goals cases h
    all_goals exact .keep rfl rfl

theorem advanceInteractive_lock {command : Text} {pc pc' : InteractivePc}
    (h : advanceInteractive i command ch c pc = some (c', pc')) :
    LockChange i pc.holdsLock pc'.holdsLock c c' := by
  cases pc with
  | lockWait r =>
    simp only [advanceInteractive] at h
    split_ifs at h with hfree
    cases h
    exact .take rfl (Option.isNone_iff_eq_none.mp hfree) rfl
  | locked r =>
    cases h
    refine .keep ?_ rfl
    split_ifs <;> rfl
  | begin r =>
    cases h
    refine .keep ?_ rfl
    split_ifs <;> rfl
  | writing r err =>
    cases h
    refine .keep ?_ rfl
    split_ifs <;> rfl
  | finish r result =>
    cases h
    exact .give rfl rfl rfl
  | _ =>
    simp only [advanceInteractive] at h
    try split_ifs at h
    all_goals cases h
    all_goals exact .keep rfl rfl

/-- A run, a connection and their like leave the lock alone. -/
theorem advanceRun_lock {job : Job} {pc pc' : RunPc} {spawns : Bool}
    (h : advanceRun n job ch c pc = some (c', pc', spawns)) : c'.cmdLock = c.cmdLock := by
  cases pc with
  | rawNext realtime =>
    cases realtime <;> simp only [advanceRun] at h <;> (try split_ifs at h) <;> cases h <;> rfl
  | abort =>
    simp only [advanceRun] at h
    split at h
    · cases h
      rfl
    · split_ifs at h <;> cases h <;> rfl
  | _ =>
    simp only [advanceRun] at h
    try split_ifs at h
    all_goals cases h
    all_goals rfl

theorem advanceLink_lock {connect spawns : Bool} {pc pc' : LinkPc}
    (h : advanceLink n connect c pc = some (c', pc', spawns)) : c'.cmdLock = c.cmdLock := by
  cases pc with
  | abort =>
    simp only [advanceLink] at h
    split at h
    · cases h
      rfl
    · split_ifs at h <;> cases h <;> rfl
  | stop =>
    simp only [advanceLink] at h
    split at h <;> cases h <;> rfl
  | _ =>
    simp only [advanceLink] at h
    try split_ifs at h
    all_goals cases h
    all_goals rfl

/-- **The lock under a step of any task.** -/
theorem advance_lock {b b' : Body} {spawned : List Body}
    (h : advance n i ch c b = some (c', b', spawned)) :
    LockChange i b.holdsLock b'.holdsLock c c' ∧ ∀ d ∈ spawned, d.holdsLock = false := by
  cases b with
  | stream job pc =>
    obtain ⟨⟨c1, pc1⟩, h1, h2⟩ := Option.map_eq_some_iff.mp h
    cases h2
    exact ⟨advanceStream_lock h1, fun d hd => absurd hd List.not_mem_nil⟩
  | cancel em pc =>
    obtain ⟨⟨c1, pc1⟩, h1, h2⟩ := Option.map_eq_some_iff.mp h
    cases h2
    exact ⟨.keep rfl (advanceCancel_frame h1).1.cmdLock, fun d hd => absurd hd List.not_mem_nil⟩
  | run job pc =>
    obtain ⟨⟨c1, pc1, spawns⟩, h1, h2⟩ := Option.map_eq_some_iff.mp h
    cases h2
    refine ⟨.keep rfl (advanceRun_lock h1), fun d hd => ?_⟩
    split_ifs at hd
    · obtain rfl := List.mem_singleton.mp hd
      rfl
    · exact absurd hd List.not_mem_nil
  | execute command pc =>
    obtain ⟨⟨c1, pc1⟩, h1, h2⟩ := Option.map_eq_some_iff.mp h
    cases h2
    refine ⟨.keep rfl ?_, fun d hd => absurd hd List.not_mem_nil⟩
    cases pc <;> simp only [advanceExecute] at h1 <;> (try split_ifs at h1) <;> cases h1 <;> rfl
  | queue pc =>
    obtain ⟨⟨c1, pc1⟩, h1, h2⟩ := Option.map_eq_some_iff.mp h
    cases h2
    exact ⟨advanceQueue_lock h1, fun d hd => absurd hd List.not_mem_nil⟩
  | interactive command pc =>
    obtain ⟨⟨c1, pc1⟩, h1, h2⟩ := Option.map_eq_some_iff.mp h
    cases h2
    exact ⟨advanceInteractive_lock h1, fun d hd => absurd hd List.not_mem_nil⟩
  | hold hold pc =>
    obtain ⟨⟨c1, pc1⟩, h1, h2⟩ := Option.map_eq_some_iff.mp h
    cases h2
    refine ⟨.keep rfl ?_, fun d hd => absurd hd List.not_mem_nil⟩
    cases pc with
    | start =>
      simp only [advanceHold] at h1
      split_ifs at h1 <;> cases h1 <;> rfl
    | writing err =>
      cases h1
      rfl
    | returned => cases h1
  | link connect pc =>
    obtain ⟨⟨c1, pc1, spawns⟩, h1, h2⟩ := Option.map_eq_some_iff.mp h
    cases h2
    refine ⟨.keep rfl (advanceLink_lock h1), fun d hd => ?_⟩
    split_ifs at hd
    · obtain rfl := List.mem_singleton.mp hd
      rfl
    · exact absurd hd List.not_mem_nil

end Steps

/-! ### Mutual exclusion -/

theorem Call.holdsLock_body (op : Call) : op.body.holdsLock = false := by cases op <;> rfl

/-- Whoever is at a counter under the lock owns it, unless its future was dropped. -/
def Locked (s : Sys) : Prop :=
  ∀ (i : ℕ) (b : Body), s.tasks[i]? = some b → b.holdsLock = true → i ∉ s.core.ended →
    s.core.cmdLock = some i

/-- At most one task holds the lock. -/
theorem Locked.unique {s : Sys} {i j : ℕ} {b d : Body} (h : Locked s) (hi : s.tasks[i]? = some b)
    (hb : b.holdsLock = true) (hie : i ∉ s.core.ended) (hj : s.tasks[j]? = some d)
    (hd : d.holdsLock = true) (hje : j ∉ s.core.ended) : i = j :=
  Option.some.inj ((h i b hi hb hie).symm.trans (h j d hj hd hje))

section Session

variable {s u : Sys} {l : Label}

/-- **Mutual exclusion is kept by every step.** -/
theorem Locked.step (h : Locked s) (hs : Sys.step l s = some u) : Locked u := by
  by_cases hl : ∃ i ch, l = .task i ch
  · obtain ⟨i, ch, rfl⟩ := hl
    have hgrows := (Sys.step_grows hs).2
    obtain ⟨b, c', b', spawned, hb, halive, -, hadv, rfl⟩ := Sys.step_task hs
    have hlt : i < s.tasks.length := (List.getElem?_eq_some_iff.mp hb).1
    have hi : i ∉ s.core.ended := by
      intro hmem
      rw [Sys.alive_eq_false.mpr (.inr hmem)] at halive
      cases halive
    obtain ⟨hchange, hspawned⟩ := advance_lock hadv
    intro k d hk hd hke
    have hke' : k ∉ s.core.ended := fun hmem => hke (hgrows hmem)
    change (s.tasks.set i b' ++ spawned)[k]? = some d at hk
    change c'.cmdLock = some k
    rw [List.getElem?_append] at hk
    split_ifs at hk with hklt
    · by_cases hik : i = k
      · -- the task that moved
        subst hik
        rw [List.getElem?_set_self hlt] at hk
        cases hk
        rcases hchange with ⟨hheld, hlock⟩ | ⟨-, -, hlock⟩ | ⟨-, hheld', -⟩
        · exact hlock.trans (h i b hb (hheld.symm.trans hd) hi)
        · exact hlock
        · rw [hd] at hheld'
          cases hheld'
      · -- another one that holds the lock keeps the mover from changing it
        rw [List.getElem?_set_ne hik] at hk
        have howner := h k d hk hd hke'
        rcases hchange with ⟨-, hlock⟩ | ⟨-, hfree, -⟩ | ⟨hheld, -, -⟩
        · exact hlock.trans howner
        · rw [hfree] at howner
          cases howner
        · exact absurd (h.unique hb hheld hi hk hd hke') hik
    · rw [hspawned d (List.mem_of_getElem? hk)] at hd
      cases hd
  · obtain ⟨-, -, -, hgrows, -, -⟩ := Sys.step_other hs fun i ch hi => hl ⟨i, ch, hi⟩
    -- no other step moves a task to a counter under the lock
    have hsame : u.core.cmdLock = s.core.cmdLock → u.tasks = s.tasks → Locked u :=
      fun hc ht k d hk hd hke => hc.trans (h k d (by rw [← ht]; exact hk) hd
        fun hmem => hke (hgrows hmem))
    cases l with
    | task i ch => exact absurd ⟨i, ch, rfl⟩ hl
    | call op =>
      simp only [Sys.step] at hs
      split_ifs at hs
      cases hs
      intro k d hk hd hke
      change (s.tasks ++ [op.body])[k]? = some d at hk
      rw [List.getElem?_append] at hk
      split_ifs at hk
      · exact h k d hk hd hke
      · obtain rfl := List.mem_singleton.mp (List.mem_of_getElem? hk)
        rw [op.holdsLock_body] at hd
        cases hd
    | drop i =>
      simp only [Sys.step, Sys.dropTask] at hs
      split at hs
      case isFalse => cases hs
      cases hs
      intro k d hk hd hke
      have howner := h k d hk hd fun hmem => hke (List.mem_cons_of_mem i hmem)
      have hik : i ≠ k := by
        rintro rfl
        exact hke List.mem_cons_self
      change (if s.core.cmdLock = some i then none else s.core.cmdLock) = some k
      rw [howner, if_neg fun he => hik (Option.some.inj he).symm]
    | rx data =>
      simp only [Sys.step, Sys.outside] at hs
      split_ifs at hs
      cases hs
      exact hsame (handleRx_frame data s.core).cmdLock rfl
    | poll err =>
      simp only [Sys.step, Sys.outside] at hs
      split_ifs at hs
      cases hs
      refine hsame ?_ rfl
      change (Sys.pollStatus err s.core).cmdLock = _
      unfold Sys.pollStatus
      split_ifs <;> rfl
    | _ =>
      simp only [Sys.step, Sys.outside] at hs
      split_ifs at hs
      cases hs
      exact hsame rfl rfl

/-- **At most one task of a session is under the lock.** -/
theorem locked_of_run {s₀ : Sys} (h0 : s₀.tasks = []) (hr : Run Sys.step AnyStep s₀ s) :
    Locked s :=
  hr.invariant (fun _ _ _ h hs _ => h.step hs) fun i b hb => by rw [h0] at hb; cases hb

end Session

/-! ### The lock is not lost -/

theorem LockChange.mutex {i : ℕ} {held held' : Bool} {c c' : Core}
    (h : LockChange i held held' c c') : MutexStep i held held' c.cmdLock c'.cmdLock := by
  rcases h with ⟨hheld, hlock⟩ | ⟨hheld, hfree, hlock⟩ | ⟨hheld, hheld', hlock⟩
  · exact .keep hheld hlock
  · exact .take hheld hfree hlock
  · exact .give hheld hheld' hlock

section Ended

variable {n i : ℕ} {ch : Choice} {c c' : Core}

theorem advanceStream_ended {job : Job} {pc pc' : StreamPc}
    (h : advanceStream i job ch c pc = some (c', pc')) :
    c'.ended = c.ended ∨ (c'.ended = i :: c.ended ∧ pc'.holdsLock = false) := by
  cases pc with
  | loopTop idx rest =>
    cases rest <;> simp only [advanceStream] at h <;> (try split_ifs at h) <;> cases h <;>
      exact .inl rfl
  | writing s err =>
    cases err <;> cases h <;> exact .inl rfl
  | poll w =>
    cases w <;> cases h <;> exact .inl rfl
  | pollWriting w before err =>
    cases err <;> cases h <;> exact .inl rfl
  | pollAwait w before left =>
    cases left <;> cases h <;> exact .inl rfl
  | pollEnd w idle =>
    cases w <;> simp only [advanceStream] at h <;> split_ifs at h <;> cases h <;> exact .inl rfl
  | recover w =>
    cases w <;> simp only [advanceStream] at h <;> split_ifs at h <;> cases h <;> exact .inl rfl
  | recoverEnd w =>
    cases w <;> cases h <;> exact .inl rfl
  | outcome err =>
    cases err <;> simp only [advanceStream] at h <;> (try split_ifs at h) <;> cases h <;>
      exact .inl rfl
  | cancelling pc e =>
    simp only [advanceStream] at h
    split at h
    · cases h
      exact .inl rfl
    · obtain ⟨⟨c1, pc1⟩, h1, h2⟩ := Option.map_eq_some_iff.mp h
      cases h2
      exact .inl (advanceCancel_frame h1).1.ended
  | final err =>
    cases h
    exact .inr ⟨rfl, rfl⟩
  | _ =>
    simp only [advanceStream] at h
    try split_ifs at h
    all_goals cases h
    all_goals exact .inl rfl

theorem advanceRun_ended {job : Job} {pc pc' : RunPc} {spawns : Bool}
    (h : advanceRun n job ch c pc = some (c', pc', spawns)) : c'.ended = c.ended := by
  cases pc with
  | rawNext realtime =>
    cases realtime <;> simp only [advanceRun] at h <;> (try split_ifs at h) <;> cases h <;> rfl
  | abort =>
    simp only [advanceRun] at h
    split at h
    · cases h
      rfl
    · split_ifs at h <;> cases h <;> rfl
  | _ =>
    simp only [advanceRun] at h
    try split_ifs at h
    all_goals cases h
    all_goals rfl

theorem advanceQueue_ended {pc pc' : QueuePc} (h : advanceQueue i ch c pc = some (c', pc')) :
    c'.ended = c.ended := by
  cases pc with
  | recv =>
    simp only [advanceQueue] at h
    split at h
    · cases h
    · split_ifs at h <;> cases h <;> rfl
  | _ =>
    simp only [advanceQueue] at h
    try split_ifs at h
    all_goals cases h
    all_goals rfl

theorem advanceInteractive_ended {command : Text} {pc pc' : InteractivePc}
    (h : advanceInteractive i command ch c pc = some (c', pc')) : c'.ended = c.ended := by
  cases pc <;> simp only [advanceInteractive] at h <;> (try split_ifs at h) <;> cases h <;> rfl

theorem advanceLink_ended {connect spawns : Bool} {pc pc' : LinkPc}
    (h : advanceLink n connect c pc = some (c', pc', spawns)) : c'.ended = c.ended := by
  cases pc with
  | abort =>
    simp only [advanceLink] at h
    split at h
    · cases h
      rfl
    · split_ifs at h <;> cases h <;> rfl
  | stop =>
    simp only [advanceLink] at h
    split at h <;> cases h <;> rfl
  | _ =>
    simp only [advanceLink] at h
    try split_ifs at h
    all_goals cases h
    all_goals rfl

/-- A task ends on its own only when it is not under the lock. -/
theorem advance_ended {b b' : Body} {spawned : List Body}
    (h : advance n i ch c b = some (c', b', spawned)) :
    c'.ended = c.ended ∨ (c'.ended = i :: c.ended ∧ b'.holdsLock = false) := by
  cases b with
  | stream job pc =>
    obtain ⟨⟨c1, pc1⟩, h1, h2⟩ := Option.map_eq_some_iff.mp h
    cases h2
    exact advanceStream_ended h1
  | cancel em pc =>
    obtain ⟨⟨c1, pc1⟩, h1, h2⟩ := Option.map_eq_some_iff.mp h
    cases h2
    exact .inl (advanceCancel_frame h1).1.ended
  | run job pc =>
    obtain ⟨⟨c1, pc1, spawns⟩, h1, h2⟩ := Option.map_eq_some_iff.mp h
    cases h2
    exact .inl (advanceRun_ended h1)
  | execute command pc =>
    obtain ⟨⟨c1, pc1⟩, h1, h2⟩ := Option.map_eq_some_iff.mp h
    cases h2
    left
    cases pc <;> simp only [advanceExecute] at h1 <;> (try split_ifs at h1) <;> cases h1 <;> rfl
  | queue pc =>
    obtain ⟨⟨c1, pc1⟩, h1, h2⟩ := Option.map_eq_some_iff.mp h
    cases h2
    exact .inl (advanceQueue_ended h1)
  | interactive command pc =>
    obtain ⟨⟨c1, pc1⟩, h1, h2⟩ := Option.map_eq_some_iff.mp h
    cases h2
    exact .inl (advanceInteractive_ended h1)
  | hold hold pc =>
    obtain ⟨⟨c1, pc1⟩, h1, h2⟩ := Option.map_eq_some_iff.mp h
    cases h2
    left
    cases pc <;> simp only [advanceHold] at h1 <;> (try split_ifs at h1) <;> cases h1 <;> rfl
  | link connect pc =>
    obtain ⟨⟨c1, pc1, spawns⟩, h1, h2⟩ := Option.map_eq_some_iff.mp h
    cases h2
    exact .inl (advanceLink_ended h1)

end Ended

/-- The task `i` is alive at a counter under the lock. -/
def Sys.holds (s : Sys) (i : ℕ) : Bool :=
  (s.tasks[i]?).any Body.holdsLock && !s.core.ended.contains i

section Owner

variable {s u : Sys} {l : Label}

/-- A task that is not there is not under the lock. -/
theorem Sys.holds_append {spawned : List Body} (h : ∀ d ∈ spawned, d.holdsLock = false)
    (tasks : List Body) (k : ℕ) :
    ((tasks ++ spawned)[k]?).any Body.holdsLock = (tasks[k]?).any Body.holdsLock := by
  rw [List.getElem?_append]
  split_ifs with hk
  · rfl
  · rw [List.getElem?_eq_none (l := tasks) (not_lt.mp hk)]
    cases hd : spawned[k - tasks.length]? with
    | none => rfl
    | some d => exact h d (List.mem_of_getElem? hd)

/-- **The lock is with its holder, and with nobody else, after every step.** -/
theorem Sys.owned_step (h : Owned s.core.cmdLock s.holds) (hs : Sys.step l s = some u) :
    Owned u.core.cmdLock u.holds := by
  by_cases hl : ∃ i ch, l = .task i ch
  · obtain ⟨i, ch, rfl⟩ := hl
    obtain ⟨b, c', b', spawned, hb, halive, -, hadv, rfl⟩ := Sys.step_task hs
    have hlt : i < s.tasks.length := (List.getElem?_eq_some_iff.mp hb).1
    have hi : s.core.ended.contains i = false := by
      rw [Sys.alive, Bool.and_eq_true, Bool.not_eq_true', Bool.not_eq_true'] at halive
      exact halive.2
    obtain ⟨hchange, hspawned⟩ := advance_lock hadv
    have hended := advance_ended hadv
    -- what the others do is not touched
    have hothers : ∀ k, k ≠ i →
        (⟨c', s.tasks.set i b' ++ spawned, if b'.suspended then none else some i⟩ : Sys).holds k =
          s.holds k := by
      intro k hk
      unfold Sys.holds
      dsimp only
      rw [Sys.holds_append hspawned, List.getElem?_set_ne (Ne.symm hk)]
      congr 2
      rcases hended with hended | ⟨hended, -⟩
      · rw [hended]
      · rw [hended, List.contains_cons, beq_eq_false_iff_ne.mpr hk, Bool.false_or]
    have hbefore : s.holds i = b.holdsLock := by
      unfold Sys.holds
      rw [hb, hi]
      exact Bool.and_true _
    refine h.change (i := i) ?_ hothers
    rw [hbefore]
    have hafter : (⟨c', s.tasks.set i b' ++ spawned, if b'.suspended then none else some i⟩ :
        Sys).holds i = b'.holdsLock := by
      unfold Sys.holds
      dsimp only
      rw [Sys.holds_append hspawned, List.getElem?_set_self hlt, Option.any_some]
      rcases hended with hended | ⟨-, hfree⟩
      · rw [hended, hi]
        exact Bool.and_true _
      · rw [hfree]
        rfl
    rw [hafter]
    exact hchange.mutex
  · -- no other step moves a task to a counter under the lock
    cases l with
    | task i ch => exact absurd ⟨i, ch, rfl⟩ hl
    | call op =>
      simp only [Sys.step] at hs
      split_ifs at hs
      cases hs
      apply h.keep rfl
      intro k
      unfold Sys.holds
      dsimp only
      rw [Sys.holds_append fun d hd => by rw [List.mem_singleton.mp hd, op.holdsLock_body]]
    | drop i =>
      simp only [Sys.step, Sys.dropTask] at hs
      split at hs
      case isFalse => cases hs
      cases hs
      apply h.drop
      · unfold Sys.holds
        rw [List.contains_cons, beq_self_eq_true, Bool.true_or]
        exact Bool.and_false _
      · intro k hk
        unfold Sys.holds
        dsimp only
        rw [List.contains_cons, beq_eq_false_iff_ne.mpr hk, Bool.false_or]
    | rx data =>
      simp only [Sys.step, Sys.outside] at hs
      split_ifs at hs
      cases hs
      have hframe := handleRx_frame data s.core
      apply h.keep hframe.cmdLock
      intro k
      unfold Sys.holds
      dsimp only
      rw [hframe.ended]
    | poll err =>
      simp only [Sys.step, Sys.outside] at hs
      split_ifs at hs
      cases hs
      have hkept : (Sys.pollStatus err s.core).cmdLock = s.core.cmdLock ∧
          (Sys.pollStatus err s.core).ended = s.core.ended := by
        unfold Sys.pollStatus
        split_ifs <;> exact ⟨rfl, rfl⟩
      apply h.keep hkept.1
      intro k
      unfold Sys.holds
      dsimp only
      rw [hkept.2]
    | _ =>
      simp only [Sys.step, Sys.outside] at hs
      split_ifs at hs
      cases hs
      exact h.keep rfl fun k => rfl

theorem owned_of_run {s₀ : Sys} (h0 : s₀.tasks = []) (hfree : s₀.core.cmdLock = none)
    (hr : Run Sys.step AnyStep s₀ s) : Owned s.core.cmdLock s.holds := by
  apply hr.invariant (I := fun s => Owned s.core.cmdLock s.holds)
  · intro a l b ha hs _
    exact Sys.owned_step ha hs
  · intro k
    unfold Sys.holds
    rw [hfree, h0]
    exact ⟨fun he => (by cases he), fun he => (by cases he)⟩

/-- **The lock is not lost.**  In every state of a session, whatever the jobs, the commands,
the cancellations and the aborts before it, and whatever writes failed: `cmd_lock` is with the
task `i` exactly while `i` is alive at a counter under the lock, and it is free exactly while
there is no such task.  So no way out of a region under the lock, by an early return, by an
error or by the drop of the task, leaves it taken. -/
theorem lock_is_never_lost {s₀ s : Sys} (h0 : s₀.tasks = []) (hfree : s₀.core.cmdLock = none)
    (hr : Run Sys.step AnyStep s₀ s) :
    (∀ i, s.core.cmdLock = some i ↔ s.holds i = true) ∧
      (s.core.cmdLock = none ↔ ∀ i, s.holds i = false) := by
  have h := owned_of_run h0 hfree hr
  exact ⟨h, h.free_iff⟩

/-- A session with room for one line. -/
def tightSession : Sys := ⟨{ flow := { rxSize := some 10 } }, [], none⟩

/-- The job of `twoLines` as task 1, parked under the lock at its second line. -/
def lineWaits : List Label := .call (.run twoLines) :: turns 0 3 ++ turns 1 13

/-- The line that waits for space has the lock. -/
theorem lock_is_never_lost_waiting : (reach Sys.step lineWaits tightSession).holds 1 = true :=
  ((lock_is_never_lost rfl rfl (run_reach (by decide))).1 1).mp (by decide)

end Owner

end Raydriver
