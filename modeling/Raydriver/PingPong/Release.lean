import Raydriver.PingPong.Lock
import Raydriver.Lib.Mutex

/-!
# Whoever holds the lock gives it back

The exchange of a command holds `cmd_lock` over two awaits, the write and the wait for the
acknowledgement, and the second has a timeout.  The lock is given back on every way out of the
exchange: by the answer, by the timeout, by a write that failed, and by a transport that is
gone.  The polls give it back behind their write, and when they are dropped.

## Main definitions

* `Sys.holds` — the task is in the middle of an exchange, or of a poll.
* `Body.pollEnters` — the exchange of a position poll that would take the lock; there is none.
* `Sys.Parked` — all tasks but the active one are at an await point.

## Main results

* `advance_mutex` — the lock under a step of any task, both ways.
* `exchange_lock_is_never_lost` — **the lock is with a task exactly while the task is under
  it.**
* `exchange_lock_is_released` — **at most two steps of the holder are enough.**
-/

namespace Raydriver.PingPong

open Lts

/-- The exchange of a position poll is about to take the lock. -/
def Body.pollEnters : Body → Bool
  | .poll (.ping pc) => pc.entering
  | _ => false

section Mutex

variable {fw : Firmware} {i : ℕ} {ch : Choice} {c c' : Core} {b b' : Body}

theorem holding_of_entering {pc : PingPc} (h : pc.entering = true) : pc.holding = false := by
  cases pc <;> first | rfl | cases h

theorem PingStep.mutex {serialize : Bool} {command : Text} {pc pc' : PingPc}
    (h : PingStep fw i serialize command c pc c' pc')
    (hser : serialize = false → pc.entering = false) :
    MutexStep i (serialize && pc.holding) (serialize && pc'.holding) c.cmdLock c'.cmdLock := by
  have hend : ∀ cmd (p : PingPc), p.holding = false → pc.holding = true →
      MutexStep i (serialize && pc.holding) (serialize && p.holding) c.cmdLock
        (c.endPing fw serialize cmd).cmdLock := by
    intro cmd p hp hpc
    rw [cmdLock_endPing, hp, hpc]
    cases serialize with
    | true => exact .give rfl rfl rfl
    | false => exact .keep rfl rfl
  cases h with
  | enter pc pc' h h' =>
    rw [holding_of_entering h, holding_of_entering h']
    exact .keep rfl rfl
  | bare h =>
    rw [h]
    exact .keep rfl rfl
  | refused pc e h =>
    rw [holding_of_entering h]
    exact .keep rfl rfl
  | lock hfree =>
    cases serialize with
    | true => exact .take rfl hfree rfl
    | false => cases hser rfl
  | closed e =>
    cases serialize with
    | true => exact .give rfl rfl rfl
    | false => exact .keep rfl rfl
  | write err => exact .keep rfl rfl
  | written cmd => exact .keep rfl rfl
  | failed cmd err e => exact hend cmd _ rfl rfl
  | answered cmd hfin => exact hend cmd _ rfl rfl
  | expired cmd hfin => exact hend cmd _ rfl rfl

/-- An exchange that has begun does not enter again. -/
theorem PingStep.not_entering {serialize : Bool} {command : Text} {pc pc' : PingPc}
    (h : PingStep fw i serialize command c pc c' pc') (hpc : pc.entering = false) :
    pc'.entering = false := by
  cases h with
  | enter pc pc' h h' =>
    rw [hpc] at h
    cases h
  | _ => rfl

theorem advanceRun_mutex {job : Job} {pc pc' : RunPc}
    (h : advanceRun fw i job ch c pc = some (c', pc')) :
    MutexStep i (Body.run job pc).holding (Body.run job pc').holding c.cmdLock c'.cmdLock := by
  cases pc with
  | rawNext realtime =>
    cases realtime <;> simp only [advanceRun] at h <;> split_ifs at h <;> cases h <;>
      exact .keep rfl rfl
  | top idx rest =>
    cases rest with
    | nil =>
      cases h
      exact .keep rfl rfl
    | cons rawLine rest =>
      simp only [advanceRun] at h
      split_ifs at h <;> cases h
      · exact .keep rfl rfl
      · exact .keep rfl rfl
      · refine .keep rfl ?_
        unfold Core.reportOp
        split
        · rfl
        · split_ifs <;> rfl
  | ping idx line rest pc =>
    simp only [advanceRun] at h
    split at h
    · cases h
      exact .keep rfl rfl
    · cases h
      refine .keep ?_ rfl
      split_ifs <;> rfl
    · obtain ⟨⟨c1, pc1⟩, h1, h2⟩ := Option.map_eq_some_iff.mp h
      cases h2
      exact (advancePing_step h1).mutex fun hser => by cases hser
  | shutdown was pc =>
    simp only [advanceRun] at h
    split at h
    · cases h
      exact .keep rfl rfl
    · obtain ⟨⟨c1, pc1⟩, h1, h2⟩ := Option.map_eq_some_iff.mp h
      cases h2
      exact .keep rfl (advanceShutdown_flags h1).2.2
  | rawWriting realtime err =>
    cases h
    refine .keep ?_ rfl
    split_ifs <;> rfl
  | ended interrupted =>
    cases h
    refine .keep ?_ rfl
    split_ifs <;> rfl
  | returned => cases h
  | _ =>
    cases h
    exact .keep rfl rfl

theorem advancePoll_mutex {pc pc' : PollPc} (h : advancePoll fw i ch c pc = some (c', pc'))
    (hpc : (Body.poll pc).pollEnters = false) :
    MutexStep i (Body.poll pc).holding (Body.poll pc').holding c.cmdLock c'.cmdLock ∧
      (Body.poll pc').pollEnters = false := by
  cases pc with
  | lockWait =>
    simp only [advancePoll] at h
    split_ifs at h with hfree
    cases h
    exact ⟨.take rfl (Option.isNone_iff_eq_none.mp hfree) rfl, rfl⟩
  | locked =>
    simp only [advancePoll] at h
    split_ifs at h <;> cases h
    · exact ⟨.keep rfl rfl, rfl⟩
    · exact ⟨.give rfl rfl rfl, rfl⟩
  | writing err =>
    cases h
    refine ⟨.give rfl ?_ rfl, ?_⟩ <;> split_ifs <;> rfl
  | ping pc =>
    simp only [advancePoll] at h
    split at h
    · cases h
      refine ⟨.keep ?_ rfl, ?_⟩ <;> split_ifs <;> rfl
    · obtain ⟨⟨c1, pc1⟩, h1, h2⟩ := Option.map_eq_some_iff.mp h
      cases h2
      have hstep := advancePing_step h1
      exact ⟨hstep.mutex fun _ => hpc, hstep.not_entering hpc⟩
  | top =>
    simp only [advancePoll] at h
    split_ifs at h <;> cases h <;> exact ⟨.keep rfl rfl, rfl⟩
  | sleep =>
    cases h
    exact ⟨.keep rfl rfl, rfl⟩
  | returned => cases h

/-- **The lock under a step of any task, both ways.** -/
theorem advance_mutex (h : advance fw i ch c b = some (c', b')) (hb : b.pollEnters = false) :
    MutexStep i b.holding b'.holding c.cmdLock c'.cmdLock ∧ b'.pollEnters = false := by
  cases b with
  | run job pc =>
    obtain ⟨⟨c1, pc1⟩, h1, h2⟩ := Option.map_eq_some_iff.mp h
    cases h2
    exact ⟨advanceRun_mutex h1, rfl⟩
  | execute command pc =>
    obtain ⟨⟨c1, pc1⟩, h1, h2⟩ := Option.map_eq_some_iff.mp h
    cases h2
    refine ⟨?_, rfl⟩
    cases pc with
    | start =>
      cases h1
      exact .keep rfl rfl
    | ping pc =>
      obtain ⟨⟨c2, pc2⟩, h2, h3⟩ := Option.map_eq_some_iff.mp h1
      cases h3
      exact (advancePing_step h2).mutex fun hser => by cases hser
  | cancel em pc =>
    obtain ⟨⟨c1, pc1⟩, h1, h2⟩ := Option.map_eq_some_iff.mp h
    cases h2
    refine ⟨.keep rfl ?_, rfl⟩
    cases pc with
    | start =>
      simp only [advanceCancel] at h1
      split_ifs at h1 <;> cases h1 <;> rfl
    | stopping was err => cases err <;> cases h1 <;> rfl
    | shutdown was pc =>
      simp only [advanceCancel] at h1
      split at h1
      · cases h1
        rfl
      · obtain ⟨⟨c2, pc2⟩, h2, h3⟩ := Option.map_eq_some_iff.mp h1
        cases h3
        exact (advanceShutdown_flags h2).2.2
    | returned err => cases h1
  | hold hold pc =>
    obtain ⟨⟨c1, pc1⟩, h1, h2⟩ := Option.map_eq_some_iff.mp h
    cases h2
    refine ⟨.keep rfl ?_, rfl⟩
    cases pc with
    | start =>
      simp only [advanceHold] at h1
      split_ifs at h1 <;> cases h1 <;> rfl
    | writing err =>
      cases h1
      rfl
    | returned => cases h1
  | poll pc =>
    obtain ⟨⟨c1, pc1⟩, h1, h2⟩ := Option.map_eq_some_iff.mp h
    cases h2
    exact advancePoll_mutex h1 hb

end Mutex

/-! ### The lock is not lost -/

/-- The task `i` is in the middle of an exchange, or of a poll. -/
def Sys.holds (s : Sys) (i : ℕ) : Bool := (s.tasks[i]?).any Body.holding

/-- The lock is with its holder, no position poll is about to take it, and all tasks but the
active one are at an await point. -/
structure Sys.Kept (s : Sys) : Prop where
  owned : Owned s.core.cmdLock s.holds
  polls : ∀ (i : ℕ) (b : Body), s.tasks[i]? = some b → b.pollEnters = false
  parked : ∀ (i : ℕ) (b : Body), s.tasks[i]? = some b → s.active ≠ some i → b.suspended = true

section Session

variable {fw : Firmware} {s u : Sys} {l : Label} {i : ℕ} {ch : Choice}

/-- The task of a call begins outside every exchange. -/
theorem Call.body_outside {op : Call} {b : Body} (h : op.body fw = some b) :
    b.holding = false ∧ b.pollEnters = false := by
  cases op with
  | runRaw lines => cases fw <;> cases h <;> exact ⟨rfl, rfl⟩
  | setHold hold =>
    simp only [Call.body] at h
    split_ifs at h
    cases h
    exact ⟨rfl, rfl⟩
  | _ =>
    cases h
    exact ⟨rfl, rfl⟩

/-- The step of a task takes the lock, gives it back, or leaves it. -/
theorem Sys.Kept.task (h : s.Kept) (hs : Sys.step fw (.task i ch) s = some u) : u.Kept := by
  obtain ⟨b, c', b', hb, hactive, hadv, rfl⟩ := Sys.step_task hs
  have hlt : i < s.tasks.length := (List.getElem?_eq_some_iff.mp hb).1
  obtain ⟨hmutex, hpoll⟩ := advance_mutex hadv (h.polls i b hb)
  have hmine : (s.tasks.set i b')[i]? = some b' := List.getElem?_set_self hlt
  refine ⟨h.owned.change (i := i) ?_ ?_, ?_, ?_⟩
  · unfold Sys.holds
    dsimp only
    rw [hb, hmine]
    exact hmutex
  · intro k hk
    unfold Sys.holds
    dsimp only
    rw [List.getElem?_set_ne (Ne.symm hk)]
  · intro k d hk
    by_cases hik : i = k
    · subst hik
      rw [hmine] at hk
      cases hk
      exact hpoll
    · rw [List.getElem?_set_ne hik] at hk
      exact h.polls k d hk
  · -- the other tasks were at an await point, the one that moved was the active one or is now
    intro k d hk hkactive
    by_cases hik : i = k
    · subst hik
      rw [hmine] at hk
      cases hk
      by_contra hsuspended
      exact hkactive (if_neg hsuspended)
    · rw [List.getElem?_set_ne hik] at hk
      refine h.parked k d hk ?_
      rcases hactive with hactive | ⟨hactive, -⟩
      · rw [hactive]
        exact fun he => hik (Option.some.inj he)
      · rw [hactive]
        exact fun he => by cases he

/-- A call starts outside the lock. -/
theorem Sys.Kept.call {op : Call} {b : Body} (h : s.Kept) (hs : Sys.step fw (.call op) s = some u)
    (hb : op.body fw = some b) (hcore : u.core = s.core) (htasks : u.tasks = s.tasks ++ [b])
    (hall : ∀ (k : ℕ) (d : Body), s.tasks[k]? = some d → d.suspended = true) : u.Kept := by
  obtain ⟨hholding, hpoll⟩ := Call.body_outside hb
  have hcase : ∀ (k : ℕ) (d : Body), u.tasks[k]? = some d →
      s.tasks[k]? = some d ∨ (s.tasks[k]? = none ∧ d = b) := by
    intro k d hk
    rw [htasks, List.getElem?_append] at hk
    split_ifs at hk with hklt
    · exact .inl hk
    · exact .inr ⟨List.getElem?_eq_none (not_lt.mp hklt),
        List.mem_singleton.mp (List.mem_of_getElem? hk)⟩
  refine ⟨h.owned.keep (by rw [hcore]) ?_, ?_, ?_⟩
  · intro k
    unfold Sys.holds
    rw [htasks, List.getElem?_append]
    split_ifs with hklt
    · rfl
    · rw [List.getElem?_eq_none (l := s.tasks) (not_lt.mp hklt)]
      cases hk : [b][k - s.tasks.length]? with
      | none => rfl
      | some d =>
        rw [List.mem_singleton.mp (List.mem_of_getElem? hk)]
        exact hholding
  · intro k d hk
    rcases hcase k d hk with hk | ⟨-, rfl⟩
    · exact h.polls k d hk
    · exact hpoll
  · intro k d hk hkactive
    rcases hcase k d hk with hold | ⟨hnew, rfl⟩
    · exact hall k d hold
    · obtain ⟨-, -, -, hsuspended⟩ := Sys.step_new hs hnew hk
      by_contra hawake
      exact hkactive (hsuspended (by simpa using hawake))

/-- A poll that is dropped gives the lock back. -/
theorem Sys.Kept.drop {pc : PollPc} (h : s.Kept) (hi : s.tasks[i]? = some (.poll pc))
    (hlock : u.core.cmdLock = if s.core.cmdLock = some i then none else s.core.cmdLock)
    (htasks : u.tasks = s.tasks.set i (.poll .returned))
    (hall : ∀ (k : ℕ) (d : Body), s.tasks[k]? = some d → d.suspended = true) : u.Kept := by
  have hlt : i < s.tasks.length := (List.getElem?_eq_some_iff.mp hi).1
  have hmine : u.tasks[i]? = some (.poll .returned) := by
    rw [htasks]
    exact List.getElem?_set_self hlt
  have hothers : ∀ k, k ≠ i → u.tasks[k]? = s.tasks[k]? := by
    intro k hk
    rw [htasks, List.getElem?_set_ne (Ne.symm hk)]
  refine ⟨?_, ?_, ?_⟩
  · rw [hlock]
    apply h.owned.drop
    · unfold Sys.holds
      rw [hmine]
      rfl
    · intro k hk
      unfold Sys.holds
      rw [hothers k hk]
  · intro k d hk
    by_cases hik : k = i
    · rw [hik, hmine] at hk
      cases hk
      rfl
    · rw [hothers k hik] at hk
      exact h.polls k d hk
  · intro k d hk _
    by_cases hik : k = i
    · rw [hik, hmine] at hk
      cases hk
      rfl
    · rw [hothers k hik] at hk
      exact hall k d hk

/-- **Every step keeps the lock with its holder.** -/
theorem Sys.Kept.step (h : s.Kept) (hs : Sys.step fw l s = some u) : u.Kept := by
  by_cases hl : ∃ i ch, l = .task i ch
  · obtain ⟨i, ch, rfl⟩ := hl
    exact h.task hs
  · obtain ⟨hactive, haside⟩ := Sys.step_other hs fun i ch hi => hl ⟨i, ch, hi⟩
    have hall : ∀ (k : ℕ) (d : Body), s.tasks[k]? = some d → d.suspended = true := by
      intro k d hk
      refine h.parked k d hk ?_
      rw [hactive]
      exact fun he => by cases he
    have hsame : u.core.cmdLock = s.core.cmdLock → u.tasks = s.tasks → u.Kept := by
      intro hlock htasks
      refine ⟨h.owned.keep hlock fun k => by unfold Sys.holds; rw [htasks], ?_, ?_⟩
      · rw [htasks]
        exact h.polls
      · rw [htasks]
        exact fun k d hk _ => hall k d hk
    cases haside with
    | rx data hlabel hcore htasks =>
      exact hsame (by rw [hcore]; exact (handleRx_frame data s.core).cmdLock) htasks
    | link up hlabel hcore htasks => exact hsame (by rw [hcore]) htasks
    | announce hlabel hcore htasks => exact hsame (by rw [hcore]) htasks
    | cleanup hlabel hcore htasks => exact hsame (by rw [hcore]; rfl) htasks
    | call op b hlabel hb hcore htasks =>
      rw [hlabel] at hs
      exact h.call hs hb hcore htasks hall
    | drop i pc hlabel hi hcore htasks =>
      refine h.drop hi ?_ htasks hall
      rw [hcore]
      split_ifs <;> rfl

theorem kept_of_run {s₀ : Sys} (h0 : s₀.tasks = []) (hfree : s₀.core.cmdLock = none)
    (hr : Run (Sys.step fw) AnyStep s₀ s) : s.Kept := by
  apply hr.invariant (I := Sys.Kept)
  · intro a l b ha hs _
    exact ha.step hs
  · have hnone : ∀ (k : ℕ) (d : Body), s₀.tasks[k]? ≠ some d := by
      intro k d hk
      rw [h0] at hk
      cases hk
    refine ⟨?_, fun k d hk => absurd hk (hnone k d), fun k d hk => absurd hk (hnone k d)⟩
    intro k
    unfold Sys.holds
    rw [hfree, h0]
    exact ⟨fun he => (by cases he), fun he => (by cases he)⟩

/-- **The lock of the exchanges is not lost.**  In every state of a session, whatever the jobs,
the commands, the polls and their drops before it, and whatever writes failed: `cmd_lock` is with
the task `i` exactly while `i` is in the middle of an exchange or a poll under the lock, and it
is free exactly while there is no such task. -/
theorem exchange_lock_is_never_lost {s₀ : Sys} (h0 : s₀.tasks = [])
    (hfree : s₀.core.cmdLock = none) (hr : Run (Sys.step fw) AnyStep s₀ s) :
    (∀ i, s.core.cmdLock = some i ↔ s.holds i = true) ∧
      (s.core.cmdLock = none ↔ ∀ i, s.holds i = false) := by
  have h := (kept_of_run h0 hfree hr).owned
  exact ⟨h, h.free_iff⟩

/-! ### The lock is released -/

/-- A task takes a step. -/
theorem Sys.step_of_advance {b b' : Body} {c' : Core} {ch : Choice} (hb : s.tasks[i]? = some b)
    (hactive : s.active = some i ∨ (s.active = none ∧ b.suspended = true))
    (h : advance fw i ch s.core b = some (c', b')) :
    Sys.step fw (.task i ch) s =
      some ⟨c', s.tasks.set i b', if b'.suspended then none else some i⟩ := by
  have hguard : (s.active = some i || (s.active = none && b.suspended)) = true := by
    rcases hactive with hactive | ⟨hactive, hsuspended⟩
    · rw [hactive]
      simp
    · rw [hactive, hsuspended]
      simp
  simp only [Sys.step, Sys.advanceTask, hb, hguard, if_true, h, Option.map_some]

/-- The exchange under the lock ends in at most two steps. -/
theorem ping_ends {command : Text} {c : Core} {pc : PingPc} (hheld : pc.holding = true)
    (hsuspended : pc.suspended = true) :
    (∃ ch c' pc', advancePing fw i true command ch c pc = some (c', pc') ∧ c'.cmdLock = none) ∨
      ∃ pc₁, pc₁.suspended = true ∧ advancePing fw i true command {} c pc = some (c, pc₁) ∧
        ∃ ch c' pc', advancePing fw i true command ch c pc₁ = some (c', pc') ∧ c'.cmdLock = none := by
  have hend : ∀ cmd, (c.endPing fw true cmd).cmdLock = none := fun cmd => cmdLock_endPing true cmd c
  have hwait : ∀ cmd, ∃ ch c' pc',
      advancePing fw i true command ch c (.wait cmd) = some (c', pc') ∧ c'.cmdLock = none := by
    intro cmd
    by_cases hfinished : c.isFinished cmd = true
    · exact ⟨{}, _, _, if_pos hfinished, hend cmd⟩
    · refine ⟨{ timedOut := true }, c.endPing fw true cmd,
        .returned (some cmd) [] (some .timeout), ?_, hend cmd⟩
      simp only [advancePing, hfinished, Bool.false_eq_true, if_false, if_true]
  cases pc with
  | writing cmd err =>
    cases err with
    | some e => exact .inl ⟨{}, _, _, rfl, hend cmd⟩
    | none => exact .inr ⟨.wait cmd, rfl, rfl, hwait cmd⟩
  | wait cmd => exact .inl (hwait cmd)
  | locked => cases hsuspended
  | _ => cases hheld

/-- Whoever is under the lock leaves in at most two steps. -/
theorem holder_ends {c : Core} {b : Body} (hheld : b.holding = true)
    (hsuspended : b.suspended = true) :
    (∃ ch c' b', advance fw i ch c b = some (c', b') ∧ c'.cmdLock = none) ∨
      ∃ b₁, b₁.suspended = true ∧ advance fw i {} c b = some (c, b₁) ∧
        ∃ ch c' b', advance fw i ch c b₁ = some (c', b') ∧ c'.cmdLock = none := by
  cases b with
  | run job pc =>
    cases pc with
    | ping idx line rest pc =>
      -- an exchange is not over while it has the lock
      have hlift : ∀ {ch c' pc₀ pc'}, advancePing fw i true line ch c pc₀ = some (c', pc') →
          advance fw i ch c (.run job (.ping idx line rest pc₀)) =
            some (c', .run job (.ping idx line rest pc')) := by
        intro ch c' pc₀ pc' h
        cases pc₀ with
        | returned cmd lines err => cases h
        | _ => simp only [advance, advanceRun, h, Option.map_some]
      rcases @ping_ends fw i line c pc
          (by simpa [Body.holding, Body.ping] using hheld) hsuspended with
        ⟨ch, c', pc', h, hfree⟩ | ⟨pc₁, hpc₁, h, ch, c', pc', h', hfree⟩
      · exact .inl ⟨ch, c', _, hlift h, hfree⟩
      · exact .inr ⟨.run job (.ping idx line rest pc₁), hpc₁, hlift h, ch, c', _, hlift h', hfree⟩
    | _ => cases hheld
  | execute command pc =>
    cases pc with
    | ping pc =>
      have hlift : ∀ {ch c' pc₀ pc'}, advancePing fw i true command ch c pc₀ = some (c', pc') →
          advance fw i ch c (.execute command (.ping pc₀)) =
            some (c', .execute command (.ping pc')) := by
        intro ch c' pc₀ pc' h
        simp only [advance, advanceExecute, h, Option.map_some]
      have hpc : pc.holding = true := by simpa [Body.holding, Body.ping] using hheld
      have hawait : pc.suspended = true := by
        cases pc with
        | writing cmd err => rfl
        | wait cmd => rfl
        | locked => cases hsuspended
        | _ => cases hpc
      rcases @ping_ends fw i command c pc hpc hawait with
        ⟨ch, c', pc', h, hfree⟩ | ⟨pc₁, hpc₁, h, ch, c', pc', h', hfree⟩
      · exact .inl ⟨ch, c', _, hlift h, hfree⟩
      · refine .inr ⟨.execute command (.ping pc₁), ?_, hlift h, ch, c', _, hlift h', hfree⟩
        exact Bool.or_eq_true_iff.mpr (.inl hpc₁)
    | start => cases hheld
  | poll pc =>
    cases pc with
    | writing err => exact .inl ⟨{}, c.unlock, _, rfl, rfl⟩
    | locked => cases hsuspended
    | ping pc => cases hheld
    | _ => cases hheld
  | cancel em pc => cases hheld
  | hold hold pc => cases hheld

/-- **No reachable state is stuck on the lock of the exchanges.**  In every state of a session in
which no task is between two await points, the task that has `cmd_lock` gives it back by at most
two steps of its own: its wait for the acknowledgement may end in the timeout, and neither another
task nor the device has to do anything. -/
theorem exchange_lock_is_released {s₀ : Sys} (h0 : s₀.tasks = []) (hfree : s₀.core.cmdLock = none)
    (hr : Run (Sys.step fw) AnyStep s₀ s) (hidle : s.active = none)
    (hlock : s.core.cmdLock = some i) :
    ∃ ls t, (∀ l ∈ ls, ∃ ch, l = .task i ch) ∧ ls.length ≤ 2 ∧
      exec (Sys.step fw) ls s = some t ∧ t.core.cmdLock = none := by
  have hkept := kept_of_run h0 hfree hr
  have hholds := (hkept.owned i).mp hlock
  unfold Sys.holds at hholds
  rw [Option.any_eq_true] at hholds
  obtain ⟨b, hb, hheld⟩ := hholds
  have hlt : i < s.tasks.length := (List.getElem?_eq_some_iff.mp hb).1
  have hsuspended : b.suspended = true := by
    refine hkept.parked i b hb ?_
    rw [hidle]
    exact fun he => by cases he
  -- its wait ends at once, or after the step before it
  rcases @holder_ends fw i s.core b hheld hsuspended with
    ⟨ch, c', b', h, hlast⟩ | ⟨b₁, hb₁, h₁, ch, c', b', h, hlast⟩
  · refine ⟨[.task i ch], ⟨c', s.tasks.set i b', if b'.suspended then none else some i⟩,
      fun l hl => ⟨ch, List.mem_singleton.mp hl⟩, by simp, ?_, hlast⟩
    rw [exec_cons, Sys.step_of_advance hb (.inr ⟨hidle, hsuspended⟩) h]
    rfl
  · let s₁ : Sys := ⟨s.core, s.tasks.set i b₁, if b₁.suspended then none else some i⟩
    have hmine : s₁.tasks[i]? = some b₁ := List.getElem?_set_self hlt
    have hactive : s₁.active = none := if_pos hb₁
    refine ⟨[.task i {}, .task i ch],
      ⟨c', s₁.tasks.set i b', if b'.suspended then none else some i⟩, ?_, by simp, ?_, hlast⟩
    · intro l hl
      rcases List.mem_cons.mp hl with rfl | hl
      · exact ⟨{}, rfl⟩
      · exact ⟨ch, List.mem_singleton.mp hl⟩
    · have hfirst : Sys.step fw (.task i {}) s = some s₁ :=
        Sys.step_of_advance hb (.inr ⟨hidle, hsuspended⟩) h₁
      rw [exec_cons, hfirst, Option.bind_some, exec_cons,
        Sys.step_of_advance hmine (.inr ⟨hactive, hb₁⟩) h]
      rfl

/-- A command as task 0, at its wait for the acknowledgement. -/
def commandWaits : List Label := .call (.execute "M5".toList) :: turns 0 6

/-- A connected session. -/
def openSession : Sys := ⟨{}, [], none⟩

/-- The command that waits has the lock. -/
theorem exchange_lock_is_never_lost_waiting :
    (reach (Sys.step .simple) commandWaits openSession).holds 0 = true :=
  ((@exchange_lock_is_never_lost .simple _ openSession rfl rfl (run_reach (by decide))).1 0).mp
    (by decide)

/-- The command that waits gives the lock back. -/
theorem exchange_lock_is_released_waiting :
    ∃ ls t, (∀ l ∈ ls, ∃ ch, l = .task 0 ch) ∧ ls.length ≤ 2 ∧
      exec (Sys.step .simple) ls (reach (Sys.step .simple) commandWaits openSession) = some t ∧
      t.core.cmdLock = none :=
  @exchange_lock_is_released .simple _ 0 openSession rfl rfl (run_reach (by decide)) (by decide)
    (by decide)

end Session

end Raydriver.PingPong
