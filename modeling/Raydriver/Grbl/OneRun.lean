import Raydriver.Grbl.Frames

/-!
# One start of a job at a time

Several calls of `run` at once, or of `run` and `cleanup`, get into each other's way:
each takes the slot of the streaming task as it finds it.  When a run is called while
nobody else starts or ends a job, and nobody does until the end, there is never more than
one live streaming task, and it sits in the slot.  Cancels, commands and holds come and
go meanwhile.

## Main definitions

* `Call.restarts` — the calls that start or end a job.
* `Steady` — nobody is about to start or end a job.
* `Sole j job s` — task `j` is the only one that may.

## Main results

* `advance_flags` — who touches the flags of a job and its exception.
* `step_stream` — where a streaming task comes from.
* `Sole.step` — the invariant.
-/

namespace Raydriver

open Lts

/-- The calls that start or end a job. -/
def Call.restarts : Call → Bool
  | .run _ | .runRaw _ | .cleanup | .connect => true
  | _ => false

/-- A step that is no such call. -/
def Label.keepsJob : Label → Bool
  | .call op => !op.restarts
  | _ => true

/-- A task that will not start or end a job: a run that waits for its streaming task or has
returned, a `connect` or `cleanup` that has returned, or another function. -/
def Body.settled : Body → Bool
  | .run _ (.join _) | .run _ .returned | .link _ .returned => true
  | .run _ _ | .link _ _ => false
  | _ => true

/-! ### Who touches what -/

/-- The steps that may touch the exception of a job. -/
def Body.clears : Body → Bool
  | .stream _ _ | .run _ .begin | .link _ .clear | .link _ .closing => true
  | _ => false

/-- The steps that cancel a job. -/
def Body.cancels : Body → Bool
  | .stream _ (.cancelling .start _) | .cancel _ .start | .link _ .start => true
  | _ => false

/-- What a step does to the flags of a job and to its exception. -/
structure FlagStep (b : Body) (c c' : Core) : Prop where
  config : c'.config = c.config
  exception : b.clears = false → c'.jobException = c.jobException
  cancelled : b.cancels = false → c.isCancelled = false → c'.isCancelled = false
  running : (c.jobRunning = true → c.isCancelled = false) →
    c'.jobRunning = true → c'.isCancelled = false

theorem FlagStep.of_eq {b : Body} {c c' : Core} (hconfig : c'.config = c.config)
    (hexc : c'.jobException = c.jobException) (hcan : c'.isCancelled = c.isCancelled)
    (hrun : c'.jobRunning = c.jobRunning) : FlagStep b c c' where
  config := hconfig
  exception := fun _ => hexc
  cancelled := fun _ h => hcan.trans h
  running := fun h h' => hcan.trans (h (hrun ▸ h'))

section Flags

variable {n i : ℕ} {job : Job} {b b' : Body} {em : Bool} {ch : Choice} {c c' : Core}
  {spawned : List Body}

theorem Core.isCancelled_clearCancelled (h : c.isCancelled = false) :
    c.clearCancelled.isCancelled = false := by
  unfold Core.clearCancelled
  rw [h]
  exact ite_self _

/-- Of the counters of `cancel`, only the first touches the flags. -/
theorem advanceCancel_flags {inStream : Bool} {pc pc' : CancelPc}
    (h : advanceCancel i inStream em ch c pc = some (c', pc')) :
    (c'.jobRunning = false ∧ pc = .start) ∨
      (c'.isCancelled = c.isCancelled ∧ c'.jobRunning = c.jobRunning) := by
  cases pc with
  | start =>
    simp only [advanceCancel] at h
    split_ifs at h <;> cases h <;> exact .inl ⟨rfl, rfl⟩
  | ctrlX was err => cases err <;> cases h <;> exact .inr ⟨rfl, rfl⟩
  | abort was =>
    simp only [advanceCancel] at h
    split_ifs at h
    · cases h
      exact .inr ⟨rfl, rfl⟩
    · split at h
      · cases h
        exact .inr ⟨rfl, rfl⟩
      · split_ifs at h <;> cases h <;> exact .inr ⟨rfl, rfl⟩
  | next was commands =>
    cases commands <;> simp only [advanceCancel] at h <;> (try split_ifs at h) <;> cases h <;>
      exact .inr ⟨rfl, rfl⟩
  | _ =>
    simp only [advanceCancel] at h
    try split_ifs at h
    all_goals cases h
    all_goals exact .inr ⟨rfl, rfl⟩

/-- Of the streaming task, only its own `cancel` and its end touch the flags. -/
theorem advanceStream_flags {pc pc' : StreamPc}
    (h : advanceStream i job ch c pc = some (c', pc')) : FlagStep (.stream job pc) c c' := by
  have hconfig := (advanceStream_frame h).1.config
  have hclears : ∀ {p : Prop}, (Body.stream job pc).clears = false → p := fun h => by cases h
  have hsame : c'.isCancelled = c.isCancelled → c'.jobRunning = c.jobRunning →
      FlagStep (.stream job pc) c c' := fun hcan hrun =>
    ⟨hconfig, hclears, fun _ h => hcan.trans h, fun h h' => hcan.trans (h (hrun ▸ h'))⟩
  cases pc with
  | loopTop idx rest =>
    cases rest <;> simp only [advanceStream] at h <;> (try split_ifs at h) <;> cases h <;>
      exact hsame rfl rfl
  | writing s err => cases err <;> cases h <;> exact hsame rfl rfl
  | poll w => cases w <;> cases h <;> exact hsame rfl rfl
  | pollWriting w before err => cases err <;> cases h <;> exact hsame rfl rfl
  | pollAwait w before left => cases left <;> cases h <;> exact hsame rfl rfl
  | pollEnd w idle =>
    cases w <;> simp only [advanceStream] at h <;> split_ifs at h <;> cases h <;>
      exact hsame rfl rfl
  | recover w =>
    cases w <;> simp only [advanceStream] at h <;> split_ifs at h <;> cases h <;>
      exact hsame rfl rfl
  | recoverEnd w => cases w <;> cases h <;> exact hsame rfl rfl
  | outcome err =>
    cases err <;> simp only [advanceStream] at h <;> (try split_ifs at h) <;> cases h <;>
      exact hsame rfl rfl
  | cancelling pc e =>
    simp only [advanceStream] at h
    split at h
    · cases h
      exact hsame rfl rfl
    · obtain ⟨⟨c₁, pc₁⟩, h1, h2⟩ := Option.map_eq_some_iff.mp h
      cases h2
      rcases advanceCancel_flags h1 with ⟨hrun, rfl⟩ | ⟨hcan, hrun⟩
      · refine ⟨hconfig, hclears, fun h => ?_, fun _ h => ?_⟩
        · cases h
        · rw [hrun] at h
          cases h
      · exact hsame hcan hrun
  | final err =>
    cases h
    exact ⟨rfl, hclears, fun _ h => h, fun _ h => by cases h⟩
  | _ =>
    simp only [advanceStream] at h
    try split_ifs at h
    all_goals cases h
    all_goals exact hsame rfl rfl

theorem advanceRun_flags {pc pc' : RunPc} {spawns : Bool}
    (h : advanceRun n job ch c pc = some (c', pc', spawns)) : FlagStep (.run job pc) c c' := by
  cases pc with
  | rawNext realtime =>
    cases realtime <;> simp only [advanceRun] at h <;> (try split_ifs at h) <;> cases h <;>
      exact .of_eq rfl rfl rfl rfl
  | begin =>
    cases h
    exact ⟨rfl, fun h => (by cases h), fun _ _ => rfl, fun _ _ => rfl⟩
  | abort =>
    simp only [advanceRun] at h
    split at h
    · cases h
      exact .of_eq rfl rfl rfl rfl
    · split_ifs at h <;> cases h <;> exact .of_eq rfl rfl rfl rfl
  | _ =>
    simp only [advanceRun] at h
    try split_ifs at h
    all_goals cases h
    all_goals exact .of_eq rfl rfl rfl rfl

theorem advanceLink_flags {pc pc' : LinkPc} {connect spawns : Bool}
    (h : advanceLink n connect c pc = some (c', pc', spawns)) :
    FlagStep (.link connect pc) c c' := by
  cases pc with
  | start =>
    cases h
    exact ⟨rfl, fun _ => rfl, fun h => (by cases h), fun _ h => (by cases h)⟩
  | clear =>
    cases h
    exact ⟨rfl, fun h => (by cases h), fun _ _ => rfl, fun _ _ => rfl⟩
  | closing =>
    simp only [advanceLink] at h
    split_ifs at h <;> cases h
    · exact ⟨rfl, fun h => (by cases h), fun _ _ => rfl, fun _ _ => rfl⟩
    · exact .of_eq rfl rfl rfl rfl
  | abort =>
    simp only [advanceLink] at h
    split at h
    · cases h
      exact .of_eq rfl rfl rfl rfl
    · split_ifs at h <;> cases h <;> exact .of_eq rfl rfl rfl rfl
  | stop =>
    simp only [advanceLink] at h
    split at h <;> cases h <;> exact .of_eq rfl rfl rfl rfl
  | _ =>
    simp only [advanceLink] at h
    try split_ifs at h
    all_goals cases h
    all_goals exact .of_eq rfl rfl rfl rfl

/-- **Who touches the flags of a job and its exception.** -/
theorem advance_flags (h : advance n i ch c b = some (c', b', spawned)) : FlagStep b c c' := by
  -- the steps that call `clear_cancelled` change nothing while a job runs
  have hclear : ∀ {b₀ : Body} {c₁ : Core}, c₁.config = c.config →
      c₁.jobException = c.jobException → c₁.isCancelled = c.clearCancelled.isCancelled →
      c₁.jobRunning = c.jobRunning → FlagStep b₀ c c₁ := by
    intro b₀ c₁ hconfig hexc hcan hrun
    refine ⟨hconfig, fun _ => hexc, fun _ h => ?_, fun h h' => ?_⟩
    · exact hcan.trans (Core.isCancelled_clearCancelled h)
    · exact hcan.trans (Core.isCancelled_clearCancelled (h (hrun ▸ h')))
  cases b with
  | stream job pc =>
    obtain ⟨⟨c1, pc1⟩, h1, h2⟩ := Option.map_eq_some_iff.mp h
    cases h2
    exact advanceStream_flags h1
  | cancel em pc =>
    obtain ⟨⟨c1, pc1⟩, h1, h2⟩ := Option.map_eq_some_iff.mp h
    cases h2
    have hframe := (advanceCancel_frame h1).1
    -- it cancels and ends the job in one step, or leaves both flags alone
    rcases advanceCancel_flags h1 with ⟨hrun, rfl⟩ | ⟨hcan, hrun⟩
    · refine ⟨hframe.config, fun _ => hframe.jobException, fun h => ?_, fun _ h => ?_⟩
      · cases h
      · rw [hrun] at h
        cases h
    · exact .of_eq hframe.config hframe.jobException hcan hrun
  | run job pc =>
    obtain ⟨⟨c1, pc1, sp⟩, h1, h2⟩ := Option.map_eq_some_iff.mp h
    cases h2
    exact advanceRun_flags h1
  | execute command pc =>
    obtain ⟨⟨c1, pc1⟩, h1, h2⟩ := Option.map_eq_some_iff.mp h
    cases h2
    cases pc with
    | submit =>
      simp only [advanceExecute] at h1
      split_ifs at h1 <;> cases h1 <;> exact hclear rfl rfl rfl rfl
    | _ =>
      simp only [advanceExecute] at h1
      try split_ifs at h1
      all_goals cases h1
      all_goals exact .of_eq rfl rfl rfl rfl
  | queue pc =>
    obtain ⟨⟨c1, pc1⟩, h1, h2⟩ := Option.map_eq_some_iff.mp h
    cases h2
    cases pc with
    | top =>
      simp only [advanceQueue] at h1
      split_ifs at h1 <;> cases h1 <;> exact .of_eq rfl rfl rfl rfl
    | recv =>
      simp only [advanceQueue] at h1
      split at h1
      · cases h1
      · split_ifs at h1 <;> cases h1 <;> exact .of_eq rfl rfl rfl rfl
    | _ =>
      simp only [advanceQueue] at h1
      try split_ifs at h1
      all_goals cases h1
      all_goals exact .of_eq rfl rfl rfl rfl
  | interactive command pc =>
    obtain ⟨⟨c1, pc1⟩, h1, h2⟩ := Option.map_eq_some_iff.mp h
    cases h2
    cases pc <;> simp only [advanceInteractive] at h1 <;> (try split_ifs at h1) <;> cases h1 <;>
      exact .of_eq rfl rfl rfl rfl
  | hold on pc =>
    obtain ⟨⟨c1, pc1⟩, h1, h2⟩ := Option.map_eq_some_iff.mp h
    cases h2
    cases pc with
    | start =>
      unfold advanceHold at h1
      dsimp only at h1
      split at h1 <;> cases h1 <;> exact hclear rfl rfl rfl rfl
    | writing err =>
      cases h1
      exact .of_eq rfl rfl rfl rfl
    | returned => cases h1
  | link connect pc =>
    obtain ⟨⟨c1, pc1, sp⟩, h1, h2⟩ := Option.map_eq_some_iff.mp h
    cases h2
    exact advanceLink_flags h1

end Flags

namespace Sys

variable {i j t : ℕ} {ch : Choice} {s u : Sys} {job : Job} {l : Label}

/-! ### Flags, tasks and streaming tasks under a step -/

/-- What is not a step of a task keeps the flags, and recorded exceptions. -/
theorem step_aside (h : Sys.step l s = some u) (hl : ∀ i ch, l ≠ .task i ch) :
    u.core.config = s.core.config ∧ u.core.isCancelled = s.core.isCancelled ∧
      u.core.jobRunning = s.core.jobRunning ∧
      (s.core.jobException.isSome = true → u.core.jobException.isSome = true) := by
  cases l with
  | task i ch => exact absurd rfl (hl i ch)
  | call op =>
    simp only [Sys.step] at h
    split_ifs at h
    cases h
    exact ⟨rfl, rfl, rfl, id⟩
  | drop i =>
    simp only [Sys.step, Sys.dropTask] at h
    split at h
    case isFalse => cases h
    cases h
    exact ⟨rfl, rfl, rfl, id⟩
  | rx data =>
    simp only [Sys.step, Sys.outside] at h
    split_ifs at h
    cases h
    have hf := handleRx_frame data s.core
    exact ⟨hf.config, hf.isCancelled, hf.jobRunning, handleRx_exception data s.core⟩
  | poll err =>
    simp only [Sys.step, Sys.outside] at h
    split_ifs at h
    cases h
    unfold pollStatus
    split_ifs <;> exact ⟨rfl, rfl, rfl, id⟩
  | _ =>
    simp only [Sys.step, Sys.outside] at h
    split_ifs at h
    cases h
    exact ⟨rfl, rfl, rfl, id⟩

/-- The configuration never changes. -/
theorem step_config (h : Sys.step l s = some u) : u.core.config = s.core.config := by
  by_cases hl : ∃ i ch, l = .task i ch
  · obtain ⟨i, ch, rfl⟩ := hl
    obtain ⟨b, c', b', spawned, -, -, -, hadv, rfl⟩ := step_task h
    exact (advance_flags hadv).config
  · exact (step_aside h fun i ch hi => hl ⟨i, ch, hi⟩).1

/-- **Where a streaming task comes from**: it was there, or a run spawns it. -/
theorem step_stream {pc : StreamPc} (h : Sys.step l s = some u)
    (hu : u.tasks[t]? = some (.stream job pc)) :
    (∃ pc₀, s.tasks[t]? = some (.stream job pc₀) ∧
      ((pc₀ = pc ∧ ∀ ch, l ≠ .task t ch) ∨ ∃ ch, l = .task t ch ∧ s.alive t = true ∧
        (s.active = some t ∨ (s.active = none ∧ pc₀.suspended = true)) ∧
        advanceStream t job ch s.core pc₀ = some (u.core, pc))) ∨
    (s.tasks[t]? = none ∧ pc = .start ∧
      ∃ i ch, l = .task i ch ∧ s.tasks[i]? = some (.run job .spawn)) := by
  cases ht : s.tasks[t]? with
  | none =>
    rcases step_new h ht hu with ⟨op, -, hb⟩ | ⟨i, ch, job', rfl, hi, hb⟩ | hb
    · cases op <;> cases hb
    · cases hb
      exact .inr ⟨rfl, rfl, i, ch, rfl, hi⟩
    · cases hb
  | some b =>
    refine .inl ?_
    by_cases hl : ∃ ch, l = .task t ch
    · obtain ⟨ch, rfl⟩ := hl
      obtain ⟨b₀, c', b', spawned, hb, halive, hen, hadv, rfl⟩ := step_task h
      obtain rfl : b = b₀ := Option.some.inj (ht.symm.trans hb)
      have hlen : t < s.tasks.length := (List.getElem?_eq_some_iff.mp ht).1
      have hu' : (s.tasks.set t b' ++ spawned)[t]? = some (.stream job pc) := hu
      rw [List.getElem?_append_left (by rw [List.length_set]; exact hlen),
        List.getElem?_set_self hlen] at hu'
      cases hu'
      have hkind := advance_isStream hadv
      cases b with
      | stream job₀ pc₀ =>
        obtain ⟨⟨c₁, pc₁⟩, hstep, heq⟩ := Option.map_eq_some_iff.mp hadv
        cases heq
        exact ⟨pc₀, rfl, .inr ⟨ch, rfl, halive, hen, hstep⟩⟩
      | _ => cases hkind
    · have hsame := step_tasks h ht fun ch hi => hl ⟨ch, hi⟩
      obtain rfl : b = .stream job pc := Option.some.inj (hsame.symm.trans hu)
      exact ⟨pc, rfl, .inl ⟨rfl, fun ch hi => hl ⟨ch, hi⟩⟩⟩

/-- Every task but the active one is at an await point. -/
def Waits (s : Sys) : Prop :=
  ∀ i b, s.tasks[i]? = some b → b.suspended = false → s.active = some i

theorem Waits.step (h : s.Waits) (hs : Sys.step l s = some u) : u.Waits := by
  intro i b hb hsusp
  by_cases hl : ∃ k ch, l = .task k ch
  · obtain ⟨k, ch, rfl⟩ := hl
    obtain ⟨b₀, c', b', spawned, hk, -, hen, hadv, rfl⟩ := step_task hs
    have hlen : k < s.tasks.length := (List.getElem?_eq_some_iff.mp hk).1
    have hb₁ : (s.tasks.set k b' ++ spawned)[i]? = some b := hb
    show (if b'.suspended then none else some k) = some i
    by_cases hi : i < (s.tasks.set k b').length
    · rw [List.getElem?_append_left hi] at hb₁
      by_cases hik : k = i
      · subst hik
        rw [List.getElem?_set_self hlen] at hb₁
        cases hb₁
        rw [hsusp]
        rfl
      · -- another task than the one that moves: it was waiting before
        rw [List.getElem?_set_ne hik] at hb₁
        have hact := h i b hb₁ hsusp
        rcases hen with hen | ⟨hen, -⟩ <;> rw [hact] at hen
        · exact absurd (Option.some.inj hen).symm hik
        · cases hen
    · rw [List.getElem?_append_right (by omega)] at hb₁
      have hmem : b ∈ spawned := List.mem_of_getElem? hb₁
      rcases advance_spawned hadv with rfl | ⟨job, -, rfl⟩ | ⟨on, -, rfl⟩
      · cases hmem
      · cases List.mem_singleton.mp hmem
        cases hsusp
      · cases List.mem_singleton.mp hmem
        cases hsusp
  · obtain ⟨hnone, -⟩ := step_other hs fun k ch hk => hl ⟨k, ch, hk⟩
    cases ht : s.tasks[i]? with
    | some b₀ =>
      have hsame := step_tasks hs ht fun ch hk => hl ⟨i, ch, hk⟩
      obtain rfl : b₀ = b := Option.some.inj (hsame.symm.trans hb)
      rw [h i b₀ ht hsusp] at hnone
      cases hnone
    | none =>
      rcases step_new hs ht hb with ⟨op, rfl, rfl⟩ | ⟨k, ch, job, rfl, -, -⟩ | rfl
      · -- a call: its task goes on at once
        simp only [Sys.step] at hs
        split_ifs at hs
        cases hs
        have hb' : (s.tasks ++ [op.body])[i]? = some op.body := hb
        have hi : i < (s.tasks ++ [op.body]).length := (List.getElem?_eq_some_iff.mp hb').1
        rw [List.getElem?_eq_none_iff] at ht
        simp only [List.length_append, List.length_singleton] at hi
        show some s.tasks.length = some i
        congr 1
        omega
      · exact absurd ⟨k, ch, rfl⟩ hl
      · cases hsusp

/-- A task that has been told to abort, or has ended, does not become alive again. -/
theorem alive_of_step (h : Sys.step l s = some u) (hi : u.alive i = true) : s.alive i = true := by
  by_contra hdead
  rw [step_dead h (by simpa using hdead)] at hi
  cases hi

end Sys

/-! ### The only run -/

/-- The response attempts left in a poll. -/
def StreamPc.attempts : StreamPc → ℕ
  | .pollAwait _ _ left | .pollSleep _ _ left => left
  | _ => 0

/-- A streaming task that finishes has ended, and the attempts of a poll only get less. -/
theorem advanceStream_ends {t : ℕ} {job : Job} {ch : Choice} {c c' : Core} {pc pc' : StreamPc}
    (h : advanceStream t job ch c pc = some (c', pc'))
    (hleft : pc.attempts ≤ c.config.pollResponseAttempts) :
    (∀ err, pc' = .finished err → t ∈ c'.ended) ∧
      pc'.attempts ≤ c.config.pollResponseAttempts := by
  cases pc with
  | final err =>
    cases h
    exact ⟨fun _ _ => List.mem_cons_self, Nat.zero_le _⟩
  | loopTop idx rest =>
    cases rest <;> simp only [advanceStream] at h <;> (try split_ifs at h) <;> cases h <;>
      exact ⟨by simp, Nat.zero_le _⟩
  | writing s err => cases err <;> cases h <;> exact ⟨by simp, Nat.zero_le _⟩
  | stall s =>
    cases h
    split <;> exact ⟨by simp, Nat.zero_le _⟩
  | stallEnd s handled => cases handled <;> cases h <;> exact ⟨by simp, Nat.zero_le _⟩
  | poll w => cases w <;> cases h <;> exact ⟨by simp, Nat.zero_le _⟩
  | pollWriting w before err =>
    cases err <;> cases h
    · exact ⟨by simp, Nat.le_refl _⟩
    · exact ⟨by simp, Nat.zero_le _⟩
  | pollAwait w before left =>
    cases left <;> cases h
    · exact ⟨by simp, Nat.zero_le _⟩
    · exact ⟨by simp, (Nat.le_succ _).trans hleft⟩
  | pollSleep w before left =>
    simp only [advanceStream] at h
    split_ifs at h <;> cases h
    · exact ⟨by simp, hleft⟩
    · exact ⟨by simp, Nat.zero_le _⟩
  | pollEnd w idle =>
    cases w <;> simp only [advanceStream] at h <;> split_ifs at h <;> cases h <;>
      exact ⟨by simp, Nat.zero_le _⟩
  | recover w =>
    cases w <;> simp only [advanceStream] at h <;> split_ifs at h <;> cases h <;>
      exact ⟨by simp, Nat.zero_le _⟩
  | recoverStart w =>
    cases h
    split <;> exact ⟨by simp, Nat.zero_le _⟩
  | recoverSent w =>
    cases h
    split <;> exact ⟨by simp, Nat.zero_le _⟩
  | recoverEnd w => cases w <;> cases h <;> exact ⟨by simp, Nat.zero_le _⟩
  | outcome err =>
    cases err <;> simp only [advanceStream] at h <;> (try split_ifs at h) <;> cases h <;>
      exact ⟨by simp, Nat.zero_le _⟩
  | cancelling pc e =>
    simp only [advanceStream] at h
    split at h
    · cases h
      exact ⟨by simp, Nat.zero_le _⟩
    · obtain ⟨⟨c₁, pc₁⟩, -, h2⟩ := Option.map_eq_some_iff.mp h
      cases h2
      exact ⟨by simp, Nat.zero_le _⟩
  | _ =>
    simp only [advanceStream] at h
    try split_ifs at h
    all_goals cases h
    all_goals exact ⟨by simp, Nat.zero_le _⟩

/-- The streaming tasks that may be alive while the run is at this counter. -/
def RunPc.owns (job : Job) (t : ℕ) (job' : Job) : RunPc → Prop
  | .abortWait _ | .spawn => False
  | .join t' => t = t' ∧ job' = job
  | _ => True

/-- Every live streaming task sits in the slot and has not finished, no poll has more attempts
left than there are, and the flags of a running job agree. -/
structure Slotted (s : Sys) : Prop where
  waits : s.Waits
  slot : ∀ t job pc, s.tasks[t]? = some (.stream job pc) → s.alive t = true →
    s.core.streamTask = some t ∧ ∀ err, pc ≠ .finished err
  attempts : ∀ (t : ℕ) (job : Job) (pc : StreamPc), s.tasks[t]? = some (.stream job pc) →
    pc.attempts ≤ s.core.config.pollResponseAttempts
  flags : s.core.jobRunning = true → s.core.isCancelled = false

/-- Between two await points, and nobody is about to start or end a job. -/
structure Steady (s : Sys) : Prop extends Slotted s where
  active : s.active = none
  settled : ∀ (i : ℕ) (b : Body), s.tasks[i]? = some b → b.settled = true

/-- Nobody but task `j`, which runs `job`, is about to start or end a job. -/
structure Sole (j : ℕ) (job : Job) (s : Sys) : Prop extends Slotted s where
  run : ∃ pc, s.tasks[j]? = some (.run job pc)
  others : ∀ (i : ℕ) (b : Body), i ≠ j → s.tasks[i]? = some b → b.settled = true
  own : ∀ pc, s.tasks[j]? = some (.run job pc) → ∀ t job' pc',
    s.tasks[t]? = some (.stream job' pc') → s.alive t = true → pc.owns job t job'

section Sole

variable {i j t : ℕ} {job : Job} {ch : Choice} {s u : Sys} {l : Label}

/-- A settled task stays settled. -/
theorem settled_advance {n : ℕ} {c c' : Core} {b b' : Body} {spawned : List Body}
    (h : advance n i ch c b = some (c', b', spawned)) (hb : b.settled = true) :
    b'.settled = true := by
  cases b with
  | run job pc =>
    obtain ⟨⟨c1, pc1, sp⟩, h1, h2⟩ := Option.map_eq_some_iff.mp h
    cases h2
    cases pc with
    | join t =>
      simp only [advanceRun] at h1
      split at h1 <;> cases h1
      rfl
    | returned => cases h1
    | _ => cases hb
  | link connect pc =>
    obtain ⟨⟨c1, pc1, sp⟩, h1, h2⟩ := Option.map_eq_some_iff.mp h
    cases pc with
    | returned => cases h1
    | _ => cases hb
  | _ =>
    obtain ⟨⟨c1, pc1⟩, -, h2⟩ := Option.map_eq_some_iff.mp h
    cases h2
    rfl

/-- Two live streaming tasks are one. -/
theorem Slotted.unique (h : Slotted s) {t' : ℕ} {job' : Job} {pc pc' : StreamPc}
    (ht : s.tasks[t]? = some (.stream job pc)) (halive : s.alive t = true)
    (ht' : s.tasks[t']? = some (.stream job' pc')) (halive' : s.alive t' = true) : t = t' := by
  have hslot := (h.slot t job pc ht halive).1
  rw [(h.slot t' job' pc' ht' halive').1] at hslot
  exact (Option.some.inj hslot).symm

/-- **The slot under a step**: as long as no task is spawned while another one is alive, every
live streaming task sits in the slot. -/
theorem Slotted.step (h : Slotted s) (hs : Sys.step l s = some u)
    (hspawn : ∀ i ch job, l = .task i ch → s.tasks[i]? = some (.run job .spawn) →
      ∀ t job' pc, s.tasks[t]? = some (.stream job' pc) → s.alive t = false) : Slotted u := by
  refine ⟨h.waits.step hs, fun t job pc ht halive => ?_, fun t job pc ht => ?_, ?_⟩
  · have halive₀ : s.alive t = true := Sys.alive_of_step hs halive
    rcases Sys.step_stream hs ht with ⟨pc₀, ht₀, hpc⟩ | ⟨hnone, rfl, i, ch, rfl, hi⟩
    · obtain ⟨hslot, hend⟩ := h.slot t job pc₀ ht₀ halive₀
      refine ⟨?_, ?_⟩
      · by_cases hl : ∃ i ch, l = .task i ch
        · obtain ⟨i, ch, rfl⟩ := hl
          obtain ⟨b, c', b', spawned, hb, -, -, hadv, rfl⟩ := Sys.step_task hs
          rcases advance_slot hadv with hstep | ⟨job₁, rfl, rfl⟩
          · rcases hstep.slot with hsame | hdead
            · exact hsame.trans hslot
            · -- the slot is emptied, with its task dead
              have hfalse : (Sys.mk c' (s.tasks.set i b' ++ spawned)
                  (if b'.suspended then none else some i)).alive t = false :=
                Sys.alive_eq_false.mpr (hdead t hslot)
              rw [hfalse] at halive
              cases halive
          · rw [hspawn i ch job₁ rfl hb t job pc₀ ht₀] at halive₀
            cases halive₀
        · rw [(Sys.step_other hs fun i ch hi => hl ⟨i, ch, hi⟩).2.1]
          exact hslot
      · rcases hpc with ⟨rfl, -⟩ | ⟨ch, rfl, -, -, hadv⟩
        · exact hend
        · rintro err rfl
          have hended := (advanceStream_ends hadv (h.attempts t job pc₀ ht₀)).1 err rfl
          rw [Sys.alive_eq_false.mpr (.inr hended)] at halive
          cases halive
    · -- the task just spawned
      obtain ⟨b, c', b', spawned, hb, -, -, hadv, rfl⟩ := Sys.step_task hs
      obtain rfl : b = .run job .spawn := Option.some.inj (hb.symm.trans hi)
      cases hadv
      refine ⟨congrArg some ?_, fun err he => by cases he⟩
      rw [List.getElem?_eq_none_iff] at hnone
      have hlen := (List.getElem?_eq_some_iff.mp ht).1
      simp only [List.length_append, List.length_set, if_true, List.length_singleton] at hlen
      omega
  · rw [Sys.step_config hs]
    rcases Sys.step_stream hs ht with ⟨pc₀, ht₀, ⟨rfl, -⟩ | ⟨ch, -, -, -, hadv⟩⟩ | ⟨-, rfl, -⟩
    · exact h.attempts t job pc₀ ht₀
    · exact (advanceStream_ends hadv (h.attempts t job pc₀ ht₀)).2
    · exact Nat.zero_le _
  · by_cases hl : ∃ i ch, l = .task i ch
    · obtain ⟨i, ch, rfl⟩ := hl
      obtain ⟨b, c', b', spawned, -, -, -, hadv, rfl⟩ := Sys.step_task hs
      exact (advance_flags hadv).running h.flags
    · obtain ⟨-, hcan, hrun, -⟩ := Sys.step_aside hs fun i ch hi => hl ⟨i, ch, hi⟩
      rw [hcan, hrun]
      exact h.flags

/-- The task of a call that starts no job is settled, and none of the streaming function. -/
theorem settled_body {op : Call} (hop : op.restarts = false) : op.body.settled = true := by
  cases op <;> first | rfl | cases hop

/-- The call of the run. -/
theorem Sole.of_call {op : Call} {pc₀ : RunPc} (h : Steady s) (hop : op.body = .run job pc₀)
    (hcall : Sys.step (.call op) s = some u) : Sole s.tasks.length job u := by
  have hslotted : Slotted u := h.toSlotted.step hcall fun i ch job hl => by cases hl
  simp only [Sys.step] at hcall
  split_ifs at hcall
  cases hcall
  have hnew : (s.tasks ++ [op.body])[s.tasks.length]? = some (.run job pc₀) := by
    simpa using hop
  refine ⟨hslotted, ⟨pc₀, hnew⟩, fun i b hi hb => ?_, fun pc hpc t job' pc' ht halive => ?_⟩
  · have hb' : (s.tasks ++ [op.body])[i]? = some b := hb
    have hlen := (List.getElem?_eq_some_iff.mp hb').1
    rw [List.length_append, List.length_singleton] at hlen
    rw [List.getElem?_append_left (by omega)] at hb'
    exact h.settled i b hb'
  · obtain rfl : pc = pc₀ := by simpa using hpc.symm.trans hnew
    cases op <;> cases hop <;> exact trivial

/-- The run itself goes on. -/
theorem RunPc.owns_advance {n : ℕ} {c c' : Core} {pc pc' : RunPc} {spawns : Bool} {job' : Job}
    (h : advanceRun n job ch c pc = some (c', pc', spawns)) (hown : pc.owns job t job')
    (hslot : c.streamTask = some t) (hdead : t ∉ c'.aborted ∧ t ∉ c'.ended) :
    pc'.owns job t job' := by
  cases pc with
  | rawNext realtime =>
    cases realtime <;> simp only [advanceRun] at h <;> (try split_ifs at h) <;> cases h <;>
      exact trivial
  | rawWriting realtime err =>
    cases err <;> cases h <;> exact trivial
  | begin =>
    cases h
    exact trivial
  | abort =>
    -- what is in the slot is dead now
    simp only [advanceRun, hslot] at h
    split_ifs at h with hended <;> cases h
    · exact absurd (List.contains_iff_mem.mp hended) hdead.2
    · exact absurd List.mem_cons_self hdead.1
  | join t' =>
    simp only [advanceRun] at h
    split at h <;> cases h
    exact trivial
  | abortWait t' => exact hown.elim
  | spawn => exact hown.elim
  | returned => cases h

/-- **The invariant**: the run stays the only one. -/
theorem Sole.step (h : Sole j job s) (hs : Sys.step l s = some u) (hl : l.keepsJob = true) :
    Sole j job u := by
  obtain ⟨pc, hj⟩ := h.run
  -- only a run spawns, and there is one
  have hspawner : ∀ i job', s.tasks[i]? = some (.run job' .spawn) → i = j := by
    intro i job' hi
    by_contra hij
    cases h.others i _ hij hi
  have hslotted : Slotted u := by
    refine h.toSlotted.step hs fun i ch job₁ _ hi t job' pc' ht => ?_
    obtain rfl := hspawner i job₁ hi
    cases hi.symm.trans hj
    by_contra halive
    exact h.own _ hj t job' pc' ht (by simpa using halive)
  -- no second run is started, and the other tasks stay what they were
  have hothers : ∀ (i : ℕ) (b : Body), i ≠ j → u.tasks[i]? = some b → b.settled = true := by
    intro i b hij hb
    cases hi : s.tasks[i]? with
    | none =>
      rcases Sys.step_new hs hi hb with ⟨op, rfl, rfl⟩ | ⟨k, ch, job', -, -, rfl⟩ | rfl
      · exact settled_body (by simpa [Label.keepsJob] using hl)
      · rfl
      · rfl
    | some b₀ =>
      have hsettled := h.others i b₀ hij hi
      by_cases hi' : ∃ ch, l = .task i ch
      · obtain ⟨ch, rfl⟩ := hi'
        obtain ⟨b₁, c', b', spawned, hb₁, -, -, hadv, rfl⟩ := Sys.step_task hs
        obtain rfl : b₀ = b₁ := Option.some.inj (hi.symm.trans hb₁)
        have hlen : i < s.tasks.length := (List.getElem?_eq_some_iff.mp hi).1
        have hu : (s.tasks.set i b' ++ spawned)[i]? = some b := hb
        rw [List.getElem?_append_left (by rw [List.length_set]; exact hlen),
          List.getElem?_set_self hlen] at hu
        cases hu
        exact settled_advance hadv hsettled
      · have hsame := Sys.step_tasks hs hi fun ch hi => hi' ⟨ch, hi⟩
        obtain rfl : b₀ = b := Option.some.inj (hsame.symm.trans hb)
        exact hsettled
  by_cases hmove : ∃ ch, l = .task j ch
  · obtain ⟨ch, rfl⟩ := hmove
    obtain ⟨b, c', b', spawned, hb, -, -, hadv, rfl⟩ := Sys.step_task hs
    obtain rfl : b = .run job pc := Option.some.inj (hb.symm.trans hj)
    obtain ⟨⟨c₁, pc', sp⟩, hstep, heq⟩ := Option.map_eq_some_iff.mp hadv
    cases heq
    have hlen : j < s.tasks.length := (List.getElem?_eq_some_iff.mp hj).1
    have hnew : (s.tasks.set j (.run job pc') ++ if sp then [.stream job .start] else [])[j]?
        = some (.run job pc') := by
      rw [List.getElem?_append_left (by rw [List.length_set]; exact hlen),
        List.getElem?_set_self hlen]
    refine ⟨hslotted, ⟨pc', hnew⟩, hothers, fun pc₁ hpc₁ t job' pc₂ ht halive => ?_⟩
    obtain rfl : pc' = pc₁ := by simpa using hnew.symm.trans hpc₁
    rcases Sys.step_stream hs ht with ⟨pc₀, ht₀, -⟩ | ⟨hnone, -, i, ch', hi, hspawn⟩
    · have halive₀ := Sys.alive_of_step hs halive
      refine RunPc.owns_advance hstep (h.own pc hj t job' pc₀ ht₀ halive₀)
        (h.slot t job' pc₀ ht₀ halive₀).1 ?_
      have hdead := mt Sys.alive_eq_false.mpr (by rw [halive]; simp)
      exact not_or.mp hdead
    · -- the task just spawned is the one the run waits for
      cases hi
      cases hj.symm.trans hspawn
      cases hstep
      rw [List.getElem?_eq_none_iff] at hnone
      have hlent := (List.getElem?_eq_some_iff.mp ht).1
      simp only [List.length_append, List.length_set, if_true, List.length_singleton] at hlent
      exact ⟨by omega, rfl⟩
  · have hsame := Sys.step_tasks hs hj fun ch hi => hmove ⟨ch, hi⟩
    refine ⟨hslotted, ⟨pc, hsame⟩, hothers, fun pc₁ hpc₁ t job' pc₂ ht halive => ?_⟩
    obtain rfl : pc = pc₁ := by simpa using hsame.symm.trans hpc₁
    rcases Sys.step_stream hs ht with ⟨pc₀, ht₀, -⟩ | ⟨-, -, i, ch', rfl, hspawn⟩
    · exact h.own pc hj t job' pc₀ ht₀ (Sys.alive_of_step hs halive)
    · exact absurd ⟨ch', by rw [hspawner i job' hspawn]⟩ hmove

end Sole

end Raydriver
