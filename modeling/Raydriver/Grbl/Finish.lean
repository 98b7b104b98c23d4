import Raydriver.Grbl.Halt
import Raydriver.Lib.Baton

/-!
# Who reports the end of a job

The end of a job is reported in two places, at the end of the streaming task and at the end
of a `cancel` that has found the job running.  Who has to report it is a matter of who has
cleared the flag of the running job: it is a baton that the run passes to the flag, and a
`cancel` takes from there.  A `cancel` that returns early loses it, and so does one that is
aborted in the middle.

## Main definitions

* `Body.owes` — the task has the baton.
* `reportsEnd` — the step does not lose it.
* `AtRest` — no job is in progress.
* `Due j job base s` — the invariant.

## Main results

* `advance_debt` — what one step does with the baton.
* `Due.step` — the invariant is kept.
* `session_reports_once` — the end of a job is reported once.
-/

namespace Raydriver

open Lts

/-! ### The baton -/

/-- The `job_finished` events so far. -/
def Core.finishes (c : Core) : ℕ := c.events.count .jobFinished

/-- The `cancel` has found the job running, and has not reported its end. -/
def CancelPc.owes : CancelPc → Bool
  | .ctrlX was err => was && err.isNone
  | .abort was | .abortWait was _ | .clear was | .sleep was _ | .next was _ | .space was _ _
  | .send was _ _ | .writing was _ | .finish was => was
  | .start | .returned _ => false

/-- The task has to report the end of the job, or to start the job. -/
def Body.owes : Body → Bool
  | .run _ .begin => true
  | .stream _ (.cancelling pc _) => pc.owes
  | .cancel _ pc => pc.owes
  | _ => false

/-- The realtime commands of `run_raw` are still to send. -/
def RunPc.raw : RunPc → Bool
  | .rawNext _ | .rawWriting _ _ => true
  | _ => false

/-- The cancellation flag is not cleared while there is a streaming task. -/
def KeepsCancel (c c' : Core) : Prop :=
  c.isCancelled = true → c.streamDone = false → c'.isCancelled = true

theorem KeepsCancel.of_eq {c c' : Core} (h : c'.isCancelled = c.isCancelled) : KeepsCancel c c' :=
  fun hc _ => h.trans hc

theorem KeepsCancel.of_clear {c c' : Core} (h : c'.isCancelled = c.clearCancelled.isCancelled) :
    KeepsCancel c c' := by
  intro hc hdone
  rw [h]
  unfold Core.clearCancelled
  rw [hdone, Bool.and_false]
  exact hc

/-- What a step does with the baton. -/
inductive DebtStep (ch : Choice) (b b' : Body) (c c' : Core) : Prop
  | same (hrun : c'.jobRunning = c.jobRunning) (hfin : c'.finishes = c.finishes)
      (howes : b'.owes = b.owes) (hcan : KeepsCancel c c')
  | starts (job : Job) (hb : b = .run job .begin) (hrun : c'.jobRunning = true)
      (hfin : c'.finishes = c.finishes) (howes' : b'.owes = false)
  | takes (hb : b.cancels = true) (hrun : c'.jobRunning = false)
      (hcan : c'.isCancelled = true) (hfin : c'.finishes = c.finishes) (howes : b.owes = false)
      (howes' : b'.owes = (c.jobRunning && (c.isOpen && ch.writeError.isNone)))
  | pays (hrun : c'.jobRunning = c.jobRunning) (hfin : c'.finishes = c.finishes + 1)
      (howes : b.owes = true) (howes' : b'.owes = false) (hcan : KeepsCancel c c')
  | closes (job : Job) (err : Option SessionError) (hb : b = .stream job (.final err))
      (hrun : c'.jobRunning = false)
      (hfin : c'.finishes = c.finishes + (err.isNone && !c.isCancelled).toNat)
      (howes' : b'.owes = false) (hcan : KeepsCancel c c')

/-- What a step of task `i` does with the slot of the streaming task, and whom it kills. -/
inductive SlotMove (n i : ℕ) (b : Body) (c c' : Core) : Prop
  | keeps (ha : c'.aborted = c.aborted) (he : c'.ended = c.ended)
      (hslot : c'.streamTask = c.streamTask)
  | clears (ha : c'.aborted = c.aborted) (he : c'.ended = c.ended) (hslot : c'.streamTask = none)
  | aborts (t : ℕ) (hb : (∃ em was, b = .cancel em (.abort was)) ∨ ∃ job, b = .run job .abort)
      (ht : c.streamTask = some t) (hended : c.ended.contains t = false)
      (ha : c'.aborted = t :: c.aborted) (he : c'.ended = c.ended) (hslot : c'.streamTask = none)
  | ends (job : Job) (err : Option SessionError) (hb : b = .stream job (.final err))
      (ha : c'.aborted = c.aborted) (he : c'.ended = i :: c.ended)
      (hslot : c'.streamTask = c.streamTask)
  | spawns (job : Job) (hb : b = .run job .spawn) (ha : c'.aborted = c.aborted)
      (he : c'.ended = c.ended) (hslot : c'.streamTask = some n)

section Debt

variable {n i : ℕ} {job : Job} {b b' : Body} {em : Bool} {ch : Choice} {c c' : Core}
  {spawned : List Body}

/-- What a step of `cancel` does with the baton: the first takes it, the last spends it. -/
theorem advanceCancel_debt {inStream : Bool} {pc pc' : CancelPc}
    (h : advanceCancel i inStream em ch c pc = some (c', pc')) :
    (pc = .start ∧ c'.jobRunning = false ∧ c'.isCancelled = true ∧ c'.finishes = c.finishes ∧
      pc'.owes = (c.jobRunning && (c.isOpen && ch.writeError.isNone))) ∨
    (c'.jobRunning = c.jobRunning ∧ c'.finishes = c.finishes ∧ pc'.owes = pc.owes ∧
      c'.isCancelled = c.isCancelled) ∨
    (c'.jobRunning = c.jobRunning ∧ c'.finishes = c.finishes + 1 ∧ pc.owes = true ∧
      pc'.owes = false ∧ c'.isCancelled = c.isCancelled) := by
  cases pc with
  | start =>
    simp only [advanceCancel] at h
    split_ifs at h with hopen <;> cases h
    · exact .inl ⟨rfl, rfl, rfl, rfl, by rw [hopen]; rfl⟩
    · refine .inl ⟨rfl, rfl, rfl, rfl, ?_⟩
      rw [Bool.not_eq_true] at hopen
      rw [hopen, Bool.false_and, Bool.and_false]
      rfl
  | ctrlX was err =>
    cases err <;> cases h
    · exact .inr (.inl ⟨rfl, rfl, (Bool.and_true was).symm, rfl⟩)
    · exact .inr (.inl ⟨rfl, rfl, (Bool.and_false was).symm, rfl⟩)
  | abort was =>
    simp only [advanceCancel] at h
    split_ifs at h
    · cases h
      exact .inr (.inl ⟨rfl, rfl, rfl, rfl⟩)
    · split at h
      · cases h
        exact .inr (.inl ⟨rfl, rfl, rfl, rfl⟩)
      · split_ifs at h <;> cases h <;> exact .inr (.inl ⟨rfl, rfl, rfl, rfl⟩)
  | next was commands =>
    cases commands <;> simp only [advanceCancel] at h <;> (try split_ifs at h) <;> cases h <;>
      exact .inr (.inl ⟨rfl, rfl, rfl, rfl⟩)
  | finish was =>
    cases h
    cases was with
    | false =>
      refine .inr (.inl ⟨rfl, ?_, rfl, rfl⟩)
      unfold Core.finishes
      rw [List.count_append]
      rfl
    | true =>
      refine .inr (.inr ⟨rfl, ?_, rfl, rfl, rfl⟩)
      unfold Core.finishes
      rw [List.count_append]
      rfl
  | _ =>
    simp only [advanceCancel] at h
    try split_ifs at h
    all_goals cases h
    all_goals exact .inr (.inl ⟨rfl, rfl, rfl, rfl⟩)

/-- A `cancel` outside the streaming task aborts it. -/
theorem advanceCancel_move {pc pc' : CancelPc}
    (h : advanceCancel i false em ch c pc = some (c', pc')) :
    SlotMove n i (.cancel em pc) c c' := by
  cases pc with
  | ctrlX was err => cases err <;> cases h <;> exact .keeps rfl rfl rfl
  | abort was =>
    simp only [advanceCancel, Bool.false_eq_true, if_false] at h
    split at h
    · cases h
      exact .keeps rfl rfl rfl
    · rename_i t ht
      split_ifs at h with hended <;> cases h
      · exact .clears rfl rfl rfl
      · exact .aborts t (.inl ⟨em, was, rfl⟩) ht (by simpa using hended) rfl rfl rfl
  | next was commands =>
    cases commands <;> simp only [advanceCancel] at h <;> (try split_ifs at h) <;> cases h <;>
      exact .keeps rfl rfl rfl
  | _ =>
    simp only [advanceCancel] at h
    try split_ifs at h
    all_goals cases h
    all_goals exact .keeps rfl rfl rfl

theorem advanceStream_debt {pc pc' : StreamPc}
    (h : advanceStream i job ch c pc = some (c', pc')) :
    DebtStep ch (.stream job pc) (.stream job pc') c c' ∧ SlotMove n i (.stream job pc) c c' := by
  cases pc with
  | loopTop idx rest =>
    cases rest <;> simp only [advanceStream] at h <;> (try split_ifs at h) <;> cases h <;>
      exact ⟨.same rfl rfl rfl (.of_eq rfl), .keeps rfl rfl rfl⟩
  | writing s err => cases err <;> cases h <;> exact ⟨.same rfl rfl rfl (.of_eq rfl), .keeps rfl rfl rfl⟩
  | stall s =>
    cases h
    split <;> exact ⟨.same rfl rfl rfl (.of_eq rfl), .keeps rfl rfl rfl⟩
  | stallEnd s handled => cases handled <;> cases h <;> exact ⟨.same rfl rfl rfl (.of_eq rfl), .keeps rfl rfl rfl⟩
  | poll w => cases w <;> cases h <;> exact ⟨.same rfl rfl rfl (.of_eq rfl), .keeps rfl rfl rfl⟩
  | pollWriting w before err => cases err <;> cases h <;> exact ⟨.same rfl rfl rfl (.of_eq rfl), .keeps rfl rfl rfl⟩
  | pollAwait w before left => cases left <;> cases h <;> exact ⟨.same rfl rfl rfl (.of_eq rfl), .keeps rfl rfl rfl⟩
  | pollEnd w idle =>
    cases w <;> simp only [advanceStream] at h <;> split_ifs at h <;> cases h <;>
      exact ⟨.same rfl rfl rfl (.of_eq rfl), .keeps rfl rfl rfl⟩
  | recover w =>
    cases w <;> simp only [advanceStream] at h <;> split_ifs at h <;> cases h <;>
      exact ⟨.same rfl rfl rfl (.of_eq rfl), .keeps rfl rfl rfl⟩
  | recoverStart w =>
    cases h
    split <;> exact ⟨.same rfl rfl rfl (.of_eq rfl), .keeps rfl rfl rfl⟩
  | recoverSent w =>
    cases h
    split <;> exact ⟨.same rfl rfl rfl (.of_eq rfl), .keeps rfl rfl rfl⟩
  | recoverEnd w => cases w <;> cases h <;> exact ⟨.same rfl rfl rfl (.of_eq rfl), .keeps rfl rfl rfl⟩
  | outcome err =>
    cases err <;> simp only [advanceStream] at h <;> (try split_ifs at h) <;> cases h <;>
      exact ⟨.same rfl rfl rfl (.of_eq rfl), .keeps rfl rfl rfl⟩
  | cancelling pc e =>
    simp only [advanceStream] at h
    split at h
    · cases h
      exact ⟨.same rfl rfl rfl (.of_eq rfl), .keeps rfl rfl rfl⟩
    · obtain ⟨⟨c₁, pc₁⟩, h1, h2⟩ := Option.map_eq_some_iff.mp h
      cases h2
      have hmove : SlotMove n i (.stream job (.cancelling pc e)) c c₁ :=
        .keeps (advanceCancel_inStream h1).2 (advanceCancel_frame h1).1.ended (advanceCancel_inStream h1).1
      rcases advanceCancel_debt h1 with ⟨rfl, hrun, hcan, hfin, howes⟩ | ⟨hrun, hfin, howes, hcan⟩ |
        ⟨hrun, hfin, howes, howes', hcan⟩
      · exact ⟨.takes rfl hrun hcan hfin rfl howes, hmove⟩
      · exact ⟨.same hrun hfin howes (.of_eq hcan), hmove⟩
      · exact ⟨.pays hrun hfin howes howes' (.of_eq hcan), hmove⟩
  | final err =>
    cases h
    refine ⟨.closes job err rfl rfl ?_ rfl (.of_eq rfl), .ends job err rfl rfl rfl rfl⟩
    unfold Core.finishes
    rw [List.count_append]
    congr 1
    cases err.isNone && !c.isCancelled <;> rfl
  | _ =>
    simp only [advanceStream] at h
    try split_ifs at h
    all_goals cases h
    all_goals exact ⟨.same rfl rfl rfl (.of_eq rfl), .keeps rfl rfl rfl⟩

theorem advanceRun_debt {pc pc' : RunPc} {spawns : Bool}
    (h : advanceRun n job ch c pc = some (c', pc', spawns)) (hraw : pc.raw = false) :
    DebtStep ch (.run job pc) (.run job pc') c c' ∧ SlotMove n i (.run job pc) c c' := by
  cases pc with
  | rawNext realtime => cases hraw
  | rawWriting realtime err => cases hraw
  | begin =>
    cases h
    exact ⟨.starts job rfl rfl rfl rfl, .keeps rfl rfl rfl⟩
  | abort =>
    simp only [advanceRun] at h
    split at h
    · cases h
      exact ⟨.same rfl rfl rfl (.of_eq rfl), .keeps rfl rfl rfl⟩
    · rename_i t ht
      split_ifs at h with hended <;> cases h
      · exact ⟨.same rfl rfl rfl (.of_eq rfl), .clears rfl rfl rfl⟩
      · exact ⟨.same rfl rfl rfl (.of_eq rfl),
          .aborts t (.inr ⟨job, rfl⟩) ht (by simpa using hended) rfl rfl rfl⟩
  | spawn =>
    cases h
    exact ⟨.same rfl rfl rfl (.of_eq rfl), .spawns job rfl rfl rfl rfl⟩
  | join t =>
    simp only [advanceRun] at h
    split_ifs at h with hended hslot <;> cases h
    · exact ⟨.same rfl rfl rfl (.of_eq rfl), .clears rfl rfl rfl⟩
    · exact ⟨.same rfl rfl rfl (.of_eq rfl), .keeps rfl rfl rfl⟩
  | _ =>
    simp only [advanceRun] at h
    try split_ifs at h
    all_goals cases h
    all_goals exact ⟨.same rfl rfl rfl (.of_eq rfl), .keeps rfl rfl rfl⟩

/-- **What one step does with the baton.** -/
theorem advance_debt (h : advance n i ch c b = some (c', b', spawned))
    (hb : b.settled = true ∨ ∃ job pc, b = .run job pc ∧ pc.raw = false) :
    DebtStep ch b b' c c' ∧ SlotMove n i b c c' := by
  cases b with
  | stream job pc =>
    obtain ⟨⟨c1, pc1⟩, h1, h2⟩ := Option.map_eq_some_iff.mp h
    cases h2
    exact advanceStream_debt h1
  | cancel em pc =>
    obtain ⟨⟨c1, pc1⟩, h1, h2⟩ := Option.map_eq_some_iff.mp h
    cases h2
    have hmove : SlotMove n i (.cancel em pc) c c' := advanceCancel_move h1
    -- a `cancel` takes the baton, passes by, or reports the job
    rcases advanceCancel_debt h1 with ⟨rfl, hrun, hcan, hfin, howes⟩ | ⟨hrun, hfin, howes, hcan⟩ |
      ⟨hrun, hfin, howes, howes', hcan⟩
    · exact ⟨.takes rfl hrun hcan hfin rfl howes, hmove⟩
    · exact ⟨.same hrun hfin howes (.of_eq hcan), hmove⟩
    · exact ⟨.pays hrun hfin howes howes' (.of_eq hcan), hmove⟩
  | run job pc =>
    obtain ⟨⟨c1, pc1, sp⟩, h1, h2⟩ := Option.map_eq_some_iff.mp h
    cases h2
    refine advanceRun_debt h1 ?_
    rcases hb with hset | ⟨job', pc', heq, hraw⟩
    · cases pc <;> first | rfl | cases hset
    · cases heq
      exact hraw
  | execute command pc =>
    obtain ⟨⟨c1, pc1⟩, h1, h2⟩ := Option.map_eq_some_iff.mp h
    cases h2
    cases pc with
    | submit =>
      simp only [advanceExecute] at h1
      split_ifs at h1 <;> cases h1 <;>
        -- a command given on its own clears the cancellation
        exact ⟨.same rfl rfl rfl (.of_clear rfl), .keeps rfl rfl rfl⟩
    | _ =>
      simp only [advanceExecute] at h1
      try split_ifs at h1
      all_goals cases h1
      all_goals exact ⟨.same rfl rfl rfl (.of_eq rfl), .keeps rfl rfl rfl⟩
  | queue pc =>
    obtain ⟨⟨c1, pc1⟩, h1, h2⟩ := Option.map_eq_some_iff.mp h
    cases h2
    cases pc with
    | top =>
      simp only [advanceQueue] at h1
      split_ifs at h1 <;> cases h1 <;> exact ⟨.same rfl rfl rfl (.of_eq rfl), .keeps rfl rfl rfl⟩
    | recv =>
      simp only [advanceQueue] at h1
      split at h1
      · cases h1
      · split_ifs at h1 <;> cases h1 <;> exact ⟨.same rfl rfl rfl (.of_eq rfl), .keeps rfl rfl rfl⟩
    | _ =>
      simp only [advanceQueue] at h1
      try split_ifs at h1
      all_goals cases h1
      all_goals exact ⟨.same rfl rfl rfl (.of_eq rfl), .keeps rfl rfl rfl⟩
  | interactive command pc =>
    obtain ⟨⟨c1, pc1⟩, h1, h2⟩ := Option.map_eq_some_iff.mp h
    cases h2
    cases pc <;> simp only [advanceInteractive] at h1 <;> (try split_ifs at h1) <;> cases h1 <;>
      exact ⟨.same rfl rfl rfl (.of_eq rfl), .keeps rfl rfl rfl⟩
  | hold on pc =>
    obtain ⟨⟨c1, pc1⟩, h1, h2⟩ := Option.map_eq_some_iff.mp h
    cases h2
    cases pc with
    | start =>
      unfold advanceHold at h1
      dsimp only at h1
      split at h1 <;> cases h1 <;>
        exact ⟨.same rfl rfl rfl (.of_clear rfl), .keeps rfl rfl rfl⟩
    | writing err =>
      cases h1
      exact ⟨.same rfl rfl rfl (.of_eq rfl), .keeps rfl rfl rfl⟩
    | returned => cases h1
  | link connect pc =>
    rcases hb with hset | ⟨job', pc', heq, -⟩
    · obtain ⟨⟨c1, pc1, sp⟩, h1, -⟩ := Option.map_eq_some_iff.mp h
      cases pc with
      | returned => cases h1
      | _ => cases hset
    · cases heq

end Debt

/-! ### Received bytes -/

theorem handleResponse_finishes (c : Core) (r : GrblResponse) :
    (c.handleResponse r).finishes = c.finishes := by
  unfold Core.handleResponse
  split
  · unfold Core.handleOk
    dsimp only
    split
    · rename_i op _
      unfold Core.finishes
      rw [List.count_append]
      have hnone : SessionEvent.jobFinished ∉ c.progressEvents op := by
        unfold Core.progressEvents
        intro hmem
        obtain ⟨k, -, hk⟩ := List.mem_map.mp hmem
        cases hk
      exact congrArg (c.events.count .jobFinished + ·) (List.count_eq_zero_of_not_mem hnone)
    · rfl
  · rfl
  · unfold Core.handleLine
    split_ifs
    · rfl
    · rfl
    · dsimp only
      split <;> rfl
    · dsimp only
      split <;> rfl

/-- Received bytes report no end of a job. -/
theorem handleRx_finishes (data : Bytes) (c : Core) : (c.handleRx data).finishes = c.finishes :=
  handleRx_same (fun _ _ _ => rfl) (fun _ => rfl) handleResponse_finishes data c

/-! ### The condition -/

/-- The step does not lose the baton: a `cancel` that finds the job running writes its Ctrl-X,
and no `cancel` aborts a streaming task that has to report the job. -/
def reportsEnd (s : Sys) (l : Label) : Bool :=
  match l with
  | .task i ch =>
    match s.tasks[i]? with
    | some (.cancel _ .start) | some (.stream _ (.cancelling .start _)) =>
      !s.core.jobRunning || (s.core.isOpen && ch.writeError.isNone)
    | some (.cancel _ (.abort _)) => s.core.streamTask.all fun t =>
      s.core.ended.contains t || !(s.core.jobRunning || (s.tasks[t]?).any Body.owes)
    | _ => true
  | _ => true

/-- The live tasks that owe the report. -/
def Sys.owes (s : Sys) (i : ℕ) : Bool := s.alive i && (s.tasks[i]?).any Body.owes

/-- No job is in progress: no streaming task is alive, and no `cancel` has to report one. -/
structure AtRest (s : Sys) : Prop extends Steady s where
  jobRunning : s.core.jobRunning = false
  done : s.core.streamDone = true
  dead : ∀ t job pc, s.tasks[t]? = some (.stream job pc) → s.alive t = false
  owes : ∀ i, s.owes i = false
  fresh : ∀ i, s.tasks.length ≤ i → s.alive i = true ∧ s.core.streamTask ≠ some i

/-! ### The invariant -/

/-- Where the run is, and whether the job is running. -/
def RunPc.phase (s : Sys) : RunPc → Prop
  | .begin => s.core.jobRunning = false ∧ s.core.streamDone = true
  | .abort => s.core.jobRunning = true ∧ s.core.streamDone = true
  | .spawn => s.core.jobRunning = true
  | .join t => s.core.jobRunning = true → s.alive t = true
  | .returned => s.core.jobRunning = false
  | _ => False

/-- The streaming task has failed, or is being cancelled by itself. -/
def StreamPc.quitting : StreamPc → Bool
  | .cancelling pc _ => pc != .start
  | .final err => err.isSome
  | _ => false

/-- **The invariant**: the report of the job is a baton. -/
structure Due (j : ℕ) (job : Job) (base : ℕ) (s : Sys) : Prop extends Sole j job s where
  joins : ∀ t job' pc, s.tasks[t]? = some (.stream job' pc) → s.alive t = true →
    s.tasks[j]? = some (.run job (.join t))
  phase : ∀ pc, s.tasks[j]? = some (.run job pc) → pc.phase s
  stops : s.core.jobRunning = false → ∀ t job' pc, s.tasks[t]? = some (.stream job' pc) →
    s.alive t = true → s.core.isCancelled = true
  fails : ∀ t job' pc, s.tasks[t]? = some (.stream job' pc) → s.alive t = true →
    pc.quitting = true → s.core.jobRunning = false
  fresh : ∀ i, s.tasks.length ≤ i → s.alive i = true ∧ s.core.streamTask ≠ some i
  seat : ∀ t, s.core.streamTask = some t →
    s.core.ended.contains t = true ∨ s.tasks[j]? = some (.run job (.join t))
  baton : Baton s.core.jobRunning s.owes base s.core.finishes

/-- Every task is settled, but for runs that have sent their realtime commands. -/
def Sys.Tame (s : Sys) : Prop :=
  ∀ (i : ℕ) (b : Body), s.tasks[i]? = some b →
    b.settled = true ∨ ∃ job pc, b = .run job pc ∧ pc.raw = false

section Due

variable {i j t base : ℕ} {job : Job} {ch : Choice} {s u : Sys} {l : Label} {b b' : Body}
  {c' : Core} {spawned : List Body}

/-! ### Steps that are not of a task -/

/-- What is not a step of a task kills nobody, and does nothing with the baton. -/
theorem aside_debt (hs : Sys.step l s = some u) (hl : ∀ i ch, l ≠ .task i ch)
    (hkeep : l.keepsJob = true) :
    (∀ k, u.alive k = s.alive k) ∧ u.core.finishes = s.core.finishes ∧
      ∀ k, u.owes k = s.owes k := by
  have halive : ∀ k, u.alive k = s.alive k := by
    intro k
    cases l with
    | task i ch => exact absurd rfl (hl i ch)
    | drop i =>
      have hdrop := hs
      simp only [Sys.step, Sys.dropTask] at hs
      split at hs
      case isFalse => cases hs
      rename_i hen
      cases hs
      by_cases hk : k = i
      · -- it has been aborted before
        subst hk
        have hab : s.core.aborted.contains k = true := by
          simp only [Bool.and_eq_true] at hen
          exact hen.1.2
        have hdead : s.alive k = false := Sys.alive_eq_false.mpr (.inl (List.contains_iff_mem.mp hab))
        rw [hdead]
        exact Sys.step_dead hdrop hdead
      · simp [Sys.alive, hk]
    | rx data =>
      simp only [Sys.step, Sys.outside] at hs
      split_ifs at hs
      cases hs
      have hf := handleRx_frame data s.core
      unfold Sys.alive
      rw [hf.aborted, hf.ended]
    | poll err =>
      simp only [Sys.step, Sys.outside] at hs
      split_ifs at hs
      cases hs
      unfold Sys.alive Sys.pollStatus
      dsimp only
      split_ifs <;> rfl
    | _ =>
      simp only [Sys.step, Sys.outside] at hs
      split_ifs at hs
      cases hs
      rfl
  have hfin : u.core.finishes = s.core.finishes := by
    cases l with
    | task i ch => exact absurd rfl (hl i ch)
    | drop i =>
      simp only [Sys.step, Sys.dropTask] at hs
      split at hs
      case isFalse => cases hs
      cases hs
      rfl
    | rx data =>
      simp only [Sys.step, Sys.outside] at hs
      split_ifs at hs
      cases hs
      exact handleRx_finishes data s.core
    | poll err =>
      simp only [Sys.step, Sys.outside] at hs
      split_ifs at hs
      cases hs
      unfold Sys.pollStatus
      dsimp only
      split_ifs <;> rfl
    | _ =>
      simp only [Sys.step, Sys.outside] at hs
      split_ifs at hs
      cases hs
      rfl
  refine ⟨halive, hfin, fun k => ?_⟩
  unfold Sys.owes
  rw [halive k]
  congr 1
  cases hk : s.tasks[k]? with
  | some b => rw [Sys.step_tasks hs hk fun ch => hl k ch]
  | none =>
    cases hu : u.tasks[k]? with
    | none => rfl
    | some b =>
      -- a call of a function that starts no job
      rcases Sys.step_new hs hk hu with ⟨op, rfl, rfl⟩ | ⟨i, ch, job, rfl, -, -⟩ | rfl
      · cases op <;> first | rfl | cases hkeep
      · exact absurd rfl (hl i ch)
      · rfl

/-! ### Steps of tasks -/

/-- Whom a step of a task kills. -/
theorem SlotMove.alive {n k : ℕ} {act : Option ℕ} {ts : List Body}
    (h : SlotMove n i b s.core c') (hk : s.alive k = true) :
    (Sys.mk c' ts act).alive k = true ∨
      (k = i ∧ ∃ job err, b = .stream job (.final err)) ∨
      (s.core.streamTask = some k ∧ s.core.ended.contains k = false ∧
        ((∃ em was, b = .cancel em (.abort was)) ∨ ∃ job, b = .run job .abort)) := by
  have hsame : c'.aborted = s.core.aborted → c'.ended = s.core.ended →
      (Sys.mk c' ts act).alive k = true := by
    intro ha he
    show (!c'.aborted.contains k && !c'.ended.contains k) = true
    rw [ha, he]
    exact hk
  cases h with
  | keeps ha he hslot => exact .inl (hsame ha he)
  | clears ha he hslot => exact .inl (hsame ha he)
  | spawns job hb ha he hslot => exact .inl (hsame ha he)
  | aborts t hb ht hended ha he hslot =>
    by_cases hkt : k = t
    · rw [hkt]
      exact .inr (.inr ⟨ht, hended, hb⟩)
    · refine .inl ?_
      show (!c'.aborted.contains k && !c'.ended.contains k) = true
      rw [ha, he, List.contains_cons, beq_eq_false_iff_ne.mpr hkt, Bool.false_or]
      exact hk
  | ends job err hb ha he hslot =>
    by_cases hki : k = i
    · exact .inr (.inl ⟨hki, job, err, hb⟩)
    · refine .inl ?_
      show (!c'.aborted.contains k && !c'.ended.contains k) = true
      rw [ha, he, List.contains_cons, beq_eq_false_iff_ne.mpr hki, Bool.false_or]
      exact hk

/-- The numbers of tasks to come stay fresh. -/
theorem fresh_step (hset : s.Tame)
    (hfresh : ∀ i, s.tasks.length ≤ i → s.alive i = true ∧ s.core.streamTask ≠ some i)
    (hs : Sys.step l s = some u) (hkeep : l.keepsJob = true) (hi : u.tasks.length ≤ i) :
    u.alive i = true ∧ u.core.streamTask ≠ some i := by
  have hle := Sys.step_length hs
  obtain ⟨halive, hslot⟩ := hfresh i (hle.trans hi)
  by_cases hl : ∃ k ch, l = .task k ch
  · obtain ⟨k, ch, rfl⟩ := hl
    obtain ⟨b, c', b', spawned, hb, -, -, hadv, rfl⟩ := Sys.step_task hs
    obtain ⟨-, hmove⟩ := advance_debt hadv (hset k b hb)
    have hlen : k < s.tasks.length := (List.getElem?_eq_some_iff.mp hb).1
    refine ⟨?_, ?_⟩
    -- a step kills itself or the task in the slot, and both are old
    · rcases hmove.alive halive with hu | ⟨rfl, -⟩ | ⟨ht, -⟩
      · exact hu
      · omega
      · exact absurd ht hslot
    · show c'.streamTask ≠ some i
      cases hmove with
      | keeps _ _ hsame =>
        rw [hsame]
        exact hslot
      | ends _ _ _ _ _ hsame =>
        rw [hsame]
        exact hslot
      | clears _ _ hnone =>
        rw [hnone]
        exact nofun
      | aborts _ _ _ _ _ _ hnone =>
        rw [hnone]
        exact nofun
      | spawns job' hspawn _ _ hsome =>
        subst hspawn
        cases hadv
        rw [hsome]
        intro heq
        have hlen' : s.tasks.length + 1 ≤ i := by
          simpa [List.length_append, List.length_set] using hi
        have := Option.some.inj heq
        omega
  · rw [(aside_debt hs (fun k ch hk => hl ⟨k, ch, hk⟩) hkeep).1 i,
      (Sys.step_other hs fun k ch hk => hl ⟨k, ch, hk⟩).2.1]
    exact ⟨halive, hslot⟩

/-- Only the start of a job sets the flag of the running job. -/
theorem not_started (hset : s.Tame) (hs : Sys.step l s = some u)
    (hbegin : ∀ (i : ℕ) (job : Job), s.tasks[i]? ≠ some (.run job .begin))
    (hu : u.core.jobRunning = true) :
    s.core.jobRunning = true := by
  by_cases hl : ∃ i ch, l = .task i ch
  · obtain ⟨i, ch, rfl⟩ := hl
    obtain ⟨b, c', b', spawned, hb, -, -, hadv, rfl⟩ := Sys.step_task hs
    obtain ⟨hdebt, -⟩ := advance_debt hadv (hset i b hb)
    cases hdebt with
    | same hrun _ _ _ => exact hrun.symm.trans hu
    | pays hrun _ _ _ _ => exact hrun.symm.trans hu
    | takes _ hrun _ _ _ _ => cases hrun.symm.trans hu
    | closes _ _ _ hrun _ _ _ => cases hrun.symm.trans hu
    | starts job' hb' _ _ _ => exact absurd (hb' ▸ hb) (hbegin i job')
  · exact (Sys.step_aside hs fun i ch hi => hl ⟨i, ch, hi⟩).2.2.1.symm.trans hu

/-- The tasks but the one that moves owe what they owed, unless one that owes is aborted. -/
theorem owes_other {k : ℕ} (hs : Sys.step (.task i ch) s = some u) (hk : k ≠ i)
    (hkept : s.owes k = true → u.alive k = true) : u.owes k = s.owes k := by
  have hne : ∀ ch', Label.task i ch ≠ .task k ch' := fun ch' heq => hk (by cases heq; rfl)
  cases hb : s.tasks[k]? with
  | none =>
    have hold : s.owes k = false := by
      unfold Sys.owes
      rw [hb]
      exact Bool.and_false _
    rw [hold]
    unfold Sys.owes
    cases hu : u.tasks[k]? with
    | none => exact Bool.and_false _
    | some b' =>
      rcases Sys.step_new hs hb hu with ⟨op, hop, -⟩ | ⟨i', ch', job, -, -, rfl⟩ | rfl
      · cases hop
      · exact Bool.and_false _
      · exact Bool.and_false _
  | some b =>
    have hu := Sys.step_tasks hs hb hne
    unfold Sys.owes at hkept ⊢
    rw [hb] at hkept ⊢
    rw [hu]
    show (u.alive k && b.owes) = (s.alive k && b.owes)
    cases hbo : b.owes with
    | false => rw [Bool.and_false, Bool.and_false]
    | true =>
      cases halive : s.alive k with
      | false => rw [Sys.step_dead hs halive]
      | true => rw [hkept (by simp [halive, hbo])]

/-- The run of the job has sent its realtime commands. -/
theorem Due.not_raw {pc : RunPc} (h : Due j job base s)
    (hj : s.tasks[j]? = some (.run job pc)) : pc.raw = false := by
  have hphase := h.phase pc hj
  cases pc <;> first | rfl | exact hphase.elim

/-- Every task is settled, but for the run of the job. -/
theorem Due.settled (h : Due j job base s) (hb : s.tasks[i]? = some b) :
    b.settled = true ∨ ∃ job pc, b = .run job pc ∧ pc.raw = false := by
  by_cases hij : i = j
  · subst hij
    obtain ⟨pc, hj⟩ := h.run
    obtain rfl : b = .run job pc := Option.some.inj (hb.symm.trans hj)
    exact .inr ⟨job, pc, rfl, h.not_raw hj⟩
  · exact .inl (h.others i b hij hb)

/-- Only a `cancel` aborts the streaming task, and none that owes the report. -/
theorem Due.aborts {k : ℕ} (h : Due j job base s) (hok : reportsEnd s (.task i ch) = true)
    (hb : s.tasks[i]? = some b) (hk : s.core.streamTask = some k)
    (hended : s.core.ended.contains k = false)
    (hcause : (∃ em was, b = .cancel em (.abort was)) ∨ ∃ job, b = .run job .abort) :
    (∃ em was, b = .cancel em (.abort was)) ∧ s.core.jobRunning = false ∧ s.owes k = false := by
  rcases hcause with ⟨em, was, rfl⟩ | ⟨job', rfl⟩
  · simp only [reportsEnd, hb, hk, Option.all_some, hended, Bool.false_or, Bool.not_eq_true',
      Bool.or_eq_false_iff] at hok
    exact ⟨⟨em, was, rfl⟩, hok.1, by unfold Sys.owes; rw [hok.2, Bool.and_false]⟩
  · -- the run finds no streaming task
    have hij : i = j := by
      by_contra hij
      cases h.others i _ hij hb
    subst hij
    obtain ⟨pc, hj⟩ := h.run
    cases hb.symm.trans hj
    have hdone := (h.phase _ hj).2
    unfold Core.streamDone at hdone
    rw [hk, Option.all_some, hended] at hdone
    cases hdone

/-- A task that owes the report, or runs for the running job, is not killed by another one. -/
theorem Due.kept {k : ℕ} (h : Due j job base s) (hs : Sys.step (.task i ch) s = some u)
    (hok : reportsEnd s (.task i ch) = true) (hk : k ≠ i) (halive : s.alive k = true)
    (howes : s.core.jobRunning = true ∨ s.owes k = true) : u.alive k = true := by
  obtain ⟨b, c', b', spawned, hb, -, -, hadv, rfl⟩ := Sys.step_task hs
  obtain ⟨-, hmove⟩ := advance_debt hadv (h.settled hb)
  rcases hmove.alive halive with hu | ⟨hki, -⟩ | ⟨hslot, hended, hcause⟩
  · exact hu
  · exact absurd hki hk
  · obtain ⟨-, hrun, ho⟩ := h.aborts hok hb hslot hended hcause
    rw [hrun, ho] at howes
    rcases howes with howes | howes <;> cases howes

/-- The task that moves survives, unless it ends. -/
theorem Due.survives (h : Due j job base s) (hs : Sys.step (.task i ch) s = some u)
    (hok : reportsEnd s (.task i ch) = true) (hb : s.tasks[i]? = some b)
    (hfinal : ∀ job err, b ≠ .stream job (.final err))
    (habort : b.owes = true ∨ ∀ em was, b ≠ .cancel em (.abort was)) : u.alive i = true := by
  obtain ⟨b₀, c', b', spawned, hb₀, halive, -, hadv, rfl⟩ := Sys.step_task hs
  obtain rfl : b = b₀ := Option.some.inj (hb.symm.trans hb₀)
  obtain ⟨-, hmove⟩ := advance_debt hadv (h.settled hb)
  rcases hmove.alive halive with hu | ⟨-, job', err, hbf⟩ | ⟨hslot, hended, hcause⟩
  · exact hu
  · exact absurd hbf (hfinal job' err)
  · obtain ⟨⟨em, was, heq⟩, -, ho⟩ := h.aborts hok hb hslot hended hcause
    rcases habort with howes | hne
    · unfold Sys.owes at ho
      rw [halive, hb, Bool.true_and, Option.any_some, howes] at ho
      cases ho
    · exact absurd heq (hne em was)

/-- **The baton under the step of a task.** -/
theorem Due.baton_task (h : Due j job base s) (hs : Sys.step (.task i ch) s = some u)
    (hok : reportsEnd s (.task i ch) = true) :
    Baton u.core.jobRunning u.owes base u.core.finishes := by
  have hothers : ∀ k, k ≠ i → u.owes k = s.owes k := by
    intro k hk
    refine owes_other hs hk fun ho => ?_
    have halive : s.alive k = true := by
      unfold Sys.owes at ho
      exact (Bool.and_eq_true_iff.mp ho).1
    exact h.kept hs hok hk halive (.inr ho)
  obtain ⟨b, c', b', spawned, hb, halive, hen, hadv, hu⟩ := Sys.step_task hs
  obtain ⟨hdebt, -⟩ := advance_debt hadv (h.settled hb)
  have hcore : u.core = c' := by rw [hu]
  have hold : s.owes i = b.owes := by
    unfold Sys.owes
    rw [halive, hb]
    rfl
  have hnew : u.owes i = (u.alive i && b'.owes) := by
    have hlen : i < s.tasks.length := (List.getElem?_eq_some_iff.mp hb).1
    have hui : u.tasks[i]? = some b' := by
      rw [hu]
      show (s.tasks.set i b' ++ spawned)[i]? = some b'
      rw [List.getElem?_append_left (by rw [List.length_set]; exact hlen),
        List.getElem?_set_self hlen]
    unfold Sys.owes
    rw [hui]
    rfl
  have hall : u.owes i = s.owes i → ∀ k, u.owes k = s.owes k := fun hi k => by
    by_cases hk : k = i
    · rw [hk, hi]
    · exact hothers k hk
  rw [hcore]
  cases hdebt with
  | same hrun hfin howes hcan =>
    refine h.baton.keep hrun (hall ?_) hfin
    rw [hnew, hold, howes]
    cases hbo : b.owes with
    | false => exact Bool.and_false _
    | true =>
      have hfinal : ∀ job err, b ≠ .stream job (.final err) := by
        rintro job' err rfl
        cases hbo
      rw [h.survives hs hok hb hfinal (.inl hbo)]
      rfl
  | starts job' hbegin hrun hfin howes' =>
    rw [hrun, hfin]
    refine h.baton.give (i := i) ?_ (by rw [hnew, howes', Bool.and_false]) hothers
    rw [hold, hbegin]
    rfl
  | takes hcancels hrun hcan hfin howes howes' =>
    have hfinal : ∀ job err, b ≠ .stream job (.final err) := by
      rintro job' err rfl
      cases hcancels
    have habort : ∀ em was, b ≠ .cancel em (.abort was) := by
      rintro em was rfl
      cases hcancels
    cases hjob : s.core.jobRunning with
    | false =>
      -- there is no job to report
      refine h.baton.keep (hrun.trans hjob.symm) (hall ?_) hfin
      rw [hnew, hold, howes, howes', hjob, Bool.false_and, Bool.and_false]
    | true =>
      have hwritten : (s.core.isOpen && ch.writeError.isNone) = true := by
        cases b with
        | cancel em pc =>
          cases pc with
          | start => simpa only [reportsEnd, hb, hjob, Bool.not_true, Bool.false_or] using hok
          | _ => cases hcancels
        | stream job' pc =>
          cases pc with
          | cancelling pc e =>
            cases pc with
            | start => simpa only [reportsEnd, hb, hjob, Bool.not_true, Bool.false_or] using hok
            | _ => cases hcancels
          | _ => cases hcancels
        | link connect pc =>
          rcases h.settled hb with hset | ⟨_, _, heq, -⟩
          · cases pc with
            | start => cases hset
            | _ => cases hcancels
          · cases heq
        | _ => cases hcancels
      rw [hrun, hfin]
      refine h.baton.take (i := i) hjob ?_ hothers
      rw [hnew, h.survives hs hok hb hfinal (.inr habort), howes', hjob, hwritten]
      rfl
  | pays hrun hfin howes howes' hcan =>
    have hi : s.owes i = true := hold.trans howes
    rw [hrun, hfin, h.baton.not_shared hi]
    exact h.baton.pay hi (by rw [hnew, howes', Bool.and_false]) hothers
  | closes job' err hend hrun hfin howes' hcan =>
    have hsame : u.owes i = s.owes i := by
      rw [hnew, hold, howes', hend, Bool.and_false]
      rfl
    rw [hend] at hb
    rw [hrun, hfin]
    cases hjob : s.core.jobRunning with
    | true =>
      have herr : err = none := by
        cases err with
        | none => rfl
        | some e =>
          rw [h.fails i job' _ hb halive rfl] at hjob
          cases hjob
      rw [herr, h.flags hjob]
      exact h.baton.close hjob (hall hsame)
    | false =>
      rw [h.stops hjob i job' _ hb halive, Bool.not_true, Bool.and_false]
      exact h.baton.keep hjob.symm (hall hsame) rfl

/-- Only the start of the job sets the flag of the running job. -/
theorem Due.not_started (h : Due j job base s) (hs : Sys.step l s = some u)
    (hj : s.tasks[j]? ≠ some (.run job .begin)) (hu : u.core.jobRunning = true) :
    s.core.jobRunning = true := by
  refine Raydriver.not_started (fun _ _ hb => h.settled hb) hs (fun i job' hi => ?_) hu
  by_cases hij : i = j
  · obtain ⟨pc, hpc⟩ := h.run
    rw [hij, hpc] at hi
    cases hi
    exact hj hpc
  · cases h.others i _ hij hi

/-- While the job is running no task dies, but for the streaming task at its end. -/
theorem Due.alive_running {k : ℕ} (h : Due j job base s) (hs : Sys.step l s = some u)
    (hkeep : l.keepsJob = true) (hok : reportsEnd s l = true) (hrun : s.core.jobRunning = true)
    (hrun' : u.core.jobRunning = true) (halive : s.alive k = true) : u.alive k = true := by
  by_cases hl : ∃ i ch, l = .task i ch
  · obtain ⟨i, ch, rfl⟩ := hl
    obtain ⟨b, c', b', spawned, hb, -, -, hadv, rfl⟩ := Sys.step_task hs
    obtain ⟨-, hmove⟩ := advance_debt hadv (h.settled hb)
    rcases hmove.alive halive with hu | ⟨-, job', err, rfl⟩ | ⟨hslot, hended, hcause⟩
    · exact hu
    · -- the streaming task ends: the flag is cleared
      cases hadv
      cases hrun'
    · rw [(h.aborts hok hb hslot hended hcause).2.1] at hrun
      cases hrun
  · rw [(aside_debt hs (fun i ch hi => hl ⟨i, ch, hi⟩) hkeep).1 k]
    exact halive

/-- The run waits for every live streaming task. -/
theorem Due.joins_step (h : Due j job base s) (hs : Sys.step l s = some u) (job' : Job)
    (pc : StreamPc) (ht : u.tasks[t]? = some (.stream job' pc)) (halive : u.alive t = true) :
    u.tasks[j]? = some (.run job (.join t)) := by
  rcases Sys.step_stream hs ht with ⟨pc₀, ht₀, -⟩ | ⟨hnone, -, i, ch, rfl, hi⟩
  · have halive₀ := Sys.alive_of_step hs halive
    have hj := h.joins t job' pc₀ ht₀ halive₀
    by_cases hl : ∃ ch, l = .task j ch
    · -- the run does not go on before its streaming task has ended
      obtain ⟨ch, rfl⟩ := hl
      obtain ⟨b, c', b', spawned, hb, -, -, hadv, -⟩ := Sys.step_task hs
      cases hb.symm.trans hj
      obtain ⟨⟨c₁, pc₁, sp⟩, hadv', -⟩ := Option.map_eq_some_iff.mp hadv
      have hended : s.core.ended.contains t = true := by
        by_contra hno
        simp only [advanceRun] at hadv'
        rw [if_neg hno] at hadv'
        cases hadv'
      rw [Sys.alive_eq_false.mpr (.inr (List.contains_iff_mem.mp hended))] at halive₀
      cases halive₀
    · exact Sys.step_tasks hs hj fun ch hch => hl ⟨ch, hch⟩
  · have hij : i = j := by
      by_contra hij
      cases h.others i _ hij hi
    subst hij
    obtain ⟨b, c', b', spawned, hb, -, -, hadv, rfl⟩ := Sys.step_task hs
    obtain ⟨pc₀, hj⟩ := h.run
    cases hb.symm.trans hi
    cases hi.symm.trans hj
    cases hadv
    have hlen : i < s.tasks.length := (List.getElem?_eq_some_iff.mp hi).1
    rw [List.getElem?_eq_none_iff] at hnone
    have hlent := (List.getElem?_eq_some_iff.mp ht).1
    simp only [List.length_append, List.length_set, if_true, List.length_singleton] at hlent
    obtain rfl : t = s.tasks.length := by omega
    show (s.tasks.set i (.run job (.join s.tasks.length)) ++ [.stream job .start])[i]? = _
    rw [List.getElem?_append_left (by rw [List.length_set]; exact hlen),
      List.getElem?_set_self hlen]

/-- The run goes from phase to phase. -/
theorem Due.phase_step (h : Due j job base s) (hs : Sys.step l s = some u)
    (hkeep : l.keepsJob = true) (hok : reportsEnd s l = true) {pc : RunPc}
    (hu : u.tasks[j]? = some (.run job pc)) : pc.phase u := by
  obtain ⟨pc₀, hj⟩ := h.run
  have hphase := h.phase pc₀ hj
  by_cases hl : ∃ ch, l = .task j ch
  · obtain ⟨ch, rfl⟩ := hl
    obtain ⟨b, c', b', spawned, hb, -, -, hadv, rfl⟩ := Sys.step_task hs
    cases hb.symm.trans hj
    obtain ⟨⟨c₁, pc₁, sp⟩, hadv', heq⟩ := Option.map_eq_some_iff.mp hadv
    cases heq
    have hlen : j < s.tasks.length := (List.getElem?_eq_some_iff.mp hj).1
    have hnew : (s.tasks.set j (.run job pc₁) ++ if sp then [.stream job .start] else [])[j]?
        = some (.run job pc₁) := by
      rw [List.getElem?_append_left (by rw [List.length_set]; exact hlen),
        List.getElem?_set_self hlen]
    obtain rfl : pc₁ = pc := by simpa using hnew.symm.trans hu
    cases pc₀ with
    | begin =>
      cases hadv'
      exact ⟨rfl, hphase.2⟩
    | abort =>
      obtain ⟨hrun, hdone⟩ := hphase
      simp only [advanceRun] at hadv'
      split at hadv'
      · cases hadv'
        exact hrun
      -- a task in the slot has ended, so the run awaits nothing here
      · rename_i t ht
        unfold Core.streamDone at hdone
        rw [ht, Option.all_some] at hdone
        rw [if_pos hdone] at hadv'
        cases hadv'
        exact hrun
    | spawn =>
      cases hadv'
      exact fun _ => (h.fresh _ (Nat.le_refl _)).1
    | join t =>
      simp only [advanceRun] at hadv'
      split_ifs at hadv' with hended hslot <;> cases hadv' <;>
      -- the joined task has ended: it has paid its debt
      · show s.core.jobRunning = false
        by_contra hrun
        have halive := hphase (by simpa using hrun)
        rw [Sys.alive_eq_false.mpr (.inr (List.contains_iff_mem.mp hended))] at halive
        cases halive
    | returned => cases hadv'
    | _ => exact hphase.elim
  · have hne : ∀ ch, l ≠ .task j ch := fun ch hch => hl ⟨ch, hch⟩
    have hsame := Sys.step_tasks hs hj hne
    obtain rfl : pc₀ = pc := by simpa using hsame.symm.trans hu
    -- the run stands still, and only a start could raise the flag again
    have hsusp := Sys.step_waits (b := .run job pc₀) hs hne (h.waits j _ hj)
    cases pc₀ with
    | join t =>
      intro hrun'
      have hrun := h.not_started hs (by rw [hj]; simp) hrun'
      exact h.alive_running hs hkeep hok hrun hrun' (hphase hrun)
    | returned =>
      show u.core.jobRunning = false
      by_contra hrun'
      have hrun := h.not_started hs (by rw [hj]; simp) (by simpa using hrun')
      cases hrun.symm.trans hphase
    | abortWait t => exact hphase.elim
    | rawWriting realtime err => exact hphase.elim
    | _ => cases hsusp

/-- A live streaming task sits in the slot, so there is one. -/
theorem Slotted.not_done {pc : StreamPc} (h : Slotted s)
    (ht : s.tasks[t]? = some (.stream job pc)) (halive : s.alive t = true) :
    s.core.streamDone = false := by
  have hended : s.core.ended.contains t = false := by
    by_contra hne
    rw [Sys.alive_eq_false.mpr (.inr (List.contains_iff_mem.mp (by simpa using hne)))] at halive
    cases halive
  unfold Core.streamDone
  rw [(h.slot t job pc ht halive).1, Option.all_some, hended]

/-- When the job has been stopped, every live streaming task finds it cancelled. -/
theorem Due.stops_step (h : Due j job base s) (hs : Sys.step l s = some u)
    (hrun : u.core.jobRunning = false) (job' : Job) (pc : StreamPc)
    (ht : u.tasks[t]? = some (.stream job' pc)) (halive : u.alive t = true) :
    u.core.isCancelled = true := by
  rcases Sys.step_stream hs ht with ⟨pc₀, ht₀, -⟩ | ⟨-, -, i, ch, rfl, hi⟩
  · have halive₀ := Sys.alive_of_step hs halive
    have hdone := h.toSlotted.not_done ht₀ halive₀
    by_cases hl : ∃ i ch, l = .task i ch
    · obtain ⟨i, ch, rfl⟩ := hl
      obtain ⟨b, c', b', spawned, hb, halivei, -, hadv, rfl⟩ := Sys.step_task hs
      have hkept : s.core.jobRunning = c'.jobRunning → KeepsCancel s.core c' →
          c'.isCancelled = true := fun hsame hcan =>
        hcan (h.stops (hsame.trans hrun) t job' pc₀ ht₀ halive₀) hdone
      obtain ⟨hdebt, hmove⟩ := advance_debt hadv (h.settled hb)
      cases hdebt with
      | same hrun' _ _ hcan => exact hkept hrun'.symm hcan
      | pays hrun' _ _ _ hcan => exact hkept hrun'.symm hcan
      | takes _ _ hcan _ _ _ => exact hcan
      | starts _ _ hrun' _ _ => cases hrun'.symm.trans hrun
      | closes job₁ err hend _ _ _ _ =>
        -- the only streaming task has ended
        subst hend
        obtain rfl := h.unique hb halivei ht₀ halive₀
        cases hadv
        have hmem : i ∈ i :: s.core.ended := List.mem_cons_self
        cases halive.symm.trans (Sys.alive_eq_false.mpr (.inr hmem))
    · obtain ⟨-, hcan, hrun', -⟩ := Sys.step_aside hs fun i ch hi => hl ⟨i, ch, hi⟩
      rw [hcan]
      exact h.stops (hrun'.symm.trans hrun) t job' pc₀ ht₀ halive₀
  · have hij : i = j := by
      by_contra hij
      cases h.others i _ hij hi
    subst hij
    obtain ⟨pc₀, hj⟩ := h.run
    cases hi.symm.trans hj
    obtain ⟨b, c', b', spawned, hb, -, -, hadv, rfl⟩ := Sys.step_task hs
    cases hb.symm.trans hi
    cases hadv
    cases (h.phase _ hj : s.core.jobRunning = true).symm.trans hrun

/-- How a streaming task comes to give up its job. -/
theorem advanceStream_quits {c c' : Core} {pc pc' : StreamPc}
    (h : advanceStream t job ch c pc = some (c', pc')) (hpc' : pc'.quitting = true) :
    pc.quitting = true ∨ c.isCancelled = true ∨
      (c'.jobRunning = false ∧ c'.isCancelled = true) := by
  cases pc with
  | loopTop idx rest =>
    cases rest <;> simp only [advanceStream] at h <;> (try split_ifs at h) <;> cases h <;> cases hpc'
  | writing s err => cases err <;> cases h <;> cases hpc'
  | stall s =>
    cases h
    split at hpc' <;> cases hpc'
  | stallEnd s handled => cases handled <;> cases h <;> cases hpc'
  | poll w => cases w <;> cases h <;> cases hpc'
  | pollWriting w before err => cases err <;> cases h <;> cases hpc'
  | pollAwait w before left => cases left <;> cases h <;> cases hpc'
  | pollEnd w idle =>
    cases w <;> simp only [advanceStream] at h <;> split_ifs at h <;> cases h <;> cases hpc'
  | recover w =>
    cases w <;> simp only [advanceStream] at h <;> split_ifs at h <;> cases h <;> cases hpc'
  | recoverStart w =>
    cases h
    split at hpc' <;> cases hpc'
  | recoverSent w =>
    cases h
    split at hpc' <;> cases hpc'
  | recoverEnd w => cases w <;> cases h <;> cases hpc'
  | outcome err =>
    cases err with
    | none =>
      cases h
      cases hpc'
    | some e =>
      simp only [advanceStream] at h
      split_ifs at h with hcan <;> cases h
      · exact .inr (.inl hcan)
      · cases hpc'
  | cancelling pc e =>
    by_cases hstart : pc = .start
    · subst hstart
      obtain ⟨⟨c₁, pc₁⟩, h1, h2⟩ := Option.map_eq_some_iff.mp h
      cases h2
      simp only [advanceCancel] at h1
      split_ifs at h1 <;> cases h1 <;> exact .inr (.inr ⟨rfl, rfl⟩)
    · exact .inl (bne_iff_ne.mpr hstart)
  | final err =>
    cases h
    cases hpc'
  | _ =>
    simp only [advanceStream] at h
    try split_ifs at h
    all_goals cases h
    all_goals cases hpc'

/-- The streaming task of a running job has not given up. -/
theorem Due.fails_step (h : Due j job base s) (hs : Sys.step l s = some u) (job' : Job)
    (pc : StreamPc) (ht : u.tasks[t]? = some (.stream job' pc)) (halive : u.alive t = true)
    (hpc : pc.quitting = true) : u.core.jobRunning = false := by
  rcases Sys.step_stream hs ht with ⟨pc₀, ht₀, hmove⟩ | ⟨-, rfl, -⟩
  · have halive₀ := Sys.alive_of_step hs halive
    have hj : s.tasks[j]? ≠ some (.run job .begin) := by
      rw [h.joins t job' pc₀ ht₀ halive₀]
      simp
    by_contra hrun'
    have hrun := h.not_started hs hj (by simpa using hrun')
    have hquit : pc₀.quitting = true → False := fun hq => by
      cases hrun.symm.trans (h.fails t job' pc₀ ht₀ halive₀ hq)
    rcases hmove with ⟨rfl, -⟩ | ⟨ch, rfl, -, -, hadv⟩
    · exact hquit hpc
    · rcases advanceStream_quits hadv hpc with hq | hcan | ⟨hstop, -⟩
      · exact hquit hq
      · rw [h.flags hrun] at hcan
        cases hcan
      · exact hrun' hstop
  · cases hpc

/-- The streaming task in the slot has ended, or is the one the run waits for. -/
theorem Due.seat_step (h : Due j job base s) (hs : Sys.step l s = some u)
    (ht : u.core.streamTask = some t) :
    u.core.ended.contains t = true ∨ u.tasks[j]? = some (.run job (.join t)) := by
  have hended : s.core.ended.contains t = true → u.core.ended.contains t = true := fun he =>
    List.contains_iff_mem.mpr ((Sys.step_grows hs).2 (List.contains_iff_mem.mp he))
  obtain ⟨pc, hj⟩ := h.run
  by_cases hl : ∃ i ch, l = .task i ch
  · obtain ⟨i, ch, rfl⟩ := hl
    have hstep := hs
    obtain ⟨b, c', b', spawned, hb, -, -, hadv, rfl⟩ := Sys.step_task hs
    obtain ⟨-, hmove⟩ := advance_debt hadv (h.settled hb)
    -- a step that leaves the slot alone
    have hkept : c'.streamTask = s.core.streamTask → c'.ended.contains t = true ∨
        (s.tasks.set i b' ++ spawned)[j]? = some (.run job (.join t)) := by
      intro hsame
      rcases h.seat t (hsame.symm.trans ht) with he | hjoin
      · exact .inl (hended he)
      · by_cases hij : i = j
        · -- the run leaves its await only when the task has ended
          subst hij
          cases hb.symm.trans hjoin
          obtain ⟨⟨c₁, pc₁, sp⟩, hadv', heq⟩ := Option.map_eq_some_iff.mp hadv
          cases heq
          refine .inl (hended ?_)
          by_contra hno
          simp only [advanceRun] at hadv'
          rw [if_neg hno] at hadv'
          cases hadv'
        · exact .inr (Sys.step_tasks hstep hjoin fun ch' heq => hij (by cases heq; rfl))
    cases hmove with
    | keeps _ _ hsame => exact hkept hsame
    | ends _ _ _ _ _ hsame => exact hkept hsame
    | clears _ _ hnone => cases hnone.symm.trans ht
    | aborts _ _ _ _ _ _ hnone => cases hnone.symm.trans ht
    -- a spawn: the run goes on to await the task it has put there
    | spawns job' hspawn _ _ hsome =>
      have hij : i = j := by
        by_contra hij
        rw [hspawn] at hb
        cases h.others i _ hij hb
      subst hij
      rw [hspawn] at hb
      cases hb.symm.trans hj
      subst hspawn
      cases hadv
      cases hsome.symm.trans ht
      refine .inr ?_
      have hlen : i < s.tasks.length := (List.getElem?_eq_some_iff.mp hb).1
      show (s.tasks.set i (.run job (.join s.tasks.length)) ++ [.stream job .start])[i]? = _
      rw [List.getElem?_append_left (by rw [List.length_set]; exact hlen),
        List.getElem?_set_self hlen]
  · have hne : ∀ i ch, l ≠ .task i ch := fun i ch hi => hl ⟨i, ch, hi⟩
    rw [(Sys.step_other hs hne).2.1] at ht
    exact (h.seat t ht).imp hended fun hjoin => Sys.step_tasks hs hjoin fun ch => hne j ch

/-- **The invariant is kept.** -/
theorem Due.step (h : Due j job base s) (hs : Sys.step l s = some u)
    (hkeep : l.keepsJob = true) (hok : reportsEnd s l = true) : Due j job base u where
  toSole := h.toSole.step hs hkeep
  joins := fun _ job' pc ht halive => h.joins_step hs job' pc ht halive
  phase := fun _ hu => h.phase_step hs hkeep hok hu
  stops := fun hrun _ job' pc ht halive => h.stops_step hs hrun job' pc ht halive
  fails := fun _ job' pc ht halive hpc => h.fails_step hs job' pc ht halive hpc
  fresh := fun _ hi => fresh_step (fun _ _ hb => h.settled hb) h.fresh hs hkeep hi
  seat := fun _ ht => h.seat_step hs ht
  baton := by
    by_cases hl : ∃ i ch, l = .task i ch
    · obtain ⟨i, ch, rfl⟩ := hl
      exact h.baton_task hs hok
    · have hne : ∀ i ch, l ≠ .task i ch := fun i ch hi => hl ⟨i, ch, hi⟩
      obtain ⟨-, hfin, howes⟩ := aside_debt hs hne hkeep
      exact h.baton.keep (Sys.step_aside hs hne).2.2.1 howes hfin

/-- The call of the run. -/
theorem Due.of_call (h : AtRest s) (hcall : Sys.step (.call (.run job)) s = some u) :
    Due s.tasks.length job s.core.finishes u := by
  have hbody : (Call.run job).body = .run job .begin := rfl
  have hsole := Sole.of_call h.toSteady hbody hcall
  simp only [Sys.step] at hcall
  split_ifs at hcall
  cases hcall
  have hnew : (s.tasks ++ [Body.run job .begin])[s.tasks.length]? = some (.run job .begin) := by
    simp
  have hold : ∀ k b, (s.tasks ++ [Body.run job .begin])[k]? = some b → k ≠ s.tasks.length →
      s.tasks[k]? = some b := by
    intro k b hb hk
    have hlen := (List.getElem?_eq_some_iff.mp hb).1
    rw [List.length_append, List.length_singleton] at hlen
    rwa [List.getElem?_append_left (by omega)] at hb
  have hdead : ∀ t job' pc, (s.tasks ++ [Body.run job .begin])[t]? = some (.stream job' pc) →
      s.alive t = true → False := by
    intro t job' pc ht halive
    by_cases hk : t = s.tasks.length
    · rw [hk, hnew] at ht
      cases ht
    · rw [h.dead t job' pc (hold t _ ht hk)] at halive
      cases halive
  refine ⟨hsole, fun t job' pc ht halive => (hdead t job' pc ht halive).elim, fun pc hpc => ?_,
    fun _ t job' pc ht halive => (hdead t job' pc ht halive).elim,
    fun t job' pc ht halive _ => (hdead t job' pc ht halive).elim, fun i hi => ?_,
    fun t ht => .inl ?_, ?_⟩
  · obtain rfl : RunPc.begin = pc := by simpa using hnew.symm.trans hpc
    exact ⟨h.jobRunning, h.done⟩
  · have hi' : s.tasks.length + 1 ≤ i := by
      simpa [List.length_append] using hi
    exact h.fresh i (by omega)
  · have hdone := h.done
    unfold Core.streamDone at hdone
    rwa [show s.core.streamTask = some t from ht, Option.all_some] at hdone
  · show Baton s.core.jobRunning _ _ _
    rw [h.jobRunning]
    refine Baton.of_holder (i := s.tasks.length) ?_ fun k hk => ?_
    · show (s.alive _ && ((s.tasks ++ [Body.run job .begin])[s.tasks.length]?).any Body.owes) = true
      rw [(h.fresh _ (Nat.le_refl _)).1, hnew]
      rfl
    · show (s.alive k && ((s.tasks ++ [Body.run job .begin])[k]?).any Body.owes) = false
      cases hb : (s.tasks ++ [Body.run job .begin])[k]? with
      | none => exact Bool.and_false _
      | some b =>
        have howes := h.owes k
        unfold Sys.owes at howes
        rwa [hold k b hb hk] at howes

/-- **The end of a job is reported once.**  A job is started with no other in progress, and
no other is started, and nobody connects or disconnects, until the run and every `cancel` have
returned; no `cancel` that finds the job running fails to write its Ctrl-X, and none aborts a
streaming task that has to report the job.  Then the session is at rest again. -/
theorem session_reports_once {v : Sys} (h0 : AtRest s)
    (hcall : Sys.step (.call (.run job)) s = some u)
    (hr : Run Sys.step (fun a l _ => l.keepsJob = true ∧ reportsEnd a l = true) u v)
    (hrun : v.tasks[s.tasks.length]? = some (.run job .returned))
    (hcancels : ∀ (i : ℕ) (em : Bool) (pc : CancelPc), v.tasks[i]? = some (.cancel em pc) →
      ∃ err, pc = .returned err) :
    v.core.finishes = s.core.finishes + 1 ∧ (v.active = none → AtRest v) := by
  have h : Due s.tasks.length job s.core.finishes v :=
    hr.invariant (fun _ _ _ h hs hok => h.step hs hok.1 hok.2) (.of_call h0 hcall)
  have hstopped : v.core.jobRunning = false := h.phase _ hrun
  -- the run has returned, so no streaming task is left
  have hdead : ∀ t job' pc, v.tasks[t]? = some (.stream job' pc) → v.alive t = false := by
    intro t job' pc ht
    by_contra halive
    cases hrun.symm.trans (h.joins t job' pc ht (by simpa using halive))
  -- and nobody owes the report any more
  have hnone : ∀ i, v.owes i = false := by
    intro i
    unfold Sys.owes
    cases hb : v.tasks[i]? with
    | none => exact Bool.and_false _
    | some b =>
      cases b with
      | stream job' pc => rw [hdead i job' pc hb, Bool.false_and]
      | cancel em pc =>
        obtain ⟨err, rfl⟩ := hcancels i em pc hb
        exact Bool.and_false _
      | run job' pc =>
        have hset : (Body.run job' pc).settled = true := by
          by_cases hi : i = s.tasks.length
          · rw [hi, hrun] at hb
            cases hb
            rfl
          · exact h.others i _ hi hb
        cases pc <;> first | exact Bool.and_false _ | cases hset
      | _ => exact Bool.and_false _
  refine ⟨h.baton.spent hstopped hnone, fun hactive => ⟨⟨h.toSlotted, hactive, fun i b hb => ?_⟩,
    hstopped, ?_, hdead, hnone, h.fresh⟩⟩
  · by_cases hi : i = s.tasks.length
    · rw [hi, hrun] at hb
      cases hb
      rfl
    · exact h.others i b hi hb
  · unfold Core.streamDone
    cases hslot : v.core.streamTask with
    | none => rfl
    | some t =>
      rcases h.seat t hslot with hended | hjoin
      · exact hended
      · cases hrun.symm.trans hjoin

end Due

/-- A session that nobody has used is at rest. -/
theorem atRest_newSession : AtRest newSession where
  toSteady := steady_newSession
  jobRunning := rfl
  done := rfl
  dead := fun t job pc ht => by simp [newSession] at ht
  owes := fun i => by simp [newSession, Sys.owes]
  fresh := fun i _ => ⟨rfl, nofun⟩

end Raydriver
