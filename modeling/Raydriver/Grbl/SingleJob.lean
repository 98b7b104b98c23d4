import Raydriver.Grbl.Accounting
import Raydriver.Grbl.OneRun

/-!
# One job at a time

Between the call of `run` and the end of its job, as long as nobody calls `cancel`,
another `run`, or a reconnect, and nobody else writes a line, the session has a simple
shape: the task of the run starts the job and waits for it, and there is one streaming
task with a higher number.  A step is one of these two, or it comes from beside and
touches little.  What the session has done before the call does not matter.

## Main definitions

* `Body.beside`, `Label.calm n` — the steps of such a run, called as task `n`.
* `Starting n job pc s` — the job is being started, and the run is at `pc`.
* `Streaming n t job pc s` — the streaming task `t` of the job is at `pc`.
* `Aside c c'` — what the steps of the other tasks leave alone.

## Main results

* `Starting.step` — **the inversion of a step while the job is started**.
* `Streaming.step` — **the inversion of a step while the job runs**.
-/

namespace Raydriver

open Lts

/-- A session before its first job: no task, nothing written, nothing pending. -/
structure Ready (s : Sys) : Prop where
  tasks : s.tasks = []
  active : s.active = none
  streamTask : s.core.streamTask = none
  pending : s.core.flow.pending = []
  rxCount : s.core.flow.rxCount = 0
  sent : s.core.sent = []
  owners : s.core.owners = []
  dropped : s.core.dropped = []

/-! ### The steps of a run -/

/-- The run has not spawned its streaming task yet. -/
def RunPc.starts : RunPc → Bool
  | .begin | .abort | .abortWait _ | .spawn => true
  | _ => false

/-- A task that may go on beside the job: it writes no line, starts no other job, and
neither cancels nor reconnects. -/
def Body.beside : Body → Bool
  | .hold _ _ | .execute _ _ => true
  | .run _ pc => !pc.starts
  | .queue pc =>
    match pc with
    | .send _ => false
    | _ => true
  | .interactive _ pc =>
    match pc with
    | .send _ => false
    | _ => true
  | _ => false

/-- Task `i` is the run called as task `n`, or a streaming task spawned since. -/
def Body.ofJob (n i : ℕ) : Body → Bool
  | .run _ _ => i == n
  | .stream _ _ => decide (n < i)
  | _ => false

/-- A step of a run in which the job called as task `n` is the only one, nobody cancels or
reconnects, and nobody else writes a line. -/
def Label.calm (n : ℕ) (s : Sys) : Label → Bool
  | .task i _ => (s.tasks[i]?).all fun b => b.beside || b.ofJob n i
  | _ => true

/-- The counter of task `t`, if it is a streaming task. -/
def Sys.streamPc (t : ℕ) (s : Sys) : Option StreamPc :=
  match s.tasks[t]? with
  | some (.stream _ pc) => some pc
  | _ => none

/-! ### What the other tasks leave alone -/

/-- What the steps aside from the streaming task and from received bytes leave alone. -/
structure Aside (c c' : Core) : Prop where
  books : SameBooks c.flow c'.flow
  owners : c'.owners = c.owners
  dropped : c'.dropped = c.dropped
  jobException : c'.jobException = c.jobException
  jobRunning : c'.jobRunning = c.jobRunning
  config : c'.config = c.config
  lines : c'.sent.filter Sent.isLine = c.sent.filter Sent.isLine
  isCancelled : c.isCancelled = false → c'.isCancelled = false

/-- Realtime bytes are no line. -/
theorem lines_write_realtime (t : Text) (err : Option String) (c : Core) :
    (c.write .realtime t err).sent.filter Sent.isLine = c.sent.filter Sent.isLine := by
  show (c.sent ++ _).filter Sent.isLine = _
  rw [List.filter_append]
  cases err <;> simp [Sent.isLine]

namespace Aside

variable {n i : ℕ} {job : Job} {ch : Choice} {c c' : Core}

theorem refl (c : Core) : Aside c c := ⟨.refl _, rfl, rfl, rfl, rfl, rfl, rfl, id⟩

/-- Only fields that it does not look at have changed. -/
theorem of_eq (hflow : c'.flow = c.flow) (howners : c'.owners = c.owners)
    (hdropped : c'.dropped = c.dropped) (hexc : c'.jobException = c.jobException)
    (hrun : c'.jobRunning = c.jobRunning) (hconfig : c'.config = c.config)
    (hsent : c'.sent = c.sent) (hcan : c.isCancelled = false → c'.isCancelled = false) :
    Aside c c' :=
  ⟨hflow ▸ .refl _, howners, hdropped, hexc, hrun, hconfig, by rw [hsent], hcan⟩

theorem of_poll (err : Option String) (c : Core) : Aside c (Sys.pollStatus err c) := by
  unfold Sys.pollStatus
  split_ifs
  · exact ⟨.refl _, rfl, rfl, rfl, rfl, rfl, lines_write_realtime _ _ _, id⟩
  · exact .refl c

/-- `set_hold` writes a realtime command, and may clear the cancellation flag. -/
theorem of_hold {on : Bool} {pc pc' : HoldPc} (h : advanceHold on ch c pc = some (c', pc')) :
    Aside c c' := by
  cases pc with
  | start =>
    unfold advanceHold at h
    dsimp only at h
    split at h <;> cases h
    · exact ⟨.refl _, rfl, rfl, rfl, rfl, rfl, lines_write_realtime _ _ _,
        Core.isCancelled_clearCancelled⟩
    · exact .of_eq rfl rfl rfl rfl rfl rfl rfl Core.isCancelled_clearCancelled
  | writing err =>
    cases h
    exact .of_eq rfl rfl rfl rfl rfl rfl rfl id
  | returned => cases h

/-- A run that does not start a job writes realtime commands, or waits for its job. -/
theorem of_run {pc pc' : RunPc} {spawns : Bool} (hpc : pc.starts = false)
    (h : advanceRun n job ch c pc = some (c', pc', spawns)) : Aside c c' ∧ spawns = false := by
  cases pc with
  | rawNext realtime =>
    cases realtime with
    | nil =>
      cases h
      exact ⟨.refl _, rfl⟩
    | cons command realtime =>
      simp only [advanceRun] at h
      split_ifs at h <;> cases h
      · exact ⟨⟨.refl _, rfl, rfl, rfl, rfl, rfl, lines_write_realtime _ _ _, id⟩, rfl⟩
      · exact ⟨.refl _, rfl⟩
  | rawWriting realtime err =>
    cases h
    exact ⟨.refl _, rfl⟩
  | join t =>
    simp only [advanceRun] at h
    split_ifs at h <;> cases h <;> exact ⟨.of_eq rfl rfl rfl rfl rfl rfl rfl id, rfl⟩
  | returned => cases h
  | _ => cases hpc

theorem of_execute {command : Text} {pc pc' : ExecutePc}
    (h : advanceExecute command ch c pc = some (c', pc')) : Aside c c' := by
  cases pc with
  | submit =>
    simp only [advanceExecute] at h
    split_ifs at h <;> cases h <;>
      exact .of_eq rfl rfl rfl rfl rfl rfl rfl Core.isCancelled_clearCancelled
  | wait r =>
    simp only [advanceExecute] at h
    split_ifs at h <;> cases h
    · exact .refl c
    · exact .of_eq rfl rfl rfl rfl rfl rfl rfl id
  | returned r result => cases h

/-- The command queue, away from its write. -/
theorem of_queue {pc pc' : QueuePc} (hpc : ∀ r, pc ≠ .send r)
    (h : advanceQueue i ch c pc = some (c', pc')) : Aside c c' := by
  cases pc with
  | send r => exact absurd rfl (hpc r)
  | recv =>
    simp only [advanceQueue] at h
    split at h
    · cases h
    · split_ifs at h <;> cases h <;> exact .of_eq rfl rfl rfl rfl rfl rfl rfl id
  | _ =>
    simp only [advanceQueue] at h
    try split_ifs at h
    all_goals cases h
    all_goals exact .of_eq rfl rfl rfl rfl rfl rfl rfl id

/-- An interactive command, away from its write. -/
theorem of_interactive {command : Text} {pc pc' : InteractivePc} (hpc : ∀ r, pc ≠ .send r)
    (h : advanceInteractive i command ch c pc = some (c', pc')) : Aside c c' := by
  cases pc with
  | send r => exact absurd rfl (hpc r)
  | _ =>
    simp only [advanceInteractive] at h
    try split_ifs at h
    all_goals cases h
    all_goals exact .of_eq rfl rfl rfl rfl rfl rfl rfl id

end Aside

/-- **A task beside the job leaves the books alone**, and spawns nothing. -/
theorem Body.beside_step {n i : ℕ} {ch : Choice} {c c' : Core} {b b' : Body}
    {spawned : List Body} (hb : b.beside = true)
    (h : advance n i ch c b = some (c', b', spawned)) : Aside c c' ∧ spawned = [] := by
  cases b with
  | run job pc =>
    obtain ⟨⟨c₁, pc', sp⟩, hstep, heq⟩ := Option.map_eq_some_iff.mp h
    obtain ⟨haside, rfl⟩ := Aside.of_run (by simpa [Body.beside] using hb) hstep
    cases heq
    exact ⟨haside, rfl⟩
  | execute command pc =>
    obtain ⟨⟨c₁, pc'⟩, hstep, heq⟩ := Option.map_eq_some_iff.mp h
    cases heq
    exact ⟨.of_execute hstep, rfl⟩
  | queue pc =>
    obtain ⟨⟨c₁, pc'⟩, hstep, heq⟩ := Option.map_eq_some_iff.mp h
    cases heq
    refine ⟨.of_queue (fun r hr => ?_) hstep, rfl⟩
    rw [hr] at hb
    cases hb
  | interactive command pc =>
    obtain ⟨⟨c₁, pc'⟩, hstep, heq⟩ := Option.map_eq_some_iff.mp h
    cases heq
    refine ⟨.of_interactive (fun r hr => ?_) hstep, rfl⟩
    rw [hr] at hb
    cases hb
  | hold on pc =>
    obtain ⟨⟨c₁, pc'⟩, hstep, heq⟩ := Option.map_eq_some_iff.mp h
    cases heq
    exact ⟨.of_hold hstep, rfl⟩
  | _ => cases hb

/-- What a step beside the job does: it leaves the books alone, or delivers bytes. -/
inductive Besides (l : Label) (c c' : Core) : Prop
  | aside (h : Aside c c')
  | rx (data : Bytes) (hl : l = .rx data) (h : c' = c.handleRx data)

/-- What is no step of a task leaves the books alone, or delivers bytes. -/
theorem Besides.of_other {s u : Sys} {l : Label} (hs : Sys.step l s = some u)
    (hl : ∀ i ch, l ≠ .task i ch) : Besides l s.core u.core := by
  cases l with
  | task i ch => exact absurd rfl (hl i ch)
  | call op =>
    simp only [Sys.step] at hs
    split_ifs at hs
    cases hs
    exact .aside (.refl _)
  | drop i =>
    simp only [Sys.step, Sys.dropTask] at hs
    split at hs
    case isFalse => cases hs
    cases hs
    exact .aside (.of_eq rfl rfl rfl rfl rfl rfl rfl id)
  | rx data =>
    simp only [Sys.step, Sys.outside] at hs
    split_ifs at hs
    cases hs
    exact .rx data rfl rfl
  | poll err =>
    simp only [Sys.step, Sys.outside] at hs
    split_ifs at hs
    cases hs
    exact .aside (.of_poll err _)
  | setRxBufferSize n =>
    simp only [Sys.step, Sys.outside] at hs
    split_ifs at hs
    cases hs
    exact .aside ⟨.setRxBufferSize n _, rfl, rfl, rfl, rfl, rfl, rfl, id⟩
  | link up =>
    simp only [Sys.step, Sys.outside] at hs
    split_ifs at hs
    cases hs
    exact .aside (.of_eq rfl rfl rfl rfl rfl rfl rfl id)

/-! ### The shape of the session -/

/-- The job is being started by task `n`, which is at `pc`. -/
structure Starting (n : ℕ) (job : Job) (pc : RunPc) (s : Sys) : Prop where
  run : s.tasks[n]? = some (.run job pc)
  starts : pc.starts = true
  unspawned : ∀ t job' pc', n < t → s.tasks[t]? ≠ some (.stream job' pc')
  active : pc.suspended = false → s.active = some n

/-- The run that is task `n` waits for its job, or has returned; its streaming task `t`, the
only one since, is at `pc`. -/
structure Streaming (n t : ℕ) (job : Job) (pc : StreamPc) (s : Sys) : Prop where
  later : n < t
  run : ∃ rpc, s.tasks[n]? = some (.run job rpc) ∧ ((∃ t', rpc = .join t') ∨ rpc = .returned)
  stream : s.tasks[t]? = some (.stream job pc)
  only : ∀ t' job' pc', n < t' → s.tasks[t']? = some (.stream job' pc') → t' = t
  active : pc.suspended = false → s.active = some t

theorem Streaming.streamPc {n t : ℕ} {job : Job} {pc : StreamPc} {s : Sys}
    (h : Streaming n t job pc s) : s.streamPc t = some pc := by
  unfold Sys.streamPc
  rw [h.stream]

/-- The call of `run`. -/
theorem Starting.of_call {job : Job} {s u : Sys}
    (hcall : Sys.step (.call (.run job)) s = some u) :
    Starting s.tasks.length job .begin u ∧ u.core = s.core := by
  simp only [Sys.step] at hcall
  split_ifs at hcall
  cases hcall
  refine ⟨⟨?_, rfl, fun t job' pc' ht hb => ?_, fun _ => rfl⟩, rfl⟩
  · rw [List.getElem?_append_right (Nat.le_refl _), Nat.sub_self]
    rfl
  · have hlen := (List.getElem?_eq_some_iff.mp hb).1
    rw [List.length_append, List.length_singleton] at hlen
    omega

section Step

variable {n t : ℕ} {job : Job} {s u : Sys} {l : Label}

/-- On a calm step only the run spawns a streaming task. -/
theorem stream_of_calm {job' : Job} {pc' : StreamPc} (hs : Sys.step l s = some u)
    (hl : l.calm n s = true) (hn : ∀ job₀, s.tasks[n]? ≠ some (.run job₀ .spawn))
    (hu : u.tasks[t]? = some (.stream job' pc')) :
    ∃ pc₀, s.tasks[t]? = some (.stream job' pc₀) := by
  rcases Sys.step_stream hs hu with ⟨pc₀, ht, -⟩ | ⟨-, -, i, ch, rfl, hi⟩
  · exact ⟨pc₀, ht⟩
  · obtain rfl : i = n := by
      simpa [Label.calm, hi, Body.beside, Body.ofJob, RunPc.starts] using hl
    exact absurd hi (hn job')

/-- The run goes on to another counter of the start. -/
theorem Starting.move {pc pc' : RunPc} {c' : Core} (h : Starting n job pc s)
    (hstarts : pc'.starts = true) (act : Option ℕ) (hact : pc'.suspended = false → act = some n) :
    Starting n job pc' ⟨c', s.tasks.set n (.run job pc') ++ [], act⟩ where
  run := by
    rw [List.append_nil, List.getElem?_set_self (List.getElem?_eq_some_iff.mp h.run).1]
  starts := hstarts
  unspawned := fun t job' pc₀ ht hb => by
    rw [List.append_nil, List.getElem?_set_ne (Nat.ne_of_lt ht)] at hb
    exact h.unspawned t job' pc₀ ht hb
  active := hact

/-- The run spawns its streaming task. -/
theorem Starting.spawned {c' : Core} (h : Starting n job .spawn s) (act : Option ℕ) :
    Streaming n s.tasks.length job .start
      ⟨c', s.tasks.set n (.run job (.join s.tasks.length)) ++ [.stream job .start], act⟩ := by
  have hlen : n < s.tasks.length := (List.getElem?_eq_some_iff.mp h.run).1
  refine ⟨hlen, ⟨.join s.tasks.length, ?_, .inl ⟨_, rfl⟩⟩, ?_, fun t' job' pc' ht hb => ?_, fun hp => by cases hp⟩
  · rw [List.getElem?_append_left (by rw [List.length_set]; exact hlen),
      List.getElem?_set_self hlen]
  · rw [List.getElem?_append_right (by rw [List.length_set]), List.length_set, Nat.sub_self]
    rfl
  · by_contra hne
    have hlt : t' < s.tasks.length := by
      have hin := (List.getElem?_eq_some_iff.mp hb).1
      rw [List.length_append, List.length_set, List.length_singleton] at hin
      omega
    rw [List.getElem?_append_left (by rw [List.length_set]; exact hlt),
      List.getElem?_set_ne (Nat.ne_of_lt ht)] at hb
    exact h.unspawned t' job' pc' ht hb

/-- The run itself goes on while it starts its job. -/
theorem Starting.own {pc : RunPc} {ch : Choice} (h : Starting n job pc s)
    (hs : Sys.step (.task n ch) s = some u) :
    (pc = .begin ∧ u.core = s.core.startJob ∧ Starting n job .abort u) ∨
      (pc ≠ .begin ∧ Aside s.core u.core ∧
        ((∃ pc', pc' ≠ .begin ∧ Starting n job pc' u) ∨ ∃ t, Streaming n t job .start u)) := by
  obtain ⟨b, c', b', spawned, hb, -, -, hadv, rfl⟩ := Sys.step_task hs
  obtain rfl : b = .run job pc := Option.some.inj (hb.symm.trans h.run)
  obtain ⟨⟨c₁, pc', sp⟩, hstep, heq⟩ := Option.map_eq_some_iff.mp hadv
  cases heq
  have hact : ∀ p : RunPc, p.suspended = false →
      (if (Body.run job p).suspended then none else some n) = some n := by
    intro p hp
    have hp' : (Body.run job p).suspended = false := hp
    rw [hp', if_neg Bool.false_ne_true]
  cases pc with
  | begin =>
    cases hstep
    exact .inl ⟨rfl, rfl, h.move rfl _ (hact _)⟩
  | abort =>
    simp only [advanceRun] at hstep
    split at hstep
    · cases hstep
      exact .inr ⟨by simp, .refl _, .inl ⟨_, by simp, h.move rfl _ (hact _)⟩⟩
    · -- the slot is emptied, and its task aborted unless it has ended
      split_ifs at hstep <;> cases hstep <;>
        exact .inr ⟨by simp, .of_eq rfl rfl rfl rfl rfl rfl rfl id,
          .inl ⟨_, by simp, h.move rfl _ (hact _)⟩⟩
  | abortWait t =>
    simp only [advanceRun] at hstep
    split_ifs at hstep
    cases hstep
    exact .inr ⟨by simp, .refl _, .inl ⟨_, by simp, h.move rfl _ (hact _)⟩⟩
  | spawn =>
    cases hstep
    exact .inr ⟨by simp, .of_eq rfl rfl rfl rfl rfl rfl rfl id, .inr ⟨_, h.spawned _⟩⟩
  | _ => cases h.starts

/-- A calm step that is not the job's own. -/
theorem besides_of_calm (hs : Sys.step l s = some u) (hl : l.calm n s = true)
    (hjob : ∀ i ch b, l = .task i ch → s.tasks[i]? = some b → b.ofJob n i = true →
      b.beside = true) : Besides l s.core u.core := by
  by_cases ht : ∃ i ch, l = .task i ch
  · obtain ⟨i, ch, rfl⟩ := ht
    obtain ⟨b, c', b', spawned, hb, -, -, hadv, rfl⟩ := Sys.step_task hs
    have hkind : b.beside = true ∨ b.ofJob n i = true := by simpa [Label.calm, hb] using hl
    exact .aside (b.beside_step (hkind.elim id (hjob i ch b rfl hb)) hadv).1
  · exact .of_other hs fun i ch hi => ht ⟨i, ch, hi⟩

/-- **The inversion of a step while the job is started**: the run goes on, or it waits for an
aborted streaming task to end and something happens beside it. -/
theorem Starting.step {pc : RunPc} (h : Starting n job pc s) (hs : Sys.step l s = some u)
    (hl : l.calm n s = true) :
    (pc = .begin ∧ (∃ ch, l = .task n ch) ∧ u.core = s.core.startJob ∧ Starting n job .abort u) ∨
      (pc ≠ .begin ∧ Besides l s.core u.core ∧
        ((∃ pc', pc' ≠ .begin ∧ Starting n job pc' u) ∨ ∃ t, Streaming n t job .start u)) := by
  by_cases hn : ∃ ch, l = .task n ch
  · obtain ⟨ch, rfl⟩ := hn
    exact (h.own hs).imp (fun ⟨hpc, hcore, hnext⟩ => ⟨hpc, ⟨ch, rfl⟩, hcore, hnext⟩)
      fun ⟨hpc, haside, hnext⟩ => ⟨hpc, .aside haside, hnext⟩
  · have hne : ∀ ch, l ≠ .task n ch := fun ch hch => hn ⟨ch, hch⟩
    have hsusp : pc.suspended = true := Sys.step_waits (b := .run job pc) hs hne h.active
    have hbegin : pc ≠ .begin := by
      rintro rfl
      cases hsusp
    have hspawn : ∀ job₀, s.tasks[n]? ≠ some (.run job₀ .spawn) := by
      intro job₀ hj
      cases hj.symm.trans h.run
      cases hsusp
    refine .inr ⟨hbegin, besides_of_calm hs hl fun i ch b hi hb hof => ?_,
      .inl ⟨pc, hbegin, Sys.step_tasks hs h.run hne, h.starts, fun t' job' pc' ht hu => ?_,
        fun hp => by rw [hsusp] at hp; cases hp⟩⟩
    · -- no task is the job's but the run
      cases b with
      | run job' pc' =>
        obtain rfl : i = n := by simpa [Body.ofJob] using hof
        exact absurd hi (hne ch)
      | stream job' pc' => exact absurd hb (h.unspawned i job' pc' (by simpa [Body.ofJob] using hof))
      | _ => cases hof
    · obtain ⟨pc₀, hpc₀⟩ := stream_of_calm hs hl hspawn hu
      exact h.unspawned t' job' pc₀ ht hpc₀

variable {pc : StreamPc}

theorem Streaming.not_spawn (h : Streaming n t job pc s) (job₀ : Job) :
    s.tasks[n]? ≠ some (.run job₀ .spawn) := by
  obtain ⟨rpc, hrun, hrpc⟩ := h.run
  intro hj
  cases hj.symm.trans hrun
  rcases hrpc with ⟨t', hrpc⟩ | hrpc <;> cases hrpc

/-- The run waits for its job, or has returned. -/
theorem Streaming.run_step (h : Streaming n t job pc s) (hs : Sys.step l s = some u) :
    ∃ rpc, u.tasks[n]? = some (.run job rpc) ∧ ((∃ t', rpc = .join t') ∨ rpc = .returned) := by
  obtain ⟨rpc, hrun, hrpc⟩ := h.run
  by_cases hn : ∃ ch, l = .task n ch
  · obtain ⟨ch, rfl⟩ := hn
    obtain ⟨b, c', b', spawned, hb, -, -, hadv, rfl⟩ := Sys.step_task hs
    obtain rfl : b = .run job rpc := Option.some.inj (hb.symm.trans hrun)
    obtain ⟨⟨c₁, pc', sp⟩, hstep, heq⟩ := Option.map_eq_some_iff.mp hadv
    cases heq
    rcases hrpc with ⟨t', rfl⟩ | rfl
    · have hlen : n < s.tasks.length := (List.getElem?_eq_some_iff.mp hb).1
      simp only [advanceRun] at hstep
      split_ifs at hstep <;> cases hstep <;>
      · refine ⟨.returned, ?_, .inr rfl⟩
        rw [List.getElem?_append_left (by rw [List.length_set]; exact hlen),
          List.getElem?_set_self hlen]
    · cases hstep
  · exact ⟨rpc, Sys.step_tasks hs hrun fun ch hch => hn ⟨ch, hch⟩, hrpc⟩

/-- The streaming task itself goes on. -/
theorem Streaming.own {ch : Choice} (h : Streaming n t job pc s)
    (hs : Sys.step (.task t ch) s = some u) (hl : (Label.task t ch).calm n s = true) :
    ∃ pc', advanceStream t job ch s.core pc = some (u.core, pc') ∧ Streaming n t job pc' u := by
  have hrun := h.run_step hs
  have honly : ∀ t' job' pc', n < t' → u.tasks[t']? = some (.stream job' pc') → t' = t := by
    intro t' job' pc' ht' hu
    obtain ⟨pc₀, hpc₀⟩ := stream_of_calm hs hl h.not_spawn hu
    exact h.only t' job' pc₀ ht' hpc₀
  obtain ⟨b, c', b', spawned, hb, -, -, hadv, rfl⟩ := Sys.step_task hs
  obtain rfl : b = .stream job pc := Option.some.inj (hb.symm.trans h.stream)
  obtain ⟨⟨c₁, pc'⟩, hstep, heq⟩ := Option.map_eq_some_iff.mp hadv
  cases heq
  refine ⟨pc', hstep, h.later, hrun, ?_, honly, fun hp => ?_⟩
  · rw [List.append_nil, List.getElem?_set_self (List.getElem?_eq_some_iff.mp hb).1]
  · have hp' : (Body.stream job pc').suspended = false := hp
    show (if (Body.stream job pc').suspended then none else some t) = some t
    rw [hp', if_neg Bool.false_ne_true]

/-- **The inversion of a step while the job runs**: the streaming task goes on, or it is at an
await point and something happens beside it. -/
theorem Streaming.step (h : Streaming n t job pc s) (hs : Sys.step l s = some u)
    (hl : l.calm n s = true) :
    (∃ ch pc', l = .task t ch ∧ advanceStream t job ch s.core pc = some (u.core, pc') ∧
      Streaming n t job pc' u) ∨
    (Streaming n t job pc u ∧ pc.suspended = true ∧ Besides l s.core u.core) := by
  by_cases ht : ∃ ch, l = .task t ch
  · obtain ⟨ch, rfl⟩ := ht
    obtain ⟨pc', hstep, hshape⟩ := h.own hs hl
    exact .inl ⟨ch, pc', rfl, hstep, hshape⟩
  · have hne : ∀ ch, l ≠ .task t ch := fun ch hch => ht ⟨ch, hch⟩
    have hsusp : pc.suspended = true := Sys.step_waits (b := .stream job pc) hs hne h.active
    refine .inr ⟨⟨h.later, h.run_step hs, Sys.step_tasks hs h.stream hne,
      fun t' job' pc' ht' hu => ?_, fun hp => by rw [hsusp] at hp; cases hp⟩, hsusp,
      besides_of_calm hs hl fun i ch b hi hb hof => ?_⟩
    · obtain ⟨pc₀, hpc₀⟩ := stream_of_calm hs hl h.not_spawn hu
      exact h.only t' job' pc₀ ht' hpc₀
    · cases b with
      | run job' pc' =>
        -- the run waits: it is beside its job
        obtain rfl : i = n := by simpa [Body.ofJob] using hof
        obtain ⟨rpc, hrun, hrpc⟩ := h.run
        cases hb.symm.trans hrun
        rcases hrpc with ⟨t', rfl⟩ | rfl <;> rfl
      | stream job' pc' =>
        obtain rfl := h.only i job' pc' (by simpa [Body.ofJob] using hof) hb
        exact absurd hi (hne ch)
      | _ => cases hof

end Step

end Raydriver
