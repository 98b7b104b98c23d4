import Raydriver.Grbl.Frames

/-!
# What a session shows of its device

The hold flag, the error, the report unit and the progress of a job are read by many
functions and written by few.  They are the *panel* of the session.  What each step of a
task does to it is said here once.

## Main definitions

* `Panel`, `Core.panel` — the four readings.
* `Body.touch` — what the next step of a task does to them.

## Main results

* `advance_panel` — **the panel under the steps of tasks**.
-/

namespace Raydriver

/-- The hold flag, the error, the report unit and the progress. -/
@[ext] structure Panel where
  isHolding : Bool
  error : Option DeviceError
  reportInInches : Bool
  lastReportedOpIndex : ℤ
  /-- The op indices reported as done. -/
  done : List ℤ
  deriving DecidableEq, Repr

/-- The op index of a progress report. -/
def SessionEvent.opIndex : SessionEvent → Option ℤ
  | .commandDone opIndex => some opIndex
  | .jobFinished => none

/-- The panel of a session. -/
def Core.panel (c : Core) : Panel where
  isHolding := c.isHolding
  error := c.state.error
  reportInInches := c.reportInInches
  lastReportedOpIndex := c.lastReportedOpIndex
  done := c.events.filterMap SessionEvent.opIndex

/-- **What the next step of a task does to the panel**: a `set_hold` sets the flag, the
start and the end of a job clear it, a job starts with no error and no progress, and a
job that fails leaves an error if there is none. -/
def Body.touch (c : Core) (b : Body) (p : Panel) : Panel :=
  match b with
  | .hold on .start => { p with isHolding := on }
  | .run _ .begin => { p with isHolding := false, error := none, lastReportedOpIndex := -1 }
  | .stream _ (.final _) => { p with isHolding := false }
  | .stream _ (.outcome (some e)) =>
    if c.isCancelled then p else { p with error := some (p.error.getD (jobError e)) }
  | _ => p

section Steps

variable {n i : ℕ} {job : Job} {inStream em connect spawns : Bool} {command : Text} {ch : Choice}
  {c c' : Core} {b b' : Body} {spawned : List Body}

/-- A `cancel` touches nothing of the panel. -/
theorem advanceCancel_panel {pc pc' : CancelPc}
    (h : advanceCancel i inStream em ch c pc = some (c', pc')) : c'.panel = c.panel := by
  cases pc with
  | start =>
    simp only [advanceCancel] at h
    split_ifs at h <;> cases h <;> rfl
  | ctrlX was err => cases err <;> cases h <;> rfl
  | abort was =>
    simp only [advanceCancel] at h
    split_ifs at h
    · cases h
      rfl
    · split at h
      · cases h
        rfl
      · split_ifs at h <;> cases h <;> rfl
  | next was commands =>
    cases commands <;> simp only [advanceCancel] at h <;> (try split_ifs at h) <;> cases h <;> rfl
  | finish was =>
    -- the end of the job is no progress
    cases h
    cases was <;> simp [Core.panel, SessionEvent.opIndex]
  | _ =>
    simp only [advanceCancel] at h
    try split_ifs at h
    all_goals cases h
    all_goals rfl

theorem advanceStream_panel {pc pc' : StreamPc}
    (h : advanceStream i job ch c pc = some (c', pc')) :
    c'.panel = (Body.stream job pc).touch c c.panel := by
  cases pc with
  | loopTop idx rest =>
    cases rest <;> simp only [advanceStream] at h <;> (try split_ifs at h) <;> cases h <;> rfl
  | writing s err => cases err <;> cases h <;> rfl
  | poll w => cases w <;> cases h <;> rfl
  | pollWriting w before err => cases err <;> cases h <;> rfl
  | pollAwait w before left => cases left <;> cases h <;> rfl
  | pollEnd w idle =>
    cases w <;> simp only [advanceStream] at h <;> split_ifs at h <;> cases h <;> rfl
  | recover w =>
    cases w <;> simp only [advanceStream] at h <;> split_ifs at h <;> cases h <;> rfl
  | recoverEnd w => cases w <;> cases h <;> rfl
  | outcome err =>
    cases err with
    | none => cases h; rfl
    | some e =>
      simp only [advanceStream] at h
      split_ifs at h with hc <;> cases h
      · simp only [Body.touch, hc, if_true]
      · simp only [Body.touch, hc, if_false, Bool.false_eq_true]
        rfl
  | cancelling pc e =>
    simp only [advanceStream] at h
    split at h
    · cases h
      rfl
    · obtain ⟨⟨c₁, pc₁⟩, h1, h2⟩ := Option.map_eq_some_iff.mp h
      cases h2
      exact advanceCancel_panel h1
  | final err =>
    cases h
    simp only [Core.panel, Body.touch]
    split_ifs <;> simp [SessionEvent.opIndex]
  | _ =>
    simp only [advanceStream] at h
    try split_ifs at h
    all_goals cases h
    all_goals rfl

theorem advanceRun_panel {pc pc' : RunPc} (h : advanceRun n job ch c pc = some (c', pc', spawns)) :
    c'.panel = (Body.run job pc).touch c c.panel := by
  cases pc with
  | rawNext realtime =>
    cases realtime <;> simp only [advanceRun] at h <;> (try split_ifs at h) <;> cases h <;> rfl
  | abort =>
    simp only [advanceRun] at h
    split at h
    · cases h
      rfl
    · split_ifs at h <;> cases h <;> rfl
  | _ =>
    simp only [advanceRun] at h
    try split_ifs at h
    all_goals cases h
    all_goals rfl

theorem advanceLink_panel {pc pc' : LinkPc}
    (h : advanceLink n connect c pc = some (c', pc', spawns)) :
    c'.panel = c.panel := by
  cases pc with
  | abort =>
    simp only [advanceLink] at h
    split at h
    · cases h
      rfl
    · split_ifs at h <;> cases h <;> rfl
  | stop =>
    simp only [advanceLink] at h
    split at h <;> cases h <;> rfl
  | _ =>
    simp only [advanceLink] at h
    try split_ifs at h
    all_goals cases h
    all_goals rfl

/-- **The panel under the steps of tasks.** -/
theorem advance_panel (h : advance n i ch c b = some (c', b', spawned)) :
    c'.panel = b.touch c c.panel := by
  cases b with
  | stream job pc =>
    obtain ⟨⟨c1, pc1⟩, h1, h2⟩ := Option.map_eq_some_iff.mp h
    cases h2
    exact advanceStream_panel h1
  | cancel em pc =>
    obtain ⟨⟨c1, pc1⟩, h1, h2⟩ := Option.map_eq_some_iff.mp h
    cases h2
    exact advanceCancel_panel h1
  | run job pc =>
    obtain ⟨⟨c1, pc1, sp⟩, h1, h2⟩ := Option.map_eq_some_iff.mp h
    cases h2
    exact advanceRun_panel h1
  | execute command pc =>
    obtain ⟨⟨c1, pc1⟩, h1, h2⟩ := Option.map_eq_some_iff.mp h
    cases h2
    cases pc <;> simp only [advanceExecute] at h1 <;> (try split_ifs at h1) <;> cases h1 <;> rfl
  | queue pc =>
    obtain ⟨⟨c1, pc1⟩, h1, h2⟩ := Option.map_eq_some_iff.mp h
    cases h2
    cases pc with
    | top =>
      simp only [advanceQueue] at h1
      split_ifs at h1 <;> cases h1 <;> rfl
    | recv =>
      simp only [advanceQueue] at h1
      split at h1
      · cases h1
      · split_ifs at h1 <;> cases h1 <;> rfl
    | _ =>
      simp only [advanceQueue] at h1
      try split_ifs at h1
      all_goals cases h1
      all_goals rfl
  | interactive command pc =>
    obtain ⟨⟨c1, pc1⟩, h1, h2⟩ := Option.map_eq_some_iff.mp h
    cases h2
    cases pc <;> simp only [advanceInteractive] at h1 <;> (try split_ifs at h1) <;> cases h1 <;> rfl
  | hold on pc =>
    obtain ⟨⟨c1, pc1⟩, h1, h2⟩ := Option.map_eq_some_iff.mp h
    cases h2
    cases pc with
    | start =>
      unfold advanceHold at h1
      dsimp only at h1
      split at h1 <;> cases h1 <;> rfl
    | writing err => cases h1; rfl
    | returned => cases h1
  | link connect pc =>
    obtain ⟨⟨c1, pc1, sp⟩, h1, h2⟩ := Option.map_eq_some_iff.mp h
    cases h2
    exact advanceLink_panel h1

end Steps

namespace Sys

variable {s u : Sys} {l : Label}

/-- Received bytes go to `handle_rx`. -/
theorem step_rx {data : Bytes} (h : Sys.step (.rx data) s = some u) :
    s.active = none ∧ u = { s with core := s.core.handleRx data } := by
  simp only [Sys.step, Sys.outside] at h
  split_ifs at h with hactive
  exact ⟨hactive, (Option.some.inj h).symm⟩

/-- What is neither a step of a task nor a received chunk leaves the panel alone. -/
theorem step_panel (h : Sys.step l s = some u) (hl : ∀ i ch, l ≠ .task i ch)
    (hrx : ∀ data, l ≠ .rx data) : u.core.panel = s.core.panel := by
  cases l with
  | task i ch => exact absurd rfl (hl i ch)
  | rx data => exact absurd rfl (hrx data)
  | call op =>
    simp only [Sys.step] at h
    split_ifs at h
    cases h
    rfl
  | drop i =>
    simp only [Sys.step, Sys.dropTask] at h
    split at h
    · cases h
      rfl
    · cases h
  | poll err =>
    simp only [Sys.step, Sys.outside] at h
    split_ifs at h
    cases h
    unfold pollStatus
    split_ifs <;> rfl
  | _ =>
    simp only [Sys.step, Sys.outside] at h
    split_ifs at h
    cases h
    rfl

end Sys

end Raydriver
