import Raydriver.Grbl.AlarmKept
import Raydriver.Grbl.Finish
import Raydriver.Grbl.Panel

/-!
# The status shown while a job runs

The flag of a running job, the hold flag and the status shown are written by tasks that know
nothing of each other.  The start of a job writes the flag and the status between two await
points, and everyone else who writes the status looks at the flag at the same time.

## Main definitions

* `Core.NotIdle` — a running job is not shown as idle.

## Main results

* `advance_jobRunning` — only the start of a job sets its flag.
* `Core.NotIdle.step` — **every step of a session keeps a running job from being shown as idle**.
* `handleLine_held` — **behind a status report a held session shows a hold or an alarm**.
-/

namespace Raydriver

open Lts

/-- A running job is not shown as idle. -/
def Core.NotIdle (c : Core) : Prop := c.jobRunning = true → c.state.status ≠ .idle

section Steps

variable {n i : ℕ} {ch : Choice} {c c' : Core} {b b' : Body} {spawned : List Body}
  {s u : Sys} {l : Label}

/-- Only the start of a job sets its flag. -/
theorem advance_jobRunning (h : advance n i ch c b = some (c', b', spawned))
    (hb : ∀ job, b ≠ .run job .begin) (hrun : c'.jobRunning = true) : c.jobRunning = true := by
  cases b with
  -- the streaming task pays the debt of its job, and closing it clears the flag
  | stream job pc =>
    obtain ⟨⟨c1, pc1⟩, h1, h2⟩ := Option.map_eq_some_iff.mp h
    cases h2
    cases (advanceStream_debt (n := n) h1).1 with
    | same hsame => exact hsame.symm.trans hrun
    | starts job' hbegin => cases hbegin
    | takes _ hno => cases hno.symm.trans hrun
    | pays hsame => exact hsame.symm.trans hrun
    | closes _ _ _ hno => cases hno.symm.trans hrun
  | cancel em pc =>
    obtain ⟨⟨c1, pc1⟩, h1, h2⟩ := Option.map_eq_some_iff.mp h
    cases h2
    rcases advanceCancel_flags h1 with ⟨hno, -⟩ | ⟨-, hsame⟩
    · cases hno.symm.trans hrun
    · exact hsame.symm.trans hrun
  -- a run sets the flag in `begin` and nowhere else
  | run job pc =>
    obtain ⟨⟨c1, pc1, sp⟩, h1, h2⟩ := Option.map_eq_some_iff.mp h
    cases h2
    cases pc with
    | begin => exact absurd rfl (hb job)
    | rawNext realtime =>
      cases realtime <;> simp only [advanceRun] at h1 <;> (try split_ifs at h1) <;> cases h1 <;>
        exact hrun
    | abort =>
      simp only [advanceRun] at h1
      split at h1
      · cases h1
        exact hrun
      · split_ifs at h1 <;> cases h1 <;> exact hrun
    | _ =>
      simp only [advanceRun] at h1
      try split_ifs at h1
      all_goals cases h1
      all_goals exact hrun
  | execute command pc =>
    obtain ⟨⟨c1, pc1⟩, h1, h2⟩ := Option.map_eq_some_iff.mp h
    cases h2
    cases pc <;> simp only [advanceExecute] at h1 <;> (try split_ifs at h1) <;> cases h1 <;>
      exact hrun
  | queue pc =>
    obtain ⟨⟨c1, pc1⟩, h1, h2⟩ := Option.map_eq_some_iff.mp h
    cases h2
    cases pc with
    | top =>
      simp only [advanceQueue] at h1
      split_ifs at h1 <;> cases h1 <;> exact hrun
    | recv =>
      simp only [advanceQueue] at h1
      split at h1
      · cases h1
      · split_ifs at h1 <;> cases h1 <;> exact hrun
    | _ =>
      simp only [advanceQueue] at h1
      try split_ifs at h1
      all_goals cases h1
      all_goals exact hrun
  | interactive command pc =>
    obtain ⟨⟨c1, pc1⟩, h1, h2⟩ := Option.map_eq_some_iff.mp h
    cases h2
    cases pc <;> simp only [advanceInteractive] at h1 <;> (try split_ifs at h1) <;> cases h1 <;>
      exact hrun
  | hold on pc =>
    obtain ⟨⟨c1, pc1⟩, h1, h2⟩ := Option.map_eq_some_iff.mp h
    cases h2
    cases pc with
    | start =>
      unfold advanceHold at h1
      dsimp only at h1
      split at h1 <;> cases h1 <;> exact hrun
    | writing err =>
      cases h1
      exact hrun
    | returned => cases h1
  -- a new connection resets the flag, at its start and when it closes
  | link connect pc =>
    obtain ⟨⟨c1, pc1, sp⟩, h1, h2⟩ := Option.map_eq_some_iff.mp h
    cases h2
    cases pc with
    | start =>
      cases h1
      cases hrun
    | abort =>
      simp only [advanceLink] at h1
      split at h1
      · cases h1
        exact hrun
      · split_ifs at h1 <;> cases h1 <;> exact hrun
    | stop =>
      simp only [advanceLink] at h1
      split at h1 <;> cases h1 <;> exact hrun
    | closing =>
      simp only [advanceLink] at h1
      split_ifs at h1 <;> cases h1
      · cases hrun
      · exact hrun
    | _ =>
      simp only [advanceLink] at h1
      try split_ifs at h1
      all_goals cases h1
      all_goals exact hrun

/-! ### Received lines -/

/-- A status report is stored as what the flags make of it. -/
theorem handleLine_report {line : Text} (hline : isReport line = true) (c : Core) :
    ∃ status, (c.handleLine line).state.status = c.shownStatus status := by
  simp only [isReport, Bool.and_assoc, Bool.and_eq_true, Bool.not_eq_true'] at hline
  obtain ⟨hfrag, hreport⟩ := hline
  refine ⟨(parseState (trim line) c.state c.reportInInches).status, ?_⟩
  unfold Core.handleLine
  rw [if_neg (by rw [hfrag]; exact Bool.false_ne_true),
    if_pos (by rw [Bool.and_eq_true]; exact hreport)]
  rfl

theorem shownStatus_ne_idle {c : Core} (hrun : c.jobRunning = true) (status : DeviceStatus) :
    c.shownStatus status ≠ .idle := by
  unfold Core.shownStatus
  cases status <;> cases c.isHolding <;> simp [hrun]

theorem shownStatus_held {c : Core} (hhold : c.isHolding = true) (status : DeviceStatus) :
    c.shownStatus status = .hold ∨ c.shownStatus status = .alarm := by
  unfold Core.shownStatus
  cases status <;> cases c.jobRunning <;> simp [hhold]

/-- **Behind a status report a held session shows a hold or an alarm.** -/
theorem handleLine_held {line : Text} (hline : isReport line = true) {c : Core}
    (hhold : c.isHolding = true) :
    (c.handleLine line).state.status = .hold ∨ (c.handleLine line).state.status = .alarm := by
  obtain ⟨status, hstatus⟩ := handleLine_report hline c
  rw [hstatus]
  exact shownStatus_held hhold status

theorem Core.NotIdle.response (h : c.NotIdle) (r : GrblResponse) :
    (c.handleResponse r).NotIdle := by
  intro hrun
  rw [(handleResponse_frame c r).jobRunning] at hrun
  by_cases hr : r.rtype = .line → isReport r.text = false
  · rw [handleResponse_status hr]
    exact h hrun
  · rw [Classical.not_imp, Bool.not_eq_false] at hr
    obtain ⟨status, hstatus⟩ := handleLine_report hr.2 c
    rw [Core.handleResponse, hr.1, hstatus]
    exact shownStatus_ne_idle hrun status

theorem Core.NotIdle.rx (h : c.NotIdle) (data : Bytes) : (c.handleRx data).NotIdle :=
  handleRx_keeps (P := Core.NotIdle) (fun _ _ => h) (fun _ h => h) fun r _ _ h => h.response r

/-! ### The session -/

/-- The start of a job shows it as running, or an alarm. -/
theorem notIdle_startJob (c : Core) : c.startJob.NotIdle := by
  intro _
  show (if c.state.status = .run ∨ c.state.status = .alarm then c.state.status else .run) ≠ _
  split_ifs with h
  · rcases h with h | h <;> rw [h] <;> decide
  · decide

theorem Core.NotIdle.advance (h : c.NotIdle) (hadv : advance n i ch c b = some (c', b', spawned)) :
    c'.NotIdle := by
  by_cases hb : ∃ job, b = .run job .begin
  · obtain ⟨job, rfl⟩ := hb
    cases hadv
    exact notIdle_startJob c
  intro hrun
  have hbefore := advance_jobRunning hadv (fun job hjob => hb ⟨job, hjob⟩) hrun
  rcases advance_status hadv with hsame | ⟨job, hbegin, -⟩ | ⟨on, rfl⟩
  · rw [hsame]
    exact h hbefore
  · exact absurd ⟨job, hbegin⟩ hb
  · -- a `set_hold` looks at the flag when it writes the status
    cases hadv
    show (if on then DeviceStatus.hold else if c.jobRunning then .run else .idle) ≠ .idle
    rw [hbefore]
    cases on <;> decide

/-- **Every step of a session keeps a running job from being shown as idle.** -/
theorem Core.NotIdle.step (h : s.core.NotIdle) (hs : Sys.step l s = some u) : u.core.NotIdle := by
  cases l with
  | task i ch =>
    obtain ⟨b, c', b', spawned, -, -, -, hadv, rfl⟩ := Sys.step_task hs
    exact h.advance hadv
  | rx data =>
    obtain ⟨-, rfl⟩ := Sys.step_rx hs
    exact h.rx data
  | call op =>
    simp only [Sys.step] at hs
    split_ifs at hs
    cases hs
    exact h
  | drop i =>
    simp only [Sys.step, Sys.dropTask] at hs
    split at hs
    · cases hs
      exact h
    · cases hs
  | poll err =>
    simp only [Sys.step, Sys.outside] at hs
    split_ifs at hs
    cases hs
    unfold Sys.pollStatus
    split_ifs <;> exact h
  | _ =>
    simp only [Sys.step, Sys.outside] at hs
    split_ifs at hs
    cases hs
    exact h

/-- The same with the end of `home`. -/
theorem Core.NotIdle.driver {l : DriverLabel} (h : s.core.NotIdle) (hs : driverStep l s = some u) :
    u.core.NotIdle := by
  cases l with
  | session l => exact h.step hs
  | homed =>
    simp only [driverStep, Sys.outside] at hs
    split_ifs at hs
    cases hs
    exact h

end Steps

end Raydriver
