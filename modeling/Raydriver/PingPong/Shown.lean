import Raydriver.Grbl.Shown
import Raydriver.PingPong.Finish
import Raydriver.PingPong.FirstError

/-!
# The status shown while a job runs

The ping-pong sessions that know a status write it where `SessionCore` does, and at an
`ALARM:` line.

## Main results

* `Core.NotIdle.step` — every step of a session keeps a running job from being shown as idle.
* `job_never_shown_idle` — **a running job is never shown as idle**, and a held session
  shows a hold or an alarm behind a status report, in the three sessions.
-/

namespace Raydriver.PingPong

open Lts

/-- A running job is not shown as idle. -/
def Core.NotIdle (c : Core) : Prop := c.jobRunning = true → c.state.status ≠ .idle

section Steps

variable {fw : Firmware} {i : ℕ} {ch : Choice} {c c' : Core} {b b' : Body} {s u : Sys} {l : Label}

/-- Only the start of a job sets its flag. -/
theorem advance_jobRunning (h : advance fw i ch c b = some (c', b'))
    (hb : ∀ job, b ≠ .run job .begin) (hrun : c'.jobRunning = true) : c.jobRunning = true := by
  by_cases hraw : b.stage = some .raw
  · -- the realtime commands of `run_raw`
    cases b with
    | run job pc =>
      obtain ⟨⟨c1, pc1⟩, h1, h2⟩ := Option.map_eq_some_iff.mp h
      cases h2
      cases pc with
      | rawNext realtime =>
        cases realtime <;> simp only [advanceRun] at h1 <;> (try split_ifs at h1) <;> cases h1 <;>
          exact hrun
      | rawWriting realtime err =>
        cases h1
        exact hrun
      | _ => cases hraw
    | _ => cases hraw
  · cases advance_debt h hraw with
    | same hsame => exact hsame.symm.trans hrun
    | starts job hbegin => exact absurd hbegin (hb job)
    | takes _ _ hno => cases hno.symm.trans hrun
    | ends _ _ _ hno => cases hno.symm.trans hrun
    | pays hsame => exact hsame.symm.trans hrun

/-! ### Received lines -/

theorem shownStatus_ne_idle (hrun : c.jobRunning = true) (status : DeviceStatus) :
    c.shownStatus status ≠ .idle := by
  unfold Core.shownStatus
  cases status <;> cases c.isHolding <;> simp [hrun]

theorem shownStatus_held (hhold : c.isHolding = true) (status : DeviceStatus) :
    c.shownStatus status = .hold ∨ c.shownStatus status = .alarm := by
  unfold Core.shownStatus
  cases status <;> cases c.jobRunning <;> simp [hhold]

/-- A status report is stored as what the flags make of it. -/
theorem handleLine_report {line : Text} (hfw : fw ≠ .marlin) (hline : isReport line = true)
    (c : Core) : ∃ status, (c.handleLine fw line).state.status = c.shownStatus status := by
  obtain ⟨hok, herror⟩ := not_ack_of_isReport hfw hline
  rw [isReport] at hline
  refine ⟨(parseState line c.state (fw == .simple && c.reportInInches)).status, ?_⟩
  unfold Core.handleLine Core.handleGrblLine
  rw [hok, herror, beq_false_of_ne hfw, hline]
  rfl

/-- Any other line leaves the status, or makes it an alarm. -/
theorem handleLine_status {line : Text} (hfw : fw ≠ .marlin) (hline : isReport line = false)
    (c : Core) : (c.handleLine fw line).state.status = c.state.status ∨
      (c.handleLine fw line).state.status = .alarm := by
  rw [isReport] at hline
  unfold Core.handleLine Core.handleGrblLine
  rw [beq_false_of_ne hfw, hline]
  split_ifs
  · exact .inl rfl
  · exact .inl rfl
  all_goals try contradiction
  all_goals
    split
    · exact .inr rfl
    · exact .inl rfl

/-- **Behind a status report a held session shows a hold or an alarm.** -/
theorem handleLine_held {line : Text} (hfw : fw ≠ .marlin) (hline : isReport line = true)
    (hhold : c.isHolding = true) : (c.handleLine fw line).state.status = .hold ∨
      (c.handleLine fw line).state.status = .alarm := by
  obtain ⟨status, hstatus⟩ := handleLine_report hfw hline c
  rw [hstatus]
  exact shownStatus_held hhold status

theorem Core.NotIdle.line (hfw : fw ≠ .marlin) (h : c.NotIdle) (line : Text) :
    (c.handleLine fw line).NotIdle := by
  intro hrun
  rw [(handleLine_frame line c).jobRunning] at hrun
  cases hline : isReport line with
  | true =>
    obtain ⟨status, hstatus⟩ := handleLine_report hfw hline c
    rw [hstatus]
    exact shownStatus_ne_idle hrun status
  | false =>
    rcases handleLine_status hfw hline c with hsame | halarm
    · rw [hsame]
      exact h hrun
    · rw [halarm]
      decide

theorem Core.NotIdle.rx (hfw : fw ≠ .marlin) (h : c.NotIdle) (data : Bytes) :
    (c.handleRx fw data).NotIdle := by
  have hlines : ∀ (lines : List Text) (c : Core), c.NotIdle →
      (lines.foldl (Core.handleLine fw) c).NotIdle := by
    intro lines
    induction lines with
    | nil => exact fun c h => h
    | cons line lines ih => exact fun c h => ih _ (h.line hfw line)
  have hmessages : ∀ (messages : List Bytes) (c : Core), c.NotIdle →
      (messages.foldl (Core.handleMessage fw) c).NotIdle := by
    intro messages
    induction messages with
    | nil => exact fun c h => h
    | cons message messages ih => exact fun c h => ih _ (hlines (lineTexts message) c h)
  exact hmessages _ { c with lineBuffer := (cutMessages data c.lineBuffer).1 } h

/-! ### The session -/

theorem Core.NotIdle.advance (h : c.NotIdle) (hadv : advance fw i ch c b = some (c', b')) :
    c'.NotIdle := by
  by_cases hb : ∃ job, b = .run job .begin
  · obtain ⟨job, rfl⟩ := hb
    cases hadv
    intro _
    show DeviceStatus.run ≠ .idle
    decide
  intro hrun
  have hbefore := advance_jobRunning hadv (fun job hjob => hb ⟨job, hjob⟩) hrun
  rcases advance_status hadv with hsame | hbegin | ⟨on, rfl⟩
  · rw [hsame]
    exact h hbefore
  · exact absurd hbegin hb
  · -- a `set_hold` looks at the flag when it writes the status
    cases hadv
    show (if on then DeviceStatus.hold else if c.jobRunning then .run else .idle) ≠ .idle
    rw [hbefore]
    cases on <;> decide

/-- **Every step of a session keeps a running job from being shown as idle.** -/
theorem Core.NotIdle.step (hfw : fw ≠ .marlin) (h : s.core.NotIdle) (hs : Sys.step fw l s = some u) :
    u.core.NotIdle := by
  by_cases hl : ∃ i ch, l = .task i ch
  · obtain ⟨i, ch, rfl⟩ := hl
    obtain ⟨b, c', b', -, -, hadv, rfl⟩ := Sys.step_task hs
    exact h.advance hadv
  obtain ⟨-, haside⟩ := Sys.step_other hs fun i ch hi => hl ⟨i, ch, hi⟩
  cases haside with
  | rx data _ hcore _ =>
    rw [hcore]
    exact h.rx hfw data
  | cleanup _ hcore _ =>
    rw [hcore]
    intro hrun
    cases hrun
  | drop i pc _ _ hcore _ =>
    rw [hcore]
    split_ifs <;> exact h
  | call op b _ _ hcore _ => rw [hcore]; exact h
  | link up _ hcore _ => rw [hcore]; exact h
  | announce _ hcore _ => rw [hcore]; exact h

/-- The same with the end of `home`. -/
theorem Core.NotIdle.driver {l : DriverLabel} (hfw : fw ≠ .marlin) (h : s.core.NotIdle)
    (hs : driverStep fw l s = some u) : u.core.NotIdle := by
  cases l with
  | session l => exact h.step hfw hs
  | homed =>
    obtain ⟨-, rfl⟩ := Sys.outside_eq hs
    exact h

end Steps

/-- **A running job is never shown as idle**, in the three sessions that know a status: not in
any state that is reached from one without a job.  And behind a status report a held session
shows a hold or an alarm. -/
theorem job_never_shown_idle :
    ((∀ s₀ s : Raydriver.Sys, s₀.core.jobRunning = false →
        Run Raydriver.driverStep AnyStep s₀ s → s.core.jobRunning = true →
        s.core.state.status ≠ .idle) ∧
      ∀ (c : Raydriver.Core) (line : Text), Raydriver.isReport line = true →
        c.isHolding = true → (c.handleLine line).state.status = .hold ∨
          (c.handleLine line).state.status = .alarm) ∧
    ∀ fw : Firmware, fw ≠ .marlin →
      (∀ s₀ s : Sys, s₀.core.jobRunning = false → Run (driverStep fw) AnyStep s₀ s →
        s.core.jobRunning = true → s.core.state.status ≠ .idle) ∧
      ∀ (c : Core) (line : Text), isReport line = true → c.isHolding = true →
        (c.handleLine fw line).state.status = .hold ∨
          (c.handleLine fw line).state.status = .alarm := by
  have hstart {p : Bool} {q : Prop} (h : p = false) : p = true → q := fun h' =>
    absurd (h.symm.trans h') Bool.false_ne_true
  refine ⟨⟨fun s₀ s h0 hrun => ?_, fun c line hline => Raydriver.handleLine_held hline⟩,
    fun fw hfw => ⟨fun s₀ s h0 hrun => ?_, fun c line hline => handleLine_held hfw hline⟩⟩
  · exact hrun.invariant (fun _ _ _ h hs _ => Raydriver.Core.NotIdle.driver h hs) (hstart h0)
  · exact hrun.invariant (fun _ _ _ h hs _ => Core.NotIdle.driver hfw h hs) (hstart h0)

/-- A job whose device reports that it is idle. -/
def idleDuringJob : List Raydriver.DriverLabel :=
  [.session (.call (.run oneLine)), .session (.task 0 {}), .session (.task 0 {}),
    .session (.task 0 {}), .session (.rx (ascii "<Idle>\n"))]

/-- The general result on a job during which the device is idle, and on a held session. -/
theorem job_never_shown_idle_report :
    (reach Raydriver.driverStep idleDuringJob
        { core := {}, tasks := [] }).core.state.status ≠ .idle ∧
      ((Core.handleLine .simple { isHolding := true } "<Idle>".toList).state.status = .hold ∨
        (Core.handleLine .simple { isHolding := true } "<Idle>".toList).state.status = .alarm) :=
  ⟨job_never_shown_idle.1.1 { core := {}, tasks := [] } _ rfl (run_reach (by decide))
      (by decide),
    (job_never_shown_idle.2 .simple (by decide)).2 { isHolding := true } "<Idle>".toList
      (by decide) rfl⟩

end Raydriver.PingPong
