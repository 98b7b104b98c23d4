import Raydriver.Grbl.AlarmKept
import Raydriver.PingPong.Order

/-!
# An alarm that is shown stays shown

The ping-pong sessions write the status in the same places as `SessionCore`: a status
report or an `ALARM:` line, the start of a job, and a `set_hold` whose command has gone
out.  Here the start of a job does not look at the alarm either.

## Main definitions

* `Core.reports` — a chunk that completes a status report.
* `unmasked` — no job is started and no `set_hold` comes to its end in an alarm.
* `driverStep` — the session with the end of `home`.

## Main results

* `advance_status`, `handleRx_status` — who writes the status.
* `alarm_kept` — **an alarm is kept by every operation** of the three sessions under that
  condition, and no job started meanwhile sends a line.
* `alarm_masked` — without the condition an alarm is lost.
-/

namespace Raydriver.PingPong

open Lts

/-! ### Who writes the status -/

section Status

variable {fw : Firmware} {i : ℕ} {ch : Choice} {c c' : Core} {b b' : Body}

/-- **Who writes the state**: the start of a job, and a `set_hold` whose command has been
written, and both of them only its status. -/
theorem advance_state (h : advance fw i ch c b = some (c', b')) :
    c'.state = c.state ∨ ((∃ job, b = .run job .begin) ∨ ∃ on, b = .hold on (.writing none)) ∧
      c'.state = { c.state with status := c'.state.status } := by
  -- the steps of an exchange keep everything but the exchange, so the state with it
  have hrest : c'.rest = c.rest → c'.state = c.state :=
    fun h => (congrArg Core.state h :)
  cases b with
  | run job pc =>
    obtain ⟨⟨c1, pc1⟩, h1, h2⟩ := Option.map_eq_some_iff.mp h
    cases h2
    cases pc with
    | begin =>
      cases h1
      -- the start of a job shows `run`
      exact .inr ⟨.inl ⟨job, rfl⟩, rfl⟩
    | rawNext realtime =>
      cases realtime <;> simp only [advanceRun] at h1 <;> (try split_ifs at h1) <;> cases h1 <;>
        exact .inl rfl
    | top idx rest =>
      cases rest with
      | nil =>
        cases h1
        exact .inl rfl
      | cons rawLine rest =>
        simp only [advanceRun] at h1
        split_ifs at h1 <;> cases h1
        · exact .inl rfl
        · exact .inl rfl
        · refine .inl ?_
          unfold Core.reportOp
          split
          · rfl
          · split_ifs <;> rfl
    | ping idx line rest p =>
      simp only [advanceRun] at h1
      split at h1
      · cases h1
        exact .inl rfl
      · cases h1
        exact .inl rfl
      · obtain ⟨⟨c₁, p'⟩, hping, heq⟩ := Option.map_eq_some_iff.mp h1
        cases heq
        exact .inl (hrest (advancePing_step hping).rest)
    | shutdown was p =>
      simp only [advanceRun] at h1
      split at h1
      · cases h1
        exact .inl rfl
      · obtain ⟨⟨c₁, p'⟩, hshut, heq⟩ := Option.map_eq_some_iff.mp h1
        cases heq
        exact .inl (hrest (advanceShutdown_rest hshut).1)
    | returned => cases h1
    | _ =>
      cases h1
      exact .inl rfl
  | execute command pc =>
    obtain ⟨⟨c1, pc1⟩, h1, h2⟩ := Option.map_eq_some_iff.mp h
    cases h2
    cases pc with
    | start =>
      cases h1
      exact .inl rfl
    | ping p =>
      obtain ⟨⟨c₁, p'⟩, hping, heq⟩ := Option.map_eq_some_iff.mp h1
      cases heq
      exact .inl (hrest (advancePing_step hping).rest)
  | cancel em pc =>
    obtain ⟨⟨c1, pc1⟩, h1, h2⟩ := Option.map_eq_some_iff.mp h
    cases h2
    cases pc with
    | start =>
      simp only [advanceCancel] at h1
      split_ifs at h1 <;> cases h1 <;> exact .inl rfl
    | stopping was err => cases err <;> cases h1 <;> exact .inl rfl
    | shutdown was p =>
      simp only [advanceCancel] at h1
      split at h1
      · cases h1
        exact .inl rfl
      · obtain ⟨⟨c₁, p'⟩, hshut, heq⟩ := Option.map_eq_some_iff.mp h1
        cases heq
        exact .inl (hrest (advanceShutdown_rest hshut).1)
    | returned err => cases h1
  | hold on pc =>
    obtain ⟨⟨c1, pc1⟩, h1, h2⟩ := Option.map_eq_some_iff.mp h
    cases h2
    cases pc with
    | start =>
      -- SimpleCore clears its cancellation first, which is not part of the state
      have hkeep : (if fw == .simple then Core.clearCancelled { c with isHolding := on }
          else { c with isHolding := on }).state = c.state := by
        split_ifs <;> rfl
      unfold advanceHold at h1
      dsimp only at h1
      generalize (if fw == .simple then Core.clearCancelled { c with isHolding := on }
        else { c with isHolding := on }) = d at h1 hkeep
      split at h1 <;> cases h1 <;> exact .inl hkeep
    | writing err =>
      cases err with
      | none =>
        cases h1
        -- the command is written: `hold` or `idle` is shown
        exact .inr ⟨.inr ⟨on, rfl⟩, rfl⟩
      | some e =>
        cases h1
        exact .inl rfl
    | returned => cases h1
  | poll pc =>
    obtain ⟨⟨c1, pc1⟩, h1, h2⟩ := Option.map_eq_some_iff.mp h
    cases h2
    cases pc with
    | ping p =>
      simp only [advancePoll] at h1
      split at h1
      · cases h1
        exact .inl rfl
      · obtain ⟨⟨c₁, p'⟩, hping, heq⟩ := Option.map_eq_some_iff.mp h1
        cases heq
        exact .inl (hrest (advancePing_step hping).rest)
    | _ =>
      simp only [advancePoll] at h1
      try split_ifs at h1
      all_goals cases h1
      all_goals exact .inl rfl

/-- Who writes the status. -/
theorem advance_status (h : advance fw i ch c b = some (c', b')) :
    c'.state.status = c.state.status ∨ (∃ job, b = .run job .begin) ∨
      ∃ on, b = .hold on (.writing none) :=
  (advance_state h).imp (fun h => congrArg DeviceState.status h) And.left

/-- No task writes the error. -/
theorem advance_error (h : advance fw i ch c b = some (c', b')) :
    c'.state.error = c.state.error := by
  rcases advance_state h with h | ⟨-, h⟩
  · exact congrArg DeviceState.error h
  · exact (congrArg DeviceState.error h :)

end Status

/-! ### Received lines -/

/-- A line that is a status report. -/
def isReport (line : Text) : Bool := startsWith "<".toList line && line.getLast? == some '>'

/-- The chunk completes a status report. -/
def Core.reports (data : Bytes) (c : Core) : Bool :=
  (cutMessages data c.lineBuffer).2.any fun message => (lineTexts message).any isReport

/-- In an alarm a line that is no status report leaves it. -/
theorem handleLine_alarm {fw : Firmware} {line : Text} (hline : isReport line = false) {c : Core}
    (hc : c.state.status = .alarm) : (c.handleLine fw line).state.status = .alarm := by
  unfold Core.handleLine
  split_ifs
  · exact hc
  · exact hc
  · unfold Core.handleMarlinLine
    split_ifs
    · show (c.handlePositionReport line).state.status = .alarm
      unfold Core.handlePositionReport
      split
      · exact hc
      · show (if c.state.status = .unknown then .idle else c.state.status) = DeviceStatus.alarm
        rw [hc]
        rfl
    · exact hc
  · unfold Core.handleGrblLine
    split_ifs with hreport
    · rw [isReport, hreport] at hline
      cases hline
    · split
      · rfl
      · exact hc
    · split
      · rfl
      · exact hc

/-- **Only a status report ends an alarm**: other received bytes leave it. -/
theorem handleRx_alarm {fw : Firmware} {data : Bytes} {c : Core} (h : c.reports data = false)
    (hc : c.state.status = .alarm) : (c.handleRx fw data).state.status = .alarm := by
  have hlines : ∀ (lines : List Text) (c : Core), lines.any isReport = false →
      c.state.status = .alarm → (lines.foldl (Core.handleLine fw) c).state.status = .alarm := by
    intro lines
    induction lines with
    | nil => exact fun c _ hc => hc
    | cons line lines ih =>
      intro c hno hc
      rw [List.any_cons, Bool.or_eq_false_iff] at hno
      exact ih _ hno.2 (handleLine_alarm hno.1 hc)
  have hmessages : ∀ (messages : List Bytes) (c : Core),
      (messages.any fun message => (lineTexts message).any isReport) = false →
      c.state.status = .alarm →
        (messages.foldl (Core.handleMessage fw) c).state.status = .alarm := by
    intro messages
    induction messages with
    | nil => exact fun c _ hc => hc
    | cons message messages ih =>
      intro c hno hc
      rw [List.any_cons, Bool.or_eq_false_iff] at hno
      exact ih _ hno.2 (hlines _ c hno.1 hc)
  exact hmessages _ _ h hc

/-! ### The session -/

/-- The steps of the session, and the end of `home`. -/
inductive DriverLabel where
  | session (l : Label)
  /-- The end of `home`: the error is cleared. -/
  | homed
  deriving DecidableEq, Repr

/-- The end of `home`. -/
def Core.clearError (c : Core) : Core := { c with state := { c.state with error := none } }

/-- The session with `home`, whose commands are calls of `execute_command`. -/
def driverStep (fw : Firmware) : DriverLabel → Sys → Option Sys
  | .session l, s => Sys.step fw l s
  | .homed, s => s.outside Core.clearError

/-- No job is started, and no `set_hold` is about to write the status, in an alarm. -/
def unmasked (s : Sys) (l : DriverLabel) : Bool :=
  match l with
  | .session (.task i _) =>
    match s.tasks[i]? with
    | some (.run _ .begin) | some (.hold _ (.writing none)) => s.core.state.status != .alarm
    | _ => true
  | _ => true

/-- The device sends no status report. -/
def unreported (s : Sys) (l : DriverLabel) : Bool :=
  match l with
  | .session (.rx data) => !s.core.reports data
  | _ => true

/-- The run has not got to sending a line. -/
def RunPc.barren : RunPc → Bool
  | .rawNext _ | .rawWriting _ _ | .begin | .top _ _ | .ended _ | .shutdown _ _ | .finish _
  | .returned => true
  | _ => false

/-- In an alarm a run does not get to sending a line. -/
theorem RunPc.barren_step {fw : Firmware} {j : ℕ} {job : Job} {ch : Choice} {c c' : Core}
    {pc pc' : RunPc} (hfw : fw.checksAlarm = true)
    (h : advanceRun fw j job ch c pc = some (c', pc')) (halarm : c.state.status = .alarm)
    (hpc : pc.barren = true) : pc'.barren = true ∧ c'.linesBy j = c.linesBy j := by
  cases pc with
  | rawNext realtime =>
    cases realtime with
    | nil =>
      cases h
      exact ⟨by split_ifs <;> rfl, rfl⟩
    | cons command realtime =>
      simp only [advanceRun] at h
      split_ifs at h <;> cases h
      · exact ⟨rfl, linesBy_write (o := .realtime) command ch.writeError rfl rfl⟩
      · exact ⟨rfl, rfl⟩
  | rawWriting realtime err =>
    cases h
    exact ⟨by split_ifs <;> rfl, rfl⟩
  | begin =>
    cases h
    exact ⟨rfl, rfl⟩
  | top idx rest =>
    cases rest with
    | nil =>
      cases h
      exact ⟨rfl, rfl⟩
    | cons rawLine rest =>
      have hstop : (c.isCancelled || (fw.checksAlarm && c.state.status == .alarm)) = true := by
        rw [hfw, halarm]
        exact Bool.or_true _
      simp only [advanceRun, hstop, if_true] at h
      cases h
      exact ⟨rfl, rfl⟩
  | ended interrupted =>
    cases h
    exact ⟨by split_ifs <;> rfl, rfl⟩
  | shutdown was p =>
    obtain ⟨-, hlines⟩ := advanceRun_over h rfl
    have hpast := advanceRun_past h rfl
    refine ⟨?_, hlines⟩
    cases pc' <;> first | rfl | cases hpast
  | finish was =>
    cases h
    exact ⟨rfl, rfl⟩
  | returned => cases h
  | _ => cases hpc

/-- No line has been written under a name no task has yet. -/
def Unused (n : ℕ) (s : Sys) : Prop :=
  n ≤ s.tasks.length ∧ ∀ j, s.tasks.length ≤ j → s.core.linesBy j = []

/-- The invariant: the alarm is shown, and the runs from number `n` on have not got to
sending a line. -/
structure AlarmKept (n : ℕ) (s : Sys) : Prop where
  alarm : s.core.state.status = .alarm
  unused : Unused n s
  barren : ∀ j job pc, n ≤ j → s.tasks[j]? = some (.run job pc) →
    pc.barren = true ∧ s.core.linesBy j = []

section Session

variable {fw : Firmware} {n : ℕ} {s u : Sys} {l : Label}

/-- Tasks are numbered for good. -/
theorem step_length (hs : Sys.step fw l s = some u) : s.tasks.length ≤ u.tasks.length := by
  by_contra hlt
  have hlt' : u.tasks.length < s.tasks.length := Nat.lt_of_not_le hlt
  obtain ⟨b', hb', -⟩ := Sys.step_isRun hs (List.getElem?_eq_getElem hlt')
  rw [List.getElem?_eq_none (Nat.le_refl _)] at hb'
  cases hb'

/-- An alarm is left only by the start of a job, a `set_hold` that has been written, or a
status report. -/
theorem step_alarm (hs : Sys.step fw l s = some u) (halarm : s.core.state.status = .alarm)
    (hmask : unmasked s (.session l) = true) (hreport : unreported s (.session l) = true) :
    u.core.state.status = .alarm := by
  by_cases hl : ∃ i ch, l = .task i ch
  · obtain ⟨i, ch, rfl⟩ := hl
    obtain ⟨b, c', b', hb, -, hadv, rfl⟩ := Sys.step_task hs
    rcases advance_status hadv with h | ⟨job, rfl⟩ | ⟨on, rfl⟩
    · exact h.trans halarm
    · simp only [unmasked, hb, halarm] at hmask
      cases hmask
    · simp only [unmasked, hb, halarm] at hmask
      cases hmask
  · obtain ⟨-, haside⟩ := Sys.step_other hs fun i ch hi => hl ⟨i, ch, hi⟩
    cases haside with
    | call op b hlabel hb hcore htasks => rw [hcore, halarm]
    | rx data hlabel hcore htasks =>
      rw [hlabel] at hreport
      rw [hcore]
      exact handleRx_alarm (by simpa [unreported] using hreport) halarm
    | link up hlabel hcore htasks => rw [hcore]; exact halarm
    | announce hlabel hcore htasks => rw [hcore]; exact halarm
    | cleanup hlabel hcore htasks => rw [hcore]; exact halarm
    | drop i pc hlabel hi hcore htasks => rw [hcore]; split_ifs <;> exact halarm

/-- The names of tasks to come stay unused. -/
theorem Unused.step (h : Unused n s) (hs : Sys.step fw l s = some u) : Unused n u := by
  refine ⟨h.1.trans (step_length hs), fun j hj => ?_⟩
  have hlen := (step_length hs).trans hj
  refine (linesBy_step hs fun ch b _ hb => ?_).trans (h.2 j hlen)
  rw [List.getElem?_eq_none_iff.mpr hlen] at hb
  cases hb

/-- **What every step keeps**, as long as nothing masks the alarm and the device reports
nothing. -/
theorem AlarmKept.step (hfw : fw.checksAlarm = true) (h : AlarmKept n s)
    (hs : Sys.step fw l s = some u) (hmask : unmasked s (.session l) = true)
    (hreport : unreported s (.session l) = true) : AlarmKept n u := by
  refine ⟨step_alarm hs h.alarm hmask hreport, h.unused.step hs, fun j job pc hj hu => ?_⟩
  cases hb : s.tasks[j]? with
  | none =>
    obtain ⟨op, -, hop, -⟩ := Sys.step_new hs hb hu
    refine ⟨?_, (linesBy_step hs fun ch b _ hb' => by rw [hb] at hb'; cases hb').trans
      (h.unused.2 j (List.getElem?_eq_none_iff.mp hb))⟩
    cases op with
    | run job => cases hop; rfl
    | runRaw lines => cases fw <;> cases hop <;> rfl
    | setHold hold =>
      simp only [Call.body] at hop
      split_ifs at hop
      cases hop
    | _ => cases hop
  | some b =>
    obtain ⟨b', hb', hkind⟩ := Sys.step_isRun hs hb
    obtain rfl : b' = .run job pc := Option.some.inj (hb'.symm.trans hu)
    cases b with
    | run job' pc' =>
      obtain ⟨hbarren, hlines⟩ := h.barren j job' pc' hj hb
      by_cases hl : ∃ ch, l = .task j ch
      · obtain ⟨ch, rfl⟩ := hl
        obtain ⟨b, c', b', hb₀, -, hadv, rfl⟩ := Sys.step_task hs
        obtain rfl : b = .run job' pc' := Option.some.inj (hb₀.symm.trans hb)
        obtain ⟨⟨c₁, pc₁⟩, hstep, heq⟩ := Option.map_eq_some_iff.mp hadv
        cases heq
        rw [List.getElem?_set_self (List.getElem?_eq_some_iff.mp hb).1] at hu
        cases hu
        obtain ⟨hbarren', hlines'⟩ := RunPc.barren_step hfw hstep h.alarm hbarren
        exact ⟨hbarren', hlines'.trans hlines⟩
      · have hne : ∀ ch, l ≠ .task j ch := fun ch hch => hl ⟨ch, hch⟩
        cases (Sys.step_tasks hs hb hne (by simp)).symm.trans hu
        exact ⟨hbarren, (linesBy_step hs fun ch b hch => absurd hch (hne ch)).trans hlines⟩
    | _ => cases hkind

/-- The same for the session with `home`. -/
theorem AlarmKept.driver {l : DriverLabel} (hfw : fw.checksAlarm = true) (h : AlarmKept n s)
    (hs : driverStep fw l s = some u) (hok : unmasked s l = true ∧ unreported s l = true) :
    AlarmKept n u := by
  cases l with
  | session l => exact h.step hfw hs hok.1 hok.2
  | homed =>
    obtain ⟨-, rfl⟩ := Sys.outside_eq (f := Core.clearError) hs
    exact ⟨h.alarm, h.unused, h.barren⟩

/-- In every run the names of tasks to come are unused. -/
theorem unused_of_run {s₀ : Sys} (h0 : Fresh s₀) (hr : Run (driverStep fw) AnyStep s₀ s) :
    Unused s.tasks.length s := by
  refine hr.invariant (I := fun s => Unused s.tasks.length s) ?_ ⟨Nat.le_refl _, fun t _ => ?_⟩
  · intro a l b h hs _
    cases l with
    | session l => exact ⟨Nat.le_refl _, (h.step hs).2⟩
    | homed =>
      obtain ⟨-, rfl⟩ := Sys.outside_eq (f := Core.clearError) hs
      exact h
  · unfold Core.linesBy
    rw [h0.sent]
    rfl

end Session

/-- **An alarm that is shown stays shown**, and a job started meanwhile sends no line, in the
three sessions that watch for alarms: from any reachable state that shows an alarm on, as
long as the device sends no status report, no `set_hold` comes to its end, and in the
ping-pong sessions no job is started. -/
theorem alarm_kept (fw : Firmware) :
    (∀ s₀ s u : Raydriver.Sys, Raydriver.Fresh s₀ → Run Raydriver.driverStep AnyStep s₀ s →
      s.core.state.status = .alarm →
      Run Raydriver.driverStep (fun a l _ =>
        Raydriver.unmasked a l = true ∧ Raydriver.unreported a l = true) s u →
      u.core.state.status = .alarm ∧ ∀ t, s.tasks.length ≤ t → u.core.jobLines t = []) ∧
    (fw.checksAlarm = true → ∀ s₀ s u : Sys, Fresh s₀ →
      Run (driverStep fw) AnyStep s₀ s → s.core.state.status = .alarm →
      Run (driverStep fw) (fun a l _ => unmasked a l = true ∧ unreported a l = true) s u →
      u.core.state.status = .alarm ∧ ∀ j job pc, s.tasks.length ≤ j →
        u.tasks[j]? = some (.run job pc) → u.core.linesBy j = []) := by
  refine ⟨fun s₀ s u h0 hr halarm hrun => ?_, fun hfw s₀ s u h0 hr halarm hrun => ?_⟩
  -- in the alarmed state no task to come has written a line
  · have hstart : Raydriver.AlarmKept s.tasks.length s := by
      refine ⟨?_, Raydriver.unused_of_run h0 hr, fun t job pc ht hs => ?_⟩
      · unfold Raydriver.Core.isAlarm
        rw [halarm]
        rfl
      · rw [List.getElem?_eq_none_iff.mpr ht] at hs
        cases hs
    have hend : Raydriver.AlarmKept s.tasks.length u :=
      hrun.invariant (fun _ _ _ h hs hok => h.driver hs hok) hstart
    exact ⟨by simpa [Raydriver.Core.isAlarm] using hend.alarm, hend.unused.2⟩
  · have hstart : AlarmKept s.tasks.length s := by
      refine ⟨halarm, unused_of_run h0 hr, fun t job pc ht hs => ?_⟩
      rw [List.getElem?_eq_none_iff.mpr ht] at hs
      cases hs
    have hend : AlarmKept s.tasks.length u :=
      hrun.invariant (fun _ _ _ h hs hok => h.driver hfw hs hok) hstart
    exact ⟨hend.alarm, fun j job pc hj hu => (hend.barren j job pc hj hu).2⟩

/-! ### Runs of a fixed job -/

/-- `SessionCore` behind a status report that shows an alarm. -/
def alarmedSession : Raydriver.Sys :=
  reach Raydriver.driverStep [.session (.rx alarmReport)] { core := {}, tasks := [] }

/-- A ping-pong session behind an `ALARM:` line. -/
def alarmedSys (fw : Firmware) : Sys :=
  reach (driverStep fw) [.session (.rx alarmLine)] { core := {} }

/-- A job started in the alarm: the general result in `SessionCore`; and a command executed
in the alarm, in `SimpleCore`. -/
theorem alarm_kept_started :
    (let u := reach Raydriver.driverStep
        ((.call (.run twoLines) :: Raydriver.turns 0 3 ++ Raydriver.turns 1 2).map .session)
        alarmedSession;
      u.core.state.status = .alarm ∧
        ∀ t, alarmedSession.tasks.length ≤ t → u.core.jobLines t = []) ∧
    (let u := reach (driverStep .simple)
        ((.call (.execute "$X".toList) :: turns 0 5).map .session) (alarmedSys .simple);
      u.core.state.status = .alarm ∧ ∀ j job pc, (alarmedSys .simple).tasks.length ≤ j →
        u.tasks[j]? = some (.run job pc) → u.core.linesBy j = []) := by
  constructor
  · exact (alarm_kept .simple).1 _ _ _ ⟨rfl, rfl, rfl⟩ (run_reach (by decide)) (by decide)
      (run_reach_both (by decide))
  · exact (alarm_kept .simple).2 rfl _ _ _ ⟨rfl, rfl, rfl⟩ (run_reach (by decide)) (by decide)
      (run_reach_both (by decide))

/-- **The driver masks an alarm**: in `SessionCore` a released hold overwrites it, and the
next job sends its line; in the ping-pong sessions the job does so itself. -/
theorem alarm_masked :
    (¬ ∀ s₀ s u : Raydriver.Sys, Raydriver.Fresh s₀ → Run Raydriver.driverStep AnyStep s₀ s →
      s.core.state.status = .alarm →
      Run Raydriver.driverStep (fun a l _ => Raydriver.unreported a l = true) s u →
      u.core.state.status = .alarm) ∧
    (¬ ∀ s₀ s u : Raydriver.Sys, Raydriver.Fresh s₀ → Run Raydriver.driverStep AnyStep s₀ s →
      s.core.state.status = .alarm →
      Run Raydriver.driverStep (fun a l _ => Raydriver.unreported a l = true) s u →
      ∀ t, s.tasks.length ≤ t → u.core.jobLines t = []) ∧
    ∀ fw : Firmware, fw.checksAlarm = true →
      (¬ ∀ s₀ s u : Sys, Fresh s₀ → Run (driverStep fw) AnyStep s₀ s →
        s.core.state.status = .alarm →
        Run (driverStep fw) (fun a l _ => unreported a l = true) s u →
        u.core.state.status = .alarm) ∧
      ¬ ∀ s₀ s u : Sys, Fresh s₀ → Run (driverStep fw) AnyStep s₀ s →
        s.core.state.status = .alarm →
        Run (driverStep fw) (fun a l _ => unreported a l = true) s u →
        ∀ j, s.tasks.length ≤ j → u.core.linesBy j = [] := by
  let held : List Raydriver.DriverLabel :=
    (.call (.setHold false) :: Raydriver.turns 0 2 ++ .call (.run twoLines) ::
      Raydriver.turns 1 3 ++ Raydriver.turns 2 6).map .session
  let started : List DriverLabel := (.call (.run twoLines) :: turns 0 7).map .session
  refine ⟨fun h => ?_, fun h => ?_, fun fw hfw => ⟨fun h => ?_, fun h => ?_⟩⟩
  · exact absurd (h _ alarmedSession (reach Raydriver.driverStep held alarmedSession)
      ⟨rfl, rfl, rfl⟩ (run_reach (by decide)) (by decide)
      (run_reach_where (by decide))) (by decide)
  · exact absurd (h _ alarmedSession (reach Raydriver.driverStep held alarmedSession)
      ⟨rfl, rfl, rfl⟩ (run_reach (by decide)) (by decide)
      (run_reach_where (by decide)) 2 (by decide))
      (by decide)
  · cases fw with
    | marlin => cases hfw
    | simple =>
      exact absurd (h _ (alarmedSys .simple) (reach (driverStep .simple) started _)
        ⟨rfl, rfl, rfl⟩ (run_reach (by decide)) (by decide)
        (run_reach_where (by decide))) (by decide)
    | smoothie =>
      exact absurd (h _ (alarmedSys .smoothie) (reach (driverStep .smoothie) started _)
        ⟨rfl, rfl, rfl⟩ (run_reach (by decide)) (by decide)
        (run_reach_where (by decide))) (by decide)
  · cases fw with
    | marlin => cases hfw
    | simple =>
      exact absurd (h _ (alarmedSys .simple) (reach (driverStep .simple) started _)
        ⟨rfl, rfl, rfl⟩ (run_reach (by decide)) (by decide)
        (run_reach_where (by decide)) 0 (by decide))
        (by decide)
    | smoothie =>
      exact absurd (h _ (alarmedSys .smoothie) (reach (driverStep .smoothie) started _)
        ⟨rfl, rfl, rfl⟩ (run_reach (by decide)) (by decide)
        (run_reach_where (by decide)) 0 (by decide))
        (by decide)

end Raydriver.PingPong
