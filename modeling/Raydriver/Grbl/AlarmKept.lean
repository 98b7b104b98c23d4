import Raydriver.Grbl.Accounting
import Raydriver.Grbl.Order

/-!
# An alarm that is shown stays shown

The status shown is written by three kinds of steps: a status report of the device, the
start of a job, which leaves an alarm alone, and a `set_hold` whose command has gone
out, which does not look.  As long as no `set_hold` comes to that point in an alarm, an
alarm stays until the device reports something else, and no job started meanwhile sends
a line.

## Main definitions

* `isReport`, `Core.reports` — a status report, and a chunk that completes one.
* `unmasked` — the steps that are none of the third kind.
* `DriverLabel`, `driverStep` — the session with the end of `home`.

## Main results

* `advance_status` — who writes the status.
* `handleRx_status` — only a status report ends an alarm.
* `AlarmKept.step` — the invariant.
-/

namespace Raydriver

open Lts

/-! ### Who writes the status -/

section Status

variable {n i : ℕ} {job : Job} {b b' : Body} {em : Bool} {ch : Choice} {c c' : Core}
  {spawned : List Body}

theorem advanceStream_status {pc pc' : StreamPc}
    (h : advanceStream i job ch c pc = some (c', pc')) : c'.state.status = c.state.status := by
  cases pc with
  | loopTop idx rest =>
    cases rest <;> simp only [advanceStream] at h <;> (try split_ifs at h) <;> cases h <;> rfl
  | writing s err => cases err <;> cases h <;> rfl
  | poll w => cases w <;> cases h <;> rfl
  | pollWriting w before err => cases err <;> cases h <;> rfl
  | pollAwait w before left => cases left <;> cases h <;> rfl
  | pollEnd w idle =>
    cases w <;> simp only [advanceStream] at h <;> split_ifs at h <;> cases h <;> rfl
  | recover w =>
    cases w <;> simp only [advanceStream] at h <;> split_ifs at h <;> cases h <;> rfl
  | recoverEnd w => cases w <;> cases h <;> rfl
  | outcome err =>
    cases err <;> simp only [advanceStream] at h <;> (try split_ifs at h) <;> cases h <;> rfl
  | cancelling pc e =>
    simp only [advanceStream] at h
    split at h
    · cases h
      rfl
    · obtain ⟨⟨c₁, pc₁⟩, h1, h2⟩ := Option.map_eq_some_iff.mp h
      cases h2
      rw [(advanceCancel_frame h1).1.state]
  | _ =>
    simp only [advanceStream] at h
    try split_ifs at h
    all_goals cases h
    all_goals rfl

/-- **Who writes the status**: the start of a job, and a `set_hold` whose command has been
written. -/
theorem advance_status (h : advance n i ch c b = some (c', b', spawned)) :
    c'.state.status = c.state.status ∨ (∃ job, b = .run job .begin ∧ c' = c.startJob) ∨
      ∃ on, b = .hold on (.writing none) := by
  cases b with
  | stream job pc =>
    obtain ⟨⟨c1, pc1⟩, h1, h2⟩ := Option.map_eq_some_iff.mp h
    cases h2
    exact .inl (advanceStream_status h1)
  | cancel em pc =>
    obtain ⟨⟨c1, pc1⟩, h1, h2⟩ := Option.map_eq_some_iff.mp h
    cases h2
    exact .inl (by rw [(advanceCancel_frame h1).1.state])
  | run job pc =>
    obtain ⟨⟨c1, pc1, sp⟩, h1, h2⟩ := Option.map_eq_some_iff.mp h
    cases h2
    cases pc with
    | begin =>
      cases h1
      -- the start of a job shows `run`
      exact .inr (.inl ⟨job, rfl, rfl⟩)
    | rawNext realtime =>
      cases realtime <;> simp only [advanceRun] at h1 <;> (try split_ifs at h1) <;> cases h1 <;>
        exact .inl rfl
    | abort =>
      simp only [advanceRun] at h1
      split at h1
      · cases h1
        exact .inl rfl
      · split_ifs at h1 <;> cases h1 <;> exact .inl rfl
    | _ =>
      simp only [advanceRun] at h1
      try split_ifs at h1
      all_goals cases h1
      all_goals exact .inl rfl
  | execute command pc =>
    obtain ⟨⟨c1, pc1⟩, h1, h2⟩ := Option.map_eq_some_iff.mp h
    cases h2
    cases pc <;> simp only [advanceExecute] at h1 <;> (try split_ifs at h1) <;> cases h1 <;>
      exact .inl rfl
  | queue pc =>
    obtain ⟨⟨c1, pc1⟩, h1, h2⟩ := Option.map_eq_some_iff.mp h
    cases h2
    cases pc with
    | recv =>
      simp only [advanceQueue] at h1
      split at h1
      · cases h1
      · split_ifs at h1 <;> cases h1 <;> exact .inl rfl
    | _ =>
      simp only [advanceQueue] at h1
      try split_ifs at h1
      all_goals cases h1
      all_goals exact .inl rfl
  | interactive command pc =>
    obtain ⟨⟨c1, pc1⟩, h1, h2⟩ := Option.map_eq_some_iff.mp h
    cases h2
    cases pc <;> simp only [advanceInteractive] at h1 <;> (try split_ifs at h1) <;> cases h1 <;>
      exact .inl rfl
  | hold on pc =>
    obtain ⟨⟨c1, pc1⟩, h1, h2⟩ := Option.map_eq_some_iff.mp h
    cases h2
    cases pc with
    | start =>
      unfold advanceHold at h1
      dsimp only at h1
      split at h1 <;> cases h1 <;> exact .inl rfl
    | writing err =>
      cases err with
      -- the command is written: `hold` or `idle` is shown
      | none => exact .inr (.inr ⟨on, rfl⟩)
      | some e =>
        cases h1
        exact .inl rfl
    | returned => cases h1
  | link connect pc =>
    obtain ⟨⟨c1, pc1, sp⟩, h1, h2⟩ := Option.map_eq_some_iff.mp h
    cases h2
    cases pc with
    | abort =>
      simp only [advanceLink] at h1
      split at h1
      · cases h1
        exact .inl rfl
      · split_ifs at h1 <;> cases h1 <;> exact .inl rfl
    | stop =>
      simp only [advanceLink] at h1
      split at h1 <;> cases h1 <;> exact .inl rfl
    | _ =>
      simp only [advanceLink] at h1
      try split_ifs at h1
      all_goals cases h1
      all_goals exact .inl rfl

end Status

/-! ### Status reports -/

/-- A line that is a status report. -/
def isReport (line : Text) : Bool :=
  !Core.isFragment line && startsWith "<".toList line && line.getLast? == some '>'

/-- The chunk completes a status report. -/
def Core.reports (data : Bytes) (c : Core) : Bool :=
  (c.flow.parseExtracted data).2.any fun e =>
    match e with
    | .line text => isReport text
    | .ack _ _ _ => false

/-- A line that is no status report leaves the status. -/
theorem handleLine_status {line : Text} (hline : isReport line = false) (c : Core) :
    (c.handleLine line).state.status = c.state.status := by
  unfold Core.handleLine
  split_ifs with hfrag hreport
  · rfl
  · rw [isReport, Bool.and_assoc, hreport, Bool.and_true, Bool.not_eq_false'] at hline
    exact absurd hline hfrag
  all_goals
    dsimp only
    split <;> rfl

theorem handleResponse_status {r : GrblResponse} (hr : r.rtype = .line → isReport r.text = false)
    (c : Core) : (c.handleResponse r).state.status = c.state.status := by
  unfold Core.handleResponse
  split
  · unfold Core.handleOk
    dsimp only
    split <;> rfl
  · rfl
  · rename_i h
    exact handleLine_status (hr h) c

/-- **Only a status report changes the status**: other received bytes leave it. -/
theorem handleRx_status {data : Bytes} {c : Core} (h : c.reports data = false) :
    (c.handleRx data).state.status = c.state.status := by
  refine handleRx_keeps (P := fun c' => c'.state.status = c.state.status) (fun _ _ => rfl)
    (fun _ hc => hc) fun r hr c' hc => (handleResponse_status (fun hline => ?_) c').trans hc
  have hmem := (arrivals_perm data c).mem_iff.mp hr
  obtain ⟨e, he, rfl⟩ := List.mem_map.mp hmem
  have hno := List.any_eq_false.mp h e he
  cases e with
  | ack kind t p =>
    have hacc := (parseExtracted_accounted data c.flow).kind kind t p he
    cases kind with
    | line => exact absurd rfl hacc
    | ok => cases hline
    | error => cases hline
  | line t => exact eq_false_of_ne_true hno

/-! ### The session -/

/-- The steps of the session, and the end of `home`. -/
inductive DriverLabel where
  | session (l : Label)
  /-- The end of `home`: the error is cleared. -/
  | homed
  deriving DecidableEq, Repr

/-- The end of `home`. -/
def Core.clearError (c : Core) : Core := { c with state := { c.state with error := none } }

/-- The session with `home`, whose commands are calls of `execute_command`. -/
def driverStep : DriverLabel → Sys → Option Sys
  | .session l, s => Sys.step l s
  | .homed, s => s.outside Core.clearError

/-- No `set_hold` is about to write the status in an alarm. -/
def unmasked (s : Sys) (l : DriverLabel) : Bool :=
  match l with
  | .session (.task i _) =>
    match s.tasks[i]? with
    | some (.hold _ (.writing none)) => !s.core.isAlarm
    | _ => true
  | _ => true

/-- The device sends no status report. -/
def unreported (s : Sys) (l : DriverLabel) : Bool :=
  match l with
  | .session (.rx data) => !s.core.reports data
  | _ => true

/-- The streaming task has not got to sending a line. -/
def StreamPc.barren : StreamPc → Bool
  | .start | .loopTop _ _ | .afterLoop | .drainTop | .innerEnd | .outcome _ | .cancelling _ _
  | .final _ | .finished _ => true
  | _ => false

/-- In an alarm a job does not get to sending a line. -/
theorem StreamPc.barren_step {t : ℕ} {job : Job} {ch : Choice} {c c' : Core} {pc pc' : StreamPc}
    (h : advanceStream t job ch c pc = some (c', pc')) (halarm : c.isAlarm = true)
    (hpc : pc.barren = true) : pc'.barren = true ∧ c'.jobLines t = c.jobLines t := by
  cases pc with
  | start =>
    cases h
    exact ⟨rfl, rfl⟩
  | loopTop idx rest =>
    cases rest with
    | nil =>
      cases h
      exact ⟨rfl, rfl⟩
    | cons line rest =>
      simp only [advanceStream, halarm, Bool.or_true, if_true] at h
      cases h
      exact ⟨rfl, rfl⟩
  | afterLoop =>
    simp only [advanceStream] at h
    split_ifs at h <;> cases h <;> exact ⟨rfl, rfl⟩
  | drainTop =>
    simp only [advanceStream, halarm, Bool.or_true, Bool.true_or, if_true] at h
    cases h
    exact ⟨rfl, rfl⟩
  | innerEnd =>
    cases h
    exact ⟨rfl, rfl⟩
  | outcome err =>
    cases err <;> simp only [advanceStream] at h <;> (try split_ifs at h) <;> cases h <;>
      exact ⟨rfl, rfl⟩
  | cancelling pc e =>
    simp only [advanceStream] at h
    split at h
    · cases h
      exact ⟨rfl, rfl⟩
    · obtain ⟨⟨c₁, pc₁⟩, hcancel, heq⟩ := Option.map_eq_some_iff.mp h
      cases heq
      refine ⟨rfl, jobLines_of_writes ((advanceCancel_frame hcancel).2.1.mono fun o ho => ?_)⟩
      rcases ho with rfl | ⟨rfl, -⟩ <;> simp
  | final err =>
    cases h
    exact ⟨rfl, rfl⟩
  | finished err => cases h
  | _ => cases hpc

/-- No line has been written under a name no task has yet. -/
def Unused (n : ℕ) (s : Sys) : Prop := n ≤ s.tasks.length ∧ ∀ t, n ≤ t → s.core.jobLines t = []

/-- The invariant: the alarm is shown, and the jobs of the tasks from number `n` on have not
got to sending a line. -/
structure AlarmKept (n : ℕ) (s : Sys) : Prop where
  alarm : s.core.isAlarm = true
  unused : Unused n s
  barren : ∀ t job pc, n ≤ t → s.tasks[t]? = some (.stream job pc) → pc.barren = true

section Session

variable {n : ℕ} {s u : Sys} {l : Label}

/-- An alarm is left only by a `set_hold` that has been written, or a status report. -/
theorem step_isAlarm (hs : Sys.step l s = some u) (halarm : s.core.isAlarm = true)
    (hmask : unmasked s (.session l) = true) (hreport : unreported s (.session l) = true) :
    u.core.isAlarm = true := by
  have hkeep : u.core.state.status = s.core.state.status → u.core.isAlarm = true := by
    intro h
    unfold Core.isAlarm
    rw [h]
    exact halarm
  by_cases hl : ∃ i ch, l = .task i ch
  · obtain ⟨i, ch, rfl⟩ := hl
    obtain ⟨b, c', b', spawned, hb, -, -, hadv, rfl⟩ := Sys.step_task hs
    rcases advance_status hadv with h | ⟨job, rfl, rfl⟩ | ⟨on, rfl⟩
    · exact hkeep h
    · -- `start_job` leaves an alarm alone
      refine hkeep ?_
      have hstatus : s.core.state.status = .alarm := by simpa [Core.isAlarm] using halarm
      show (if s.core.state.status = .run ∨ s.core.state.status = .alarm then
        s.core.state.status else .run) = s.core.state.status
      rw [if_pos (.inr hstatus)]
    · simp only [unmasked, hb, halarm] at hmask
      cases hmask
  · cases l with
    | task i ch => exact absurd ⟨i, ch, rfl⟩ hl
    | call op =>
      simp only [Sys.step] at hs
      split_ifs at hs
      cases hs
      exact halarm
    | drop i =>
      simp only [Sys.step, Sys.dropTask] at hs
      split at hs
      case isFalse => cases hs
      cases hs
      exact halarm
    | rx data =>
      simp only [Sys.step, Sys.outside] at hs
      split_ifs at hs
      cases hs
      exact hkeep (handleRx_status (by simpa [unreported] using hreport))
    | poll err =>
      simp only [Sys.step, Sys.outside] at hs
      split_ifs at hs
      cases hs
      unfold Sys.pollStatus
      split_ifs <;> exact halarm
    | _ =>
      simp only [Sys.step, Sys.outside] at hs
      split_ifs at hs
      cases hs
      exact halarm

/-- **What every step keeps**, as long as no `set_hold` masks the alarm and the device reports
nothing. -/
theorem AlarmKept.step (h : AlarmKept n s) (hs : Sys.step l s = some u)
    (hmask : unmasked s (.session l) = true) (hreport : unreported s (.session l) = true) :
    AlarmKept n u := by
  have hlines : ∀ t, n ≤ t → u.core.jobLines t = [] ∧
      ∀ job pc, u.tasks[t]? = some (.stream job pc) → pc.barren = true := by
    intro t ht
    by_cases hown : ∃ ch job pc, l = .task t ch ∧ s.tasks[t]? = some (.stream job pc)
    · obtain ⟨ch, job, pc, rfl, hb⟩ := hown
      obtain ⟨b, c', b', spawned, hb', -, -, hadv, rfl⟩ := Sys.step_task hs
      obtain rfl : b = .stream job pc := Option.some.inj (hb'.symm.trans hb)
      obtain ⟨⟨c₁, pc'⟩, hstep, heq⟩ := Option.map_eq_some_iff.mp hadv
      cases heq
      -- its own step: in an alarm it can only head for its end
      obtain ⟨hbarren, hjob⟩ := StreamPc.barren_step hstep h.alarm (h.barren t job pc ht hb)
      refine ⟨hjob.trans (h.unused.2 t ht), fun job' pc₁ hu => ?_⟩
      rw [List.append_nil, List.getElem?_set_self (List.getElem?_eq_some_iff.mp hb).1] at hu
      cases hu
      exact hbarren
    · refine ⟨(jobLines_step hs fun ch b hl hb => ?_).trans (h.unused.2 t ht),
        fun job pc hu => ?_⟩
      · cases b with
        | stream job pc => exact absurd ⟨ch, job, pc, hl, hb⟩ hown
        | _ => rfl
      · cases hb : s.tasks[t]? with
        | none =>
          rcases Sys.step_new hs hb hu with ⟨op, -, hop⟩ | ⟨i, ch, job', -, -, hjob⟩ | hq
          · cases op <;> cases hop
          -- a stream spawned now has not begun
          · cases hjob
            rfl
          · cases hq
        | some b =>
          by_cases hl : ∃ ch, l = .task t ch
          · obtain ⟨ch, rfl⟩ := hl
            obtain ⟨b₀, c', b', spawned, hb₀, -, -, hadv, rfl⟩ := Sys.step_task hs
            have hlen := (List.getElem?_eq_some_iff.mp hb₀).1
            rw [List.getElem?_append_left (by rw [List.length_set]; exact hlen),
              List.getElem?_set_self hlen] at hu
            cases hu
            have hkind := advance_isStream hadv
            cases b₀ with
            | stream job' pc' => exact absurd ⟨ch, job', pc', rfl, hb₀⟩ hown
            | _ => cases hkind
          · have hu' := Sys.step_tasks hs hb fun ch hch => hl ⟨ch, hch⟩
            cases hu'.symm.trans hu
            exact h.barren t job pc ht hb
  exact ⟨step_isAlarm hs h.alarm hmask hreport,
    ⟨h.unused.1.trans (Sys.step_length hs), fun t ht => (hlines t ht).1⟩,
    fun t job pc ht hu => (hlines t ht).2 job pc hu⟩

/-- The same for the session with `home`. -/
theorem AlarmKept.driver {l : DriverLabel} (h : AlarmKept n s) (hs : driverStep l s = some u)
    (hok : unmasked s l = true ∧ unreported s l = true) : AlarmKept n u := by
  cases l with
  | session l => exact h.step hs hok.1 hok.2
  | homed =>
    simp only [driverStep, Sys.outside] at hs
    split_ifs at hs
    cases hs
    exact ⟨h.alarm, h.unused, h.barren⟩

/-- In every run the names of tasks to come are unused. -/
theorem unused_of_run {s₀ : Sys} (h0 : Fresh s₀) (hr : Run driverStep AnyStep s₀ s) :
    Unused s.tasks.length s := by
  refine hr.invariant (I := fun s => Unused s.tasks.length s) ?_ ⟨Nat.le_refl _, fun t _ => ?_⟩
  · intro a l b h hs _
    refine ⟨Nat.le_refl _, fun t ht => ?_⟩
    cases l with
    | session l =>
      have hlen := (Sys.step_length hs).trans ht
      refine (jobLines_step hs fun ch b _ hb => ?_).trans (h.2 t hlen)
      rw [List.getElem?_eq_none_iff.mpr hlen] at hb
      cases hb
    | homed =>
      simp only [driverStep, Sys.outside] at hs
      split_ifs at hs
      cases hs
      exact h.2 t ht
  · unfold Core.jobLines
    rw [h0.sent]
    rfl

end Session

end Raydriver
