import Raydriver.Grbl.Finish
import Mathlib.Algebra.Order.Ring.Rat
import Mathlib.Tactic.NormNum

/-!
# The timeouts of a job

The timeout of a line is computed when its turn comes, from the configuration and from the
estimate for its op.  The computation panics on a configuration that nobody has checked, and a
panic takes the streaming task with it, past the block that resets the flags of the job.

## Main definitions

* `StallTimeouts`, `buildConfig` — the timeouts of the configuration.
* `StallTimeouts.lineTimeout` — the timeout of a line, if the computation does not panic.
* `Timed`, `Timed.step` — a session whose streaming task can panic.
* `Timely` — no timeout of the job is out of range.
* `Ends j job base v` — the invariant.

## Main results

* `lineTimeout_isSome` — when the timeout of a line can be computed.
* `Ends.step` — the invariant is kept.
* `timely_job_ends` — **a job whose timeouts are in range does not wedge the session**.
-/

namespace Raydriver

open Lts Sys

/-! ### The timeout of a line -/

/-- The timeouts of a `SessionConfig` that bear on the lines of a job, in seconds. -/
structure StallTimeouts where
  stallTimeoutMin : ℚ := 5
  stallTimeoutMax : ℚ := 120
  stallTimeoutSafetyFactor : ℚ := 3
  stallTimeoutDefault : ℚ := 30
  deriving DecidableEq

/-- The same keys of the dictionary a session is made from. -/
structure TimeoutDict where
  stallTimeoutMin : Option ℚ := none
  stallTimeoutMax : Option ℚ := none
  stallTimeoutSafetyFactor : Option ℚ := none
  stallTimeoutDefault : Option ℚ := none
  deriving DecidableEq

/-- `build_config`: every number is taken as it is. -/
def buildConfig (dict : TimeoutDict) : StallTimeouts :=
  let config : StallTimeouts := {}
  { stallTimeoutMin := dict.stallTimeoutMin.getD config.stallTimeoutMin
    stallTimeoutMax := dict.stallTimeoutMax.getD config.stallTimeoutMax
    stallTimeoutSafetyFactor :=
      dict.stallTimeoutSafetyFactor.getD config.stallTimeoutSafetyFactor
    stallTimeoutDefault := dict.stallTimeoutDefault.getD config.stallTimeoutDefault }

/-- `f64::clamp`, which panics if the bounds are the wrong way round. -/
def clamp (v lo hi : ℚ) : Option ℚ :=
  if hi < lo then none
  else some (if v < lo then lo else if hi < v then hi else v)

/-- `SessionConfig::secs`: `Duration::from_secs_f64` panics from 2^64 seconds on. -/
def secs (v : ℚ) : Option ℚ := if max v 0 < 2 ^ 64 then some (max v 0) else none

/-- `op as usize`. -/
def asUsize (op : ℤ) : ℕ := (op % 2 ^ 64).toNat

/-- The estimate for an op, where there is one. -/
def estimate (commandTimes : Option (List ℚ)) (opIndex : Option ℤ) : Option ℚ :=
  commandTimes.bind fun times => opIndex.bind fun op => times[asUsize op]?

namespace StallTimeouts

/-- The timeout of a line, unless the computation panics. -/
def lineTimeout (config : StallTimeouts) (commandTimes : Option (List ℚ)) (opIndex : Option ℤ) :
    Option ℚ :=
  match estimate commandTimes opIndex with
  | some estimated =>
    (clamp (estimated * config.stallTimeoutSafetyFactor) config.stallTimeoutMin
      config.stallTimeoutMax).bind secs
  | none => secs config.stallTimeoutDefault

/-- The bounds are the right way round where a line has an estimate, and the timeout that results
is a duration. -/
def canTime (config : StallTimeouts) (commandTimes : Option (List ℚ)) (opIndex : Option ℤ) :
    Prop :=
  match estimate commandTimes opIndex with
  | some estimated =>
    config.stallTimeoutMin ≤ config.stallTimeoutMax ∧
      max config.stallTimeoutMin (min (estimated * config.stallTimeoutSafetyFactor)
        config.stallTimeoutMax) < 2 ^ 64
  | none => config.stallTimeoutDefault < 2 ^ 64

end StallTimeouts

theorem secs_isSome (v : ℚ) : (secs v).isSome = true ↔ v < 2 ^ 64 := by
  unfold secs
  split_ifs with h
  · exact iff_of_true rfl (lt_of_le_of_lt (le_max_left v 0) h)
  · exact iff_of_false Bool.false_ne_true fun hv => h (max_lt hv (by norm_num))

theorem clamp_eq {v lo hi : ℚ} (h : lo ≤ hi) : clamp v lo hi = some (max lo (min v hi)) := by
  unfold clamp
  rw [if_neg (not_lt.mpr h)]
  congr 1
  split_ifs with hlo hhi
  · rw [min_eq_left (hlo.le.trans h), max_eq_left hlo.le]
  · rw [min_eq_right hhi.le, max_eq_right h]
  · rw [min_eq_left (not_lt.mp hhi), max_eq_right (not_lt.mp hlo)]

/-- **When the timeout of a line can be computed.** -/
theorem lineTimeout_isSome (config : StallTimeouts) (commandTimes : Option (List ℚ))
    (opIndex : Option ℤ) :
    (config.lineTimeout commandTimes opIndex).isSome = true ↔
      config.canTime commandTimes opIndex := by
  unfold StallTimeouts.lineTimeout StallTimeouts.canTime
  cases estimate commandTimes opIndex with
  | none => exact secs_isSome _
  | some estimated =>
    dsimp only
    by_cases h : config.stallTimeoutMin ≤ config.stallTimeoutMax
    · rw [clamp_eq h, Option.bind_some, secs_isSome]
      exact ⟨fun hlt => ⟨h, hlt⟩, fun hlt => hlt.2⟩
    · rw [clamp, if_pos (not_le.mp h), Option.bind_none]
      exact iff_of_false Bool.false_ne_true fun hcan => h hcan.1

/-! ### A streaming task that can panic -/

/-- The next thing the streaming task computes panics: the timeout of a line, that of the final
drain, or the deadline of a wait.  The clock has no instant that is `horizon` seconds ahead. -/
def StreamPc.panics (config : StallTimeouts) (horizon : ℚ) (commandTimes : Option (List ℚ))
    (job : Job) (c : Core) : StreamPc → Bool
  | .loopTop idx (rawLine :: _) =>
    !(c.isCancelled || c.jobException.isSome || c.isAlarm) &&
      !(stripGcodeComments rawLine).isEmpty &&
        (config.lineTimeout commandTimes (job.opIndex idx)).isNone
  | .spaceCheck s =>
    (config.lineTimeout commandTimes s.opIndex).any fun timeout => decide (horizon ≤ timeout)
  | .afterLoop =>
    !c.isCancelled && c.jobException.isNone && (secs config.stallTimeoutDefault).isNone
  | .drainTop =>
    !(c.flow.pending.isEmpty || c.jobException.isSome || c.isAlarm || c.isCancelled) &&
      (secs config.stallTimeoutDefault).any fun timeout => decide (horizon ≤ timeout)
  | _ => false

/-- The streaming task `t` panics: its future is dropped, and its guards run. -/
def Sys.panicked (t : ℕ) (s : Sys) : Sys :=
  { s with
    active := none
    core := { s.core with
      ended := t :: s.core.ended
      cmdLock := if s.core.cmdLock = some t then none else s.core.cmdLock } }

/-- A session whose streaming task can panic.  An observer notes whether the job has been
cancelled since it was started. -/
structure Timed where
  sys : Sys
  cancelled : Bool := false

/-- The step starts a job. -/
def Sys.startsJob (s : Sys) : Label → Bool
  | .task i _ =>
    match s.tasks[i]? with
    | some (.run _ .begin) => true
    | _ => false
  | _ => false

section Timed

variable (config : StallTimeouts) (horizon : ℚ) (commandTimes : Option (List ℚ))

/-- The task that panics in the step, if there is one. -/
def Sys.panicking (s : Sys) : Label → Option ℕ
  | .task t _ =>
    match s.tasks[t]? with
    | some (.stream job pc) =>
      if pc.panics config horizon commandTimes job s.core then some t else none
    | _ => none
  | _ => none

/-- A step of the session with the timeouts of the job. -/
def Timed.step (l : Label) (v : Timed) : Option Timed :=
  (Sys.step l v.sys).map fun u =>
    match v.sys.panicking config horizon commandTimes l with
    | some t => { v with sys := v.sys.panicked t }
    | none =>
      { sys := u, cancelled := (v.cancelled && !v.sys.startsJob l) || u.core.isCancelled }

/-- **No timeout of the job is out of range**: those of its lines and that of the drain can be
computed, and the clock has the instants at which they expire. -/
structure Timely (job : Job) : Prop where
  lines : ∀ idx raw, job.lines[idx]? = some raw → stripGcodeComments raw ≠ [] →
    config.canTime commandTimes (job.opIndex idx)
  waits : ∀ idx raw timeout, job.lines[idx]? = some raw → stripGcodeComments raw ≠ [] →
    config.lineTimeout commandTimes (job.opIndex idx) = some timeout → timeout < horizon
  drain : config.stallTimeoutDefault < 2 ^ 64
  drainWait : ∀ timeout, secs config.stallTimeoutDefault = some timeout → timeout < horizon

end Timed

/-! ### Where the streaming task is in its job -/

/-- A line on its way is one of the job that is not empty, and its op is looked up under its
index. -/
def Send.placed (job : Job) (s : Send) : Prop :=
  (∃ raw, job.lines[s.lineIdx]? = some raw ∧ stripGcodeComments raw ≠ []) ∧
    s.opIndex = job.opIndex s.lineIdx ∧ s.rest = job.lines.drop (s.lineIdx + 1)

/-- The stall, if it is one, is that of a line of the job. -/
def Site.placed (job : Job) : Site → Prop
  | .stall s => s.placed job
  | .drain => True

/-- The lines still to send are those behind the ones that have had their turn. -/
def StreamPc.placed (job : Job) : StreamPc → Prop
  | .loopTop idx rest | .yielded idx rest => rest = job.lines.drop idx
  | .lockWait s | .locked s | .spaceCheck s | .spaceWait s | .send s | .writing s _ | .stall s
  | .stallEnd s _ | .afterSend s => s.placed job
  | .poll w | .pollSend w _ | .pollWriting w _ _ | .pollFailed w | .pollAwait w _ _
  | .pollSleep w _ _ | .pollDone w _ | .pollEnd w _ | .recover w | .recoverStart w
  | .recoverSpace w | .recoverSend w | .recoverWriting w | .recoverSent w | .recoverDrain w
  | .recoverReset w | .recoverEnd w => w.placed job
  | _ => True

theorem advanceStream_placed {t : ℕ} {job : Job} {ch : Choice} {c c' : Core} {pc pc' : StreamPc}
    (h : advanceStream t job ch c pc = some (c', pc')) (hp : pc.placed job) : pc'.placed job := by
  cases pc with
  | start =>
    cases h
    exact rfl
  | loopTop idx rest =>
    cases rest with
    | nil =>
      cases h
      exact trivial
    | cons rawLine rest =>
      -- the rest of the lines starts at the index
      have hline : job.lines[idx]? = some rawLine := by
        rw [← List.head?_drop, ← (hp : _ = job.lines.drop idx)]
        rfl
      have hrest : rest = job.lines.drop (idx + 1) := by
        rw [← List.tail_drop, ← (hp : _ = job.lines.drop idx)]
        rfl
      simp only [advanceStream] at h
      split_ifs at h with hstop hempty <;> cases h
      · exact trivial
      · exact hrest
      · exact ⟨⟨rawLine, hline, fun hnil => hempty (by rw [hnil]; rfl)⟩, rfl, hrest⟩
  | afterSend s =>
    simp only [advanceStream] at h
    split_ifs at h <;> cases h
    · exact trivial
    · exact hp.2.2
  | writing s err =>
    cases err <;> cases h
    · exact hp
    · exact trivial
  | stall s =>
    cases h
    split_ifs <;> exact hp
  | stallEnd s handled => cases handled <;> cases h <;> exact hp
  | poll w => cases w <;> cases h <;> exact hp
  | pollWriting w before err => cases err <;> cases h <;> exact hp
  | pollAwait w before left => cases left <;> cases h <;> exact hp
  | pollEnd w idle =>
    cases w <;> simp only [advanceStream] at h <;> split_ifs at h <;> cases h <;> exact hp
  | recover w =>
    cases w <;> simp only [advanceStream] at h <;> split_ifs at h <;> cases h <;> exact hp
  | recoverStart w =>
    cases h
    split_ifs <;> exact hp
  | recoverSent w =>
    cases h
    split_ifs <;> exact hp
  | recoverEnd w => cases w <;> cases h <;> exact hp
  | outcome err =>
    cases err <;> simp only [advanceStream] at h <;> (try split_ifs at h) <;> cases h <;>
      exact trivial
  | cancelling pc e =>
    simp only [advanceStream] at h
    split at h
    · cases h
      exact trivial
    · obtain ⟨⟨c₁, pc₁⟩, -, h2⟩ := Option.map_eq_some_iff.mp h
      cases h2
      exact trivial
  | _ =>
    simp only [advanceStream] at h
    try split_ifs at h
    all_goals cases h
    all_goals first
      | exact hp
      | exact trivial

/-- A timely job does not make its streaming task panic. -/
theorem Timely.not_panics {config : StallTimeouts} {horizon : ℚ} {commandTimes : Option (List ℚ)}
    {job : Job} (h : Timely config horizon commandTimes job) {c : Core} {pc : StreamPc}
    (hp : pc.placed job) : pc.panics config horizon commandTimes job c = false := by
  cases pc with
  | loopTop idx rest =>
    cases rest with
    | nil => rfl
    | cons rawLine rest =>
      have hline : job.lines[idx]? = some rawLine := by
        rw [← List.head?_drop, ← (hp : _ = job.lines.drop idx)]
        rfl
      simp only [StreamPc.panics]
      by_cases hempty : stripGcodeComments rawLine = []
      · rw [hempty]
        simp
      · have hsome := (lineTimeout_isSome config commandTimes _).mpr (h.lines idx rawLine hline hempty)
        rw [Option.isSome_iff_exists] at hsome
        obtain ⟨timeout, htimeout⟩ := hsome
        rw [htimeout]
        exact Bool.and_false _
  | spaceCheck s =>
    obtain ⟨⟨raw, hraw, hne⟩, hop, -⟩ := hp
    simp only [StreamPc.panics, hop]
    cases htimeout : config.lineTimeout commandTimes (job.opIndex s.lineIdx) with
    | none => rfl
    | some timeout =>
      exact decide_eq_false (not_le.mpr (h.waits _ _ _ hraw hne htimeout))
  | afterLoop =>
    have hsome := (secs_isSome config.stallTimeoutDefault).mpr h.drain
    rw [Option.isSome_iff_exists] at hsome
    obtain ⟨timeout, htimeout⟩ := hsome
    simp only [StreamPc.panics, htimeout]
    exact Bool.and_false _
  | drainTop =>
    simp only [StreamPc.panics]
    cases htimeout : secs config.stallTimeoutDefault with
    | none => exact Bool.and_false _
    | some timeout =>
      rw [Option.any_some, decide_eq_false (not_le.mpr (h.drainWait _ htimeout)), Bool.and_false]
  | _ => rfl

/-! ### The end of a job -/

/-- The job is running, or has been cancelled, or its end has been reported. -/
def Timed.told (base : ℕ) (v : Timed) : Prop :=
  v.sys.core.jobRunning = true ∨ v.cancelled = true ∨ base < v.sys.core.finishes

/-- What holds while the run is at a counter. -/
def RunPc.ends (base : ℕ) (v : Timed) : RunPc → Prop
  | .begin => ∀ t job pc, v.sys.tasks[t]? = some (.stream job pc) → v.sys.alive t = false
  | .abort | .abortWait _ | .spawn => v.told base
  | .join t => v.told base ∧ (v.sys.core.jobRunning = true → v.sys.alive t = true)
  | .returned => v.told base ∧ v.sys.core.jobRunning = false
  | _ => False

/-- **The invariant**: while the job is marked as running, the task that will unmark it is alive,
and what unmarks it leaves a trace. -/
structure Ends (j : ℕ) (job : Job) (base : ℕ) (v : Timed) : Prop extends Sole j job v.sys where
  ends : ∀ pc, v.sys.tasks[j]? = some (.run job pc) → pc.ends base v
  noted : v.sys.tasks[j]? ≠ some (.run job .begin) → v.sys.core.isCancelled = true →
    v.cancelled = true
  counts : base ≤ v.sys.core.finishes
  fails : ∀ t job' pc, v.sys.tasks[t]? = some (.stream job' pc) → v.sys.alive t = true →
    pc.quitting = true → v.cancelled = true
  placed : ∀ t job' pc, v.sys.tasks[t]? = some (.stream job' pc) → v.sys.alive t = true →
    job' = job ∧ pc.placed job
  fresh : ∀ i, v.sys.tasks.length ≤ i →
    v.sys.alive i = true ∧ v.sys.core.streamTask ≠ some i

/-- A `cancel` that aborts the streaming task finds the job marked as stopped. -/
def abortsStopped (s : Sys) : Label → Bool
  | .task i _ =>
    match s.tasks[i]? with
    | some (.cancel _ (.abort _)) => s.core.streamTask.all fun t =>
      s.core.ended.contains t || !s.core.jobRunning
    | _ => true
  | _ => true

section Ends

variable {i j t base : ℕ} {job : Job} {ch : Choice} {l : Label} {v : Timed} {u : Sys}
  {b b' : Body} {c' : Core} {spawned : List Body}

/-- What a step makes of the observer's note. -/
def Timed.next (l : Label) (v : Timed) (u : Sys) : Timed :=
  { sys := u, cancelled := (v.cancelled && !v.sys.startsJob l) || u.core.isCancelled }

theorem Ends.tame (h : Ends j job base v) : v.sys.Tame := by
  intro i b hb
  by_cases hij : i = j
  · subst hij
    obtain ⟨pc, hj⟩ := h.run
    obtain rfl : b = .run job pc := Option.some.inj (hb.symm.trans hj)
    have hends := h.ends pc hj
    exact .inr ⟨job, pc, rfl, by cases pc <;> first | rfl | exact hends.elim⟩
  · exact .inl (h.others i b hij hb)

/-- Only the run of the job can start it. -/
theorem Ends.begins (h : Ends j job base v) {job' : Job}
    (hi : v.sys.tasks[i]? = some (.run job' .begin)) : i = j ∧ job' = job := by
  by_cases hij : i = j
  · subst hij
    obtain ⟨pc, hj⟩ := h.run
    cases hi.symm.trans hj
    exact ⟨rfl, rfl⟩
  · cases h.others i _ hij hi

theorem Ends.no_begin (h : Ends j job base v)
    (hj : v.sys.tasks[j]? ≠ some (.run job .begin)) (i : ℕ) (job' : Job) :
    v.sys.tasks[i]? ≠ some (.run job' .begin) := fun hi => by
  obtain ⟨rfl, rfl⟩ := h.begins hi
  exact hj hi

/-- The note of a cancellation is kept until a job starts. -/
theorem Ends.note_kept (h : Ends j job base v) (hj : v.sys.tasks[j]? ≠ some (.run job .begin))
    (hc : v.cancelled = true) : (v.next l u).cancelled = true := by
  have hno : v.sys.startsJob l = false := by
    unfold startsJob
    split
    · split
      · rename_i job' hi
        exact absurd hi (h.no_begin hj _ job')
      · rfl
    · rfl
  show ((v.cancelled && !v.sys.startsJob l) || u.core.isCancelled) = true
  rw [hc, hno]
  rfl

/-- What unmarks the job leaves a trace. -/
theorem Ends.told_step (h : Ends j job base v) (hs : Sys.step l v.sys = some u)
    (hkeep : l.keepsJob = true) (hj : v.sys.tasks[j]? ≠ some (.run job .begin))
    (htold : v.told base) : (v.next l u).told base := by
  have hkept : u.core.jobRunning = v.sys.core.jobRunning →
      v.sys.core.finishes ≤ u.core.finishes → (v.next l u).told base := by
    intro hrun hfin
    rcases htold with htold | htold | htold
    · exact .inl (hrun.trans htold)
    · exact .inr (.inl (h.note_kept hj htold))
    · exact .inr (.inr (Nat.lt_of_lt_of_le htold hfin))
  by_cases hl : ∃ i ch, l = .task i ch
  · obtain ⟨i, ch, rfl⟩ := hl
    obtain ⟨b, c', b', spawned, hb, halive, -, hadv, rfl⟩ := Sys.step_task hs
    obtain ⟨hdebt, -⟩ := advance_debt hadv (h.tame i b hb)
    cases hdebt with
    | same hrun hfin _ _ => exact hkept hrun hfin.ge
    | pays hrun hfin _ _ _ =>
      refine hkept hrun ?_
      show v.sys.core.finishes ≤ c'.finishes
      omega
    | starts job' hb' _ _ _ => exact absurd (hb' ▸ hb) (h.no_begin hj i job')
    | takes _ _ hcan _ _ _ =>
      refine .inr (.inl ?_)
      show (_ || c'.isCancelled) = true
      rw [hcan, Bool.or_true]
    | closes job' err hb' hrun hfin _ hcan =>
      subst hb'
      cases err with
      | some e => exact .inr (.inl (h.note_kept hj (h.fails i job' _ hb halive rfl)))
      | none =>
        by_cases hc : v.sys.core.isCancelled = true
        · exact .inr (.inl (h.note_kept hj (h.noted hj hc)))
        · refine .inr (.inr ?_)
          show base < c'.finishes
          rw [hfin, Bool.eq_false_iff.mpr hc]
          exact Nat.lt_succ_of_le h.counts
  · have hno : ∀ i ch, l ≠ .task i ch := fun i ch hi => hl ⟨i, ch, hi⟩
    exact hkept (Sys.step_aside hs hno).2.2.1 (aside_debt hs hno hkeep).2.1.ge

/-- While the job is marked as running, the task the run waits for is alive. -/
theorem Ends.alive_step (h : Ends j job base v) (hs : Sys.step l v.sys = some u)
    (hkeep : l.keepsJob = true) (hok : abortsStopped v.sys l = true)
    (hj : v.sys.tasks[j]? = some (.run job (.join t))) (hrun' : u.core.jobRunning = true)
    (halive : v.sys.core.jobRunning = true → v.sys.alive t = true) : u.alive t = true := by
  have hne : v.sys.tasks[j]? ≠ some (.run job .begin) := by
    rw [hj]
    simp
  have hrun := not_started h.tame hs (h.no_begin hne) hrun'
  by_cases hl : ∃ i ch, l = .task i ch
  · obtain ⟨i, ch, rfl⟩ := hl
    obtain ⟨b, c', b', spawned, hb, -, -, hadv, rfl⟩ := Sys.step_task hs
    obtain ⟨-, hmove⟩ := advance_debt hadv (h.tame i b hb)
    rcases hmove.alive (halive hrun) with hu | ⟨-, job', err, rfl⟩ | ⟨hslot, hended, hcause⟩
    · exact hu
    · -- the streaming task ends: the flag is cleared
      cases hadv
      cases hrun'
    · rcases hcause with ⟨em, was, rfl⟩ | ⟨job', rfl⟩
      · simp only [abortsStopped, hb, hslot, Option.all_some, hended, hrun] at hok
        cases hok
      · by_cases hij : i = j
        · subst hij
          cases hb.symm.trans hj
        · cases h.others i _ hij hb
  · rw [(aside_debt hs (fun i ch hi => hl ⟨i, ch, hi⟩) hkeep).1 t]
    exact halive hrun

/-- The run goes from counter to counter. -/
theorem Ends.ends_step (h : Ends j job base v) (hs : Sys.step l v.sys = some u)
    (hkeep : l.keepsJob = true) (hok : abortsStopped v.sys l = true) {pc : RunPc}
    (hu : u.tasks[j]? = some (.run job pc)) : pc.ends base (v.next l u) := by
  obtain ⟨pc₀, hj⟩ := h.run
  have hends := h.ends pc₀ hj
  have htold : pc₀ ≠ .begin → v.told base → (v.next l u).told base := fun hne =>
    h.told_step hs hkeep (by rw [hj]; simpa using hne)
  by_cases hl : ∃ ch, l = .task j ch
  · obtain ⟨ch, rfl⟩ := hl
    obtain ⟨b, c', b', spawned, hb, -, -, hadv, hu'⟩ := Sys.step_task hs
    cases hb.symm.trans hj
    obtain ⟨⟨c₁, pc₁, sp⟩, hadv', heq⟩ := Option.map_eq_some_iff.mp hadv
    cases heq
    have hlen : j < v.sys.tasks.length := (List.getElem?_eq_some_iff.mp hj).1
    have hnew : u.tasks[j]? = some (.run job pc₁) := by
      rw [hu']
      show (v.sys.tasks.set j (.run job pc₁) ++ if sp then [.stream job .start] else [])[j]? = _
      rw [List.getElem?_append_left (by rw [List.length_set]; exact hlen),
        List.getElem?_set_self hlen]
    obtain rfl : pc₁ = pc := by simpa using hnew.symm.trans hu
    cases pc₀ with
    | begin =>
      cases hadv'
      refine .inl ?_
      show u.core.jobRunning = true
      rw [hu']
      rfl
    | abort =>
      simp only [advanceRun] at hadv'
      split at hadv'
      · cases hadv'
        exact htold (by simp) hends
      · split_ifs at hadv' <;> cases hadv' <;> exact htold (by simp) hends
    | abortWait t =>
      simp only [advanceRun] at hadv'
      split_ifs at hadv'
      cases hadv'
      exact htold (by simp) hends
    -- the new streaming task is alive
    | spawn =>
      cases hadv'
      refine ⟨htold (by simp) hends, fun _ => ?_⟩
      show u.alive _ = true
      rw [hu']
      exact (h.fresh _ (Nat.le_refl _)).1
    | join t =>
      simp only [advanceRun] at hadv'
      split at hadv' <;> cases hadv'
      rename_i hended
      refine ⟨htold (by simp) hends.1, ?_⟩
      show u.core.jobRunning = false
      rw [hu']
      show v.sys.core.jobRunning = false
      -- a stream that has ended on its own has cleared the flag
      by_contra hrun
      have halive := hends.2 (by simpa using hrun)
      rw [alive_eq_false.mpr (.inr (List.contains_iff_mem.mp hended))] at halive
      cases halive
    | returned => cases hadv'
    | _ => exact hends.elim
  · have hne : ∀ ch, l ≠ .task j ch := fun ch hch => hl ⟨ch, hch⟩
    have hsame := Sys.step_tasks hs hj hne
    obtain rfl : pc₀ = pc := by simpa using hsame.symm.trans hu
    -- the run only waits, and the others tell what they owe
    have hsusp := Sys.step_waits (b := .run job pc₀) hs hne (h.waits j _ hj)
    cases pc₀ with
    | join t =>
      exact ⟨htold (by simp) hends.1, fun hrun' => h.alive_step hs hkeep hok hj hrun' hends.2⟩
    | returned =>
      refine ⟨htold (by simp) hends.1, ?_⟩
      show u.core.jobRunning = false
      by_contra hrun'
      have hrun := not_started h.tame hs (h.no_begin (by rw [hj]; simp)) (by simpa using hrun')
      cases hrun.symm.trans hends.2
    | abortWait t => exact htold (by simp) hends
    | rawWriting realtime err => exact hends.elim
    | _ => cases hsusp

/-- A live streaming task is one of a job that has been started. -/
theorem Ends.begun {job' : Job} {pc : StreamPc} (h : Ends j job base v)
    (ht : v.sys.tasks[t]? = some (.stream job' pc)) (halive : v.sys.alive t = true) :
    v.sys.tasks[j]? ≠ some (.run job .begin) := by
  intro hj
  cases (h.ends _ hj t job' pc ht).symm.trans halive

/-- A streaming task that gives up its job has been cancelled. -/
theorem Ends.fails_step (h : Ends j job base v) (hs : Sys.step l v.sys = some u) (job' : Job)
    (pc : StreamPc) (ht : u.tasks[t]? = some (.stream job' pc)) (halive : u.alive t = true)
    (hpc : pc.quitting = true) : (v.next l u).cancelled = true := by
  have hnoted : u.core.isCancelled = true → (v.next l u).cancelled = true := fun hcan => by
    show (_ || u.core.isCancelled) = true
    rw [hcan, Bool.or_true]
  rcases Sys.step_stream hs ht with ⟨pc₀, ht₀, hmove⟩ | ⟨-, rfl, -⟩
  · have halive₀ := Sys.alive_of_step hs halive
    have hj := h.begun ht₀ halive₀
    have hquit : pc₀.quitting = true → (v.next l u).cancelled = true := fun hq =>
      h.note_kept hj (h.fails t job' pc₀ ht₀ halive₀ hq)
    rcases hmove with ⟨rfl, -⟩ | ⟨ch, rfl, -, -, hadv⟩
    · exact hquit hpc
    · rcases advanceStream_quits hadv hpc with hq | hcan | ⟨-, hcan⟩
      · exact hquit hq
      · exact h.note_kept hj (h.noted hj hcan)
      · exact hnoted hcan
  · cases hpc

/-- A streaming task goes through the lines of the job in order. -/
theorem Ends.placed_step (h : Ends j job base v) (hs : Sys.step l v.sys = some u) (job' : Job)
    (pc : StreamPc) (ht : u.tasks[t]? = some (.stream job' pc)) (halive : u.alive t = true) :
    job' = job ∧ pc.placed job := by
  rcases Sys.step_stream hs ht with ⟨pc₀, ht₀, hmove⟩ | ⟨-, rfl, i, ch, rfl, hi⟩
  · obtain ⟨rfl, hplaced⟩ := h.placed t job' pc₀ ht₀ (Sys.alive_of_step hs halive)
    rcases hmove with ⟨rfl, -⟩ | ⟨ch, rfl, -, -, hadv⟩
    · exact ⟨rfl, hplaced⟩
    · exact ⟨rfl, advanceStream_placed hadv hplaced⟩
  · by_cases hij : i = j
    · subst hij
      obtain ⟨pc, hj⟩ := h.run
      cases hi.symm.trans hj
      exact ⟨rfl, trivial⟩
    · cases h.others i _ hij hi

/-- Reports are never taken back. -/
theorem Ends.counts_step (h : Ends j job base v) (hs : Sys.step l v.sys = some u)
    (hkeep : l.keepsJob = true) : base ≤ u.core.finishes := by
  refine h.counts.trans ?_
  by_cases hl : ∃ i ch, l = .task i ch
  · obtain ⟨i, ch, rfl⟩ := hl
    obtain ⟨b, c', b', spawned, hb, -, -, hadv, rfl⟩ := Sys.step_task hs
    show v.sys.core.finishes ≤ c'.finishes
    obtain ⟨hdebt, -⟩ := advance_debt hadv (h.tame i b hb)
    cases hdebt with
    | same _ hfin _ _ | starts _ _ _ hfin _ | takes _ _ _ hfin _ _ => exact hfin.ge
    | pays _ hfin _ _ _ | closes _ _ _ _ hfin _ _ => omega
  · exact (aside_debt hs (fun i ch hi => hl ⟨i, ch, hi⟩) hkeep).2.1.ge

/-- **The invariant is kept.** -/
theorem Ends.step (h : Ends j job base v) (hs : Sys.step l v.sys = some u)
    (hkeep : l.keepsJob = true) (hok : abortsStopped v.sys l = true) :
    Ends j job base (v.next l u) where
  toSole := h.toSole.step hs hkeep
  ends := fun _ hu => h.ends_step hs hkeep hok hu
  noted := fun _ hcan => by
    show (_ || u.core.isCancelled) = true
    rw [show u.core.isCancelled = true from hcan, Bool.or_true]
  counts := h.counts_step hs hkeep
  fails := fun _ job' pc ht halive hpc => h.fails_step hs job' pc ht halive hpc
  placed := fun _ job' pc ht halive => h.placed_step hs job' pc ht halive
  fresh := fun _ hi => fresh_step h.tame h.fresh hs hkeep hi

/-- A timely job runs as if nothing could panic. -/
theorem Ends.not_panicking {config : StallTimeouts} {horizon : ℚ} {commandTimes : Option (List ℚ)}
    (h : Ends j job base v) (htimely : Timely config horizon commandTimes job)
    (hs : Sys.step l v.sys = some u) : v.sys.panicking config horizon commandTimes l = none := by
  unfold panicking
  split
  · rename_i t ch
    obtain ⟨b, c', b', spawned, hb, halive, -⟩ := Sys.step_task hs
    split
    · rename_i job' pc ht
      obtain ⟨rfl, hplaced⟩ := h.placed t job' pc ht halive
      rw [htimely.not_panics hplaced]
      rfl
    · rfl
  · rfl

/-- The call of the run. -/
theorem Ends.of_call {s : Sys} (h : AtRest s) (hcall : Sys.step (.call (.run job)) s = some u) :
    Ends s.tasks.length job s.core.finishes { sys := u } := by
  have hdue := Due.of_call h hcall
  have hbegin : u.tasks[s.tasks.length]? = some (.run job .begin) := by
    simp only [Sys.step] at hcall
    split_ifs at hcall
    cases hcall
    simp [Call.body]
  have hfin : u.core.finishes = s.core.finishes := by
    simp only [Sys.step] at hcall
    split_ifs at hcall
    cases hcall
    rfl
  have hdead : ∀ t job' pc, u.tasks[t]? = some (.stream job' pc) → u.alive t = false := by
    intro t job' pc ht
    by_contra halive
    cases hbegin.symm.trans (hdue.joins t job' pc ht (by simpa using halive))
  have hno : ∀ {p : Prop} t job' pc, u.tasks[t]? = some (.stream job' pc) → u.alive t = true → p :=
    fun t job' pc ht halive => by cases (hdead t job' pc ht).symm.trans halive
  refine ⟨hdue.toSole, fun pc hpc => ?_, fun hne => absurd hbegin hne, hfin.ge,
    fun t job' pc ht halive _ => hno t job' pc ht halive,
    fun t job' pc ht halive => hno t job' pc ht halive, hdue.fresh⟩
  obtain rfl : RunPc.begin = pc := by simpa using hbegin.symm.trans hpc
  exact hdead

end Ends

/-- **A job whose timeouts are in range does not wedge the session.**  The timeouts of the lines
can be computed if and only if the bounds are the right way round wherever a line has an estimate,
and what results is a duration.  When the clock has the instants, too, and no `cancel` aborts a
streaming task whose job is still marked as running, then once the run has returned the job is not
marked as running any more, and it has been reported or cancelled. -/
theorem timely_job_ends (dict : TimeoutDict) (horizon : ℚ) (commandTimes : Option (List ℚ))
    (job : Job) :
    ((∀ idx raw, job.lines[idx]? = some raw → stripGcodeComments raw ≠ [] →
        ((buildConfig dict).lineTimeout commandTimes (job.opIndex idx)).isSome = true) ↔
      ∀ idx raw, job.lines[idx]? = some raw → stripGcodeComments raw ≠ [] →
        (buildConfig dict).canTime commandTimes (job.opIndex idx)) ∧
    (Timely (buildConfig dict) horizon commandTimes job → ∀ (s u : Sys) (v : Timed), AtRest s →
      Sys.step (.call (.run job)) s = some u →
      Run (Timed.step (buildConfig dict) horizon commandTimes)
        (fun a l _ => l.keepsJob = true ∧ abortsStopped a.sys l = true) { sys := u } v →
      v.sys.tasks[s.tasks.length]? = some (.run job .returned) →
      v.sys.core.jobRunning = false ∧
        (s.core.finishes < v.sys.core.finishes ∨ v.cancelled = true)) := by
  refine ⟨⟨fun h idx raw hraw hne => (lineTimeout_isSome ..).mp (h idx raw hraw hne),
    fun h idx raw hraw hne => (lineTimeout_isSome ..).mpr (h idx raw hraw hne)⟩, ?_⟩
  intro htimely s u v h0 hcall hrun hreturned
  have hends : Ends s.tasks.length job s.core.finishes v := by
    refine hrun.invariant (fun a l b ha hst hok => ?_) (.of_call h0 hcall)
    obtain ⟨u', hu', rfl⟩ := Option.map_eq_some_iff.mp hst
    -- a timely job never panics, so a step is one of the session
    rw [ha.not_panicking htimely hu']
    exact ha.step hu' hok.1 hok.2
  obtain ⟨htold, hstopped⟩ := hends.ends _ hreturned
  refine ⟨hstopped, ?_⟩
  rcases htold with hrunning | hcancelled | hreported
  · cases hstopped.symm.trans hrunning
  · exact .inr hcancelled
  · exact .inl hreported

/-- One line, whose op has an estimate of one second. -/
def estimated : Job := { lines := ["G1 X1".toList], opMap := some [(0, 0)] }

/-- The call of the run of that job on a new session. -/
def estimatedCalled : Sys := reach Sys.step [.call (.run estimated)] newSession

/-- The general result on the default timeouts: the line is sent and acknowledged. -/
theorem timely_job_ends_default :
    let v := reach (Timed.step (buildConfig {}) (2 ^ 63) (some [1]))
      (turns 0 3 ++ turns 1 8 ++ .rx (ascii "ok\n") :: turns 1 7 ++ turns 0 1)
      { sys := estimatedCalled }
    v.sys.core.jobRunning = false ∧
      (newSession.core.finishes < v.sys.core.finishes ∨ v.cancelled = true) := by
  have hline : ∀ {idx : ℕ} {raw : Text}, estimated.lines[idx]? = some raw → idx = 0 := by
    intro idx raw hraw
    have hlt : idx < 1 := (List.getElem?_eq_some_iff.mp hraw).1
    omega
  have htimely : Timely (buildConfig {}) (2 ^ 63) (some [1]) estimated := by
    refine ⟨fun idx raw hraw _ => ?_, fun idx raw timeout hraw _ h => ?_, by decide +kernel,
      fun timeout h => ?_⟩
    · obtain rfl := hline hraw
      exact (lineTimeout_isSome ..).mp (by decide +kernel)
    · obtain rfl := hline hraw
      obtain rfl : (5 : ℚ) = timeout :=
        Option.some.inj ((show some (5 : ℚ) = _ by decide +kernel).trans h)
      norm_num
    · obtain rfl : (30 : ℚ) = timeout :=
        Option.some.inj ((show some (30 : ℚ) = _ by decide +kernel).trans h)
      norm_num
  have hrun : Run (Timed.step (buildConfig {}) (2 ^ 63) (some [1]))
      (fun a l _ => (l.keepsJob && abortsStopped a.sys l) = true) { sys := estimatedCalled }
      (reach (Timed.step (buildConfig {}) (2 ^ 63) (some [1]))
        (turns 0 3 ++ turns 1 8 ++ .rx (ascii "ok\n") :: turns 1 7 ++ turns 0 1)
        { sys := estimatedCalled }) := run_reach_where (by decide +kernel)
  exact (timely_job_ends {} (2 ^ 63) (some [1]) estimated).2 htimely newSession estimatedCalled _
    atRest_newSession (by rfl) (hrun.mono fun _ _ _ hok => Bool.and_eq_true_iff.mp hok)
    (by decide +kernel)

/-- **A configuration can wedge a job**: the lower bound of the timeouts is above the upper one.
The timeout of the line cannot be computed, and the streaming task panics. -/
theorem config_wedges_job :
    (¬ ∀ (dict : TimeoutDict) (commandTimes : Option (List ℚ)) (job : Job) (idx : ℕ) (raw : Text),
      job.lines[idx]? = some raw → stripGcodeComments raw ≠ [] →
        ((buildConfig dict).lineTimeout commandTimes (job.opIndex idx)).isSome = true) ∧
    ¬ ∀ (dict : TimeoutDict) (commandTimes : Option (List ℚ)) (job : Job) (s u : Sys) (v : Timed),
      AtRest s → Sys.step (.call (.run job)) s = some u →
      Run (Timed.step (buildConfig dict) (2 ^ 63) commandTimes)
        (fun a l _ => l.keepsJob = true ∧ abortsStopped a.sys l = true) { sys := u } v →
      v.sys.tasks[s.tasks.length]? = some (.run job .returned) →
      v.sys.core.jobRunning = false ∧
        (s.core.finishes < v.sys.core.finishes ∨ v.cancelled = true) := by
  let dict : TimeoutDict := { stallTimeoutMin := some 200 }
  constructor
  · intro h
    have hsome := h dict (some [1]) estimated 0 "G1 X1".toList (by decide) (by decide)
    exact absurd hsome (by decide +kernel)
  · intro h
    let v := reach (Timed.step (buildConfig dict) (2 ^ 63) (some [1]))
      (turns 0 3 ++ turns 1 2 ++ turns 0 1) { sys := estimatedCalled }
    have hrun : Run (Timed.step (buildConfig dict) (2 ^ 63) (some [1]))
        (fun a l _ => (l.keepsJob && abortsStopped a.sys l) = true) { sys := estimatedCalled } v :=
      run_reach_where (by decide +kernel)
    have hends := h dict (some [1]) estimated newSession estimatedCalled v atRest_newSession
      (by rfl) (hrun.mono fun _ _ _ hok => Bool.and_eq_true_iff.mp hok) (by decide +kernel)
    exact absurd hends.1 (by decide +kernel)

end Raydriver
