import Raydriver.Grbl.Frames

/-!
# A cancelled job stays silent

`cancel` takes the handle out of `stream_task`, aborts that task and waits for its end
before it sends the safety-off commands.  Every line of a job is written by its own
streaming task, and only while that task is alive; so the question is whether the
task in the slot when `cancel` aborts is the one that was there when it was called.

It need not be: `run_streaming_job` aborts what is in the slot, but between that and
storing its own handle another run may have stored one.  The handle that is written
over belongs to a task nobody can abort any more.

## Main definitions

* `JobLine T e` — the bytes `e` were written by task `T` for its job.
* `SafetyLast i T sent` — no such bytes behind a safety-off command of task `i`.
* `keepsHandle T` — the step does not write over the handle of the live task `T`.

## Main results

* `Cancelling.step` — what one step keeps while the handle is kept.
* `cancelled_job_silent` — **the cancelled job never writes again** on such runs.
* `cancelled_job_resumes` — the job of a handle written over does.
-/

namespace Raydriver

open Lts

/-- Bytes that the streaming task `T` wrote for its job: a line, or the dwell of its
deadlock recovery. -/
def JobLine (T : ℕ) (e : Sent) : Prop := e.origin = .job T ∨ e.origin = .recovery T

/-- Behind a safety-off command of task `i` stands no line of the job of task `T`. -/
def SafetyLast (i T : ℕ) (sent : List Sent) : Prop :=
  sent.Pairwise fun a b => a.origin = .safety i → ¬ JobLine T b

/-- A session that nobody has used: no task, nothing written. -/
structure Sys.Fresh (s : Sys) : Prop where
  tasks : s.tasks = []
  active : s.active = none
  sent : s.core.sent = []
  streamTask : s.core.streamTask = none
  commandTask : s.core.commandTask = none
  cmdLock : s.core.cmdLock = none
  aborted : s.core.aborted = []
  ended : s.core.ended = []

/-- The step does not store a handle over that of task `T` while `T` is alive. -/
def keepsHandle (T : ℕ) (s : Sys) (l : Label) (_ : Sys) : Bool :=
  match l with
  | .task i _ =>
    match s.tasks[i]? with
    | some (.run _ .spawn) => s.core.streamTask != some T || !s.alive T
    | _ => true
  | _ => true

/-! ### Who writes -/

namespace Sys

variable {i j T : ℕ} {ch : Choice} {s u : Sys} {b : Body} {l : Label}

/-- Only task `T` writes lines of its job, and only while it is alive. -/
theorem jobLine_writer {w : List Sent} {e : Sent} (h : Sys.step l s = some u)
    (hw : u.core.sent = s.core.sent ++ w) (he : e ∈ w) (hT : JobLine T e) :
    s.alive T = true ∧ ∃ job pc, s.tasks[T]? = some (.stream job pc) := by
  obtain ⟨w', hw', hP⟩ := step_writes h
  obtain rfl : w' = w := List.append_cancel_left (hw'.symm.trans hw)
  rcases hP e he with hr | ⟨j, ch, b, -, hb, halive, hmay⟩
  · rcases hT with hT | hT <;> exact absurd (hr.symm.trans hT) (by simp)
  · cases b with
    | stream job pc =>
      have hj : j = T := by
        rcases hmay with h | h | h | h <;> rcases hT with hT | hT <;>
          simpa using h.symm.trans hT
      subst hj
      exact ⟨halive, job, pc, hb⟩
    | cancel em pc =>
      rcases hmay with h | ⟨h, -⟩ <;> rcases hT with hT | hT <;>
        exact absurd (h.symm.trans hT) (by simp)
    | queue pc =>
      obtain ⟨r, h⟩ := hmay
      rcases hT with hT | hT <;> exact absurd (h.symm.trans hT) (by simp)
    | interactive command pc =>
      obtain ⟨r, h⟩ := hmay
      rcases hT with hT | hT <;> exact absurd (h.symm.trans hT) (by simp)
    | _ =>
      rcases hT with hT | hT <;> exact absurd (Eq.trans (Eq.symm hmay) hT) (by simp)

/-- Safety-off commands are written by their task, which exists; if it runs `cancel`,
then behind the abort of the streaming task. -/
theorem safety_writer {w : List Sent} {e : Sent} (h : Sys.step l s = some u)
    (hw : u.core.sent = s.core.sent ++ w) (he : e ∈ w) (hi : e.origin = .safety i) :
    ∃ b, s.tasks[i]? = some b ∧ ∀ em pc, b = .cancel em pc → pc.passed = true := by
  obtain ⟨w', hw', hP⟩ := step_writes h
  obtain rfl : w' = w := List.append_cancel_left (hw'.symm.trans hw)
  rcases hP e he with hr | ⟨j, ch, b, -, hb, -, hmay⟩
  · exact absurd (hr.symm.trans hi) (by simp)
  · rw [hi] at hmay
    cases b with
    | stream job pc =>
      have hj : j = i := by
        rcases hmay with h | h | h | h <;> simp at h
        exact h.symm
      subst hj
      exact ⟨_, hb, fun em pc' h => by cases h⟩
    | cancel em pc =>
      rcases hmay with h | ⟨h, hp⟩
      · cases h
      · obtain rfl : i = j := by simpa using h
        refine ⟨_, hb, fun em' pc' h => ?_⟩
        cases h
        exact hp
    | queue pc =>
      obtain ⟨r, h⟩ := hmay
      cases h
    | interactive command pc =>
      obtain ⟨r, h⟩ := hmay
      cases h
    | _ => cases hmay

end Sys

/-! ### The abort -/

/-- Passing its abort, `cancel` leaves the task of the slot dead. -/
theorem advanceCancel_passes {i T : ℕ} {em : Bool} {ch : Choice} {c c' : Core}
    {pc pc' : CancelPc} (h : advanceCancel i false em ch c pc = some (c', pc'))
    (hpc : pc.passed = false) (hpc' : pc'.passed = true) (hT : c.streamTask = some T) :
    T ∈ c'.aborted ∨ T ∈ c'.ended := by
  cases pc with
  | abort was =>
    simp only [advanceCancel, hT, Bool.false_eq_true, if_false] at h
    split_ifs at h with hended <;> cases h
    · exact .inr (List.contains_iff_mem.mp hended)
    · exact .inl List.mem_cons_self
  | start =>
    simp only [advanceCancel] at h
    split_ifs at h <;> cases h <;> cases hpc'
  | ctrlX was err => cases err <;> cases h <;> cases hpc'
  | returned err => cases h
  | _ => cases hpc

/-! ### The invariant -/

/-- While task `i` runs `cancel`, the job of task `T` is dead, or its handle is in the
slot and the abort still to come.  Nothing has been written out of order. -/
structure Cancelling (i T : ℕ) (s : Sys) : Prop where
  cancel : ∃ em pc, s.tasks[i]? = some (.cancel em pc) ∧
    (s.alive T = false ∨ (pc.passed = false ∧ s.core.streamTask = some T))
  dead : (∃ e ∈ s.core.sent, e.origin = .safety i) → s.alive T = false
  order : SafetyLast i T s.core.sent

namespace Cancelling

variable {i T : ℕ} {s u : Sys} {l : Label}

/-- Behind the abort the job is dead. -/
theorem dead_of_passed (h : Cancelling i T s) {em : Bool} {pc : CancelPc}
    (hi : s.tasks[i]? = some (.cancel em pc)) (hpc : pc.passed = true) : s.alive T = false := by
  obtain ⟨em', pc', hi', hdead | ⟨hpc', -⟩⟩ := h.cancel
  · exact hdead
  · rw [hi] at hi'
    cases hi'
    rw [hpc] at hpc'
    cases hpc'

/-- The step of `cancel` itself, and every step that keeps the handle. -/
theorem step_cancel (hs : Sys.step l s = some u) (hk : keepsHandle T s l u = true)
    (h : Cancelling i T s) : ∃ em pc, u.tasks[i]? = some (.cancel em pc) ∧
      (u.alive T = false ∨ (pc.passed = false ∧ u.core.streamTask = some T)) := by
  obtain ⟨em, pc, hi, hpc⟩ := h.cancel
  by_cases hl : ∃ ch, l = .task i ch
  · obtain ⟨ch, rfl⟩ := hl
    obtain ⟨b, c', b', spawned, hb, -, -, hadv, rfl⟩ := Sys.step_task hs
    obtain rfl : b = .cancel em pc := Option.some.inj (hb.symm.trans hi)
    obtain ⟨rfl, pc', rfl, hadv'⟩ := advance_cancel hadv
    have hlen : i < s.tasks.length := (List.getElem?_eq_some_iff.mp hi).1
    refine ⟨em, pc', by simp [hlen], ?_⟩
    rcases hpc with hdead | ⟨hpc, hslot⟩
    · exact .inl (Sys.step_dead hs hdead)
    · by_cases hpc' : pc'.passed = true
      · exact .inl (Sys.alive_eq_false.mpr (advanceCancel_passes hadv' hpc hpc' hslot))
      · rcases (advanceCancel_slot hadv').slot with hkeep | hkill
        · exact .inr ⟨by simpa using hpc', hkeep.trans hslot⟩
        · exact .inl (Sys.alive_eq_false.mpr (hkill T hslot))
  · refine ⟨em, pc, Sys.step_tasks hs hi fun ch hch => hl ⟨ch, hch⟩, ?_⟩
    rcases hpc with hdead | ⟨hpc, hslot⟩
    · exact .inl (Sys.step_dead hs hdead)
    · by_cases hl' : ∃ j ch, l = .task j ch
      · obtain ⟨j, ch, rfl⟩ := hl'
        obtain ⟨b, c', b', spawned, hb, -, -, hadv, rfl⟩ := Sys.step_task hs
        rcases advance_slot hadv with hstep | ⟨job, rfl, rfl⟩
        · rcases hstep.slot with hkeep | hkill
          · exact .inr ⟨hpc, hkeep.trans hslot⟩
          · exact .inl (Sys.alive_eq_false.mpr (hkill T hslot))
        · -- a run that stores its handle: not over that of a live `T`
          simp only [keepsHandle, hb, hslot, bne_self_eq_false, Bool.false_or,
            Bool.not_eq_true'] at hk
          exact .inl (Sys.step_dead hs hk)
      · obtain ⟨-, hkeep, -⟩ := Sys.step_other hs fun j ch hj => hl' ⟨j, ch, hj⟩
        exact .inr ⟨hpc, hkeep.trans hslot⟩

/-- Whoever writes a safety-off command as task `i` finds the job dead. -/
theorem dead_of_safety (hs : Sys.step l s = some u) (h : Cancelling i T s) {w : List Sent}
    {e : Sent} (hw : u.core.sent = s.core.sent ++ w) (he : e ∈ w) (hi : e.origin = .safety i) :
    s.alive T = false := by
  obtain ⟨b, hb, hpassed⟩ := Sys.safety_writer hs hw he hi
  obtain ⟨em, pc, htask, -⟩ := h.cancel
  exact h.dead_of_passed htask (hpassed em pc (Option.some.inj (hb.symm.trans htask)))

/-- **What one step keeps while the handle is kept.** -/
theorem step (hs : Sys.step l s = some u) (hk : keepsHandle T s l u = true)
    (h : Cancelling i T s) : Cancelling i T u := by
  obtain ⟨w, hw, -⟩ := Sys.step_writes hs
  have hdead : ∀ e ∈ u.core.sent, e.origin = .safety i → s.alive T = false := by
    intro e he hi
    rw [hw, List.mem_append] at he
    rcases he with he | he
    · exact h.dead ⟨e, he, hi⟩
    · exact h.dead_of_safety hs hw he hi
  have hjob : ∀ e ∈ w, JobLine T e → s.alive T = true :=
    fun e he hT => (Sys.jobLine_writer hs hw he hT).1
  refine ⟨step_cancel hs hk h, fun ⟨e, he, hi⟩ => Sys.step_dead hs (hdead e he hi), ?_⟩
  -- a new line of the job needs a live task, a safety-off command a dead one
  have hclash : ∀ a ∈ u.core.sent, ∀ b ∈ w, a.origin = .safety i → ¬ JobLine T b := by
    intro a ha b hb hi hT
    have halive := hjob b hb hT
    rw [hdead a ha hi] at halive
    cases halive
  have hmem : ∀ a, a ∈ s.core.sent ∨ a ∈ w → a ∈ u.core.sent := by
    intro a ha
    rw [hw, List.mem_append]
    exact ha
  unfold SafetyLast
  rw [hw, List.pairwise_append]
  refine ⟨h.order, ?_, fun a ha b hb => hclash a (hmem a (.inl ha)) b hb⟩
  exact List.pairwise_of_forall_mem_list fun a ha b hb => hclash a (hmem a (.inr ha)) b hb

end Cancelling

/-! ### Whole runs -/

/-- Safety-off commands are those of tasks there are. -/
theorem safety_lt {s₀ s : Sys} (h0 : s₀.Fresh) (hr : Run Sys.step AnyStep s₀ s) :
    ∀ e ∈ s.core.sent, ∀ i, e.origin = .safety i → i < s.tasks.length := by
  refine hr.invariant (I := fun s => ∀ e ∈ s.core.sent, ∀ i, e.origin = .safety i →
    i < s.tasks.length) ?_ (by rw [h0.sent]; exact fun e he => absurd he List.not_mem_nil)
  intro a l b ih hs _ e he i hi
  obtain ⟨w, hw, -⟩ := Sys.step_writes hs
  have hlen := Sys.step_length hs
  rw [hw, List.mem_append] at he
  rcases he with he | he
  · exact Nat.lt_of_lt_of_le (ih e he i hi) hlen
  · obtain ⟨_, hb, -⟩ := Sys.safety_writer hs hw he hi
    exact Nat.lt_of_lt_of_le (List.getElem?_eq_some_iff.mp hb).1 hlen

/-- A dead task never writes for its job again. -/
theorem dead_silent {T : ℕ} {v w : Sys} (hdead : v.alive T = false)
    (hr : Run Sys.step AnyStep v w) :
    ∃ tail, w.core.sent = v.core.sent ++ tail ∧ ∀ e ∈ tail, ¬ JobLine T e := by
  refine (hr.invariant (I := fun w => w.alive T = false ∧
    ∃ tail, w.core.sent = v.core.sent ++ tail ∧ ∀ e ∈ tail, ¬ JobLine T e) ?_ ?_).2
  · rintro a l b ⟨hdead, tail, htail, hsilent⟩ hs -
    obtain ⟨w', hw', -⟩ := Sys.step_writes hs
    refine ⟨Sys.step_dead hs hdead, tail ++ w', by rw [hw', htail, List.append_assoc], ?_⟩
    intro e he
    rcases List.mem_append.mp he with he | he
    · exact hsilent e he
    · intro hT
      have halive := (Sys.jobLine_writer hs hw' he hT).1
      rw [hdead] at halive
      cases halive
  · exact ⟨hdead, [], by simp, by simp⟩

/-- The call of `cancel` establishes the invariant. -/
theorem Cancelling.of_call {s₀ s u : Sys} {T : ℕ} {em : Bool} (h0 : s₀.Fresh)
    (hr : Run Sys.step AnyStep s₀ s) (hT : s.core.streamTask = some T)
    (hcall : Sys.step (.call (.cancel em)) s = some u) : Cancelling s.tasks.length T u := by
  simp only [Sys.step] at hcall
  split_ifs at hcall with ha
  cases hcall
  have hno : ∀ e ∈ s.core.sent, e.origin ≠ .safety s.tasks.length := fun e he hi =>
    absurd (safety_lt h0 hr e he _ hi) (Nat.lt_irrefl _)
  refine ⟨⟨em, .start, by simp [Call.body], .inr ⟨rfl, hT⟩⟩, ?_, ?_⟩
  · rintro ⟨e, he, hi⟩
    exact absurd hi (hno e he)
  · exact List.pairwise_of_forall_mem_list fun a ha b _ hi => absurd hi (hno a ha)

/-- **A cancelled job never writes again.**  In every reachable state with task `T` in
the slot, and every call of `cancel` there: as long as no run stores its handle over
that of the live `T`, the safety-off commands of the call stand behind the last line of
the job; and once `cancel` has returned, whatever follows, they still do, and no line of
the job is written any more. -/
theorem cancelled_job_silent {s₀ s u v : Sys} {T : ℕ} {em : Bool} (h0 : s₀.Fresh)
    (hr : Run Sys.step AnyStep s₀ s) (hT : s.core.streamTask = some T)
    (hcall : Sys.step (.call (.cancel em)) s = some u)
    (hrun : Run Sys.step (fun a l b => keepsHandle T a l b = true) u v) :
    SafetyLast s.tasks.length T v.core.sent ∧
      (v.tasks[s.tasks.length]? = some (.cancel em (.returned none)) →
        ∀ w, Run Sys.step AnyStep v w →
          SafetyLast s.tasks.length T w.core.sent ∧
            ∃ tail, w.core.sent = v.core.sent ++ tail ∧ ∀ e ∈ tail, ¬ JobLine T e) := by
  have hinv : Cancelling s.tasks.length T v :=
    hrun.invariant (fun _ _ _ ih hs hk => ih.step hs hk) (.of_call h0 hr hT hcall)
  refine ⟨hinv.order, fun hret w hw => ?_⟩
  obtain ⟨tail, htail, hsilent⟩ := dead_silent (hinv.dead_of_passed hret rfl) hw
  refine ⟨?_, tail, htail, hsilent⟩
  unfold SafetyLast
  rw [htail, List.pairwise_append]
  exact ⟨hinv.order, List.pairwise_of_forall_mem_list fun a _ b hb _ => hsilent b hb,
    fun a _ b hb _ => hsilent b hb⟩

/-! ### Runs of fixed jobs -/

/-- A session with a laser to switch off and room for one line. -/
def smallSession : Sys where
  core :=
    { dialect := { safetyOffCommands := ["M5".toList] }
      flow := { rxSize := some 10 } }
  tasks := []

theorem smallSession_fresh : smallSession.Fresh := by constructor <;> rfl

/-- The job of `twoLines` runs as task 1 and is parked at its second line. -/
def parked : Sys := reach Sys.step (.call (.run twoLines) :: turns 0 3 ++ turns 1 13) smallSession

/-- The parked sender of a cancelled job is gone: the general result on that run. -/
theorem cancelled_job_silent_parked :
    let u := reach Sys.step [.call (.cancel false)] parked
    let v := reach Sys.step (turns 2 3 ++ .drop 1 :: turns 2 8) u
    SafetyLast 2 1 v.core.sent ∧
      (v.tasks[2]? = some (.cancel false (.returned none)) →
        ∀ w, Run Sys.step AnyStep v w →
          SafetyLast 2 1 w.core.sent ∧
            ∃ tail, w.core.sent = v.core.sent ++ tail ∧ ∀ e ∈ tail, ¬ JobLine 1 e) :=
  cancelled_job_silent (s := parked) smallSession_fresh (run_reach (by decide)) (by decide)
    rfl (run_reach_guarded (by decide))

/-- Two more runs are called while task 1 still holds the lock: the first waits for its
end, the second finds an empty slot and spawns task 4. -/
def twoRuns : Sys :=
  reach Sys.step (.call (.run twoLines) :: turns 2 2 ++
    .call (.run twoLines) :: turns 3 3 ++ turns 4 2) parked

/-- `cancel` as task 5, the rest of the first run falling between its Ctrl-X and its
abort. -/
def cancelBetween : List Label :=
  turns 5 1 ++ .drop 1 :: turns 2 2 ++ turns 5 2 ++ .drop 6 :: turns 5 8

/-- **The job of a handle written over goes on**: the run called first stores its handle
over that of task 4, so `cancel` aborts another task, and task 4 sends its line behind
the safety-off command. -/
theorem cancelled_job_resumes :
    ¬ ∀ (s₀ s u v w : Sys) (T : ℕ) (em : Bool) (tail : List Sent), s₀.Fresh →
      Run Sys.step AnyStep s₀ s → s.core.streamTask = some T →
      Sys.step (.call (.cancel em)) s = some u → Run Sys.step AnyStep u v →
      v.tasks[s.tasks.length]? = some (.cancel em (.returned none)) →
      Run Sys.step AnyStep v w → w.core.sent = v.core.sent ++ tail →
      ∀ e ∈ tail, ¬ JobLine T e := by
  intro h
  let u := reach Sys.step [.call (.cancel false)] twoRuns
  let v := reach Sys.step cancelBetween u
  refine h smallSession twoRuns u v (reach Sys.step (turns 4 4) v) 4 false
    [⟨.job 4, "G1 X1
".toList⟩] smallSession_fresh
    ((run_reach (by decide)).trans (run_reach (by decide))) (by decide) rfl
    (run_reach (by decide)) (by decide) (run_reach (by decide)) (by decide)
    ⟨.job 4, "G1 X1
".toList⟩ (List.mem_singleton.mpr rfl) (.inl rfl)

end Raydriver
