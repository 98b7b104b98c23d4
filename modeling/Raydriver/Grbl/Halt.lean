import Raydriver.Grbl.OneRun
import Raydriver.Grbl.Order

/-!
# A device error halts the stream

`handle_error`, and `handle_line` on an `ALARM:` line, record an exception while a job
runs.  The streaming task meets it at the latest when it is back at the head of its send
loop, so it writes one more line at most; and it takes the exception for its result, so
the job fails.

How long that takes is measured by a distance to the end of `stream_gcode_inner`.  Every
step of the task lowers it but one: when the device answers polls and frees no space, the
stall callback has the task wait again.

## Main definitions

* `Core.fails` — a chunk that holds an error, or an alarm line.
* `Doomed pc c` — the streaming task at `pc` will fail.
* `StreamPc.distance` — how far it is from the end of `stream_gcode_inner`.
* `Halted`, `Unbroken` — the invariants from the failure on.
* `Halts` — what is claimed of the streaming task.

## Main results

* `doomed_step` — **what a step of a doomed streaming task does**.
* `failed_job_halts` — **a device error or alarm halts the stream**.
* `alarm_overlooked` — an alarm line taken for a piece of a status report does not, and
  neither does an error that two jobs at once compete for.
-/

namespace Raydriver

open Lts

/-! ### Recording the exception -/

/-- An `ALARM:` line that is not taken for a piece of a status report. -/
def isAlarmLine (line : Text) : Bool := !Core.isFragment line && startsWith "ALARM:".toList line

/-- `handle_error` or the alarm branch of `handle_line` is about to run. -/
def GrblResponse.fails (r : GrblResponse) : Bool :=
  r.rtype == .error || (r.rtype == .line && isAlarmLine r.text)

/-- The chunk holds an error, or an alarm line. -/
def Core.fails (data : Bytes) (c : Core) : Bool :=
  ((c.flow.parseExtracted data).2.map Extracted.toResponse).any GrblResponse.fails

theorem haltJob_raises {c : Core} (h : c.jobRunning = true) (m : Text) :
    (c.haltJob m).jobException.isSome = true := by
  unfold Core.haltJob
  dsimp only
  rw [if_pos h]
  rfl

theorem handleResponse_raises {c : Core} {r : GrblResponse} (h : c.jobRunning = true)
    (hr : r.fails = true) : (c.handleResponse r).jobException.isSome = true := by
  unfold Core.handleResponse
  unfold GrblResponse.fails at hr
  split
  · rename_i hok
    rw [hok] at hr
    cases hr
  · exact haltJob_raises h _
  · rename_i hline
    rw [hline] at hr
    have halarm : isAlarmLine r.text = true := hr
    rw [isAlarmLine, Bool.and_eq_true, Bool.not_eq_true'] at halarm
    obtain ⟨hfrag, hstart⟩ := halarm
    unfold startsWith at hstart
    obtain ⟨t, ht⟩ := List.isPrefixOf_iff_prefix.mp hstart
    have hangle : startsWith "<".toList r.text = false := by
      rw [← ht]
      rfl
    unfold Core.handleLine
    rw [hfrag, hangle, if_neg (by simp), if_neg (by simp)]
    dsimp only
    rw [stripPrefix, if_pos hstart]
    exact haltJob_raises h _

/-- **A device error or alarm is recorded** while a job runs. -/
theorem handleRx_raises {data : Bytes} {c : Core} (h : c.jobRunning = true)
    (hfails : c.fails data = true) : (c.handleRx data).jobException.isSome = true := by
  have hfold : ∀ (rs : List GrblResponse) (c : Core), c.jobRunning = true →
      (∃ r ∈ rs, r.fails = true) → (rs.foldl Core.handleResponse c).jobException.isSome = true := by
    intro rs
    induction rs with
    | nil => rintro c - ⟨r, hr, -⟩; cases hr
    | cons r rs ih =>
      rintro c hrun ⟨r', hr', hf⟩
      rcases List.mem_cons.mp hr' with rfl | hmem
      · exact foldl_handleResponse_exception rs _ (handleResponse_raises hrun hf)
      · exact ih _ ((handleResponse_frame c r).jobRunning.trans hrun) ⟨r', hmem, hf⟩
  obtain ⟨r, hr, hf⟩ := List.any_eq_true.mp hfails
  -- lines are handled before acknowledgements, but every response is handled
  exact handleRx_fold (P := fun c => c.jobException.isSome = true) (fun _ hc => hc)
    fun flow n => hfold _ (c.popped flow n) h ⟨r, (arrivals_perm data c).mem_iff.mpr hr, hf⟩

/-! ### The streaming task -/

/-- The streaming task at `pc` is on its failure path, or on its way there, or an exception
is recorded that it has yet to take. -/
def Doomed (pc : StreamPc) (c : Core) : Prop :=
  pc.failed = true ∨ pc.failing = true ∨ (pc.over = false ∧ c.jobException.isSome = true)

/-- Within `stream_gcode_inner`. -/
def StreamPc.inner : StreamPc → Bool
  | .outcome _ | .cancelling _ _ | .final _ | .finished _ => false
  | _ => true

/-- Awaiting `cmd_lock`. -/
def StreamPc.awaitsLock : StreamPc → Bool
  | .lockWait _ | .pollLock _ | .recoverLock => true
  | _ => false

/-- The stall callback has answered that there is reason to wait again. -/
def StreamPc.retries : StreamPc → Bool
  | .stallEnd _ true => true
  | _ => false

/-- The lines that may be written within the stall callback's send, or the drain. -/
def Site.budget : Site → ℕ
  | .stall _ => 1
  | .drain => 0

/-- The lines a doomed streaming task may still write. -/
def StreamPc.budget : StreamPc → ℕ
  | .lockWait _ | .locked _ | .spaceCheck _ | .spaceWait _ | .send _ | .stall _
  | .stallEnd _ _ => 1
  | .poll w | .pollSend w _ | .pollWriting w _ _ | .pollFailed w | .pollAwait w _ _
  | .pollSleep w _ _ | .pollDone w _ | .pollEnd w _ | .recover w | .recoverStart w
  | .recoverSpace w | .recoverSend w | .recoverWriting w | .recoverSent w | .recoverDrain w
  | .recoverReset w | .recoverEnd w => w.budget
  | _ => 0

/-- The steps to the end of `stream_gcode_inner`, if an exception is recorded and `N` is
`poll_response_attempts`. -/
def StreamPc.distance (N : ℕ) : StreamPc → ℕ
  | .outcome _ | .cancelling _ _ | .final _ | .finished _ => 0
  | .innerEnd => 1
  | .afterLoop | .drainTop => 2
  | .loopTop _ _ | .afterSend _ => 3
  | .start | .yielded _ _ | .writing _ _ => 4
  | .send _ | .stallEnd _ _ => 5
  | .recoverEnd _ => 6
  | .recoverReset _ => 7
  | .recoverDrain _ => 8
  | .recoverSent _ => 9
  | .recoverWriting _ => 10
  | .recoverSend _ => 11
  | .recoverSpace _ => 12
  | .recoverStart _ => 13
  | .recoverLock => 14
  | .recover _ => 15
  | .pollEnd _ _ => 16
  | .pollDone _ _ => 17
  | .pollFailed _ => 18
  | .pollAwait _ _ left => 18 + 2 * left
  | .pollSleep _ _ left => 19 + 2 * left
  | .pollWriting _ _ _ => 19 + 2 * N
  | .pollSend _ _ => 20 + 2 * N
  | .pollLock _ => 21 + 2 * N
  | .poll _ => 22 + 2 * N
  | .stall _ | .drainWait => 23 + 2 * N
  | .spaceWait _ => 24 + 2 * N
  | .spaceCheck _ => 25 + 2 * N
  | .locked _ => 26 + 2 * N
  | .lockWait _ => 27 + 2 * N

theorem StreamPc.distance_le {N : ℕ} {pc : StreamPc} (h : pc.attempts ≤ N) :
    pc.distance N ≤ 27 + 2 * N := by
  cases pc with
  | pollAwait w b left =>
    have hleft : left ≤ N := h
    simp only [StreamPc.distance]
    omega
  | pollSleep w b left =>
    have hleft : left ≤ N := h
    simp only [StreamPc.distance]
    omega
  | _ =>
    simp only [StreamPc.distance]
    omega

theorem Site.budget_le (w : Site) : w.budget ≤ 1 := by
  cases w <;> simp [Site.budget]

theorem StreamPc.budget_le (pc : StreamPc) : pc.budget ≤ 1 := by
  unfold StreamPc.budget
  split <;> first | exact Site.budget_le _ | omega

/-- What a step of a doomed streaming task does: it stays doomed, it has one line less to write
if it writes one, and it comes nearer to its end unless it retries. -/
structure DoomStep (N t : ℕ) (c c' : Core) (pc pc' : StreamPc) : Prop where
  doomed : Doomed pc' c'
  lines : (c'.jobLines t).length + pc'.budget ≤ (c.jobLines t).length + pc.budget
  nearer : pc'.distance N + pc.inner.toNat ≤ pc.distance N + pc.retries.toNat * (21 + 2 * N)

section Stream

variable {N t : ℕ} {job : Job} {ch : Choice} {c c' : Core} {pc pc' : StreamPc}

/-- A step before the exception is taken. -/
theorem DoomStep.go (hexc : c'.jobException.isSome = true) (hover : pc'.over = false)
    (hlines : c'.jobLines t = c.jobLines t) (hbudget : pc'.budget ≤ pc.budget)
    (hnearer : pc'.distance N + pc.inner.toNat
      ≤ pc.distance N + pc.retries.toNat * (21 + 2 * N)) : DoomStep N t c c' pc pc' where
  doomed := .inr (.inr ⟨hover, hexc⟩)
  lines := by
    rw [hlines]
    omega
  nearer := hnearer

/-- A step to or on the failure path. -/
theorem DoomStep.fail (hfail : pc'.failed = true ∨ pc'.failing = true)
    (hlines : c'.jobLines t = c.jobLines t) (hbudget : pc'.budget ≤ pc.budget)
    (hnearer : pc'.distance N + pc.inner.toNat
      ≤ pc.distance N + pc.retries.toNat * (21 + 2 * N)) : DoomStep N t c c' pc pc' where
  doomed := hfail.imp id .inl
  lines := by
    rw [hlines]
    omega
  nearer := hnearer

/-- Before the write of a line has failed, and before the result, an exception is recorded. -/
theorem Doomed.exception (h : Doomed pc c) (hfailed : pc.failed = false)
    (hfailing : pc.failing = false) : c.jobException.isSome = true := by
  rcases h with h | h | h
  · rw [hfailed] at h
    cases h
  · rw [hfailing] at h
    cases h
  · exact h.2

/-- A step that leaves the exception alone and writes no line of the job. -/
theorem Doomed.go (h : Doomed pc c) (hfailed : pc.failed = false) (hfailing : pc.failing = false)
    (hsame : c'.jobException = c.jobException) (hlines : c'.jobLines t = c.jobLines t)
    (hover : pc'.over = false) (hbudget : pc'.budget ≤ pc.budget)
    (hnearer : pc'.distance N + pc.inner.toNat
      ≤ pc.distance N + pc.retries.toNat * (21 + 2 * N)) : DoomStep N t c c' pc pc' :=
  .go (by rw [hsame]; exact h.exception hfailed hfailing) hover hlines hbudget hnearer

theorem jobLines_realtime (text : Text) (err : Option String) :
    (c.write .realtime text err).jobLines t = c.jobLines t :=
  jobLines_of_writes (.of_write (by simp) rfl)

/-- A doomed streaming task in the send loop: one line may still go out. -/
theorem Doomed.sending (h : Doomed pc c) (hstage : pc.stage = .sending)
    (hs : advanceStream t job ch c pc = some (c', pc')) : DoomStep N t c c' pc pc' := by
  cases pc with
  | loopTop idx rest =>
    cases rest with
    | nil =>
      cases hs
      exact h.go rfl rfl rfl rfl rfl (by simp [StreamPc.budget])
        (by simp [StreamPc.distance, StreamPc.inner, StreamPc.retries])
    | cons line rest =>
      -- with an exception recorded the loop is left
      have hexc := h.exception rfl rfl
      have hraise : c.raiseOnAlarm.jobException.isSome = true := by
        unfold Core.raiseOnAlarm
        dsimp only
        split_ifs
        · rfl
        · exact hexc
      simp only [advanceStream, hexc, Bool.or_true, Bool.true_or, if_true] at hs
      cases hs
      exact .go hraise rfl rfl (by simp [StreamPc.budget])
        (by simp [StreamPc.distance, StreamPc.inner, StreamPc.retries])
  | send s =>
    -- the one line that may still go out
    have hexc := h.exception rfl rfl
    cases hs
    have hlines : ((c.sendTracked (.job t) s.payload s.opIndex ch.writeError).jobLines t).length
        ≤ (c.jobLines t).length + 1 := by
      cases herr : ch.writeError with
      | none => simp [Core.jobLines, Core.sendTracked, Core.write, Core.track]
      | some e => simp [Core.jobLines, Core.sendTracked, Core.write, Core.track]
    exact ⟨.inr (.inr ⟨rfl, hexc⟩), by simpa [StreamPc.budget] using hlines,
      by simp [StreamPc.distance, StreamPc.inner, StreamPc.retries]⟩
  | writing s err =>
    cases err with
    | none =>
      cases hs
      exact h.go rfl rfl rfl rfl rfl (by simp [StreamPc.budget])
        (by simp [StreamPc.distance, StreamPc.inner, StreamPc.retries])
    | some e =>
      cases hs
      exact .fail (.inr rfl) rfl (by simp [StreamPc.budget])
        (by simp [StreamPc.distance, StreamPc.inner, StreamPc.retries])
  | locked s =>
    simp only [advanceStream] at hs
    split_ifs at hs
    · cases hs
      exact h.go rfl rfl rfl rfl rfl (by simp [StreamPc.budget])
        (by simp only [StreamPc.distance, StreamPc.inner, StreamPc.retries, Bool.toNat_true,
          Bool.toNat_false]; omega)
    · cases hs
      exact .fail (.inr rfl) rfl (by simp [StreamPc.budget])
        (by simp only [StreamPc.distance, StreamPc.inner, StreamPc.retries, Bool.toNat_true,
          Bool.toNat_false]; omega)
  | stallEnd s handled =>
    cases handled with
    | false =>
      cases hs
      exact .go rfl rfl rfl (by simp [StreamPc.budget])
        (by simp [StreamPc.distance, StreamPc.inner, StreamPc.retries])
    | true =>
      -- the one step away from the end: the stall is waited out again
      cases hs
      exact h.go rfl rfl rfl rfl rfl (by simp [StreamPc.budget])
        (by simp only [StreamPc.distance, StreamPc.inner, StreamPc.retries, Bool.toNat_true]; omega)
  | stall s =>
    cases hs
    split
    all_goals
      exact h.go rfl rfl rfl rfl rfl (by simp [StreamPc.budget, Site.budget])
        (by simp only [StreamPc.distance, StreamPc.inner, StreamPc.retries, Bool.toNat_true,
          Bool.toNat_false]; omega)
  | afterSend s =>
    have hexc := h.exception rfl rfl
    simp only [advanceStream, hexc, Bool.true_or, if_true] at hs
    cases hs
    exact h.go rfl rfl rfl rfl rfl (by simp [StreamPc.budget])
      (by simp [StreamPc.distance, StreamPc.inner, StreamPc.retries])
  | start | lockWait s | spaceCheck s | spaceWait s | yielded idx rest =>
    simp only [advanceStream] at hs
    try split_ifs at hs
    all_goals cases hs
    all_goals
      exact h.go rfl rfl rfl rfl rfl (by simp [StreamPc.budget])
        (by simp only [StreamPc.distance, StreamPc.inner, StreamPc.retries, Bool.toNat_true,
          Bool.toNat_false]; omega)
  | _ => cases hstage

/-- A doomed streaming task that polls writes no line, and each attempt brings it nearer. -/
theorem Doomed.polling (h : Doomed pc c) (hN : c.config.pollResponseAttempts = N)
    (hstage : pc.stage = .polling)
    (hs : advanceStream t job ch c pc = some (c', pc')) : DoomStep N t c c' pc pc' := by
  cases pc with
  | poll w =>
    cases w <;> cases hs <;>
      exact h.go rfl rfl rfl rfl rfl (by simp [StreamPc.budget, Site.budget])
        (by simp only [StreamPc.distance, StreamPc.inner, StreamPc.retries, Bool.toNat_true,
          Bool.toNat_false]; omega)
  | pollSend w before =>
    simp only [advanceStream] at hs
    split_ifs at hs
    · cases hs
      exact h.go rfl rfl rfl (jobLines_realtime _ _) rfl (by simp [StreamPc.budget])
        (by simp only [StreamPc.distance, StreamPc.inner, StreamPc.retries, Bool.toNat_true,
          Bool.toNat_false]; omega)
    · cases hs
      exact h.go rfl rfl rfl rfl rfl (by simp [StreamPc.budget])
        (by simp only [StreamPc.distance, StreamPc.inner, StreamPc.retries, Bool.toNat_true,
          Bool.toNat_false]; omega)
  | pollWriting w before err =>
    cases err <;> cases hs <;>
      exact h.go rfl rfl rfl rfl rfl (by simp [StreamPc.budget])
        (by simp only [StreamPc.distance, StreamPc.inner, StreamPc.retries, Bool.toNat_true,
          Bool.toNat_false, hN]; omega)
  | pollAwait w before left =>
    cases left <;> cases hs <;>
      exact h.go rfl rfl rfl rfl rfl (by simp [StreamPc.budget])
        (by simp only [StreamPc.distance, StreamPc.inner, StreamPc.retries, Bool.toNat_true,
          Bool.toNat_false]; omega)
  | pollEnd w idle =>
    cases w with
    | stall s =>
      simp only [advanceStream] at hs
      split_ifs at hs with hdead halarm
      -- a device that is not there, and one in Alarm, raise exceptions of their own
      · cases hs
        exact .go rfl rfl rfl (by simp [StreamPc.budget, Site.budget])
          (by simp [StreamPc.distance, StreamPc.inner, StreamPc.retries])
      · cases hs
        refine .go ?_ rfl rfl (by simp [StreamPc.budget, Site.budget])
          (by simp [StreamPc.distance, StreamPc.inner, StreamPc.retries])
        simp [Core.raiseOnAlarm, halarm]
      all_goals
        cases hs
        exact h.go rfl rfl rfl rfl rfl (by simp [StreamPc.budget, Site.budget])
          (by simp [StreamPc.distance, StreamPc.inner, StreamPc.retries])
    | drain =>
      simp only [advanceStream] at hs
      split_ifs at hs
      · cases hs
        exact .go rfl rfl rfl (by simp [StreamPc.budget])
          (by simp [StreamPc.distance, StreamPc.inner, StreamPc.retries])
      all_goals
        cases hs
        exact h.go rfl rfl rfl rfl rfl (by simp [StreamPc.budget, Site.budget])
          (by simp [StreamPc.distance, StreamPc.inner, StreamPc.retries])
  | pollLock before | pollFailed w | pollSleep w before left | pollDone w before =>
    simp only [advanceStream] at hs
    try split_ifs at hs
    all_goals cases hs
    all_goals
      exact h.go rfl rfl rfl rfl rfl (by simp [StreamPc.budget, Site.budget])
        (by simp only [StreamPc.distance, StreamPc.inner, StreamPc.retries, Bool.toNat_true,
          Bool.toNat_false]; omega)
  | _ => cases hstage

/-- A doomed streaming task that recovers writes its dwell, which is no line of the job. -/
theorem Doomed.recovering (h : Doomed pc c) (hstage : pc.stage = .recovering)
    (hs : advanceStream t job ch c pc = some (c', pc')) : DoomStep N t c c' pc pc' := by
  cases pc with
  | recover w =>
    cases w <;> simp only [advanceStream] at hs <;> split_ifs at hs <;> cases hs <;>
      exact h.go rfl rfl rfl rfl rfl (by simp [StreamPc.budget, Site.budget])
        (by simp [StreamPc.distance, StreamPc.inner, StreamPc.retries])
  | recoverStart w =>
    cases hs
    split <;> exact h.go rfl rfl rfl rfl rfl (by simp [StreamPc.budget])
      (by simp [StreamPc.distance, StreamPc.inner, StreamPc.retries])
  | recoverSend w =>
    cases hs
    exact h.go rfl rfl rfl (jobLines_of_writes (.of_write (by simp) rfl)) rfl
      (by simp [StreamPc.budget]) (by simp [StreamPc.distance, StreamPc.inner, StreamPc.retries])
  | recoverSent w =>
    cases hs
    split <;> exact h.go rfl rfl rfl rfl rfl (by simp [StreamPc.budget])
      (by simp [StreamPc.distance, StreamPc.inner, StreamPc.retries])
  | recoverEnd w =>
    cases w <;> cases hs <;>
      exact h.go rfl rfl rfl rfl rfl (by simp [StreamPc.budget, Site.budget])
        (by simp [StreamPc.distance, StreamPc.inner, StreamPc.retries])
  | recoverLock | recoverSpace w | recoverWriting w | recoverDrain w | recoverReset w =>
    simp only [advanceStream] at hs
    try split_ifs at hs
    all_goals cases hs
    all_goals
      exact h.go rfl rfl rfl rfl rfl (by simp [StreamPc.budget, Site.budget])
        (by simp [StreamPc.distance, StreamPc.inner, StreamPc.retries])
  | _ => cases hstage

/-- At the end of the job the exception becomes its result, and the failure path follows. -/
theorem Doomed.ending (h : Doomed pc c) (hstage : pc.stage = .ending)
    (hs : advanceStream t job ch c pc = some (c', pc')) : DoomStep N t c c' pc pc' := by
  cases pc with
  | afterLoop =>
    have hnone : c.jobException.isNone = false := by
      rw [← Option.not_isSome, h.exception rfl rfl]
      rfl
    simp only [advanceStream, hnone, Bool.and_false, Bool.false_eq_true, if_false] at hs
    cases hs
    exact h.go rfl rfl rfl rfl rfl (by simp [StreamPc.budget])
      (by simp [StreamPc.distance, StreamPc.inner, StreamPc.retries])
  | drainTop =>
    have hexc := h.exception rfl rfl
    simp only [advanceStream, hexc, Bool.or_true, Bool.true_or, if_true] at hs
    cases hs
    exact h.go rfl rfl rfl rfl rfl (by simp [StreamPc.budget])
      (by simp [StreamPc.distance, StreamPc.inner, StreamPc.retries])
  | drainWait =>
    simp only [advanceStream] at hs
    split_ifs at hs
    all_goals cases hs
    all_goals
      exact h.go rfl rfl rfl rfl rfl (by simp [StreamPc.budget, Site.budget])
        (by simp only [StreamPc.distance, StreamPc.inner, StreamPc.retries, Bool.toNat_true,
          Bool.toNat_false]; omega)
  | innerEnd =>
    obtain ⟨e, he⟩ := Option.isSome_iff_exists.mp (h.exception rfl rfl)
    cases hs
    rw [he]
    exact .fail (.inr rfl) rfl (by simp [StreamPc.budget])
      (by simp [StreamPc.distance, StreamPc.inner, StreamPc.retries])
  | outcome err =>
    cases err with
    | none => rcases h with h | h | ⟨h, -⟩ <;> cases h
    | some e =>
      simp only [advanceStream] at hs
      split_ifs at hs
      all_goals cases hs
      all_goals
        exact .fail (.inl rfl) rfl (by simp [StreamPc.budget])
          (by simp [StreamPc.distance, StreamPc.inner, StreamPc.retries])
  | cancelling x e =>
    -- the safety shutdown is not written by the job
    have hlines : c'.jobLines t = c.jobLines t := by
      simp only [advanceStream] at hs
      split at hs
      · cases hs
        rfl
      · obtain ⟨⟨c₁, x₁⟩, h1, h2⟩ := Option.map_eq_some_iff.mp hs
        cases h2
        refine jobLines_of_writes ((advanceCancel_frame h1).2.1.mono fun o ho => ?_)
        rcases ho with rfl | ⟨rfl, -⟩ <;> simp
    simp only [advanceStream] at hs
    split at hs
    · cases hs
      exact .fail (.inl rfl) hlines (by simp [StreamPc.budget])
        (by simp [StreamPc.distance, StreamPc.inner, StreamPc.retries])
    · obtain ⟨⟨c₁, x₁⟩, h1, h2⟩ := Option.map_eq_some_iff.mp hs
      cases h2
      exact .fail (.inl rfl) hlines (by simp [StreamPc.budget])
        (by simp [StreamPc.distance, StreamPc.inner, StreamPc.retries])
  | final err =>
    cases err with
    | none => rcases h with h | h | ⟨h, -⟩ <;> cases h
    | some e =>
      cases hs
      exact .fail (.inl rfl) rfl (by simp [StreamPc.budget])
        (by simp [StreamPc.distance, StreamPc.inner, StreamPc.retries])
  | finished err => cases hs
  | _ => cases hstage

/-- **What a step of a doomed streaming task does.** -/
theorem doomed_step (h : Doomed pc c) (hN : c.config.pollResponseAttempts = N)
    (hs : advanceStream t job ch c pc = some (c', pc')) : DoomStep N t c c' pc pc' := by
  cases hstage : pc.stage with
  | sending => exact h.sending hstage hs
  | polling => exact h.polling hN hstage hs
  | recovering => exact h.recovering hstage hs
  | ending => exact h.ending hstage hs

/-- **A streaming task is never stuck** within `stream_gcode_inner`, but for the lock: every
other await has a timeout. -/
theorem advanceStream_enabled (hinner : pc.inner = true)
    (hlock : pc.awaitsLock = true → c.cmdLock = none) :
    (advanceStream t job { timedOut := true } c pc).isSome = true := by
  have hfree : pc.awaitsLock = true → c.cmdLock.isNone = true := fun h => by
    rw [hlock h]
    rfl
  cases pc with
  | loopTop idx rest =>
    cases rest <;> simp only [advanceStream] <;> (try split_ifs) <;> rfl
  | lockWait s => simp only [advanceStream, hfree rfl, if_true, Option.isSome_some]
  | pollLock before => simp only [advanceStream, hfree rfl, if_true, Option.isSome_some]
  | recoverLock => simp only [advanceStream, hfree rfl, if_true, Option.isSome_some]
  | writing s err => cases err <;> rfl
  | stallEnd s handled => cases handled <;> rfl
  | poll w => cases w <;> rfl
  | pollWriting w before err => cases err <;> rfl
  | pollAwait w before left => cases left <;> rfl
  | pollEnd w idle => cases w <;> simp only [advanceStream] <;> split_ifs <;> rfl
  | recover w => cases w <;> simp only [advanceStream] <;> split_ifs <;> rfl
  | recoverDrain w => simp only [advanceStream, Bool.or_true, if_true, Option.isSome_some]
  | recoverEnd w => cases w <;> rfl
  | outcome err => cases hinner
  | cancelling pc e => cases hinner
  | final err => cases hinner
  | finished err => cases hinner
  | _ =>
    simp only [advanceStream]
    try split_ifs
    all_goals rfl

/-- What has failed stays failed. -/
theorem failed_advance (hf : pc.failed = true)
    (hs : advanceStream t job ch c pc = some (c', pc')) : pc'.failed = true := by
  cases pc with
  | cancelling pc e =>
    simp only [advanceStream] at hs
    split at hs
    · cases hs
      rfl
    · obtain ⟨⟨c₁, pc₁⟩, -, h2⟩ := Option.map_eq_some_iff.mp hs
      cases h2
      rfl
  | final err =>
    cases hs
    cases err with
    | none => cases hf
    | some e => rfl
  | finished err => cases hs
  | _ => cases hf

/-- A doomed task never returns without an error. -/
theorem Doomed.not_over (h : Doomed pc c) : pc.over = false := by
  rcases h with h | h | h
  · cases pc with
    | cancelling pc e => rfl
    | final err => cases err <;> first | rfl | cases h
    | finished err => cases err <;> first | rfl | cases h
    | _ => cases h
  · cases pc with
    | writing s err => rfl
    | outcome err => cases err <;> first | rfl | cases h
    | _ => cases h
  · exact h.1

/-- The exceptions may change as long as one is recorded. -/
theorem Doomed.mono (h : Doomed pc c)
    (hexc : c.jobException.isSome = true → c'.jobException.isSome = true) : Doomed pc c' :=
  h.imp id fun h => h.imp id fun h => ⟨h.1, hexc h.2⟩

end Stream

/-! ### From the failure on -/

/-- `start_job` has run, or the run has returned. -/
def RunPc.begun : RunPc → Bool
  | .rawNext _ | .rawWriting _ _ | .begin => false
  | _ => true

/-- `start_job` has run, and the streaming task is not spawned yet. -/
def RunPc.starting : RunPc → Bool
  | .abort | .abortWait _ | .spawn => true
  | _ => false

/-- The failure is recorded, and whoever takes it from there fails. -/
structure Halted (j : ℕ) (job : Job) (s : Sys) : Prop where
  begun : ∀ pc, s.tasks[j]? = some (.run job pc) → pc.begun = true
  starting : ∀ pc, s.tasks[j]? = some (.run job pc) → pc.starting = true →
    s.core.jobException.isSome = true
  doomed : ∀ t job' pc, s.tasks[t]? = some (.stream job' pc) → s.alive t = true →
    Doomed pc s.core

/-- Someone has called `cancel` since there were `k` tasks. -/
def Interrupted (k : ℕ) (s : Sys) : Prop :=
  ∃ i em pc, k ≤ i ∧ s.tasks[i]? = some (.cancel em pc)

/-- Nobody has called `cancel` since there were `k` tasks: if the job is cancelled, then by its
own failure path. -/
structure Unbroken (k j : ℕ) (job : Job) (s : Sys) : Prop where
  length : k ≤ s.tasks.length
  cancels : ∀ (i : ℕ) (em : Bool) (pc : CancelPc), s.tasks[i]? = some (.cancel em pc) →
    pc ≠ .start
  starting : s.core.isCancelled = true → ∀ pc : RunPc, s.tasks[j]? = some (.run job pc) →
    pc.starting = false
  failed : s.core.isCancelled = true → ∀ (t : ℕ) (job' : Job) (pc : StreamPc),
    s.tasks[t]? = some (.stream job' pc) → s.alive t = true → pc.failed = true

section Run

variable {i j k t : ℕ} {job : Job} {ch : Choice} {s u : Sys} {l : Label}

/-- The run goes on: it does not go back to its begin, it starts only if it was starting, and
neither the flags nor the exception change. -/
theorem advanceRun_begun {n : ℕ} {c c' : Core} {pc pc' : RunPc} {spawns : Bool}
    (h : advanceRun n job ch c pc = some (c', pc', spawns)) (hpc : pc.begun = true) :
    pc'.begun = true ∧ (pc'.starting = true → pc.starting = true) ∧
      c'.jobException = c.jobException ∧ c'.isCancelled = c.isCancelled := by
  cases pc with
  | rawNext realtime => cases hpc
  | rawWriting realtime err => cases hpc
  | begin => cases hpc
  | abort =>
    simp only [advanceRun] at h
    split at h
    · cases h
      exact ⟨rfl, id, rfl, rfl⟩
    · split_ifs at h <;> cases h <;> exact ⟨rfl, id, rfl, rfl⟩
  | abortWait t =>
    simp only [advanceRun] at h
    split at h <;> cases h
    exact ⟨rfl, id, rfl, rfl⟩
  | spawn =>
    cases h
    exact ⟨rfl, fun _ => rfl, rfl, rfl⟩
  | join t =>
    simp only [advanceRun] at h
    split at h <;> cases h
    exact ⟨rfl, fun hs => absurd hs (by simp [RunPc.starting]), rfl, rfl⟩
  | returned => cases h

/-- Where the run is after a step. -/
theorem Sole.step_run {pc' : RunPc} (h : Sole j job s) (hs : Sys.step l s = some u)
    (hu : u.tasks[j]? = some (.run job pc')) :
    ∃ pc, s.tasks[j]? = some (.run job pc) ∧ ((pc = pc' ∧ ∀ ch, l ≠ .task j ch) ∨
      ∃ ch spawns, l = .task j ch ∧
        advanceRun s.tasks.length job ch s.core pc = some (u.core, pc', spawns)) := by
  obtain ⟨pc, hj⟩ := h.run
  refine ⟨pc, hj, ?_⟩
  by_cases hmove : ∃ ch, l = .task j ch
  · obtain ⟨ch, rfl⟩ := hmove
    obtain ⟨b, c', b', spawned, hb, -, -, hadv, rfl⟩ := Sys.step_task hs
    obtain rfl : b = .run job pc := Option.some.inj (hb.symm.trans hj)
    obtain ⟨⟨c₁, pc₁, sp⟩, hstep, heq⟩ := Option.map_eq_some_iff.mp hadv
    cases heq
    have hlen : j < s.tasks.length := (List.getElem?_eq_some_iff.mp hj).1
    have hu' : (s.tasks.set j (.run job pc₁) ++ if sp then [.stream job .start] else [])[j]?
        = some (.run job pc') := hu
    rw [List.getElem?_append_left (by rw [List.length_set]; exact hlen),
      List.getElem?_set_self hlen] at hu'
    cases hu'
    exact .inr ⟨ch, sp, rfl, hstep⟩
  · have hsame := Sys.step_tasks hs hj fun ch hi => hmove ⟨ch, hi⟩
    refine .inl ⟨?_, fun ch hi => hmove ⟨ch, hi⟩⟩
    simpa using hsame.symm.trans hu

/-- While the run is starting, no streaming task moves. -/
theorem Sole.no_stream (h : Sole j job s) {pc : RunPc} (hj : s.tasks[j]? = some (.run job pc))
    (hpc : pc.starting = true) {t : ℕ} {job' : Job} {pc' : StreamPc}
    (ht : s.tasks[t]? = some (.stream job' pc')) (hs : Sys.step (.task t ch) s = some u) :
    False := by
  obtain ⟨b, c', b', spawned, hb, halive, hen, -, -⟩ := Sys.step_task hs
  cases pc with
  | abort =>
    have hact := h.waits j _ hj rfl
    have htj : t ≠ j := by
      rintro rfl
      cases ht.symm.trans hj
    rcases hen with hen | ⟨hen, -⟩ <;> rw [hact] at hen
    · exact htj (Option.some.inj hen).symm
    · cases hen
  | abortWait t' => exact h.own _ hj t job' pc' ht halive
  | spawn => exact h.own _ hj t job' pc' ht halive
  | _ => cases hpc

/-- **Who takes an exception away**: a recorded exception stays, unless a live streaming task
takes the step. -/
theorem Sole.exception_kept (h : Sole j job s)
    (hbegun : ∀ pc, s.tasks[j]? = some (.run job pc) → pc.begun = true)
    (hs : Sys.step l s = some u)
    (hl : ∀ t ch job' pc, l = .task t ch → s.tasks[t]? ≠ some (.stream job' pc))
    (hexc : s.core.jobException.isSome = true) : u.core.jobException.isSome = true := by
  by_cases htask : ∃ i ch, l = .task i ch
  · obtain ⟨i, ch, rfl⟩ := htask
    obtain ⟨b, c', b', spawned, hb, -, -, hadv, rfl⟩ := Sys.step_task hs
    have hclears : b.clears = false := by
      obtain ⟨pc, hj⟩ := h.run
      by_cases hij : i = j
      · subst hij
        obtain rfl : b = .run job pc := Option.some.inj (hb.symm.trans hj)
        cases pc with
        | begin => cases hbegun _ hj
        | _ => rfl
      · have hsettled := h.others i b hij hb
        cases b with
        | stream job' pc' => exact absurd hb (hl i ch job' pc' rfl)
        | run job' pc' => cases pc' <;> first | rfl | cases hsettled
        | link on pc' => cases pc' <;> first | rfl | cases hsettled
        | _ => rfl
    rw [(advance_flags hadv).exception hclears]
    exact hexc
  · exact (Sys.step_aside hs fun i ch hi => htask ⟨i, ch, hi⟩).2.2.2 hexc

/-- **What a step keeps of a halted job.** -/
theorem Halted.step (hsole : Sole j job s) (h : Halted j job s) (hs : Sys.step l s = some u) :
    Halted j job u := by
  -- the exception is taken by the streaming task only
  have hkept : (∀ t ch job' pc, l = .task t ch → s.tasks[t]? ≠ some (.stream job' pc)) →
      s.core.jobException.isSome = true → u.core.jobException.isSome = true :=
    hsole.exception_kept h.begun hs
  refine ⟨fun pc' hu => ?_, fun pc' hu hpc' => ?_, fun t job' pc' hu halive => ?_⟩
  · obtain ⟨pc, hj, ⟨rfl, -⟩ | ⟨ch, sp, -, hadv⟩⟩ := hsole.step_run hs hu
    · exact h.begun _ hj
    · exact (advanceRun_begun hadv (h.begun pc hj)).1
  · obtain ⟨pc, hj, ⟨rfl, -⟩ | ⟨ch, sp, rfl, hadv⟩⟩ := hsole.step_run hs hu
    · refine hkept (fun t ch job' pc₁ hl ht => ?_) (h.starting _ hj hpc')
      subst hl
      exact hsole.no_stream hj hpc' ht hs
    · obtain ⟨-, hstart, hexc, -⟩ := advanceRun_begun hadv (h.begun pc hj)
      rw [hexc]
      exact h.starting pc hj (hstart hpc')
  · have halive₀ := Sys.alive_of_step hs halive
    rcases Sys.step_stream hs hu with ⟨pc, ht, ⟨rfl, hne⟩ | ⟨ch, rfl, -, -, hadv⟩⟩ |
      ⟨-, rfl, i, ch, rfl, hspawn⟩
    · -- another task moves, and it is no live streaming task
      refine (h.doomed t job' pc ht halive₀).mono (hkept fun t' ch job₁ pc₁ hl ht' => ?_)
      subst hl
      obtain ⟨b, c', b', spawned, hb, halive', -⟩ := Sys.step_task hs
      have heq := hsole.unique ht halive₀ ht' halive'
      exact hne ch (by rw [heq])
    · exact (doomed_step (h.doomed t job' pc ht halive₀) rfl hadv).doomed
    · -- the task just spawned
      have hij : i = j := by
        by_contra hij
        cases hsole.others i _ hij hspawn
      subst hij
      obtain ⟨pc, hj⟩ := hsole.run
      cases hspawn.symm.trans hj
      refine .inr (.inr ⟨rfl, hkept (fun t ch job₁ pc₁ hl ht => ?_) (h.starting _ hj rfl)⟩)
      cases hl
      cases ht.symm.trans hj

/-- `cancel` does not start over. -/
theorem advanceCancel_ne_start {em inStream : Bool} {c c' : Core} {pc pc' : CancelPc}
    (h : advanceCancel i inStream em ch c pc = some (c', pc')) : pc' ≠ .start := by
  cases pc with
  | ctrlX was err => cases err <;> cases h <;> simp
  | abort was =>
    simp only [advanceCancel] at h
    split_ifs at h
    · cases h
      simp
    · split at h
      · cases h
        simp
      · split_ifs at h <;> cases h <;> simp
  | next was commands =>
    cases commands <;> simp only [advanceCancel] at h <;> (try split_ifs at h) <;> cases h <;>
      simp
  | _ =>
    simp only [advanceCancel] at h
    try split_ifs at h
    all_goals cases h
    all_goals simp

/-- A call of `cancel` is remembered. -/
theorem Interrupted.step (h : Interrupted k s) (hs : Sys.step l s = some u) :
    Interrupted k u := by
  obtain ⟨i, em, pc, hk, hi⟩ := h
  by_cases hl : ∃ ch, l = .task i ch
  · obtain ⟨ch, rfl⟩ := hl
    obtain ⟨b, c', b', spawned, hb, -, -, hadv, rfl⟩ := Sys.step_task hs
    obtain rfl : b = .cancel em pc := Option.some.inj (hb.symm.trans hi)
    obtain ⟨rfl, pc', rfl, -⟩ := advance_cancel hadv
    refine ⟨i, em, pc', hk, ?_⟩
    show (s.tasks.set i _ ++ [])[i]? = _
    rw [List.append_nil, List.getElem?_set_self (List.getElem?_eq_some_iff.mp hi).1]
  · exact ⟨i, em, pc, hk, Sys.step_tasks hs hi fun ch hi' => hl ⟨ch, hi'⟩⟩

/-- A step that cancels is one of the failure path, unless it is a call of `cancel`. -/
theorem Unbroken.cancelled (hsole : Sole j job s) (h : Unbroken k j job s)
    (hs : Sys.step l s = some u) (hcan : s.core.isCancelled = false)
    (hcan' : u.core.isCancelled = true) : ∃ i ch job' e, l = .task i ch ∧
      s.tasks[i]? = some (.stream job' (.cancelling .start e)) ∧ s.alive i = true := by
  by_cases htask : ∃ i ch, l = .task i ch
  · obtain ⟨i, ch, rfl⟩ := htask
    obtain ⟨b, c', b', spawned, hb, halive, -, hadv, rfl⟩ := Sys.step_task hs
    -- three functions raise the flag
    have hcancels : b.cancels = true := by
      by_contra hno
      have hfalse := (advance_flags hadv).cancelled (by simpa using hno) hcan
      rw [hfalse] at hcan'
      cases hcan'
    cases b with
    | stream job' pc =>
      cases pc with
      | cancelling pc e =>
        cases pc with
        | start => exact ⟨i, ch, job', e, rfl, hb, halive⟩
        | _ => cases hcancels
      | _ => cases hcancels
    | cancel em pc =>
      cases pc with
      | start => exact absurd rfl (h.cancels i em _ hb)
      | _ => cases hcancels
    | link on pc =>
      have hij : i ≠ j := by
        rintro rfl
        obtain ⟨pc', hj⟩ := hsole.run
        cases hb.symm.trans hj
      have hsettled := hsole.others i _ hij hb
      cases pc with
      | start => cases hsettled
      | _ => cases hcancels
    | _ => cases hcancels
  · rw [(Sys.step_aside hs fun i ch hi => htask ⟨i, ch, hi⟩).2.1, hcan] at hcan'
    cases hcan'

/-- **The job is not cancelled** before it is on its failure path, unless somebody calls
`cancel`. -/
theorem Unbroken.step (hsole : Sole j job s) (hhalt : Halted j job s) (h : Unbroken k j job s)
    (hs : Sys.step l s = some u) : Interrupted k u ∨ Unbroken k j job u := by
  by_cases hcall : ∃ em, l = .call (.cancel em)
  · obtain ⟨em, rfl⟩ := hcall
    simp only [Sys.step] at hs
    split_ifs at hs
    cases hs
    refine .inl ⟨s.tasks.length, em, .start, h.length, ?_⟩
    show (s.tasks ++ [_])[s.tasks.length]? = _
    simp [Call.body]
  refine .inr ⟨h.length.trans (Sys.step_length hs), fun i em pc hu => ?_, fun hcan pc' hu => ?_,
    fun hcan t job' pc' hu halive => ?_⟩
  · cases hi : s.tasks[i]? with
    | none =>
      rcases Sys.step_new hs hi hu with ⟨op, rfl, hb⟩ | ⟨_, _, _, _, _, hb⟩ | hb
      · cases op <;> cases hb
        exact absurd ⟨_, rfl⟩ hcall
      · cases hb
      · cases hb
    | some b =>
      by_cases hl : ∃ ch, l = .task i ch
      · obtain ⟨ch, rfl⟩ := hl
        obtain ⟨b₀, c', b', spawned, hb, -, -, hadv, rfl⟩ := Sys.step_task hs
        have hlen := (List.getElem?_eq_some_iff.mp hb).1
        have hu' : (s.tasks.set i b' ++ spawned)[i]? = some (.cancel em pc) := hu
        rw [List.getElem?_append_left (by rw [List.length_set]; exact hlen),
          List.getElem?_set_self hlen] at hu'
        cases hu'
        cases b₀ with
        -- a `cancel` that has started never goes back to its first counter
        | cancel em₀ pc₀ =>
          obtain ⟨-, pc₁, heq, hstep⟩ := advance_cancel hadv
          cases heq
          exact advanceCancel_ne_start hstep
        | run job₀ pc₀ =>
          obtain ⟨⟨c1, pc1, sp⟩, -, h2⟩ := Option.map_eq_some_iff.mp hadv
          cases h2
        | link on pc₀ =>
          obtain ⟨⟨c1, pc1, sp⟩, -, h2⟩ := Option.map_eq_some_iff.mp hadv
          cases h2
        | _ =>
          obtain ⟨⟨c1, pc1⟩, -, h2⟩ := Option.map_eq_some_iff.mp hadv
          cases h2
      · have hsame := Sys.step_tasks hs hi fun ch hi' => hl ⟨ch, hi'⟩
        obtain rfl : b = .cancel em pc := Option.some.inj (hsame.symm.trans hu)
        exact h.cancels i em pc hi
  · by_contra hstart
    have hstart' : pc'.starting = true := by simpa using hstart
    obtain ⟨pc, hj, hpc⟩ := hsole.step_run hs hu
    have hstarting : pc.starting = true := by
      rcases hpc with ⟨rfl, -⟩ | ⟨ch, sp, -, hadv⟩
      · exact hstart'
      · exact (advanceRun_begun hadv (hhalt.begun pc hj)).2.1 hstart'
    cases hold : s.core.isCancelled with
    | true =>
      rw [h.starting hold pc hj] at hstarting
      cases hstarting
    -- the flag was set in this very step: by the failure path of the streaming task
    | false =>
      obtain ⟨i, ch, job', e, rfl, hi, -⟩ := h.cancelled hsole hs hold hcan
      exact hsole.no_stream hj hstarting hi hs
  · have halive₀ := Sys.alive_of_step hs halive
    rcases Sys.step_stream hs hu with ⟨pc, ht, hpc⟩ | ⟨-, rfl, i, ch, rfl, hspawn⟩
    -- either it was cancelled before, or its own failure has just cancelled it
    · have hfailed : pc.failed = true := by
        cases hold : s.core.isCancelled with
        | true => exact h.failed hold t job' pc ht halive₀
        | false =>
          obtain ⟨i, ch, job₁, e, rfl, hi, halive'⟩ := h.cancelled hsole hs hold hcan
          obtain rfl := hsole.unique ht halive₀ hi halive'
          cases ht.symm.trans hi
          rfl
      rcases hpc with ⟨rfl, -⟩ | ⟨ch, -, -, -, hadv⟩
      · exact hfailed
      · exact failed_advance hfailed hadv
    · -- a streaming task is spawned: the job was starting
      have hij : i = j := by
        by_contra hij
        cases hsole.others i _ hij hspawn
      subst hij
      obtain ⟨pc, hj⟩ := hsole.run
      cases hspawn.symm.trans hj
      cases hold : s.core.isCancelled with
      | true => cases h.starting hold _ hj
      | false =>
        obtain ⟨i', ch', job₁, e, hl, hi, -⟩ := h.cancelled hsole hs hold hcan
        cases hl
        cases hi.symm.trans hj

/-! ### Counting -/

/-- The lines the streaming task `t` may still write. -/
def Sys.budget (t : ℕ) (s : Sys) : ℕ :=
  match s.tasks[t]? with
  | some (.stream _ pc) => pc.budget
  | _ => 0

/-- How far the streaming task `t`, which may not be spawned yet, is from the end of
`stream_gcode_inner`. -/
def Sys.distance (N t : ℕ) (s : Sys) : ℕ :=
  match s.tasks[t]? with
  | some (.stream _ pc) => pc.distance N
  | _ => StreamPc.start.distance N

/-- A step of the streaming task `t` within `stream_gcode_inner`. -/
def innerStep (t : ℕ) (s : Sys) (l : Label) : Bool :=
  match l with
  | .task i _ => i == t && match s.tasks[t]? with
    | some (.stream _ pc) => pc.inner
    | _ => false
  | _ => false

/-- The stall callback of the streaming task `t` has it wait again. -/
def retryStep (t : ℕ) (s : Sys) (l : Label) : Bool :=
  match l with
  | .task i _ => i == t && match s.tasks[t]? with
    | some (.stream _ pc) => pc.retries
    | _ => false
  | _ => false

/-- **What a step of the session spends**: lines, and distance. -/
theorem Halted.spends {N : ℕ} (h : Halted j job s) (hs : Sys.step l s = some u)
    (hN : s.core.config.pollResponseAttempts = N) :
    (u.core.jobLines t).length + u.budget t ≤ (s.core.jobLines t).length + s.budget t ∧
      u.distance N t + (innerStep t s l).toNat
        ≤ s.distance N t + (retryStep t s l).toNat * (21 + 2 * N) := by
  by_cases hown : ∃ ch job' pc, l = .task t ch ∧ s.tasks[t]? = some (.stream job' pc)
  · obtain ⟨ch, job', pc, rfl, ht⟩ := hown
    obtain ⟨b, c', b', spawned, hb, halive, -, hadv, rfl⟩ := Sys.step_task hs
    obtain rfl : b = .stream job' pc := Option.some.inj (hb.symm.trans ht)
    obtain ⟨⟨c₁, pc'⟩, hstep, heq⟩ := Option.map_eq_some_iff.mp hadv
    cases heq
    have hlen := (List.getElem?_eq_some_iff.mp ht).1
    have hspend := doomed_step (h.doomed t job' pc ht halive) hN hstep
    have hnew : (s.tasks.set t (.stream job' pc') ++ [])[t]? = some (.stream job' pc') := by
      rw [List.append_nil, List.getElem?_set_self hlen]
    constructor
    · simpa only [Sys.budget, ht, hnew] using hspend.lines
    · simpa only [Sys.distance, innerStep, retryStep, ht, hnew, beq_self_eq_true, Bool.true_and]
        using hspend.nearer
  · have hlines : u.core.jobLines t = s.core.jobLines t := by
      refine jobLines_step hs fun ch b hl hb => ?_
      cases b with
      | stream job' pc => exact absurd ⟨ch, job', pc, hl, hb⟩ hown
      | _ => rfl
    have hinner : innerStep t s l = false ∧ retryStep t s l = false := by
      cases l with
      | task i ch =>
        by_cases hi : i = t
        · subst hi
          cases ht : s.tasks[i]? with
          | none => simp [innerStep, retryStep, ht]
          | some b =>
            cases b with
            | stream job' pc => exact absurd ⟨ch, job', pc, rfl, ht⟩ hown
            | _ => simp [innerStep, retryStep, ht]
        · simp [innerStep, retryStep, hi]
      | _ => exact ⟨rfl, rfl⟩
    -- whatever task `t` is, it has not moved, or is no streaming task
    have hsame : u.budget t = s.budget t ∧ u.distance N t = s.distance N t := by
      cases ht : s.tasks[t]? with
      | none =>
        cases hu : u.tasks[t]? with
        | none => simp only [Sys.budget, Sys.distance, ht, hu, and_self]
        | some b =>
          rcases Sys.step_new hs ht hu with ⟨op, -, rfl⟩ | ⟨i, ch, job', -, -, rfl⟩ | rfl
          · cases op <;> simp [Sys.budget, Sys.distance, ht, hu, Call.body]
          · simp [Sys.budget, Sys.distance, ht, hu, StreamPc.budget]
          · simp [Sys.budget, Sys.distance, ht, hu]
      | some b =>
        by_cases hl : ∃ ch, l = .task t ch
        · obtain ⟨ch, rfl⟩ := hl
          obtain ⟨b₀, c', b', spawned, hb, -, -, hadv, rfl⟩ := Sys.step_task hs
          obtain rfl : b = b₀ := Option.some.inj (ht.symm.trans hb)
          have hlen := (List.getElem?_eq_some_iff.mp ht).1
          have hnew : (s.tasks.set t b' ++ spawned)[t]? = some b' := by
            rw [List.getElem?_append_left (by rw [List.length_set]; exact hlen),
              List.getElem?_set_self hlen]
          have hkind := advance_isStream hadv
          cases b with
          | stream job' pc => exact absurd ⟨ch, job', pc, rfl, ht⟩ hown
          | _ =>
            cases b' with
            | stream job' pc => cases hkind
            | _ => simp only [Sys.budget, Sys.distance, ht, hnew, and_self]
        · have hu := Sys.step_tasks hs ht fun ch hi => hl ⟨ch, hi⟩
          simp only [Sys.budget, Sys.distance, ht, hu, and_self]
    rw [hlines, hinner.1, hinner.2, hsame.1, hsame.2]
    simp

/-- At an await point, and not finished, a streaming task is not past its result. -/
theorem not_over_of_suspended {pc : StreamPc} (hsusp : pc.suspended = true)
    (hend : ∀ err, pc ≠ .finished err) : pc.over = false := by
  cases pc with
  | outcome err => cases hsusp
  | final err => cases hsusp
  | finished err => exact absurd rfl (hend err)
  | _ => rfl

/-- The failure of the job is recorded. -/
theorem Halted.of_rx {data : Bytes} (hsole : Sole j job s)
    (hbegun : ∀ pc, s.tasks[j]? = some (.run job pc) → pc.begun = true)
    (hjob : s.core.jobRunning = true) (hfails : s.core.fails data = true)
    (hrx : Sys.step (.rx data) s = some u) :
    Halted j job u ∧ Unbroken s.tasks.length j job u := by
  simp only [Sys.step, Sys.outside] at hrx
  split_ifs at hrx with hact
  cases hrx
  have hexc := handleRx_raises hjob hfails
  have hframe := handleRx_frame data s.core
  have hsusp : ∀ (i : ℕ) (b : Body), s.tasks[i]? = some b → b.suspended = true := by
    intro i b hb
    by_contra hno
    rw [hsole.waits i b hb (by simpa using hno)] at hact
    cases hact
  have hcan : (s.core.handleRx data).isCancelled = false :=
    hframe.isCancelled.trans (hsole.flags hjob)
  refine ⟨⟨hbegun, fun pc hpc _ => hexc, fun t job' pc ht halive => ?_⟩,
    ⟨Nat.le_refl _, fun i em pc hi hpc => ?_, fun h => ?_, fun h => ?_⟩⟩
  · have halive₀ : s.alive t = true := by
      simpa only [Sys.alive, hframe.aborted, hframe.ended] using halive
    have hend := (hsole.slot t job' pc ht halive₀).2
    exact .inr (.inr ⟨not_over_of_suspended (hsusp t _ ht) hend, hexc⟩)
  · subst hpc
    cases hsusp i _ hi
  · have h' : (s.core.handleRx data).isCancelled = true := h
    rw [hcan] at h'
    cases h'
  · have h' : (s.core.handleRx data).isCancelled = true := h
    rw [hcan] at h'
    cases h'

/-- What is claimed of the streaming task `t` of `job`, which is at `pc` in the state `s`, after
`n` steps within `stream_gcode_inner` and `r` retries since the state `before`. -/
structure Halts (before s : Sys) (t : ℕ) (job : Job) (pc : StreamPc) (n r : ℕ) : Prop where
  /-- At most one further line is written. -/
  lines : (s.core.jobLines t).length ≤ (before.core.jobLines t).length + 1
  /-- `stream_gcode_inner` does not return `Ok`. -/
  fails : pc.over = false
  /-- `stream_gcode_inner` returns. -/
  returns : n ≤ (r + 1) * (27 + 2 * before.core.config.pollResponseAttempts)
  /-- Until then the task can go on when it is its turn, unless it waits for the lock. -/
  goesOn : s.alive t = true → s.active = none ∨ s.active = some t → pc.inner = true →
    (pc.awaitsLock = true → s.core.cmdLock = none) →
    (Sys.step (.task t { timedOut := true }) s).isSome = true
  /-- When it returns, `cancel(true)` is called, unless somebody has called `cancel`. -/
  cancels : ¬ Interrupted before.tasks.length s → ∀ err, pc = .outcome err → ∃ e, err = some e ∧
    ∀ ch v, Sys.step (.task t ch) s = some v →
      v.tasks[t]? = some (.stream job (.cancelling .start e))

/-- The next thing a failed job does. -/
theorem Halted.calls_cancel {e : SessionError} {job' : Job} (h : Unbroken k j job s)
    (hs : s.tasks[t]? = some (.stream job' (.outcome (some e))))
    (hstep : Sys.step (.task t ch) s = some u) :
    u.tasks[t]? = some (.stream job' (.cancelling .start e)) := by
  obtain ⟨b, c', b', spawned, hb, halive, -, hadv, rfl⟩ := Sys.step_task hstep
  obtain rfl : b = .stream job' (.outcome (some e)) := Option.some.inj (hb.symm.trans hs)
  have hcan : s.core.isCancelled = false := by
    by_contra hcan
    cases h.failed (by simpa using hcan) t job' _ hs halive
  obtain ⟨⟨c₁, pc'⟩, hadv', heq⟩ := Option.map_eq_some_iff.mp hadv
  cases heq
  simp only [advanceStream, hcan, Bool.false_eq_true, if_false] at hadv'
  cases hadv'
  show (s.tasks.set t _ ++ [])[t]? = _
  rw [List.append_nil, List.getElem?_set_self (List.getElem?_eq_some_iff.mp hs).1]

end Run

/-! ### Whole runs -/

/-- **A device error or alarm halts the stream.**  The job was started while nobody else was
starting or ending one, and nobody has since.  Then from the chunk on that holds the error or
the alarm line, the streaming task of the job writes at most one further line; it can go on
unless it waits for the lock, and within the steps given `stream_gcode_inner` returns an error,
and unless somebody has called `cancel` meanwhile, `cancel(true)` is called. -/
theorem failed_job_halts {op : Call} {job job' : Job} {pc₀ : RunPc} {s₀ s₁ s₂ s₃ s : Sys}
    {data : Bytes} {t n r : ℕ} {pc : StreamPc} (h0 : Steady s₀) (hop : op.body = .run job pc₀)
    (hcall : Sys.step (.call op) s₀ = some s₁)
    (hr : Run Sys.step (fun _ l _ => l.keepsJob = true) s₁ s₂)
    (hbegun : ∀ pc, s₂.tasks[s₀.tasks.length]? = some (.run job pc) → pc.begun = true)
    (hjob : s₂.core.jobRunning = true) (hfails : s₂.core.fails data = true)
    (hrx : Sys.step (.rx data) s₂ = some s₃)
    (hr' : CountedRun Sys.step (fun _ l _ => l.keepsJob = true) (innerStep t) (retryStep t)
      n r s₃ s)
    (halive : s₂.alive t = true) (hs : s.tasks[t]? = some (.stream job' pc)) :
    Halts s₂ s t job' pc n r := by
  set j := s₀.tasks.length with hj
  set N := s₂.core.config.pollResponseAttempts with hN
  set L := (s₂.core.jobLines t).length + 1 with hL
  have hsole₂ : Sole j job s₂ :=
    hr.invariant (I := Sole j job) (fun a l b h hs hok => h.step hs hok) (.of_call h0 hop hcall)
  have hsole₃ := hsole₂.step hrx rfl
  obtain ⟨hhalt₃, hunbroken₃⟩ := Halted.of_rx hsole₂ hbegun hjob hfails hrx
  -- nothing else but the exception has changed with the chunk
  have hchunk : s₃.core.jobLines t = s₂.core.jobLines t :=
    jobLines_step hrx fun ch b hl => by cases hl
  have halive₃ : s₃.alive t = true := by
    simp only [Sys.step, Sys.outside] at hrx
    split_ifs at hrx
    cases hrx
    have hframe := handleRx_frame data s₂.core
    simpa only [Sys.alive, hframe.aborted, hframe.ended] using halive
  have hlines₃ : (s₃.core.jobLines t).length + s₃.budget t ≤ L := by
    have hbudget : s₃.budget t ≤ 1 := by
      unfold Sys.budget
      split
      · exact StreamPc.budget_le _
      · exact Nat.zero_le _
    rw [hchunk, hL]
    omega
  let I : Sys → Prop := fun s => Sole j job s ∧ Halted j job s ∧
    (Interrupted s₂.tasks.length s ∨ Unbroken s₂.tasks.length j job s) ∧
    (∀ job' pc, s.tasks[t]? = some (.stream job' pc) → pc.over = false) ∧
    s.core.config.pollResponseAttempts = N ∧ (s.core.jobLines t).length + s.budget t ≤ L
  have hI : ∀ a l b, I a → Sys.step l a = some b → l.keepsJob = true → I b := by
    rintro a l b ⟨hsole, hhalt, hbroken, hover, hconfig, hlines⟩ hst hok
    refine ⟨hsole.step hst hok, hhalt.step hsole hst, ?_, fun job' pc hb => ?_, ?_,
      (hhalt.spends hst hconfig).1.trans hlines⟩
    · rcases hbroken with h | h
      · exact .inl (h.step hst)
      · exact h.step hsole hhalt hst
    · rcases Sys.step_stream hst hb with ⟨pc₀, ha, ⟨rfl, -⟩ | ⟨ch, -, hlive, -, hadv⟩⟩ | ⟨-, rfl, -⟩
      · exact hover job' pc₀ ha
      · exact (doomed_step (hhalt.doomed t job' pc₀ ha hlive) rfl hadv).doomed.not_over
      · rfl
    · rw [Sys.step_config hst]
      exact hconfig
  have hstart : I s₃ := ⟨hsole₃, hhalt₃, .inr hunbroken₃,
    fun job' pc h => (hhalt₃.doomed t job' pc h halive₃).not_over,
    by rw [Sys.step_config hrx], hlines₃⟩
  obtain ⟨hsole, hhalt, hbroken, hover, hconfig, hlines⟩ := hr'.run.invariant hI hstart
  refine ⟨?_, hover job' pc hs, ?_, fun hlive hturn hinner hlock => ?_, fun hno err herr => ?_⟩
  · omega
  · -- the distance pays for the steps
    have hbound := hr'.bound (f := Sys.distance N t) (B := 21 + 2 * N) hI
      (fun a l b hIa hst _ => (hIa.2.1.spends hst hIa.2.2.2.2.1).2) hstart
    have hdist : s₃.distance N t ≤ 27 + 2 * N := by
      unfold Sys.distance
      split
      · rename_i job₁ pc₁ ht
        refine StreamPc.distance_le ?_
        rw [← hstart.2.2.2.2.1]
        exact hsole₃.attempts t job₁ pc₁ ht
      · simp only [StreamPc.distance]
        omega
    have hretries : r * (21 + 2 * N) ≤ r * (27 + 2 * N) := Nat.mul_le_mul_left r (by omega)
    rw [← hN, Nat.add_mul, Nat.one_mul]
    omega
  · have henabled : (advanceStream t job' { timedOut := true } s.core pc).isSome = true :=
      advanceStream_enabled hinner hlock
    have hen : s.active = some t ∨ (s.active = none ∧ (Body.stream job' pc).suspended = true) := by
      rcases hturn with hnone | hsome
      · refine .inr ⟨hnone, ?_⟩
        by_contra hsusp
        rw [hsole.waits t _ hs (by simpa using hsusp)] at hnone
        cases hnone
      · exact .inl hsome
    have hguard : (s.alive t && (decide (s.active = some t) ||
        decide (s.active = none) && (Body.stream job' pc).suspended)) = true := by
      rw [hlive, Bool.true_and, Bool.or_eq_true, Bool.and_eq_true, decide_eq_true_eq,
        decide_eq_true_eq]
      exact hen
    simp only [Sys.step, Sys.advanceTask, hs]
    rw [if_pos hguard]
    simpa only [advance, Option.isSome_map] using henabled
  · subst herr
    have hnot := hover _ _ hs
    cases err with
    | none => cases hnot
    | some e =>
      refine ⟨e, rfl, fun ch v hv => ?_⟩
      rcases hbroken with h | h
      · exact absurd h hno
      · exact Halted.calls_cancel h hs hv

/-! ### Runs of a fixed job -/

/-- A session that nobody has used. -/
def newSession : Sys := { core := {}, tasks := [] }

theorem steady_newSession : Steady newSession where
  waits := fun i b hb => by simp [newSession] at hb
  slot := fun t job pc ht => by simp [newSession] at ht
  attempts := fun t job pc ht => by simp [newSession] at ht
  flags := nofun
  active := rfl
  settled := fun i b hb => by simp [newSession] at hb

/-- A job writes its first line. -/
def firstLine : Sys :=
  reach Sys.step (turns 0 3 ++ turns 1 6) (reach Sys.step [.call (.run twoLines)] newSession)

/-- The line is refused: the general result, at the end of `stream_gcode_inner`. -/
theorem failed_job_halts_refused :
    ∃ n r, Halts firstLine
      (reach Sys.step (turns 1 4) (reach Sys.step [.rx (ascii "error:9\n")] firstLine)) 1 twoLines
      (.outcome (some (.device "GRBL error: error:9".toList))) n r := by
  have hrun : Run Sys.step (fun _ l _ => l.keepsJob = true)
      (reach Sys.step [.rx (ascii "error:9\n")] firstLine)
      (reach Sys.step (turns 1 4) (reach Sys.step [.rx (ascii "error:9\n")] firstLine)) :=
    run_reach_where (by decide)
  obtain ⟨n, r, hcounted⟩ := hrun.counted (innerStep 1) (retryStep 1)
  have hop : (Call.run twoLines).body = .run twoLines .begin := rfl
  have hfails : firstLine.core.fails (ascii "error:9\n") = true := by decide
  refine ⟨n, r, failed_job_halts steady_newSession hop (by rfl)
    (run_reach_where (by decide)) (fun pc hpc => ?_) (by decide) hfails (by rfl) hcounted
    (by decide) (by decide)⟩
  have hj : firstLine.tasks[(0 : ℕ)]? = some (.run twoLines (.join 1)) := by decide
  obtain rfl : RunPc.join 1 = pc := by simpa using hj.symm.trans hpc
  rfl

/-- Three runs at once: the second and the third both spawn their task. -/
def twoStreams : Sys :=
  reach Sys.step (.call (.run twoLines) :: turns 0 3 ++ .call (.run twoLines) :: turns 2 2 ++
    .call (.run twoLines) :: turns 3 3 ++ .drop 1 :: turns 2 2) newSession

/-- **A failure can be overlooked**: an `ALARM:` line that is taken for a piece of a status
report is recorded nowhere; and of two jobs at once only one takes the exception. -/
theorem alarm_overlooked :
    (¬ ∀ (s₁ s₂ s : Sys) (data : Bytes) (line : Text) (t : ℕ) (job : Job),
      Run Sys.step AnyStep newSession s₁ → s₁.core.jobRunning = true →
      .line line ∈ (s₁.core.flow.parseExtracted data).2 →
      startsWith "ALARM:".toList line = true → Sys.step (.rx data) s₁ = some s₂ →
      Run Sys.step (fun _ l _ => l.keepsJob = true) s₂ s →
      s.tasks[t]? ≠ some (.stream job (.outcome none))) ∧
    ¬ ∀ (s₁ s₂ s : Sys) (data : Bytes) (t : ℕ) (job : Job),
      Run Sys.step AnyStep newSession s₁ → s₁.core.jobRunning = true →
      s₁.core.fails data = true → Sys.step (.rx data) s₁ = some s₂ →
      Run Sys.step (fun _ l _ => l.keepsJob = true) s₂ s → s₁.alive t = true →
      s.tasks[t]? ≠ some (.stream job (.outcome none)) := by
  constructor
  · intro h
    let data := ascii "ALARM:1|MPos:0\n"
    let s₁ := reach Sys.step (.call (.run twoLines) :: turns 0 3 ++ turns 1 6) newSession
    let s₂ := reach Sys.step [.rx data] s₁
    let s := reach Sys.step (turns 1 14 ++ .rx (ascii "ok\nok\n") :: turns 1 2) s₂
    exact h s₁ s₂ s data "ALARM:1|MPos:0".toList 1 twoLines (run_reach (by decide)) (by decide)
      (by decide) (by decide) (by rfl) (run_reach_where (by decide)) (by decide)
  · intro h
    let s₂ := reach Sys.step [.rx (ascii "error:9\n")] twoStreams
    let s := reach Sys.step (turns 4 6 ++ turns 5 4) s₂
    exact h twoStreams s₂ s (ascii "error:9\n") 5 twoLines (run_reach (by decide)) (by decide)
      (by decide) (by rfl) (run_reach_where (by decide)) (by decide) (by decide)

end Raydriver
