import Raydriver.Grbl.Frames

/-!
# The lines of a job go out in order

The streaming task takes the lines of its job one after the other: what it has handed to
the transport and what it still has to send make up the whole job.  Whatever else the
session does, only the task itself writes under its name, so this survives stalls,
retries, polls, recoveries and the waits for the lock.

There are three ways out of the send loop with lines unsent: an exception, a
cancellation, and an alarm.  The first two are still there when `stream_gcode_inner`
returns, since no other task runs in between; an alarm may be gone by then.

## Main definitions

* `toSend`, `StreamPc.left` — the lines still to be sent.
* `Core.jobLines t c` — what the streaming task `t` has written.
* `StreamPc.handing` — the line whose write has failed.
* `StreamPc.cut` — where the loop may have been left early.
* `Sequential` — the invariant.

## Main results

* `Sequential.stream` — what a step of the streaming task keeps.
* `sequential_of_run` — **the invariant of every run**.
-/

namespace Raydriver

open Lts

/-! ### What is left to send -/

/-- The lines sent for a job: without comments, and none that are empty. -/
def toSend (lines : List Text) : List Text :=
  ((lines.map stripGcodeComments).filter fun l => !l.isEmpty).map commandLine

theorem toSend_cons (line : Text) (lines : List Text) :
    toSend (line :: lines) = if (stripGcodeComments line).isEmpty then toSend lines
      else commandLine (stripGcodeComments line) :: toSend lines := by
  unfold toSend
  rw [List.map_cons, List.filter_cons]
  cases (stripGcodeComments line).isEmpty <;> rfl

/-- The line whose send is stalled, and the lines behind it. -/
def Site.left : Site → List Text
  | .stall s => s.payload :: toSend s.rest
  | .drain => []

/-- What the streaming task still has to send. -/
def StreamPc.left (job : Job) : StreamPc → List Text
  | .start => toSend job.lines
  | .loopTop _ rest | .yielded _ rest => toSend rest
  | .lockWait s | .locked s | .spaceCheck s | .spaceWait s | .send s | .stall s
  | .stallEnd s _ => s.payload :: toSend s.rest
  | .writing s _ | .afterSend s => toSend s.rest
  | .poll w | .pollSend w _ | .pollWriting w _ _ | .pollFailed w | .pollAwait w _ _
  | .pollSleep w _ _ | .pollDone w _ | .pollEnd w _ | .recover w | .recoverStart w
  | .recoverSpace w | .recoverSend w | .recoverWriting w | .recoverSent w | .recoverDrain w
  | .recoverReset w | .recoverEnd w => w.left
  | _ => []

/-! ### What has been sent -/

/-- The lines the streaming task `t` has written. -/
def Core.jobLines (t : ℕ) (c : Core) : List Text :=
  (c.sent.filter fun e => e.origin == .job t).map Sent.payload

/-- A line that was handed to the transport, which refused it. -/
def StreamPc.handing : StreamPc → List Text
  | .writing s (some _) => [s.payload]
  | _ => []

/-- At the end of the job, in `drain_pending_acks`. -/
def StreamPc.windsUp : StreamPc → Bool
  | .drainTop | .drainWait | .poll .drain | .pollLock _ | .pollSend .drain _
  | .pollWriting .drain _ _ | .pollFailed .drain | .pollAwait .drain _ _ | .pollSleep .drain _ _
  | .pollDone .drain _ | .pollEnd .drain _ | .recover .drain | .recoverLock
  | .recoverStart .drain | .recoverSpace .drain | .recoverSend .drain | .recoverWriting .drain
  | .recoverSent .drain | .recoverDrain .drain | .recoverReset .drain
  | .recoverEnd .drain => true
  | _ => false

/-- The job has failed or is past its end. -/
def StreamPc.gone : StreamPc → Bool
  | .outcome (some _) | .cancelling _ _ | .final _ | .finished _ => true
  | _ => false

/-- On the way out of the send loop. -/
def StreamPc.exits : StreamPc → Bool
  | .afterSend _ | .afterLoop | .innerEnd | .outcome none => true
  | _ => false

/-- Behind a send with lines left, an alarm is about to end the loop without an exception. -/
def StreamPc.overlooks (c : Core) : StreamPc → Bool
  | .afterSend s => c.isAlarm && c.jobException.isNone && !(toSend s.rest).isEmpty
  | _ => false

theorem isAlarm_of_overlooks {pc : StreamPc} {c : Core} (h : pc.overlooks c = true) :
    c.isAlarm = true := by
  cases pc with
  | afterSend s =>
    simp only [StreamPc.overlooks, Bool.and_eq_true] at h
    exact h.1.1
  | _ => cases h

/-- The loop may have been left with lines unsent: then there is an exception or a
cancellation, or `A` holds, which stands for an alarm that was seen. -/
def StreamPc.cut (A : Prop) (c : Core) (pc : StreamPc) : Prop :=
  match pc with
  | .afterSend _ => c.jobException.isSome = true
  | .afterLoop | .innerEnd => c.jobException.isSome = true ∨ c.isCancelled = true ∨ A
  | .outcome none => c.isCancelled = true ∨ A
  | pc => pc.gone = true ∨ (pc.windsUp = true ∧ A)

/-- The invariant: what has been handed over and what is left is the whole job, or the
loop has been left early and what has been handed over is a beginning of it. -/
def Sequential (A : Prop) (t : ℕ) (job : Job) (pc : StreamPc) (c : Core) : Prop :=
  c.jobLines t ++ pc.handing ++ pc.left job = toSend job.lines ∨
    (pc.cut A c ∧ c.jobLines t ++ pc.handing <+: toSend job.lines)

theorem jobLines_of_sent {t : ℕ} {c c' : Core} (h : c'.sent = c.sent) :
    c'.jobLines t = c.jobLines t := by
  unfold Core.jobLines
  rw [h]

/-- What is written under another name is no line of the job. -/
theorem jobLines_of_writes {t : ℕ} {c c' : Core} (h : Writes (· ≠ .job t) c c') :
    c'.jobLines t = c.jobLines t := by
  obtain ⟨w, hw, hne⟩ := h
  have hnone : w.filter (fun e => e.origin == .job t) = [] :=
    List.filter_eq_nil_iff.mpr fun e he => by simpa using hne e he
  unfold Core.jobLines
  rw [hw, List.filter_append, hnone, List.append_nil]

section Sequential

variable {A : Prop} {t : ℕ} {job : Job} {ch : Choice} {pc pc' : StreamPc} {c c' : Core}

/-- In either case a beginning of the job has been handed over. -/
theorem Sequential.begins (h : Sequential A t job pc c) :
    c.jobLines t ++ pc.handing <+: toSend job.lines := by
  rcases h with h | ⟨-, h⟩
  · exact ⟨_, h⟩
  · exact h

/-- A step that hands nothing over and leaves nothing out. -/
theorem Sequential.keep (h : Sequential A t job pc c) (hlines : c'.jobLines t = c.jobLines t)
    (hhand : pc'.handing = pc.handing) (hleft : pc'.left job = pc.left job)
    (hcut : pc.cut A c → pc'.cut A c') : Sequential A t job pc' c' := by
  unfold Sequential
  rw [hlines, hhand, hleft]
  exact h.imp id fun h => ⟨hcut h.1, h.2⟩

/-- A step out of the loop. -/
theorem Sequential.leave (h : Sequential A t job pc c) (hlines : c'.jobLines t = c.jobLines t)
    (hhand : pc'.handing = []) (hcut : pc'.cut A c') : Sequential A t job pc' c' := by
  refine .inr ⟨hcut, ?_⟩
  rw [hlines, hhand, List.append_nil]
  exact (List.prefix_append _ _).trans h.begins

/-- Away from the exits, the loop is cut behind the job, or in the drain. -/
theorem cut_iff (hexits : pc.exits = false) :
    pc.cut A c ↔ pc.gone = true ∨ (pc.windsUp = true ∧ A) := by
  unfold StreamPc.cut
  cases pc with
  | outcome err => cases err <;> first | exact Iff.rfl | cases hexits
  | _ => first | exact Iff.rfl | cases hexits

/-- In the middle of the loop nothing is cut. -/
theorem not_cut (hexits : pc.exits = false) (hgone : pc.gone = false)
    (hdrain : pc.windsUp = false) : ¬ pc.cut A c := by
  rw [cut_iff hexits, hgone, hdrain]
  simp

/-- A step within the loop. -/
theorem Sequential.loop (h : Sequential A t job pc c) (hlines : c'.jobLines t = c.jobLines t)
    (hhand : pc'.handing = pc.handing) (hleft : pc'.left job = pc.left job)
    (hexits : pc.exits = false) (hgone : pc.gone = false) (hdrain : pc.windsUp = false) :
    Sequential A t job pc' c' :=
  h.keep hlines hhand hleft fun hc => absurd hc (not_cut hexits hgone hdrain)

/-- A step within a poll or a recovery, of a send or of the drain. -/
theorem Sequential.site (h : Sequential A t job pc c) (hlines : c'.jobLines t = c.jobLines t)
    (hhand : pc'.handing = pc.handing) (hleft : pc'.left job = pc.left job)
    (hexits : pc.exits = false) (hgone : pc.gone = false)
    (hcut : pc.windsUp = true → A → pc'.cut A c') : Sequential A t job pc' c' := by
  refine h.keep hlines hhand hleft fun hc => ?_
  rw [cut_iff hexits, hgone] at hc
  rcases hc with hc | ⟨hd, ha⟩
  · cases hc
  · exact hcut hd ha

/-! ### The steps of the streaming task -/

/-- The head of the send loop. -/
theorem Sequential.loopTop {idx : ℕ} {rest : List Text}
    (h : Sequential A t job (.loopTop idx rest) c)
    (hs : advanceStream t job ch c (.loopTop idx rest) = some (c', pc')) :
    Sequential A t job pc' c' := by
  cases rest with
  | nil =>
    cases hs
    exact h.loop rfl rfl rfl rfl rfl rfl
  | cons line rest =>
    simp only [advanceStream] at hs
    split_ifs at hs with hstop hempty
    · cases hs
      refine h.leave rfl rfl ?_
      by_cases hcan : c.isCancelled = true
      · exact .inr (.inl hcan)
      · -- an alarm leaves an exception here
        refine .inl ?_
        unfold Core.raiseOnAlarm
        by_cases halarm : c.isAlarm = true
        · simp [halarm]
        · simpa [hcan, halarm] using hstop
    · cases hs
      refine h.loop rfl rfl ?_ rfl rfl rfl
      show toSend rest = toSend (line :: rest)
      rw [toSend_cons, if_pos hempty]
    · cases hs
      refine h.loop rfl rfl ?_ rfl rfl rfl
      show _ :: toSend rest = toSend (line :: rest)
      rw [toSend_cons, if_neg hempty]
      rfl

/-- A line is handed to the transport. -/
theorem Sequential.send {s : Send} (h : Sequential A t job (.send s) c) :
    Sequential A t job (.writing s ch.writeError)
      (c.sendTracked (.job t) s.payload s.opIndex ch.writeError) := by
  have hwhole : c.jobLines t ++ [] ++ (s.payload :: toSend s.rest) = toSend job.lines := by
    rcases h with h | ⟨hcut, -⟩
    · exact h
    · exact absurd hcut (not_cut rfl rfl rfl)
  refine .inl ?_
  rw [← hwhole]
  cases ch.writeError with
  | none =>
    have hlines : (c.sendTracked (.job t) s.payload s.opIndex none).jobLines t
        = c.jobLines t ++ [s.payload] := by
      simp [Core.jobLines, Core.sendTracked, Core.write, Core.track]
    rw [hlines]
    simp [StreamPc.handing, StreamPc.left]
  | some e =>
    have hlines : (c.sendTracked (.job t) s.payload s.opIndex (some e)).jobLines t
        = c.jobLines t := by
      refine jobLines_of_sent ?_
      show c.sent ++ [] = c.sent
      rw [List.append_nil]
    rw [hlines]
    simp [StreamPc.handing, StreamPc.left]

/-- The checks behind a send. -/
theorem Sequential.afterSend {s : Send}
    (hseen : (StreamPc.afterSend s).overlooks c = true → A) (h : Sequential A t job (.afterSend s) c)
    (hs : advanceStream t job ch c (.afterSend s) = some (c', pc')) : Sequential A t job pc' c' := by
  simp only [advanceStream] at hs
  split_ifs at hs with hstop <;> cases hs
  · by_cases hexc : c.jobException.isSome = true
    · exact h.leave rfl rfl (.inl hexc)
    · have halarm : c.isAlarm = true := by simpa [hexc] using hstop
      by_cases hrest : toSend s.rest = []
      · exact h.keep rfl rfl hrest.symm fun hc => absurd hc hexc
      · exact h.leave rfl rfl (.inr (.inr (hseen (by simp [StreamPc.overlooks, halarm, hrest,
          Option.not_isSome_iff_eq_none.mp hexc]))))
  · refine h.keep rfl rfl rfl fun hc => ?_
    have hexc : c.jobException.isSome = true := hc
    rw [hexc, Bool.true_or] at hstop
    exact absurd rfl hstop

/-- The end of the loop. -/
theorem Sequential.afterLoop (h : Sequential A t job .afterLoop c)
    (hs : advanceStream t job ch c .afterLoop = some (c', pc')) : Sequential A t job pc' c' := by
  simp only [advanceStream] at hs
  split_ifs at hs with hgo <;> cases hs
  · refine h.keep rfl rfl rfl fun hc => .inr ⟨rfl, ?_⟩
    rw [Bool.and_eq_true, Bool.not_eq_true', Option.isNone_iff_eq_none] at hgo
    rcases hc with hexc | hcan | ha
    · rw [hgo.2] at hexc
      cases hexc
    · rw [hgo.1] at hcan
      cases hcan
    · exact ha
  · exact h.keep rfl rfl rfl id

/-- The end of `stream_gcode_inner`. -/
theorem Sequential.innerEnd (h : Sequential A t job .innerEnd c)
    (hs : advanceStream t job ch c .innerEnd = some (c', pc')) : Sequential A t job pc' c' := by
  cases hs
  cases hexc : c.jobException with
  | some e => exact h.leave rfl rfl (.inl rfl)
  | none =>
    refine h.keep rfl rfl rfl fun hc => ?_
    rcases hc with hc | hc
    · rw [hexc] at hc
      cases hc
    · exact hc

/-- The send loop. -/
theorem Sequential.sending (hseen : pc.overlooks c = true → A) (h : Sequential A t job pc c)
    (hstage : pc.stage = .sending) (hs : advanceStream t job ch c pc = some (c', pc')) :
    Sequential A t job pc' c' := by
  cases pc with
  | loopTop idx rest => exact h.loopTop hs
  | send s =>
    cases hs
    exact h.send
  | afterSend s => exact h.afterSend hseen hs
  | locked s =>
    -- a transport that is gone ends the job with an error
    simp only [advanceStream] at hs
    split_ifs at hs
    · cases hs
      exact h.loop rfl rfl rfl rfl rfl rfl
    · cases hs
      exact h.leave rfl rfl (.inl rfl)
  | writing s err =>
    cases err with
    | none =>
      cases hs
      exact h.loop rfl rfl rfl rfl rfl rfl
    | some e =>
      cases hs
      exact h.leave rfl rfl (.inl rfl)
  | stall s =>
    cases hs
    split <;> exact h.loop rfl rfl rfl rfl rfl rfl
  | stallEnd s handled =>
    -- a stall that is not handled gives the line up, with an exception
    cases handled with
    | false =>
      cases hs
      exact h.leave rfl rfl rfl
    | true =>
      cases hs
      exact h.loop rfl rfl rfl rfl rfl rfl
  | start =>
    cases hs
    exact h.loop rfl rfl rfl rfl rfl rfl
  | lockWait s | spaceCheck s | spaceWait s | yielded idx rest =>
    simp only [advanceStream] at hs
    try split_ifs at hs
    all_goals cases hs
    all_goals exact h.loop rfl rfl rfl rfl rfl rfl
  | _ => cases hstage

/-- A poll sends no line, for the stall callback or for the drain. -/
theorem Sequential.polling (h : Sequential A t job pc c) (hstage : pc.stage = .polling)
    (hs : advanceStream t job ch c pc = some (c', pc')) : Sequential A t job pc' c' := by
  have hreal : ∀ (text : Text) (err : Option String),
      (c.write .realtime text err).jobLines t = c.jobLines t :=
    fun text err => jobLines_of_writes (.of_write (by simp) rfl)
  cases pc with
  | poll w =>
    cases w <;> cases hs
    · exact h.loop rfl rfl rfl rfl rfl rfl
    · exact h.site rfl rfl rfl rfl rfl fun _ ha => .inr ⟨rfl, ha⟩
  | pollSend w before =>
    simp only [advanceStream] at hs
    split_ifs at hs <;> cases hs
    · refine h.site (hreal _ _) rfl rfl rfl rfl fun hd ha => .inr ⟨?_, ha⟩
      cases w <;> exact hd
    · refine h.site rfl rfl rfl rfl rfl fun hd ha => .inr ⟨?_, ha⟩
      cases w <;> exact hd
  | pollEnd w idle =>
    cases w with
    | stall s =>
      simp only [advanceStream] at hs
      split_ifs at hs <;> cases hs <;> exact h.loop rfl rfl rfl rfl rfl rfl
    | drain =>
      -- the drain ends with an exception, ends with nothing pending, or goes on
      simp only [advanceStream] at hs
      split_ifs at hs <;> cases hs
      · exact h.site rfl rfl rfl rfl rfl fun _ _ => .inl rfl
      · exact h.site rfl rfl rfl rfl rfl fun _ ha => .inr (.inr ha)
      all_goals exact h.site rfl rfl rfl rfl rfl fun _ ha => .inr ⟨rfl, ha⟩
  | pollWriting w before err =>
    cases err <;> cases hs
    all_goals
      refine h.site rfl rfl rfl rfl rfl fun hd ha => .inr ⟨?_, ha⟩
      cases w <;> exact hd
  | pollAwait w before left =>
    cases left <;> cases hs
    all_goals
      refine h.site rfl rfl rfl rfl rfl fun hd ha => .inr ⟨?_, ha⟩
      cases w <;> exact hd
  | pollLock before =>
    simp only [advanceStream] at hs
    split_ifs at hs
    cases hs
    exact h.site rfl rfl rfl rfl rfl fun hd ha => .inr ⟨hd, ha⟩
  | pollFailed w | pollSleep w before left | pollDone w before =>
    simp only [advanceStream] at hs
    try split_ifs at hs
    all_goals cases hs
    all_goals
      refine h.site rfl rfl rfl rfl rfl fun hd ha => .inr ⟨?_, ha⟩
      cases w <;> exact hd
  | _ => cases hstage

/-- The recovery sends a dwell, which is not a line of the job. -/
theorem Sequential.recovering (h : Sequential A t job pc c) (hstage : pc.stage = .recovering)
    (hs : advanceStream t job ch c pc = some (c', pc')) : Sequential A t job pc' c' := by
  cases pc with
  | recover w =>
    cases w <;> simp only [advanceStream] at hs <;> split_ifs at hs <;> cases hs
    all_goals exact h.site rfl rfl rfl rfl rfl fun hd ha => .inr ⟨hd, ha⟩
  | recoverLock =>
    simp only [advanceStream] at hs
    split_ifs at hs
    cases hs
    exact h.site rfl rfl rfl rfl rfl fun hd ha => .inr ⟨hd, ha⟩
  | recoverStart w =>
    cases hs
    split <;> cases w <;> exact h.site rfl rfl rfl rfl rfl fun hd ha => .inr ⟨hd, ha⟩
  | recoverSend w =>
    cases hs
    have hlines : (c.sendTracked (.recovery t) dwellLine none ch.writeError).jobLines t
        = c.jobLines t := jobLines_of_writes (.of_write (by simp) rfl)
    refine h.site hlines rfl rfl rfl rfl fun hd ha => .inr ⟨?_, ha⟩
    cases w <;> exact hd
  | recoverSent w =>
    cases hs
    split <;> cases w <;> exact h.site rfl rfl rfl rfl rfl fun hd ha => .inr ⟨hd, ha⟩
  | recoverEnd w =>
    cases w <;> cases hs <;> exact h.site rfl rfl rfl rfl rfl fun hd ha => .inr ⟨hd, ha⟩
  | recoverSpace w | recoverWriting w | recoverDrain w | recoverReset w =>
    simp only [advanceStream] at hs
    try split_ifs at hs
    all_goals cases hs
    all_goals
      refine h.site rfl rfl rfl rfl rfl fun hd ha => .inr ⟨?_, ha⟩
      cases w <;> exact hd
  | _ => cases hstage

/-- The drain, and what follows it. -/
theorem Sequential.ending (h : Sequential A t job pc c) (hstage : pc.stage = .ending)
    (hs : advanceStream t job ch c pc = some (c', pc')) : Sequential A t job pc' c' := by
  cases pc with
  | afterLoop => exact h.afterLoop hs
  | drainTop =>
    -- the drain that is left at its head leaves an exception, an alarm or an empty queue behind
    simp only [advanceStream] at hs
    split_ifs at hs <;> cases hs
    · exact h.site rfl rfl rfl rfl rfl fun _ ha => .inr (.inr ha)
    · exact h.site rfl rfl rfl rfl rfl fun hd ha => .inr ⟨hd, ha⟩
  | drainWait =>
    simp only [advanceStream] at hs
    split_ifs at hs <;> cases hs
    · exact h.site rfl rfl rfl rfl rfl fun _ ha => .inr (.inr ha)
    · exact h.site rfl rfl rfl rfl rfl fun hd ha => .inr ⟨hd, ha⟩
  | innerEnd => exact h.innerEnd hs
  | outcome err =>
    cases err with
    | none =>
      cases hs
      exact h.leave rfl rfl (.inl rfl)
    | some e =>
      simp only [advanceStream] at hs
      split_ifs at hs <;> cases hs <;> exact h.leave rfl rfl (.inl rfl)
  | cancelling pc e =>
    simp only [advanceStream] at hs
    split at hs
    · cases hs
      exact h.leave rfl rfl (.inl rfl)
    · -- the shutdown has its own origins, so its lines are none of the job's
      obtain ⟨⟨c₁, pc₁⟩, hcancel, heq⟩ := Option.map_eq_some_iff.mp hs
      cases heq
      refine h.leave (jobLines_of_writes ?_) rfl (.inl rfl)
      refine (advanceCancel_frame hcancel).2.1.mono fun o ho => ?_
      rcases ho with rfl | ⟨rfl, -⟩ <;> simp
  | final err =>
    cases hs
    exact h.leave rfl rfl (.inl rfl)
  | finished err => cases hs
  | _ => cases hstage

/-- **What a step of the streaming task keeps.** -/
theorem Sequential.stream (hseen : pc.overlooks c = true → A) (h : Sequential A t job pc c)
    (hs : advanceStream t job ch c pc = some (c', pc')) : Sequential A t job pc' c' := by
  cases hstage : pc.stage with
  | sending => exact h.sending hseen hstage hs
  | polling => exact h.polling hstage hs
  | recovering => exact h.recovering hstage hs
  | ending => exact h.ending hstage hs

end Sequential

/-! ### Whole runs -/

/-- A session in which nothing has happened. -/
structure Fresh (s : Sys) : Prop where
  tasks : s.tasks = []
  active : s.active = none
  sent : s.core.sent = []

/-- The streaming task `t`, if there is one, goes through its job in order, and is alone
between two await points. -/
inductive Ordered (A : Prop) (t : ℕ) (s : Sys) : Prop
  | absent (h : s.tasks[t]? = none) (hlines : s.core.jobLines t = [])
  | stream (job : Job) (pc : StreamPc) (h : s.tasks[t]? = some (.stream job pc))
      (hactive : pc.suspended = false → s.active = some t) (horder : Sequential A t job pc s.core)
  | other (b : Body) (h : s.tasks[t]? = some b) (hb : b.isStream = false)

/-- No step of task `t` is made in an alarm. -/
def noAlarmSeen (t : ℕ) (s : Sys) (l : Label) (_ : Sys) : Bool :=
  match l with
  | .task i _ => i != t || !s.core.isAlarm
  | _ => true

section Ordered

variable {A : Prop} {t : ℕ} {s u : Sys} {l : Label}

/-- Nobody but the streaming task `t` writes lines of its job. -/
theorem jobLines_step (hs : Sys.step l s = some u)
    (hl : ∀ ch b, l = .task t ch → s.tasks[t]? = some b → b.isStream = false) :
    u.core.jobLines t = s.core.jobLines t := by
  obtain ⟨w, hw, hown⟩ := Sys.step_writes hs
  refine jobLines_of_writes ⟨w, hw, fun e he horigin => ?_⟩
  rcases hown e he with h | ⟨j, ch, b, hlab, hb, -, hmay⟩
  · rw [h] at horigin
    cases horigin
  · rw [horigin] at hmay
    cases b with
    | stream job pc =>
      rcases hmay with h | h | h | h
      · cases h
        cases hl ch _ hlab hb
      all_goals cases h
    | cancel em pc => rcases hmay with h | ⟨h, -⟩ <;> cases h
    | queue pc =>
      obtain ⟨r, h⟩ := hmay
      cases h
    | interactive command pc =>
      obtain ⟨r, h⟩ := hmay
      cases h
    | _ => cases hmay

/-- The streaming task itself goes on. -/
theorem Ordered.own {ch : Choice} {job : Job} {pc : StreamPc} (hs : Sys.step (.task t ch) s = some u)
    (hb : s.tasks[t]? = some (.stream job pc)) (horder : Sequential A t job pc s.core)
    (hseen : pc.overlooks s.core = true → A) : Ordered A t u := by
  obtain ⟨b, c', b', spawned, hb', -, -, hadv, rfl⟩ := Sys.step_task hs
  obtain rfl : b = .stream job pc := Option.some.inj (hb'.symm.trans hb)
  obtain ⟨⟨c₁, pc'⟩, hstep, heq⟩ := Option.map_eq_some_iff.mp hadv
  cases heq
  have hlen : t < s.tasks.length := (List.getElem?_eq_some_iff.mp hb).1
  refine .stream job pc' ?_ (fun hpc => ?_) (horder.stream hseen hstep)
  · rw [List.append_nil, List.getElem?_set_self hlen]
  · have hpc' : (Body.stream job pc').suspended = false := hpc
    show (if (Body.stream job pc').suspended then none else some t) = some t
    rw [hpc']
    rfl

/-- **What every step keeps.** -/
theorem Ordered.step (h : Ordered A t s) (hs : Sys.step l s = some u)
    (hseen : ∀ ch job pc, l = .task t ch → s.tasks[t]? = some (.stream job pc) →
      pc.overlooks s.core = true → A) : Ordered A t u := by
  cases h with
  | absent hnone hlines =>
    have hlines' : u.core.jobLines t = [] :=
      (jobLines_step hs fun ch b _ hb => by rw [hnone] at hb; cases hb).trans hlines
    cases hu : u.tasks[t]? with
    | none => exact .absent hu hlines'
    | some b =>
      rcases Sys.step_new hs hnone hu with ⟨op, -, rfl⟩ | ⟨i, ch, job, -, -, rfl⟩ | rfl
      · refine .other _ hu ?_
        cases op <;> rfl
      · refine .stream job .start hu (fun hpc => by cases hpc) (.inl ?_)
        -- a new stream has all its lines left
        rw [hlines']
        rfl
      · exact .other _ hu rfl
  | stream job pc hb hactive horder =>
    by_cases hl : ∃ ch, l = .task t ch
    · obtain ⟨ch, rfl⟩ := hl
      exact .own hs hb horder (hseen ch job pc rfl hb)
    · have hne : ∀ ch, l ≠ .task t ch := fun ch hch => hl ⟨ch, hch⟩
      have hwaits : pc.suspended = true := Sys.step_waits (b := .stream job pc) hs hne hactive
      refine .stream job pc (Sys.step_tasks hs hb hne) (fun hpc => ?_) ?_
      · rw [hwaits] at hpc
        cases hpc
      · -- at an await point nothing depends on the flags
        have hlines : u.core.jobLines t = s.core.jobLines t :=
          jobLines_step hs fun ch b hch => absurd hch (hne ch)
        refine horder.keep hlines rfl rfl fun hcut => ?_
        cases pc with
        | afterSend s => cases hwaits
        | afterLoop => cases hwaits
        | innerEnd => cases hwaits
        | outcome err => cases hwaits
        | _ => exact hcut
  | other b hb hkind =>
    by_cases hl : ∃ ch, l = .task t ch
    · obtain ⟨ch, rfl⟩ := hl
      obtain ⟨b₀, c', b', spawned, hb₀, -, -, hadv, rfl⟩ := Sys.step_task hs
      obtain rfl : b₀ = b := Option.some.inj (hb₀.symm.trans hb)
      have hlen : t < s.tasks.length := (List.getElem?_eq_some_iff.mp hb).1
      refine .other b' ?_ ((advance_isStream hadv).trans hkind)
      rw [List.getElem?_append_left (by rw [List.length_set]; exact hlen),
        List.getElem?_set_self hlen]
    · exact .other b (Sys.step_tasks hs hb fun ch hch => hl ⟨ch, hch⟩) hkind

theorem Ordered.of_fresh (h : Fresh s) : Ordered A t s := by
  refine .absent ?_ ?_
  · rw [h.tasks]
    rfl
  · unfold Core.jobLines
    rw [h.sent]
    rfl

/-- **The invariant of every run**, with whatever alarms its steps see. -/
theorem sequential_of_run {s₀ : Sys} {job : Job} {pc : StreamPc} (h0 : Fresh s₀)
    (hr : Run Sys.step (fun a l _ => ∀ ch, l = .task t ch → a.core.isAlarm = true → A) s₀ s)
    (hs : s.tasks[t]? = some (.stream job pc)) : Sequential A t job pc s.core := by
  have hinv : Ordered A t s := hr.invariant (fun _ _ _ h hs hok => h.step hs
    fun ch _ _ hl _ hover => hok ch hl (isAlarm_of_overlooks hover)) (.of_fresh h0)
  cases hinv with
  | absent h => cases h.symm.trans hs
  | stream job' pc' h _ horder =>
    cases h.symm.trans hs
    exact horder
  | other b h hb =>
    cases h.symm.trans hs
    cases hb

end Ordered

end Raydriver
