import Raydriver.Grbl.Attributes
import Raydriver.Grbl.Frames

/-!
# Stalled sends

A line that finds no space in the RX buffer of the device within its timeout has stalled.
The stall callback polls the device and answers whether the send is to be tried again.

## Main definitions

* `reportedStatus`, `reportedBuffer` — the status and the buffer figures of a report.
* `StreamPc.inCallback`, `Sys.inCallback` — a task is in the stall callback of a send.
* `Core.givesUp`, `Sys.givesUp` — when its poll is over, the callback will give up.

## Main results

* `desync_looks_at_rx_bytes` — **when the desync test answers as the free RX bytes say**.
* `stalled_send_given_up` — **when the callback gives up on a line that cannot fit**.
-/

namespace Raydriver

open Lts Latest Sys

/-! ### The desync test -/

/-- The status of a report. -/
def reportedStatus (stateStr : Text) : Option DeviceStatus :=
  (statusPartOf stateStr).map fun part => (parseStatusPart part).1

/-- The free planner blocks and the free RX bytes of a report. -/
def reportedBuffer (stateStr : Text) : Option (ℤ × ℤ) := latest readBuffer (attributesOf stateStr)

theorem isEnclosed_of_reportedStatus {stateStr : Text} {s : DeviceStatus}
    (h : reportedStatus stateStr = some s) : isEnclosed stateStr = true := by
  by_contra hno
  rw [reportedStatus, statusPartOf, reportParts, if_neg hno] at h
  cases h

theorem parseState_status {stateStr : Text} {s : DeviceStatus}
    (h : reportedStatus stateStr = some s) (default : DeviceState) (inches : Bool) :
    (parseState stateStr default inches).status = s := by
  rw [parseState_eq (isEnclosed_of_reportedStatus h)]
  show (withStatus stateStr default).status = s
  obtain ⟨part, hpart, rfl⟩ := Option.map_eq_some_iff.mp h
  rw [withStatus, hpart, Option.elim_some, applyStatusPart]
  dsimp only
  split <;> rfl

theorem parseState_bufferAvailable {stateStr : Text} {b r : ℤ} (henc : isEnclosed stateStr = true)
    (h : reportedBuffer stateStr = some (b, r)) (default : DeviceState) (inches : Bool) :
    (parseState stateStr default inches).bufferAvailable = some b := by
  rw [parseState_eq henc]
  show ((latest readBuffer (attributesOf stateStr)).map Prod.fst).or _ = some b
  rw [← reportedBuffer, h, Option.map_some, Option.some_or]

/-- Without a hold only an idle status is shown as another. -/
theorem shownStatus_of_not_held {c : Core} (hheld : c.isHolding = false) {s : DeviceStatus}
    (hidle : s ≠ .idle) : c.shownStatus s = s := by
  unfold Core.shownStatus
  dsimp only
  rw [if_neg fun h => Bool.false_ne_true (hheld.symm.trans h.1), if_neg fun h => hidle h.2]

/-- **When the desync test answers as the free RX bytes say**: behind a report of any status but
idle and hold, while no hold is requested, it compares the free planner blocks with the size
of the RX buffer, so it is right if and only if the two figures lie on the same side of it. -/
theorem desync_looks_at_rx_bytes (c : Core) (report : Text) (s : DeviceStatus) (b r : ℤ)
    (hs : reportedStatus report = some s) (hidle : s ≠ .idle) (hhold : s ≠ .hold)
    (hbuffer : reportedBuffer report = some (b, r))
    (hheld : c.isHolding = false) :
    ((c.handleStatusReport report).isGrblIdleOrDesynced = true ↔
        ((c.handleStatusReport report).flow.rxBufferSize : ℤ) ≤ r) ↔
      (0 < c.flow.rxBufferSize ∧ (c.flow.rxBufferSize : ℤ) ≤ b ↔
        (c.flow.rxBufferSize : ℤ) ≤ r) := by
  have hstatus := parseState_status hs c.state c.reportInInches
  have hb := parseState_bufferAvailable (isEnclosed_of_reportedStatus hs) hbuffer c.state
    c.reportInInches
  -- the buffer size is only detected from an idle report
  have hflow : (c.handleStatusReport report).flow = c.flow := by
    show (Core.detectRxBufferSize (parseState report c.state c.reportInInches) _).flow = c.flow
    unfold Core.detectRxBufferSize
    dsimp only
    split
    · rw [if_neg]
      rw [hstatus]
      exact fun h => hidle h.1
    · rfl
  have hshown : (c.handleStatusReport report).state.status = s := by
    show Core.shownStatus (Core.detectRxBufferSize _ _) (parseState report c.state _).status = s
    rw [hstatus]
    exact shownStatus_of_not_held hheld hidle
  have hraw : (c.handleStatusReport report).rawGrblStatus = s := hstatus
  have hanswer : (c.handleStatusReport report).isGrblIdleOrDesynced = true ↔
      0 < c.flow.rxBufferSize ∧ (c.flow.rxBufferSize : ℤ) ≤ b := by
    unfold Core.isGrblIdleOrDesynced
    rw [hshown, hraw, hflow]
    rw [show (c.handleStatusReport report).state.bufferAvailable = some b from hb]
    simp [hidle, hhold]
  rw [hanswer, hflow]

/-- The general result on a report whose two figures are both below the size of the buffer. -/
theorem desync_looks_at_rx_bytes_busy :
    ((Core.handleStatusReport "<Run|Bf:0,12>".toList { jobRunning := true }).isGrblIdleOrDesynced
        = true ↔
      ((Core.handleStatusReport "<Run|Bf:0,12>".toList { jobRunning := true }).flow.rxBufferSize : ℤ)
        ≤ 12) :=
  (desync_looks_at_rx_bytes { jobRunning := true } "<Run|Bf:0,12>".toList .run 0 12 (by decide)
    (by decide) (by decide) (by decide) rfl).mpr (by decide)

/-- **An empty RX buffer is not noticed**: all its bytes are free, and fifteen planner blocks. -/
theorem empty_rx_buffer_unnoticed :
    ¬ ∀ (c : Core) (report : Text) (s : DeviceStatus) (b r : ℤ), reportedStatus report = some s →
      s ≠ .idle → s ≠ .hold → reportedBuffer report = some (b, r) → c.jobRunning = true →
      c.isHolding = false →
      ((c.handleStatusReport report).isGrblIdleOrDesynced = true ↔
        ((c.handleStatusReport report).flow.rxBufferSize : ℤ) ≤ r) := by
  intro h
  exact absurd (h { jobRunning := true } "<Run|Bf:15,127>".toList .run 15 127 (by decide) (by decide)
    (by decide) (by decide) rfl rfl) (by decide)

/-! ### The stall callback -/

/-- The counters of the stall callback of the send `snd`, up to its answer. -/
def StreamPc.inCallback (snd : Send) : StreamPc → Bool
  | .stall s => s = snd
  | .poll w | .pollSend w _ | .pollWriting w _ _ | .pollFailed w | .pollAwait w _ _
  | .pollSleep w _ _ | .pollDone w _ | .pollEnd w _ | .recover w | .recoverStart w
  | .recoverSpace w | .recoverSend w | .recoverWriting w | .recoverSent w | .recoverDrain w
  | .recoverReset w | .recoverEnd w => w = .stall snd
  | _ => false

/-- What makes the callback give up, once it knows how the device answered its poll: too many
polls were left unanswered, the machine is in ALARM, or the deadlock detection is on and takes
the machine for idle. -/
def Core.givesUp (c : Core) : StreamPc → Bool
  | .pollFailed (.stall _) =>
    decide (c.config.unansweredPollLimit ≤ c.consecutiveUnansweredPolls + 1) || c.isAlarm
  | .pollDone (.stall _) before =>
    decide (c.config.unansweredPollLimit ≤
      if before < c.deviceResponseCount then 0 else c.consecutiveUnansweredPolls + 1) ||
      c.isAlarm || (c.config.deadlockDetection && c.isGrblIdleOrDesynced)
  | _ => true

/-- Task `t` is in the stall callback of the send `snd`. -/
def Sys.inCallback (t : ℕ) (snd : Send) (s : Sys) : Bool :=
  match s.tasks[t]? with
  | some (.stream _ pc) => pc.inCallback snd
  | _ => false

/-- Unless its poll is not over, the callback of task `t` will give up. -/
def Sys.givesUp (t : ℕ) (s : Sys) : Bool :=
  match s.tasks[t]? with
  | some (.stream _ pc) => s.core.givesUp pc
  | _ => true

section Callback

variable {t : ℕ} {job : Job} {ch : Choice} {snd : Send} {c c' : Core} {pc pc' : StreamPc}
  {s u : Sys} {l : Label} {P : Core → StreamPc → Prop}

/-- Task `t` is at a counter of which `P` holds.  It entered the callback of `snd` when it ran,
so between two await points nothing else runs. -/
def Resides (t : ℕ) (snd : Send) (P : Core → StreamPc → Prop) (s : Sys) : Prop :=
  ∃ job pc, s.tasks[t]? = some (.stream job pc) ∧ P s.core pc ∧
    (s.active = some t ∨ pc.suspended = true ∨ pc = .stall snd)

/-- **The rule of the callback**: what the steps of the task keep, and no other step can spoil
while the task rests, is kept. -/
theorem Resides.step (h : Resides t snd P s) (hs : Sys.step l s = some u)
    (hmove : ∀ job pc ch c' pc', s.tasks[t]? = some (.stream job pc) → P s.core pc →
      advanceStream t job ch s.core pc = some (c', pc') → P c' pc')
    (hrest : ∀ c c' pc, pc.suspended = true ∨ pc = .stall snd → P c pc → P c' pc) :
    Resides t snd P u := by
  obtain ⟨job, pc, htask, hpc, hact⟩ := h
  by_cases hl : ∃ ch, l = .task t ch
  · obtain ⟨ch, rfl⟩ := hl
    obtain ⟨b, c', b', spawned, hb, -, -, hadv, rfl⟩ := step_task hs
    cases htask.symm.trans hb
    obtain ⟨⟨c₁, pc₁⟩, hstep, heq⟩ := Option.map_eq_some_iff.mp hadv
    cases heq
    have hlen : t < s.tasks.length := (List.getElem?_eq_some_iff.mp htask).1
    refine ⟨job, pc₁, ?_, hmove job pc ch _ pc₁ htask hpc hstep, ?_⟩
    · show (s.tasks.set t (.stream job pc₁) ++ [])[t]? = _
      rw [List.append_nil, List.getElem?_set_self hlen]
    · show (if pc₁.suspended then none else some t) = some t ∨ _
      by_cases hsusp : pc₁.suspended = true
      · exact .inr (.inl hsusp)
      · rw [if_neg hsusp]
        exact .inl rfl
  · have hsame := step_tasks hs htask fun ch hi => hl ⟨ch, hi⟩
    have hresting : pc.suspended = true ∨ pc = .stall snd := by
      refine hact.resolve_left fun hactive => ?_
      by_cases hl' : ∃ i ch, l = .task i ch
      · obtain ⟨i, ch, rfl⟩ := hl'
        obtain ⟨b, c', b', spawned, -, -, hen, -, -⟩ := step_task hs
        rcases hen with hen | ⟨hen, -⟩ <;> rw [hactive] at hen
        · exact hl ⟨ch, by rw [Option.some.inj hen]⟩
        · cases hen
      · obtain ⟨hnone, -⟩ := step_other hs fun i ch hi => hl' ⟨i, ch, hi⟩
        rw [hactive] at hnone
        cases hnone
    exact ⟨job, pc, hsame, hrest _ _ pc hresting hpc, .inr hresting⟩

/-- The callback gives up on an idle or desynced machine, or on any other. -/
def Core.refuses (idle : Bool) (c : Core) : Bool :=
  c.deviceStoppedResponding || c.isAlarm || (c.config.deadlockDetection && idle)

/-- The callback of `snd` will answer that the line is not to be sent again, unless it fits. -/
def HeadsForNo (snd : Send) (c : Core) : StreamPc → Prop
  | .pollEnd w idle => w = .stall snd ∧ c.refuses idle = true
  | .stallEnd _ handled => handled = true → utf8Len snd.payload ≤ c.flow.rxBufferSize
  | pc => pc.inCallback snd = true

/-- The callback of `snd` will answer that the line is to be sent again. -/
def HeadsForYes (snd : Send) (c : Core) : StreamPc → Prop
  | .pollEnd w idle => w = .stall snd ∧ c.refuses idle = false
  | .stallEnd _ handled => handled = true
  | pc => c.givesUp pc = false

theorem len_le_of_fits {payload : Text} (h : c.needsSpace payload = false) :
    utf8Len payload ≤ c.flow.rxBufferSize := by
  have hle : ¬ c.flow.rxBufferSize < c.flow.rxCount + utf8Len payload := of_decide_eq_false h
  omega

/-- A callback that gives up when its poll is over answers no, unless the line fits. -/
theorem advanceStream_headsForNo (h : advanceStream t job ch c pc = some (c', pc'))
    (hin : pc.inCallback snd = true) (hgives : c.givesUp pc = true) (hno : HeadsForNo snd c pc) :
    HeadsForNo snd c' pc' := by
  cases pc with
  | stall s =>
    obtain rfl : s = snd := of_decide_eq_true hin
    cases h
    split_ifs
    · exact fun hcon => absurd hcon Bool.false_ne_true
    · exact decide_eq_true rfl
  | pollFailed w =>
    obtain rfl : w = .stall snd := of_decide_eq_true hin
    cases h
    refine ⟨rfl, ?_⟩
    unfold Core.refuses
    rw [Bool.or_eq_true, Bool.or_eq_true]
    exact .inl (Bool.or_eq_true_iff.mp hgives)
  | pollDone w before =>
    obtain rfl : w = .stall snd := of_decide_eq_true hin
    cases h
    exact ⟨rfl, hgives⟩
  | pollEnd w idle =>
    obtain ⟨rfl, hrefuses⟩ := hno
    unfold Core.refuses at hrefuses
    simp only [advanceStream] at h
    split_ifs at h with hstopped halarm hdetect hidle hfits
    · cases h
      exact fun hcon => absurd hcon Bool.false_ne_true
    · cases h
      exact fun hcon => absurd hcon Bool.false_ne_true
    · simp_all
    · cases h
      exact fun _ => len_le_of_fits (by simpa using hfits)
    · cases h
      exact decide_eq_true rfl
    · simp_all
  | recoverEnd w =>
    obtain rfl : w = .stall snd := of_decide_eq_true hin
    cases h
    exact fun hfits => len_le_of_fits (by simpa using hfits)
  | pollWriting w before err =>
    obtain rfl : w = .stall snd := of_decide_eq_true hin
    cases err <;> cases h <;> exact decide_eq_true rfl
  | pollAwait w before left =>
    obtain rfl : w = .stall snd := of_decide_eq_true hin
    cases left <;> cases h <;> exact decide_eq_true rfl
  | poll w | pollSend w _ | pollSleep w _ _ | recover w | recoverStart w | recoverSpace w
  | recoverSend w | recoverWriting w | recoverSent w | recoverDrain w | recoverReset w =>
    obtain rfl : w = .stall snd := of_decide_eq_true hin
    simp only [advanceStream] at h
    try split_ifs at h
    all_goals cases h
    all_goals exact decide_eq_true rfl
  | _ => cases hin

/-- A callback that does not give up when its poll is over answers yes. -/
theorem advanceStream_headsForYes (h : advanceStream t job ch c pc = some (c', pc'))
    (hin : pc.inCallback snd = true) (hyes : HeadsForYes snd c pc) : HeadsForYes snd c' pc' := by
  cases pc with
  | pollFailed w =>
    obtain rfl : w = .stall snd := of_decide_eq_true hin
    cases h
    refine ⟨rfl, ?_⟩
    unfold Core.refuses
    rw [Bool.or_eq_false_iff]
    exact ⟨hyes, Bool.and_false _⟩
  | pollDone w before =>
    obtain rfl : w = .stall snd := of_decide_eq_true hin
    cases h
    exact ⟨rfl, hyes⟩
  | pollEnd w idle =>
    obtain ⟨rfl, hrefuses⟩ := hyes
    unfold Core.refuses at hrefuses
    simp only [Bool.or_eq_false_iff, Bool.and_eq_false_iff] at hrefuses
    obtain ⟨⟨hstopped, halarm⟩, hquiet⟩ := hrefuses
    simp only [advanceStream] at h
    rw [if_neg (by simp [hstopped]), if_neg (by simp [halarm])] at h
    split_ifs at h with hdetect hidle hfits
    · cases h
      rfl
    · cases h
      rfl
    · simp_all
    · cases h
      rfl
  | stallEnd s handled => cases hin
  | _ => cases hyes

/-- Where it is heading the task keeps to while it rests. -/
theorem HeadsForNo.rest (hrest : pc.suspended = true ∨ pc = .stall snd)
    (hno : HeadsForNo snd c pc) : HeadsForNo snd c' pc := by
  rcases hrest with hsusp | rfl
  · cases pc <;> first | exact hno | cases hsusp
  · exact hno

theorem HeadsForYes.rest (hrest : pc.suspended = true ∨ pc = .stall snd)
    (hyes : HeadsForYes snd c pc) : HeadsForYes snd c' pc := by
  rcases hrest with hsusp | rfl
  · cases pc <;> first | exact absurd hsusp Bool.false_ne_true | exact nomatch hyes
  · cases hyes

end Callback

/-- **When the callback gives up on a line that cannot fit**: it answers that the line is not to
be sent again if and only if, when its poll was over, the device had left too many polls
unanswered, the machine was in ALARM, or the deadlock detection took it for idle.  The length of
the line does not count. -/
theorem stalled_send_given_up {s u : Sys} {t : ℕ} {job job' : Job} {snd : Send} {handled : Bool}
    (hs : s.tasks[t]? = some (.stream job (.stall snd)))
    (hu : u.tasks[t]? = some (.stream job' (.stallEnd snd handled)))
    (hrun : Run Sys.step (fun a _ _ => a.inCallback t snd = true) s u)
    (hlong : u.core.flow.rxBufferSize < utf8Len snd.payload) :
    handled = false ↔
      Run Sys.step (fun a _ _ => a.inCallback t snd = true ∧ a.givesUp t = true) s u := by
  constructor
  · intro hno
    -- forwards the task runs alone, backwards it is not heading for a yes
    have hcarried := hrun.carry (I := Resides t snd fun _ _ => True)
      (fun a l b ha hst _ => ha.step hst (fun _ _ _ _ _ _ _ _ => trivial) fun _ _ _ _ _ => trivial)
      ⟨job, _, hs, trivial, .inr (.inr rfl)⟩
    have hback := hcarried.strengthen_before
      (P := fun a => ¬ Resides t snd (HeadsForYes snd) a) (fun a l b hst hok hb ha => by
        refine hb (ha.step hst (fun job pc ch c' pc' htask hpc hadv => ?_) ?_)
        · have hin : pc.inCallback snd = true := by
            simpa only [Sys.inCallback, htask] using hok.1
          exact advanceStream_headsForYes hadv hin hpc
        · exact fun c c' pc hrest hpc => hpc.rest hrest) (by
        rintro ⟨job₁, pc, htask, hpc, -⟩
        cases hu.symm.trans htask
        rw [hno] at hpc
        cases hpc)
    refine hback.mono fun a l b hok => ⟨hok.1.1, ?_⟩
    obtain ⟨⟨hin, job₁, pc, htask, -, hact⟩, hyes⟩ := hok
    by_contra hgives
    refine hyes ⟨job₁, pc, htask, ?_, hact⟩
    have hfalse : a.core.givesUp pc = false := by
      simpa only [Sys.givesUp, htask, Bool.not_eq_true] using hgives
    cases pc <;> first | exact hfalse | cases hfalse
  · intro hgiven
    have hend := hgiven.invariant (I := Resides t snd (HeadsForNo snd))
      (fun a l b ha hst hok => by
        refine ha.step hst (fun job pc ch c' pc' htask hpc hadv => ?_) ?_
        · have hin : pc.inCallback snd = true := by
            simpa only [Sys.inCallback, htask] using hok.1
          have hgives : a.core.givesUp pc = true := by
            simpa only [Sys.givesUp, htask] using hok.2
          exact advanceStream_headsForNo hadv hin hgives hpc
        · exact fun c c' pc hrest hpc => hpc.rest hrest)
      ⟨job, _, hs, decide_eq_true rfl, .inr (.inr rfl)⟩
    obtain ⟨job₁, pc, htask, hpc, -⟩ := hend
    cases hu.symm.trans htask
    by_contra hyes
    have hfits := hpc (by simpa using hyes)
    omega

/-- A job whose line is longer than the RX buffer. -/
def tooLongJob : Job := { lines := ["G1 X1".toList] }

/-- The line of the job has six bytes.  An RX buffer of five has no space for it: it stalls. -/
def tooLong : Sys :=
  reach Sys.step (.setRxBufferSize 5 :: .call (.run tooLongJob) :: turns 0 3 ++ turns 1 5 ++
    [.task 1 { timedOut := true }]) { core := {}, tasks := [] }

/-- Its line. -/
def tooLongSend : Send := { lineIdx := 0, line := "G1 X1".toList, opIndex := none, rest := [] }

/-- The machine answers the poll of the stalled line with the report, and the callback ends. -/
def answeredPoll (report : String) : List Label :=
  turns 1 3 ++ .rx (ascii report) :: turns 1 5

/-- The general result on a machine in ALARM. -/
theorem stalled_send_given_up_alarm :
    false = false ↔
      Run Sys.step (fun a _ _ => a.inCallback 1 tooLongSend = true ∧ a.givesUp 1 = true) tooLong
        (reach Sys.step (answeredPoll "<Alarm|MPos:0,0,0>\n") tooLong) := by
  have hs : tooLong.tasks[(1 : ℕ)]? = some (.stream tooLongJob (.stall tooLongSend)) := by decide
  have hu : (reach Sys.step (answeredPoll "<Alarm|MPos:0,0,0>\n") tooLong).tasks[(1 : ℕ)]? =
      some (.stream tooLongJob (.stallEnd tooLongSend false)) := by decide
  exact stalled_send_given_up hs hu
    (run_reach_where (p := fun a _ => Sys.inCallback 1 tooLongSend a) (by decide)) (by decide)

/-- **A line that never fits is tried again**: the machine runs and answers the poll. -/
theorem oversized_line_retried :
    ¬ ∀ (s u : Sys) (t : ℕ) (job job' : Job) (snd : Send) (handled : Bool),
      Run Sys.step AnyStep { core := {}, tasks := [] } s →
      s.tasks[t]? = some (.stream job (.stall snd)) →
      u.tasks[t]? = some (.stream job' (.stallEnd snd handled)) →
      Run Sys.step (fun a _ _ => a.inCallback t snd = true) s u →
      u.core.flow.rxBufferSize < utf8Len snd.payload → handled = false := by
  intro h
  let u := reach Sys.step (answeredPoll "<Run|MPos:0,0,0>\n") tooLong
  have hrun : Run Sys.step (fun a _ _ => a.inCallback 1 tooLongSend = true) tooLong u :=
    run_reach_where (by decide)
  exact absurd (h tooLong u 1 tooLongJob tooLongJob tooLongSend true (run_reach (by decide))
    (by decide) (by decide) hrun (by decide)) (by decide)

end Raydriver
