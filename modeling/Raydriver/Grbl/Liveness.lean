import Raydriver.Grbl.AlarmKept
import Raydriver.Grbl.OneRun

/-!
# The liveness of the device

A job gives the device up when `unanswered_poll_limit` of its polls in a row were counted as
unanswered.  Whether a poll was answered is looked at when its own window closes.  What the
device answers between two windows is processed, but the count does not notice.

## Main definitions

* `Watch`, `Watch.step` — a session together with an observer of its polls.
* `Sys.declaresDead` — the step calls `mark_device_unresponsive`.
* `Sys.noticed` — what the step processes does not escape the count of unanswered polls.

## Main results

* `handleRx_answers` — every ok, error and status report is a response of the device.
* `Watched.step` — **what the count of unanswered polls says of the responses**.
* `dead_device_silent` — **a device declared dead has been silent for all the counted polls**.
-/

namespace Raydriver

open Lts Sys

/-! ### Responses -/

/-- An ok, an error or a status report. -/
def GrblResponse.answers (r : GrblResponse) : Bool :=
  match r.rtype with
  | .line => isReport r.text
  | _ => true

section Responses

variable {c c' : Core}

theorem handleLine_polls (line : Text) (c : Core) :
    (c.handleLine line).deviceResponseCount =
        c.deviceResponseCount + (isReport line).toNat ∧
      (c.handleLine line).consecutiveUnansweredPolls = c.consecutiveUnansweredPolls := by
  unfold Core.handleLine isReport
  rw [Bool.and_assoc]
  by_cases hfragment : Core.isFragment line = true
  · rw [if_pos hfragment, hfragment]
    exact ⟨rfl, rfl⟩
  · rw [if_neg hfragment, Bool.eq_false_iff.mpr hfragment, Bool.not_false, Bool.true_and]
    by_cases hreport : (startsWith "<".toList line && line.getLast? == some '>') = true
    · rw [if_pos hreport, hreport]
      exact ⟨rfl, rfl⟩
    · rw [if_neg hreport, Bool.eq_false_iff.mpr hreport]
      dsimp only
      split
      · exact ⟨rfl, rfl⟩
      · split <;> exact ⟨rfl, rfl⟩

theorem handleOk_polls (pending : Option PendingCommand) (c : Core) :
    (c.handleOk pending).deviceResponseCount = c.deviceResponseCount + 1 ∧
      (c.handleOk pending).consecutiveUnansweredPolls = c.consecutiveUnansweredPolls := by
  unfold Core.handleOk
  dsimp only
  split <;> exact ⟨rfl, rfl⟩

theorem handleResponse_polls (c : Core) (r : GrblResponse) :
    (c.handleResponse r).deviceResponseCount = c.deviceResponseCount + r.answers.toNat ∧
      (c.handleResponse r).consecutiveUnansweredPolls = c.consecutiveUnansweredPolls := by
  obtain ⟨rtype, text, pending⟩ := r
  cases rtype with
  | ok => exact handleOk_polls pending c
  | error => exact ⟨rfl, rfl⟩
  | line => exact handleLine_polls text c

theorem foldl_handleResponse_polls (rs : List GrblResponse) :
    ∀ c : Core, (rs.foldl Core.handleResponse c).deviceResponseCount =
        c.deviceResponseCount + rs.countP GrblResponse.answers ∧
      (rs.foldl Core.handleResponse c).consecutiveUnansweredPolls =
        c.consecutiveUnansweredPolls := by
  induction rs with
  | nil => exact fun c => ⟨rfl, rfl⟩
  | cons r rs ih =>
    intro c
    obtain ⟨hcount, hpolls⟩ := ih (c.handleResponse r)
    obtain ⟨hcount', hpolls'⟩ := handleResponse_polls c r
    refine ⟨?_, hpolls.trans hpolls'⟩
    rw [List.foldl_cons, hcount, hcount', List.countP_cons]
    cases r.answers
    · rfl
    · simp only [Bool.toNat_true, if_true]
      omega

/-- **Every ok, error and status report is a response of the device**, and handling them leaves
the count of unanswered polls alone. -/
theorem handleRx_polls (data : Bytes) (c : Core) :
    (c.handleRx data).deviceResponseCount = c.deviceResponseCount +
        ((c.flow.parseExtracted data).2.map Extracted.toResponse).countP GrblResponse.answers ∧
      (c.handleRx data).consecutiveUnansweredPolls = c.consecutiveUnansweredPolls := by
  refine handleRx_fold (P := fun c' => c'.deviceResponseCount = c.deviceResponseCount +
      ((c.flow.parseExtracted data).2.map Extracted.toResponse).countP GrblResponse.answers ∧
    c'.consecutiveUnansweredPolls = c.consecutiveUnansweredPolls) (fun _ h => h) fun flow n => ?_
  obtain ⟨hcount, hpolls⟩ := foldl_handleResponse_polls (c.arrivals data) (c.popped flow n)
  refine ⟨hcount.trans (congrArg (c.deviceResponseCount + ·) ?_), hpolls⟩
  -- lines are handled before acknowledgements, which does not change their number
  exact (arrivals_perm data c).countP_eq _

end Responses

/-! ### The count of unanswered polls -/

/-- The count of unanswered polls behind the next step of a task. -/
def Body.pollCount (c : Core) : Body → ℕ
  | .run _ .begin => 0
  | .stream _ (.pollFailed _) => c.consecutiveUnansweredPolls + 1
  | .stream _ (.pollDone _ before) =>
    if before < c.deviceResponseCount then 0 else c.consecutiveUnansweredPolls + 1
  | _ => c.consecutiveUnansweredPolls

section Steps

variable {n i t : ℕ} {job : Job} {inStream em connect spawns : Bool} {command : Text} {ch : Choice}
  {c c' : Core} {b b' : Body} {spawned : List Body} {s u : Sys} {l : Label}

/-- The responses processed, and the polls counted as unanswered. -/
def Core.polls (c : Core) : ℕ × ℕ := (c.deviceResponseCount, c.consecutiveUnansweredPolls)

theorem advanceCancel_polls {pc pc' : CancelPc}
    (h : advanceCancel i inStream em ch c pc = some (c', pc')) : c'.polls = c.polls := by
  cases pc with
  | ctrlX was err => cases err <;> cases h <;> rfl
  | abort was =>
    simp only [advanceCancel] at h
    split_ifs at h
    · cases h
      rfl
    · split at h
      · cases h
        rfl
      · split_ifs at h <;> cases h <;> rfl
  | next was commands =>
    cases commands <;> simp only [advanceCancel] at h <;> (try split_ifs at h) <;> cases h <;> rfl
  | _ =>
    simp only [advanceCancel] at h
    try split_ifs at h
    all_goals cases h
    all_goals rfl

theorem advanceStream_polls {pc pc' : StreamPc}
    (h : advanceStream i job ch c pc = some (c', pc')) :
    c'.polls = (c.deviceResponseCount, (Body.stream job pc).pollCount c) := by
  cases pc with
  | loopTop idx rest =>
    cases rest <;> simp only [advanceStream] at h <;> (try split_ifs at h) <;> cases h <;> rfl
  | writing s err => cases err <;> cases h <;> rfl
  | poll w => cases w <;> cases h <;> rfl
  | pollWriting w before err => cases err <;> cases h <;> rfl
  | pollAwait w before left => cases left <;> cases h <;> rfl
  | pollDone w before =>
    cases h
    rfl
  | pollEnd w idle =>
    cases w <;> simp only [advanceStream] at h <;> split_ifs at h <;> cases h <;> rfl
  | recover w =>
    cases w <;> simp only [advanceStream] at h <;> split_ifs at h <;> cases h <;> rfl
  | recoverEnd w => cases w <;> cases h <;> rfl
  | outcome err =>
    cases err <;> simp only [advanceStream] at h <;> (try split_ifs at h) <;> cases h <;> rfl
  | cancelling pc e =>
    simp only [advanceStream] at h
    split at h
    · cases h
      rfl
    · obtain ⟨⟨c₁, pc₁⟩, h1, h2⟩ := Option.map_eq_some_iff.mp h
      cases h2
      exact advanceCancel_polls h1
  | _ =>
    simp only [advanceStream] at h
    try split_ifs at h
    all_goals cases h
    all_goals rfl

theorem advanceRun_polls {pc pc' : RunPc}
    (h : advanceRun n job ch c pc = some (c', pc', spawns)) :
    c'.polls = (c.deviceResponseCount, (Body.run job pc).pollCount c) := by
  cases pc with
  | rawNext realtime =>
    cases realtime <;> simp only [advanceRun] at h <;> (try split_ifs at h) <;> cases h <;> rfl
  | abort =>
    simp only [advanceRun] at h
    split at h
    · cases h
      rfl
    · split_ifs at h <;> cases h <;> rfl
  | _ =>
    simp only [advanceRun] at h
    try split_ifs at h
    all_goals cases h
    all_goals rfl

theorem advanceLink_polls {pc pc' : LinkPc}
    (h : advanceLink n connect c pc = some (c', pc', spawns)) : c'.polls = c.polls := by
  cases pc with
  | abort =>
    simp only [advanceLink] at h
    split at h
    · cases h
      rfl
    · split_ifs at h <;> cases h <;> rfl
  | stop =>
    simp only [advanceLink] at h
    split at h <;> cases h <;> rfl
  | _ =>
    simp only [advanceLink] at h
    try split_ifs at h
    all_goals cases h
    all_goals rfl

/-- **Who counts**: a poll that ends, and the start of a job.  No task processes responses. -/
theorem advance_polls (h : advance n i ch c b = some (c', b', spawned)) :
    c'.polls = (c.deviceResponseCount, b.pollCount c) := by
  cases b with
  | stream job pc =>
    obtain ⟨⟨c1, pc1⟩, h1, h2⟩ := Option.map_eq_some_iff.mp h
    cases h2
    exact advanceStream_polls h1
  | cancel em pc =>
    obtain ⟨⟨c1, pc1⟩, h1, h2⟩ := Option.map_eq_some_iff.mp h
    cases h2
    exact advanceCancel_polls h1
  | run job pc =>
    obtain ⟨⟨c1, pc1, sp⟩, h1, h2⟩ := Option.map_eq_some_iff.mp h
    cases h2
    exact advanceRun_polls h1
  | execute command pc =>
    obtain ⟨⟨c1, pc1⟩, h1, h2⟩ := Option.map_eq_some_iff.mp h
    cases h2
    cases pc <;> simp only [advanceExecute] at h1 <;> (try split_ifs at h1) <;> cases h1 <;> rfl
  | queue pc =>
    obtain ⟨⟨c1, pc1⟩, h1, h2⟩ := Option.map_eq_some_iff.mp h
    cases h2
    cases pc with
    | recv =>
      simp only [advanceQueue] at h1
      split at h1
      · cases h1
      · split_ifs at h1 <;> cases h1 <;> rfl
    | _ =>
      simp only [advanceQueue] at h1
      try split_ifs at h1
      all_goals cases h1
      all_goals rfl
  | interactive command pc =>
    obtain ⟨⟨c1, pc1⟩, h1, h2⟩ := Option.map_eq_some_iff.mp h
    cases h2
    cases pc <;> simp only [advanceInteractive] at h1 <;> (try split_ifs at h1) <;> cases h1 <;> rfl
  | hold on pc =>
    obtain ⟨⟨c1, pc1⟩, h1, h2⟩ := Option.map_eq_some_iff.mp h
    cases h2
    cases pc <;> unfold advanceHold at h1 <;> dsimp only at h1 <;> (try split at h1) <;>
      cases h1 <;> rfl
  | link connect pc =>
    obtain ⟨⟨c1, pc1, sp⟩, h1, h2⟩ := Option.map_eq_some_iff.mp h
    cases h2
    exact advanceLink_polls h1

/-- What is not a step of a task leaves the count, and only received bytes are responses. -/
theorem Sys.step_outside_polls (h : Sys.step l s = some u) (hl : ∀ i ch, l ≠ .task i ch) :
    u.core.consecutiveUnansweredPolls = s.core.consecutiveUnansweredPolls ∧
      (u.core.deviceResponseCount = s.core.deviceResponseCount ∨
        ∃ data, l = .rx data ∧ u.core = s.core.handleRx data) := by
  cases l with
  | task i ch => exact absurd rfl (hl i ch)
  | call op =>
    simp only [Sys.step] at h
    split_ifs at h
    cases h
    exact ⟨rfl, .inl rfl⟩
  | drop i =>
    simp only [Sys.step, Sys.dropTask] at h
    split at h
    case isFalse => cases h
    cases h
    exact ⟨rfl, .inl rfl⟩
  | rx data =>
    simp only [Sys.step, Sys.outside] at h
    split_ifs at h
    cases h
    exact ⟨(handleRx_polls data s.core).2, .inr ⟨data, rfl, rfl⟩⟩
  | poll err =>
    simp only [Sys.step, Sys.outside] at h
    split_ifs at h
    cases h
    unfold pollStatus
    split_ifs <;> exact ⟨rfl, .inl rfl⟩
  | _ =>
    simp only [Sys.step, Sys.outside] at h
    split_ifs at h
    cases h
    exact ⟨rfl, .inl rfl⟩

end Steps

/-! ### An observer of the polls -/

/-- A session, and what an observer of its polls has noted. -/
structure Watch where
  sys : Sys
  /-- How many responses had been processed when a streaming task sent its last poll. -/
  askedAt : ℕ → ℕ := fun _ => 0
  /-- The same for each of the polls counted as unanswered in a row, the latest first. -/
  counted : List ℕ := []

/-- What the observer notes when task `i` goes on: a poll is sent, a poll is counted, or the
count begins anew. -/
def Watch.note (i : ℕ) (w : Watch) : Body → Watch
  | .stream _ (.pollSend _ _) =>
    { w with askedAt := Function.update w.askedAt i w.sys.core.deviceResponseCount }
  | .stream _ (.pollFailed _) => { w with counted := w.askedAt i :: w.counted }
  | .stream _ (.pollDone _ before) =>
    { w with counted :=
        if before < w.sys.core.deviceResponseCount then [] else w.askedAt i :: w.counted }
  | .run _ .begin => { w with counted := [] }
  | _ => w

/-- What the watch notes of a step. -/
def Watch.noteLabel (l : Label) (w : Watch) : Watch :=
  match l with
  | .task i _ => (w.sys.tasks[i]?).elim w (w.note i)
  | _ => w

/-- One step of the session under the watch. -/
def Watch.step (l : Label) (w : Watch) : Option Watch :=
  (Sys.step l w.sys).map fun u => { w.noteLabel l with sys := u }

/-- The step calls `mark_device_unresponsive`. -/
def Sys.declaresDead (s : Sys) : Label → Bool
  | .task i _ =>
    match s.tasks[i]? with
    | some (.stream _ (.pollEnd _ _)) => s.core.deviceStoppedResponding
    | _ => false
  | _ => false

/-! ### When no response is missed -/

/-- `responses_before` of a poll that has begun, and that a response will still answer. -/
def StreamPc.window : StreamPc → Option ℕ
  | .pollLock before | .pollSend _ before | .pollWriting _ before none | .pollAwait _ before _
  | .pollSleep _ before _ | .pollDone _ before => some before
  | _ => none

/-- A poll whose write has failed. -/
def StreamPc.pollLost : StreamPc → Bool
  | .pollWriting _ _ (some _) => true
  | _ => false

/-- A run that has reset the count, and has not spawned its streaming task yet. -/
def RunPc.launching : RunPc → Bool
  | .abort | .abortWait _ | .spawn => true
  | _ => false

/-- A response will be noticed by task `b`: it is a streaming task in the window of a poll, or
neither streams nor is about to spawn a task that does. -/
def Body.attends : Body → Bool
  | .stream _ pc => pc.window.isSome
  | .run _ pc => !pc.launching
  | _ => true

/-- The task is about to lose the answer of a poll. -/
def Body.pollLost : Body → Bool
  | .stream _ pc => pc.pollLost
  | _ => false

/-- What holds of every task that is alive. -/
def Sys.allAlive (p : Body → Bool) (s : Sys) : Bool :=
  (List.range s.tasks.length).all fun i => !s.alive i || (s.tasks[i]?).all p

/-- **No response is missed**: one is processed only while no write of a poll has failed, and,
once polls are counted as unanswered, in the window of the next poll; and that poll is sent. -/
def Sys.noticed (s : Sys) : Label → Bool
  | .rx data =>
    decide ((s.core.handleRx data).deviceResponseCount = s.core.deviceResponseCount) ||
      (s.allAlive (fun b => !b.pollLost) &&
        (s.core.consecutiveUnansweredPolls == 0 || s.allAlive Body.attends))
  | .task i ch =>
    match s.tasks[i]? with
    | some (.stream _ (.pollSend _ before)) =>
      s.core.consecutiveUnansweredPolls == 0 || before == s.core.deviceResponseCount ||
        (s.core.isOpen && ch.writeError.isNone)
    | _ => true
  | _ => true

theorem Sys.allAlive_iff {p : Body → Bool} {s : Sys} :
    s.allAlive p = true ↔ ∀ i b, s.tasks[i]? = some b → s.alive i = true → p b = true := by
  unfold allAlive
  rw [List.all_eq_true]
  constructor
  · intro h i b hb halive
    have hi := h i (List.mem_range.mpr (List.getElem?_eq_some_iff.mp hb).1)
    rw [halive, hb] at hi
    exact hi
  · intro h i hi
    cases hb : s.tasks[i]? with
    | none => exact absurd (List.getElem?_eq_none_iff.mp hb) (by simpa using hi)
    | some b =>
      cases halive : s.alive i with
      | false => rfl
      | true => exact h i b hb halive

/-! ### What the count says -/

/-- What is known of the poll a streaming task is making, if `asked` responses had been processed
when it was sent, and `n` have been by now. -/
def StreamPc.dated (asked n : ℕ) : StreamPc → Prop
  | .pollLock before | .pollSend _ before => before ≤ n
  | .pollWriting _ before none | .pollAwait _ before _ | .pollSleep _ before _
  | .pollDone _ before => before ≤ asked ∧ asked ≤ n
  | .pollWriting _ _ (some _) | .pollFailed _ => asked = n
  | _ => True

/-- The task will find its poll answered, or does not poll at all. -/
def Body.answered (n : ℕ) : Body → Prop
  | .stream _ pc => ∃ before, pc.window = some before ∧ before < n
  | .run _ pc => pc.launching = false
  | _ => True

/-- Nothing has been processed since the first of the counted polls was sent, or all tasks that
stream are about to find their polls answered. -/
def Watch.Silent (w : Watch) : Prop :=
  (∀ n ∈ w.counted, n = w.sys.core.deviceResponseCount) ∨
    ∀ i b, w.sys.tasks[i]? = some b → w.sys.alive i = true →
      b.answered w.sys.core.deviceResponseCount

/-- **What the count of unanswered polls says of the responses.** -/
structure Watched (w : Watch) : Prop where
  waits : w.sys.Waits
  length : w.counted.length = w.sys.core.consecutiveUnansweredPolls
  dated : ∀ t job pc, w.sys.tasks[t]? = some (.stream job pc) → w.sys.alive t = true →
    pc.dated (w.askedAt t) w.sys.core.deviceResponseCount
  silent : w.Silent

section Watched

variable {n i t asked : ℕ} {job : Job} {ch : Choice} {c c' : Core} {b b' : Body} {pc pc' : StreamPc}
  {spawned : List Body} {w v : Watch} {l : Label}

/-- The observer counts as the session does. -/
theorem note_length (h : w.counted.length = w.sys.core.consecutiveUnansweredPolls) (b : Body) :
    (w.note i b).counted.length = b.pollCount w.sys.core := by
  cases b with
  | stream job pc =>
    cases pc with
    | pollFailed site => exact congrArg (· + 1) h
    | pollDone site before =>
      simp only [Watch.note, Body.pollCount]
      split_ifs
      · rfl
      · exact congrArg (· + 1) h
    | _ => exact h
  | run job pc =>
    cases pc with
    | begin => rfl
    | _ => exact h
  | _ => exact h

/-- A step of a streaming task keeps what is known of its poll. -/
theorem note_dated (h : advanceStream i job ch w.sys.core pc = some (c', pc'))
    (hd : pc.dated (w.askedAt i) w.sys.core.deviceResponseCount) :
    pc'.dated ((w.note i (.stream job pc)).askedAt i) w.sys.core.deviceResponseCount := by
  cases pc with
  | poll site => cases site <;> cases h <;> exact Nat.le_refl _
  | pollSend site before =>
    -- the poll is dated as its byte is written
    have hasked : (w.note i (.stream job (.pollSend site before))).askedAt i =
        w.sys.core.deviceResponseCount := Function.update_self ..
    simp only [advanceStream] at h
    split_ifs at h <;> cases h
    · cases ch.writeError with
      | none => exact ⟨hd.trans_eq hasked.symm, hasked.le⟩
      | some e => exact hasked
    · exact hasked
  | pollWriting site before err => cases err <;> cases h <;> exact hd
  | pollAwait site before left => cases left <;> cases h <;> exact hd
  | pollLock before =>
    simp only [advanceStream] at h
    split_ifs at h
    cases h
    exact hd
  | pollSleep site before left =>
    simp only [advanceStream] at h
    split_ifs at h <;> cases h <;> exact hd
  | loopTop idx rest =>
    cases rest <;> simp only [advanceStream] at h <;> (try split_ifs at h) <;> cases h <;>
      exact trivial
  | writing snd err => cases err <;> cases h <;> exact trivial
  | pollEnd site idle =>
    cases site <;> simp only [advanceStream] at h <;> split_ifs at h <;> cases h <;> exact trivial
  | stall snd =>
    cases h
    split_ifs <;> exact trivial
  | recover site =>
    cases site <;> simp only [advanceStream] at h <;> split_ifs at h <;> cases h <;> exact trivial
  | recoverStart site =>
    cases h
    split_ifs <;> exact trivial
  | recoverEnd site => cases site <;> cases h <;> exact trivial
  | outcome err =>
    cases err <;> simp only [advanceStream] at h <;> (try split_ifs at h) <;> cases h <;>
      exact trivial
  | cancelling pc e =>
    simp only [advanceStream] at h
    split at h
    · cases h
      exact trivial
    · obtain ⟨⟨c₁, pc₁⟩, -, h2⟩ := Option.map_eq_some_iff.mp h
      cases h2
      exact trivial
  | _ =>
    simp only [advanceStream] at h
    try split_ifs at h
    all_goals cases h
    all_goals exact trivial

/-- A poll that is counted now was sent when as many responses had been processed. -/
theorem mem_note_counted {k : ℕ} (hk : k ∈ (w.note i b).counted)
    (hd : ∀ job pc, b = .stream job pc →
      pc.dated (w.askedAt i) w.sys.core.deviceResponseCount) :
    k ∈ w.counted ∨ k = w.sys.core.deviceResponseCount := by
  cases b with
  | stream job pc =>
    cases pc with
    | pollFailed site =>
      rcases List.mem_cons.mp hk with rfl | hk
      · exact .inr (hd _ _ rfl)
      · exact .inl hk
    | pollDone site before =>
      simp only [Watch.note] at hk
      split_ifs at hk with hbefore
      · cases hk
      · rcases List.mem_cons.mp hk with rfl | hk
        · -- nothing was processed in the window of this poll
          obtain ⟨hle, hle'⟩ := hd _ _ rfl
          exact .inr (by omega)
        · exact .inl hk
    | _ => exact .inl hk
  | run job pc =>
    cases pc with
    | begin => cases hk
    | _ => exact .inl hk
  | _ => exact .inl hk

/-- A run that is not about to spawn its task resets the count first. -/
theorem advanceRun_launching {pc pc' : RunPc} {spawns : Bool}
    (h : advanceRun n job ch c pc = some (c', pc', spawns)) (hpc : pc.launching = false) :
    pc = .begin ∨ (pc'.launching = false ∧ spawns = false) := by
  cases pc with
  | begin => exact .inl rfl
  | rawNext realtime =>
    cases realtime with
    | nil =>
      cases h
      split_ifs <;> exact .inr ⟨rfl, rfl⟩
    | cons command realtime =>
      simp only [advanceRun] at h
      split_ifs at h <;> cases h <;> exact .inr ⟨rfl, rfl⟩
  | rawWriting realtime err => cases err <;> cases h <;> exact .inr ⟨rfl, rfl⟩
  | join t =>
    simp only [advanceRun] at h
    split at h <;> cases h
    exact .inr ⟨rfl, rfl⟩
  | returned => cases h
  | _ => cases hpc

/-- A task that will find its poll answered goes on to do so, and the count begins anew. -/
theorem advance_answered (h : advance n i ch w.sys.core b = some (c', b', spawned))
    (hb : b.answered w.sys.core.deviceResponseCount)
    (hsends : ∀ job site before, b = .stream job (.pollSend site before) →
      before < w.sys.core.deviceResponseCount →
      w.sys.core.isOpen = true ∧ ch.writeError = none) :
    (w.note i b).counted = [] ∨
      (b'.answered w.sys.core.deviceResponseCount ∧
        ∀ b₁ ∈ spawned, b₁.answered w.sys.core.deviceResponseCount) := by
  cases b with
  | stream job pc =>
    obtain ⟨⟨c1, pc1⟩, h1, h2⟩ := Option.map_eq_some_iff.mp h
    cases h2
    obtain ⟨before, hwindow, hlt⟩ := hb
    have hnone : ∀ b₁ ∈ ([] : List Body), b₁.answered w.sys.core.deviceResponseCount :=
      fun b₁ hb₁ => absurd hb₁ List.not_mem_nil
    cases pc with
    | pollLock before' =>
      cases hwindow
      simp only [advanceStream] at h1
      split_ifs at h1
      cases h1
      exact .inr ⟨⟨before, rfl, hlt⟩, hnone⟩
    | pollSend site before' =>
      cases hwindow
      obtain ⟨hopen, herr⟩ := hsends _ _ _ rfl hlt
      simp only [advanceStream] at h1
      rw [if_pos hopen, herr] at h1
      cases h1
      exact .inr ⟨⟨before, rfl, hlt⟩, hnone⟩
    | pollWriting site before' err =>
      cases err with
      | none =>
        cases hwindow
        cases h1
        exact .inr ⟨⟨before, rfl, hlt⟩, hnone⟩
      | some e => cases hwindow
    | pollAwait site before' left =>
      cases hwindow
      cases left <;> cases h1 <;> exact .inr ⟨⟨before, rfl, hlt⟩, hnone⟩
    | pollSleep site before' left =>
      cases hwindow
      simp only [advanceStream] at h1
      split_ifs at h1 <;> cases h1 <;> exact .inr ⟨⟨before, rfl, hlt⟩, hnone⟩
    | pollDone site before' =>
      cases hwindow
      -- the poll is over, and the answer counts
      exact .inl (if_pos hlt)
    | _ => cases hwindow
  | run job pc =>
    obtain ⟨⟨c1, pc1, sp⟩, h1, h2⟩ := Option.map_eq_some_iff.mp h
    cases h2
    rcases advanceRun_launching h1 hb with rfl | ⟨hlaunching, rfl⟩
    · exact .inl rfl
    · exact .inr ⟨hlaunching, fun b₁ hb₁ => absurd hb₁ List.not_mem_nil⟩
  | link connect pc =>
    obtain ⟨⟨c1, pc1, sp⟩, h1, h2⟩ := Option.map_eq_some_iff.mp h
    cases h2
    refine .inr ⟨trivial, fun b₁ hb₁ => ?_⟩
    split_ifs at hb₁
    · cases List.mem_singleton.mp hb₁
      exact trivial
    · cases hb₁
  | _ =>
    obtain ⟨⟨c1, pc1⟩, -, h2⟩ := Option.map_eq_some_iff.mp h
    cases h2
    exact .inr ⟨trivial, fun b₁ hb₁ => absurd hb₁ List.not_mem_nil⟩

theorem Watch.step_eq (h : Watch.step l w = some v) :
    Sys.step l w.sys = some v.sys ∧ v.askedAt = (w.noteLabel l).askedAt ∧
      v.counted = (w.noteLabel l).counted := by
  obtain ⟨u, hu, rfl⟩ := Option.map_eq_some_iff.mp h
  exact ⟨hu, rfl, rfl⟩

/-- The observer notes nothing about a task when another one goes on. -/
theorem askedAt_noteLabel (hl : ∀ ch, l ≠ .task t ch) : (w.noteLabel l).askedAt t = w.askedAt t := by
  unfold Watch.noteLabel
  split
  · rename_i i ch
    have hne : t ≠ i := fun h => hl ch (by rw [h])
    cases w.sys.tasks[i]? with
    | none => rfl
    | some b =>
      show (w.note i b).askedAt t = w.askedAt t
      unfold Watch.note
      split <;> first | rfl | exact Function.update_of_ne hne ..
  · rfl

/-- The steps of the tasks keep what the count says. -/
theorem Watched.step_task (hw : Watched w) (h : Watch.step (.task i ch) w = some v)
    (hnoticed : w.sys.noticed (.task i ch) = true) : Watched v := by
  obtain ⟨hstep, hasked, hcounted⟩ := Watch.step_eq h
  obtain ⟨b, c', b', spawned, hb, halive, -, hadv, hv⟩ := Sys.step_task hstep
  have hnote : w.noteLabel (.task i ch) = w.note i b := by
    show (w.sys.tasks[i]?).elim w (w.note i) = _
    rw [hb, Option.elim_some]
  rw [hnote] at hcounted
  have hpolls := advance_polls hadv
  have hcore : v.sys.core = c' := by rw [hv]
  have hcount : v.sys.core.deviceResponseCount = w.sys.core.deviceResponseCount := by
    rw [hcore]
    exact congrArg Prod.fst hpolls
  have hdatedb : ∀ job pc, b = .stream job pc →
      pc.dated (w.askedAt i) w.sys.core.deviceResponseCount :=
    fun job pc heq => hw.dated i job pc (heq ▸ hb) halive
  refine ⟨hw.waits.step hstep, ?_, ?_, ?_⟩
  · rw [hcounted, note_length hw.length, hcore]
    exact (congrArg Prod.snd hpolls).symm
  · intro t job pc ht hta
    rw [hcount, hasked]
    rcases step_stream hstep ht with ⟨pc₀, h₀, ⟨rfl, hl⟩ | ⟨ch', hl, -, -, hmove⟩⟩ | ⟨-, rfl, -⟩
    · rw [askedAt_noteLabel hl]
      exact hw.dated t job pc₀ h₀ (alive_of_step hstep hta)
    · cases hl
      cases hb.symm.trans h₀
      rw [hnote]
      exact note_dated hmove (hdatedb _ _ rfl)
    · exact trivial
  -- while nothing is heard, every counted poll is dated with the same number of answers
  · have hkept : (∀ n ∈ w.counted, n = w.sys.core.deviceResponseCount) →
        ∀ n ∈ v.counted, n = v.sys.core.deviceResponseCount := fun hsilent n hn => by
      rw [hcount]
      rw [hcounted] at hn
      exact (mem_note_counted hn hdatedb).elim (hsilent n) id
    rcases hw.silent with hsilent | hanswered
    · exact .inl (hkept hsilent)
    · by_cases hzero : w.sys.core.consecutiveUnansweredPolls = 0
      · -- nothing is counted yet
        have hnil : w.counted = [] := List.length_eq_zero_iff.mp (hw.length.trans hzero)
        exact .inl (hkept fun n hn => by rw [hnil] at hn; cases hn)
      -- a poll that was answered meanwhile is noticed, and its write succeeds
      · have hsends : ∀ job site before, b = .stream job (.pollSend site before) →
            before < w.sys.core.deviceResponseCount →
            w.sys.core.isOpen = true ∧ ch.writeError = none := by
          rintro job site before rfl hlt
          simp only [Sys.noticed, hb, Bool.or_eq_true, beq_iff_eq, Bool.and_eq_true,
            Option.isNone_iff_eq_none] at hnoticed
          exact hnoticed.resolve_left fun h => h.elim hzero fun h => by omega
        rcases advance_answered hadv (hanswered i b hb halive) hsends with hnil | ⟨hb', hnew⟩
        · refine .inl fun n hn => ?_
          rw [hcounted, hnil] at hn
          cases hn
        · refine .inr fun j bj hj hja => ?_
          rw [hcount]
          rw [hv] at hj
          have hj' : (w.sys.tasks.set i b' ++ spawned)[j]? = some bj := hj
          have hlen : i < w.sys.tasks.length := (List.getElem?_eq_some_iff.mp hb).1
          by_cases hjlt : j < (w.sys.tasks.set i b').length
          · rw [List.getElem?_append_left hjlt] at hj'
            by_cases hij : i = j
            · subst hij
              rw [List.getElem?_set_self hlen] at hj'
              cases hj'
              exact hb'
            · rw [List.getElem?_set_ne hij] at hj'
              exact hanswered j bj hj' (alive_of_step hstep hja)
          · rw [List.getElem?_append_right (by omega)] at hj'
            exact hnew bj (List.mem_of_getElem? hj')

/-- The task of a call does not stream, and a run begins by resetting the count. -/
theorem Call.answered_body (op : Call) (n : ℕ) : op.body.answered n := by
  cases op <;> first | exact rfl | exact trivial

/-- What a response does: it answers the polls in whose windows it falls. -/
theorem answered_of_attends {m n : ℕ} (hb : b.attends = true) (hlt : m < n)
    (hd : ∀ job pc, b = .stream job pc → pc.dated asked m) : b.answered n := by
  cases b with
  | stream job pc =>
    have hdated := hd job pc rfl
    cases pc with
    | pollWriting site before err =>
      cases err with
      | none => exact ⟨before, rfl, by have hle := hdated.1; have hle' := hdated.2; omega⟩
      | some e => cases hb
    | pollLock before | pollSend site before => exact ⟨before, rfl, Nat.lt_of_le_of_lt hdated hlt⟩
    | pollAwait site before left | pollSleep site before left | pollDone site before =>
      exact ⟨before, rfl, by have hle := hdated.1; have hle' := hdated.2; omega⟩
    | _ => cases hb
  | run job pc =>
    show pc.launching = false
    simpa [Body.attends] using hb
  | _ => exact trivial

/-- What a response does not change: what is known of the polls, if no write has failed. -/
theorem dated_mono {m n : ℕ} (hd : pc.dated asked m) (hle : m ≤ n) (hlost : pc.pollLost = false)
    (hsusp : pc.suspended = true) : pc.dated asked n := by
  cases pc with
  | pollWriting site before err =>
    cases err with
    | none => exact ⟨hd.1, hd.2.trans hle⟩
    | some e => cases hlost
  | pollLock before => exact Nat.le_trans hd hle
  | pollSleep site before left => exact ⟨hd.1, hd.2.trans hle⟩
  | pollSend _ _ | pollFailed _ | pollAwait _ _ _ | pollDone _ _ => cases hsusp
  | _ => exact trivial

/-- A streaming task behind a step that is none of a task: it was there, at an await point. -/
theorem Watched.stream_rests (hw : Watched w) (hstep : Sys.step l w.sys = some v.sys)
    (hno : ∀ i ch, l ≠ .task i ch) (ht : v.sys.tasks[t]? = some (.stream job pc)) :
    w.sys.tasks[t]? = some (.stream job pc) ∧ pc.suspended = true := by
  rcases step_stream hstep ht with ⟨pc₀, h₀, ⟨rfl, hl⟩ | ⟨ch', hl, -⟩⟩ | ⟨-, -, i, ch', hl, -⟩
  · refine ⟨h₀, ?_⟩
    by_contra hsusp
    have hact := hw.waits t _ h₀ (by simpa [Body.suspended] using hsusp)
    rw [(step_other hstep hno).1] at hact
    cases hact
  · exact absurd hl (hno t ch')
  · exact absurd hl (hno i ch')

/-- Where no response is processed, the silence goes on. -/
theorem Watch.Silent.outside (hsilent : w.Silent) (hstep : Sys.step l w.sys = some v.sys)
    (hno : ∀ i ch, l ≠ .task i ch) (hcounted : v.counted = w.counted)
    (hcount : v.sys.core.deviceResponseCount = w.sys.core.deviceResponseCount) : v.Silent := by
  unfold Watch.Silent
  rw [hcount, hcounted]
  refine hsilent.imp_right fun hanswered i b hb halive => ?_
  cases hold : w.sys.tasks[i]? with
  | none =>
    rcases step_new hstep hold hb with ⟨op, -, rfl⟩ | ⟨j, ch, job, hl, -⟩ | rfl
    · exact op.answered_body _
    · exact absurd hl (hno j ch)
    · exact trivial
  | some b₀ =>
    obtain rfl : b₀ = b := Option.some.inj
      ((step_tasks hstep hold fun ch => hno i ch).symm.trans hb)
    exact hanswered i b₀ hold (alive_of_step hstep halive)

/-- A response that falls in the windows of the polls will be noticed. -/
theorem Watched.silent_rx {data : Bytes} (hw : Watched w)
    (hstep : Sys.step (.rx data) w.sys = some v.sys) (hcounted : v.counted = w.counted)
    (hnoticed : w.sys.noticed (.rx data) = true) : v.Silent := by
  have hv : v.sys = { w.sys with core := w.sys.core.handleRx data } := by
    simp only [Sys.step, Sys.outside] at hstep
    split_ifs at hstep
    exact (Option.some.inj hstep).symm
  have hcore : v.sys.core = w.sys.core.handleRx data := by rw [hv]
  have hno : ∀ i ch, Label.rx data ≠ .task i ch := by simp
  by_cases hcount : v.sys.core.deviceResponseCount = w.sys.core.deviceResponseCount
  · exact hw.silent.outside hstep hno hcounted hcount
  · rw [hcore] at hcount
    simp only [Sys.noticed, Bool.or_eq_true, decide_eq_true_eq, Bool.and_eq_true,
      beq_iff_eq] at hnoticed
    obtain ⟨-, hzero | hattends⟩ := hnoticed.resolve_left hcount
    · -- nothing is counted yet
      have hnil : w.counted = [] := List.length_eq_zero_iff.mp (hw.length.trans hzero)
      refine .inl fun n hn => ?_
      rw [hcounted, hnil] at hn
      cases hn
    · have hgrows : w.sys.core.deviceResponseCount < v.sys.core.deviceResponseCount := by
        rw [hcore]
        rw [(handleRx_polls data w.sys.core).1] at hcount ⊢
        omega
      refine .inr fun i b hb halive => ?_
      have hlive := alive_of_step hstep halive
      rw [hv] at hb
      exact answered_of_attends (allAlive_iff.mp hattends i b hb hlive) hgrows
        fun job pc heq => hw.dated i job pc (heq ▸ hb) hlive

/-- **Every step in which no response is missed keeps what the count says.** -/
theorem Watched.step (hw : Watched w) (h : Watch.step l w = some v)
    (hnoticed : w.sys.noticed l = true) : Watched v := by
  by_cases hl : ∃ i ch, l = .task i ch
  · obtain ⟨i, ch, rfl⟩ := hl
    exact hw.step_task h hnoticed
  · have hno : ∀ i ch, l ≠ .task i ch := fun i ch hi => hl ⟨i, ch, hi⟩
    obtain ⟨hstep, hasked, hcounted⟩ := Watch.step_eq h
    have hnote : w.noteLabel l = w := by
      cases l with
      | task i ch => exact absurd rfl (hno i ch)
      | _ => rfl
    rw [hnote] at hasked hcounted
    obtain ⟨hpolls, hcount⟩ := step_outside_polls hstep hno
    refine ⟨hw.waits.step hstep, by rw [hcounted, hw.length, hpolls], ?_, ?_⟩
    · intro t job pc ht hta
      obtain ⟨h₀, hsusp⟩ := hw.stream_rests hstep hno ht
      have hlive := alive_of_step hstep hta
      have hd := hw.dated t job pc h₀ hlive
      rw [hasked]
      rcases hcount with hcount | ⟨data, rfl, hcore⟩
      · rw [hcount]
        exact hd
      · rw [hcore]
        simp only [Sys.noticed, Bool.or_eq_true, decide_eq_true_eq, Bool.and_eq_true] at hnoticed
        rcases hnoticed with hsame | ⟨hlost, -⟩
        · rw [hsame]
          exact hd
        · have hlost' := allAlive_iff.mp hlost t _ h₀ hlive
          refine dated_mono hd ?_ (by simpa [Body.pollLost] using hlost') hsusp
          rw [(handleRx_polls data w.sys.core).1]
          exact Nat.le_add_right _ _
    · rcases hcount with hcount | ⟨data, rfl, -⟩
      · exact hw.silent.outside hstep hno hcounted hcount
      · exact hw.silent_rx hstep hcounted hnoticed

end Watched

/-- **A device declared dead has been silent for all the counted polls**: if no response is
missed, as many had been processed when the first of the polls was sent as when the job gives
the device up. -/
theorem dead_device_silent {w₀ w u : Watch} {l : Label} (htasks : w₀.sys.tasks = [])
    (hcount : w₀.sys.core.consecutiveUnansweredPolls = 0) (hcounted : w₀.counted = [])
    (hlimit : 1 ≤ w.sys.core.config.unansweredPollLimit)
    (hrun : Run Watch.step (fun a l _ => a.sys.noticed l = true) w₀ w)
    (hstep : Watch.step l w = some u) (hdead : w.sys.declaresDead l = true) :
    w.counted[w.sys.core.config.unansweredPollLimit - 1]? =
      some w.sys.core.deviceResponseCount := by
  have hstart : Watched w₀ :=
    ⟨fun i b hb => by simp [htasks] at hb, by rw [hcounted, hcount]; rfl,
      fun t job pc ht => by simp [htasks] at ht, .inl fun n hn => by rw [hcounted] at hn; cases hn⟩
  have hw : Watched w := hrun.invariant (fun a l b ha hst hok => ha.step hst hok) hstart
  obtain ⟨hst, -, -⟩ := Watch.step_eq hstep
  cases l with
  | task t ch =>
    obtain ⟨b, c', b', spawned, hb, halive, -, -, -⟩ := Sys.step_task hst
    simp only [Sys.declaresDead, hb] at hdead
    split at hdead
    case h_2 => cases hdead
    rename_i job site idle heq
    obtain rfl := Option.some.inj heq
    have hstopped : w.sys.core.config.unansweredPollLimit ≤
        w.sys.core.consecutiveUnansweredPolls := of_decide_eq_true hdead
    rcases hw.silent with hsilent | hanswered
    -- the counted polls are as many as the limit says, and all dated alike
    · have hlt : w.sys.core.config.unansweredPollLimit - 1 < w.counted.length := by
        rw [hw.length]
        omega
      rw [List.getElem?_eq_getElem hlt, hsilent _ (List.getElem_mem hlt)]
    · -- the task is behind its poll, not in the window of one
      obtain ⟨before, hwindow, -⟩ := hanswered t _ hb halive
      cases hwindow
  | _ => cases hdead

/-- A job that sends its first line and waits for space for the second.  Two unanswered polls
are too many, and each waits once. -/
def impatient : Watch :=
  { sys := {
      core := { config := { unansweredPollLimit := 2, pollResponseAttempts := 1 } }, tasks := [] } }

/-- The second line stalls, and nothing answers the poll. -/
def firstPoll : List Label :=
  .setRxBufferSize 7 :: .call (.run twoLines) :: turns 0 3 ++ turns 1 13 ++
    .task 1 { timedOut := true } :: turns 1 11

/-- The second line stalls again, and nothing answers that poll either. -/
def secondPoll : List Label := .task 1 { timedOut := true } :: turns 1 8

/-- An ok makes space for the second line, its ok is late, and the poll of the drain meets no
response. -/
def latePoll : List Label :=
  .rx (ascii "ok\n") :: turns 1 8 ++ .task 1 { timedOut := true } :: turns 1 8

/-- The general result on a device that never answers. -/
theorem dead_device_silent_twice :
    (reach Watch.step (firstPoll ++ secondPoll) impatient).counted[1]? = some 0 := by
  have hrun : Run Watch.step (fun a l _ => a.sys.noticed l = true) impatient
      (reach Watch.step (firstPoll ++ secondPoll) impatient) := run_reach_where (by decide)
  exact dead_device_silent (l := .task 1 {})
    (u := reach Watch.step (turns 1 1) (reach Watch.step (firstPoll ++ secondPoll) impatient))
    rfl rfl rfl (by decide) hrun (by rfl) (by decide)

/-- **A live device is declared dead**: it answers between two stalls. -/
theorem live_device_declared_dead :
    ¬ ∀ (w₀ w u : Watch) (l : Label), w₀.sys.tasks = [] →
      w₀.sys.core.consecutiveUnansweredPolls = 0 → w₀.counted = [] →
      1 ≤ w.sys.core.config.unansweredPollLimit → Run Watch.step AnyStep w₀ w →
      Watch.step l w = some u → w.sys.declaresDead l = true →
      w.counted[w.sys.core.config.unansweredPollLimit - 1]? =
        some w.sys.core.deviceResponseCount := by
  intro h
  let w := reach Watch.step (firstPoll ++ latePoll) impatient
  exact absurd (h impatient w (reach Watch.step (turns 1 1) w) (.task 1 {}) rfl rfl rfl (by decide)
    (run_reach (by decide)) (by rfl) (by decide)) (by decide)

end Raydriver
