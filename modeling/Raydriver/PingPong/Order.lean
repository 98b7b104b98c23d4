import Raydriver.Grbl.Order
import Raydriver.PingPong.Alarm

/-!
# The lines of a job go out in order, one at a time

The run loop of a ping-pong session is simpler than the streaming task: it writes a
line, waits for its acknowledgement, and goes on.  What it has handed to the transport
and what it has still to write make up the commands of the job, until an exchange fails
or the loop is left.  `SimpleCore` takes the same commands out of a text as the
streaming task does.

## Main definitions

* `RunPc.handing`, `RunPc.cut` — a line refused by the transport; where the loop may
  have been left early.
* `Sequential` — the invariant.

## Main results

* `commandsOf_simple` — the commands of `SimpleCore` are the lines of `SessionCore`.
* `job_lines_in_order` — **job lines are sent in order, once, and completely**, in both.
-/

namespace Raydriver.PingPong

open Lts

/-- `SimpleCore` trims what the comment stripper has trimmed. -/
theorem jobLine_simple (rawLine : Text) :
    Firmware.simple.jobLine rawLine = stripGcodeComments rawLine := trim_trim _

/-- The commands of `SimpleCore` are the lines of the streaming task. -/
theorem commandsOf_simple (rawLines : List Text) :
    (commandsOf .simple rawLines).map commandLine = toSend rawLines := by
  have hline : Firmware.simple.jobLine = stripGcodeComments := funext jobLine_simple
  unfold commandsOf toSend
  rw [hline]

/-- A line that was handed to the transport, which refused it. -/
def RunPc.handing : RunPc → List Text
  | .ping _ line _ (.writing _ (some _)) => [commandLine line]
  | _ => []

/-- The loop may have been left with commands unwritten: an exchange has failed, there is
an exception or a cancellation, or `A` holds, which stands for an alarm that was seen. -/
def RunPc.cut (A : Prop) (c : Core) : RunPc → Prop
  | .ping _ _ _ (.returned _ _ (some _)) => True
  | .ended interrupted =>
    interrupted = true ∨ c.jobException.isSome = true ∨ c.isCancelled = true ∨ A
  | pc => pc.past = true

/-- The invariant: what has been handed over and what is left is the whole job, or the
loop has been left early and what has been handed over is a beginning of it. -/
def Sequential (A : Prop) (fw : Firmware) (j : ℕ) (job : Job) (pc : RunPc) (c : Core) : Prop :=
  (c.linesBy j).map Sent.payload ++ pc.handing ++ (pc.left fw job).map commandLine =
      (commandsOf fw job.lines).map commandLine ∨
    (pc.cut A c ∧ (c.linesBy j).map Sent.payload ++ pc.handing <+:
      (commandsOf fw job.lines).map commandLine)

section Sequential

variable {A : Prop} {fw : Firmware} {j : ℕ} {job : Job} {ch : Choice} {pc pc' : RunPc} {c c' : Core}

/-- In either case a beginning of the job has been handed over. -/
theorem Sequential.begins (h : Sequential A fw j job pc c) :
    (c.linesBy j).map Sent.payload ++ pc.handing <+: (commandsOf fw job.lines).map commandLine := by
  rcases h with h | ⟨-, h⟩
  · exact ⟨_, h⟩
  · exact h

/-- A step that hands nothing over and leaves nothing out. -/
theorem Sequential.keep (h : Sequential A fw j job pc c) (hlines : c'.linesBy j = c.linesBy j)
    (hhand : pc'.handing = pc.handing) (hleft : pc'.left fw job = pc.left fw job)
    (hcut : pc.cut A c → pc'.cut A c') : Sequential A fw j job pc' c' := by
  unfold Sequential
  rw [hlines, hhand, hleft]
  exact h.imp id fun h => ⟨hcut h.1, h.2⟩

/-- A step out of the loop. -/
theorem Sequential.leave (h : Sequential A fw j job pc c) (hlines : c'.linesBy j = c.linesBy j)
    (hhand : pc'.handing = []) (hcut : pc'.cut A c') : Sequential A fw j job pc' c' := by
  refine .inr ⟨hcut, ?_⟩
  rw [hlines, hhand, List.append_nil]
  exact (List.prefix_append _ _).trans h.begins

/-- A command is handed to the transport. -/
theorem Sequential.write {idx : ℕ} {line : Text} {rest : List Text} (err : Option String)
    (h : Sequential A fw j job (.ping idx line rest .locked) c) :
    Sequential A fw j job (.ping idx line rest (.writing c.cmds.length err))
      ((c.enqueue fw).write (.command j c.cmds.length) (commandLine line) err) := by
  have hwhole : (c.linesBy j).map Sent.payload ++ [] ++
      (line :: commandsOf fw rest).map commandLine =
        (commandsOf fw job.lines).map commandLine := by
    rcases h with h | ⟨hcut, -⟩
    · exact h
    · cases hcut
  refine .inl ?_
  rw [← hwhole]
  cases err with
  | none =>
    have hlines :
        ((c.enqueue fw).write (.command j c.cmds.length) (commandLine line) none).linesBy j
          = c.linesBy j ++ [⟨.command j c.cmds.length, commandLine line⟩] := by
      show List.filter _ (c.sent ++ [_]) = _
      rw [List.filter_append]
      simp [Core.linesBy, Origin.isCommandOf]
    rw [hlines]
    simp [RunPc.handing, RunPc.left, PingPc.written]
  | some e =>
    have hlines :
        ((c.enqueue fw).write (.command j c.cmds.length) (commandLine line) (some e)).linesBy j
          = c.linesBy j := by
      refine linesBy_of_sent ?_
      show c.sent ++ [] = c.sent
      rw [List.append_nil]
    rw [hlines]
    simp [RunPc.handing, RunPc.left, PingPc.written]

/-- **What a step of an exchange keeps.** -/
theorem Sequential.ping {idx : ℕ} {line : Text} {rest : List Text} {p p' : PingPc}
    (h : Sequential A fw j job (.ping idx line rest p) c)
    (hs : PingStep fw j true line c p c' p') : Sequential A fw j job (.ping idx line rest p') c' := by
  have hend : ∀ cmd, (c.endPing fw true cmd).linesBy j = c.linesBy j := by
    intro cmd
    refine linesBy_of_sent ?_
    unfold Core.endPing Core.dropPending
    dsimp only
    split_ifs <;> rfl
  cases hs with
  | enter _ _ hp hp' =>
    have hentering : ∀ q : PingPc, q.entering = true →
        q.written = false ∧ (RunPc.ping idx line rest q).handing = [] ∧
          ((RunPc.ping idx line rest q).cut A c ↔ False) := by
      intro q hq
      cases q <;> first | exact ⟨rfl, rfl, by simp [RunPc.cut, RunPc.past]⟩ | cases hq
    obtain ⟨hw, hh, hc⟩ := hentering p hp
    obtain ⟨hw', hh', -⟩ := hentering p' hp'
    refine h.keep rfl (hh'.trans hh.symm) ?_ fun hcut => (hc.mp hcut).elim
    simp only [RunPc.left, hw, hw']
  | bare hser => cases hser
  | refused => exact h.leave rfl rfl trivial
  | lock => exact h.keep rfl rfl rfl fun hcut => by cases hcut
  | closed => exact h.leave rfl rfl trivial
  | write err => exact h.write err
  | written cmd => exact h.keep rfl rfl rfl fun hcut => by cases hcut
  | failed cmd => exact h.leave (hend cmd) rfl trivial
  | answered cmd => exact h.keep (hend cmd) rfl rfl fun hcut => by cases hcut
  | expired cmd => exact h.leave (hend cmd) rfl trivial

/-- **What a step of the run loop keeps.** -/
theorem Sequential.run (halarm : c.state.status = .alarm → A) (h : Sequential A fw j job pc c)
    (hs : advanceRun fw j job ch c pc = some (c', pc')) : Sequential A fw j job pc' c' := by
  cases pc with
  | rawNext realtime =>
    cases realtime with
    | nil =>
      cases hs
      split_ifs
      · exact h.leave rfl rfl rfl
      · exact h.keep rfl rfl rfl fun hcut => by cases hcut
    | cons command realtime =>
      simp only [advanceRun] at hs
      split_ifs at hs <;> cases hs
      · exact h.keep (linesBy_write (o := .realtime) command ch.writeError rfl rfl) rfl rfl
          fun hcut => by cases hcut
      · exact h.leave rfl rfl rfl
  | rawWriting realtime err =>
    cases hs
    split_ifs
    · exact h.keep rfl rfl rfl fun hcut => by cases hcut
    · exact h.leave rfl rfl rfl
  | begin =>
    cases hs
    exact h.keep rfl rfl rfl fun hcut => by cases hcut
  | top idx rest =>
    cases rest with
    | nil =>
      cases hs
      exact h.keep rfl rfl rfl fun hcut => by cases hcut
    | cons rawLine rest =>
      simp only [advanceRun] at hs
      split_ifs at hs with hstop hblank <;> cases hs
      -- the loop is left early: cancelled, or an alarm
      · refine h.leave rfl rfl (.inr (.inr ?_))
        rw [Bool.or_eq_true, Bool.and_eq_true, beq_iff_eq] at hstop
        exact hstop.imp id fun ha => halarm ha.2
      · refine h.keep rfl rfl ?_ fun hcut => by cases hcut
        -- a blank line is not among the commands
        simp only [RunPc.left, commandsOf_cons, if_pos hblank]
      · have hop : (c.reportOp (job.opIndex idx)).exchange = c.exchange := exchange_reportOp _ _
        refine h.keep (linesBy_of_sent (congrArg Exchange.sent hop)) rfl ?_
          fun hcut => by cases hcut
        simp only [RunPc.left, commandsOf_cons, if_neg hblank]
        rfl
  | ping idx line rest p =>
    simp only [advanceRun] at hs
    split at hs
    · cases hs
      exact h.leave rfl rfl (.inl rfl)
    · cases hs
      -- the exchange is over: an exception of the job ends the loop
      split_ifs with hexc
      · exact h.leave rfl rfl (.inr (.inl hexc))
      · exact h.keep rfl rfl rfl fun hcut => by cases hcut
    · obtain ⟨⟨c₁, p'⟩, hping, heq⟩ := Option.map_eq_some_iff.mp hs
      cases heq
      exact h.ping (advancePing_step hping)
  | yielded idx rest =>
    cases hs
    exact h.keep rfl rfl rfl fun hcut => by cases hcut
  | ended interrupted =>
    cases hs
    split_ifs <;> exact h.leave rfl rfl rfl
  | shutdown was p =>
    obtain ⟨-, hlines⟩ := advanceRun_over hs rfl
    have hpast := advanceRun_past hs rfl
    refine h.leave hlines ?_ ?_
    · cases pc' <;> first | rfl | cases hpast
    · cases pc' <;> first | exact hpast | cases hpast
  | finish was =>
    cases hs
    exact h.leave rfl rfl rfl
  | returned => cases hs

end Sequential

/-! ### Whole runs -/

/-- A session in which nothing has happened. -/
structure Fresh (s : Sys) : Prop where
  tasks : s.tasks = []
  active : s.active = none
  sent : s.core.sent = []

/-- The run of task `j`, if there is one, goes through its job in order, and is alone
between two await points. -/
inductive Ordered (A : Prop) (fw : Firmware) (j : ℕ) (s : Sys) : Prop
  | absent (h : s.tasks[j]? = none) (hlines : s.core.linesBy j = [])
  | run (job : Job) (pc : RunPc) (h : s.tasks[j]? = some (.run job pc))
      (hactive : pc.suspended = false → s.active = some j) (horder : Sequential A fw j job pc s.core)
  | other (b : Body) (h : s.tasks[j]? = some b) (hb : b.isRun = false)

/-- No step of task `j` is made in an alarm. -/
def noAlarmSeen (j : ℕ) (s : Sys) (l : Label) (_ : Sys) : Bool :=
  match l with
  | .task i _ => i != j || s.core.state.status != .alarm
  | _ => true

section Ordered

variable {A : Prop} {fw : Firmware} {j : ℕ} {s u : Sys} {l : Label}

/-- Nobody but task `j` writes lines under its name. -/
theorem linesBy_step (hs : Sys.step fw l s = some u)
    (hl : ∀ ch b, l = .task j ch → s.tasks[j]? ≠ some b) :
    u.core.linesBy j = s.core.linesBy j := by
  by_cases hl' : ∃ i ch, l = .task i ch
  · obtain ⟨i, ch, rfl⟩ := hl'
    obtain ⟨b, c', b', hb, -, hadv, rfl⟩ := Sys.step_task hs
    have hij : i ≠ j := fun hij => by
      subst hij
      exact hl ch b rfl hb
    exact (advance_effect hadv).linesBy hij
  · obtain ⟨-, haside⟩ := Sys.step_other hs fun i ch hi => hl' ⟨i, ch, hi⟩
    refine linesBy_of_sent ?_
    cases haside with
    | call op b hlabel hb hcore htasks => rw [hcore]
    | rx data hlabel hcore htasks => rw [hcore, (handleRx_frame data s.core).sent]
    | link up hlabel hcore htasks => rw [hcore]
    | announce hlabel hcore htasks => rw [hcore]
    | cleanup hlabel hcore htasks => rw [hcore]; rfl
    | drop i pc hlabel hi hcore htasks => rw [hcore]; split_ifs <;> rfl

/-- The run itself goes on. -/
theorem Ordered.own {ch : Choice} {job : Job} {pc : RunPc}
    (hs : Sys.step fw (.task j ch) s = some u) (hb : s.tasks[j]? = some (.run job pc))
    (horder : Sequential A fw j job pc s.core) (halarm : s.core.state.status = .alarm → A) :
    Ordered A fw j u := by
  obtain ⟨b, c', b', hb', -, hadv, rfl⟩ := Sys.step_task hs
  obtain rfl : b = .run job pc := Option.some.inj (hb'.symm.trans hb)
  obtain ⟨⟨c₁, pc'⟩, hstep, heq⟩ := Option.map_eq_some_iff.mp hadv
  cases heq
  have hlen : j < s.tasks.length := (List.getElem?_eq_some_iff.mp hb).1
  refine .run job pc' ?_ (fun hpc => ?_) (horder.run halarm hstep)
  · rw [List.getElem?_set_self hlen]
  · have hpc' : (Body.run job pc').suspended = false := hpc
    show (if (Body.run job pc').suspended then none else some j) = some j
    rw [hpc']
    rfl

/-- **What every step keeps.** -/
theorem Ordered.step (h : Ordered A fw j s) (hs : Sys.step fw l s = some u)
    (halarm : ∀ ch, l = .task j ch → s.core.state.status = .alarm → A) : Ordered A fw j u := by
  cases h with
  | absent hnone hlines =>
    have hlines' : u.core.linesBy j = [] :=
      (linesBy_step hs fun ch b _ hb => by rw [hnone] at hb; cases hb).trans hlines
    cases hu : u.tasks[j]? with
    | none => exact .absent hu hlines'
    | some b =>
      obtain ⟨op, -, hop, hnew⟩ := Sys.step_new hs hnone hu
      cases b with
      | run job pc =>
        -- a new run has all its commands left
        obtain ⟨hbegun, hleft, hhand⟩ : pc.begun = false ∧
            pc.left fw job = commandsOf fw job.lines ∧ pc.handing = [] := by
          cases op with
          | run job => cases hop; exact ⟨rfl, rfl, rfl⟩
          | runRaw lines => cases fw <;> cases hop <;> exact ⟨rfl, rfl, rfl⟩
          | setHold hold =>
            simp only [Call.body] at hop
            split_ifs at hop
            cases hop
          | _ => cases hop
        refine .run job pc hu hnew (.inl ?_)
        rw [hlines', hleft, hhand]
        rfl
      | _ => exact .other _ hu rfl
  | run job pc hb hactive horder =>
    by_cases hl : ∃ ch, l = .task j ch
    · obtain ⟨ch, rfl⟩ := hl
      exact .own hs hb horder (halarm ch rfl)
    · have hne : ∀ ch, l ≠ .task j ch := fun ch hch => hl ⟨ch, hch⟩
      have hwaits : pc.suspended = true := Sys.step_waits (b := .run job pc) hs hne hactive
      refine .run job pc (Sys.step_tasks hs hb hne (by simp)) (fun hpc => ?_) ?_
      · rw [hwaits] at hpc
        cases hpc
      · -- at an await point nothing depends on the flags
        have hlines : u.core.linesBy j = s.core.linesBy j :=
          linesBy_step hs fun ch b hch => absurd hch (hne ch)
        refine horder.keep hlines rfl rfl fun hcut => ?_
        cases pc with
        | ended interrupted => cases hwaits
        | ping idx line rest p =>
          cases p with
          | returned cmd ls err => cases err <;> exact hcut
          | _ => exact hcut
        | _ => exact hcut
  | other b hb hkind =>
    obtain ⟨b', hb', hkind'⟩ := Sys.step_isRun hs hb
    exact .other b' hb' (hkind'.trans hkind)

theorem Ordered.of_fresh (h : Fresh s) : Ordered A fw j s := by
  refine .absent ?_ ?_
  · rw [h.tasks]
    rfl
  · unfold Core.linesBy
    rw [h.sent]
    rfl

/-- **The invariant of every run**, with whatever alarms its steps see. -/
theorem sequential_of_run {s₀ : Sys} {job : Job} {pc : RunPc} (h0 : Fresh s₀)
    (hr : Run (Sys.step fw)
      (fun a l _ => ∀ ch, l = .task j ch → a.core.state.status = .alarm → A) s₀ s)
    (hs : s.tasks[j]? = some (.run job pc)) : Sequential A fw j job pc s.core := by
  have hinv : Ordered A fw j s :=
    hr.invariant (fun _ _ _ h hs hok => h.step hs hok) (.of_fresh h0)
  cases hinv with
  | absent h => cases h.symm.trans hs
  | run job' pc' h _ horder =>
    cases h.symm.trans hs
    exact horder
  | other b h hb =>
    cases h.symm.trans hs
    cases hb

end Ordered

/-- **Job lines are sent in order, once, and completely.**  For every G-code text, in
every run of `SessionCore`, what a streaming task of the text hands to the transport is a
beginning of the list of its lines without comments, and it is the whole list when
`stream_gcode_inner` returns without an error, not cancelled, and no step of the task was
made in an alarm.  The same list governs every run of `SimpleCore` on the text; it is
handed over completely when the loop ends without a failed exchange, without an
exception, not cancelled, and no step of the task was made in an alarm. -/
theorem job_lines_in_order (text : Text) (opMap : Option (List (ℕ × ℤ))) (t : ℕ) :
    (∀ (s₀ s : Raydriver.Sys) (pc : StreamPc), Raydriver.Fresh s₀ →
      s.tasks[t]? = some (.stream ⟨lines text, opMap⟩ pc) →
      (Run Raydriver.Sys.step AnyStep s₀ s →
        s.core.jobLines t ++ pc.handing <+: toSend (lines text)) ∧
      (Run Raydriver.Sys.step (fun a l b => Raydriver.noAlarmSeen t a l b = true) s₀ s →
        pc = .outcome none → s.core.isCancelled = false →
        s.core.jobLines t = toSend (lines text))) ∧
    ∀ (s₀ s : Sys) (pc : RunPc), Fresh s₀ →
      s.tasks[t]? = some (.run ⟨lines text, opMap⟩ pc) →
      (Run (Sys.step .simple) AnyStep s₀ s →
        (s.core.linesBy t).map Sent.payload ++ pc.handing <+: toSend (lines text)) ∧
      (Run (Sys.step .simple) (fun a l b => noAlarmSeen t a l b = true) s₀ s →
        pc = .ended false → s.core.isCancelled = false → s.core.jobException = none →
        (s.core.linesBy t).map Sent.payload = toSend (lines text)) := by
  refine ⟨fun s₀ s pc h0 hs => ⟨fun hr => ?_, fun hr hpc hcan => ?_⟩,
    fun s₀ s pc h0 hs => ⟨fun hr => ?_, fun hr hpc hcan hexc => ?_⟩⟩
  · exact (Raydriver.sequential_of_run (A := True) h0
      (hr.mono fun _ _ _ _ _ _ _ => trivial) hs).begins
  · subst hpc
    have hr' := hr.mono fun a l b hok => show ∀ ch, l = .task t ch → a.core.isAlarm = true → False by
      rintro ch rfl halarm
      simp [Raydriver.noAlarmSeen, halarm] at hok
    rcases Raydriver.sequential_of_run h0 hr' hs with h | ⟨h | h, -⟩
    · simpa [StreamPc.handing, StreamPc.left] using h
    · rw [hcan] at h
      cases h
    · exact h.elim
  · rw [← commandsOf_simple]
    exact (sequential_of_run (A := True) h0 (hr.mono fun _ _ _ _ _ _ _ => trivial) hs).begins
  · subst hpc
    have hr' := hr.mono fun a l b hok =>
        show ∀ ch, l = .task t ch → a.core.state.status = .alarm → False by
      rintro ch rfl halarm
      simp [noAlarmSeen, halarm] at hok
    rw [← commandsOf_simple]
    rcases sequential_of_run h0 hr' hs with h | ⟨h | h | h | h, -⟩
    · simpa [RunPc.handing, RunPc.left] using h
    · cases h
    · rw [hexc] at h
      cases h
    · rw [hcan] at h
      cases h
    · exact h.elim

/-! ### A run of a fixed text -/

/-- A text with a comment and an empty line. -/
def commentedText : Text := "G1 X1 ; fast\n\nG1 X2".toList

/-- The general result on runs of the text from its start to its end. -/
theorem job_lines_in_order_commented :
    let job : Job := ⟨lines commentedText, none⟩
    (reach Raydriver.Sys.step (.call (.run job) :: Raydriver.turns 0 3 ++ Raydriver.turns 1 21 ++
        .rx (ascii "ok\nok\n") :: Raydriver.turns 1 2)
      { core := {}, tasks := [] }).core.jobLines 1 = ["G1 X1\n".toList, "G1 X2\n".toList] ∧
    ((reach (Sys.step .simple) (.call (.run job) :: turns 0 7 ++ .rx (ascii "ok\n") ::
        turns 0 10 ++ .rx (ascii "ok\n") :: turns 0 4)
      { core := {} }).core.linesBy 0).map Sent.payload =
        ["G1 X1\n".toList, "G1 X2\n".toList] := by
  have hlist : toSend (lines commentedText) = ["G1 X1\n".toList, "G1 X2\n".toList] := by decide
  constructor
  · rw [← hlist]
    exact (((job_lines_in_order commentedText none 1).1 _ _ _ ⟨rfl, rfl, rfl⟩ (by decide)).2
      (run_reach_guarded (by decide)) rfl (by decide))
  · rw [← hlist]
    exact (((job_lines_in_order commentedText none 0).2 _ _ _ ⟨rfl, rfl, rfl⟩ (by decide)).2
      (run_reach_guarded (by decide)) rfl (by decide) (by decide))

end Raydriver.PingPong
