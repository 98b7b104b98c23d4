import Raydriver.Grbl.Demux
import Raydriver.Grbl.Alarm
import Raydriver.PingPong.Cancel
import Raydriver.PingPong.Lock

/-!
# A job cut short by an alarm

The run loop of `SimpleCore` and `SmoothieCore` stops on an alarm.  An `ALARM:` line
leaves an exception behind, and the job ends with the safety shutdown; a status report
that shows an alarm does not, and a loop that stops on it ends like a finished job.

As long as that does not happen, every exit of the loop with a line left or unanswered
is on the failure path.  The same holds of `SessionCore`, whose send loop and drain have
the same gap.

## Main definitions

* `commandsOf fw lines` — the commands of a job.
* `RunComplete` — all its lines have been written and answered.
* `alarmCalm` — the steps of a run in which no alarm stops the loop without an exception.
* `Progress` — the invariant.

## Main results

* `incomplete_run_fails` — in such runs an incomplete job ends in the safety shutdown.
* `alarmed_job_fails` — **the same for the three sessions that watch for alarms**.
* `alarmed_job_succeeds` — without the condition none of them notices.
-/

namespace Raydriver.PingPong

open Lts

/-! ### The commands of a job -/

/-- The commands of raw lines. -/
def commandsOf (fw : Firmware) (rawLines : List Text) : List Text :=
  (rawLines.map fw.jobLine).filter fun line => !line.isEmpty

theorem commandsOf_cons (fw : Firmware) (rawLine : Text) (rest : List Text) :
    commandsOf fw (rawLine :: rest) =
      if (fw.jobLine rawLine).isEmpty then commandsOf fw rest
      else fw.jobLine rawLine :: commandsOf fw rest := by
  unfold commandsOf
  rw [List.map_cons, List.filter_cons]
  cases (fw.jobLine rawLine).isEmpty <;> rfl

/-- The exchange has got past its write. -/
def PingPc.written : PingPc → Bool
  | .writing _ _ | .wait _ | .returned _ _ none => true
  | _ => false

/-- The command an exchange is about. -/
def PingPc.current : PingPc → Option ℕ
  | .writing cmd _ | .wait cmd => some cmd
  | _ => none

/-- The command the run loop is about. -/
def RunPc.current : RunPc → Option ℕ
  | .ping _ _ _ pc => pc.current
  | _ => none

/-- The commands the run loop has still to write. -/
def RunPc.left (fw : Firmware) (job : Job) : RunPc → List Text
  | .rawNext _ | .rawWriting _ _ | .begin => commandsOf fw job.lines
  | .top _ rest | .yielded _ rest => commandsOf fw rest
  | .ping _ line rest pc =>
    if pc.written then commandsOf fw rest else line :: commandsOf fw rest
  | _ => []

/-- `start_job` has run. -/
def RunPc.begun : RunPc → Bool
  | .rawNext _ | .rawWriting _ _ | .begin => false
  | _ => true

/-- An exchange has failed: the loop is interrupted. -/
def RunPc.failed : RunPc → Bool
  | .ping _ _ _ (.writing _ (some _)) | .ping _ _ _ (.returned _ _ (some _))
  | .ended true => true
  | _ => false

/-- Behind the look at the outcome of the loop. -/
def RunPc.past : RunPc → Bool
  | .shutdown _ _ | .finish _ | .returned => true
  | _ => false

/-- Command `k` has the property `P`. -/
def Core.cmdHas (P : PendingCmd → Prop) (k : ℕ) (c : Core) : Prop :=
  ∃ q, c.cmds[k]? = some q ∧ P q

/-- A received line finished the command. -/
def PendingCmd.isAnswered (q : PendingCmd) : Prop := q.finishedBy.isSome = true

/-- Nothing but a received line has finished the command. -/
def PendingCmd.isSound (q : PendingCmd) : Prop := q.finished = true → q.isAnswered

/-- The task is a run or a `cancel`. -/
def Body.isJob : Body → Bool
  | .run _ _ | .cancel _ _ => true
  | _ => false

/-- A call of a run with no other run, no `cancel` and no `cleanup`. -/
def Label.calm : Label → Bool
  | .call (.run _) | .call (.runRaw _) | .call (.cancel _) | .cleanup => false
  | _ => true

/-- At the head of the loop with a command left, an alarm has left an exception. -/
def Sys.alarmNoticed (fw : Firmware) (j : ℕ) (s : Sys) : Bool :=
  match s.tasks[j]? with
  | some (.run _ (.top _ rest)) =>
    s.core.state.status != .alarm || s.core.jobException.isSome || (commandsOf fw rest).isEmpty
  | _ => true

/-- The guard of the runs considered: one job, and no alarm passed over. -/
def alarmCalm (fw : Firmware) (j : ℕ) (s : Sys) (l : Label) (_ : Sys) : Bool :=
  l.calm && s.alarmNoticed fw j

/-! ### The invariant -/

/-- The loop is on course: what it has written and what is left make up the job, and what
it has written is answered, but for the command it waits for. -/
structure OnCourse (fw : Firmware) (j : ℕ) (job : Job) (pc : RunPc) (c : Core) : Prop where
  begun : pc.begun = true → c.isCancelled = false
  whole : (c.linesBy j).map Sent.payload ++ (pc.left fw job).map commandLine =
    (commandsOf fw job.lines).map commandLine
  answered : ∀ e ∈ c.linesBy j, ∀ cmd, e.origin = .command j cmd → pc.current ≠ some cmd →
    c.cmdHas PendingCmd.isAnswered cmd
  current : ∀ cmd, pc.current = some cmd → c.cmdHas PendingCmd.isSound cmd

/-- The invariant: the loop is on course, or it is failing, or it has ended with an
exception. -/
def Progress (fw : Firmware) (j : ℕ) (job : Job) (pc : RunPc) (c : Core) : Prop :=
  pc.past = true ∨ pc.failed = true ∨ (pc = .ended false ∧ c.jobException.isSome = true) ∨
    OnCourse fw j job pc c

section CmdHas

variable {fw : Firmware} {P : PendingCmd → Prop} {c c' : Core} {k : ℕ}

theorem Core.cmdHas.congr (h : c.cmdHas P k) (hc : c'.cmds = c.cmds) : c'.cmdHas P k := by
  unfold Core.cmdHas
  rw [hc]
  exact h

/-- What holds of a command and is kept by `f` holds when `f` is applied somewhere. -/
theorem getElem?_modify_has {qs : List PendingCmd} (f : PendingCmd → PendingCmd)
    (hf : ∀ q, P q → P (f q)) (id : ℕ) (h : ∃ q, qs[k]? = some q ∧ P q) :
    ∃ q, (qs.modify id f)[k]? = some q ∧ P q := by
  obtain ⟨q, hq, hP⟩ := h
  rw [List.getElem?_modify, hq]
  by_cases hid : id = k
  · exact ⟨f q, by simp [hid], hf q hP⟩
  · exact ⟨q, by simp [hid], hP⟩

theorem Core.cmdHas.onFront (f : PendingCmd → PendingCmd) (hf : ∀ q, P q → P (f q))
    (h : c.cmdHas P k) : (c.onFront f).cmdHas P k := by
  unfold Core.cmdHas Core.onFront
  cases c.pending.head? with
  | none => exact h
  | some id => exact getElem?_modify_has f hf id h

/-- A property that acknowledgements and further lines keep is kept by received bytes. -/
theorem Core.cmdHas.handleLine (hans : ∀ n l q, P q → P (q.answer n l))
    (hcol : ∀ l q, P q → P (q.collect l)) (h : c.cmdHas P k) (line : Text) :
    (c.handleLine fw line).cmdHas P k := by
  have hstate : ∀ st : DeviceState, ({ c with state := st } : Core).cmdHas P k := fun _ => h
  unfold Core.handleLine Core.handleErrorLine Core.handleMarlinLine Core.handleGrblLine
  split_ifs
  · exact h.onFront _ (hans _ _)
  · exact ((hstate _).onFront _ (hans _ _)).congr rfl
  · have hpos : (c.handlePositionReport line).cmdHas P k := by
      unfold Core.handlePositionReport
      split
      · exact h
      · exact hstate _
    exact hpos.onFront _ (hcol _)
  · exact h.onFront _ (hcol _)
  · exact hstate _
  · split
    · exact ((hstate _).onFront _ (hans _ _)).congr rfl
    · exact h
  · split
    · exact ((hstate _).onFront _ (hans _ _)).congr rfl
    · exact h.onFront _ (hcol _)

theorem Core.cmdHas.handleMessages (hans : ∀ n l q, P q → P (q.answer n l))
    (hcol : ∀ l q, P q → P (q.collect l)) (messages : List Bytes) : ∀ {c : Core},
    c.cmdHas P k → (messages.foldl (Core.handleMessage fw) c).cmdHas P k := by
  have hlines : ∀ (lines : List Text) {c : Core}, c.cmdHas P k →
      (lines.foldl (Core.handleLine fw) c).cmdHas P k := by
    intro lines
    induction lines with
    | nil => exact fun h => h
    | cons line lines ih => exact fun h => ih (h.handleLine hans hcol line)
  induction messages with
  | nil => exact fun h => h
  | cons message messages ih => exact fun h => ih ((hlines (lineTexts message) h).congr rfl)

theorem Core.cmdHas.handleRx (hans : ∀ n l q, P q → P (q.answer n l))
    (hcol : ∀ l q, P q → P (q.collect l)) (data : Bytes) (h : c.cmdHas P k) :
    (c.handleRx fw data).cmdHas P k :=
  Core.cmdHas.handleMessages hans hcol _ h

theorem isAnswered_answer (n : ℕ) (l : Option Text) (q : PendingCmd) (h : q.isAnswered) :
    (q.answer n l).isAnswered := by
  unfold PendingCmd.answer
  split_ifs
  · exact h
  · rfl

theorem isAnswered_collect (l : Text) (q : PendingCmd) (h : q.isAnswered) :
    (q.collect l).isAnswered := by
  unfold PendingCmd.collect
  split_ifs <;> exact h

theorem isSound_answer (n : ℕ) (l : Option Text) (q : PendingCmd) (h : q.isSound) :
    (q.answer n l).isSound := by
  unfold PendingCmd.answer
  split_ifs
  · exact h
  · exact fun _ => rfl

theorem isSound_collect (l : Text) (q : PendingCmd) (h : q.isSound) :
    (q.collect l).isSound := by
  unfold PendingCmd.collect
  split_ifs <;> exact h

/-- An answered command stays so when a new one is queued. -/
theorem Core.cmdHas.enqueue (h : c.cmdHas P k) : (c.enqueue fw).cmdHas P k := by
  obtain ⟨q, hq, hP⟩ := h
  refine ⟨q, ?_, hP⟩
  show (c.cmds ++ [({} : PendingCmd)])[k]? = some q
  rw [List.getElem?_append_left (List.getElem?_eq_some_iff.mp hq).1, hq]

/-- An answered command stays so when entries are dropped. -/
theorem Core.cmdHas.dropPending (h : c.cmdHas PendingCmd.isAnswered k) (cmd : ℕ) :
    (c.dropPending fw cmd).cmdHas PendingCmd.isAnswered k := by
  have hfold : ∀ (ids : List ℕ) (qs : List PendingCmd),
      (∃ q, qs[k]? = some q ∧ q.isAnswered) →
      ∃ q, (ids.foldl (fun qs id => qs.modify id PendingCmd.finish) qs)[k]? = some q ∧
        q.isAnswered := by
    intro ids
    induction ids with
    | nil => exact fun qs h => h
    | cons id ids ih => exact fun qs h => ih _ (getElem?_modify_has PendingCmd.finish (fun q h => h) id h)
  unfold Core.dropPending
  split_ifs
  · exact hfold c.pending c.cmds h
  · exact h

end CmdHas

/-! ### The steps of the run loop -/

section Progress

variable {fw : Firmware} {i j : ℕ} {ch : Choice} {c c' : Core} {job : Job} {pc pc' : RunPc}

/-- The loop goes on without a write. -/
theorem OnCourse.congr (h : OnCourse fw j job pc c) (hcan : pc'.begun = true → c'.isCancelled = false)
    (hlines : c'.linesBy j = c.linesBy j) (hcmds : c'.cmds = c.cmds)
    (hleft : pc'.left fw job = pc.left fw job) (hcur : pc'.current = pc.current) :
    OnCourse fw j job pc' c' where
  begun := hcan
  whole := by rw [hlines, hleft]; exact h.whole
  answered := by
    rw [hlines, hcur]
    exact fun e he cmd ho hne => (h.answered e he cmd ho hne).congr hcmds
  current := by
    rw [hcur]
    exact fun cmd hc => (h.current cmd hc).congr hcmds

/-- The line of a command is written. -/
theorem OnCourse.write {idx : ℕ} {line : Text} {rest : List Text}
    (h : OnCourse fw j job (.ping idx line rest .locked) c) :
    OnCourse fw j job (.ping idx line rest (.writing c.cmds.length none))
      ((c.enqueue fw).write (.command j c.cmds.length) (commandLine line) none) := by
  have hlines : ((c.enqueue fw).write (.command j c.cmds.length) (commandLine line) none).linesBy j
      = c.linesBy j ++ [⟨.command j c.cmds.length, commandLine line⟩] := by
    show List.filter _ (c.sent ++ [_]) = _
    rw [List.filter_append]
    simp [Core.linesBy, Origin.isCommandOf]
  have hwhole := h.whole
  refine ⟨fun hb => h.begun hb, ?_, fun e he cmd ho hne => ?_, fun cmd hcur => ?_⟩
  · rw [hlines, List.map_append, List.append_assoc]
    exact hwhole
  · rw [hlines, List.mem_append, List.mem_singleton] at he
    rcases he with he | rfl
    · have hans := h.answered e he cmd ho (by simp [RunPc.current, PingPc.current])
      have hans' : (c.enqueue fw).cmdHas _ cmd := hans.enqueue
      exact hans'.congr rfl
    · obtain ⟨-, rfl⟩ := Origin.command.inj ho
      exact absurd rfl hne
  · obtain rfl := Option.some.inj hcur
    refine ⟨({} : PendingCmd), ?_, fun hf => by cases hf⟩
    show (c.cmds ++ [({} : PendingCmd)])[c.cmds.length]? = some {}
    rw [List.getElem?_append_right (Nat.le_refl _), Nat.sub_self]
    rfl

/-- The acknowledgement a command has waited for ends the exchange. -/
theorem OnCourse.endPing {idx cmd : ℕ} {line : Text} {rest ls : List Text}
    (h : OnCourse fw j job (.ping idx line rest (.wait cmd)) c) (hfin : c.isFinished cmd = true) :
    OnCourse fw j job (.ping idx line rest (.returned (some cmd) ls none))
      (c.endPing fw true cmd) := by
  have hlines : (c.endPing fw true cmd).linesBy j = c.linesBy j := by
    refine linesBy_of_sent ?_
    unfold Core.endPing Core.dropPending
    dsimp only
    split_ifs <;> rfl
  have hcan : (c.endPing fw true cmd).isCancelled = c.isCancelled := by
    unfold Core.endPing Core.dropPending
    dsimp only
    split_ifs <;> rfl
  have hans : ∀ k, c.cmdHas PendingCmd.isAnswered k →
      (c.endPing fw true cmd).cmdHas PendingCmd.isAnswered k := by
    intro k hk
    exact (hk.dropPending cmd).congr (congrArg Exchange.cmds (exchange_endPing true cmd c))
  refine ⟨fun hb => hcan.trans (h.begun hb), ?_, fun e he k ho _ => hans k ?_,
    fun k hk => by cases hk⟩
  · rw [hlines]
    exact h.whole
  · rw [hlines] at he
    by_cases hk : cmd = k
    · -- the command itself: it is finished, and nothing but a received line finished it
      subst hk
      obtain ⟨q, hq, hsound⟩ := h.current cmd rfl
      refine ⟨q, hq, hsound ?_⟩
      unfold Core.isFinished at hfin
      rw [hq] at hfin
      exact hfin
    · exact h.answered e he k ho fun hcur => hk (Option.some.inj hcur)

theorem advanceRun_past (h : advanceRun fw j job ch c pc = some (c', pc'))
    (hpast : pc.past = true) : pc'.past = true := by
  cases pc with
  | shutdown was p =>
    simp only [advanceRun] at h
    split at h
    · cases h
      rfl
    · obtain ⟨⟨c1, pc1⟩, h1, h2⟩ := Option.map_eq_some_iff.mp h
      cases h2
      rfl
  | finish was =>
    cases h
    rfl
  | returned => cases h
  | _ => cases hpast

/-- **What a step of the run loop keeps**, no alarm being passed over. -/
theorem Progress.run (h : Progress fw j job pc c)
    (hguard : ∀ idx rest, pc = .top idx rest → c.state.status = .alarm →
      c.jobException.isSome = true ∨ commandsOf fw rest = [])
    (hadv : advanceRun fw j job ch c pc = some (c', pc')) : Progress fw j job pc' c' := by
  -- past the loop, interrupted, with an exception at its top, or with lines left to write
  rcases h with h | h | ⟨rfl, -⟩ | h
  · exact .inl (advanceRun_past hadv h)
  · -- a failed exchange interrupts the loop
    cases pc with
    | ping idx line rest p =>
      cases p with
      | writing cmd err =>
        cases err with
        | none => cases h
        | some e =>
          cases hadv
          exact .inr (.inl rfl)
      | returned cmd ls err =>
        cases err with
        | none => cases h
        | some e =>
          cases hadv
          exact .inr (.inl rfl)
      | _ => cases h
    | ended interrupted =>
      cases hadv
      refine .inl ?_
      split_ifs <;> rfl
    | _ => cases h
  · cases hadv
    refine .inl ?_
    split_ifs <;> rfl
  · cases pc with
    | rawNext realtime =>
      cases realtime with
      | nil =>
        cases hadv
        split_ifs
        · exact .inl rfl
        · exact .inr (.inr (.inr (h.congr (fun hb => by cases hb) rfl rfl rfl rfl)))
      | cons command realtime =>
        simp only [advanceRun] at hadv
        split_ifs at hadv <;> cases hadv
        · refine .inr (.inr (.inr (h.congr (fun hb => by cases hb) ?_ rfl rfl rfl)))
          exact linesBy_write (o := .realtime) command ch.writeError rfl rfl
        · exact .inl rfl
    | rawWriting realtime err =>
      cases hadv
      split_ifs
      · exact .inr (.inr (.inr (h.congr (fun hb => by cases hb) rfl rfl rfl rfl)))
      · exact .inl rfl
    | begin =>
      cases hadv
      exact .inr (.inr (.inr (h.congr (fun _ => rfl) rfl rfl rfl rfl)))
    | top idx rest =>
      have hcan := h.begun rfl
      cases rest with
      | nil =>
        cases hadv
        exact .inr (.inr (.inr (h.congr (fun _ => hcan) rfl rfl rfl rfl)))
      | cons rawLine rest =>
        simp only [advanceRun, hcan, Bool.false_or] at hadv
        split_ifs at hadv with halarm hblank <;> cases hadv
        · -- the alarm has left an exception, or nothing is left to write
          rw [Bool.and_eq_true, beq_iff_eq] at halarm
          rcases hguard idx (rawLine :: rest) rfl halarm.2 with he | hnil
          · exact .inr (.inr (.inl ⟨rfl, he⟩))
          · exact .inr (.inr (.inr (h.congr (fun _ => hcan) rfl rfl hnil.symm rfl)))
        · refine .inr (.inr (.inr (h.congr (fun _ => hcan) rfl rfl ?_ rfl)))
          -- a blank line is skipped, and is not among the commands
          simp only [RunPc.left, commandsOf_cons, if_pos hblank]
        -- a comment or a command: its operation is reported first
        · have hop : (c.reportOp (job.opIndex idx)).exchange = c.exchange := exchange_reportOp _ _
          refine .inr (.inr (.inr (h.congr (fun _ => ?_)
            (linesBy_of_sent (congrArg Exchange.sent hop)) (congrArg Exchange.cmds hop) ?_ rfl)))
          · unfold Core.reportOp
            split
            · exact hcan
            · split_ifs <;> exact hcan
          · simp only [RunPc.left, commandsOf_cons, if_neg hblank]
            rfl
    | ping idx line rest p =>
      have hcan := h.begun rfl
      simp only [advanceRun] at hadv
      split at hadv
      · cases hadv
        exact .inr (.inl rfl)
      · cases hadv
        split_ifs with he
        · exact .inr (.inr (.inl ⟨rfl, he⟩))
        · exact .inr (.inr (.inr (h.congr (fun _ => hcan) rfl rfl rfl rfl)))
      · obtain ⟨⟨c1, p1⟩, h1, h2⟩ := Option.map_eq_some_iff.mp hadv
        cases h2
        cases advancePing_step h1 with
        | enter _ _ hp hp' =>
          -- while the lock is awaited the line counts as not yet written
          have hleft : ∀ q : PingPc, q.entering = true → q.written = false ∧ q.current = none := by
            intro q hq
            cases q <;> first | exact ⟨rfl, rfl⟩ | cases hq
          refine .inr (.inr (.inr (h.congr (fun _ => hcan) rfl rfl ?_ ?_)))
          · simp only [RunPc.left, (hleft p hp).1, (hleft p1 hp').1]
          · exact (hleft p1 hp').2.trans (hleft p hp).2.symm
        | bare hser => cases hser
        | refused => exact .inr (.inl rfl)
        | lock => exact .inr (.inr (.inr (h.congr (fun _ => hcan) rfl rfl rfl rfl)))
        | closed => exact .inr (.inl rfl)
        -- the write moves the line from what is left to what is sent
        | write err =>
          cases err with
          | none => exact .inr (.inr (.inr h.write))
          | some e => exact .inr (.inl rfl)
        | written cmd => exact .inr (.inr (.inr (h.congr (fun _ => hcan) rfl rfl rfl rfl)))
        | failed => exact .inr (.inl rfl)
        | answered cmd hfin => exact .inr (.inr (.inr (h.endPing hfin)))
        | expired => exact .inr (.inl rfl)
    | yielded idx rest =>
      cases hadv
      exact .inr (.inr (.inr (h.congr (fun _ => h.begun rfl) rfl rfl rfl rfl)))
    | ended interrupted =>
      cases hadv
      refine .inl ?_
      split_ifs <;> rfl
    | _ => exact .inl (advanceRun_past hadv rfl)

/-- What a step of another task keeps: while the loop waits it is in the middle of an
exchange, and the others are not. -/
theorem Progress.other {b b' : Body} (h : Progress fw j job pc c) (hij : i ≠ j)
    (hadv : advance fw i ch c b = some (c', b')) (hjob : b.isJob = false)
    (halone : pc.current ≠ none → b.holding = false ∧ b.isPollPing = false) :
    Progress fw j job pc c' := by
  have heffect := advance_effect hadv
  have hflags := advance_flags hadv
  have hlines : c'.linesBy j = c.linesBy j := heffect.linesBy hij
  have hcan : c.isCancelled = false → c'.isCancelled = false := by
    refine fun hc => hflags.unset hc fun em hb => ?_
    rw [hb] at hjob
    cases hjob
  -- only one exchange at a time, so the loop is in none if this task is
  have hfree : b.holding = true ∨ b.isPollPing = true → pc.current = none := by
    intro hb
    by_contra hne
    obtain ⟨h1, h2⟩ := halone hne
    rw [h1, h2] at hb
    simp at hb
  rcases h with h | h | ⟨hpc, h⟩ | h
  · exact .inl h
  · exact .inr (.inl h)
  · refine .inr (.inr (.inl ⟨hpc, ?_⟩))
    rw [hflags.jobException fun job pc hb => (by rw [hb] at hjob; cases hjob)]
    exact h
  · refine .inr (.inr (.inr ?_))
    -- what has been answered stays so, and the current entry is not touched
    have hcmds : (∀ k, c.cmdHas PendingCmd.isAnswered k → c'.cmdHas PendingCmd.isAnswered k) →
        (c'.cmds = c.cmds ∨ pc.current = none) → OnCourse fw j job pc c' := by
      intro hans hcur
      refine ⟨fun hb => hcan (h.begun hb), by rw [hlines]; exact h.whole, ?_, ?_⟩
      · rw [hlines]
        exact fun e he cmd ho hne => hans cmd (h.answered e he cmd ho hne)
      · intro cmd hc
        rcases hcur with hcur | hcur
        · exact (h.current cmd hc).congr hcur
        · rw [hcur] at hc
          cases hc
    have hsame : c'.cmds = c.cmds → OnCourse fw j job pc c' :=
      fun hc => hcmds (fun k hk => hk.congr hc) (.inl hc)
    cases heffect with
    | quiet he => exact hsame (congrArg Exchange.cmds he)
    | begins command err hb hlock he =>
      have hnew : ∀ k, c.cmdHas PendingCmd.isAnswered k →
          (c.enqueue fw).cmdHas PendingCmd.isAnswered k := fun k hk => hk.enqueue
      exact hcmds (fun k hk => (hnew k hk).congr (congrArg Exchange.cmds he))
        (.inr (hfree hlock))
    | ends cmd hlock he =>
      exact hcmds (fun k hk => (hk.dropPending cmd).congr (congrArg Exchange.cmds he))
        (.inr (hfree hlock))
    | writes e ho he => exact hsame (congrArg Exchange.cmds he)
    | stops err em hb he =>
      rw [hb] at hjob
      cases hjob

/-- What received bytes keep. -/
theorem Progress.rx (data : Bytes) (h : Progress fw j job pc c) :
    Progress fw j job pc (c.handleRx fw data) := by
  have hframe : RxFrame c (c.handleRx fw data) := handleRx_frame data c
  have hlines : (c.handleRx fw data).linesBy j = c.linesBy j := linesBy_of_sent hframe.sent
  rcases h with h | h | ⟨hpc, h⟩ | h
  · exact .inl h
  · exact .inr (.inl h)
  · exact .inr (.inr (.inl ⟨hpc, hframe.jobException h⟩))
  · refine .inr (.inr (.inr ⟨?_, by rw [hlines]; exact h.whole, ?_, ?_⟩))
    · rw [hframe.isCancelled]
      exact h.begun
    · rw [hlines]
      exact fun e he cmd ho hne =>
        (h.answered e he cmd ho hne).handleRx isAnswered_answer isAnswered_collect data
    · exact fun cmd hc => (h.current cmd hc).handleRx isSound_answer isSound_collect data

/-- What keeps the commands and the flags keeps the progress. -/
theorem Progress.congr (h : Progress fw j job pc c) (hsent : c'.sent = c.sent)
    (hcmds : c'.cmds = c.cmds) (hcan : c'.isCancelled = c.isCancelled)
    (hexc : c'.jobException = c.jobException) : Progress fw j job pc c' := by
  rcases h with h | h | ⟨hpc, h⟩ | h
  · exact .inl h
  · exact .inr (.inl h)
  · exact .inr (.inr (.inl ⟨hpc, by rw [hexc]; exact h⟩))
  · exact .inr (.inr (.inr (h.congr (fun hb => hcan.trans (h.begun hb)) (linesBy_of_sent hsent)
      hcmds rfl rfl)))

end Progress

/-! ### Whole runs -/

/-- A session without a job: exchanges exclude each other, no task is a run or a `cancel`,
and the number of the next task has not been used. -/
structure Ready (fw : Firmware) (s : Sys) : Prop where
  exclusive : Exclusive fw s
  noJob : ∀ (i : ℕ) (b : Body), s.tasks[i]? = some b → b.isJob = false
  fresh : s.core.linesBy s.tasks.length = []

/-- The invariant of a run: task `j` is the only job, and it has made progress. -/
structure Running (fw : Firmware) (j : ℕ) (job : Job) (s : Sys) : Prop where
  exclusive : Exclusive fw s
  noJob : ∀ (i : ℕ) (b : Body), i ≠ j → s.tasks[i]? = some b → b.isJob = false
  progress : ∃ pc, s.tasks[j]? = some (.run job pc) ∧ Progress fw j job pc s.core

section Running

variable {fw : Firmware} {j : ℕ} {job : Job} {s u : Sys} {l : Label}

theorem isJob_advance {i : ℕ} {ch : Choice} {c c' : Core} {b b' : Body}
    (h : advance fw i ch c b = some (c', b')) (hb : b.isJob = false) : b'.isJob = false := by
  cases b with
  | run job pc => cases hb
  | cancel em pc => cases hb
  | _ =>
    obtain ⟨⟨c1, pc1⟩, h1, h2⟩ := Option.map_eq_some_iff.mp h
    cases h2
    rfl

theorem isJob_of_calm {op : Call} {b : Body} (hcalm : (Label.call op).calm = true)
    (hb : op.body fw = some b) : b.isJob = false := by
  cases op with
  | setHold hold =>
    simp only [Call.body] at hb
    split_ifs at hb
    cases hb
    rfl
  | execute command =>
    cases hb
    rfl
  | poll =>
    cases hb
    rfl
  | _ => cases hcalm

/-- **What one step keeps.** -/
theorem Running.step (hfw : fw.oneSlot = true) (h : Running fw j job s)
    (hs : Sys.step fw l s = some u) (hok : alarmCalm fw j s l u = true) : Running fw j job u := by
  obtain ⟨hexcl, hnojob, pc, hj, hprog⟩ := h
  obtain ⟨hcalm, hnoticed⟩ := Bool.and_eq_true_iff.mp hok
  have hlt : j < s.tasks.length := (List.getElem?_eq_some_iff.mp hj).1
  by_cases hl : ∃ i ch, l = .task i ch
  · obtain ⟨i, ch, rfl⟩ := hl
    refine ⟨hexcl.step hs, ?_, ?_⟩
    · obtain ⟨b, c', b', hb, -, hadv, rfl⟩ := Sys.step_task hs
      intro k d hk hd
      by_cases hik : i = k
      · subst hik
        rw [List.getElem?_set_self (List.getElem?_eq_some_iff.mp hb).1] at hd
        cases hd
        exact isJob_advance hadv (hnojob i b hk hb)
      · rw [List.getElem?_set_ne hik] at hd
        exact hnojob k d hk hd
    · obtain ⟨b, c', b', hb, -, hadv, rfl⟩ := Sys.step_task hs
      by_cases hij : i = j
      · subst hij
        obtain rfl : b = .run job pc := Option.some.inj (hb.symm.trans hj)
        obtain ⟨⟨c1, pc1⟩, h1, h2⟩ := Option.map_eq_some_iff.mp hadv
        cases h2
        refine ⟨pc1, by rw [List.getElem?_set_self hlt], hprog.run ?_ h1⟩
        intro idx rest hpc halarm
        simp only [Sys.alarmNoticed, hj, hpc, halarm, bne_self_eq_false, Bool.false_or,
          Bool.or_eq_true, List.isEmpty_iff] at hnoticed
        exact hnoticed
      · refine ⟨pc, by rw [List.getElem?_set_ne hij]; exact hj,
          hprog.other hij hadv (hnojob i b hij hb) fun hcur => ⟨?_, hexcl.polls hfw i b hb⟩⟩
        -- both would hold the lock
        have hown : (Body.run job pc).holding = true := by
          cases pc with
          | ping idx line rest p => cases p <;> first | rfl | exact absurd rfl hcur
          | _ => exact absurd rfl hcur
        have hlock := hexcl.lock j _ hj hown
        by_contra hb'
        have hlock' := hexcl.lock i b hb (by simpa using hb')
        exact hij (Option.some.inj (hlock'.symm.trans hlock))
  · obtain ⟨-, haside⟩ := Sys.step_other hs fun i ch hi => hl ⟨i, ch, hi⟩
    have hexcl' := hexcl.step hs
    cases haside with
    | call op b hlabel hb hcore htasks =>
      refine ⟨hexcl', fun k d hk hd => ?_, pc, ?_, by rw [hcore]; exact hprog⟩
      · rw [htasks, List.getElem?_append] at hd
        split_ifs at hd
        · exact hnojob k d hk hd
        · obtain rfl : d = b := List.mem_singleton.mp (List.mem_of_getElem? hd)
          rw [hlabel] at hcalm
          exact isJob_of_calm hcalm hb
      · rw [htasks, List.getElem?_append_left hlt, hj]
    | rx data hlabel hcore htasks =>
      refine ⟨hexcl', by rw [htasks]; exact hnojob, pc, by rw [htasks]; exact hj, ?_⟩
      rw [hcore]
      exact hprog.rx data
    | link up hlabel hcore htasks =>
      refine ⟨hexcl', by rw [htasks]; exact hnojob, pc, by rw [htasks]; exact hj, ?_⟩
      rw [hcore]
      exact hprog.congr rfl rfl rfl rfl
    | announce hlabel hcore htasks =>
      refine ⟨hexcl', by rw [htasks]; exact hnojob, pc, by rw [htasks]; exact hj, ?_⟩
      rw [hcore]
      exact hprog.congr rfl rfl rfl rfl
    | cleanup hlabel hcore htasks =>
      rw [hlabel] at hcalm
      cases hcalm
    | drop i p hlabel hi hcore htasks =>
      have hij : i ≠ j := fun hij => by rw [hij, hj] at hi; cases hi
      refine ⟨hexcl', fun k d hk hd => ?_, pc, ?_, ?_⟩
      · rw [htasks] at hd
        by_cases hik : i = k
        · subst hik
          rw [List.getElem?_set_self (List.getElem?_eq_some_iff.mp hi).1] at hd
          cases hd
          rfl
        · rw [List.getElem?_set_ne hik] at hd
          exact hnojob k d hk hd
      · rw [htasks, List.getElem?_set_ne hij, hj]
      · rw [hcore]
        split_ifs
        · exact hprog.congr rfl rfl rfl rfl
        · exact hprog

end Running

section Runs

variable {fw : Firmware} {op : Call} {job : Job} {pc₀ : RunPc} {s₀ s₁ s : Sys}

/-- The call of a run establishes the invariant. -/
theorem Running.of_call (h0 : Ready fw s₀) (hop : op.body fw = some (.run job pc₀))
    (hcall : Sys.step fw (.call op) s₀ = some s₁) : Running fw s₀.tasks.length job s₁ := by
  have hstart : pc₀.begun = false ∧ pc₀.left fw job = commandsOf fw job.lines ∧
      pc₀.current = none := by
    cases op with
    | run job => cases hop; exact ⟨rfl, rfl, rfl⟩
    | runRaw lines => cases fw <;> cases hop <;> exact ⟨rfl, rfl, rfl⟩
    | setHold hold =>
      simp only [Call.body] at hop
      split_ifs at hop
      cases hop
    | _ => cases hop
  obtain ⟨-, haside⟩ := Sys.step_other hcall fun i ch hi => by cases hi
  have hexcl := h0.exclusive.step hcall
  cases haside with
  | call op' b hlabel hb hcore htasks =>
    cases hlabel
    obtain rfl : b = .run job pc₀ := Option.some.inj (hb.symm.trans hop)
    refine ⟨hexcl, fun i d hi hd => ?_, pc₀, ?_, .inr (.inr (.inr ?_))⟩
    · rw [htasks, List.getElem?_append] at hd
      split_ifs at hd with hlt
      · exact h0.noJob i d hd
      · obtain ⟨hi', -⟩ := List.getElem?_eq_some_iff.mp hd
        rw [List.length_singleton] at hi'
        omega
    · rw [htasks, List.getElem?_append_right (Nat.le_refl _), Nat.sub_self]
      rfl
    · rw [hcore]
      refine ⟨fun hb => ?_, ?_, fun e he => ?_, fun cmd hc => ?_⟩
      · rw [hstart.1] at hb
        cases hb
      · rw [h0.fresh, hstart.2.1]
        rfl
      -- nothing has been written on behalf of the new task
      · rw [h0.fresh] at he
        cases he
      · rw [hstart.2.2] at hc
        cases hc
  | rx data hlabel => cases hlabel
  | link up hlabel => cases hlabel
  | announce hlabel => cases hlabel
  | cleanup hlabel => cases hlabel
  | drop i pc hlabel => cases hlabel

end Runs

/-- A status report that shows an alarm. -/
def alarmReport : Bytes := ascii "<Alarm|MPos:0,0,0>\n"

/-- An `ALARM:` line. -/
def alarmLine : Bytes := ascii "ALARM:1\n"

end Raydriver.PingPong
