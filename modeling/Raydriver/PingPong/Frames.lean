import Raydriver.Lib.Run
import Raydriver.PingPong.Tasks

/-!
# What a step of a ping-pong session may touch

The step of a task is classified once: it leaves the exchange of commands alone, or it
begins or ends one, or it writes something nobody tracks, or it is the start of a
`cancel`.  The flags have a frame of their own.

## Main definitions

* `Exchange` — the part of the state that an exchange is about.
* `PingStep` — what one step of `ping_pong` does.
* `Effect` — what one step of a task does to the exchange.
* `Flags` — what it does to the flags of a job.

## Main results

* `advance_effect` — **the classification of the steps of tasks**.
* `advance_flags` — the frame of the flags.
* `handleRx_frame` — the frame of received bytes.
-/

namespace Raydriver.PingPong

open Lts

/-- The part of the state an exchange is about. -/
structure Exchange where
  cmds : List PendingCmd
  pending : List ℕ
  lineBuffer : Bytes
  received : ℕ
  sent : List Sent

/-- What the exchange of commands is about. -/
def Core.exchange (c : Core) : Exchange := ⟨c.cmds, c.pending, c.lineBuffer, c.received, c.sent⟩

/-! ### One exchange -/

/-- Before the lock is taken. -/
def PingPc.entering : PingPc → Bool
  | .enter | .connectWait | .begin | .lockWait => true
  | _ => false

/-- In the middle of the exchange, under the lock. -/
def PingPc.holding : PingPc → Bool
  | .locked | .writing _ _ | .wait _ => true
  | _ => false

/-- **What one step of `ping_pong` does.** -/
inductive PingStep (fw : Firmware) (i : ℕ) (serialize : Bool) (command : Text) (c : Core) :
    PingPc → Core → PingPc → Prop
  | enter (pc pc' : PingPc) (h : pc.entering = true) (h' : pc'.entering = true) :
      PingStep fw i serialize command c pc c pc'
  | bare (h : serialize = false) : PingStep fw i serialize command c .begin c .locked
  | refused (pc : PingPc) (e : SessionError) (h : pc.entering = true) :
      PingStep fw i serialize command c pc c (.returned none [] (some e))
  | lock (h : c.cmdLock = none) :
      PingStep fw i serialize command c .lockWait (c.lock i) .locked
  | closed (e : SessionError) :
      PingStep fw i serialize command c .locked (if serialize then c.unlock else c)
        (.returned none [] (some e))
  | write (err : Option String) :
      PingStep fw i serialize command c .locked
        ((c.enqueue fw).write (.command i c.cmds.length) (commandLine command) err)
        (.writing c.cmds.length err)
  | written (cmd : ℕ) :
      PingStep fw i serialize command c (.writing cmd none) c (.wait cmd)
  | failed (cmd : ℕ) (err : String) (e : SessionError) :
      PingStep fw i serialize command c (.writing cmd (some err)) (c.endPing fw serialize cmd)
        (.returned (some cmd) [] (some e))
  | answered (cmd : ℕ) (h : c.isFinished cmd = true) :
      PingStep fw i serialize command c (.wait cmd) (c.endPing fw serialize cmd)
        (.returned (some cmd) (c.linesOf cmd) none)
  | expired (cmd : ℕ) (h : c.isFinished cmd = false) :
      PingStep fw i serialize command c (.wait cmd) (c.endPing fw serialize cmd)
        (.returned (some cmd) [] (some .timeout))

section Ping

variable {fw : Firmware} {i : ℕ} {serialize : Bool} {command : Text} {ch : Choice}
  {c c' : Core} {pc pc' : PingPc}

theorem advancePing_step (h : advancePing fw i serialize command ch c pc = some (c', pc')) :
    PingStep fw i serialize command c pc c' pc' := by
  cases pc with
  | enter =>
    cases h
    refine .enter _ _ rfl ?_
    split_ifs <;> rfl
  | connectWait =>
    simp only [advancePing] at h
    split_ifs at h <;> cases h
    · exact .enter _ _ rfl rfl
    · exact .refused _ _ rfl
  | begin =>
    simp only [advancePing] at h
    split_ifs at h with hopen hser <;> cases h
    · exact .refused _ _ rfl
    · exact .enter _ _ rfl rfl
    · exact .bare (by simpa using hser)
  | lockWait =>
    simp only [advancePing] at h
    split_ifs at h with hlock
    cases h
    exact .lock (Option.isNone_iff_eq_none.mp hlock)
  | locked =>
    simp only [advancePing] at h
    by_cases hopen : c.isOpen = true
    · rw [if_pos hopen] at h
      cases h
      exact .write _
    · rw [if_neg hopen] at h
      cases h
      exact .closed _
  | writing cmd err =>
    cases err <;> cases h
    · exact .written cmd
    · exact .failed cmd _ _
  | wait cmd =>
    simp only [advancePing] at h
    split_ifs at h with hfin <;> cases h
    · exact .answered cmd hfin
    · exact .expired cmd (by simpa using hfin)
  | returned cmd ls err => cases h

theorem exchange_endPing (serialize : Bool) (cmd : ℕ) (c : Core) :
    (c.endPing fw serialize cmd).exchange = (c.dropPending fw cmd).exchange := by
  unfold Core.endPing
  dsimp only
  split_ifs <;> rfl

end Ping

/-! ### The steps of tasks -/

/-- The exchange a task is in: does it take the lock, and where is it? -/
def Body.ping : Body → Option (Bool × PingPc)
  | .run _ (.ping _ _ _ pc) => some (true, pc)
  | .execute _ (.ping pc) => some (true, pc)
  | .poll (.ping pc) => some (false, pc)
  | _ => none

/-- The task is about to write a command. -/
def Body.atWrite (b : Body) : Bool := b.ping.any fun x => x.2 == .locked

/-- The task polls the position: its exchange takes no lock. -/
def Body.isPollPing (b : Body) : Bool := b.ping.any fun x => !x.1

/-- The task holds the lock. -/
def Body.holding : Body → Bool
  | .poll .locked | .poll (.writing _) => true
  | b => b.ping.any fun x => x.1 && x.2.holding

/-- What one step of task `i` does to the exchange of commands. -/
inductive Effect (fw : Firmware) (i : ℕ) (b : Body) (c c' : Core) : Prop
  | quiet (h : c'.exchange = c.exchange)
  | begins (command : Text) (err : Option String) (hb : b.atWrite = true)
      (hlock : b.holding = true ∨ b.isPollPing = true)
      (h : c'.exchange = ((c.enqueue fw).write (.command i c.cmds.length)
        (commandLine command) err).exchange)
  | ends (cmd : ℕ) (hlock : b.holding = true ∨ b.isPollPing = true)
      (h : c'.exchange = (c.dropPending fw cmd).exchange)
  | writes (e : Sent) (he : ∀ t cmd, e.origin ≠ .command t cmd)
      (h : c'.exchange = { c with sent := c.sent ++ [e] }.exchange)
  | stops (err : Option String) (em : Bool) (hb : b = .cancel em .start)
      (h : c'.exchange = (c.beginCancel.write (.stop i) fw.stopPayload err).exchange ∨
        c'.exchange = c.beginCancel.exchange)

section Tasks

variable {fw : Firmware} {i : ℕ} {ch : Choice} {c c' : Core} {b b' : Body} {job : Job}
  {command : Text}

/-- A write of bytes nobody tracks, or no write. -/
theorem Effect.of_write {o : Origin} (t : Text) (err : Option String)
    (ho : ∀ t cmd, o ≠ .command t cmd) (h : c'.exchange = (c.write o t err).exchange) :
    Effect fw i b c c' := by
  cases err with
  | none => exact .writes ⟨o, t⟩ ho h
  | some e => exact .quiet (h.trans (by simp [Core.exchange, Core.write]))

theorem Effect.of_ping {serialize : Bool} {pc pc' : PingPc} (hb : b.ping = some (serialize, pc))
    (hh : b.holding = (serialize && pc.holding))
    (h : PingStep fw i serialize command c pc c' pc') : Effect fw i b c c' := by
  have hlock : pc.holding = true → b.holding = true ∨ b.isPollPing = true := by
    intro hp
    cases serialize with
    | true => exact .inl (by rw [hh, hp]; rfl)
    | false => exact .inr (by unfold Body.isPollPing; rw [hb]; rfl)
  cases h with
  | enter => exact .quiet rfl
  | bare => exact .quiet rfl
  | refused => exact .quiet rfl
  | lock h => exact .quiet rfl
  | closed e => exact .quiet (by split_ifs <;> rfl)
  | write err => exact .begins command err (by unfold Body.atWrite; rw [hb]; rfl) (hlock rfl) rfl
  | written cmd => exact .quiet rfl
  | failed cmd err e => exact .ends cmd (hlock rfl) (exchange_endPing _ _ _)
  | answered cmd h => exact .ends cmd (hlock rfl) (exchange_endPing _ _ _)
  | expired cmd h => exact .ends cmd (hlock rfl) (exchange_endPing _ _ _)

theorem advanceShutdown_effect {pc pc' : ShutdownPc}
    (h : advanceShutdown fw i ch c pc = some (c', pc')) : Effect fw i b c c' := by
  cases pc with
  | next commands =>
    cases commands with
    | nil =>
      cases h
      exact .quiet rfl
    | cons command commands =>
      simp only [advanceShutdown] at h
      split_ifs at h <;> cases h
      · exact .of_write _ _ (fun t cmd h => by cases h) rfl
      · exact .quiet rfl
  | _ =>
    simp only [advanceShutdown] at h
    try split_ifs at h
    all_goals cases h
    all_goals exact .quiet rfl

theorem exchange_reportOp (op : Option ℤ) (c : Core) : (c.reportOp op).exchange = c.exchange := by
  unfold Core.reportOp
  split
  · rfl
  · split_ifs <;> rfl

theorem advanceRun_effect {pc pc' : RunPc} (h : advanceRun fw i job ch c pc = some (c', pc')) :
    Effect fw i (.run job pc) c c' := by
  cases pc with
  | rawNext realtime =>
    cases realtime with
    | nil =>
      cases h
      exact .quiet rfl
    | cons command realtime =>
      simp only [advanceRun] at h
      split_ifs at h <;> cases h
      · exact .of_write _ _ (fun t cmd h => by cases h) rfl
      · exact .quiet rfl
  | top idx rest =>
    cases rest with
    | nil =>
      cases h
      exact .quiet rfl
    | cons rawLine rest =>
      simp only [advanceRun] at h
      split_ifs at h <;> cases h
      · exact .quiet rfl
      · exact .quiet rfl
      · exact .quiet (exchange_reportOp _ _)
  | ping idx line rest pc =>
    simp only [advanceRun] at h
    split at h
    · cases h
      exact .quiet rfl
    · cases h
      exact .quiet rfl
    · obtain ⟨⟨c1, pc1⟩, h1, h2⟩ := Option.map_eq_some_iff.mp h
      cases h2
      exact .of_ping rfl (by simp [Body.holding, Body.ping]) (advancePing_step h1)
  | shutdown was pc =>
    simp only [advanceRun] at h
    split at h
    · cases h
      exact .quiet rfl
    · obtain ⟨⟨c1, pc1⟩, h1, h2⟩ := Option.map_eq_some_iff.mp h
      cases h2
      exact advanceShutdown_effect h1
  | returned => cases h
  | _ =>
    cases h
    exact .quiet rfl

theorem advanceExecute_effect {pc pc' : ExecutePc}
    (h : advanceExecute fw i command ch c pc = some (c', pc')) :
    Effect fw i (.execute command pc) c c' := by
  cases pc with
  | start =>
    cases h
    exact .quiet rfl
  | ping pc =>
    obtain ⟨⟨c1, pc1⟩, h1, h2⟩ := Option.map_eq_some_iff.mp h
    cases h2
    exact .of_ping rfl (by simp [Body.holding, Body.ping]) (advancePing_step h1)

theorem advanceCancel_effect {em : Bool} {pc pc' : CancelPc}
    (h : advanceCancel fw i em ch c pc = some (c', pc')) :
    Effect fw i (.cancel em pc) c c' := by
  cases pc with
  | start =>
    simp only [advanceCancel] at h
    split_ifs at h <;> cases h
    · exact .stops ch.writeError em rfl (.inl rfl)
    · exact .stops ch.writeError em rfl (.inr rfl)
  | stopping was err => cases err <;> cases h <;> exact .quiet rfl
  | shutdown was pc =>
    simp only [advanceCancel] at h
    split at h
    · cases h
      exact .quiet rfl
    · obtain ⟨⟨c1, pc1⟩, h1, h2⟩ := Option.map_eq_some_iff.mp h
      cases h2
      exact advanceShutdown_effect h1
  | returned err => cases h

theorem advanceHold_effect {hold : Bool} {pc pc' : HoldPc}
    (h : advanceHold fw hold ch c pc = some (c', pc')) :
    Effect fw i (.hold hold pc) c c' := by
  cases pc with
  | start =>
    simp only [advanceHold] at h
    split_ifs at h <;> cases h
    all_goals first
      | exact .of_write _ _ (fun t cmd h => by cases h) rfl
      | exact .quiet rfl
  | writing err =>
    cases h
    exact .quiet rfl
  | returned => cases h

theorem advancePoll_effect {pc pc' : PollPc} (h : advancePoll fw i ch c pc = some (c', pc')) :
    Effect fw i (.poll pc) c c' := by
  cases pc with
  | locked =>
    simp only [advancePoll] at h
    split_ifs at h <;> cases h
    · exact .of_write _ _ (fun t cmd h => by cases h) rfl
    · exact .quiet rfl
  | ping pc =>
    simp only [advancePoll] at h
    split at h
    · cases h
      exact .quiet rfl
    · obtain ⟨⟨c1, pc1⟩, h1, h2⟩ := Option.map_eq_some_iff.mp h
      cases h2
      exact .of_ping rfl rfl (advancePing_step h1)
  | _ =>
    simp only [advancePoll] at h
    try split_ifs at h
    all_goals cases h
    all_goals exact .quiet rfl

/-- **The classification of the steps of tasks.** -/
theorem advance_effect (h : advance fw i ch c b = some (c', b')) : Effect fw i b c c' := by
  cases b with
  | run job pc =>
    obtain ⟨⟨c1, pc1⟩, h1, h2⟩ := Option.map_eq_some_iff.mp h
    cases h2
    exact advanceRun_effect h1
  | execute command pc =>
    obtain ⟨⟨c1, pc1⟩, h1, h2⟩ := Option.map_eq_some_iff.mp h
    cases h2
    exact advanceExecute_effect h1
  | cancel em pc =>
    obtain ⟨⟨c1, pc1⟩, h1, h2⟩ := Option.map_eq_some_iff.mp h
    cases h2
    exact advanceCancel_effect h1
  | hold hold pc =>
    obtain ⟨⟨c1, pc1⟩, h1, h2⟩ := Option.map_eq_some_iff.mp h
    cases h2
    exact advanceHold_effect h1
  | poll pc =>
    obtain ⟨⟨c1, pc1⟩, h1, h2⟩ := Option.map_eq_some_iff.mp h
    cases h2
    exact advancePoll_effect h1

/-- A task of the run loop. -/
def Body.isRun : Body → Bool
  | .run _ _ => true
  | _ => false

/-- A step never changes which function a task runs. -/
theorem advance_isRun (h : advance fw i ch c b = some (c', b')) : b'.isRun = b.isRun := by
  cases b with
  | _ =>
    obtain ⟨⟨c1, pc1⟩, -, h2⟩ := Option.map_eq_some_iff.mp h
    cases h2
    rfl

/-! ### The flags -/

/-- The task is about to clear the cancellation flag, the shared state being `c`. -/
def Body.clears (fw : Firmware) (c : Core) : Body → Bool
  | .run _ .begin => true
  | .execute _ .start => !c.jobRunning
  | .hold _ .start => fw == .simple && !c.jobRunning
  | _ => false

/-- What a step does to the flags: the cancellation flag goes only where the task clears
it and comes only with a `cancel`, and a job exception goes only with a job. -/
structure Flags (fw : Firmware) (b : Body) (c c' : Core) : Prop where
  kept : c.isCancelled = true → b.clears fw c = false → c'.isCancelled = true
  unset : c.isCancelled = false → (∀ em, b ≠ .cancel em .start) → c'.isCancelled = false
  jobException : (∀ job pc, b ≠ .run job pc) → c'.jobException = c.jobException

theorem Flags.of_eq (hc : c'.isCancelled = c.isCancelled) (he : c'.jobException = c.jobException) :
    Flags fw b c c' where
  kept := fun h _ => hc.trans h
  unset := fun h _ => hc.trans h
  jobException := fun _ => he

/-- The state without what an exchange works on. -/
def Core.rest (c : Core) : Core := { c with cmds := [], pending := [], cmdLock := none, sent := [] }

/-- **An exchange leaves the rest of the state alone.** -/
theorem PingStep.rest {serialize : Bool} {pc pc' : PingPc}
    (h : PingStep fw i serialize command c pc c' pc') : c'.rest = c.rest := by
  have hend : ∀ cmd, (c.endPing fw serialize cmd).rest = c.rest := by
    intro cmd
    unfold Core.endPing Core.dropPending
    dsimp only
    split_ifs <;> rfl
  cases h with
  | closed e => split_ifs <;> rfl
  | failed cmd err e => exact hend cmd
  | answered cmd h => exact hend cmd
  | expired cmd h => exact hend cmd
  | _ => rfl

theorem PingStep.flags {serialize : Bool} {pc pc' : PingPc}
    (h : PingStep fw i serialize command c pc c' pc') :
    c'.isCancelled = c.isCancelled ∧ c'.jobException = c.jobException :=
  ⟨(congrArg Core.isCancelled h.rest :), (congrArg Core.jobException h.rest :)⟩

/-- A safety shutdown only writes. -/
theorem advanceShutdown_rest {pc pc' : ShutdownPc}
    (h : advanceShutdown fw i ch c pc = some (c', pc')) :
    c'.rest = c.rest ∧ c'.cmdLock = c.cmdLock := by
  cases pc with
  | next commands =>
    cases commands with
    | nil =>
      cases h
      exact ⟨rfl, rfl⟩
    | cons command commands =>
      simp only [advanceShutdown] at h
      split_ifs at h <;> cases h <;> exact ⟨rfl, rfl⟩
  | _ =>
    simp only [advanceShutdown] at h
    try split_ifs at h
    all_goals cases h
    all_goals exact ⟨rfl, rfl⟩

theorem advanceShutdown_flags {pc pc' : ShutdownPc}
    (h : advanceShutdown fw i ch c pc = some (c', pc')) :
    c'.isCancelled = c.isCancelled ∧ c'.jobException = c.jobException ∧
      c'.cmdLock = c.cmdLock :=
  ⟨(congrArg Core.isCancelled (advanceShutdown_rest h).1 :),
    (congrArg Core.jobException (advanceShutdown_rest h).1 :), (advanceShutdown_rest h).2⟩

/-- A run keeps the cancellation flag from its start on. -/
theorem advanceRun_isCancelled {pc pc' : RunPc}
    (h : advanceRun fw i job ch c pc = some (c', pc')) (hpc : pc ≠ .begin) :
    c'.isCancelled = c.isCancelled := by
  cases pc with
  | begin => exact absurd rfl hpc
  | returned => cases h
  | rawNext realtime =>
    cases realtime <;> simp only [advanceRun] at h <;> (try split_ifs at h) <;> cases h <;> rfl
  | top idx rest =>
    cases rest with
    | nil =>
      cases h
      rfl
    | cons rawLine rest =>
      simp only [advanceRun] at h
      split_ifs at h <;> cases h
      · rfl
      · rfl
      · unfold Core.reportOp
        split
        · rfl
        · split_ifs <;> rfl
  | ping idx line rest pc =>
    simp only [advanceRun] at h
    split at h
    · cases h
      rfl
    · cases h
      rfl
    · obtain ⟨⟨c1, pc1⟩, h1, h2⟩ := Option.map_eq_some_iff.mp h
      cases h2
      exact (advancePing_step h1).flags.1
  | shutdown was pc =>
    simp only [advanceRun] at h
    split at h
    · cases h
      rfl
    · obtain ⟨⟨c1, pc1⟩, h1, h2⟩ := Option.map_eq_some_iff.mp h
      cases h2
      exact (advanceShutdown_flags h1).1
  | _ =>
    cases h
    rfl

theorem advanceExecute_flags {pc pc' : ExecutePc}
    (h : advanceExecute fw i command ch c pc = some (c', pc')) :
    Flags fw (.execute command pc) c c' := by
  cases pc with
  | start =>
    cases h
    refine ⟨fun hc hb => ?_, fun hc _ => ?_, fun _ => rfl⟩
    · have hrun : c.jobRunning = true := by simpa [Body.clears] using hb
      simp only [Core.clearCancelled, hrun, if_true, hc]
    · simp only [Core.clearCancelled, hc, ite_self]
  | ping pc =>
    obtain ⟨⟨c1, pc1⟩, h1, h2⟩ := Option.map_eq_some_iff.mp h
    cases h2
    have hflags := (advancePing_step h1).flags
    exact .of_eq hflags.1 hflags.2

theorem advanceCancel_flags {em : Bool} {pc pc' : CancelPc}
    (h : advanceCancel fw i em ch c pc = some (c', pc')) :
    Flags fw (.cancel em pc) c c' := by
  cases pc with
  | start =>
    simp only [advanceCancel] at h
    split_ifs at h <;> cases h <;>
      exact ⟨fun _ _ => rfl, fun _ hb => absurd rfl (hb em), fun _ => rfl⟩
  | stopping was err => cases err <;> cases h <;> exact .of_eq rfl rfl
  | shutdown was pc =>
    simp only [advanceCancel] at h
    split at h
    · cases h
      exact .of_eq rfl rfl
    · obtain ⟨⟨c1, pc1⟩, h1, h2⟩ := Option.map_eq_some_iff.mp h
      cases h2
      have hflags := advanceShutdown_flags h1
      exact .of_eq hflags.1 hflags.2.1
  | returned err => cases h

theorem advanceHold_flags {hold : Bool} {pc pc' : HoldPc}
    (h : advanceHold fw hold ch c pc = some (c', pc')) :
    Flags fw (.hold hold pc) c c' := by
  cases pc with
  | start =>
    have hflag : ∀ d : Core, d.isCancelled = c.isCancelled → d.jobRunning = c.jobRunning →
        d.jobException = c.jobException →
        Flags fw (.hold hold .start) c (if fw == .simple then d.clearCancelled else d) := by
      intro d hd hrun he
      split_ifs with hfw
      · refine ⟨fun hc hb => ?_, fun hc _ => ?_, fun _ => he⟩
        · have hrunning : c.jobRunning = true := by simpa [Body.clears, hfw] using hb
          simp only [Core.clearCancelled, hrun, hrunning, if_true, hd, hc]
        · simp only [Core.clearCancelled, hd, hc, ite_self]
      · exact .of_eq hd he
    have hc := hflag { c with isHolding := hold } rfl rfl rfl
    unfold advanceHold at h
    dsimp only at h
    generalize (if fw == .simple then Core.clearCancelled { c with isHolding := hold }
      else { c with isHolding := hold }) = d at h hc
    split at h <;> cases h
    · exact ⟨hc.kept, hc.unset, hc.jobException⟩
    · exact hc
  | writing err =>
    cases h
    exact .of_eq rfl rfl
  | returned => cases h

theorem advancePoll_flags {pc pc' : PollPc} (h : advancePoll fw i ch c pc = some (c', pc')) :
    Flags fw (.poll pc) c c' := by
  cases pc with
  | ping pc =>
    simp only [advancePoll] at h
    split at h
    · cases h
      exact .of_eq rfl rfl
    · obtain ⟨⟨c1, pc1⟩, h1, h2⟩ := Option.map_eq_some_iff.mp h
      cases h2
      have hflags := (advancePing_step h1).flags
      exact .of_eq hflags.1 hflags.2
  | _ =>
    simp only [advancePoll] at h
    try split_ifs at h
    all_goals cases h
    all_goals exact .of_eq rfl rfl

/-- **The frame of the flags.** -/
theorem advance_flags (h : advance fw i ch c b = some (c', b')) : Flags fw b c c' := by
  cases b with
  | run job pc =>
    obtain ⟨⟨c1, pc1⟩, h1, h2⟩ := Option.map_eq_some_iff.mp h
    cases h2
    by_cases hpc : pc = .begin
    · subst hpc
      cases h1
      exact ⟨fun _ hb => (by cases hb), fun _ _ => rfl, fun hb => absurd rfl (hb job _)⟩
    · have hflag := advanceRun_isCancelled h1 hpc
      exact ⟨fun hc _ => hflag.trans hc, fun hc _ => hflag.trans hc,
        fun hb => absurd rfl (hb job _)⟩
  | execute command pc =>
    obtain ⟨⟨c1, pc1⟩, h1, h2⟩ := Option.map_eq_some_iff.mp h
    cases h2
    exact advanceExecute_flags h1
  | cancel em pc =>
    obtain ⟨⟨c1, pc1⟩, h1, h2⟩ := Option.map_eq_some_iff.mp h
    cases h2
    exact advanceCancel_flags h1
  | hold hold pc =>
    obtain ⟨⟨c1, pc1⟩, h1, h2⟩ := Option.map_eq_some_iff.mp h
    cases h2
    exact advanceHold_flags h1
  | poll pc =>
    obtain ⟨⟨c1, pc1⟩, h1, h2⟩ := Option.map_eq_some_iff.mp h
    cases h2
    exact advancePoll_flags h1

end Tasks

/-! ### Received bytes -/

/-- What the handling of received bytes leaves alone. -/
structure RxFrame (c c' : Core) : Prop where
  isOpen : c'.isOpen = c.isOpen
  isCancelled : c'.isCancelled = c.isCancelled
  jobRunning : c'.jobRunning = c.jobRunning
  pending : c'.pending = c.pending
  cmdLock : c'.cmdLock = c.cmdLock
  sent : c'.sent = c.sent
  length : c'.cmds.length = c.cmds.length
  jobException : c.jobException.isSome = true → c'.jobException.isSome = true

namespace RxFrame

variable {c c' c'' : Core}

theorem refl (c : Core) : RxFrame c c := ⟨rfl, rfl, rfl, rfl, rfl, rfl, rfl, id⟩

theorem trans (h : RxFrame c c') (h' : RxFrame c' c'') : RxFrame c c'' where
  isOpen := h'.isOpen.trans h.isOpen
  isCancelled := h'.isCancelled.trans h.isCancelled
  jobRunning := h'.jobRunning.trans h.jobRunning
  pending := h'.pending.trans h.pending
  cmdLock := h'.cmdLock.trans h.cmdLock
  sent := h'.sent.trans h.sent
  length := h'.length.trans h.length
  jobException := fun he => h'.jobException (h.jobException he)

theorem onFront (f : PendingCmd → PendingCmd) (c : Core) : RxFrame c (c.onFront f) := by
  refine ⟨rfl, rfl, rfl, rfl, rfl, rfl, ?_, id⟩
  unfold Core.onFront
  cases c.pending.head? with
  | none => rfl
  | some id => exact List.length_modify _ _ _

theorem haltJob (message : Text) (c : Core) : RxFrame c (c.haltJob message) := by
  refine ⟨rfl, rfl, rfl, rfl, rfl, rfl, rfl, fun he => ?_⟩
  unfold Core.haltJob
  dsimp only
  split_ifs
  · rfl
  · exact he

end RxFrame

section Rx

variable {fw : Firmware} {c : Core}

theorem handleLine_frame (line : Text) (c : Core) : RxFrame c (c.handleLine fw line) := by
  have hstate : ∀ (d : Core) (st : DeviceState), RxFrame d { d with state := st } :=
    fun d st => ⟨rfl, rfl, rfl, rfl, rfl, rfl, rfl, id⟩
  unfold Core.handleLine Core.handleErrorLine Core.handleMarlinLine Core.handleGrblLine
  split_ifs
  · exact .onFront _ _
  · exact ((hstate c _).trans (.onFront _ _)).trans (.haltJob _ _)
  · refine RxFrame.trans ?_ (.onFront _ _)
    unfold Core.handlePositionReport
    split
    · exact .refl c
    · exact hstate c _
  · exact .onFront _ _
  · exact hstate c _
  · split
    · exact (((hstate c _).trans (hstate _ _)).trans (.onFront _ _)).trans (.haltJob _ _)
    · exact .refl c
  · split
    · exact (((hstate c _).trans (hstate _ _)).trans (.onFront _ _)).trans (.haltJob _ _)
    · exact .onFront _ _

theorem foldl_handleLine_frame (lines : List Text) : ∀ c : Core,
    RxFrame c (lines.foldl (Core.handleLine fw) c) := by
  induction lines with
  | nil => exact fun c => .refl c
  | cons line lines ih => exact fun c => (handleLine_frame line c).trans (ih _)

theorem handleMessage_frame (message : Bytes) (c : Core) :
    RxFrame c (c.handleMessage fw message) :=
  (foldl_handleLine_frame (lineTexts message) c).trans ⟨rfl, rfl, rfl, rfl, rfl, rfl, rfl, id⟩

theorem foldl_handleMessage_frame (messages : List Bytes) : ∀ c : Core,
    RxFrame c (messages.foldl (Core.handleMessage fw) c) := by
  induction messages with
  | nil => exact fun c => .refl c
  | cons message messages ih => exact fun c => (handleMessage_frame message c).trans (ih _)

/-- **The frame of received bytes.** -/
theorem handleRx_frame (data : Bytes) (c : Core) : RxFrame c (c.handleRx fw data) := by
  have hbuffer : RxFrame c { c with lineBuffer := (cutMessages data c.lineBuffer).1 } :=
    ⟨rfl, rfl, rfl, rfl, rfl, rfl, rfl, id⟩
  exact hbuffer.trans (foldl_handleMessage_frame _ _)

end Rx

/-! ### The session -/

namespace Sys

variable {fw : Firmware} {i j : ℕ} {ch : Choice} {s u : Sys} {b : Body} {l : Label}

/-- **The inversion of a step of a task.** -/
theorem step_task (h : Sys.step fw (.task i ch) s = some u) :
    ∃ b c' b', s.tasks[i]? = some b ∧
      (s.active = some i ∨ (s.active = none ∧ b.suspended = true)) ∧
      advance fw i ch s.core b = some (c', b') ∧
      u = ⟨c', s.tasks.set i b', if b'.suspended then none else some i⟩ := by
  simp only [Sys.step, Sys.advanceTask] at h
  split at h
  · cases h
  · rename_i b hb
    split_ifs at h with hen
    · rw [Bool.or_eq_true, Bool.and_eq_true, decide_eq_true_eq, decide_eq_true_eq] at hen
      obtain ⟨⟨c', b'⟩, h1, h2⟩ := Option.map_eq_some_iff.mp h
      exact ⟨b, c', b', hb, hen, h1, h2.symm⟩

/-- What is not a step of a task. -/
inductive Aside (fw : Firmware) (l : Label) (s u : Sys) : Prop
  | call (op : Call) (b : Body) (hlabel : l = .call op) (hb : op.body fw = some b)
      (hcore : u.core = s.core) (htasks : u.tasks = s.tasks ++ [b])
  | rx (data : Bytes) (hlabel : l = .rx data) (hcore : u.core = s.core.handleRx fw data)
      (htasks : u.tasks = s.tasks)
  | link (up : Bool) (hlabel : l = .link up) (hcore : u.core = { s.core with
      isOpen := up, lineBuffer := if up then s.core.lineBuffer else [] })
      (htasks : u.tasks = s.tasks)
  | announce (hlabel : l = .announce) (hcore : u.core = { s.core with connected := true })
      (htasks : u.tasks = s.tasks)
  | cleanup (hlabel : l = .cleanup) (hcore : u.core = Sys.cleanup s.core)
      (htasks : u.tasks = s.tasks)
  | drop (i : ℕ) (pc : PollPc) (hlabel : l = .drop i) (hi : s.tasks[i]? = some (.poll pc))
      (hcore : u.core = if s.core.cmdLock = some i then s.core.unlock else s.core)
      (htasks : u.tasks = s.tasks.set i (.poll .returned))

theorem outside_eq {f : Core → Core} (h : s.outside f = some u) :
    s.active = none ∧ u = { s with core := f s.core } := by
  unfold outside at h
  split at h
  · rename_i ha
    exact ⟨ha, (Option.some.inj h).symm⟩
  · cases h

/-- **The inversion of the other steps**: they happen between await points. -/
theorem step_other (h : Sys.step fw l s = some u) (hl : ∀ i ch, l ≠ .task i ch) :
    s.active = none ∧ Aside fw l s u := by
  cases l with
  | task i ch => exact absurd rfl (hl i ch)
  | call op =>
    simp only [Sys.step] at h
    split_ifs at h with ha
    obtain ⟨b, hb, rfl⟩ := Option.map_eq_some_iff.mp h
    exact ⟨ha, .call op b rfl hb rfl rfl⟩
  | rx data =>
    obtain ⟨ha, rfl⟩ := outside_eq h
    exact ⟨ha, .rx data rfl rfl rfl⟩
  | link up =>
    let f (c : Core) : Core :=
      { c with isOpen := up, lineBuffer := if up then c.lineBuffer else [] }
    have hout : s.outside f = some u := h
    obtain ⟨ha, rfl⟩ := outside_eq hout
    exact ⟨ha, .link up rfl rfl rfl⟩
  | announce =>
    have hout : s.outside (fun c => { c with connected := true }) = some u := h
    obtain ⟨ha, rfl⟩ := outside_eq hout
    exact ⟨ha, .announce rfl rfl rfl⟩
  | cleanup =>
    obtain ⟨ha, rfl⟩ := outside_eq h
    exact ⟨ha, .cleanup rfl rfl rfl⟩
  | drop i =>
    change s.dropPoll i = some u at h
    unfold Sys.dropPoll at h
    split at h
    · rename_i pc hi
      split at h
      · rename_i ha
        cases h
        exact ⟨ha, .drop i pc rfl hi rfl rfl⟩
      · cases h
    · cases h

/-- The step of another task leaves task `j` as it is, unless it is a poll loop, which may
be dropped. -/
theorem step_tasks (h : Sys.step fw l s = some u) (hj : s.tasks[j]? = some b)
    (hl : ∀ ch, l ≠ .task j ch) (hpoll : ∀ pc, b ≠ .poll pc) : u.tasks[j]? = some b := by
  have hlen : j < s.tasks.length := (List.getElem?_eq_some_iff.mp hj).1
  by_cases hl' : ∃ i ch, l = .task i ch
  · obtain ⟨i, ch, rfl⟩ := hl'
    obtain ⟨b₀, c', b', -, -, -, rfl⟩ := step_task h
    have hij : i ≠ j := fun hij => hl ch (by rw [hij])
    rw [List.getElem?_set_ne hij, hj]
  · obtain ⟨-, haside⟩ := step_other h fun i ch hi => hl' ⟨i, ch, hi⟩
    cases haside with
    | call op b hlabel hb hcore htasks => rw [htasks, List.getElem?_append_left hlen, hj]
    | drop i pc hlabel hi hcore htasks =>
      have hij : i ≠ j := fun hij => hpoll pc (Option.some.inj (hj.symm.trans (hij ▸ hi)))
      rw [htasks, List.getElem?_set_ne hij, hj]
    | rx data hlabel hcore htasks => rw [htasks, hj]
    | link up hlabel hcore htasks => rw [htasks, hj]
    | announce hlabel hcore htasks => rw [htasks, hj]
    | cleanup hlabel hcore htasks => rw [htasks, hj]

/-- Which function a task runs never changes. -/
theorem step_isRun (h : Sys.step fw l s = some u) (hj : s.tasks[j]? = some b) :
    ∃ b', u.tasks[j]? = some b' ∧ b'.isRun = b.isRun := by
  have hlen : j < s.tasks.length := (List.getElem?_eq_some_iff.mp hj).1
  by_cases hl' : ∃ i ch, l = .task i ch
  · obtain ⟨i, ch, rfl⟩ := hl'
    obtain ⟨b₀, c', b', hb₀, -, hadv, rfl⟩ := step_task h
    by_cases hij : i = j
    · subst hij
      obtain rfl : b₀ = b := Option.some.inj (hb₀.symm.trans hj)
      exact ⟨b', List.getElem?_set_self hlen, advance_isRun hadv⟩
    · exact ⟨b, by rw [List.getElem?_set_ne hij, hj], rfl⟩
  · obtain ⟨-, haside⟩ := step_other h fun i ch hi => hl' ⟨i, ch, hi⟩
    cases haside with
    | call op b' hlabel hb hcore htasks =>
      exact ⟨b, by rw [htasks, List.getElem?_append_left hlen, hj], rfl⟩
    | drop i pc hlabel hi hcore htasks =>
      by_cases hij : i = j
      · subst hij
        cases hj.symm.trans hi
        exact ⟨.poll .returned, by rw [htasks, List.getElem?_set_self hlen], rfl⟩
      · exact ⟨b, by rw [htasks, List.getElem?_set_ne hij, hj], rfl⟩
    | rx data hlabel hcore htasks => exact ⟨b, by rw [htasks, hj], rfl⟩
    | link up hlabel hcore htasks => exact ⟨b, by rw [htasks, hj], rfl⟩
    | announce hlabel hcore htasks => exact ⟨b, by rw [htasks, hj], rfl⟩
    | cleanup hlabel hcore htasks => exact ⟨b, by rw [htasks, hj], rfl⟩

/-- **What a new task is**: the body of a call, which goes on at once unless it is at an
await point. -/
theorem step_new (h : Sys.step fw l s = some u) (hj : s.tasks[j]? = none)
    (hu : u.tasks[j]? = some b) :
    ∃ op : Call, l = .call op ∧ op.body fw = some b ∧ (b.suspended = false → u.active = some j) := by
  have hlen : s.tasks.length ≤ j := List.getElem?_eq_none_iff.mp hj
  by_cases hl' : ∃ i ch, l = .task i ch
  · obtain ⟨i, ch, rfl⟩ := hl'
    obtain ⟨b₀, c', b', -, -, -, rfl⟩ := step_task h
    rw [List.getElem?_eq_none (by rw [List.length_set]; exact hlen)] at hu
    cases hu
  · obtain ⟨-, haside⟩ := step_other h fun i ch hi => hl' ⟨i, ch, hi⟩
    cases haside with
    | call op b' hlabel hb hcore htasks =>
      have hlt : j < u.tasks.length := (List.getElem?_eq_some_iff.mp hu).1
      rw [htasks, List.length_append, List.length_singleton] at hlt
      obtain rfl : j = s.tasks.length := by omega
      rw [htasks, List.getElem?_append_right (Nat.le_refl _), Nat.sub_self] at hu
      cases hu
      refine ⟨op, hlabel, hb, fun hsusp => ?_⟩
      rw [hlabel] at h
      simp only [Sys.step, hb] at h
      split_ifs at h
      cases h
      exact if_neg (by rw [hsusp]; exact Bool.false_ne_true)
    | drop i pc hlabel hi hcore htasks =>
      rw [htasks, List.getElem?_eq_none (by rw [List.length_set]; exact hlen)] at hu
      cases hu
    | rx data hlabel hcore htasks => rw [htasks, hj] at hu; cases hu
    | link up hlabel hcore htasks => rw [htasks, hj] at hu; cases hu
    | announce hlabel hcore htasks => rw [htasks, hj] at hu; cases hu
    | cleanup hlabel hcore htasks => rw [htasks, hj] at hu; cases hu

/-- **Between two await points a task is alone**: while another one moves, task `j` is at
an await point. -/
theorem step_waits (h : Sys.step fw l s = some u) (hl : ∀ ch, l ≠ .task j ch)
    (hact : b.suspended = false → s.active = some j) : b.suspended = true := by
  by_contra hb
  have hactive := hact (by simpa using hb)
  by_cases hl' : ∃ i ch, l = .task i ch
  · obtain ⟨i, ch, rfl⟩ := hl'
    obtain ⟨b₀, c', b', -, hen, -, -⟩ := step_task h
    have hij : i ≠ j := fun hij => hl ch (by rw [hij])
    rcases hen with hen | ⟨hen, -⟩ <;> rw [hactive] at hen
    · exact hij (Option.some.inj hen).symm
    · cases hen
  · obtain ⟨hnone, -⟩ := step_other h fun i ch hi => hl' ⟨i, ch, hi⟩
    rw [hactive] at hnone
    cases hnone

end Sys

end Raydriver.PingPong
