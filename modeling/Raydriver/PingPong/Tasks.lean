import Raydriver.PingPong.Session

/-!
# The tasks of a ping-pong session

Every async function is a program with explicit program counters, as in the GRBL
session: a counter is either *suspended*, an await point at which other tasks may run,
or internal.  `ping_pong` and `send_safety_shutdown` are shared by several functions;
their counters are part of those of their callers.

## Main definitions

* `PingPc`, `advancePing` — `ping_pong` and `enqueue_and_wait`.
* `ShutdownPc`, `advanceShutdown` — `send_safety_shutdown`.
* `RunPc`, `advanceRun` — `run` and `run_raw`.
* `CancelPc`, `HoldPc`, `PollPc` — `cancel`, `set_hold` and the poll loops.
* `Sys`, `Sys.step` — the session as a transition system.
-/

namespace Raydriver.PingPong

/-! ### One exchange -/

/-- The counters of `ping_pong`. -/
inductive PingPc where
  | enter
  /-- Awaiting the handshake (`MarlinCore`). -/
  | connectWait
  /-- The transport check of `MarlinCore` before the lock. -/
  | begin
  /-- Awaiting `cmd_lock`. -/
  | lockWait
  /-- The body up to the write. -/
  | locked
  /-- Awaiting the write. -/
  | writing (cmd : ℕ) (err : Option String)
  /-- Awaiting the acknowledgement. -/
  | wait (cmd : ℕ)
  /-- Returned, with the response lines unless there was an error. -/
  | returned (cmd : Option ℕ) (lines : List Text) (err : Option SessionError)
  deriving DecidableEq, Repr

/-- The exchange is at an await point. -/
def PingPc.suspended : PingPc → Bool
  | .connectWait | .lockWait | .writing _ _ | .wait _ => true
  | _ => false

/-- The end of an exchange: the entry is dropped, and the lock released. -/
def Core.endPing (fw : Firmware) (serialize : Bool) (cmd : ℕ) (c : Core) : Core :=
  let c := c.dropPending fw cmd
  if serialize then c.unlock else c

/-- `ping_pong` run by task `i`; without `serialize` it is the exchange of the position
poll, which takes no lock. -/
def advancePing (fw : Firmware) (i : ℕ) (serialize : Bool) (command : Text) (ch : Choice)
    (c : Core) : PingPc → Option (Core × PingPc)
  -- `MarlinCore` waits out the handshake, and looks at the transport before it takes the lock
  | .enter => some (c, if fw == .marlin && !c.connected then .connectWait else .begin)
  | .connectWait =>
    if c.connected then some (c, .begin)
    else if ch.timedOut then
      some (c, .returned none [] (some (.connection "device did not announce itself")))
    else none
  | .begin =>
    if fw == .marlin && !c.isOpen then
      some (c, .returned none [] (some (.connection fw.closedMessage)))
    else some (c, if serialize then .lockWait else .locked)
  | .lockWait => if c.cmdLock.isNone then some (c.lock i, .locked) else none
  -- `enqueue_and_wait`: the entry is queued, and dropped again on every path
  | .locked =>
    if c.isOpen then
      some ((c.enqueue fw).write (.command i c.cmds.length) (commandLine command) ch.writeError,
        .writing c.cmds.length ch.writeError)
    else
      some (if serialize then c.unlock else c,
        .returned none [] (some (.connection fw.closedMessage)))
  | .writing cmd err =>
    match err with
    | none => some (c, .wait cmd)
    | some e =>
      some (c.endPing fw serialize cmd, .returned (some cmd) [] (some (.connection e)))
  | .wait cmd =>
    if c.isFinished cmd then
      some (c.endPing fw serialize cmd, .returned (some cmd) (c.linesOf cmd) none)
    else if ch.timedOut then
      some (c.endPing fw serialize cmd, .returned (some cmd) [] (some .timeout))
    else none
  | .returned _ _ _ => none

/-! ### The safety shutdown -/

/-- The counters of `send_safety_shutdown`. -/
inductive ShutdownPc where
  | start (emergency : Bool)
  /-- Awaiting `safety_shutdown_delay` (not in `MarlinCore`). -/
  | sleep (commands : List Text)
  /-- The head of the loop over the commands. -/
  | next (commands : List Text)
  /-- Awaiting the write of a command. -/
  | writing (commands : List Text)
  | done
  deriving DecidableEq, Repr

/-- The safety shutdown is at an await point. -/
def ShutdownPc.suspended : ShutdownPc → Bool
  | .sleep _ | .writing _ => true
  | _ => false

/-- The commands of a safety shutdown. -/
def Core.safetyCommands (emergency : Bool) (c : Core) : List Text :=
  c.dialect.safetyOffCommands ++ if emergency then c.dialect.emergencyStop.toList else []

/-- `send_safety_shutdown` run by task `i`.  Responses are ignored. -/
def advanceShutdown (fw : Firmware) (i : ℕ) (ch : Choice) (c : Core) :
    ShutdownPc → Option (Core × ShutdownPc)
  | .start emergency =>
    if fw == .marlin then some (c, .next (c.safetyCommands emergency))
    else if (c.safetyCommands emergency).isEmpty || !c.isOpen then some (c, .done)
    else some (c, .sleep (c.safetyCommands emergency))
  | .sleep commands => some (c, .next commands)
  | .next [] => some (c, .done)
  -- a failed write is only logged
  | .next (command :: commands) =>
    if c.isOpen then
      some (c.write (.safety i) (commandLine command) ch.writeError, .writing commands)
    else some (c, .done)
  | .writing commands => some (c, .next commands)
  | .done => none

/-! ### Jobs -/

/-- The program counters of `run`. -/
inductive RunPc where
  /-- `run_raw` of `SimpleCore`: the realtime commands still to send. -/
  | rawNext (realtime : List Text)
  /-- Awaiting the write of a realtime command. -/
  | rawWriting (realtime : List Text) (err : Option String)
  /-- `start_job`. -/
  | begin
  /-- The head of the loop over the lines. -/
  | top (lineIdx : ℕ) (rest : List Text)
  /-- The exchange of a line. -/
  | ping (lineIdx : ℕ) (line : Text) (rest : List Text) (pc : PingPc)
  /-- `yield_now`. -/
  | yielded (lineIdx : ℕ) (rest : List Text)
  /-- Behind the loop. -/
  | ended (interrupted : Bool)
  /-- The safety shutdown of a failed job. -/
  | shutdown (wasCancelled : Bool) (pc : ShutdownPc)
  /-- The event behind the job. -/
  | finish (wasCancelled : Bool)
  | returned
  deriving DecidableEq, Repr

/-- `run` is at an await point. -/
def RunPc.suspended : RunPc → Bool
  | .rawWriting _ _ | .yielded _ _ | .returned => true
  | .ping _ _ _ pc => pc.suspended
  | .shutdown _ pc => pc.suspended
  | _ => false

/-- `run` of a job, by task `i`. -/
def advanceRun (fw : Firmware) (i : ℕ) (job : Job) (ch : Choice) (c : Core) :
    RunPc → Option (Core × RunPc)
  | .rawNext [] => some (c, if job.lines.isEmpty then .returned else .begin)
  | .rawNext (command :: realtime) =>
    if c.isOpen then
      some (c.write .realtime command ch.writeError, .rawWriting realtime ch.writeError)
    else some (c, .returned)
  | .rawWriting realtime err => some (c, if err.isNone then .rawNext realtime else .returned)
  | .begin => some (c.startJob, .top 0 job.lines)
  | .top _ [] => some (c, .ended false)
  -- `MarlinCore` has no alarm to look at
  | .top idx (rawLine :: rest) =>
    if c.isCancelled || (fw.checksAlarm && c.state.status == .alarm) then some (c, .ended false)
    else if (fw.jobLine rawLine).isEmpty then some (c, .top (idx + 1) rest)
    else some (c.reportOp (job.opIndex idx), .ping idx (fw.jobLine rawLine) rest .enter)
  -- a failed exchange interrupts the job, an exception only ends the loop
  | .ping idx line rest pc =>
    match pc with
    | .returned _ _ (some _) => some (c, .ended true)
    | .returned _ _ none =>
      some (c, if c.jobException.isSome then .ended false else .yielded idx rest)
    | pc => (advancePing fw i true line ch c pc).map fun (c, pc) => (c, .ping idx line rest pc)
  | .yielded idx rest => some (c, .top (idx + 1) rest)
  -- the flags are cleared before the safety shutdown, which awaits
  | .ended interrupted =>
    let failed := c.jobException.isSome || interrupted
    let was := c.isCancelled
    some ({ c with jobException := none, jobRunning := false, isHolding := false },
      if failed then .shutdown was (.start true) else .finish was)
  | .shutdown was pc =>
    match pc with
    | .done => some (c, .finish was)
    | pc => (advanceShutdown fw i ch c pc).map fun (c, pc) => (c, .shutdown was pc)
  | .finish was =>
    some ({ c with events := c.events ++ if was then [] else [.jobFinished] }, .returned)
  | .returned => none

/-! ### Commands -/

/-- The program counters of `execute_command`. -/
inductive ExecutePc where
  | start
  | ping (pc : PingPc)
  deriving DecidableEq, Repr

/-- `execute_command` is at an await point. -/
def ExecutePc.suspended : ExecutePc → Bool
  | .start => false
  | .ping pc => pc.suspended || (match pc with | .returned _ _ _ => true | _ => false)

/-- `execute_command` and `execute_interactive_command`. -/
def advanceExecute (fw : Firmware) (i : ℕ) (command : Text) (ch : Choice) (c : Core) :
    ExecutePc → Option (Core × ExecutePc)
  | .start => some (c.clearCancelled, .ping .enter)
  | .ping pc => (advancePing fw i true command ch c pc).map fun (c, pc) => (c, .ping pc)

/-! ### `cancel` and `set_hold` -/

/-- The program counters of `cancel`. -/
inductive CancelPc where
  /-- The body up to the write of the stop. -/
  | start
  /-- Awaiting the write of the stop; `was` says whether a job was running. -/
  | stopping (was : Bool) (err : Option String)
  | shutdown (was : Bool) (pc : ShutdownPc)
  /-- Returned, with an error if there was one. -/
  | returned (err : Option SessionError)
  deriving DecidableEq, Repr

/-- `cancel` is at an await point. -/
def CancelPc.suspended : CancelPc → Bool
  | .start => false
  | .shutdown _ pc => pc.suspended
  | _ => true

/-- `cancel`, run by task `i`. -/
def advanceCancel (fw : Firmware) (i : ℕ) (emergency : Bool) (ch : Choice) (c : Core) :
    CancelPc → Option (Core × CancelPc)
  | .start =>
    let was := c.jobRunning
    let c := c.beginCancel
    if c.isOpen then
      some (c.write (.stop i) fw.stopPayload ch.writeError, .stopping was ch.writeError)
    else some (c, .returned (some (.connection fw.closedMessage)))
  | .stopping was err =>
    match err with
    | none => some (c, .shutdown was (.start emergency))
    | some e => some (c, .returned (some (.connection e)))
  | .shutdown was pc =>
    match pc with
    | .done =>
      some ({ c with events := c.events ++ if was then [.jobFinished] else [] }, .returned none)
    | pc => (advanceShutdown fw i ch c pc).map fun (c, pc) => (c, .shutdown was pc)
  | .returned _ => none

/-- The program counters of `set_hold`. -/
inductive HoldPc where
  | start
  /-- Awaiting the write of the realtime command. -/
  | writing (err : Option String)
  | returned
  deriving DecidableEq, Repr

/-- `set_hold` is at an await point. -/
def HoldPc.suspended : HoldPc → Bool
  | .start => false
  | _ => true

/-- `set_hold`; only that of `SimpleCore` clears the cancellation flag. -/
def advanceHold (fw : Firmware) (hold : Bool) (ch : Choice) (c : Core) :
    HoldPc → Option (Core × HoldPc)
  | .start =>
    let c := { c with isHolding := hold }
    let c := if fw == .simple then c.clearCancelled else c
    if c.isOpen then
      some (c.write .realtime [if hold then '!' else '~'] ch.writeError, .writing ch.writeError)
    else some (c, .returned)
  | .writing err =>
    let desired : DeviceStatus := if hold then .hold else if c.jobRunning then .run else .idle
    some ({ c with state := { c.state with
        status := if err.isNone then desired else c.state.status } }, .returned)
  | .returned => none

/-! ### Polls -/

/-- The program counters of the poll loop. -/
inductive PollPc where
  /-- Awaiting `status_poll_interval`. -/
  | sleep
  /-- The head of the loop. -/
  | top
  /-- Awaiting `cmd_lock` (`SimpleCore`, `SmoothieCore`). -/
  | lockWait
  | locked
  /-- Awaiting the write of the poll. -/
  | writing (err : Option String)
  /-- The exchange of the position poll (`MarlinCore`). -/
  | ping (pc : PingPc)
  | returned
  deriving DecidableEq, Repr

/-- The poll loop is at an await point. -/
def PollPc.suspended : PollPc → Bool
  | .sleep | .lockWait | .writing _ | .returned => true
  | .ping pc => pc.suspended
  | _ => false

/-- `status_poll_loop` and `position_poll_loop`, run by task `i`. -/
def advancePoll (fw : Firmware) (i : ℕ) (ch : Choice) (c : Core) :
    PollPc → Option (Core × PollPc)
  | .sleep => some (c, .top)
  | .top =>
    if !c.isOpen || !c.keepRunning then some (c, .returned)
    else if !c.pollStatusWhileRunning && c.jobRunning then some (c, .sleep)
    else some (c, if fw == .marlin then .ping .locked else .lockWait)
  | .lockWait => if c.cmdLock.isNone then some (c.lock i, .locked) else none
  -- the guard is held over the write
  | .locked =>
    if c.isOpen then some (c.write .realtime ['?'] ch.writeError, .writing ch.writeError)
    else some (c.unlock, .sleep)
  | .writing err => some (c.unlock, if err.isNone then .sleep else .returned)
  -- the position poll of `MarlinCore` takes no lock
  | .ping pc =>
    match pc with
    | .returned _ _ err => some (c, if err.isNone then .sleep else .returned)
    | pc => (advancePing fw i false "M114".toList ch c pc).map fun (c, pc) => (c, .ping pc)
  | .returned => none

/-! ### The session -/

/-- A task: which function it runs, and where it is. -/
inductive Body where
  | run (job : Job) (pc : RunPc)
  | execute (command : Text) (pc : ExecutePc)
  | cancel (emergency : Bool) (pc : CancelPc)
  | hold (hold : Bool) (pc : HoldPc)
  | poll (pc : PollPc)
  deriving DecidableEq, Repr

/-- The task is at an await point. -/
def Body.suspended : Body → Bool
  | .run _ pc => pc.suspended
  | .execute _ pc => pc.suspended
  | .cancel _ pc => pc.suspended
  | .hold _ pc => pc.suspended
  | .poll pc => pc.suspended

/-- Task `i` goes on to its next counter. -/
def advance (fw : Firmware) (i : ℕ) (ch : Choice) (c : Core) : Body → Option (Core × Body)
  | .run job pc => (advanceRun fw i job ch c pc).map fun (c, pc) => (c, .run job pc)
  | .execute command pc =>
    (advanceExecute fw i command ch c pc).map fun (c, pc) => (c, .execute command pc)
  | .cancel em pc => (advanceCancel fw i em ch c pc).map fun (c, pc) => (c, .cancel em pc)
  | .hold b pc => (advanceHold fw b ch c pc).map fun (c, pc) => (c, .hold b pc)
  | .poll pc => (advancePoll fw i ch c pc).map fun (c, pc) => (c, .poll pc)

/-- An operation called from outside; `poll` is the poll loop of a new connection. -/
inductive Call where
  | run (job : Job)
  | runRaw (lines : List Text)
  | execute (command : Text)
  | cancel (emergency : Bool)
  | setHold (hold : Bool)
  | poll
  deriving DecidableEq, Repr

/-- The task of a call.  `MarlinCore` has no `set_hold`, and only the `run_raw` of
`SimpleCore` sends realtime commands by themselves. -/
def Call.body (fw : Firmware) : Call → Option Body
  | .run job => some (.run job .begin)
  | .runRaw lines =>
    let kept := rawLines lines
    match fw with
    | .simple =>
      let (gcode, realtime) := splitRealtimeCommands kept
      some (.run { lines := gcode } (.rawNext realtime))
    | _ => some (.run { lines := kept } (.rawNext []))
  | .execute command => some (.execute command .start)
  | .cancel emergency => some (.cancel emergency .start)
  | .setHold b => if fw == .marlin then none else some (.hold b .start)
  | .poll => some (.poll .sleep)

/-- The session: the shared state, its tasks, and the task that is between two await
points, if any. -/
structure Sys where
  core : Core
  tasks : List Body := []
  active : Option ℕ := none
  deriving DecidableEq, Repr

/-- What happens to a session. -/
inductive Label where
  /-- Someone calls an operation. -/
  | call (op : Call)
  /-- Task `i` goes on. -/
  | task (i : ℕ) (ch : Choice)
  /-- The reader task handles a chunk of received bytes. -/
  | rx (data : Bytes)
  /-- The link goes up, or down with the line buffer cleared. -/
  | link (up : Bool)
  /-- The handshake of `MarlinCore` succeeds. -/
  | announce
  /-- The flags of `cleanup`. -/
  | cleanup
  /-- The poll loop `i` is dropped with its connection. -/
  | drop (i : ℕ)
  deriving DecidableEq, Repr

namespace Sys

/-- Task `i` goes on to its next counter. -/
def advanceTask (fw : Firmware) (i : ℕ) (ch : Choice) (s : Sys) : Option Sys :=
  match s.tasks[i]? with
  | none => none
  | some b =>
    if s.active = some i || (s.active = none && b.suspended) then
      (advance fw i ch s.core b).map fun (c, b') =>
        { core := c, tasks := s.tasks.set i b', active := if b'.suspended then none else some i }
    else none

/-- What is not a step of a task happens between two await points. -/
def outside (f : Core → Core) (s : Sys) : Option Sys :=
  if s.active = none then some { s with core := f s.core } else none

/-- The flags `cleanup` sets before it aborts the tasks of the connection. -/
def cleanup (c : Core) : Core :=
  { c with keepRunning := false, jobRunning := false }.resolvePending

/-- A poll loop is dropped: it releases the lock if it holds it, and an entry it has
queued stays. -/
def dropPoll (i : ℕ) (s : Sys) : Option Sys :=
  match s.tasks[i]? with
  | some (.poll _) =>
    if s.active = none then
      some { s with
        core := if s.core.cmdLock = some i then s.core.unlock else s.core
        tasks := s.tasks.set i (.poll .returned) }
    else none
  | _ => none

/-- One step of the session. -/
def step (fw : Firmware) : Label → Sys → Option Sys
  | .call op, s =>
    if s.active = none then
      (op.body fw).map fun b =>
        { s with
          tasks := s.tasks ++ [b]
          active := if b.suspended then none else some s.tasks.length }
    else none
  | .task i ch, s => s.advanceTask fw i ch
  | .rx data, s => s.outside (Core.handleRx fw data)
  | .link up, s =>
    s.outside fun c => { c with isOpen := up, lineBuffer := if up then c.lineBuffer else [] }
  | .announce, s => s.outside fun c => { c with connected := true }
  | .cleanup, s => s.outside cleanup
  | .drop i, s => s.dropPoll i

end Sys

/-- Task `i` goes on `n` times, nothing failing or expiring. -/
def turns (i n : ℕ) : List Label := List.replicate n (.task i {})

end Raydriver.PingPong
