import Raydriver.Grbl.Session

/-!
# The tasks of a GRBL session

Every async function of `SessionCore` is a program with explicit program counters.
A counter is either *suspended*, an await point at which other tasks may run, or
internal.  `advance` goes from one counter to the next; a task that left an await
point runs on until the next one before anything else happens.

How an await ends is not determined by the state: a `Choice` says whether the
timeout of the await has expired and whether a write fails.  A waiter may wake up
without cause, in which case it looks at its condition again.

## Main definitions

* `StreamPc`, `advanceStream` — the streaming task: `stream_gcode`,
  `stream_gcode_inner`, `send_gcode_with_stall`, the stall callback, the deadlock
  recovery and the final drain.
* `CancelPc`, `advanceCancel` — `cancel` and `send_safety_shutdown`.
* `Body`, `advance` — all tasks.
* `Sys`, `Sys.step` — the session as a transition system.
-/

namespace Raydriver

/-- How an await ends: has its timeout expired, does the write fail? -/
structure Choice where
  timedOut : Bool := false
  writeError : Option String := none
  deriving DecidableEq, Repr

/-! ### `cancel` -/

/-- The counters of `cancel`; `was` says whether a job was running when it began. -/
inductive CancelPc where
  /-- The body up to the write of Ctrl-X. -/
  | start
  /-- Awaiting the write of Ctrl-X. -/
  | ctrlX (was : Bool) (err : Option String)
  /-- `abort_stream_task`. -/
  | abort (was : Bool)
  /-- Awaiting the end of the aborted task. -/
  | abortWait (was : Bool) (task : ℕ)
  /-- Clearing the queue and the flow control. -/
  | clear (was : Bool)
  /-- Awaiting `safety_shutdown_delay`. -/
  | sleep (was : Bool) (commands : List Text)
  /-- The head of the safety-off loop. -/
  | next (was : Bool) (commands : List Text)
  /-- Awaiting space for a safety command. -/
  | space (was : Bool) (command : Text) (commands : List Text)
  /-- Tracking and writing a safety command. -/
  | send (was : Bool) (command : Text) (commands : List Text)
  /-- Awaiting the write of a safety command. -/
  | writing (was : Bool) (commands : List Text)
  | finish (was : Bool)
  /-- Returned, with an error if there was one. -/
  | returned (err : Option SessionError)
  deriving DecidableEq, Repr

/-- `cancel` is at an await point. -/
def CancelPc.suspended : CancelPc → Bool
  | .ctrlX _ _ | .abortWait _ _ | .sleep _ _ | .space _ _ _ | .writing _ _ | .returned _ => true
  | _ => false

/-- The line of a command. -/
def commandLine (command : Text) : Text := command ++ ['\n']

/-- `cancel`, run by task `i`; inside the streaming task it does not abort that task. -/
def advanceCancel (i : ℕ) (inStream emergency : Bool) (ch : Choice) (c : Core) :
    CancelPc → Option (Core × CancelPc)
  | .start =>
    let was := c.jobRunning
    let c := { c with isCancelled := true, jobRunning := false }
    if c.isOpen then
      some (c.write .realtime ['\x18'] ch.writeError, .ctrlX was ch.writeError)
    else some (c, .returned (some (.connection "Serial transport not connected")))
  | .ctrlX was err =>
    match err with
    | none => some (c, .abort was)
    | some e => some (c, .returned (some (.connection e)))
  -- `abort_stream_task` does nothing in the streaming task itself
  | .abort was =>
    if inStream then some (c, .clear was)
    else
      match c.streamTask with
      | none => some (c, .clear was)
      | some t =>
        let c := { c with streamTask := none }
        if c.ended.contains t then some (c, .clear was)
        else some ({ c with aborted := t :: c.aborted }, .abortWait was t)
  | .abortWait was t => if c.ended.contains t then some (c, .clear was) else none
  -- the queued commands are dropped and the accounting reset, then `send_safety_shutdown`
  | .clear was =>
    let c := c.drainQueue.resetFlow
    let commands := c.dialect.safetyOffCommands ++
      if emergency then c.dialect.emergencyStop.toList else []
    if commands.isEmpty || !c.isOpen then some (c, .finish was)
    else some (c, .sleep was commands)
  | .sleep was commands => some (c, .next was commands)
  | .next was [] => some (c, .finish was)
  | .next was (command :: commands) =>
    if !c.isOpen then some (c, .finish was)
    else if c.needsSpace (commandLine command) then some (c, .space was command commands)
    else some (c, .send was command commands)
  -- `send_gcode_simple` of a safety command; its failures are only logged
  | .space was command commands =>
    if !c.needsSpace (commandLine command) then some (c, .send was command commands)
    else if ch.timedOut then some (c, .next was commands)
    else none
  | .send was command commands =>
    some (c.sendTracked (.safety i) (commandLine command) none ch.writeError,
      .writing was commands)
  | .writing was commands => some (c, .next was commands)
  | .finish was =>
    some ({ c with events := c.events ++ if was then [.jobFinished] else [] }, .returned none)
  | .returned _ => none

/-! ### The streaming task -/

/-- A job: its lines, and the op index of some of them. -/
structure Job where
  lines : List Text
  opMap : Option (List (ℕ × ℤ)) := none
  deriving DecidableEq, Repr

/-- The operation a line belongs to. -/
def Job.opIndex (job : Job) (lineIdx : ℕ) : Option ℤ := job.opMap.bind fun m => m.lookup lineIdx

/-- A line on its way to the device, and the lines of the job behind it. -/
structure Send where
  lineIdx : ℕ
  line : Text
  opIndex : Option ℤ
  rest : List Text
  deriving DecidableEq, Repr

/-- `command_bytes`. -/
def Send.payload (s : Send) : Text := commandLine s.line

/-- Where a poll or a recovery is made: in the stall callback of a send, under its
lock, or in the drain at the end of the job. -/
inductive Site where
  | stall (s : Send)
  | drain
  deriving DecidableEq, Repr

/-- The dwell that drains the planner. -/
def dwellLine : Text := "G4 P0.01\n".toList

/-- The program counters of the streaming task. -/
inductive StreamPc where
  /-- Spawned. -/
  | start
  /-- The head of the send loop. -/
  | loopTop (lineIdx : ℕ) (rest : List Text)
  /-- `send_gcode_line`: awaiting `cmd_lock`. -/
  | lockWait (s : Send)
  /-- The transport check under the lock. -/
  | locked (s : Send)
  /-- The loop of `send_gcode_with_stall`. -/
  | spaceCheck (s : Send)
  /-- Awaiting space. -/
  | spaceWait (s : Send)
  /-- Tracking and writing the line. -/
  | send (s : Send)
  /-- Awaiting the write of the line. -/
  | writing (s : Send) (err : Option String)
  /-- `on_buffer_stall`. -/
  | stall (s : Send)
  /-- What the stall callback answered. -/
  | stallEnd (s : Send) (handled : Bool)
  /-- `poll_and_check_idle`. -/
  | poll (w : Site)
  /-- Awaiting `cmd_lock` for a poll. -/
  | pollLock (before : ℕ)
  /-- Sending the poll. -/
  | pollSend (w : Site) (before : ℕ)
  /-- Awaiting the write of the poll. -/
  | pollWriting (w : Site) (before : ℕ) (err : Option String)
  /-- The poll could not be sent. -/
  | pollFailed (w : Site)
  /-- The loop over the response attempts. -/
  | pollAwait (w : Site) (before left : ℕ)
  /-- Awaiting `poll_response_interval`. -/
  | pollSleep (w : Site) (before left : ℕ)
  | pollDone (w : Site) (before : ℕ)
  /-- What the poll answered. -/
  | pollEnd (w : Site) (idle : Bool)
  /-- `recover_from_deadlock`. -/
  | recover (w : Site)
  /-- Awaiting `cmd_lock` for the recovery. -/
  | recoverLock
  | recoverStart (w : Site)
  /-- Awaiting space for the dwell. -/
  | recoverSpace (w : Site)
  /-- Tracking and writing the dwell. -/
  | recoverSend (w : Site)
  /-- Awaiting the write of the dwell. -/
  | recoverWriting (w : Site)
  | recoverSent (w : Site)
  /-- Awaiting the acks after the dwell. -/
  | recoverDrain (w : Site)
  | recoverReset (w : Site)
  | recoverEnd (w : Site)
  /-- The checks behind `send_gcode_line`. -/
  | afterSend (s : Send)
  /-- `yield_now`. -/
  | yielded (lineIdx : ℕ) (rest : List Text)
  /-- Behind the send loop. -/
  | afterLoop
  /-- The head of `drain_pending_acks`. -/
  | drainTop
  /-- Awaiting the pending acks. -/
  | drainWait
  /-- The end of `stream_gcode_inner`: take the exception. -/
  | innerEnd
  /-- The outcome of `stream_gcode_inner`. -/
  | outcome (err : Option SessionError)
  /-- `cancel(true)` on the failure path. -/
  | cancelling (pc : CancelPc) (err : SessionError)
  /-- The resets and events behind the job. -/
  | final (err : Option SessionError)
  | finished (err : Option SessionError)
  deriving DecidableEq, Repr

/-- The streaming task is at an await point. -/
def StreamPc.suspended : StreamPc → Bool
  | .start | .lockWait _ | .spaceWait _ | .writing _ _ | .pollLock _ | .pollWriting _ _ _
  | .pollSleep _ _ _ | .recoverLock | .recoverSpace _ | .recoverWriting _ | .recoverDrain _
  | .yielded _ _ | .drainWait | .finished _ => true
  | .cancelling pc _ => pc.suspended
  | _ => false

/-- The stall callback runs under the lock of its send; the drain drops its own. -/
def Site.unlock (w : Site) (c : Core) : Core :=
  { c with cmdLock :=
      match w with
      | .stall _ => c.cmdLock
      | .drain => none }

/-- The error state a failed job leaves behind. -/
def jobError (err : SessionError) : DeviceError :=
  ⟨-1, "Job Error", String.ofList err.message⟩

/-- The streaming task `t`. -/
def advanceStream (t : ℕ) (job : Job) (ch : Choice) (c : Core) :
    StreamPc → Option (Core × StreamPc)
  | .start => some (c, .loopTop 0 job.lines)
  | .loopTop _ [] => some (c, .afterLoop)
  -- the head of the loop; an Alarm leaves its exception behind
  | .loopTop idx (rawLine :: rest) =>
    if c.isCancelled || c.jobException.isSome || c.isAlarm then
      some (c.raiseOnAlarm, .afterLoop)
    else
      let line := stripGcodeComments rawLine
      if line.isEmpty then some (c, .loopTop (idx + 1) rest)
      else some (c, .lockWait ⟨idx, line, job.opIndex idx, rest⟩)
  -- `send_gcode_line`
  | .lockWait s =>
    if c.cmdLock.isNone then some ({ c with cmdLock := some t }, .locked s) else none
  | .locked s =>
    if c.isOpen then some (c, .spaceCheck s)
    else some (c.unlock,
      .outcome (some (.connection "Serial transport disconnected during job.")))
  -- `send_gcode_with_stall`: a wait that times out calls `on_buffer_stall`
  | .spaceCheck s =>
    if c.needsSpace s.payload then some (c, .spaceWait s) else some (c, .send s)
  | .spaceWait s =>
    if !c.needsSpace s.payload then some (c, .send s)
    else if ch.timedOut then some (c, .stall s)
    else none
  | .send s =>
    some (c.sendTracked (.job t) s.payload s.opIndex ch.writeError, .writing s ch.writeError)
  | .writing s err =>
    match err with
    | none => some (c.unlock, .afterSend s)
    | some e => some (c.unlock, .outcome (some (.connection e)))
  -- `on_buffer_stall`, under the lock of the line
  | .stall s => some (c, if c.isCancelled then .stallEnd s false else .poll (.stall s))
  | .stallEnd s handled =>
    if handled then some (c, .spaceCheck s)
    else some (c.unlock.raiseIfNone (.device ("Deadlock recovery failed: cannot get ".toList ++
      Nat.toDigits 10 (utf8Len s.payload) ++ " bytes of space".toList)), .afterSend s)
  -- `poll_and_check_idle`; in the drain it takes the lock for the write
  | .poll w =>
    let c := { c with rawGrblStatus := .unknown }
    match w with
    | .stall s => some (c, .pollSend (.stall s) c.deviceResponseCount)
    | .drain => some (c, .pollLock c.deviceResponseCount)
  | .pollLock before =>
    if c.cmdLock.isNone then some ({ c with cmdLock := some t }, .pollSend .drain before)
    else none
  | .pollSend w before =>
    if c.isOpen then
      some (c.write .realtime ['?'] ch.writeError, .pollWriting w before ch.writeError)
    else some (c, .pollFailed w)
  | .pollWriting w before err =>
    match err with
    | none => some (w.unlock c, .pollAwait w before c.config.pollResponseAttempts)
    | some _ => some (c, .pollFailed w)
  | .pollFailed w =>
    let c := w.unlock c
    some ({ c with consecutiveUnansweredPolls := c.consecutiveUnansweredPolls + 1 },
      .pollEnd w false)
  | .pollAwait w before left =>
    match left with
    | 0 => some (c, .pollDone w before)
    | left + 1 => some (c, .pollSleep w before left)
  | .pollSleep w before left =>
    if c.rawGrblStatus == .unknown then some (c, .pollAwait w before left)
    else some (c, .pollDone w before)
  | .pollDone w before =>
    let n := if before < c.deviceResponseCount then 0 else c.consecutiveUnansweredPolls + 1
    some ({ c with consecutiveUnansweredPolls := n }, .pollEnd w c.isGrblIdleOrDesynced)
  -- what `on_buffer_stall` makes of the poll
  | .pollEnd (.stall s) idle =>
    if c.deviceStoppedResponding then some (c.markDeviceUnresponsive, .stallEnd s false)
    else if c.isAlarm then some (c.raiseOnAlarm, .stallEnd s false)
    else if !c.config.deadlockDetection then some (c, .stallEnd s true)
    else if idle then
      if !c.needsSpace s.payload then some (c, .stallEnd s true)
      else some (c, .recover (.stall s))
    else some (c, .stallEnd s true)
  -- and what `drain_pending_acks` does
  | .pollEnd .drain idle =>
    if c.deviceStoppedResponding then some (c.markDeviceUnresponsive, .innerEnd)
    else if idle then
      if c.flow.pending.isEmpty then some (c, .innerEnd) else some (c, .recover .drain)
    else some (c, .drainTop)
  -- `recover_from_deadlock`; a stall holds the lock already
  | .recover w =>
    if c.isOpen then
      match w with
      | .stall s => some (c, .recoverStart (.stall s))
      | .drain => some (c, .recoverLock)
    else some (c, .recoverEnd w)
  | .recoverLock =>
    if c.cmdLock.isNone then some ({ c with cmdLock := some t }, .recoverStart .drain)
    else none
  | .recoverStart w =>
    let c := c.resetFlowControl
    some (c, if c.needsSpace dwellLine then .recoverSpace w else .recoverSend w)
  -- `send_gcode_simple` of the dwell, whose failure is only logged
  | .recoverSpace w =>
    if !c.needsSpace dwellLine then some (c, .recoverSend w)
    else if ch.timedOut then some (c, .recoverSent w)
    else none
  | .recoverSend w =>
    some (c.sendTracked (.recovery t) dwellLine none ch.writeError, .recoverWriting w)
  | .recoverWriting w => some (c, .recoverSent w)
  | .recoverSent w =>
    let c := w.unlock c
    some (c, if c.flow.pending.isEmpty then .recoverReset w else .recoverDrain w)
  | .recoverDrain w =>
    if c.flow.pending.isEmpty || ch.timedOut then some (c, .recoverReset w) else none
  | .recoverReset w => some (c.resetFlow, .recoverEnd w)
  | .recoverEnd (.stall s) => some (c, .stallEnd s (!c.needsSpace s.payload))
  | .recoverEnd .drain => some (c, .drainTop)
  -- back in `stream_gcode_inner`
  | .afterSend s =>
    if c.jobException.isSome || c.isAlarm then some (c, .afterLoop)
    else some (c, .yielded (s.lineIdx + 1) s.rest)
  | .yielded idx rest => some (c, .loopTop idx rest)
  | .afterLoop =>
    if !c.isCancelled && c.jobException.isNone then some (c, .drainTop) else some (c, .innerEnd)
  -- `drain_pending_acks`
  | .drainTop =>
    if c.flow.pending.isEmpty || c.jobException.isSome || c.isAlarm || c.isCancelled then
      some (c, .innerEnd)
    else some (c, .drainWait)
  | .drainWait =>
    if c.flow.pending.isEmpty then some (c, .innerEnd)
    else if ch.timedOut then some (c, .poll .drain)
    else none
  | .innerEnd => some ({ c with jobException := none }, .outcome c.jobException)
  -- `stream_gcode`: an error is shown and `cancel(true)` called, unless it is cancelled already
  | .outcome none => some (c, .final none)
  | .outcome (some e) =>
    if c.isCancelled then some (c, .final (some e))
    else some (c.setError (jobError e), .cancelling .start e)
  | .cancelling pc e =>
    match pc with
    | .returned _ => some (c, .final (some e))
    | pc => (advanceCancel t true true ch c pc).map fun (c, pc) => (c, .cancelling pc e)
  -- the final block, which every outcome goes through
  | .final err =>
    some ({ c with
      rawGrblStatus := .unknown
      jobRunning := false
      isHolding := false
      events := c.events ++ if err.isNone && !c.isCancelled then [.jobFinished] else []
      ended := t :: c.ended }, .finished err)
  | .finished _ => none

/-! ### `run` and `run_raw` -/

/-- The program counters of `run`. -/
inductive RunPc where
  /-- The realtime commands of `run_raw`. -/
  | rawNext (realtime : List Text)
  /-- Awaiting the write of a realtime command. -/
  | rawWriting (realtime : List Text) (err : Option String)
  /-- `start_job`. -/
  | begin
  /-- `abort_stream_task`. -/
  | abort
  /-- Awaiting the end of the aborted task. -/
  | abortWait (task : ℕ)
  /-- Spawning the streaming task and storing its handle. -/
  | spawn
  /-- Awaiting the streaming task. -/
  | join (task : ℕ)
  | returned
  deriving DecidableEq, Repr

/-- `run` is at an await point. -/
def RunPc.suspended : RunPc → Bool
  | .rawWriting _ _ | .abortWait _ | .join _ | .returned => true
  | _ => false

/-- `run_raw` and `run_streaming_job`; `n` is the number of the next task.  The flag
says whether the streaming task is spawned. -/
def advanceRun (n : ℕ) (job : Job) (ch : Choice) (c : Core) :
    RunPc → Option (Core × RunPc × Bool)
  -- `run_raw` sends the realtime commands first, and gives up at one it cannot send
  | .rawNext [] => some (c, if job.lines.isEmpty then .returned else .begin, false)
  | .rawNext (command :: realtime) =>
    if c.isOpen then
      some (c.write .realtime command ch.writeError, .rawWriting realtime ch.writeError, false)
    else some (c, .returned, false)
  | .rawWriting realtime err =>
    some (c, if err.isNone then .rawNext realtime else .returned, false)
  | .begin => some (c.startJob, .abort, false)
  -- `run_streaming_job` aborts a task that is left over, and awaits its end
  | .abort =>
    match c.streamTask with
    | none => some (c, .spawn, false)
    | some t =>
      let c := { c with streamTask := none }
      if c.ended.contains t then some (c, .spawn, false)
      else some ({ c with aborted := t :: c.aborted }, .abortWait t, false)
  | .abortWait t => if c.ended.contains t then some (c, .spawn, false) else none
  | .spawn => some ({ c with streamTask := some n }, .join n, true)
  -- the handle is taken back only if it is still this job's own
  | .join t =>
    if c.ended.contains t then
      some ({ c with streamTask := if c.streamTask = some t then none else c.streamTask },
        .returned, false)
    else none
  | .returned => none

/-! ### Commands -/

/-- The program counters of `execute_command`. -/
inductive ExecutePc where
  /-- The body up to the wait for the response. -/
  | submit
  /-- Awaiting the response. -/
  | wait (request : ℕ)
  /-- Returned with the response lines, or with an error. -/
  | returned (request : ℕ) (result : Option (List Text))
  deriving DecidableEq, Repr

/-- `execute_command` is at an await point. -/
def ExecutePc.suspended : ExecutePc → Bool
  | .submit => false
  | _ => true

/-- `execute_command`. -/
def advanceExecute (command : Text) (ch : Choice) (c : Core) :
    ExecutePc → Option (Core × ExecutePc)
  | .submit =>
    let r := c.requests.length
    let c := c.clearCancelled.newRequest command
    let c := { c with queuedRequests := c.queuedRequests ++ [r] }
    if c.queueOpen then some ({ c with channel := c.channel ++ [r] }, .wait r)
    else some (c, .returned r none)
  | .wait r =>
    if c.isFinished r then some (c, .returned r (some (c.linesOf r)))
    else if ch.timedOut then some (c.finishRequest r, .returned r none)
    else none
  | .returned _ _ => none

/-- The program counters of `command_queue_loop`. -/
inductive QueuePc where
  /-- Spawned. -/
  | start
  /-- The head of `command_queue_loop`. -/
  | top
  /-- Awaiting a queued command. -/
  | recv
  /-- Awaiting `cmd_lock`. -/
  | lockWait (request : ℕ)
  | locked (request : ℕ)
  /-- `send_command_bytes`: awaiting space, at most a second. -/
  | space (request : ℕ)
  /-- Tracking and writing the command. -/
  | send (request : ℕ)
  /-- Awaiting the write of the command. -/
  | writing (request : ℕ) (err : Option String)
  /-- Awaiting the end of the request. -/
  | finishWait (request : ℕ)
  | clear
  /-- The pause between commands. -/
  | sleep
  | returned
  deriving DecidableEq, Repr

/-- The queue loop is at an await point. -/
def QueuePc.suspended : QueuePc → Bool
  | .start | .recv | .lockWait _ | .space _ | .writing _ _ | .finishWait _ | .sleep
  | .returned => true
  | _ => false

/-- `command_queue_loop`, run by task `i`. -/
def advanceQueue (i : ℕ) (ch : Choice) (c : Core) : QueuePc → Option (Core × QueuePc)
  | .start => some (c, .top)
  | .top => some (if c.keepRunning then (c, .recv) else ({ c with queueOpen := false }, .returned))
  | .recv =>
    match c.channel with
    | [] => none
    | r :: channel =>
      let c := { c with
        channel := channel
        queuedRequests := c.queuedRequests.filter fun q => q != r }
      -- a command that cannot be processed is dropped: it ends without lines
      if !c.isOpen || c.isCancelled then some (c.finishRequest r, .top)
      else some ({ c with currentRequest := some r }, .lockWait r)
  | .lockWait r =>
    if c.cmdLock.isNone then some ({ c with cmdLock := some i }, .locked r) else none
  | .locked r =>
    if !c.isOpen then some (c.unlock, .clear)
    else if c.needsSpace (commandLine (c.commandOf r)) then some (c, .space r)
    else some (c, .send r)
  -- `send_command_bytes` sends after a second, space or not
  | .space r =>
    if !c.needsSpace (commandLine (c.commandOf r)) || ch.timedOut then some (c, .send r)
    else none
  | .send r =>
    some (c.sendTracked (.command r) (commandLine (c.commandOf r)) none ch.writeError,
      .writing r ch.writeError)
  | .writing r err => some (c.unlock, if err.isNone then .finishWait r else .clear)
  | .finishWait r => if c.isFinished r then some (c, .clear) else none
  | .clear => some ({ c with currentRequest := none }, .sleep)
  | .sleep => some (c, .top)
  | .returned => none

/-- The program counters of `execute_interactive_command`. -/
inductive InteractivePc where
  | start
  /-- Awaiting `cmd_lock`. -/
  | lockWait (request : ℕ)
  | locked (request : ℕ)
  /-- Awaiting the pending acks. -/
  | drainWait (request : ℕ)
  | begin (request : ℕ)
  /-- Awaiting space, at most a second. -/
  | space (request : ℕ)
  /-- Tracking and writing the command. -/
  | send (request : ℕ)
  /-- Awaiting the write of the command. -/
  | writing (request : ℕ) (err : Option String)
  /-- Awaiting the response. -/
  | wait (request : ℕ)
  | finish (request : ℕ) (result : Option (List Text))
  /-- Returned with the response lines, or with an error. -/
  | returned (result : Option (List Text))
  deriving DecidableEq, Repr

/-- The interactive command is at an await point. -/
def InteractivePc.suspended : InteractivePc → Bool
  | .lockWait _ | .drainWait _ | .space _ | .writing _ _ | .wait _ | .returned _ => true
  | _ => false

/-- `execute_interactive_command`, run by task `i`. -/
def advanceInteractive (i : ℕ) (command : Text) (ch : Choice) (c : Core) :
    InteractivePc → Option (Core × InteractivePc)
  | .start =>
    if c.isOpen then some (c.newRequest command, .lockWait c.requests.length)
    else some (c, .returned none)
  | .lockWait r =>
    if c.cmdLock.isNone then some ({ c with cmdLock := some i }, .locked r) else none
  -- nothing may be outstanding, so that every received line is the response
  | .locked r => some (c, if c.flow.pending.isEmpty then .begin r else .drainWait r)
  | .drainWait r => if c.flow.pending.isEmpty then some (c, .begin r) else none
  | .begin r =>
    let c := { c with interactiveRequest := some r }
    some (c, if c.needsSpace (commandLine command) then .space r else .send r)
  | .space r =>
    if !c.needsSpace (commandLine command) || ch.timedOut then some (c, .send r) else none
  | .send r =>
    some (c.sendTracked (.interactive r) (commandLine command) none ch.writeError,
      .writing r ch.writeError)
  | .writing r err => some (c, if err.isNone then .wait r else .finish r none)
  | .wait r =>
    if c.isFinished r then some (c, .finish r (some (c.linesOf r)))
    else if ch.timedOut then some (c, .finish r none)
    else none
  -- the slot is cleared and the lock given back on every path
  | .finish _ result =>
    some ({ c with interactiveRequest := none, cmdLock := none }, .returned result)
  | .returned _ => none

/-- The program counters of `set_hold`. -/
inductive HoldPc where
  | start
  /-- Awaiting the write of the realtime command. -/
  | writing (err : Option String)
  | returned
  deriving DecidableEq, Repr

/-- `set_hold` is at an await point. -/
def HoldPc.suspended : HoldPc → Bool
  | .start => false
  | _ => true

/-- `set_hold`. -/
def advanceHold (hold : Bool) (ch : Choice) (c : Core) : HoldPc → Option (Core × HoldPc)
  | .start =>
    let c := { c with isHolding := hold }.clearCancelled
    if c.isOpen then
      some (c.write .realtime [if hold then '!' else '~'] ch.writeError, .writing ch.writeError)
    else some (c, .returned)
  | .writing err =>
    -- the status is shown only behind a write that succeeded
    let desired : DeviceStatus := if hold then .hold else if c.jobRunning then .run else .idle
    some ({ c with state := { c.state with
        status := if err.isNone then desired else c.state.status } }, .returned)
  | .returned => none

/-! ### Connecting and disconnecting -/

/-- The counters of `connect` and `cleanup`. -/
inductive LinkPc where
  /-- The flags `cleanup` sets before it aborts the streaming task. -/
  | start
  | abort
  /-- Awaiting the end of the aborted streaming task. -/
  | abortWait (task : ℕ)
  | clear
  /-- `abort_background_tasks`. -/
  | stop
  /-- Awaiting the end of the command queue. -/
  | stopWait (task : ℕ)
  /-- Awaiting the closing of the transport. -/
  | closing
  | returned
  deriving DecidableEq, Repr

/-- `connect` or `cleanup` is at an await point. -/
def LinkPc.suspended : LinkPc → Bool
  | .abortWait _ | .stopWait _ | .closing | .returned => true
  | _ => false

/-- `connect` (from `stop` on) and `cleanup`; `n` is the number of the next task.  The
flag says whether a command queue is spawned.  The connection loop itself is left to
the environment, which opens the transport and feeds received bytes. -/
def advanceLink (n : ℕ) (connect : Bool) (c : Core) : LinkPc → Option (Core × LinkPc × Bool)
  | .start =>
    some ({ c with keepRunning := false, jobRunning := false, isCancelled := true }, .abort, false)
  | .abort =>
    match c.streamTask with
    | none => some (c, .clear, false)
    | some t =>
      let c := { c with streamTask := none }
      if c.ended.contains t then some (c, .clear, false)
      else some ({ c with aborted := t :: c.aborted }, .abortWait t, false)
  | .abortWait t => if c.ended.contains t then some (c, .clear, false) else none
  -- `cleanup` goes on to `abort_background_tasks`, with which `connect` starts
  | .clear => some ({ c with isCancelled := false, jobException := none }.resetFlow, .stop, false)
  | .stop =>
    match c.commandTask with
    | none => some ({ c with isOpen := false }, .closing, false)
    | some t =>
      let c := { c with commandTask := none, queueOpen := false, aborted := t :: c.aborted }
      some (c, .stopWait t, false)
  | .stopWait t =>
    if c.ended.contains t then some ({ c with isOpen := false }, .closing, false) else none
  | .closing =>
    if connect then
      some ({ c with
          keepRunning := true
          isCancelled := false
          jobRunning := false
          jobException := none
          channel := []
          queueOpen := true
          commandTask := some n }.resetFlow, .returned, true)
    else some (c, .returned, false)
  | .returned => none

/-! ### The session -/

/-- A task: which function it runs, and where it is. -/
inductive Body where
  | stream (job : Job) (pc : StreamPc)
  | cancel (emergency : Bool) (pc : CancelPc)
  | run (job : Job) (pc : RunPc)
  | execute (command : Text) (pc : ExecutePc)
  | queue (pc : QueuePc)
  | interactive (command : Text) (pc : InteractivePc)
  | hold (hold : Bool) (pc : HoldPc)
  | link (connect : Bool) (pc : LinkPc)
  deriving DecidableEq, Repr

/-- The task is at an await point. -/
def Body.suspended : Body → Bool
  | .stream _ pc => pc.suspended
  | .cancel _ pc => pc.suspended
  | .run _ pc => pc.suspended
  | .execute _ pc => pc.suspended
  | .queue pc => pc.suspended
  | .interactive _ pc => pc.suspended
  | .hold _ pc => pc.suspended
  | .link _ pc => pc.suspended

/-- Task `i` goes on to its next counter; `n` is the number of the next task.  The list
holds the task it spawns. -/
def advance (n i : ℕ) (ch : Choice) (c : Core) : Body → Option (Core × Body × List Body)
  | .stream job pc => (advanceStream i job ch c pc).map fun (c, pc) => (c, .stream job pc, [])
  | .cancel em pc => (advanceCancel i false em ch c pc).map fun (c, pc) => (c, .cancel em pc, [])
  | .run job pc => (advanceRun n job ch c pc).map fun (c, pc, spawned) =>
    (c, .run job pc, if spawned then [.stream job .start] else [])
  | .execute command pc =>
    (advanceExecute command ch c pc).map fun (c, pc) => (c, .execute command pc, [])
  | .queue pc => (advanceQueue i ch c pc).map fun (c, pc) => (c, .queue pc, [])
  | .interactive command pc =>
    (advanceInteractive i command ch c pc).map fun (c, pc) => (c, .interactive command pc, [])
  | .hold b pc => (advanceHold b ch c pc).map fun (c, pc) => (c, .hold b pc, [])
  | .link b pc => (advanceLink n b c pc).map fun (c, pc, spawned) =>
    (c, .link b pc, if spawned then [.queue .start] else [])

/-- An operation called from outside. -/
inductive Call where
  | run (job : Job)
  | runRaw (lines : List Text)
  | cancel (emergency : Bool)
  | execute (command : Text)
  | interactive (command : Text)
  | setHold (hold : Bool)
  | cleanup
  | connect
  deriving DecidableEq, Repr

/-- The lines `run_raw` keeps. -/
def rawLines (lines : List Text) : List Text := (lines.map trim).filter fun l => !l.isEmpty

/-- The task of a call. -/
def Call.body : Call → Body
  | .run job => .run job .begin
  | .runRaw lines =>
    let (gcode, realtime) := splitRealtimeCommands (rawLines lines)
    .run { lines := gcode } (.rawNext realtime)
  | .cancel emergency => .cancel emergency .start
  | .execute command => .execute command .submit
  | .interactive command => .interactive command .start
  | .setHold b => .hold b .start
  | .cleanup => .link false .start
  | .connect => .link true .stop

/-- The session: the shared state, its tasks, and the task that is between two await
points, if any. -/
structure Sys where
  core : Core
  tasks : List Body
  active : Option ℕ := none
  deriving DecidableEq, Repr

/-- What happens to a session. -/
inductive Label where
  /-- Someone calls an operation. -/
  | call (op : Call)
  /-- Task `i` goes on. -/
  | task (i : ℕ) (ch : Choice)
  /-- An aborted task is dropped. -/
  | drop (i : ℕ)
  /-- The reader task handles a chunk of received bytes. -/
  | rx (data : Bytes)
  /-- The status poll loop sends a poll. -/
  | poll (err : Option String)
  /-- The RX buffer size is set. -/
  | setRxBufferSize (size : ℕ)
  /-- The link goes up or down. -/
  | link (up : Bool)
  deriving DecidableEq, Repr

namespace Sys

/-- The task has neither ended nor been told to abort. -/
def alive (s : Sys) (i : ℕ) : Bool := !s.core.aborted.contains i && !s.core.ended.contains i

/-- Task `i` goes on to its next counter. -/
def advanceTask (i : ℕ) (ch : Choice) (s : Sys) : Option Sys :=
  match s.tasks[i]? with
  | none => none
  | some b =>
    if s.alive i && (s.active = some i || (s.active = none && b.suspended)) then
      (advance s.tasks.length i ch s.core b).map fun (c, b', spawned) =>
        { core := c
          tasks := s.tasks.set i b' ++ spawned
          active := if b'.suspended then none else some i }
    else none

/-- The future of an aborted task is dropped: its guards run. -/
def dropTask (i : ℕ) (s : Sys) : Option Sys :=
  if s.active = none && s.core.aborted.contains i && !s.core.ended.contains i then
    some { s with core := { s.core with
      ended := i :: s.core.ended
      cmdLock := if s.core.cmdLock = some i then none else s.core.cmdLock } }
  else none

/-- What is not a step of a task happens between two await points. -/
def outside (f : Core → Core) (s : Sys) : Option Sys :=
  if s.active = none then some { s with core := f s.core } else none

/-- The status poll loop, when it sends. -/
def pollStatus (err : Option String) (c : Core) : Core :=
  if c.isOpen && c.keepRunning && (c.config.pollStatusWhileRunning || !c.jobRunning) then
    c.write .realtime ['?'] err
  else c

/-- One step of the session. -/
def step : Label → Sys → Option Sys
  | .call op, s =>
    if s.active = none then
      some { s with tasks := s.tasks ++ [op.body], active := some s.tasks.length }
    else none
  | .task i ch, s => s.advanceTask i ch
  | .drop i, s => s.dropTask i
  | .rx data, s => s.outside (Core.handleRx data)
  | .poll err, s => s.outside (pollStatus err)
  | .setRxBufferSize size, s =>
    s.outside fun c => { c with flow := c.flow.setRxBufferSize size }
  | .link up, s => s.outside fun c => { c with isOpen := up }

end Sys

/-- Task `i` goes on `n` times, nothing failing or expiring. -/
def turns (i n : ℕ) : List Label := List.replicate n (.task i {})

/-- A job of two lines; in a small RX buffer the second has to wait for space. -/
def twoLines : Job := { lines := ["G1 X1".toList, "G1 X2".toList] }

end Raydriver
