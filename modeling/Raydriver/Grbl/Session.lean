import Raydriver.Grbl.Flow
import Raydriver.Grbl.Parser

/-!
# The shared state of a GRBL session

`SessionCore` is shared by all tasks of a session.  `Core` is its state: the
flags, the flow control, the device state, the requests and the slot of the
streaming task.  The functions of this file are the await-free operations on it,
the handling of received bytes foremost.

Two fields of `Core` are histories the source does not keep: `sent` lists what
was handed to the transport, and `owners` says, entry for entry, who tracked the
pending commands of the flow control (`dropped` collects the owners of entries
thrown away by a reset).

## Main definitions

* `Core` — the state shared by the tasks.
* `handleRx` — one chunk of received bytes.
* `startJob`, `sendTracked`, `resetFlow` — the operations the tasks are made of.
-/

namespace Raydriver

/-- The part of the configuration that steers the session; durations are left to the
schedule. -/
structure SessionConfig where
  pollStatusWhileRunning : Bool := false
  deadlockDetection : Bool := false
  rxBufferSizeOverride : ℤ := 0
  unansweredPollLimit : ℕ := 3
  pollResponseAttempts : ℕ := 10
  deriving DecidableEq, Repr

/-- The templates of the dialect that a cancelled job sends. -/
structure Dialect where
  safetyOffCommands : List Text := []
  emergencyStop : Option Text := none
  deriving DecidableEq, Repr

/-- Who writes to the transport: a streaming task (a job line or its deadlock
recovery), a task that runs `cancel`, a queued or an interactive request, or anyone
who sends realtime bytes. -/
inductive Origin where
  | job (task : ℕ)
  | recovery (task : ℕ)
  | safety (task : ℕ)
  | command (request : ℕ)
  | interactive (request : ℕ)
  | realtime
  deriving DecidableEq, Repr

/-- Bytes handed to the transport. -/
structure Sent where
  origin : Origin
  payload : Text
  deriving DecidableEq, Repr

/-- A newline-terminated line, as opposed to realtime bytes. -/
def Sent.isLine (e : Sent) : Bool := e.origin != .realtime

/-- A queued or interactive command (`RequestShared`). -/
structure Request where
  command : Text
  responseLines : List Text := []
  finished : Bool := false
  deriving DecidableEq, Repr

/-- `finish`. -/
def Request.finish (q : Request) : Request := { q with finished := true }

/-- The events of a session that the properties are about. -/
inductive SessionEvent where
  | jobFinished
  | commandDone (opIndex : ℤ)
  deriving DecidableEq, Repr

/-- The state of `SessionCore`.  Tasks and requests are named by their number. -/
structure Core where
  config : SessionConfig := {}
  dialect : Dialect := {}
  isOpen : Bool := true
  flow : FlowInner := {}
  state : DeviceState := {}
  keepRunning : Bool := true
  jobRunning : Bool := false
  isCancelled : Bool := false
  isHolding : Bool := false
  rawGrblStatus : DeviceStatus := .unknown
  deviceResponseCount : ℕ := 0
  consecutiveUnansweredPolls : ℕ := 0
  jobException : Option SessionError := none
  requests : List Request := []
  currentRequest : Option ℕ := none
  interactiveRequest : Option ℕ := none
  queuedRequests : List ℕ := []
  channel : List ℕ := []
  queueOpen : Bool := true
  reportInInches : Bool := false
  lastReportedOpIndex : ℤ := -1
  streamTask : Option ℕ := none
  commandTask : Option ℕ := none
  cmdLock : Option ℕ := none
  /-- Tasks that were told to abort. -/
  aborted : List ℕ := []
  /-- Tasks that have ended, by themselves or by being dropped. -/
  ended : List ℕ := []
  events : List SessionEvent := []
  sent : List Sent := []
  owners : List Origin := []
  dropped : List Origin := []
  deriving DecidableEq, Repr

namespace Core

/-! ### Writing -/

/-- `transport.write`: on success the bytes are on their way. -/
def write (origin : Origin) (payload : Text) (err : Option String) (c : Core) : Core :=
  { c with sent := c.sent ++ if err.isNone then [⟨origin, payload⟩] else [] }

/-- `track_command` for a payload. -/
def track (origin : Origin) (payload : Text) (opIndex : Option ℤ) (c : Core) : Core :=
  { c with
    flow := c.flow.trackCommand (utf8Len payload) opIndex (trimEnd payload)
    owners := c.owners ++ [origin] }

/-- Track a payload, then write it. -/
def sendTracked (origin : Origin) (payload : Text) (opIndex : Option ℤ) (err : Option String)
    (c : Core) : Core :=
  (c.track origin payload opIndex).write origin payload err

/-- The payload does not fit the space left. -/
def needsSpace (payload : Text) (c : Core) : Bool := c.flow.needsSpace (utf8Len payload)

/-- `reset_flow_control`. -/
def resetFlowControl (c : Core) : Core :=
  { c with
    flow := c.flow.resetFlowControl
    dropped := c.dropped ++ c.owners
    owners := [] }

/-- `flow.reset`. -/
def resetFlow (c : Core) : Core :=
  { c with
    flow := c.flow.reset
    dropped := c.dropped ++ c.owners
    owners := [] }

/-! ### Locks, flags and requests -/

/-- `cmd_lock` is free. -/
def unlock (c : Core) : Core := { c with cmdLock := none }

/-- The streaming task in the slot, if any, has ended. -/
def streamDone (c : Core) : Bool := c.streamTask.all fun t => c.ended.contains t

/-- Record a job exception unless there is one. -/
def raiseIfNone (e : SessionError) (c : Core) : Core :=
  { c with jobException := some (c.jobException.getD e) }

/-- Request `r` is finished. -/
def finishRequest (r : ℕ) (c : Core) : Core :=
  { c with requests := c.requests.modify r Request.finish }

/-- Finish all queued requests. -/
def drainQueue (c : Core) : Core :=
  { c with
    requests := c.queuedRequests.foldl (fun qs r => qs.modify r Request.finish) c.requests
    queuedRequests := [] }

/-- Request `r` is finished. -/
def isFinished (r : ℕ) (c : Core) : Bool := (c.requests[r]?).any Request.finished

/-- The lines collected for request `r`. -/
def linesOf (r : ℕ) (c : Core) : List Text := ((c.requests[r]?).map Request.responseLines).getD []

/-- The command of request `r`. -/
def commandOf (r : ℕ) (c : Core) : Text := ((c.requests[r]?).map Request.command).getD []

/-- A new request, numbered `c.requests.length`. -/
def newRequest (command : Text) (c : Core) : Core :=
  { c with requests := c.requests ++ [{ command := command }] }

/-- Clear the cancellation flag, but not while a job runs or winds down. -/
def clearCancelled (c : Core) : Core :=
  { c with isCancelled := if !c.jobRunning && c.streamDone then false else c.isCancelled }

/-- `machine in ALARM`. -/
def isAlarm (c : Core) : Bool := c.state.status == .alarm

/-- The exception of an alarm that the streaming task notices. -/
def machineAlarmError : SessionError := .device "Machine entered ALARM state during job.".toList

/-- Record the alarm as the job exception unless there is one. -/
def raiseOnAlarm (c : Core) : Core :=
  { c with jobException :=
      if c.isAlarm then some (c.jobException.getD machineAlarmError) else c.jobException }

/-- `is_grbl_idle_or_desynced`. -/
def isGrblIdleOrDesynced (c : Core) : Bool :=
  c.state.status == .idle || c.rawGrblStatus == .idle || c.rawGrblStatus == .hold ||
    c.state.bufferAvailable.any fun v =>
      decide (0 < c.flow.rxBufferSize) && decide ((c.flow.rxBufferSize : ℤ) ≤ v)

/-- `device_stopped_responding`. -/
def deviceStoppedResponding (c : Core) : Bool :=
  decide (c.config.unansweredPollLimit ≤ c.consecutiveUnansweredPolls)

/-- `mark_device_unresponsive`. -/
def markDeviceUnresponsive (c : Core) : Core :=
  { c with jobException := some (.device
      "Device stopped responding during job (no reply to status polls).".toList) }

/-- `start_job`. -/
def startJob (c : Core) : Core :=
  let c := { c with
    isCancelled := false
    jobRunning := true
    isHolding := false
    lastReportedOpIndex := -1
    jobException := none
    consecutiveUnansweredPolls := 0 }
  let c := c.resetFlowControl
  { c with
    state := { c.state with
      error := none
      status := if c.state.status = .run ∨ c.state.status = .alarm then c.state.status else .run } }

/-! ### Received lines -/

/-- The request that collects the device's output: the interactive one before the one
taken from the queue. -/
def respondingRequest (c : Core) : Option ℕ :=
  match c.interactiveRequest with
  | some r => some r
  | none => c.currentRequest

/-- Append a line to the responding request, unless it is finished; an acknowledgement
finishes it. -/
def collect (line : Text) (finish : Bool) (c : Core) : Core :=
  { c with requests :=
      match c.respondingRequest with
      | none => c.requests
      | some r => c.requests.modify r fun q =>
        if q.finished then q
        else { q with responseLines := q.responseLines ++ [line], finished := finish } }

/-- The first error wins. -/
def setError (e : DeviceError) (c : Core) : Core :=
  { c with state := { c.state with error := some (c.state.error.getD e) } }

/-- The progress events up to an op index. -/
def progressEvents (opIndex : ℤ) (c : Core) : List SessionEvent :=
  (List.range (opIndex - c.lastReportedOpIndex).toNat).map fun k =>
    .commandDone (c.lastReportedOpIndex + 1 + k)

/-- `handle_ok`. -/
def handleOk (pending : Option PendingCommand) (c : Core) : Core :=
  let c := { c with deviceResponseCount := c.deviceResponseCount + 1 }.collect "ok".toList true
  match if c.jobRunning then pending.bind PendingCommand.opIndex else none with
  | some op => { c with events := c.events ++ c.progressEvents op, lastReportedOpIndex := op }
  | none => c

/-- A device error or alarm during a job halts the stream. -/
def haltJob (message : Text) (c : Core) : Core :=
  { c with jobException := if c.jobRunning then some (.device message) else c.jobException }

/-- The part of a text between its first and its second colon, trimmed. -/
def codeOf (text : Text) : Text := trim (((splitOn ':' text)[1]?).getD [])

/-- `handle_error`. -/
def handleError (text : Text) (c : Core) : Core :=
  let c := { c with deviceResponseCount := c.deviceResponseCount + 1 }
  let c := c.setError (errorCodeToDeviceError (codeOf text))
  (c.collect text true).haltJob ("GRBL error: ".toList ++ text)

/-- An idle device reports its whole RX buffer as available. -/
def detectRxBufferSize (state : DeviceState) (c : Core) : Core :=
  { c with flow :=
      match state.bufferRxAvailable with
      | some total =>
        if state.status = .idle ∧ c.config.rxBufferSizeOverride ≤ 0 ∧ 0 < total ∧
            total ≠ c.flow.rxBufferSize then
          c.flow.setRxBufferSize total.toNat
        else c.flow
      | none => c.flow }

/-- The status shown while a job runs and while a hold is requested. -/
def shownStatus (c : Core) (status : DeviceStatus) : DeviceStatus :=
  let status := if c.jobRunning ∧ status = .idle then .run else status
  if c.isHolding ∧ status ≠ .alarm then .hold else status

/-- `handle_status_report`. -/
def handleStatusReport (report : Text) (c : Core) : Core :=
  let state := parseState report c.state c.reportInInches
  let c := { c with
    deviceResponseCount := c.deviceResponseCount + 1
    rawGrblStatus := state.status }
  let c := c.detectRxBufferSize state
  { c with state := { state with status := c.shownStatus state.status } }

/-- A status report of which a part is missing. -/
def isFragment (line : Text) : Bool :=
  (startsWith "<".toList line && line.getLast? != some '>') ||
    (containsText "Pos:".toList line && line.contains '|' && !startsWith "<".toList line)

/-- The RX buffer size an `[OPT:...]` line reports, unless it is overridden. -/
def applyOptInfo (line : Text) (c : Core) : Core :=
  { c with flow :=
      match parseOptInfo line with
      | some size =>
        if c.config.rxBufferSizeOverride ≤ 0 then c.flow.setRxBufferSize size.toNat else c.flow
      | none => c.flow }

/-- `handle_line`. -/
def handleLine (line : Text) (c : Core) : Core :=
  if isFragment line then c
  else if startsWith "<".toList line && line.getLast? == some '>' then
    c.handleStatusReport (trim line)
  else
    let c := c.collect line false
    match stripPrefix "ALARM:".toList line with
    | some code =>
      (c.setError (alarmCodeToDeviceError (trim code))).haltJob ("GRBL ALARM: ".toList ++ line)
    | none => if startsWith "[OPT:".toList line then c.applyOptInfo line else c

/-- `handle_response`: by the kind of the response. -/
def handleResponse (c : Core) (r : GrblResponse) : Core :=
  match r.rtype with
  | .ok => c.handleOk r.pending
  | .error => c.handleError r.text
  | .line => c.handleLine r.text

/-- The flow control behind a chunk whose acknowledgements popped `n` entries. -/
def popped (flow : FlowInner) (n : ℕ) (c : Core) : Core :=
  { c with flow := flow, owners := c.owners.drop n }

/-- The wake-up of the tasks that await the flow control. -/
def notified (c : Core) : Core := { c with flow := c.flow.flushNotifications.1 }

/-- `handle_rx`: one chunk of bytes.  Lines are handled before acknowledgements. -/
def handleRx (data : Bytes) (c : Core) : Core :=
  let (flow, es) := c.flow.parseExtracted data
  let responses := es.map Extracted.toResponse
  let isLine (r : GrblResponse) : Bool := r.rtype == .line
  let acks := responses.filter fun r => !isLine r
  ((responses.filter isLine ++ acks).foldl handleResponse (c.popped flow acks.length)).notified

end Core

end Raydriver
