import Raydriver.Core.Splitter
import Raydriver.Grbl.Tasks

/-!
# The shared state of a ping-pong session

`SimpleCore`, `SmoothieCore` and `MarlinCore` send one command at a time and wait for
its acknowledgement.  They are built alike: a list of unanswered commands, of which
the oldest owns the next acknowledgement, a lock around each exchange, and a run loop
over the lines of a job.  This file has their shared state and the await-free
operations on it; what the three do differently is a match on the firmware.

`SimpleCore` and `SmoothieCore` keep one slot instead of a queue: `pending` is a list
of at most one command there.  Three fields are histories the source does not keep:
`sent` lists what was handed to the transport, `received` counts the newline-terminated
messages handled, and `finishedBy` says which of them finished a command.

## Main definitions

* `Firmware` — which session it is.
* `Core` — the state shared by the tasks.
* `finishPending`, `collectForPending`, `resolvePending` — the unanswered commands.
* `handleLine`, `handleRx` — received lines and bytes.
-/

namespace Raydriver.PingPong

/-- `SimpleCore`, `SmoothieCore` and `MarlinCore`. -/
inductive Firmware where
  | simple
  | smoothie
  | marlin
  deriving DecidableEq, Repr

/-- Who writes to the transport: `ping_pong`, with the number of its command, a safety
shutdown, the stop of a `cancel`, or anyone who sends realtime bytes. -/
inductive Origin where
  | command (task cmd : ℕ)
  | safety (task : ℕ)
  | stop (task : ℕ)
  | realtime
  deriving DecidableEq, Repr

/-- Bytes handed to the transport. -/
structure Sent where
  origin : Origin
  payload : Text
  deriving DecidableEq, Repr

/-- One sent command awaiting its acknowledgement. -/
structure PendingCmd where
  lines : List Text := []
  finished : Bool := false
  /-- The received message that finished it. -/
  finishedBy : Option ℕ := none
  deriving DecidableEq, Repr

namespace PendingCmd

/-- A line of the response is collected. -/
def addLine (line : Text) (q : PendingCmd) : PendingCmd := { q with lines := q.lines ++ [line] }

/-- The command is finished. -/
def finish (q : PendingCmd) : PendingCmd := { q with finished := true }

/-- An acknowledgement in message `n`, with a final response line. -/
def answer (n : ℕ) (last : Option Text) (q : PendingCmd) : PendingCmd :=
  if q.finished then q
  else { lines := q.lines ++ last.toList, finished := true, finishedBy := some n }

/-- A further response line. -/
def collect (line : Text) (q : PendingCmd) : PendingCmd :=
  if q.finished then q else q.addLine line

end PendingCmd

/-- The state of a session.  Tasks and commands are named by their number. -/
structure Core where
  pollStatusWhileRunning : Bool := false
  dialect : Dialect := {}
  isOpen : Bool := true
  connected : Bool := true
  state : DeviceState := {}
  keepRunning : Bool := true
  jobRunning : Bool := false
  isCancelled : Bool := false
  isHolding : Bool := false
  reportInInches : Bool := false
  lineBuffer : Bytes := []
  cmds : List PendingCmd := []
  pending : List ℕ := []
  jobException : Option SessionError := none
  lastReportedOpIndex : ℤ := -1
  cmdLock : Option ℕ := none
  events : List SessionEvent := []
  sent : List Sent := []
  received : ℕ := 0
  deriving DecidableEq, Repr

/-! ### Marlin's lines -/

namespace Marlin

/-- `char::is_alphanumeric` on ASCII, which is what a firmware prints. -/
def isAlphanumeric (c : Char) : Bool := c.isAlphanum

/-- `is_ok`: an `ok`, also one with temperatures. -/
def isOk (line : Text) : Bool :=
  match stripPrefix "ok".toList (trim line) with
  | none => false
  | some rest => !rest.head?.any isAlphanumeric

/-- `is_error`. -/
def isError (line : Text) : Bool := startsWith "Error:".toList (trim line)

/-- `parse_error_message`. -/
def parseErrorMessage (line : Text) : Text :=
  (search (fun t => (stripPrefix "Error:".toList t).bind fun message =>
    if message.isEmpty then none else some (trim message)) line).getD []

/-- A label and a number with an optional sign. -/
def readCoordinate (label t : Text) : Option (ℚ × Text) :=
  (stripPrefix label t).bind fun t =>
    match t with
    | '+' :: '-' :: _ => none
    | '+' :: t => readNumber t
    | t => readNumber t

/-- `\s+`. -/
def readSpace (t : Text) : Option Text :=
  if t.head?.any isWhitespace then some (t.dropWhile isWhitespace) else none

/-- The coordinates of a position report that starts here. -/
def readPosition (t : Text) : Option (ℚ × ℚ × ℚ) :=
  (readCoordinate "X:".toList t).bind fun (x, t) => (readSpace t).bind fun t =>
    (readCoordinate "Y:".toList t).bind fun (y, t) => (readSpace t).bind fun t =>
      (readCoordinate "Z:".toList t).map fun (z, _) => (x, y, z)

/-- `parse_m114_line`. -/
def parseM114Line (line : Text) : Option (ℚ × ℚ × ℚ) := search readPosition line

/-- `is_m114_position`. -/
def isM114Position (line : Text) : Bool := (parseM114Line line).isSome

end Marlin

/-! ### The differences -/

namespace Firmware

/-- An acknowledgement of success. -/
def isOk : Firmware → Text → Bool
  | .marlin, line => Marlin.isOk line
  | _, line => line == "ok".toList

/-- An acknowledgement of failure. -/
def isError : Firmware → Text → Bool
  | .marlin, line => Marlin.isError line
  | _, line => startsWith "error:".toList line

/-- The line of an `ok` that a command keeps. -/
def okLine : Firmware → Text → Option Text
  | .simple, _ => none
  | .smoothie, _ => some "ok".toList
  | .marlin, line => some line

/-- The device error behind an error line. -/
def deviceError : Firmware → Text → DeviceError
  | .marlin, line => ⟨-1, "Device Error", String.ofList (Marlin.parseErrorMessage line)⟩
  | _, line => errorCodeToDeviceError (Raydriver.Core.codeOf line)

/-- Whose error it is, in the exception of a job. -/
def errorPrefix : Firmware → Text
  | .simple => "GRBL ".toList
  | _ => "Device ".toList

/-- What `cancel` sends: a soft reset, Ctrl+C, or a quick stop. -/
def stopPayload : Firmware → Text
  | .simple => ['\x18']
  | .smoothie => ['\x03']
  | .marlin => "M410\n".toList

/-- The command of a raw line of a job. -/
def jobLine : Firmware → Text → Text
  | .marlin, rawLine => trim rawLine
  | _, rawLine => trim (stripGcodeComments rawLine)

/-- The run loop stops on an alarm. -/
def checksAlarm : Firmware → Bool
  | .marlin => false
  | _ => true

/-- There is one slot for an unanswered command, not a queue. -/
def oneSlot : Firmware → Bool
  | .marlin => false
  | _ => true

/-- The text of the error of an exchange on a closed transport. -/
def closedMessage : Firmware → String
  | .smoothie => "Transport not connected"
  | _ => "Serial transport not connected"

end Firmware

namespace Core

/-! ### Writing and locking -/

/-- `transport.write`: on success the bytes are on their way. -/
def write (origin : Origin) (payload : Text) (err : Option String) (c : Core) : Core :=
  { c with sent := c.sent ++ if err.isNone then [⟨origin, payload⟩] else [] }

/-- Task `i` takes `cmd_lock`. -/
def lock (i : ℕ) (c : Core) : Core := { c with cmdLock := some i }

/-- `cmd_lock` is free. -/
def unlock (c : Core) : Core := { c with cmdLock := none }

/-! ### Unanswered commands -/

/-- A new command, numbered `c.cmds.length`, behind the unanswered ones; with one slot
it takes the slot. -/
def enqueue (fw : Firmware) (c : Core) : Core :=
  { c with
    cmds := c.cmds ++ [{}]
    pending := if fw.oneSlot then [c.cmds.length] else c.pending ++ [c.cmds.length] }

/-- Apply `f` to the oldest unanswered command. -/
def onFront (f : PendingCmd → PendingCmd) (c : Core) : Core :=
  { c with cmds := c.pending.head?.elim c.cmds fun id => c.cmds.modify id f }

/-- `finish_pending`. -/
def finishPending (last : Option Text) (c : Core) : Core :=
  c.onFront (PendingCmd.answer c.received last)

/-- `collect_for_pending`. -/
def collectForPending (line : Text) (c : Core) : Core := c.onFront (PendingCmd.collect line)

/-- `resolve_pending`. -/
def resolvePending (c : Core) : Core :=
  { c with
    cmds := c.pending.foldl (fun qs id => qs.modify id PendingCmd.finish) c.cmds
    pending := [] }

/-- The end of an exchange: drop the entry of the command. -/
def dropPending (fw : Firmware) (id : ℕ) (c : Core) : Core :=
  if fw.oneSlot then c.resolvePending else { c with pending := c.pending.filter fun q => q != id }

/-- Command `id` is finished. -/
def isFinished (id : ℕ) (c : Core) : Bool := (c.cmds[id]?).any PendingCmd.finished

/-- The lines collected for command `id`. -/
def linesOf (id : ℕ) (c : Core) : List Text := ((c.cmds[id]?).map PendingCmd.lines).getD []

/-! ### Received lines -/

/-- The first error wins. -/
def setError (e : DeviceError) (c : Core) : Core :=
  { c with state := { c.state with error := some (c.state.error.getD e) } }

/-- A device error or alarm during a job halts the stream. -/
def haltJob (message : Text) (c : Core) : Core :=
  { c with jobException := if c.jobRunning then some (.device message) else c.jobException }

/-- `handle_error_line`. -/
def handleErrorLine (fw : Firmware) (line : Text) (c : Core) : Core :=
  ((c.setError (fw.deviceError line)).finishPending (some line)).haltJob
    (fw.errorPrefix ++ "error: ".toList ++ line)

/-- `handle_alarm`. -/
def handleAlarm (fw : Firmware) (code line : Text) (c : Core) : Core :=
  let c := c.setError (alarmCodeToDeviceError code)
  let c := { c with state := { c.state with status := .alarm } }
  (c.finishPending (some line)).haltJob (fw.errorPrefix ++ "ALARM: ".toList ++ line)

/-- The status shown while a job runs and while a hold is requested. -/
def shownStatus (c : Core) (status : DeviceStatus) : DeviceStatus :=
  let status := if c.jobRunning ∧ status = .idle then .run else status
  if c.isHolding ∧ status ≠ .alarm then .hold else status

/-- `handle_status_report`; `SmoothieCore` always reads millimetres. -/
def handleStatusReport (fw : Firmware) (report : Text) (c : Core) : Core :=
  let state := parseState report c.state (fw == .simple && c.reportInInches)
  { c with state := { state with status := c.shownStatus state.status } }

/-- `handle_position_report`. -/
def handlePositionReport (line : Text) (c : Core) : Core :=
  match Marlin.parseM114Line line with
  | none => c
  | some (x, y, z) =>
    { c with state := { c.state with
        machinePos := [some x, some y, some z]
        workPos := [some x, some y, some z]
        status := if c.state.status = .unknown then .idle else c.state.status } }

/-- A line that is no acknowledgement, in `SimpleCore` and `SmoothieCore`. -/
def handleGrblLine (fw : Firmware) (line : Text) (c : Core) : Core :=
  if startsWith "<".toList line && line.getLast? == some '>' then c.handleStatusReport fw line
  else
    match stripPrefix "ALARM:".toList line with
    | some code => c.handleAlarm fw (trim code) line
    | none =>
      -- the banner answers the handshake of `SimpleCore`
      if fw == .simple && (startsWith "Grbl ".toList line || startsWith "GrblHAL ".toList line)
      then c
      else c.collectForPending line

/-- A line that is no acknowledgement, in `MarlinCore`. -/
def handleMarlinLine (line : Text) (c : Core) : Core :=
  if Marlin.isM114Position line then (c.handlePositionReport line).collectForPending line
  else c.collectForPending line

/-- `handle_line`. -/
def handleLine (fw : Firmware) (c : Core) (line : Text) : Core :=
  if fw.isOk line then c.finishPending (fw.okLine line)
  else if fw.isError line then c.handleErrorLine fw line
  else if fw == .marlin then c.handleMarlinLine line
  else c.handleGrblLine fw line

/-- The lines of one newline-terminated message. -/
def handleMessage (fw : Firmware) (c : Core) (message : Bytes) : Core :=
  let c := (lineTexts message).foldl (handleLine fw) c
  { c with received := c.received + 1 }

/-- `handle_rx`: one chunk of bytes.  All complete messages are cut off the line buffer
before the first is handled. -/
def handleRx (fw : Firmware) (data : Bytes) (c : Core) : Core :=
  let (buffer, messages) := cutMessages data c.lineBuffer
  messages.foldl (handleMessage fw) { c with lineBuffer := buffer }

/-! ### The operations the tasks are made of -/

/-- `start_job`. -/
def startJob (c : Core) : Core :=
  { c with
    isCancelled := false
    jobRunning := true
    isHolding := false
    lastReportedOpIndex := -1
    jobException := none
    state := { c.state with status := .run } }

/-- Clear the cancellation flag, but not while a job runs. -/
def clearCancelled (c : Core) : Core :=
  { c with isCancelled := if c.jobRunning then c.isCancelled else false }

/-- The flags a `cancel` sets first; it wakes the task that waits for an
acknowledgement. -/
def beginCancel (c : Core) : Core :=
  { ({ c with isCancelled := true, jobRunning := false, isHolding := false }).resolvePending with
    lineBuffer := [] }

/-- Op progress fires when the op index changes. -/
def reportOp (opIndex : Option ℤ) (c : Core) : Core :=
  match opIndex with
  | none => c
  | some op =>
    if op = c.lastReportedOpIndex then c
    else { c with lastReportedOpIndex := op, events := c.events ++ [.commandDone op] }

end Core

end Raydriver.PingPong
