import Mathlib.Data.Rat.Init
import Raydriver.Core.Text

/-!
# Shared value types

Device status, errors and state as the sessions keep them.  Coordinates are
exact rationals.

## Main definitions

* `DeviceStatus`, `DeviceStatus.fromName` — the machine state of a status report.
* `DeviceError`, `DeviceState`, `SessionError`.
-/

namespace Raydriver

/-- `DeviceStatus`. -/
inductive DeviceStatus where
  | unknown
  | idle
  | run
  | hold
  | jog
  | alarm
  | door
  | check
  | home
  | sleep
  | tool
  | queue
  | lock
  | unlock
  | cycle
  | test
  deriving DecidableEq, Repr, Inhabited

/-- `to_ascii_uppercase` on one character. -/
def asciiUpper (c : Char) : Char := if 'a' ≤ c ∧ c ≤ 'z' then Char.ofNat (c.toNat - 32) else c

/-- The names of the states in a status report, in upper case. -/
def statusNames : List (Text × DeviceStatus) :=
  [("IDLE".toList, .idle), ("RUN".toList, .run), ("HOLD".toList, .hold), ("JOG".toList, .jog),
   ("ALARM".toList, .alarm), ("DOOR".toList, .door), ("CHECK".toList, .check),
   ("HOME".toList, .home), ("SLEEP".toList, .sleep), ("TOOL".toList, .tool),
   ("QUEUE".toList, .queue), ("LOCK".toList, .lock), ("UNLOCK".toList, .unlock),
   ("CYCLE".toList, .cycle), ("TEST".toList, .test)]

/-- `DeviceStatus::from_name`: unknown names map to `unknown`. -/
def DeviceStatus.fromName (name : Text) : DeviceStatus :=
  (statusNames.lookup (name.map asciiUpper)).getD .unknown

/-- `DeviceError`. -/
structure DeviceError where
  code : ℤ
  title : String
  description : String
  deriving DecidableEq, Repr, Inhabited

/-- A position in mm; entries may be unknown. -/
abbrev Pos := List (Option ℚ)

/-- The complete state of a device at a moment in time. -/
structure DeviceState where
  status : DeviceStatus := .unknown
  error : Option DeviceError := none
  machinePos : Pos := [none, none, none]
  workPos : Pos := [none, none, none]
  wco : Pos := [some 0, some 0, some 0]
  feedRate : Option ℤ := none
  spindleSpeed : Option ℤ := none
  bufferAvailable : Option ℤ := none
  bufferRxAvailable : Option ℤ := none
  deriving DecidableEq, Repr, Inhabited

/-- `SessionError`. -/
inductive SessionError where
  | connection (message : String)
  | timeout
  | device (message : Text)
  | bufferStall (message : Text)
  | other (message : String)
  deriving DecidableEq, Repr, Inhabited

/-- The text of an error, as `Display` prints it. -/
def SessionError.message : SessionError → Text
  | .connection message => message.toList
  | .timeout => "operation timed out".toList
  | .device message => message
  | .bufferStall message => "buffer stall: ".toList ++ message
  | .other message => message.toList

end Raydriver
