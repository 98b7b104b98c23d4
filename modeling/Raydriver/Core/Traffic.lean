import Raydriver.Core.Text
import Raydriver.Lib.Journal

/-!
# Traffic

What a session does towards its transport, and the `raw_tx` events by which it says so.  A
line is handed to the transport with or without a newline behind it.

## Main definitions

* `Traffic` — an event, or a call of `transport.write`.
* `Traffic.entry` — its entry in the journal that pairs events with writes.
* `Traffic.delivered` — what goes out.
* `reported`, `realtimeTraffic` — a write that is announced.
-/

namespace Raydriver

open Journal

/-- What happens at the transport, and what is reported of it. -/
inductive Traffic where
  /-- `raw_tx`. -/
  | rawTx (line : Text)
  /-- `transport.write` of a line, with a newline behind it or not, that fails or not. -/
  | write (line : Text) (newline : Bool) (err : Option String)
  deriving DecidableEq, Repr

namespace Traffic

/-- The event announces the write. -/
def entry : Traffic → Entry Text
  | .rawTx line => .announced line
  | .write line _ _ => .done line

/-- The payload of a write that succeeds. -/
def delivered : Traffic → Option Text
  | .write line newline none => some (line ++ if newline then ['\n'] else [])
  | _ => none

end Traffic

/-- An event, and the write of a line. -/
def reported (event line : Text) (err : Option String) : List Traffic :=
  [.rawTx event, .write line true err]

/-- Realtime bytes, reported as they are. -/
def realtimeTraffic (command : Text) (err : Option String) : List Traffic :=
  [.rawTx command, .write command false err]

section Entries

variable (event line command : Text) (newline : Bool) (err : Option String)

theorem paired_reported :
    paired ((reported event line err).map Traffic.entry) = decide (event = line) := rfl

theorem paired_realtimeTraffic :
    paired ((realtimeTraffic command err).map Traffic.entry) = true := decide_eq_true rfl

theorem delivered_write : [Traffic.write line newline err].filterMap Traffic.delivered =
    if err.isNone then [line ++ if newline then ['\n'] else []] else [] := by
  cases err <;> rfl

theorem delivered_reported : (reported event line err).filterMap Traffic.delivered =
    if err.isNone then [line ++ ['\n']] else [] := by
  cases err <;> rfl

theorem delivered_realtimeTraffic : (realtimeTraffic command err).filterMap Traffic.delivered =
    if err.isNone then [command] else [] := by
  cases err
  · exact congrArg (fun t => [t]) (List.append_nil command)
  · rfl

end Entries

end Raydriver
