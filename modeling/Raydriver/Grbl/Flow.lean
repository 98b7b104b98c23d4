import Raydriver.Core.Text
import Raydriver.Lib.Search

/-!
# GRBL character-counting flow control

`FlowControl` tracks how many bytes are outstanding against the device's RX
buffer and pulls `ok` and `error:` acknowledgements out of the raw byte stream
before the rest is split into lines.  `FlowInner` is the state behind its mutex;
every operation is one await-free critical section, so it is a function on
`FlowInner`.

## Main definitions

* `FlowInner` — the accounting and parsing state.
* `needsSpace`, `trackCommand`, `ackOkLocked`, `resetFlowControl` — the accounting.
* `findOkAck`, `findNullCorruptedOk`, `findSubslice` — the three searches.
* `extractAcksFromBuffer`, `splitLines`, `parseIncoming` — the parser.

Each loop of the parser takes the buffer length as its bound: every iteration
drains at least one byte.
-/

namespace Raydriver

/-- The RX buffer size of a standard Grbl 1.1 (`DEFAULT_GRBL_RX_BUFFER_SIZE`). -/
def defaultGrblRxBufferSize : ℕ := 127

/-- A command sent with buffer accounting, awaiting its ack. -/
structure PendingCommand where
  length : ℕ
  opIndex : Option ℤ
  command : Text
  deriving DecidableEq, Repr, Inhabited

/-- `GrblResponseType`. -/
inductive GrblResponseType where
  | ok
  | error
  | line
  deriving DecidableEq, Repr, Inhabited

/-- `GrblResponse`. -/
structure GrblResponse where
  rtype : GrblResponseType
  text : Text
  pending : Option PendingCommand
  deriving DecidableEq, Repr, Inhabited

/-- The state behind the mutex of `FlowControl`. -/
structure FlowInner where
  rxCount : ℕ := 0
  rxSize : Option ℕ := none
  statusBuffer : Bytes := []
  pending : List PendingCommand := []
  ackedSinceFlush : Bool := false
  drainedSinceFlush : Bool := false
  deriving DecidableEq, Repr, Inhabited

namespace FlowInner

/-! ### Accounting -/

/-- The RX buffer size in force. -/
def rxBufferSize (f : FlowInner) : ℕ := f.rxSize.getD defaultGrblRxBufferSize

/-- True when `needed` more bytes would overflow the RX buffer. -/
def needsSpace (f : FlowInner) (needed : ℕ) : Bool := f.rxCount + needed > f.rxBufferSize

/-- `set_rx_buffer_size`. -/
def setRxBufferSize (size : ℕ) (f : FlowInner) : FlowInner :=
  if size > 0 then { f with rxSize := some size } else f

/-- Enqueue a pending command and account for its bytes. -/
def trackCommand (length : ℕ) (opIndex : Option ℤ) (command : Text) (f : FlowInner) :
    FlowInner :=
  { f with
    pending := f.pending ++ [⟨length, opIndex, command⟩]
    rxCount := f.rxCount + length }

/-- Pop the oldest pending command and free its bytes. -/
def ackOkLocked (f : FlowInner) : FlowInner × Option PendingCommand :=
  match f.pending with
  | [] => (f, none)
  | p :: ps => ({ f with pending := ps, rxCount := f.rxCount - p.length }, some p)

/-- Reset the accounting without clearing the parse buffer. -/
def resetFlowControl (f : FlowInner) : FlowInner := { f with rxCount := 0, pending := [] }

/-- Reset all buffer state (cancel, reconnect, cleanup). -/
def reset (f : FlowInner) : FlowInner := { f.resetFlowControl with statusBuffer := [] }

/-- Take the two notification flags: was space freed, did the queue drain? -/
def flushNotifications (f : FlowInner) : FlowInner × Bool × Bool :=
  ({ f with ackedSinceFlush := false, drainedSinceFlush := false },
    f.ackedSinceFlush, f.drainedSinceFlush)

/-- The same accounting over another parse buffer. -/
def withBuffer (b : Bytes) (f : FlowInner) : FlowInner := { f with statusBuffer := b }

@[simp] theorem withBuffer_statusBuffer (b : Bytes) (f : FlowInner) :
    (f.withBuffer b).statusBuffer = b := rfl

@[simp] theorem withBuffer_withBuffer (b c : Bytes) (f : FlowInner) :
    (f.withBuffer b).withBuffer c = f.withBuffer c := rfl

@[simp] theorem withBuffer_self (f : FlowInner) : f.withBuffer f.statusBuffer = f := rfl

@[simp] theorem withBuffer_pending (b : Bytes) (f : FlowInner) :
    (f.withBuffer b).pending = f.pending := rfl

@[simp] theorem withBuffer_rxCount (b : Bytes) (f : FlowInner) :
    (f.withBuffer b).rxCount = f.rxCount := rfl

@[simp] theorem withBuffer_rxSize (b : Bytes) (f : FlowInner) :
    (f.withBuffer b).rxSize = f.rxSize := rfl

end FlowInner

/-! ### The three searches -/

/-- The length of a match of `ok\r*\n` at the head of the buffer. -/
def okAckLen : Bytes → Option ℕ
  | a :: b :: r =>
    let crs := (r.takeWhile (· == CR)).length
    if a = 'o'.toUInt8 ∧ b = 'k'.toUInt8 ∧ r[crs]? = some LF then some (2 + crs + 1) else none
  | _ => none

/-- `OK_ACK_RE.find`: start and end of the leftmost `ok\r*\n`. -/
def findOkAck (buf : Bytes) : Option (ℕ × ℕ) := Search.leftmost okAckLen buf

/-- The length of an `o`, one or more NULs, `k`, any CRs and LF at the head of the
buffer. -/
def nullOkLen : Bytes → Option ℕ
  | a :: r =>
    let nuls := (r.takeWhile (· == 0)).length
    let r' := r.drop (nuls + 1)
    let crs := (r'.takeWhile (· == CR)).length
    if a = 'o'.toUInt8 ∧ r[nuls]? = some 'k'.toUInt8 ∧ 0 < nuls ∧ r'[crs]? = some LF then
      some (1 + nuls + 1 + crs + 1)
    else none
  | _ => none

/-- Start and end of the first `ok` interspersed with NULs. -/
def findNullCorruptedOk (buf : Bytes) : Option (ℕ × ℕ) := Search.leftmost nullOkLen buf

/-- The position of the first window of the haystack equal to the needle. -/
def findSubslice (haystack needle : Bytes) : Option ℕ :=
  if needle.isEmpty || haystack.length < needle.length then none
  else
    (Search.leftmost (fun w => if needle.isPrefixOf w then some needle.length else none)
      haystack).map Prod.fst

/-- `Vec::drain(start..end)`: the buffer without that range. -/
def drain (start stop : ℕ) (buf : Bytes) : Bytes := buf.take start ++ buf.drop stop

/-! ### The parser -/

/-- What one iteration of a parsing loop hands on.  The source pushes the response
`toResponse` at once; the entry it popped for the acknowledgement is part of an
`ok` response and is dropped for an `error:`, so it is kept here. -/
inductive Extracted where
  /-- An acknowledgement, with the pending command popped for it. -/
  | ack (rtype : GrblResponseType) (text : Text) (popped : Option PendingCommand)
  /-- An informational line. -/
  | line (text : Text)
  deriving DecidableEq, Repr, Inhabited

/-- The response without the command it popped. -/
def Extracted.toResponse : Extracted → GrblResponse
  | .ack .ok text popped => ⟨.ok, text, popped⟩
  | .ack rtype text _ => ⟨rtype, text, none⟩
  | .line text => ⟨.line, text, none⟩

namespace FlowInner

/-- Account for one acknowledgement: pop its command and raise the flags. -/
def acknowledge (rtype : GrblResponseType) (text : Text) (f : FlowInner) :
    FlowInner × Extracted :=
  let (g, popped) := f.ackOkLocked
  ({ g with
      ackedSinceFlush := true
      drainedSinceFlush := g.drainedSinceFlush || g.pending.isEmpty },
    .ack rtype text popped)

/-- The loops that cut `ok`s out of the buffer: as long as `find` answers a range,
drain it and account for an `ok`. -/
def extractOks (find : Bytes → Option (ℕ × ℕ)) : ℕ → FlowInner → FlowInner × List Extracted
  | 0, f => (f, [])
  | n + 1, f =>
    match find f.statusBuffer with
    | none => (f, [])
    | some (start, stop) =>
      let (g, e) := (f.withBuffer (drain start stop f.statusBuffer)).acknowledge .ok "ok".toList
      let (h, es) := extractOks find n g
      (h, e :: es)

/-- The bytes that start an error line. -/
def errorMarker : Bytes := ascii "error:"

/-- The loop that cuts `error:` lines out of the buffer, searching from
`searchFrom` on.  A line that is not valid UTF-8 is dropped unacknowledged. -/
def extractErrors : ℕ → ℕ → FlowInner → FlowInner × List Extracted
  | 0, _, f => (f, [])
  | n + 1, searchFrom, f =>
    match findSubslice (f.statusBuffer.drop searchFrom) errorMarker with
    | none => (f, [])
    | some rel =>
      let start := searchFrom + rel
      match (f.statusBuffer.drop start).idxOf? LF with
      | none => (f, [])
      | some endRel =>
        let stop := start + endRel + 1
        let errorBytes := (f.statusBuffer.drop start).take (endRel + 1)
        let f := f.withBuffer (drain start stop f.statusBuffer)
        match fromUtf8 errorBytes with
        | none => extractErrors n searchFrom f
        | some error =>
          let (g, e) := f.acknowledge .error (trim error)
          let (h, es) := extractErrors n start g
          (h, e :: es)

/-- `extract_acks_from_buffer`: plain `ok`s, then NUL-corrupted ones, then errors. -/
def extractAcksFromBuffer (f : FlowInner) : FlowInner × List Extracted :=
  let (f, oks) := extractOks findOkAck f.statusBuffer.length f
  let (f, nuls) := extractOks findNullCorruptedOk f.statusBuffer.length f
  let (f, errs) := extractErrors f.statusBuffer.length 0 f
  (f, oks ++ nuls ++ errs)

/-- The lines of one newline-terminated message. -/
def handleMessage : List Text → FlowInner → FlowInner × List Extracted
  | [], f => (f, [])
  | line :: ls, f =>
    if line.isEmpty then handleMessage ls f
    else
      let (g, e) :=
        if line = "ok".toList then f.acknowledge .ok "ok".toList
        else if startsWith "error:".toList line then f.acknowledge .error line
        else (f, .line line)
      let (h, es) := handleMessage ls g
      (h, e :: es)

/-- The line-splitting loop of `parse_incoming`. -/
def splitLines : ℕ → FlowInner → FlowInner × List Extracted
  | 0, f => (f, [])
  | n + 1, f =>
    match f.statusBuffer.idxOf? LF with
    | none => (f, [])
    | some nl =>
      let messageBytes := f.statusBuffer.take (nl + 1)
      let f := f.withBuffer (f.statusBuffer.drop (nl + 1))
      match fromUtf8 messageBytes with
      | none => splitLines n f
      | some message =>
        let (g, es) := handleMessage (lines (trim message)) f
        let (h, es') := splitLines n g
        (h, es ++ es')

/-- One call of `parse_incoming`, with the popped entries kept. -/
def parseExtracted (data : Bytes) (f : FlowInner) : FlowInner × List Extracted :=
  let f := f.withBuffer (f.statusBuffer ++ data)
  let (f, acks) := f.extractAcksFromBuffer
  let (f, rest) := splitLines f.statusBuffer.length f
  (f, acks ++ rest)

/-- `parse_incoming`: the responses of one chunk of bytes. -/
def parseIncoming (data : Bytes) (f : FlowInner) : FlowInner × List GrblResponse :=
  let (f, es) := f.parseExtracted data
  (f, es.map Extracted.toResponse)

end FlowInner

end Raydriver
