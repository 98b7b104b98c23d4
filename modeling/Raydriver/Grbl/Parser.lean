import Raydriver.Grbl.Errors

/-!
# Parsers for Grbl responses

Status reports, build info and G-code lines.  The regular expressions of the
source are written out as readers of a text from its head; a search tries every
start position in turn.  `\d` is read as the ASCII digits: the driver parses what
it captures as a number, which no other digit survives.

## Main definitions

* `parseState` — a status report folded into the device state.
* `parseOptInfo` — the RX buffer size of an `[OPT:...]` line.
* `stripGcodeComments`, `splitRealtimeCommands` — G-code lines.
-/

namespace Raydriver

/-! ### G-code lines -/

/-- Cut out every `(`, the text up to the next `)`, and that `)`. -/
def cutGroups : ℕ → Text → Text
  | 0, t => t
  | _ + 1, [] => []
  | n + 1, c :: t =>
    if c = '(' then
      match t.idxOf? ')' with
      | some i => cutGroups n (t.drop (i + 1))
      | none => c :: cutGroups n t
    else c :: cutGroups n t

/-- Strip comments: groups in parentheses and everything behind a `;`. -/
def stripGcodeComments (line : Text) : Text :=
  trim ((cutGroups line.length line).takeWhile fun c => c != ';')

example : stripGcodeComments "G1 (fast) X1 ; edge".toList = "G1  X1".toList := by decide

/-- The characters the firmware executes at once, past the RX buffer. -/
def grblRealtimeCommands : List Text := ["?".toList, "~".toList, "!".toList]

/-- Regular G-code lines and realtime commands, each in order. -/
def splitRealtimeCommands (lines : List Text) : List Text × List Text :=
  lines.partition fun line => !grblRealtimeCommands.contains line

/-! ### Readers -/

/-- A digit of ASCII; `\d` takes those of other scripts as well. -/
def isDigit (c : Char) : Bool := '0' ≤ c && c ≤ '9'

/-- The first start position at which the reader succeeds. -/
def search {α : Type} (read : Text → Option α) : Text → Option α
  | [] => read []
  | c :: t => (read (c :: t)).orElse fun _ => search read t

/-- `\d+`: the digits and the rest. -/
def readDigits (t : Text) : Option (Text × Text) :=
  let d := t.takeWhile isDigit
  if d.isEmpty then none else some (d, t.drop d.length)

/-- `-?\d+\.?\d*`, with the value of the number. -/
def readNumber (t : Text) : Option (ℚ × Text) :=
  let (sign, t) : ℚ × Text := match t with
    | '-' :: t => (-1, t)
    | t => (1, t)
  (readDigits t).map fun (d, t) =>
    let whole : ℚ := ((digitsFrom 0 d).getD 0 : ℕ)
    match t with
    | '.' :: t =>
      let f := t.takeWhile isDigit
      let frac : ℚ := ((digitsFrom 0 f).getD 0 : ℕ) / (10 ^ f.length : ℕ)
      (sign * (whole + frac), t.drop f.length)
    | t => (sign * whole, t)

/-- Up to `n` more numbers, each behind a comma. -/
def readNumbers : ℕ → Text → List ℚ
  | 0, _ => []
  | n + 1, ',' :: t =>
    match readNumber t with
    | some (v, t) => v :: readNumbers n t
    | none => []
  | _ + 1, _ => []

/-- A colon and two to four numbers separated by commas. -/
def readPosition : Text → Option (List ℚ)
  | ':' :: t => (readNumber t).bind fun (v, t) =>
    match readNumbers 3 t with
    | [] => none
    | vs => some (v :: vs)
  | _ => none

/-- `p`, digits, a comma and digits. -/
def readPair (p t : Text) : Option (Text × Text) :=
  (stripPrefix p t).bind fun t => (readDigits t).bind fun (a, t) =>
    match t with
    | ',' :: t => (readDigits t).map fun (b, _) => (a, b)
    | _ => none

/-- `str::parse::<i64>` on digits. -/
def parseI64 (t : Text) : Option ℤ :=
  (parseNat t).bind fun n => if n < 2 ^ 63 then some (n : ℤ) else none

/-! ### What the readers take -/

theorem readDigits_append {d t : Text} (hd : d.all isDigit = true) (hne : d.isEmpty = false)
    (ht : t.head?.all (fun c => !isDigit c) = true) : readDigits (d ++ t) = some (d, t) := by
  have hwhile : (d ++ t).takeWhile isDigit = d := by
    rw [List.takeWhile_append_of_pos (List.all_eq_true.mp hd)]
    cases t with
    | nil => exact List.append_nil d
    | cons c t =>
      have hc : isDigit c = false := by simpa using ht
      rw [List.takeWhile_cons, hc]
      exact List.append_nil d
  unfold readDigits
  dsimp only
  rw [hwhile, hne, List.drop_left]
  rfl

/-- What is read at the head of a text is found. -/
theorem search_of_read {α : Type} {read : Text → Option α} {t : Text} {a : α}
    (h : read t = some a) : search read t = some a := by
  cases t with
  | nil => exact h
  | cons c t =>
    unfold search
    rw [h]
    rfl

theorem stripPrefix_eq_some_iff {p t u : Text} : stripPrefix p t = some u ↔ t = p ++ u := by
  unfold stripPrefix
  constructor
  · intro h
    split_ifs at h with hp
    obtain ⟨v, rfl⟩ := List.isPrefixOf_iff_prefix.mp hp
    obtain rfl : v = u := by simpa using h
    rfl
  · rintro rfl
    rw [if_pos (List.isPrefixOf_iff_prefix.mpr (List.prefix_append p u)), List.drop_left]

theorem stripPrefix_append (p t : Text) : stripPrefix p (p ++ t) = some t :=
  stripPrefix_eq_some_iff.mpr rfl

/-! ### Build info -/

/-- `[OPT:`, letters, the planner size, the RX buffer size and `]`. -/
def readOpt (t : Text) : Option Text :=
  (stripPrefix "[OPT:".toList t).bind fun t =>
    let flags := t.takeWhile fun c => 'A' ≤ c && c ≤ 'Z'
    if flags.isEmpty then none
    else
      (stripPrefix ",".toList (t.drop flags.length)).bind fun t =>
        (readDigits t).bind fun (_, t) => (stripPrefix ",".toList t).bind fun t =>
          (readDigits t).bind fun (size, t) => (stripPrefix "]".toList t).map fun _ => size

/-- The RX buffer size reported by `$I`. -/
def parseOptInfo (line : Text) : Option ℤ := (search readOpt line).bind parseI64

example : parseOptInfo "[OPT:V,15,128]".toList = some 128 := by decide

/-! ### Status reports -/

/-- The status and, for an alarm only, the code behind the colon. -/
def parseStatusPart (statusPart : Text) : DeviceStatus × Option Text :=
  let name := statusPart.takeWhile fun c => c != ':'
  let status := DeviceStatus.fromName name
  let suffix := statusPart.drop name.length
  (status, if status = .alarm then suffix.tail? else none)

/-- The position of an attribute of that name; the third entry defaults to 0. -/
def parsePositionAttribute (attrib posType : Text) : Option Pos :=
  if startsWith (posType ++ ":".toList) attrib then
    (search readPosition attrib).map fun vs =>
      (if vs.length = 2 then vs ++ [0] else vs).map some
  else none

/-- `parse_feed_rate`. -/
def parseFeedRate (attrib : Text) : Option ℤ :=
  (search (readPair "FS:".toList) attrib).bind fun (feed, _) => parseI64 feed

/-- `parse_buffer_state`. -/
def parseBufferState (attrib : Text) : Option (ℤ × ℤ) :=
  (search (readPair "Bf:".toList) attrib).bind fun (available, rxAvailable) =>
    (parseI64 available).bind fun a => (parseI64 rxAvailable).map fun r => (a, r)

/-- `MM_PER_INCH`. -/
def mmPerInch : ℚ := 254 / 10

/-- `pos_from_inches`. -/
def posFromInches (pos : Pos) : Pos := pos.map fun v => v.map (· * mmPerInch)

/-- A position with `n` axes at least. -/
def padPos (pos : Pos) (n : ℕ) (default : ℚ) : Pos :=
  pos ++ List.replicate (n - pos.length) (some default)

/-- Every axis of the position is known. -/
def allKnown (pos : Pos) : Bool := pos.all Option.isSome

/-- Entry-wise combination of two positions. -/
def combinePos (f : ℚ → ℚ → ℚ) (a b : Pos) : Pos :=
  List.zipWith (fun u v => u.bind fun u => v.map (f u)) a b

/-- Complete the three positions by `MPos = WPos + WCO`. -/
def recalculatePositions (machinePos workPos wco : Pos) (mposFound wposFound wcoFound : Bool) :
    Pos × Pos × Pos :=
  let n := max (max (max machinePos.length workPos.length) wco.length) 3
  let machinePos := padPos machinePos n 0
  let workPos := padPos workPos n 0
  let wco := padPos wco n 0
  let wco :=
    if mposFound && wposFound && !wcoFound && allKnown machinePos && allKnown workPos then
      combinePos (· - ·) machinePos workPos
    else wco
  if mposFound && allKnown machinePos && allKnown wco then
    (machinePos, combinePos (· - ·) machinePos wco, wco)
  else if wposFound && allKnown workPos && allKnown wco then
    (combinePos (· + ·) workPos wco, workPos, wco)
  else (machinePos, workPos, wco)

/-- The state while the attributes of a report are read, and which positions were
among them. -/
structure ReportFold where
  state : DeviceState
  mposFound : Bool := false
  wposFound : Bool := false
  wcoFound : Bool := false

/-- One attribute of a report. -/
def applyAttribute (r : ReportFold) (attrib : Text) : ReportFold :=
  match parsePositionAttribute attrib "MPos".toList with
  | some p => { r with state.machinePos := p, mposFound := p.head?.bind id |>.isSome }
  | none =>
    match parsePositionAttribute attrib "WPos".toList with
    | some p => { r with state.workPos := p, wposFound := p.head?.bind id |>.isSome }
    | none =>
      match parsePositionAttribute attrib "WCO".toList with
      | some p => { r with state.wco := p, wcoFound := true }
      | none =>
        if startsWith "FS:".toList attrib then
          match parseFeedRate attrib with
          | some feed => { r with state.feedRate := some feed }
          | none => r
        else if startsWith "Bf:".toList attrib then
          match parseBufferState attrib with
          | some (available, rxAvailable) =>
            { r with
              state.bufferAvailable := some available
              state.bufferRxAvailable := some rxAvailable }
          | none => r
        else r

/-- The status part of a report applied to a state. -/
def applyStatusPart (statusPart : Text) (state : DeviceState) : DeviceState :=
  let (status, errorCode) := parseStatusPart statusPart
  let state := { state with status := status }
  match errorCode with
  | some code =>
    { state with
      error := some (if status = .alarm then alarmCodeToDeviceError code
        else errorCodeToDeviceError code) }
  | none => state

/-- `parse_state`: a status report `<status|attribute|...>` folded into a state. -/
def parseState (stateStr : Text) (default : DeviceState) (reportInInches : Bool) : DeviceState :=
  if startsWith "<".toList stateStr && decide (2 ≤ stateStr.length) &&
      (stateStr.getLast? == some '>') then
    let inner := stateStr.tail.dropLast
    let parts := (splitOn '|' inner).filter fun p => !p.isEmpty
    match parts with
    | [] => finish { state := default }
    | statusPart :: attribs =>
      finish (attribs.foldl applyAttribute { state := applyStatusPart statusPart default })
  else default
where
  finish (r : ReportFold) : DeviceState :=
    let s := r.state
    let m := if reportInInches && r.mposFound then posFromInches s.machinePos else s.machinePos
    let w := if reportInInches && r.wposFound then posFromInches s.workPos else s.workPos
    let o := if reportInInches && r.wcoFound then posFromInches s.wco else s.wco
    let (m, w, o) := recalculatePositions m w o r.mposFound r.wposFound r.wcoFound
    { s with machinePos := m, workPos := w, wco := o }

example : (parseState "<Hold:0|MPos:1.0,2.0,3.0|Bf:15,128>".toList {} false).status = .hold := by
  decide

end Raydriver
