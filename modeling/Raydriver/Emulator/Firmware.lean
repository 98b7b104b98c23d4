import Raydriver.Emulator.Words
import Mathlib.Data.List.Sort

/-!
# The emulated GRBL firmware

`GrblEmulator` takes bytes, queues lines, executes them while the planner has room, and
runs the planned blocks tick by tick.  Each of its methods is a function on its state; what
it writes is appended to a log, where an acknowledgement carries the number of the line it
answers.

## Main definitions

* `Firmware` — the state of `GrblEmulator`.
* `feedByte`, `softReset`, `feedHold`, `cycleResume`, `statusReport` — the serial side.
* `executeLine`, `execGcode`, `execMotion`, `execProbe`, `execJog`, `execSystem` — one line.
* `drainPendingLines`, `tick`, `finishBlock` — the protocol loop.
* `Event`, `step` — what happens to the emulator.

The mock transport, the splitting of output into fragments and the clock are not part of
the model; a tick is given its time.  Where an operation on floats raises, the call ends
there.
-/

namespace Raydriver.Emulator

open PyFloat

/-- `RX_BUFFER_SIZE`. -/
def rxBufferSize : ℤ := 128

/-- `PLANNER_BLOCKS`. -/
def plannerBlocks : ℕ := 15

/-- `LINE_BUFFER_SIZE`. -/
def lineBufferSize : ℕ := 70

/-! ### The state -/

/-- The value of a setting. -/
inductive Setting (F : Type) where
  | int (v : ℤ)
  | float (v : F)
  deriving DecidableEq, Repr

/-- A position. -/
structure Vec (F : Type) where
  x : F
  y : F
  z : F
  deriving DecidableEq, Repr

namespace Vec

variable {F : Type}

/-- `f` on each axis. -/
def map (f : F → F) (v : Vec F) : Vec F := ⟨f v.x, f v.y, f v.z⟩

/-- `f` on each axis of two vectors. -/
def zipWith (f : F → F → F) (v w : Vec F) : Vec F := ⟨f v.x w.x, f v.y w.y, f v.z w.z⟩

/-- The axes in the order X, Y, Z. -/
def toList (v : Vec F) : List F := [v.x, v.y, v.z]

end Vec

/-- One planner entry: motion, dwell, homing or probe motion. -/
structure Block (F : Type) where
  start : Vec F
  target : Vec F
  feed : F
  baseSeconds : F
  isJog : Bool := false
  isDwell : Bool := false
  isHome : Bool := false
  isProbe : Bool := false
  probeTouch : Option (Vec F) := none
  /-- The number of the line that planned it, for the log only. -/
  line : ℕ
  deriving DecidableEq, Repr

/-- `_state`. -/
inductive MachineState where
  | idle
  | run
  | jog
  | home
  | hold
  | alarm
  deriving DecidableEq, Repr, Inhabited

/-- The serial side. -/
structure RxBuffer where
  line : Text := []
  lineOverflow : Bool := false
  pendingLines : List Text := []
  rxUsed : ℤ := 0
  rxOverrun : Bool := false
  deriving DecidableEq, Repr, Inhabited

/-- `_modal`. -/
structure Modal where
  motion : Option Text := none
  distance : Text := "G90".toList
  units : Text := "G21".toList
  plane : Text := "G17".toList
  feedMode : Text := "G94".toList
  spindle : Text := "M5".toList
  coolant : Text := "M9".toList
  deriving DecidableEq, Repr, Inhabited

/-- What the words of a line set besides the motion. -/
structure Modes (F : Type) where
  modal : Modal := {}
  activeWcs : Text := "G54".toList
  wcs : List (Text × Vec F)
  wcoDirty : Bool := true
  feed : F
  spindle : ℤ := 0
  deriving DecidableEq, Repr

/-- A write to the transport, with the number of the line that it acknowledges. -/
structure Output where
  data : Text
  line : Option ℕ := none
  deriving DecidableEq, Repr, Inhabited

/-- The state of `GrblEmulator`. -/
structure Firmware (F : Type) where
  rx : RxBuffer := {}
  state : MachineState := .idle
  holdRequested : Bool := false
  planner : List (Block F) := []
  currentBlock : Option (Block F) := none
  blockElapsed : F
  mpos : Vec F
  plannedPos : Vec F
  modes : Modes F
  settings : List (Text × Setting F)
  probeTouch : Option (Vec F) := none
  lastPrb : Vec F × ℤ
  reportCount : ℕ := 0
  welcomed : Bool := false
  lastTick : Option F := none
  speedFactor : F
  silent : Bool := false
  /-- What was written. -/
  log : List Output := []
  /-- The lines taken from the queue so far. -/
  executed : List Text := []
  deriving DecidableEq, Repr

section Methods

variable {F : Type} [PyFloat F]

/-- A setting as a float. -/
def Setting.toFloat : Setting F → F
  | .int v => ofInt v
  | .float v => v

/-- The factor from the units of a line to millimetres. -/
def Modes.scale (m : Modes F) : F := if m.modal.units = "G20".toList then lit "25.4" else lit "1.0"

/-- `DEFAULT_SETTINGS`. -/
def defaultSettings : List (Text × Setting F) :=
  let float (s : String) : Setting F := .float (lit s)
  [("0", .int 10), ("1", .int 25), ("2", .int 0), ("3", .int 0), ("4", .int 0), ("5", .int 0),
    ("6", .int 0), ("10", .int 3), ("11", float "0.020"), ("12", float "0.002"), ("13", .int 0),
    ("20", .int 0), ("21", .int 0), ("22", .int 0), ("23", .int 0), ("24", float "250.0"),
    ("25", float "500.0"), ("26", .int 250), ("27", float "1.000"), ("30", float "1000.0"),
    ("31", float "0.0"), ("32", .int 0), ("100", float "250.000"), ("101", float "250.000"),
    ("102", float "250.000"), ("110", float "500.000"), ("111", float "500.000"),
    ("112", float "500.000"), ("120", float "10.000"), ("121", float "10.000"),
    ("122", float "10.000"), ("130", float "400.000"), ("131", float "300.000"),
    ("132", float "100.000")].map fun (key, value) => (key.toList, value)

/-- The origin. -/
def Vec.zero : Vec F := ⟨lit "0.0", lit "0.0", lit "0.0"⟩

/-- `GrblEmulator(mock, speed_factor)`. -/
def Firmware.new (speedFactor : F) : Firmware F where
  blockElapsed := lit "0.0"
  mpos := .zero
  plannedPos := .zero
  modes :=
    { wcs := ["G54", "G55", "G56", "G57", "G58", "G59"].map fun slot => (slot.toList, .zero)
      feed := lit "0.0" }
  settings := defaultSettings
  lastPrb := (.zero, 0)
  speedFactor := speedFactor

/-- `d[key]`, for the keys that are there. -/
def lookup {α : Type} (key : Text) (default : α) (d : List (Text × α)) : α :=
  ((d.find? fun e => e.1 = key).map Prod.snd).getD default

/-- `d[key] = value`. -/
def insert {α : Type} (key : Text) (value : α) (d : List (Text × α)) : List (Text × α) :=
  if d.any fun e => e.1 = key then d.map fun e => if e.1 = key then (key, value) else e
  else d ++ [(key, value)]

namespace Firmware

/-- The value of a setting, 0 if there is none. -/
def setting (s : Firmware F) (key : String) : Setting F := lookup key.toList (.int 0) s.settings

/-- `self.settings[key] == 0`. -/
def settingIsZero (s : Firmware F) (key : String) : Bool :=
  match s.setting key with
  | .int v => v = 0
  | .float v => eq v (ofInt 0)

/-- `_wco`. -/
def wco (s : Firmware F) : Vec F := lookup s.modes.activeWcs .zero s.modes.wcs

/-- `_to_report`. -/
def toReport (s : Firmware F) (v : F) : F :=
  if s.settingIsZero "13" then v else div v (lit "25.4")

/-- `_out`. -/
def write (data : Text) (s : Firmware F) : Firmware F := { s with log := s.log ++ [⟨data, none⟩] }

/-- `_ack` for the line numbered `n`. -/
def ack (n : ℕ) (data : Text) (s : Firmware F) : Firmware F :=
  { s with log := s.log ++ [⟨data, some n⟩] }

/-- The line `n` is answered by `ok`. -/
def ackOk (n : ℕ) (s : Firmware F) : Firmware F := s.ack n "ok\r\n".toList

/-- The line `n` is answered by an error. -/
def ackError (n : ℕ) (code : ℤ) (s : Firmware F) : Firmware F :=
  s.ack n ("error:".toList ++ intText code ++ "\r\n".toList)

/-- `WELCOME`. -/
def welcomeText : Text := "Grbl 1.1h ['$' for help]\r\n".toList

/-- What an alarm and a soft reset clear. -/
def clear (s : Firmware F) : Firmware F :=
  { s with
    planner := []
    currentBlock := none
    rx := { rxOverrun := s.rx.rxOverrun }
    holdRequested := false
    plannedPos := s.mpos }

/-- `_set_alarm`. -/
def setAlarm (code : ℤ) (message : Option Text) (s : Firmware F) : Firmware F :=
  let s := { s with state := .alarm }.clear.write
    ("ALARM:".toList ++ intText code ++ "\r\n".toList)
  match message with
  | some message => s.write message
  | none => s

/-! ### The serial side -/

/-- `_soft_reset`. -/
def softReset (s : Firmware F) : Firmware F :=
  let wasMoving := s.currentBlock.isSome || !s.planner.isEmpty ||
    s.state = .run || s.state = .jog || s.state = .home || s.state = .hold
  let t := s.clear.write welcomeText
  if wasMoving || s.state = .alarm then
    { t with state := .alarm }.write "[MSG:'$H'|'$X' to unlock]\r\n".toList
  else { t with state := .idle }

/-- `_feed_hold`: a jog is cancelled. -/
def feedHold (s : Firmware F) : Firmware F :=
  match s.currentBlock with
  | none => s
  | some block =>
    let s := { s with holdRequested := true, state := .hold }
    if block.isJog then { s with currentBlock := none, planner := [], plannedPos := s.mpos } else s

/-- `_cycle_resume`. -/
def cycleResume (s : Firmware F) : Firmware F :=
  if s.state = .hold then
    { s with
      holdRequested := false
      state := if s.currentBlock.isSome || !s.planner.isEmpty then .run else .idle }
  else s

/-- The `state` property. -/
def stateText (s : Firmware F) : Text :=
  match s.state with
  | .idle => "Idle".toList
  | .run => "Run".toList
  | .jog => "Jog".toList
  | .home => "Home".toList
  | .hold => "Hold:0".toList
  | .alarm => "Alarm".toList

/-- Texts with a separator between them. -/
def join (sep : Char) (ts : List Text) : Text := (ts.intersperse [sep]).flatten

/-- `",".join(_fmt(self._to_report(v)) for v in vec)`. -/
def vecText (s : Firmware F) (v : Vec F) : Text :=
  join ',' (v.toList.map fun c => fixed 3 (s.toReport c))

/-- The buffer field of a status report. -/
def bufferField (s : Firmware F) : Text :=
  "Bf:".toList ++ intText ((plannerBlocks : ℤ) - s.planner.length) ++ [','] ++
    intText (rxBufferSize - Max.max s.rx.rxUsed 0)

/-- The fields of a status report; `&` raises on a float and `round` on an infinity. -/
def reportFields (s : Firmware F) : Option (List Text) :=
  match s.setting "10" with
  | .float _ => none
  | .int mask => do
    let position :=
      if mask % 2 = 1 then "MPos:".toList ++ s.vecText s.mpos
      else "WPos:".toList ++ s.vecText (s.mpos.zipWith sub s.wco)
    let buffer := if mask / 2 % 2 = 1 then [s.bufferField] else []
    let speeds ← match s.currentBlock with
      | some block =>
        if block.isDwell || block.isHome then some []
        else (round s.modes.feed).map fun feed =>
          ["FS:".toList ++ intText feed ++ [','] ++ intText s.modes.spindle]
      | none => some []
    let wco :=
      if s.modes.wcoDirty || s.reportCount % 10 = 1 then ["WCO:".toList ++ s.vecText s.wco] else []
    some (position :: buffer ++ speeds ++ wco)

/-- `_status_report`. -/
def statusReport (s : Firmware F) : Firmware F :=
  let s := { s with reportCount := s.reportCount + 1 }
  match s.reportFields with
  | none => s
  | some fields =>
    -- the offset is in the report whenever the flag is set
    { s with modes.wcoDirty := false }.write
      (['<'] ++ s.stateText ++ ['|'] ++ join '|' fields ++ ">\r\n".toList)

/-- A newline ends the line that was received. -/
def endLine (s : Firmware F) : Firmware F :=
  let line := s.rx.line
  let s := { s with rx.line := [], rx.rxUsed := s.rx.rxUsed - line.length }
  if s.rx.lineOverflow then
    { s with rx.lineOverflow := false }.write "error:1\r\n".toList
  else if line.isEmpty then s
  else
    { s with
      rx.pendingLines := s.rx.pendingLines ++ [line]
      rx.rxUsed := s.rx.rxUsed + (line.length + 1) }

/-- A character of a line. -/
def takeChar (char : Char) (s : Firmware F) : Firmware F :=
  if s.rx.line.length ≥ lineBufferSize - 1 then { s with rx.lineOverflow := true }
  else
    let s := { s with rx.line := s.rx.line ++ [char], rx.rxUsed := s.rx.rxUsed + 1 }
    if s.rx.rxUsed > rxBufferSize then { s with rx.rxOverrun := true } else s

/-- The first byte finds the controller booting. -/
def greet (s : Firmware F) : Firmware F :=
  if s.welcomed then s else { s with welcomed := true }.write welcomeText

/-- `_feed_byte`. -/
def feedByte (byte : UInt8) (s : Firmware F) : Firmware F :=
  if s.silent then s
  else
    let s := s.greet
    let char := Char.ofNat byte.toNat
    if byte = 0x18 then s.softReset
    else if char = '?' then s.statusReport
    else if char = '~' then s.cycleResume
    else if char = '!' then s.feedHold
    else if 0x84 ≤ byte ∧ byte ≤ 0x8B then s
    else if byte = 0x0A ∨ byte = 0x0D then s.endLine
    else s.takeChar char

/-! ### One line -/

/-- `_motion_duration`: seconds at speed factor 1. -/
def motionDuration (start target : Vec F) (feed : F) : F :=
  let d := dist (sub start.x target.x) (sub start.y target.y) (sub start.z target.z)
  if eq d (ofInt 0) then lit "0.0" else div d (div (PyFloat.max feed (lit "1.0")) (lit "60.0"))

/-- What the words of a motion line say. -/
structure MotionWords (F : Type) where
  distance : Text
  scale : F
  useMachine : Bool := false
  motion : Option Text
  feed : F
  x : Option F := none
  y : Option F := none
  z : Option F := none

/-- One word of a motion line. -/
def MotionWords.read (m : MotionWords F) (w : Word F) : MotionWords F :=
  if w.letter = 'G' then
    if isIn w.value ["0", "1", "2", "3"] then
      { m with motion := some ('G' :: intText (trunc w.value)) }
    else if isIn w.value ["38.2"] then { m with motion := some "G38.2".toList }
    else if isIn w.value ["53"] then { m with useMachine := true }
    else if isIn w.value ["90"] then { m with distance := "G90".toList }
    else if isIn w.value ["91"] then { m with distance := "G91".toList }
    else if isIn w.value ["20"] then { m with scale := lit "25.4" }
    else if isIn w.value ["21"] then { m with scale := lit "1.0" }
    else m
  else if w.letter = 'F' then { m with feed := mul w.value m.scale }
  else if w.letter = 'X' then { m with x := some (mul w.value m.scale) }
  else if w.letter = 'Y' then { m with y := some (mul w.value m.scale) }
  else if w.letter = 'Z' then { m with z := some (mul w.value m.scale) }
  else m

/-- `_resolve_motion`: the target, if there is one, the feed and whether an axis is named. -/
def resolveMotion (words : List (Word F)) (defaultMotion : Option Text) (s : Firmware F) :
    Option (Vec F) × F × Bool :=
  let m := words.foldl MotionWords.read
    { distance := s.modes.modal.distance
      scale := s.modes.scale
      motion := s.modes.modal.motion
      feed := s.modes.feed }
  match m.motion.or defaultMotion with
  | none => (none, m.feed, false)
  | some motion =>
    -- relative to where the planner will have got to
    let axis (base offset : F) : Option F → F
      | none => base
      | some word =>
        if motion = "G38.2".toList ∨ m.distance = "G91".toList then add base word
        else add word (if m.useMachine then lit "0.0" else offset)
    (some ⟨axis s.plannedPos.x s.wco.x m.x, axis s.plannedPos.y s.wco.y m.y,
      axis s.plannedPos.z s.wco.z m.z⟩, m.feed, m.x.isSome || m.y.isSome || m.z.isSome)

/-- Append a block that ends at `target`. -/
def plan (block : Block F) (s : Firmware F) : Firmware F :=
  { s with planner := s.planner ++ [block], plannedPos := block.target }

/-- `_check_soft_limits`: a target outside the travel raises an alarm. -/
def checkSoftLimits (n : ℕ) (target : Vec F) (s : Firmware F) : Firmware F :=
  if s.settingIsZero "20" || s.settingIsZero "22" then s
  else
    let beyond (v : F) (key : String) : Bool :=
      lt v (lit "-0.000001") || lt (add (s.setting key).toFloat (lit "0.000001")) v
    if beyond target.x "130" || beyond target.y "131" || beyond target.z "132" then
      (s.setAlarm 2 none).ackError n 5
    else s

/-- `_exec_probe`. -/
def execProbe (n : ℕ) (target : Vec F) (feed : F) (s : Firmware F) : Firmware F :=
  let s := s.checkSoftLimits n target
  if s.state = .alarm then s
  else
    let meets (a b contact : F) : Bool :=
      let lo := if lt b a then b else a
      let hi := PyFloat.max a b
      le (sub lo (lit "0.000000001")) contact && le contact (add hi (lit "0.000000001"))
    let touch := s.probeTouch.filter fun c =>
      meets s.mpos.x target.x c.x || meets s.mpos.y target.y c.y || meets s.mpos.z target.z c.z
    let stop := touch.getD target
    s.plan
      { start := s.plannedPos
        target := stop
        feed := feed
        baseSeconds := motionDuration s.plannedPos stop feed
        isProbe := true
        probeTouch := touch
        line := n }

/-- `_exec_motion`: an error code, or whether the caller acknowledges the line. -/
def execMotion (n : ℕ) (motionValue : F) (words : List (Word F)) (s : Firmware F) :
    Firmware F × Except ℤ Bool :=
  let (target, feed, hasAxis) := s.resolveMotion words none
  let withMotion (s : Firmware F) : Firmware F :=
    { s with modes.modal.motion := some ('G' :: intText (trunc motionValue)) }
  if isIn motionValue ["38.2"] then
    match target, hasAxis with
    | some target, true => (s.execProbe n target feed, .ok false)
    | _, _ => (s, .error 33)
  else
    match target, hasAxis with
    | some target, true =>
      if isIn motionValue ["1"] && le feed (ofInt 0) then (s, .error 22)
      else
        let s := s.checkSoftLimits n target
        if s.state = .alarm then (s, .ok false)
        else
          let s := withMotion s
          let rapid := PyFloat.max (PyFloat.max (s.setting "110").toFloat (s.setting "111").toFloat)
            (lit "1.0")
          let feed := if isIn motionValue ["0"] then rapid else feed
          if !isIn motionValue ["0"] && isIn motionValue ["2", "3"] &&
              !words.any fun w => w.letter = 'I' || w.letter = 'J' || w.letter = 'R' then
            (s, .error 35)
          else
            (s.plan
              { start := s.plannedPos
                target := target
                feed := feed
                baseSeconds := motionDuration s.plannedPos target feed
                line := n }, .ok true)
    | _, _ =>
      -- a modal line such as "G1 F600" only updates the state
      if isIn motionValue ["1"] && le feed (ofInt 0) && s.modes.modal.motion = some "G1".toList then
        (s, .error 22)
      else (withMotion s, .ok true)

/-- What `_exec_gcode` collects from the words. -/
structure Collected (F : Type) where
  motionPending : Option F := none
  dwell : Option F := none
  wcsSet : Option F := none
  lValue : Option F := none

/-- One word of a G-code line; unsupported ones raise error 20. -/
def execWord (words : List (Word F)) (w : Word F) (m : Modes F) (c : Collected F) :
    Option (Modes F × Collected F) :=
  let name (c : Char) : Text := c :: intText (trunc w.value)
  if w.letter = 'G' then
    if isIn w.value ["0", "1", "2", "3", "38.2"] then
      some (m, { c with motionPending := some w.value })
    else if isIn w.value ["4"] then
      some (m, { c with dwell := some ((firstValue 'P' words).getD (lit "0.0")) })
    else if isIn w.value ["10"] then
      some (m, { c with lValue := firstValue 'L' words, wcsSet := firstValue 'P' words })
    else if isIn w.value ["17", "18", "19"] then some ({ m with modal.plane := name 'G' }, c)
    else if isIn w.value ["20", "21"] then some ({ m with modal.units := name 'G' }, c)
    else if isIn w.value ["90", "91"] then some ({ m with modal.distance := name 'G' }, c)
    else if isIn w.value ["93", "94"] then some ({ m with modal.feedMode := name 'G' }, c)
    else if isIn w.value ["54", "55", "56", "57", "58", "59"] then
      some ({ m with activeWcs := name 'G', wcoDirty := true }, c)
    else if isIn w.value ["28", "30", "92", "53"] then some (m, c)
    else none
  else if w.letter = 'M' then
    if isIn w.value ["3", "4", "5"] then
      let spindle :=
        if isIn w.value ["5"] then 0 else trunc ((firstValue 'S' words).getD (ofInt 0))
      some ({ m with modal.spindle := name 'M', spindle := spindle }, c)
    else if isIn w.value ["8", "9"] then some ({ m with modal.coolant := name 'M' }, c)
    else if isIn w.value ["0", "1", "2"] then some (m, c)
    else none
  else if w.letter = 'F' then some ({ m with feed := mul w.value m.scale }, c)
  else if w.letter = 'S' then some ({ m with spindle := trunc w.value }, c)
  else some (m, c)

/-- The loop over the words, and whether it was left with error 20. -/
def execWords (words : List (Word F)) :
    List (Word F) → Modes F → Collected F → Modes F × Collected F × Bool
  | [], m, c => (m, c, false)
  | w :: ws, m, c =>
    match execWord words w m c with
    | none => (m, c, true)
    | some (m, c) => execWords words ws m c

/-- `G10 L2`: the offset of a coordinate system. -/
def setWcs (words : List (Word F)) (slot : F) (m : Modes F) : Modes F :=
  let value (letter : Char) : F :=
    ((words.filter fun w => w.letter = letter).getLast?.map fun w => mul w.value m.scale).getD
      (lit "0.0")
  { m with
    wcs := insert ('G' :: intText (53 + trunc slot)) ⟨value 'X', value 'Y', value 'Z'⟩ m.wcs
    wcoDirty := true }

/-- `G10 L2` of a line, if it has one. -/
def applyWcs (words : List (Word F)) (c : Collected F) (m : Modes F) : Modes F :=
  match c.wcsSet with
  | none => m
  | some slot => if c.lValue.any fun l => isIn l ["2"] then setWcs words slot m else m

/-- The dwell of a line, if it has one. -/
def planDwell (n : ℕ) (dwell : Option F) (s : Firmware F) : Firmware F :=
  match dwell with
  | none => s
  | some seconds =>
    let block : Block F :=
      { start := s.mpos
        target := s.mpos
        feed := s.modes.feed
        baseSeconds := seconds
        isDwell := true
        line := n }
    { s with planner := s.planner ++ [block] }

/-- The motion of a line, if it has one, and the acknowledgement. -/
def runMotion (n : ℕ) (motionPending : Option F) (words : List (Word F)) (s : Firmware F) :
    Firmware F × Option ℤ :=
  match motionPending with
  | none => (s.ackOk n, none)
  | some motion =>
    match s.execMotion n motion words with
    | (s, .error code) => (s, some code)
    | (s, .ok true) => (s.ackOk n, none)
    -- the line is acknowledged by its block, or was by the alarm
    | (s, .ok false) => (s, none)

/-- `_exec_gcode`, and the code of the error it raises. -/
def execGcode (n : ℕ) (words : List (Word F)) (s : Firmware F) : Firmware F × Option ℤ :=
  let (m, c, refused) := execWords words words s.modes {}
  if refused then ({ s with modes := m }, some 20)
  else
    let s := { s with modes := applyWcs words c m }
    (s.planDwell n c.dwell).runMotion n c.motionPending words

/-- `_exec_jog`. -/
def execJog (n : ℕ) (words : List (Word F)) (s : Firmware F) : Firmware F :=
  if s.state = .alarm then s.ackError n 9
  else
    match s.resolveMotion words (some "G1".toList) with
    | (some target, feed, true) =>
      (s.plan
        { start := s.plannedPos
          target := target
          feed := feed
          baseSeconds := motionDuration s.plannedPos target feed
          isJog := true
          line := n }).ackOk n
    | _ => s.ackError n 16

/-- `_SETTING_RE`: the key and the value of `$key=value`. -/
def readSetting (stripped : Text) : Option (Text × Text) :=
  (stripPrefix ['$'] stripped).bind fun t =>
    (splitOnce '=' t).filter fun (key, _) => !key.isEmpty

/-- `float(raw_value) if "." in raw_value else int(raw_value)`. -/
def readValue (raw : Text) : Option (Setting F) :=
  if '.' ∈ raw then (parse raw).map Setting.float else (pyInt raw).map Setting.int

/-- `$H`, also with words behind it. -/
def isHoming (stripped : Text) : Bool := stripped = "$H".toList || startsWith "$H ".toList stripped

/-- One line of `$$`. -/
def settingLine (entry : Text × Setting F) : Text :=
  let value := match entry.2 with
    | .int v => intText v
    | .float v => fixed 3 v
  ['$'] ++ entry.1 ++ ['='] ++ value ++ "\r\n".toList

/-- `[` and `]` around a line. -/
def bracketed (t : Text) : Text := ['['] ++ t ++ "]\r\n".toList

/-- What a `$` query prints, but for its `ok`. -/
def queryLines (stripped : Text) (s : Firmware F) : Option (List Text) :=
  if stripped = "$$".toList then
    some ((s.settings.insertionSort fun a b => (pyInt a.1).getD 0 ≤ (pyInt b.1).getD 0).map
      settingLine)
  else if stripped = "$I".toList then
    some [bracketed "VER:1.1h.EMULATOR:".toList,
      bracketed ("OPT:V,".toList ++ intText plannerBlocks ++ [','] ++ intText rxBufferSize)]
  else if stripped = "$G".toList then
    let m := s.modes.modal
    some [bracketed (join ' ' [s.modes.activeWcs, m.plane, m.units, m.distance, m.feedMode,
      m.spindle, m.coolant, "T0".toList, 'F' :: fixed 3 s.modes.feed,
      'S' :: intText s.modes.spindle])]
  else if stripped = "$#".toList then
    some ((["G54", "G55", "G56", "G57", "G58", "G59"].map fun slot =>
        bracketed (slot.toList ++ [':'] ++ s.vecText (lookup slot.toList .zero s.modes.wcs))) ++
      [bracketed "G28:0.000,0.000,0.000".toList, bracketed "G30:0.000,0.000,0.000".toList,
        bracketed "G92:0.000,0.000,0.000".toList, bracketed "TLO:0.000".toList,
        bracketed ("PRB:".toList ++ s.vecText s.lastPrb.1 ++ [':'] ++ intText s.lastPrb.2)])
  else none

/-- `_exec_system`. -/
def execSystem (n : ℕ) (stripped : Text) (s : Firmware F) : Firmware F :=
  match s.queryLines stripped with
  | some ts => (ts.foldl (fun s t => s.write t) s).ackOk n
  | none =>
    if stripped = "$X".toList then
      let t := { s with state := .idle }
      (if s.state = .alarm then t.write "[MSG:Caution: Unlocked]\r\n".toList else t).ackOk n
    else if isHoming stripped then
      if s.settingIsZero "22" then s.ackError n 5
      else
        let feed := (s.setting "25").toFloat
        (s.plan
          { start := s.plannedPos
            target := .zero
            feed := feed
            baseSeconds := motionDuration s.plannedPos .zero feed
            isHome := true
            line := n }).ackOk n
    else
      match readSetting stripped with
      | none => s.ackError n 20
      | some (key, raw) =>
        match readValue raw with
        | none => s.ackError n 5
        | some value =>
          if s.settings.any fun e => e.1 = key then
            { s with settings := insert key value s.settings }.ackOk n
          else s.ackError n 20

/-- `_execute_line`, for the line numbered `n`. -/
def executeLine (n : ℕ) (raw : Text) (s : Firmware F) : Firmware F :=
  let words : List (Word F) := parseWords raw
  let stripped := upper (strip raw)
  if words.isEmpty ∧ stripped.isEmpty then s.ackOk n
  else if startsWith "$J=".toList stripped then s.execJog n words
  else if startsWith "$".toList stripped then s.execSystem n stripped
  else if s.state = .alarm then s.ackError n 9
  else
    match s.execGcode n words with
    | (s, some code) => s.ackError n code
    | (s, none) => s

/-! ### The protocol loop -/

/-- `_plan_line`: does the line consume planner space? -/
def producesMotion (F : Type) [PyFloat F] (raw : Text) : Bool :=
  startsWith "$J=".toList (upper (strip raw)) ||
    (parseWords (F := F) raw).any fun w =>
      w.letter = 'G' && isIn w.value ["0", "1", "2", "3", "4", "38.2"]

/-- The next line that the planner has room for, and the state once it is taken. -/
def nextLine (s : Firmware F) : Option (Text × Firmware F) :=
  match s.rx.pendingLines with
  | [] => none
  | line :: rest =>
    if producesMotion F line && s.planner.length ≥ plannerBlocks then none
    else
      some (line, { s with
        rx.pendingLines := rest
        rx.rxUsed := s.rx.rxUsed - (line.length + 1)
        executed := s.executed ++ [line] })

/-- `_drain_pending_lines`, with the number of lines in the queue. -/
def drainLoop : ℕ → Firmware F → Firmware F
  | 0, s => s
  | k + 1, s =>
    match s.nextLine with
    | none => s
    | some (line, t) =>
      let u := t.executeLine s.executed.length line
      if u.state = .alarm then u else drainLoop k u

/-- `_drain_pending_lines`. -/
def drainPendingLines (s : Firmware F) : Firmware F := drainLoop s.rx.pendingLines.length s

/-- `_report_probe`. -/
def reportProbe (success : Bool) (s : Firmware F) : Firmware F :=
  let flag : ℤ := if success then 1 else 0
  { s with lastPrb := (s.mpos, flag) }.write
    (bracketed ("PRB:".toList ++ s.vecText s.mpos ++ [':'] ++ intText flag))

/-- `_finish_block`. -/
def finishBlock (block : Block F) (s : Firmware F) : Firmware F :=
  if block.isHome then { s with state := .idle }
  else
    match block.probeTouch with
    | some touch => ({ s with mpos := touch }.reportProbe true).ackOk block.line
    | none =>
      if block.isProbe then
        ((s.reportProbe false).ackOk block.line).setAlarm 4
          (some "[MSG:Probe fail - Probe did not contact within travel]\r\n".toList)
      else s

/-- The next block begins, or the machine comes to rest. -/
def startBlock (s : Firmware F) : Firmware F :=
  if s.currentBlock.isNone && !s.holdRequested && s.state ≠ .alarm then
    match s.planner with
    | block :: rest =>
      let s := { s with currentBlock := some block, planner := rest, blockElapsed := lit "0.0" }
      let moves := !eq block.feed (ofInt 0) && !(block.isDwell || block.isHome)
      let s := if moves then { s with modes.feed := block.feed } else s
      { s with state := if block.isJog then .jog else if block.isHome then .home else .run }
    | [] => if s.state = .run ∨ s.state = .jog ∨ s.state = .home then { s with state := .idle } else s
  else s

/-- `_block_duration`. -/
def blockDuration (block : Block F) (s : Firmware F) : F :=
  PyFloat.max (div block.baseSeconds s.speedFactor) (lit "0.001")

/-- The current block goes on for `elapsed`. -/
def advance (elapsed : F) (s : Firmware F) : Firmware F :=
  match s.currentBlock with
  | none => s
  | some block =>
    if s.holdRequested then s
    else
      let s := { s with blockElapsed := add s.blockElapsed elapsed }
      let duration := s.blockDuration block
      if le duration s.blockElapsed then
        { s with mpos := block.target, currentBlock := none }.finishBlock block
      else
        let frac := div s.blockElapsed duration
        { s with
          mpos := block.start.zipWith (fun a b => add a (mul (sub b a) frac)) block.target }

/-- `_tick` at the time `now`. -/
def tick (now : F) (s : Firmware F) : Firmware F :=
  let elapsed := sub now (s.lastTick.getD now)
  let elapsed := if lt elapsed (ofInt 0) then lit "0.0" else elapsed
  ({ s with lastTick := some now }.drainPendingLines.startBlock).advance elapsed

/-! ### What happens to the emulator -/

/-- What happens to the emulator; the tests write to its attributes. -/
inductive Event (F : Type) where
  | feedByte (byte : UInt8)
  | tick (now : F)
  | drain
  | setSetting (key : Text) (value : Setting F)
  | setProbeTouch (touch : Option (Vec F))
  | setSpeedFactor (factor : F)
  | setSilent (silent : Bool)

/-- The emulator on one event. -/
def step (e : Event F) (s : Firmware F) : Firmware F :=
  match e with
  | .feedByte byte => s.feedByte byte
  | .tick now => s.tick now
  | .drain => s.drainPendingLines
  | .setSetting key value => { s with settings := insert key value s.settings }
  | .setProbeTouch touch => { s with probeTouch := touch }
  | .setSpeedFactor factor => { s with speedFactor := factor }
  | .setSilent silent => { s with silent := silent }

end Firmware

end Methods

end Raydriver.Emulator
