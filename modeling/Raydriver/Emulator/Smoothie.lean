import Raydriver.Emulator.Motions

/-!
# The emulated Smoothieware firmware

`SmoothieEmulator` takes bytes; a few of them take effect at once, the others make up lines.  A
line that asks for a motion is acknowledged when the motion is over, any other at once.  Each
method is a function on the state, and what it writes is appended to `txLog`.

## Main definitions

* `Smoothie` — the state of `SmoothieEmulator`.
* `feedByte`, `realtime`, `statusReport`, `handleLine` — the serial side.
* `tick` — the motions; it has no result where it raises, which ends the task of the emulator.

## Main results

* `feed_line` — **a line is handled as its text**, whatever its characters take in bytes.
* `handleLine_handled`, `tick_ticked` — what a line and a tick can come to.

The mock transport, the splitting of output into fragments and the clock are not part of the
model; a tick is given its time.
-/

namespace Raydriver.Emulator

open PyFloat

/-- `_state`. -/
inductive SmoothieState where
  | idle
  | run
  | hold
  deriving DecidableEq, Repr

/-- The state of `SmoothieEmulator`. -/
structure Smoothie (F : Type) where
  lineBuffer : Bytes := []
  welcomed : Bool := false
  state : SmoothieState := .idle
  queue : List (Motion F) := []
  current : Option (Motion F) := none
  holdRequested : Bool := false
  lastTick : Option F := none
  head : Head F
  speedFactor : F
  txLog : Bytes := []
  deriving DecidableEq, Repr

/-- `config_values`, which nothing changes. -/
def configValues : List (Text × Text) :=
  [("alpha_max", "200.0000"), ("beta_max", "200.0000"), ("alpha_max_rate", "150.0000"),
    ("beta_max_rate", "150.0000"), ("acceleration", "3000.0000")].map
    fun (key, value) => (key.toList, value.toList)

/-- `config_values.get(key)`. -/
def configValue (key : Text) : Option Text :=
  (configValues.find? fun e => e.1 = key).map Prod.snd

/-- The bytes that take effect at once: `?`, `!`, `~` and Ctrl+C. -/
def isRealtime (byte : UInt8) : Bool := byte = 0x3F || byte = 0x21 || byte = 0x7E || byte = 0x03

section Methods

variable {F : Type} [PyFloat F]

/-- `SmoothieEmulator(mock, speed_factor)`. -/
def Smoothie.new (speedFactor : F) : Smoothie F where
  head := { mpos := .zero, feed := lit "100.0" }
  speedFactor := speedFactor

namespace Smoothie

/-- `_out`. -/
def write (data : Bytes) (s : Smoothie F) : Smoothie F := { s with txLog := s.txLog ++ data }

/-- The state as a status report names it. -/
def stateText (s : Smoothie F) : Text :=
  match s.state with
  | .idle => "Idle".toList
  | .run => "Run".toList
  | .hold => "Hold".toList

/-- `_status_report`, without its line end. -/
def statusReport (s : Smoothie F) : Text :=
  let position := Firmware.join ',' (s.head.mpos.toList.map fun v => fixed 3 v)
  ['<'] ++ s.stateText ++ "|MPos:".toList ++ position ++ "|WPos:".toList ++ position ++
    "|FS:0,0>".toList

/-- `_realtime`. -/
def realtime (byte : UInt8) (s : Smoothie F) : Smoothie F :=
  if byte = 0x3F then s.write (toUtf8 (s.statusReport ++ "\r\n".toList))
  else if byte = 0x21 then
    { s with holdRequested := true, state := if s.state = .idle then .idle else .hold }
  else if byte = 0x7E then
    { s with
      holdRequested := false
      state := if s.state = .hold then (if s.current.isSome then .run else .idle) else s.state }
  else if byte = 0x03 then
    { s with queue := [], current := none, holdRequested := false, state := .idle }
  else s

/-- `_handle_line`. -/
def handleLine (line : Text) (s : Smoothie F) : Smoothie F :=
  if line.isEmpty then s
  else if line = "version".toList then
    ((s.write (ascii "Build version: edge-94de12c, ")).write
      (ascii "Build date: 20240404\r\n")).write (ascii "ok\r\n")
  else
    match stripPrefix "config-get ".toList line with
    | some key =>
      (match configValue (strip key) with
      | some value => s.write (toUtf8 (value ++ "\r\n".toList))
      | none => s).write (ascii "ok\r\n")
    | none =>
      let words := parseTokens line
      if wordIn 'G' ["0", "1"] words then
        let head := s.head.setFeed words
        { s with
          head := head
          queue := s.queue ++ [head.motion (head.target words)]
          state := .run }
      else { s with head := s.head.setMode words }.write (ascii "ok\r\n")

/-- The first byte finds the controller booting. -/
def greet (s : Smoothie F) : Smoothie F :=
  if s.welcomed then s else { s with welcomed := true }.write (ascii "Smoothie\r\n")

/-- One byte of `_feed_bytes`. -/
def feedByte (s : Smoothie F) (byte : UInt8) : Smoothie F :=
  let s := s.greet
  if isRealtime byte then s.realtime byte
  else
    let buffer := s.lineBuffer ++ [byte]
    if byte = LF then { s with lineBuffer := [] }.handleLine (strip (decodeReplace buffer))
    else { s with lineBuffer := buffer }

/-- `_feed_bytes`. -/
def feedBytes (data : Bytes) (s : Smoothie F) : Smoothie F := data.foldl feedByte s

/-- The next motion begins, or the machine comes to rest. -/
def startMotion (s : Smoothie F) : Smoothie F :=
  if s.current.isNone && !s.holdRequested then
    match s.queue with
    | m :: rest => { s with current := some m, queue := rest }
    | [] => if s.state = .run then { s with state := .idle } else s
  else s

/-- `_tick` at the time `now`. -/
def tick [PyPower F] (now : F) (s : Smoothie F) : Option (Smoothie F) :=
  let elapsed := elapsedSince s.lastTick now
  let s := { s with lastTick := some now }.startMotion
  match s.current with
  | none => some s
  | some m =>
    if s.holdRequested then some s
    else
      let m := { m with elapsed := add m.elapsed elapsed }
      (m.seconds s.speedFactor).map fun seconds =>
        if lt m.elapsed seconds then { s with current := some m }
        else { s with head.mpos := m.target, current := none }.write (ascii "ok\r\n")

end Smoothie

end Methods

/-! ### Lines -/

/-- A byte of a character that is an ASCII byte is the whole character. -/
theorem ascii_mem_charBytes {c : Char} {b : UInt8} (h : b ∈ charBytes c) (hb : b.toNat < 0x80) :
    c.toNat = b.toNat := by
  have hvalid : c.toNat < 0xD800 ∨ 0xDFFF < c.toNat ∧ c.toNat < 0x110000 := c.valid
  have hlarge : ∀ n, 0x80 ≤ n → n < 256 → b ≠ UInt8.ofNat n := by
    rintro n hlow hhigh rfl
    rw [toNat_ofNat_byte hhigh] at hb
    omega
  unfold charBytes at h
  dsimp only at h
  split_ifs at h with h1 h2 h3
  · rw [List.mem_singleton.mp h, toNat_ofNat_byte (by omega)]
  · rcases List.mem_pair.mp h with h | h
    · exact absurd h (hlarge _ (by omega) (by omega))
    · exact absurd h (hlarge _ (by omega) (by omega))
  · simp only [List.mem_cons, List.not_mem_nil, or_false] at h
    rcases h with h | h | h
    · exact absurd h (hlarge _ (by omega) (by omega))
    · exact absurd h (hlarge _ (by omega) (by omega))
    · exact absurd h (hlarge _ (by omega) (by omega))
  · simp only [List.mem_cons, List.not_mem_nil, or_false] at h
    rcases h with h | h | h | h
    · exact absurd h (hlarge _ (by omega) (by omega))
    · exact absurd h (hlarge _ (by omega) (by omega))
    · exact absurd h (hlarge _ (by omega) (by omega))
    · exact absurd h (hlarge _ (by omega) (by omega))

/-- A line without bytes that take effect at once. -/
def isPlain (t : Text) : Bool := t.all fun c => !(['?', '!', '~', '\x03', '\n'].contains c)

theorem plain_bytes {t : Text} (h : isPlain t = true) {b : UInt8} (hb : b ∈ toUtf8 t) :
    isRealtime b = false ∧ b ≠ LF := by
  obtain ⟨c, hc, hbc⟩ := List.mem_flatMap.mp hb
  have hplain := List.all_eq_true.mp h c hc
  have hne : ∀ n < 0x80, Char.ofNat n ∈ ['?', '!', '~', '\x03', '\n'] → b ≠ UInt8.ofNat n := by
    rintro n hn hd rfl
    have hbyte : (UInt8.ofNat n).toNat = n := toNat_ofNat_byte (by omega)
    have hcd : c = Char.ofNat n := by
      rw [← Char.ofNat_toNat c, ascii_mem_charBytes hbc (by omega), hbyte]
    rw [hcd] at hplain
    simp [hd] at hplain
  constructor
  · unfold isRealtime
    simp only [Bool.or_eq_false_iff, decide_eq_false_iff_not]
    exact ⟨⟨⟨hne 0x3F (by decide) (by decide), hne 0x21 (by decide) (by decide)⟩,
      hne 0x7E (by decide) (by decide)⟩, hne 0x03 (by decide) (by decide)⟩
  · exact hne 0x0A (by decide) (by decide)

section Lines

variable {F : Type} [PyFloat F]

namespace Smoothie

omit [PyFloat F] in
theorem greet_of_welcomed {s : Smoothie F} (h : s.welcomed = true) : s.greet = s := if_pos h

/-- Bytes of a line wait for its end. -/
theorem feed_buffer : ∀ (data : Bytes) {s : Smoothie F}, s.welcomed = true →
    (∀ b ∈ data, isRealtime b = false ∧ b ≠ LF) →
    s.feedBytes data = { s with lineBuffer := s.lineBuffer ++ data }
  | [], s, _, _ => by
    rw [List.append_nil]
    rfl
  | b :: data, s, hwelcomed, hdata => by
    obtain ⟨hrealtime, hlf⟩ := hdata b List.mem_cons_self
    have hbyte : s.feedByte b = { s with lineBuffer := s.lineBuffer ++ [b] } := by
      unfold feedByte
      rw [greet_of_welcomed hwelcomed]
      simp only [hrealtime, Bool.false_eq_true, if_false, if_neg hlf]
    have hrest := feed_buffer data (s := { s with lineBuffer := s.lineBuffer ++ [b] }) hwelcomed
      fun b hb => hdata b (List.mem_cons_of_mem _ hb)
    unfold feedBytes at hrest ⊢
    rw [List.foldl_cons, hbyte, hrest, List.append_assoc, List.singleton_append]

/-- **A line is handled as its text.** -/
theorem feed_line {s : Smoothie F} {t : Text} (hwelcomed : s.welcomed = true)
    (hbuffer : s.lineBuffer = []) (ht : isPlain t = true) :
    s.feedBytes (toUtf8 (t ++ ['\n'])) = s.handleLine (strip (t ++ ['\n'])) := by
  have hend : toUtf8 (t ++ ['\n']) = toUtf8 t ++ [LF] := toUtf8_append t ['\n']
  have htext := feed_buffer (toUtf8 t) hwelcomed fun b hb => plain_bytes ht hb
  have hsame : { { s with lineBuffer := s.lineBuffer ++ toUtf8 t } with lineBuffer := [] } = s := by
    rw [← hbuffer]
  unfold feedBytes at htext ⊢
  rw [hend, List.foldl_append, htext, List.foldl_cons, List.foldl_nil]
  unfold feedByte
  rw [greet_of_welcomed (s := { s with lineBuffer := s.lineBuffer ++ toUtf8 t }) hwelcomed]
  have hdecoded : decodeReplace (s.lineBuffer ++ toUtf8 t ++ [LF]) = t ++ ['\n'] := by
    rw [hbuffer, List.nil_append, ← hend, decodeReplace_toUtf8]
  simp only [show isRealtime LF = false from rfl, Bool.false_eq_true, if_false, if_true, hdecoded]
  rw [hsame]

/-! ### What a line comes to -/

/-- The lines that query the controller. -/
def isQuery (line : Text) : Bool :=
  line == "version".toList || startsWith "config-get ".toList line

/-- The answer to a line, but for its `ok`. -/
def infos (line : Text) : List Text :=
  if line = "version".toList then ["Build version: edge-94de12c, Build date: 20240404".toList]
  else ((stripPrefix "config-get ".toList line).bind fun key => configValue (strip key)).toList

/-- What a line does to the machine once it has been carried out. -/
def carryOut (head : Head F) (line : Text) : Head F :=
  if isQuery line then head else head.exec line

/-- Lines as they are printed. -/
def printed (ls : List Text) : Bytes := ls.flatMap fun line => toUtf8 line ++ [CR, LF]

/-- A line that the emulator handles: it is answered at once, or it plans the motion that will
acknowledge it. -/
inductive Handled (line : Text) (s : Smoothie F) : Smoothie F → Prop
  | answered : Handled line s
      ({ s with head := carryOut s.head line }.write (printed (infos line ++ ["ok".toList])))
  | planned (head : Head F) (m : Motion F) (hinfos : infos line = [])
      (hhead : head.mpos = s.head.mpos)
      (htarget : { head with mpos := m.target } = carryOut s.head line) :
      Handled line s { s with head := head, queue := s.queue ++ [m], state := .run }

omit [PyFloat F] in
theorem write_write (a b : Bytes) (s : Smoothie F) : (s.write a).write b = s.write (a ++ b) := by
  unfold write
  rw [List.append_assoc]

/-- **What a line can come to.** -/
theorem handleLine_handled {line : Text} (h : line ≠ []) (s : Smoothie F) :
    Handled line s (s.handleLine line) := by
  unfold handleLine
  rw [if_neg (by simpa using h)]
  by_cases hversion : line = "version".toList
  · subst hversion
    have hprinted : ascii "Build version: edge-94de12c, " ++
        (ascii "Build date: 20240404\r\n" ++ ascii "ok\r\n") =
          printed (infos "version".toList ++ ["ok".toList]) := by
      decide +kernel
    have hhead : carryOut s.head "version".toList = s.head := if_pos rfl
    have hanswered : Handled "version".toList s _ := .answered
    rw [hhead] at hanswered
    rw [if_pos rfl, write_write, write_write, hprinted]
    exact hanswered
  · rw [if_neg hversion]
    cases hkey : stripPrefix "config-get ".toList line with
    | some key =>
      have hquery : isQuery line = true := by
        unfold isQuery startsWith
        unfold stripPrefix at hkey
        split_ifs at hkey with hstarts
        rw [hstarts, Bool.or_true]
      have hinfos : infos line = (configValue (strip key)).toList := by
        unfold infos
        rw [if_neg hversion, hkey, Option.bind_some]
      have hhead : carryOut s.head line = s.head := if_pos hquery
      have hanswered : Handled line s _ := .answered
      rw [hhead, hinfos] at hanswered
      cases hvalue : configValue (strip key) with
      | none =>
        rw [hvalue] at hanswered
        simp only [hvalue]
        exact hanswered
      | some value =>
        rw [hvalue] at hanswered
        -- the value and the `ok` are printed line by line
        have hprinted : toUtf8 (value ++ "\r\n".toList) ++ ascii "ok\r\n" =
            printed ((some value).toList ++ ["ok".toList]) := by
          simp only [Option.toList_some, printed, List.cons_append, List.nil_append,
            List.flatMap_cons, List.flatMap_nil, toUtf8_append, List.append_nil]
          rfl
        simp only [hvalue, write_write]
        rw [hprinted]
        exact hanswered
    | none =>
      -- neither query: the line is G-code, and nothing is printed before its `ok`
      have hquery : isQuery line = false := by
        unfold isQuery startsWith
        unfold stripPrefix at hkey
        split_ifs at hkey with hprefix
        rw [beq_eq_false_iff_ne.mpr hversion, Bool.false_or]
        exact Bool.eq_false_iff.mpr hprefix
      have hinfos : infos line = [] := by
        unfold infos
        rw [if_neg hversion, hkey]
        rfl
      have hcarry : carryOut s.head line = s.head.exec line :=
        if_neg (Bool.eq_false_iff.mp hquery)
      by_cases hmotion : wordIn 'G' ["0", "1"] (parseTokens line : List (Word F)) = true
      · simp only [hmotion, if_true]
        refine .planned _ _ hinfos rfl ?_
        rw [hcarry]
        unfold Head.exec
        simp only [hmotion, if_true]
        rfl
      · simp only [hmotion, Bool.false_eq_true, if_false]
        have hanswered : Handled line s _ := .answered
        rw [hcarry, hinfos] at hanswered
        unfold Head.exec at hanswered
        simp only [hmotion, Bool.false_eq_true, if_false] at hanswered
        exact hanswered

/-! ### Motions -/

/-- The motions that have not ended, in the order of their lines. -/
def motions (s : Smoothie F) : List (Motion F) := s.current.toList ++ s.queue

/-- A tick ends no motion, or the first one, which acknowledges its line. -/
inductive Ticked (s : Smoothie F) : Smoothie F → Prop
  | on (t : Smoothie F) (hhead : t.head = s.head) (hbuffer : t.lineBuffer = s.lineBuffer)
      (hwelcomed : t.welcomed = s.welcomed) (hlog : t.txLog = s.txLog)
      (hmotions : t.motions.map Motion.target = s.motions.map Motion.target) : Ticked s t
  | ended (t : Smoothie F) (m : Motion F) (hhead : t.head = { s.head with mpos := m.target })
      (hbuffer : t.lineBuffer = s.lineBuffer) (hwelcomed : t.welcomed = s.welcomed)
      (hlog : t.txLog = s.txLog ++ printed ["ok".toList])
      (hheld : s.holdRequested = false)
      (hmotions : m.target :: t.motions.map Motion.target = s.motions.map Motion.target) :
      Ticked s t

omit [PyFloat F] in
/-- The next motion begins: it is still the first one. -/
theorem startMotion_spec (s : Smoothie F) :
    s.startMotion.head = s.head ∧ s.startMotion.lineBuffer = s.lineBuffer ∧
      s.startMotion.welcomed = s.welcomed ∧ s.startMotion.txLog = s.txLog ∧
      s.startMotion.motions = s.motions ∧ s.startMotion.holdRequested = s.holdRequested := by
  unfold startMotion
  by_cases hfree : (s.current.isNone && !s.holdRequested) = true
  · rw [if_pos hfree]
    rw [Bool.and_eq_true, Option.isNone_iff_eq_none] at hfree
    cases hqueue : s.queue with
    | nil =>
      dsimp only
      split_ifs
      · exact ⟨rfl, rfl, rfl, rfl, congrArg (s.current.toList ++ ·) hqueue.symm, rfl⟩
      · exact ⟨rfl, rfl, rfl, rfl, rfl, rfl⟩
    | cons m rest =>
      refine ⟨rfl, rfl, rfl, rfl, ?_, rfl⟩
      unfold motions
      rw [hfree.1, hqueue]
      rfl
  · rw [if_neg hfree]
    exact ⟨rfl, rfl, rfl, rfl, rfl, rfl⟩

/-- **What a tick does.** -/
theorem tick_ticked [PyPower F] {now : F} {s t : Smoothie F} (h : s.tick now = some t) :
    Ticked s t := by
  obtain ⟨hhead, hbuffer, hwelcomed, hlog, hmotions, hheld⟩ :=
    startMotion_spec { s with lastTick := some now }
  unfold tick at h
  dsimp only at h
  obtain ⟨u, hu⟩ : ∃ u, u = ({ s with lastTick := some now } : Smoothie F).startMotion := ⟨_, rfl⟩
  rw [← hu] at h hhead hbuffer hwelcomed hlog hmotions hheld
  cases hcurrent : u.current with
  | none =>
    rw [hcurrent] at h
    cases h
    exact .on _ hhead hbuffer hwelcomed hlog (congrArg _ hmotions)
  | some m =>
    rw [hcurrent] at h
    dsimp only at h
    split_ifs at h with hhold
    · cases h
      exact .on _ hhead hbuffer hwelcomed hlog (congrArg _ hmotions)
    · obtain ⟨seconds, -, hend⟩ := Option.map_eq_some_iff.mp h
      have hfirst : s.motions = m :: u.queue := by
        show ({ s with lastTick := some now } : Smoothie F).motions = _
        rw [← hmotions]
        unfold motions
        rw [hcurrent]
        rfl
      split_ifs at hend
      · subst hend
        refine .on _ hhead hbuffer hwelcomed hlog ?_
        rw [hfirst]
        rfl
      · subst hend
        refine .ended _ m ?_ hbuffer hwelcomed ?_ ?_ ?_
        · show { u.head with mpos := m.target } = _
          rw [hhead]
        · show u.txLog ++ ascii "ok\r\n" = _
          rw [hlog]
          rfl
        · exact hheld.symm.trans (Bool.eq_false_iff.mpr hhold)
        · rw [hfirst]
          rfl

end Smoothie

end Lines

end Raydriver.Emulator
