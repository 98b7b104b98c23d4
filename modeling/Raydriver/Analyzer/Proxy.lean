import Raydriver.Analyzer.Capture
import Raydriver.Core.Splitter
import Raydriver.Lib.Run

/-!
# The proxy

The proxy sits between an application and a device and records what crosses in either
direction.  Every client has two pumps, one for each direction; all pumps append to one
capture, in whatever order they get their turns.

## Main definitions

* `feed` — one call of `_LineAssembler.feed`.
* `Pump`, `Proxy` — a pump and the running proxy.
* `Proxy.step` — a client connects, a pump reads a chunk, a pump ends.
* `recordedLines` — the frames a stream leaves behind when it is framed by lines.

## Main results

* `feed_eq` — one call cuts off the lines of the stream.
* `Pump.Sound` — what a pump has recorded, stated for the bytes it has read.
* `pump_records_every_byte` — **when a pump has recorded what it forwarded**.
-/

namespace Raydriver

open Lts

/-! ### The line assembler -/

/-- The loop of `feed`: as long as the buffer holds a newline, cut off the line.  Every
iteration removes at least one byte. -/
def feedLoop : ℕ → Bytes → Bytes × List Bytes
  | 0, buffer => (buffer, [])
  | n + 1, buffer =>
    match buffer.idxOf? LF with
    | none => (buffer, [])
    | some newline =>
      let (rest, lines) := feedLoop n (buffer.drop (newline + 1))
      (rest, buffer.take (newline + 1) :: lines)

/-- `_LineAssembler.feed`: the buffer and the complete lines. -/
def feed (chunk buffer : Bytes) : Bytes × List Bytes :=
  feedLoop (buffer ++ chunk).length (buffer ++ chunk)

/-- `_LineAssembler.flush`: the cleared buffer and what was in it. -/
def flush (buffer : Bytes) : Bytes × Bytes := ([], buffer)

theorem take_idxOf_succ {x : Bytes} {k : ℕ} (h : x.idxOf? LF = some k) :
    x.take (k + 1) = x.take k ++ [LF] := by
  obtain ⟨hk, hget, -⟩ := List.idxOf?_eq_some_iff.mp h
  rw [List.take_add_one, List.getElem?_eq_getElem hk]
  simp only [Option.toList_some]
  rw [hget]

/-- The lines cut off are the messages with their newlines. -/
theorem feedLoop_eq_messages : ∀ (n : ℕ) (buffer : Bytes),
    feedLoop n buffer
      = ((drainMessages n buffer).1, (drainMessages n buffer).2.map fun m => m ++ [LF]) := by
  intro n
  induction n with
  | zero => exact fun buffer => rfl
  | succ n ih =>
    intro buffer
    cases hidx : buffer.idxOf? LF with
    | none => simp only [feedLoop, drainMessages, hidx, List.map_nil]
    | some k =>
      simp only [feedLoop, drainMessages, hidx, ih, List.map_cons, take_idxOf_succ hidx]

/-- One call cuts off the lines of the stream and keeps the unfinished one. -/
theorem feed_eq {x : Bytes} (hx : LF ∉ x) (l : Bytes) :
    feed l x = (unfinished x l, (messagesOf x l).map fun m => m ++ [LF]) := by
  have hfuel : l.countP (· == LF) ≤ (x ++ l).length := by
    rw [List.length_append]
    exact Nat.le_add_left_of_le List.countP_le_length
  rw [feed, feedLoop_eq_messages, drainMessages_eq l x _ hx hfuel]

/-! ### The pumps -/

/-- How chunks are recorded. -/
inductive Framing where
  | lines
  | raw
  deriving DecidableEq, Repr

/-- One direction of a client's traffic.  `stream` is what was read and forwarded. -/
structure Pump where
  direction : Text
  buffer : Bytes := []
  stream : Bytes := []
  stopped : Bool := false
  deriving DecidableEq, Repr

/-- The running proxy.  `log` holds the frames of the capture, each with the number of
the pump that appended it. -/
structure Proxy (α : Type) where
  framing : Framing
  log : List (Option ℕ × Frame α)
  pumps : List Pump := []
  deriving DecidableEq, Repr

/-- What happens to the proxy. -/
inductive ProxyLabel where
  /-- A client is connected to the device: its two pumps start. -/
  | connect (note : Text)
  /-- `append_note`. -/
  | note (note : Text)
  /-- Pump `i` has read a chunk. -/
  | chunk (i : ℕ) (data : Bytes)
  /-- Pump `i` leaves its loop: the end of the stream, a cancellation, a lost peer. -/
  | stop (i : ℕ)
  deriving DecidableEq, Repr

/-- `_decode`. -/
def decodeLine (line : Bytes) : Text := rstripNewlines (decodeReplace line)

namespace Proxy

variable {α : Type}

/-- The frames pump `i` has appended, in order. -/
def framesOf (i : ℕ) (s : Proxy α) : List (Frame α) :=
  s.log.filterMap fun e => if e.1 = some i then some e.2 else none

/-- `Capture.append`, timestamped by the clock. -/
def append (clock : ℕ → α) (pump : Option ℕ) (direction : Text) (text : Option Text)
    (data : Option Bytes) (note : Option Text) (s : Proxy α) : Proxy α :=
  { s with log := s.log ++ [(pump, ⟨direction, clock s.log.length, text, data, note⟩)] }

/-- The frames of the lines of a chunk. -/
def appendLines (clock : ℕ → α) (i : ℕ) (direction : Text) (lines : List Bytes)
    (s : Proxy α) : Proxy α :=
  lines.foldl (fun s line => s.append clock (some i) direction (some (decodeLine line)) none none) s

/-- The body of the loop of `_pump` for a chunk. -/
def readChunk (clock : ℕ → α) (i : ℕ) (data : Bytes) (p : Pump) (s : Proxy α) : Proxy α :=
  match s.framing with
  | .raw =>
    let p := { p with stream := p.stream ++ data }
    { s.append clock (some i) p.direction none (some data) none with pumps := s.pumps.set i p }
  | .lines =>
    let (buffer, lines) := feed data p.buffer
    let p := { p with buffer := buffer, stream := p.stream ++ data }
    { s.appendLines clock i p.direction lines with pumps := s.pumps.set i p }

/-- The `finally` clause of `_pump`: the assembler is flushed for the test and again for
the frame. -/
def finish (clock : ℕ → α) (i : ℕ) (p : Pump) (s : Proxy α) : Proxy α :=
  match s.framing with
  | .raw => { s with pumps := s.pumps.set i { p with stopped := true } }
  | .lines =>
    let (buffer, rest) := flush p.buffer
    if rest.isEmpty then
      { s with pumps := s.pumps.set i { p with buffer := buffer, stopped := true } }
    else
      let (buffer, rest) := flush buffer
      { s.append clock (some i) p.direction none (some rest) none with
        pumps := s.pumps.set i { p with buffer := buffer, stopped := true } }

/-- Pump `i`, as long as it runs. -/
def running (i : ℕ) (s : Proxy α) : Option Pump := s.pumps[i]?.filter fun p => !p.stopped

/-- One step of the proxy. -/
def step (clock : ℕ → α) : ProxyLabel → Proxy α → Option (Proxy α)
  | .connect note, s =>
    some { s.append clock none [] none none (some note) with
      pumps := s.pumps ++ [{ direction := TX }, { direction := RX }] }
  | .note note, s => some (s.append clock none [] none none (some note))
  | .chunk i data, s =>
    -- an empty chunk is the end of the stream
    if data.isEmpty then none else (s.running i).map fun p => s.readChunk clock i data p
  | .stop i, s => (s.running i).map fun p => s.finish clock i p

/-- The proxy before its first client, recording into a capture. -/
def start (framing : Framing) (c : Capture α) : Proxy α :=
  { framing := framing, log := c.frames.map fun f => (none, f) }

end Proxy

/-! ### What is recorded -/

/-- The frame without its time. -/
def Frame.untimed {α : Type} (f : Frame α) : Frame Unit := { f with offset := () }

/-- The text frame of a line. -/
def textFrame (direction : Text) (line : Bytes) : Frame Unit :=
  { direction := direction, offset := (), text := some (decodeLine line) }

/-- A data frame. -/
def dataFrame (direction : Text) (data : Bytes) : Frame Unit :=
  { direction := direction, offset := (), data := some data }

/-- The text frames of the newline-terminated lines of a stream. -/
def textFrames (direction : Text) (stream : Bytes) : List (Frame Unit) :=
  (messagesOf [] stream).map fun m => textFrame direction (m ++ [LF])

/-- **The frames of a stream framed by lines**: one for each line, and one for the
unterminated bytes, if there are any. -/
def recordedLines (direction : Text) (stream : Bytes) : List (Frame Unit) :=
  textFrames direction stream ++
    if unfinished [] stream = [] then [] else [dataFrame direction (unfinished [] stream)]

/-- Pump `i` has recorded all bytes it has read and forwarded. -/
def Proxy.RecordsEveryByte {α : Type} (i : ℕ) (p : Pump) (s : Proxy α) : Prop :=
  match s.framing with
  | .lines => (s.framesOf i).map Frame.untimed = recordedLines p.direction p.stream
  | .raw => ((s.framesOf i).flatMap fun f => f.data.getD []) = p.stream ∧
      ∀ f ∈ s.framesOf i, f.direction = p.direction

namespace Proxy

variable {α : Type} {clock : ℕ → α} {s : Proxy α} {i j : ℕ}

@[simp] theorem framesOf_append (pump : Option ℕ) (direction : Text) (text : Option Text)
    (data : Option Bytes) (note : Option Text) :
    (s.append clock pump direction text data note).framesOf j
      = s.framesOf j ++
        if pump = some j then [⟨direction, clock s.log.length, text, data, note⟩] else [] := by
  simp only [framesOf, append, List.filterMap_append]
  congr 1
  split_ifs with h <;> simp [h]

@[simp] theorem framing_append (pump : Option ℕ) (direction : Text) (text : Option Text)
    (data : Option Bytes) (note : Option Text) :
    (s.append clock pump direction text data note).framing = s.framing := rfl

@[simp] theorem pumps_append (pump : Option ℕ) (direction : Text) (text : Option Text)
    (data : Option Bytes) (note : Option Text) :
    (s.append clock pump direction text data note).pumps = s.pumps := rfl

/-- The lines of a chunk become text frames of pump `i` and of no other. -/
theorem framesOf_appendLines (direction : Text) : ∀ (lines : List Bytes) (s : Proxy α),
    ((s.appendLines clock i direction lines).framesOf j).map Frame.untimed
      = (s.framesOf j).map Frame.untimed ++
        if i = j then lines.map (textFrame direction) else [] := by
  intro lines
  induction lines with
  | nil => intro s; simp [appendLines]
  | cons line lines ih =>
    intro s
    have hrest := ih (s.append clock (some i) direction (some (decodeLine line)) none none)
    rw [appendLines, List.foldl_cons, ← appendLines, hrest, framesOf_append]
    by_cases h : i = j
    · simp [h, Frame.untimed, textFrame]
    · simp [h]

theorem framing_appendLines (direction : Text) : ∀ (lines : List Bytes) (s : Proxy α),
    (s.appendLines clock i direction lines).framing = s.framing := by
  intro lines
  induction lines with
  | nil => intro s; rfl
  | cons line lines ih => intro s; exact ih _

theorem framesOf_appendLines_of_ne (direction : Text) (lines : List Bytes) (h : i ≠ j) :
    (s.appendLines clock i direction lines).framesOf j = s.framesOf j := by
  induction lines generalizing s with
  | nil => rfl
  | cons line lines ih =>
    have hrest := ih (s := s.append clock (some i) direction (some (decodeLine line)) none none)
    rw [appendLines, List.foldl_cons, ← appendLines, hrest, framesOf_append,
      if_neg (by simpa using h), List.append_nil]

/-! ### The invariant of a pump -/

/-- **What a pump has recorded, for the bytes it has read.**  The flush that makes the
frame comes second and finds the buffer empty. -/
def Sound (i : ℕ) (p : Pump) (s : Proxy α) : Prop :=
  match s.framing with
  | .lines =>
    (p.stopped = false → p.buffer = unfinished [] p.stream) ∧
      (s.framesOf i).map Frame.untimed = textFrames p.direction p.stream ++
        if p.stopped = true ∧ unfinished [] p.stream ≠ [] then [dataFrame p.direction []] else []
  | .raw => ((s.framesOf i).flatMap fun f => f.data.getD []) = p.stream ∧
      ∀ f ∈ s.framesOf i, f.direction = p.direction

/-- Every pump is sound, and frames belong to pumps that exist. -/
structure Inv (s : Proxy α) : Prop where
  sound : ∀ i p, s.pumps[i]? = some p → s.Sound i p
  fresh : ∀ i, s.pumps.length ≤ i → s.framesOf i = []

theorem Sound.of_framesOf {s' : Proxy α} {p : Pump} (h : s.Sound i p)
    (hframing : s'.framing = s.framing) (hframes : s'.framesOf i = s.framesOf i) :
    s'.Sound i p := by
  rw [Sound, hframing, hframes]
  exact h

/-- A pump that has read nothing. -/
theorem sound_new (direction : Text) (h : s.framesOf i = []) :
    s.Sound i { direction := direction } := by
  rw [Sound, h]
  cases s.framing with
  | lines => exact ⟨fun _ => rfl, rfl⟩
  | raw => exact ⟨rfl, fun f hf => nomatch hf⟩

theorem textFrames_append (direction : Text) (a b : Bytes) :
    textFrames direction (a ++ b) = textFrames direction a ++
      (messagesOf (unfinished [] a) b).map fun m => textFrame direction (m ++ [LF]) := by
  rw [textFrames, messagesOf_append, List.map_append]
  rfl

/-- A chunk keeps its pump sound. -/
theorem sound_readChunk {p : Pump} (data : Bytes) (h : s.Sound i p) (hrun : p.stopped = false) :
    ∃ p', (s.readChunk clock i data p).pumps = s.pumps.set i p' ∧
      (s.readChunk clock i data p).Sound i p' := by
  rw [Sound] at h
  cases hframing : s.framing with
  | raw =>
    rw [hframing] at h
    refine ⟨_, by rw [readChunk, hframing], ?_⟩
    rw [Sound, readChunk, hframing]
    simp only [hframing, framing_append]
    have hframes := @framesOf_append _ clock s i (some i) p.direction none (some data) none
    rw [if_pos rfl] at hframes
    simp only [framesOf] at hframes h ⊢
    rw [hframes, List.flatMap_append, h.1]
    refine ⟨by simp, fun f hf => ?_⟩
    rcases List.mem_append.mp hf with hf | hf
    · exact h.2 f hf
    · rw [List.mem_singleton.mp hf]
  | lines =>
    rw [hframing] at h
    obtain ⟨hbuffer, hframes⟩ := h
    have hLF : LF ∉ p.buffer := by
      rw [hbuffer hrun]
      exact LF_notMem_unfinished _ _ List.not_mem_nil
    refine ⟨_, by rw [readChunk, hframing], ?_⟩
    rw [Sound, readChunk, hframing]
    simp only [framing_appendLines, hframing, feed_eq hLF]
    refine ⟨fun _ => ?_, ?_⟩
    · rw [hbuffer hrun, unfinished_append]
    · have happend := @framesOf_appendLines _ clock i i p.direction
        ((messagesOf p.buffer data).map fun m => m ++ [LF]) s
      simp only [framesOf] at happend hframes ⊢
      rw [happend, hframes, textFrames_append, hbuffer hrun, hrun]
      simp [List.map_map, Function.comp_def]

/-- Leaving the loop keeps its pump sound. -/
theorem sound_finish {p : Pump} (h : s.Sound i p) (hrun : p.stopped = false) :
    ∃ p', (s.finish clock i p).pumps = s.pumps.set i p' ∧ (s.finish clock i p).Sound i p' := by
  rw [Sound] at h
  cases hframing : s.framing with
  | raw =>
    rw [hframing] at h
    refine ⟨_, by rw [finish, hframing], ?_⟩
    rw [Sound, finish, hframing]
    exact h
  | lines =>
    rw [hframing] at h
    obtain ⟨hbuffer, hframes⟩ := h
    have hrest := hbuffer hrun
    by_cases hempty : unfinished [] p.stream = []
    · have hisEmpty : p.buffer.isEmpty = true := by rw [hrest, hempty]; rfl
      refine ⟨{ p with buffer := [], stopped := true }, ?_, ?_⟩
      · simp only [finish, hframing, flush, hisEmpty, if_true]
      · simp only [Sound, finish, hframing, flush, hisEmpty, if_true]
        refine ⟨fun hfalse => absurd hfalse (by simp), ?_⟩
        simpa [framesOf, hempty] using hframes
    · have hisEmpty : p.buffer.isEmpty = false := by
        rw [hrest, List.isEmpty_eq_false_iff]
        exact hempty
      refine ⟨{ p with buffer := [], stopped := true }, ?_, ?_⟩
      · simp only [finish, hframing, flush, hisEmpty, if_false, Bool.false_eq_true]
      · simp only [Sound, finish, hframing, flush, hisEmpty, if_false, Bool.false_eq_true,
          framing_append]
        refine ⟨fun hfalse => absurd hfalse (by simp), ?_⟩
        -- the second flush has nothing left
        have happend := @framesOf_append _ clock s i (some i) p.direction none (some []) none
        rw [if_pos rfl] at happend
        simp only [framesOf] at happend hframes ⊢
        rw [happend, List.map_append, hframes, hrun]
        simp [hempty, Frame.untimed, dataFrame]

/-- What a pump does to the frames of the others: nothing. -/
theorem framesOf_readChunk_of_ne {p : Pump} (data : Bytes) (h : i ≠ j) :
    (s.readChunk clock i data p).framesOf j = s.framesOf j := by
  rw [readChunk]
  cases s.framing with
  | raw =>
    have happend := @framesOf_append _ clock s j (some i) p.direction none (some data) none
    rwa [if_neg (by simpa using h), List.append_nil] at happend
  | lines => exact framesOf_appendLines_of_ne p.direction _ h

theorem framesOf_finish_of_ne {p : Pump} (h : i ≠ j) :
    (s.finish clock i p).framesOf j = s.framesOf j := by
  rw [finish]
  cases s.framing with
  | raw => rfl
  | lines =>
    dsimp only
    split_ifs
    · rfl
    · have happend := @framesOf_append _ clock s j (some i) p.direction none (some []) none
      rwa [if_neg (by simpa using h), List.append_nil] at happend

theorem framing_readChunk {p : Pump} (data : Bytes) :
    (s.readChunk clock i data p).framing = s.framing := by
  rw [readChunk]
  cases hframing : s.framing with
  | raw => exact hframing
  | lines => exact (framing_appendLines p.direction _ s).trans hframing

theorem framing_finish {p : Pump} : (s.finish clock i p).framing = s.framing := by
  unfold finish
  split
  · rfl
  · dsimp only
    split_ifs <;> rfl

/-- A turn of pump `i` that keeps it sound and the frames of the others keeps the
invariant. -/
theorem Inv.turn {s' : Proxy α} {p' : Pump} (h : s.Inv) (hi : i < s.pumps.length)
    (hpumps : s'.pumps = s.pumps.set i p') (hframing : s'.framing = s.framing)
    (hothers : ∀ j, i ≠ j → s'.framesOf j = s.framesOf j) (hsound : s'.Sound i p') : s'.Inv := by
  constructor
  · intro j p hp
    rw [hpumps] at hp
    by_cases hij : i = j
    · subst hij
      rw [List.getElem?_set_self hi] at hp
      cases hp
      exact hsound
    · rw [List.getElem?_set_ne hij] at hp
      exact (h.sound j p hp).of_framesOf hframing (hothers j hij)
  · intro j hj
    rw [hpumps, List.length_set] at hj
    rw [hothers j (by omega)]
    exact h.fresh j hj

theorem running_eq_some {p : Pump} (h : s.running i = some p) :
    s.pumps[i]? = some p ∧ p.stopped = false := by
  obtain ⟨hp, hrun⟩ := Option.filter_eq_some_iff.mp h
  exact ⟨hp, by simpa using hrun⟩

/-- A note belongs to no pump. -/
theorem Inv.note (h : s.Inv) (note : Text) :
    (s.append clock none [] none none (some note)).Inv := by
  have hframes : ∀ j, (s.append clock none [] none none (some note)).framesOf j = s.framesOf j := by
    intro j
    rw [framesOf_append, if_neg (by simp), List.append_nil]
  constructor
  · intro j p hp
    exact (h.sound j p hp).of_framesOf rfl (hframes j)
  · intro j hj
    rw [hframes]
    exact h.fresh j hj

/-- Every step keeps the invariant. -/
theorem step_inv {l : ProxyLabel} {s' : Proxy α} (h : s.Inv) (hstep : step clock l s = some s') :
    s'.Inv := by
  cases l with
  | note note =>
    cases hstep
    exact h.note note
  | connect note =>
    cases hstep
    have hnote := @Inv.note _ clock s h note
    constructor
    · intro j p hp
      rcases Nat.lt_or_ge j s.pumps.length with hj | hj
      · rw [List.getElem?_append_left hj] at hp
        exact (hnote.sound j p hp).of_framesOf rfl rfl
      · -- the two new pumps have read nothing
        have hnew := hnote.fresh j hj
        rw [List.getElem?_append_right hj] at hp
        obtain ⟨direction, rfl⟩ : ∃ direction, p = { direction := direction } := by
          have hmem := List.mem_of_getElem? hp
          simp only [List.mem_cons, List.not_mem_nil, or_false] at hmem
          rcases hmem with rfl | rfl
          · exact ⟨TX, rfl⟩
          · exact ⟨RX, rfl⟩
        exact (sound_new direction hnew).of_framesOf rfl rfl
    · intro j hj
      rw [List.length_append] at hj
      exact hnote.fresh j (le_trans (Nat.le_add_right _ _) hj)
  | chunk i data =>
    simp only [step] at hstep
    split_ifs at hstep
    obtain ⟨p, hp, rfl⟩ := Option.map_eq_some_iff.mp hstep
    obtain ⟨hget, hrun⟩ := running_eq_some hp
    obtain ⟨p', hpumps, hsound⟩ := @sound_readChunk _ clock s i p data (h.sound i p hget) hrun
    obtain ⟨hi, -⟩ := List.getElem?_eq_some_iff.mp hget
    exact h.turn hi hpumps (framing_readChunk data) (fun j => framesOf_readChunk_of_ne data) hsound
  | stop i =>
    obtain ⟨p, hp, rfl⟩ := Option.map_eq_some_iff.mp hstep
    obtain ⟨hget, hrun⟩ := running_eq_some hp
    obtain ⟨p', hpumps, hsound⟩ := @sound_finish _ clock s i p (h.sound i p hget) hrun
    obtain ⟨hi, -⟩ := List.getElem?_eq_some_iff.mp hget
    exact h.turn hi hpumps framing_finish (fun j => framesOf_finish_of_ne) hsound

/-- No pump has appended what the capture holds at the start. -/
theorem start_inv (framing : Framing) (c : Capture α) : (start framing c).Inv := by
  constructor
  · intro i p hp
    simp [start] at hp
  · intro i _
    simp [framesOf, start, List.filterMap_map]

end Proxy

/-- The framing is chosen once. -/
theorem Proxy.framing_step {α : Type} {clock : ℕ → α} {l : ProxyLabel} {s s' : Proxy α}
    (h : Proxy.step clock l s = some s') : s'.framing = s.framing := by
  cases l with
  | note note => cases h; rfl
  | connect note => cases h; rfl
  | chunk i data =>
    simp only [Proxy.step] at h
    split_ifs at h
    obtain ⟨p, -, rfl⟩ := Option.map_eq_some_iff.mp h
    exact Proxy.framing_readChunk data
  | stop i =>
    obtain ⟨p, -, rfl⟩ := Option.map_eq_some_iff.mp h
    exact Proxy.framing_finish

/-- No byte of the stream stands behind its last newline. -/
def endsTerminated (stream : Bytes) : Bool := (unfinished [] stream).isEmpty

/-- **When the proxy has recorded every byte.**  In every run, whatever the order of the
pumps' turns and wherever the chunks are cut, a pump that has left its loop has recorded
what it forwarded if and only if the framing is raw or no byte of its stream stands behind
the last newline. -/
theorem pump_records_every_byte {α : Type} (clock : ℕ → α) (framing : Framing) (c : Capture α)
    (s : Proxy α) (hrun : Run (Proxy.step clock) AnyStep (Proxy.start framing c) s)
    (i : ℕ) (p : Pump) (hp : s.pumps[i]? = some p) (hstopped : p.stopped = true) :
    s.RecordsEveryByte i p ↔ framing = .raw ∨ endsTerminated p.stream = true := by
  have hinv := hrun.invariant (I := Proxy.Inv) (fun a l b ha hst _ => Proxy.step_inv ha hst)
    (Proxy.start_inv framing c)
  -- the framing never changes
  have hframing : s.framing = framing :=
    hrun.invariant (I := fun t => t.framing = framing)
      (fun a l b ha hst _ => (Proxy.framing_step hst).trans ha) rfl
  have hsound := hinv.sound i p hp
  rw [Proxy.Sound, hframing] at hsound
  rw [Proxy.RecordsEveryByte, hframing, endsTerminated, List.isEmpty_iff]
  cases framing with
  | raw => exact ⟨fun _ => .inl rfl, fun _ => hsound⟩
  | lines =>
    obtain ⟨-, hframes⟩ := hsound
    rw [hframes, recordedLines, hstopped]
    by_cases hempty : unfinished [] p.stream = []
    · simp [hempty]
    · -- the frame holds nothing, but the unterminated bytes are something
      simp only [hempty, true_and, ne_eq, not_false_eq_true, if_true, if_false, or_false, iff_false,
        reduceCtorEq]
      intro heq
      have hlast := List.append_cancel_left heq
      have hdata := congrArg Frame.data (List.cons.inj hlast).1
      exact hempty (Option.some.inj hdata).symm

/-- A client sends a line and a realtime byte behind it, and is gone. -/
def lineAndStatus : List ProxyLabel :=
  [.connect "client connected".toList, .chunk 0 (ascii "$I\n?"), .stop 0]

/-- A proxy whose client sends a line and a status query, and leaves. -/
def lineAndStatusProxy : Proxy ℕ :=
  reach (Proxy.step id) lineAndStatus (Proxy.start .lines { startedAt := [] })

/-- The pump of the client, with a query that no newline ends. -/
def lineAndStatusPump : Pump := { direction := TX, stream := ascii "$I\n?", stopped := true }

theorem run_lineAndStatus :
    Run (Proxy.step id) AnyStep (Proxy.start .lines { startedAt := [] }) lineAndStatusProxy :=
  run_reach (by decide +kernel)

theorem pump_records_every_byte_lineAndStatus :
    lineAndStatusProxy.RecordsEveryByte 0 lineAndStatusPump ↔
      Framing.lines = .raw ∨ endsTerminated lineAndStatusPump.stream = true :=
  pump_records_every_byte id .lines { startedAt := [] } lineAndStatusProxy run_lineAndStatus 0
    lineAndStatusPump (by decide +kernel) rfl

/-- The realtime byte is forwarded, but an empty frame is recorded in its place. -/
theorem unterminated_bytes_lost :
    ∃ (s : Proxy ℕ) (p : Pump),
      Run (Proxy.step id) AnyStep (Proxy.start .lines { startedAt := [] }) s ∧
      s.pumps[0]? = some p ∧ p.stopped = true ∧ ¬ s.RecordsEveryByte 0 p := by
  refine ⟨lineAndStatusProxy, lineAndStatusPump, run_lineAndStatus, by decide +kernel, rfl, ?_⟩
  intro h
  have hframes : (lineAndStatusProxy.framesOf 0).map Frame.untimed
      = recordedLines lineAndStatusPump.direction lineAndStatusPump.stream := h
  exact absurd hframes (by decide +kernel)

end Raydriver
