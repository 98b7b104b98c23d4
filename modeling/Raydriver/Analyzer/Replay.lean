import Raydriver.Analyzer.Capture
import Raydriver.Grbl.Tasks

/-!
# Recording and replay

A `SessionCore` reports what it writes through `raw_tx`, without trailing whitespace.  The
recorder makes a text frame of every report, and replay writes the frames again, with the
newline that was taken off.

## Main definitions

* `Tx` — a reported write: a command with its newline, or a bare realtime byte.
* `Recorder.call`, `record` — the recorder on one event and on all of them.
* `replayFrames` — `replay_frames`.
* `Tx.replayable` — the writes replay gets right.

## Main results

* `replay_reproduces_writes` — **when a replay writes what was written**.
-/

namespace Raydriver

/-! ### What is reported -/

/-- A write of a `SessionCore` that it reports: that of `send_command_bytes` and its
siblings, or that of `send_realtime` without a newline. -/
inductive Tx where
  | command (line : Text)
  | realtime (byte : Text) (h : byte ∈ grblRealtimeCommands)
  deriving DecidableEq, Repr

namespace Tx

/-- The bytes handed to the transport. -/
def payload : Tx → Text
  | command line => commandLine line
  | realtime byte _ => byte

/-- The text of the `RawTx` event. -/
def rawTx : Tx → Text
  | command line => trimEnd (commandLine line)
  | realtime byte _ => byte

/-- **The writes that replay gets right**: commands that do not end in white space. -/
def replayable : Tx → Bool
  | command line => decide (trimEnd line = line)
  | realtime _ _ => false

end Tx

/-- The events of a session; those that are no traffic are not recorded. -/
inductive TrafficEvent where
  | rawTx (tx : Tx)
  | rawRx (line : Text)
  | other
  deriving DecidableEq, Repr

/-- What the events of a session report as written. -/
def writesOf (events : List TrafficEvent) : List Tx :=
  events.filterMap fun e =>
    match e with
    | .rawTx tx => some tx
    | _ => none

/-! ### Recorder and replay -/

variable {α : Type}

namespace Capture

/-- `Capture.append` with a text, timestamped by the clock. -/
def appendText (clock : ℕ → α) (direction text : Text) (c : Capture α) : Capture α :=
  { c with frames := c.frames ++
      [{ direction := direction, offset := clock c.frames.length, text := some text }] }

end Capture

/-- `Recorder.__call__`. -/
def Recorder.call (clock : ℕ → α) (c : Capture α) : TrafficEvent → Capture α
  | .rawTx tx => c.appendText clock TX tx.rawTx
  | .rawRx line => c.appendText clock RX line
  | .other => c

/-- The capture of a session. -/
def record (clock : ℕ → α) (c : Capture α) (events : List TrafficEvent) : Capture α :=
  events.foldl (Recorder.call clock) c

/-- What replay does. -/
inductive ReplayAction (α : Type) where
  | sleep (delay : α)
  | write (payload : Bytes)
  deriving DecidableEq, Repr

/-- The bytes replay writes for a frame: a text gets its newline back. -/
def Frame.wire (f : Frame α) : Bytes :=
  if f.text.isSome && f.payload.getLast? != some LF then f.payload ++ [LF] else f.payload

/-- The frames replay sends. -/
def Frame.isSent (f : Frame α) : Bool := f.direction == TX && f.note.isNone

section Replay

variable [Zero α] [Sub α] [Div α] [LT α] [DecidableLT α]

/-- The pause before a frame, `last` being the offset of the frame before it. -/
def pause (speed : α) (last : Option α) (offset : α) : List (ReplayAction α) :=
  match last with
  | none => []
  | some last =>
    if 0 < speed then
      let delay := (offset - last) / speed
      if 0 < delay then [.sleep delay] else []
    else []

/-- `replay_frames`, behind a frame with the offset `last`. -/
def replayFrom (speed : α) : Option α → List (Frame α) → List (ReplayAction α)
  | _, [] => []
  | last, f :: frames =>
    if f.isSent then
      pause speed last f.offset ++ .write f.wire :: replayFrom speed (some f.offset) frames
    else replayFrom speed last frames

/-- `replay_frames`. -/
def replayFrames (speed : α) (frames : List (Frame α)) : List (ReplayAction α) :=
  replayFrom speed none frames

/-- What is written, one element for each call of `write`. -/
def written (actions : List (ReplayAction α)) : List Bytes :=
  actions.filterMap fun a =>
    match a with
    | .write payload => some payload
    | .sleep _ => none

theorem written_pause (speed : α) (last : Option α) (offset : α) :
    written (pause speed last offset) = [] := by
  unfold pause
  split
  · rfl
  · dsimp only
    split_ifs <;> rfl

/-- The speed decides when, not what. -/
theorem written_replayFrom (speed : α) : ∀ (frames : List (Frame α)) (last : Option α),
    written (replayFrom speed last frames) = (frames.filter Frame.isSent).map Frame.wire := by
  intro frames
  induction frames with
  | nil => intro last; rfl
  | cons f frames ih =>
    intro last
    rw [replayFrom, List.filter_cons]
    split_ifs
    · have hpause := written_pause speed last f.offset
      have hrest := ih (some f.offset)
      rw [written] at hpause hrest ⊢
      rw [List.filterMap_append, hpause, List.nil_append, List.filterMap_cons, List.map_cons, hrest]
    · exact ih last

end Replay

/-! ### What is replayed -/

/-- The bytes replay writes for a reported write. -/
def Tx.replayed (tx : Tx) : Bytes :=
  Frame.wire { direction := TX, offset := (), text := some tx.rawTx }

/-- The frames of the reports are those that are sent. -/
theorem wire_record (clock : ℕ → α) : ∀ (events : List TrafficEvent) (c : Capture α),
    ((record clock c events).frames.filter Frame.isSent).map Frame.wire
      = (c.frames.filter Frame.isSent).map Frame.wire ++ (writesOf events).map Tx.replayed := by
  intro events
  induction events with
  | nil => intro c; simp [record, writesOf]
  | cons e events ih =>
    intro c
    have hrest := ih (Recorder.call clock c e)
    rw [record, List.foldl_cons, ← record, hrest]
    cases e with
    | rawTx tx =>
      simp [Recorder.call, Capture.appendText, Frame.isSent, writesOf, Tx.replayed, Frame.wire,
        Frame.payload]
    | rawRx line =>
      have hrx : (RX == TX) = false := by decide
      simp [Recorder.call, Capture.appendText, Frame.isSent, writesOf, hrx]
    | other => rfl

/-- Rounding the offsets changes nothing that is written. -/
theorem wire_rounded (round6 : α → α) (frames : List (Frame α)) :
    ((frames.map (Frame.rounded round6)).filter Frame.isSent).map Frame.wire
      = (frames.filter Frame.isSent).map Frame.wire := by
  rw [List.filter_map, List.map_map]
  rfl

/-- Only the newline ends with the byte LF. -/
theorem eq_newline_of_getLast? {c : Char} (h : (charBytes c).getLast? = some LF) : c = '\n' := by
  have hmax : c.toNat < 0x110000 := by
    rcases c.valid with h | h
    · exact lt_trans h (by decide)
    · exact h.2
  -- a continuation byte is not below 0x80
  have hcont : ∀ v < 64, UInt8.ofNat (0x80 + v) ≠ LF := by
    intro v hv he
    have hn := congrArg UInt8.toNat he
    rw [toNat_ofNat_byte (by omega)] at hn
    have h10 : LF.toNat = 10 := rfl
    omega
  simp only [charBytes] at h
  split_ifs at h with h1 h2 h3
  · have hn : (UInt8.ofNat c.toNat).toNat = LF.toNat := congrArg UInt8.toNat (Option.some.inj h)
    rw [toNat_ofNat_byte (by omega)] at hn
    exact Char.ext (UInt32.toNat.inj hn)
  · exact absurd (Option.some.inj h) (hcont _ (by omega))
  · exact absurd (Option.some.inj h) (hcont _ (by omega))
  · exact absurd (Option.some.inj h) (hcont _ (by omega))

/-- A text that ends with another character than the newline gets one. -/
theorem getLast?_toUtf8_concat {t : Text} {c : Char} (hc : c ≠ '\n') :
    (toUtf8 (t ++ [c])).getLast? ≠ some LF := by
  intro h
  rw [toUtf8_append, toUtf8_cons, toUtf8_nil, List.append_nil, List.getLast?_append] at h
  have hne : charBytes c ≠ [] := by
    unfold charBytes
    dsimp only
    split_ifs <;> simp
  rw [List.getLast?_eq_some_getLast hne] at h
  refine hc (eq_newline_of_getLast? ?_)
  rw [List.getLast?_eq_some_getLast hne]
  exact h

/-- A trimmed text does not end with a newline. -/
theorem getLast?_toUtf8_trimEnd (t : Text) : (toUtf8 (trimEnd t)).getLast? ≠ some LF := by
  rcases List.eq_nil_or_concat' (trimEnd t) with hnil | ⟨u, c, hu⟩
  · rw [hnil]
    simp
  · rw [hu]
    refine getLast?_toUtf8_concat ?_
    rintro rfl
    have htrim : t.rdropWhile isWhitespace = u ++ ['\n'] := hu
    have hlast := List.rdropWhile_last_not isWhitespace t (by rw [htrim]; simp)
    simp only [htrim, List.getLast_append_singleton] at hlast
    exact hlast (by decide)

theorem trimEnd_commandLine (line : Text) : trimEnd (commandLine line) = trimEnd line := by
  refine trimEnd_append fun c hc => ?_
  rw [List.mem_singleton.mp hc]
  rfl

/-- **A write is replayed right** if and only if it is a command without white space at its
end: the newline of a bare realtime byte is one too many. -/
theorem Tx.replayed_eq_iff (tx : Tx) : tx.replayed = toUtf8 tx.payload ↔ tx.replayable = true := by
  cases tx with
  | command line =>
    have hwire : (Tx.command line).replayed = toUtf8 (trimEnd line) ++ [LF] := by
      have hlast := getLast?_toUtf8_trimEnd line
      simp [Tx.replayed, Tx.rawTx, Frame.wire, Frame.payload, trimEnd_commandLine, hlast]
    have hpayload : toUtf8 (Tx.command line).payload = toUtf8 line ++ [LF] := by
      rw [Tx.payload, commandLine, toUtf8_append]
      rfl
    rw [hwire, hpayload, List.append_left_inj, Tx.replayable, decide_eq_true_iff]
    exact ⟨toUtf8_injective, fun h => congrArg toUtf8 h⟩
  | realtime byte h =>
    have hbytes := h
    simp only [grblRealtimeCommands, List.mem_cons, List.not_mem_nil, or_false] at hbytes
    rcases hbytes with rfl | rfl | rfl <;> decide +revert

section Recordings

variable [Zero α] [Sub α] [Div α] [LT α] [DecidableLT α]

/-- **When a replay writes what was written.**  Whatever the session reports and receives,
at any speed and also for the saved and loaded capture, replay makes the writes that were
reported if and only if none of them is a bare realtime byte or a command that ends in
white space. -/
theorem replay_reproduces_writes (dumps : Json α → Text) (loads : Text → Option (Json α))
    (round6 : α → α) (version : Option Text) (sep : Linesep) (clock : ℕ → α) (speed : α)
    (protocol source startedAt : Text) (events : List TrafficEvent)
    (hjson : ∀ r ∈ (record clock { protocol, source, startedAt } events).records round6 version,
      JsonFaithful dumps loads r) :
    (written (replayFrames speed (record clock { protocol, source, startedAt } events).frames)
        = (writesOf events).map (fun tx => toUtf8 tx.payload) ∧
      ∃ c : Capture α,
        Capture.load loads ((record clock { protocol, source, startedAt } events).save dumps
          round6 version sep) = some c ∧
        written (replayFrames speed c.frames)
          = (writesOf events).map fun tx => toUtf8 tx.payload) ↔
      (writesOf events).all Tx.replayable = true := by
  have hframes := wire_record clock events { protocol, source, startedAt }
  have hwritten := written_replayFrom speed
    (record clock { protocol, source, startedAt } events).frames none
  rw [hframes, List.filter_nil, List.map_nil, List.nil_append] at hwritten
  -- the writes agree one by one
  have hpointwise : (writesOf events).map Tx.replayed
      = (writesOf events).map (fun tx => toUtf8 tx.payload) ↔
        (writesOf events).all Tx.replayable = true := by
    rw [List.map_inj_left, List.all_eq_true]
    exact forall₂_congr fun tx _ => tx.replayed_eq_iff
  rw [replayFrames, hwritten]
  constructor
  · rintro ⟨hlive, -⟩
    exact hpointwise.mp hlive
  · intro hall
    have hlive := hpointwise.mpr hall
    refine ⟨hlive, _, Capture.load_save sep hjson, ?_⟩
    rw [replayFrames, written_replayFrom, Capture.rounded, wire_rounded, hframes]
    exact hlive

end Recordings

/-! A session that asks for the build info and unlocks, recorded at quarters of a second, and
what `json` makes of the recording. -/

/-- Two commands, with an answer in between. -/
def infoAndUnlock : List TrafficEvent :=
  [.rawTx (.command "$I".toList), .rawRx "ok".toList, .rawTx (.command "$X".toList)]

/-- The recording. -/
def infoCapture : Capture ℕ :=
  record (fun n => 250000000 * (n + 1))
    { protocol := "grbl".toList, source := "probe".toList,
      startedAt := "2025-01-01T00:00:00+00:00".toList } infoAndUnlock

/-- Its first frame. -/
def infoFrame : Frame ℕ := { direction := TX, offset := 250000000, text := some "$I".toList }

/-- The answer. -/
def okFrame : Frame ℕ := { direction := RX, offset := 500000000, text := some "ok".toList }

/-- Its last frame. -/
def unlockFrame : Frame ℕ := { direction := TX, offset := 750000000, text := some "$X".toList }

/-- The first frame as a line of the file. -/
def infoLine : Text :=
  "\x7b\"i\": 0, \"t\": 0.25, \"d\": \"tx\", \"s\": \"$I\"\x7d".toList

/-- The answer as a line. -/
def okLine : Text :=
  "\x7b\"i\": 1, \"t\": 0.5, \"d\": \"rx\", \"s\": \"ok\"\x7d".toList

/-- The last frame as a line. -/
def unlockLine : Text :=
  "\x7b\"i\": 2, \"t\": 0.75, \"d\": \"tx\", \"s\": \"$X\"\x7d".toList

/-- `json.dumps` of the records of the recording. -/
def infoDumps (r : Json ℕ) : Text :=
  match r.entry "i".toList with
  | some (some (.int 0)) => infoLine
  | some (some (.int 1)) => okLine
  | some (some _) => unlockLine
  | _ => probeMetaLine

/-- `json.loads` of its lines. -/
def infoLoads (line : Text) : Option (Json ℕ) :=
  if line = probeMetaLine then some (infoCapture.metaRecord none)
  else if line = infoLine then some (infoFrame.toJson roundNanos 0)
  else if line = okLine then some (okFrame.toJson roundNanos 1)
  else if line = unlockLine then some (unlockFrame.toJson roundNanos 2)
  else none

theorem info_faithful : ∀ r ∈ infoCapture.records roundNanos none,
    JsonFaithful infoDumps infoLoads r := by
  have hrecords : infoCapture.records roundNanos none
      = [infoCapture.metaRecord none, infoFrame.toJson roundNanos 0, okFrame.toJson roundNanos 1,
        unlockFrame.toJson roundNanos 2] := rfl
  have hinfo : infoLine ≠ probeMetaLine := ne_probeMetaLine (by decide +kernel)
  have hok : okLine ≠ probeMetaLine := ne_probeMetaLine (by decide +kernel)
  have hunlock : unlockLine ≠ probeMetaLine := ne_probeMetaLine (by decide +kernel)
  have hokInfo : okLine ≠ infoLine := by decide +kernel
  have hunlockInfo : unlockLine ≠ infoLine := by decide +kernel
  have hunlockOk : unlockLine ≠ okLine := by decide +kernel
  rw [hrecords]
  intro r hr
  simp only [List.mem_cons, List.not_mem_nil, or_false] at hr
  rcases hr with rfl | rfl | rfl | rfl
  · refine ⟨?_, probeMetaLine_printable, probeMetaLine_brace⟩
    have hline : infoDumps (infoCapture.metaRecord none) = probeMetaLine := rfl
    rw [hline, infoLoads, if_pos rfl]
  · refine ⟨?_, printable_of_all (by decide +kernel), by decide +kernel⟩
    have hline : infoDumps (infoFrame.toJson roundNanos 0) = infoLine := rfl
    rw [hline, infoLoads, if_neg hinfo, if_pos rfl]
  · refine ⟨?_, printable_of_all (by decide +kernel), by decide +kernel⟩
    have hline : infoDumps (okFrame.toJson roundNanos 1) = okLine := rfl
    rw [hline, infoLoads, if_neg hok, if_neg hokInfo, if_pos rfl]
  · refine ⟨?_, printable_of_all (by decide +kernel), by decide +kernel⟩
    have hline : infoDumps (unlockFrame.toJson roundNanos 2) = unlockLine := rfl
    rw [hline, infoLoads, if_neg hunlock, if_neg hunlockInfo, if_neg hunlockOk, if_pos rfl]

/-- Two commands are replayed in their order: the general result. -/
theorem replay_reproduces_writes_info :
    (written (replayFrames 2 infoCapture.frames) = [ascii "$I\n", ascii "$X\n"] ∧
      ∃ c : Capture ℕ,
        Capture.load infoLoads (infoCapture.save infoDumps roundNanos none .lf) = some c ∧
        written (replayFrames 2 c.frames) = [ascii "$I\n", ascii "$X\n"]) ↔
      (writesOf infoAndUnlock).all Tx.replayable = true :=
  replay_reproduces_writes infoDumps infoLoads roundNanos none .lf
    (fun n => 250000000 * (n + 1)) 2 "grbl".toList "probe".toList
    "2025-01-01T00:00:00+00:00".toList infoAndUnlock info_faithful

/-- A session asks for the build info and polls. -/
def infoAndPoll : List TrafficEvent :=
  [.rawTx (.command "$I".toList), .rawRx "ok".toList, .rawTx (.realtime "?".toList (by decide))]

/-- The poll is replayed with a newline. -/
theorem poll_replayed_as_line :
    written (replayFrames 1 (record (fun n => n) { startedAt := [] } infoAndPoll).frames)
      ≠ (writesOf infoAndPoll).map fun tx => toUtf8 tx.payload := by
  decide +kernel

end Raydriver
