import Raydriver.Analyzer.PyText
import Raydriver.Lib.Base64

/-!
# Captures

A capture is an ordered log of the frames exchanged between a host and a device.  It is
stored as JSON lines: a metadata line, then a line for each frame.  Python's `json` is not
part of the repository, so `dumps` and `loads` are parameters; offsets are the values of a
type with a rounding to six decimals.

## Main definitions

* `Frame`, `Capture` — recorded traffic.
* `Json` — the values that go into the file.
* `Frame.toJson`, `Frame.fromJson` — a frame and its record.
* `Capture.save`, `Capture.load` — a capture and its file.
* `JsonFaithful` — what is relied on of `json` for a record.

## Main results

* `Frame.fromJson_toJson` — a record is read back as its frame.
* `Capture.load_save` — **a saved capture is loaded with its offsets rounded**.
-/

namespace Raydriver

/-- Host to device. -/
def TX : Text := "tx".toList

/-- Device to host. -/
def RX : Text := "rx".toList

/-- A recorded frame.  A frame with neither text nor data is a note. -/
@[ext] structure Frame (α : Type) where
  direction : Text
  offset : α
  text : Option Text := none
  data : Option Bytes := none
  note : Option Text := none
  deriving DecidableEq, Repr

/-- A recorded conversation. -/
@[ext] structure Capture (α : Type) where
  protocol : Text := "raw".toList
  source : Text := []
  startedAt : Text
  frames : List (Frame α) := []
  deriving DecidableEq, Repr

/-- A JSON value; the entries of a dictionary are in insertion order. -/
inductive Json (α : Type) where
  | null
  | int (n : ℕ)
  | float (x : α)
  | str (t : Text)
  | dict (entries : List (Text × Json α))

variable {α : Type}

/-! ### Records -/

namespace Json

/-- The entry of a dictionary, if it has one. -/
def entry (key : Text) : Json α → Option (Option (Json α))
  | dict entries => some (entries.lookup key)
  | _ => none

/-- `record.get(key, default)`; only a dictionary has that method. -/
def get (record : Json α) (key : Text) (default : Json α) : Option (Json α) :=
  (record.entry key).map fun v => v.getD default

/-- A text.  A value of another type is no part of a file that was saved. -/
def asText : Json α → Option Text
  | str t => some t
  | _ => none

/-- A text or `None`. -/
def asOptText : Json α → Option (Option Text)
  | null => some none
  | str t => some (some t)
  | _ => none

/-- `float(entry["t"])`: the number of an entry. -/
def asFloat : Json α → Option α
  | float x => some x
  | _ => none

/-- `base64.b64decode`, for which a text has to be ASCII. -/
def decodeData : Json α → Option Bytes
  | str t => if t.all fun c => decide (c.toNat < 128) then Base64.decode t else none
  | _ => none

/-- The entry of an optional field. -/
def optional (key : Text) (value : Option (Json α)) : List (Text × Json α) :=
  (value.map fun v => (key, v)).toList

end Json

namespace Frame

/-- `Frame.payload`: the wire bytes. -/
def payload (f : Frame α) : Bytes :=
  match f.text with
  | some t => toUtf8 t
  | none => f.data.getD []

/-- `Frame.to_json`. -/
def toJson (round6 : α → α) (index : ℕ) (f : Frame α) : Json α :=
  .dict ([("i".toList, .int index), ("t".toList, .float (round6 f.offset)),
      ("d".toList, .str f.direction)] ++
    Json.optional "s".toList (f.text.map .str) ++
    Json.optional "b".toList (f.data.map fun data => .str (Base64.encode data)) ++
    Json.optional "n".toList (f.note.map .str))

/-- `Frame.from_json`; `none` is its `ValueError`. -/
def fromJson (record : Json α) : Option (Frame α) := do
  let direction ← (← record.get "d".toList .null).asText
  let offset ← (← record.get "t".toList .null).asFloat
  let text ← (← record.get "s".toList .null).asOptText
  let data ← match ← record.entry "b".toList with
    | some v => v.decodeData.map some
    | none => some none
  let note ← (← record.get "n".toList .null).asOptText
  some { direction, offset, text, data, note }

/-- The frame with its offset rounded. -/
def rounded (round6 : α → α) (f : Frame α) : Frame α := { f with offset := round6 f.offset }

end Frame

/-! ### Files -/

/-- `"\n".join(lines) + "\n"`. -/
def joinLines (lines : List Text) : Text := List.intercalate ['\n'] lines ++ ['\n']

namespace Capture

/-- The metadata line. -/
def metaRecord (version : Option Text) (c : Capture α) : Json α :=
  .dict [("meta".toList, .dict [
    ("format".toList, .int 1),
    ("protocol".toList, .str c.protocol),
    ("source".toList, .str c.source),
    ("started_at".toList, .str c.startedAt),
    ("raydriver".toList, (version.map .str).getD .null)])]

/-- The records of a file: the metadata, then the frames. -/
def records (round6 : α → α) (version : Option Text) (c : Capture α) : List (Json α) :=
  c.metaRecord version :: c.frames.mapIdx fun i f => f.toJson round6 i

/-- `Capture.save`: the bytes of the file. -/
def save (dumps : Json α → Text) (round6 : α → α) (version : Option Text) (sep : Linesep)
    (c : Capture α) : Bytes :=
  writeText sep (joinLines ((c.records round6 version).map dumps))

/-- `Capture.load`; `none` is an exception. -/
def load (loads : Text → Option (Json α)) (file : Bytes) : Option (Capture α) := do
  let text ← readText file
  match splitlines text with
  | [] => none
  | line :: lines => do
    let info ← (← loads line).get "meta".toList (.dict [])
    let protocol ← (← info.get "protocol".toList (.str "raw".toList)).asText
    let source ← (← info.get "source".toList (.str [])).asText
    let startedAt ← (← info.get "started_at".toList (.str [])).asText
    let frames ← (lines.filter fun line => !isBlank line).mapM fun line =>
      (loads line).bind Frame.fromJson
    some { protocol, source, startedAt, frames }

/-- The capture with its offsets rounded. -/
def rounded (round6 : α → α) (c : Capture α) : Capture α :=
  { c with frames := c.frames.map (Frame.rounded round6) }

end Capture

/-- What is relied on of `json` for a record: `loads` inverts `dumps`, whose output is
printable ASCII and starts with the brace of the dictionary. -/
structure JsonFaithful (dumps : Json α → Text) (loads : Text → Option (Json α))
    (record : Json α) : Prop where
  inverse : loads (dumps record) = some record
  printable : ∀ c ∈ dumps record, 0x20 ≤ c.toNat ∧ c.toNat ≤ 0x7E
  brace : (dumps record).head? = some '{'

theorem printable_of_all {t : Text}
    (h : (t.all fun c => decide (0x20 ≤ c.toNat) && decide (c.toNat ≤ 0x7E)) = true) :
    ∀ c ∈ t, 0x20 ≤ c.toNat ∧ c.toNat ≤ 0x7E := by
  intro c hc
  have hchar := List.all_eq_true.mp h c hc
  rwa [Bool.and_eq_true, decide_eq_true_eq, decide_eq_true_eq] at hchar

/-! ### Reading back what was written -/

theorem Json.decodeData_encode (data : Bytes) :
    (Json.str (Base64.encode data) : Json α).decodeData = some data := by
  have hascii : (Base64.encode data).all (fun c => decide (c.toNat < 128)) = true := by
    rw [List.all_eq_true]
    intro c hc
    exact decide_eq_true (Base64.encode_lt data c hc)
  rw [Json.decodeData, if_pos hascii, Base64.decode_encode]

/-- **A record is read back as its frame**, whichever of the optional fields are there. -/
theorem Frame.fromJson_toJson (round6 : α → α) (index : ℕ) (f : Frame α) :
    Frame.fromJson (f.toJson round6 index) = some (f.rounded round6) := by
  obtain ⟨direction, offset, text, data, note⟩ := f
  have hdata := fun data => Json.decodeData_encode (α := α) data
  cases text <;> cases data <;> cases note <;>
    simp [Frame.toJson, Frame.fromJson, Frame.rounded, Json.optional, Json.get, Json.entry,
      Json.asText, Json.asFloat, Json.asOptText, List.lookup_cons, hdata]

section Files

variable {dumps : Json α → Text} {loads : Text → Option (Json α)} {round6 : α → α}
  {version : Option Text}

namespace JsonFaithful

variable {record : Json α}

/-- Printable ASCII has no line break. -/
theorem noBreak (h : JsonFaithful dumps loads record) :
    ∀ c ∈ dumps record, isLineBreak c = false := by
  intro c hc
  have hp := h.printable c hc
  simp only [isLineBreak, Bool.or_eq_false_iff, Bool.and_eq_false_iff, decide_eq_false_iff_not,
    beq_eq_false_iff_ne]
  omega

theorem not_blank (h : JsonFaithful dumps loads record) : isBlank (dumps record) = false := by
  obtain ⟨rest, hrest⟩ := List.head?_eq_some_iff.mp h.brace
  have hbrace : isSpace '{' = false := by decide
  rw [isBlank, hrest, List.all_cons, hbrace, Bool.false_and]

end JsonFaithful

theorem joinLines_cons (line : Text) (lines : List Text) :
    joinLines (line :: lines)
      = line ++ '\n' :: (if lines.isEmpty then [] else joinLines lines) := by
  cases lines with
  | nil => simp [joinLines, List.intercalate]
  | cons next lines => simp [joinLines, List.intercalate]

theorem mem_joinLines {c : Char} : ∀ {lines : List Text}, c ∈ joinLines lines →
    c = '\n' ∨ ∃ line ∈ lines, c ∈ line := by
  intro lines
  induction lines with
  | nil => intro h; exact .inl (by simpa [joinLines, List.intercalate] using h)
  | cons line lines ih =>
    intro h
    rw [joinLines_cons] at h
    rcases List.mem_append.mp h with hline | h
    · exact .inr ⟨line, by simp, hline⟩
    · rcases List.mem_cons.mp h with hnl | h
      · exact .inl hnl
      · split_ifs at h
        · cases h
        · rcases ih h with hnl | ⟨l, hl, hc⟩
          · exact .inl hnl
          · exact .inr ⟨l, List.mem_cons_of_mem _ hl, hc⟩

/-- The lines of a file are cut apart again. -/
theorem splitlines_joinLines : ∀ lines : List Text, lines ≠ [] →
    (∀ line ∈ lines, ∀ c ∈ line, isLineBreak c = false) →
    splitlines (joinLines lines) = lines := by
  intro lines
  induction lines with
  | nil => exact fun h => absurd rfl h
  | cons line lines ih =>
    intro _ hbreak
    rw [joinLines_cons, splitlines_append (hbreak line (by simp))]
    cases lines with
    | nil => rfl
    | cons next lines =>
      have hrest := ih (by simp) fun l hl => hbreak l (List.mem_cons_of_mem _ hl)
      rw [List.isEmpty_cons, if_neg Bool.false_ne_true, hrest]

/-- The filter for blank lines lets every record through. -/
theorem filter_dumps {records : List (Json α)}
    (h : ∀ record ∈ records, JsonFaithful dumps loads record) :
    (records.map dumps).filter (fun line => !isBlank line) = records.map dumps := by
  rw [List.filter_eq_self]
  intro line hline
  obtain ⟨record, hrecord, rfl⟩ := List.mem_map.mp hline
  rw [(h record hrecord).not_blank, Bool.not_false]

theorem mapM_loads {records : List (Json α)}
    (h : ∀ record ∈ records, JsonFaithful dumps loads record) :
    ((records.map dumps).mapM fun line => (loads line).bind Frame.fromJson)
      = records.mapM Frame.fromJson := by
  induction records with
  | nil => rfl
  | cons record records ih =>
    have hhead := (h record (by simp)).inverse
    have hrest := ih fun r hr => h r (List.mem_cons_of_mem _ hr)
    rw [List.map_cons, List.mapM_cons, List.mapM_cons, hrest, hhead, Option.bind_some]

/-- The records of frames are read back as the frames, whatever their numbers. -/
theorem mapM_fromJson (round6 : α → α) : ∀ (frames : List (Frame α)) (index : ℕ → ℕ),
    (frames.mapIdx fun i f => f.toJson round6 (index i)).mapM Frame.fromJson
      = some (frames.map (Frame.rounded round6)) := by
  intro frames
  induction frames with
  | nil => exact fun index => rfl
  | cons f frames ih =>
    intro index
    have hrest := ih fun i => index (i + 1)
    rw [List.mapIdx_cons, List.mapM_cons, Frame.fromJson_toJson, hrest]
    rfl

/-- **A saved capture is loaded with its offsets rounded.** -/
theorem Capture.load_save {c : Capture α} (sep : Linesep)
    (h : ∀ record ∈ c.records round6 version, JsonFaithful dumps loads record) :
    Capture.load loads (c.save dumps round6 version sep) = some (c.rounded round6) := by
  have hlines : ∀ line ∈ (c.records round6 version).map dumps,
      ∀ ch ∈ line, isLineBreak ch = false := by
    intro line hline
    obtain ⟨record, hrecord, rfl⟩ := List.mem_map.mp hline
    exact (h record hrecord).noBreak
  have hcr : '\r' ∉ joinLines ((c.records round6 version).map dumps) := by
    intro hmem
    rcases mem_joinLines hmem with hnl | ⟨line, hline, hin⟩
    · exact absurd hnl (by decide)
    · exact absurd (hlines line hline _ hin) (by decide)
  have htext : readText (c.save dumps round6 version sep)
      = some (joinLines ((c.records round6 version).map dumps)) := readText_writeText hcr sep
  have hsplit := splitlines_joinLines _ (by simp [records]) hlines
  rw [records] at h
  have hmeta := (h _ (List.mem_cons_self ..)).inverse
  have hframes := fun record hr => h record (List.mem_cons_of_mem _ hr)
  have hread := mapM_fromJson round6 c.frames fun i => i
  rw [load, htext]
  simp only [Option.bind_eq_bind, Option.bind_some, hsplit]
  rw [records, List.map_cons]
  simp only [filter_dumps hframes, mapM_loads hframes, hread, hmeta, Option.bind_some]
  rfl

/-- Rounding twice does no more than rounding once, so the records stay the same. -/
theorem Capture.records_rounded (hround : ∀ x, round6 (round6 x) = round6 x) (c : Capture α) :
    (c.rounded round6).records round6 version = c.records round6 version := by
  have hframes : (c.frames.map (Frame.rounded round6)).mapIdx (fun i f => f.toJson round6 i)
      = c.frames.mapIdx fun i f => f.toJson round6 i := by
    apply List.ext_getElem
    · simp
    · intro i h h'
      simp [Frame.toJson, Frame.rounded, hround]
  rw [records, records, rounded, hframes]
  rfl

/-- **Captures survive their files**: the file of a capture is loaded with the same
metadata and the same frames, offsets rounded, and saving that capture again gives the
same file. -/
theorem capture_file_round_trips (c : Capture α) (sep : Linesep)
    (hjson : ∀ record ∈ c.records round6 version, JsonFaithful dumps loads record)
    (hround : ∀ x, round6 (round6 x) = round6 x) :
    ∃ c' : Capture α, Capture.load loads (c.save dumps round6 version sep) = some c' ∧
      c'.protocol = c.protocol ∧ c'.source = c.source ∧ c'.startedAt = c.startedAt ∧
      c'.frames = c.frames.map (fun f => { f with offset := round6 f.offset }) ∧
      c'.save dumps round6 version sep = c.save dumps round6 version sep := by
  refine ⟨c.rounded round6, Capture.load_save sep hjson, rfl, rfl, rfl, rfl, ?_⟩
  rw [Capture.save, Capture.save, Capture.records_rounded hround]

end Files

/-! A recording of two frames, with offsets in nanoseconds, and what `json` makes of it. -/

/-- Rounding nanoseconds to microseconds. -/
def roundNanos (x : ℕ) : ℕ := (x + 500) / 1000 * 1000

/-- A command, with a character that `json.dumps` escapes. -/
def probeTx : Frame ℕ :=
  { direction := TX, offset := 250000400, text := some "$I\n\u2028".toList }

/-- An answer in bytes that are no UTF-8. -/
def probeRx : Frame ℕ :=
  { direction := RX, offset := 500000000, data := some [0x88, 0xA8, 0x00] }

/-- A capture of the two. -/
def probeCapture : Capture ℕ where
  protocol := "grbl".toList
  source := "probe".toList
  startedAt := "2025-01-01T00:00:00+00:00".toList
  frames := [probeTx, probeRx]

/-- The metadata of the capture as a line of its file. -/
def probeMetaLine : Text :=
  ("\x7b\"meta\": \x7b\"format\": 1, \"protocol\": \"grbl\", \"source\": \"probe\", " ++
    "\"started_at\": \"2025-01-01T00:00:00+00:00\", \"raydriver\": null\x7d\x7d").toList

/-- The first frame as a line. -/
def probeTxLine : Text :=
  "\x7b\"i\": 0, \"t\": 0.25, \"d\": \"tx\", \"s\": \"$I\\n\\u2028\"\x7d".toList

/-- The second frame as a line. -/
def probeRxLine : Text :=
  "\x7b\"i\": 1, \"t\": 0.5, \"d\": \"rx\", \"b\": \"iKgA\"\x7d".toList

/-- `json.dumps` of the records of the probe. -/
def probeDumps (record : Json ℕ) : Text :=
  match record.entry "i".toList with
  | some (some (.int 0)) => probeTxLine
  | some (some _) => probeRxLine
  | _ => probeMetaLine

/-- `json.loads` of its lines. -/
def probeLoads (line : Text) : Option (Json ℕ) :=
  if line = probeMetaLine then some (probeCapture.metaRecord none)
  else if line = probeTxLine then some (probeTx.toJson roundNanos 0)
  else if line = probeRxLine then some (probeRx.toJson roundNanos 1)
  else none

theorem probeMetaLine_take : probeMetaLine.take 3 = ['{', '"', 'm'] := by decide +kernel

theorem probeMetaLine_printable : ∀ c ∈ probeMetaLine, 0x20 ≤ c.toNat ∧ c.toNat ≤ 0x7E :=
  printable_of_all (by decide +kernel)

theorem probeMetaLine_brace : probeMetaLine.head? = some '{' := by
  have hhead := congrArg List.head? probeMetaLine_take
  rwa [List.head?_take, if_neg (by decide)] at hhead

theorem ne_probeMetaLine {line : Text} (h : line.take 3 ≠ ['{', '"', 'm']) :
    line ≠ probeMetaLine :=
  fun heq => h (heq ▸ probeMetaLine_take)

theorem probe_faithful : ∀ record ∈ probeCapture.records roundNanos none,
    JsonFaithful probeDumps probeLoads record := by
  have hrecords : probeCapture.records roundNanos none = [probeCapture.metaRecord none,
      probeTx.toJson roundNanos 0, probeRx.toJson roundNanos 1] := rfl
  have htx : probeTxLine ≠ probeMetaLine := ne_probeMetaLine (by decide +kernel)
  have hrx : probeRxLine ≠ probeMetaLine ∧ probeRxLine ≠ probeTxLine :=
    ⟨ne_probeMetaLine (by decide +kernel), by decide +kernel⟩
  rw [hrecords]
  intro record hrecord
  simp only [List.mem_cons, List.not_mem_nil, or_false] at hrecord
  rcases hrecord with rfl | rfl | rfl
  · refine ⟨?_, probeMetaLine_printable, probeMetaLine_brace⟩
    have hline : probeDumps (probeCapture.metaRecord none) = probeMetaLine := rfl
    rw [hline, probeLoads, if_pos rfl]
  · refine ⟨?_, printable_of_all (by decide +kernel), by decide +kernel⟩
    have hline : probeDumps (probeTx.toJson roundNanos 0) = probeTxLine := rfl
    rw [hline, probeLoads, if_neg htx, if_pos rfl]
  · refine ⟨?_, printable_of_all (by decide +kernel), by decide +kernel⟩
    have hline : probeDumps (probeRx.toJson roundNanos 1) = probeRxLine := rfl
    rw [hline, probeLoads, if_neg hrx.1, if_neg hrx.2, if_pos rfl]

theorem capture_file_round_trips_probe :
    ∃ c' : Capture ℕ,
      Capture.load probeLoads (probeCapture.save probeDumps roundNanos none .lf) = some c' ∧
      c'.protocol = probeCapture.protocol ∧ c'.source = probeCapture.source ∧
      c'.startedAt = probeCapture.startedAt ∧
      c'.frames = probeCapture.frames.map (fun f => { f with offset := roundNanos f.offset }) ∧
      c'.save probeDumps roundNanos none .lf = probeCapture.save probeDumps roundNanos none .lf :=
  capture_file_round_trips probeCapture .lf probe_faithful
    (fun x => by simp only [roundNanos]; omega)

end Raydriver
