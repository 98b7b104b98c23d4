import Raydriver.Analyzer.Capture
import Raydriver.Emulator.Words
import Raydriver.Grbl.Feedback

/-!
# Decoded listings

A decoder puts a short summary next to each frame of a capture.  The one for GRBL goes by the
first characters of a line, and then reads it with the parsers of the driver; settings it reads
with an expression of its own, which wants blanks around the equals sign.

Python's `{x:g}` is a parameter, and `{x:.3f}` is the rounding of exact decimals.

## Main definitions

* `decodeTx`, `decodeRx`, `decodeFrame` — the summary of a frame.
* `Understood` — what the driver parses of a received line shows in its summary.

## Main results

* `decodeFeedback_ne_nil` — a summary that is given is not empty.
* `understood_iff` — **which lines are understood**: no settings line that the driver can parse,
  and of the others all but version lines that have a version only by the blanks at their end.
-/

namespace Raydriver

open Emulator (strip)

/-! ### The decoder -/

/-- `_REALTIME_TX`. -/
def realtimeTx : List (Text × Text) :=
  [("?".toList, "status report request".toList), ("~".toList, "cycle start".toList),
   ("!".toList, "feed hold".toList), ("\x18".toList, "soft reset".toList)]

/-- `_INTERACTIVE_TX`. -/
def interactiveTx : List (Text × Text) :=
  [("$I".toList, "build info request".toList), ("$$".toList, "settings request".toList),
   ("$G".toList, "parser state request".toList), ("$#".toList, "WCS offsets request".toList),
   ("$H".toList, "home all axes".toList), ("$X".toList, "clear alarm".toList)]

/-- `GrblDecoder._decode_tx`. -/
def decodeTx (line : Text) : Text :=
  ((realtimeTx.lookup line).or (interactiveTx.lookup line)).getD
    (if startsWith "$J=".toList line then "jog".toList
    else if startsWith "$".toList line then "setting command".toList
    else [])

/-- The name of a status in the bindings. -/
def statusName (status : DeviceStatus) : Text :=
  ((statusNames.find? fun entry => entry.2 == status).map Prod.fst).getD "UNKNOWN".toList

/-- `str.partition`: what is before the separator, the separator, and what is behind it. -/
def partition (sep : Text) : Text → Text × Text × Text
  | [] => ([], [], [])
  | c :: t =>
    match stripPrefix sep (c :: t) with
    | some rest => ([], sep, rest)
    | none =>
      let (before, found, rest) := partition sep t
      (c :: before, found, rest)

/-- `_SETTING_LINE`: `^\$\d+ = `. -/
def matchesSettingLine (line : Text) : Bool :=
  ((stripPrefix "$".toList line).bind readDigits).any fun (_, rest) => startsWith " = ".toList rest

/-- The last lines of `_decode_rx`. -/
def decodeSetting (line : Text) : Text :=
  if matchesSettingLine line then
    let (key, _, value) := partition " = ".toList line
    "setting ".toList ++ key ++ " = ".toList ++ value
  else []

section Decoder

variable (general : ℚ → Text)

/-- `{x:g},{y:g},{z:g}`. -/
def coordinates : ℚ × ℚ × ℚ → Text
  | (x, y, z) => general x ++ [','] ++ general y ++ [','] ++ general z

/-- The summary of a status report. -/
def decodeReport (line : Text) : Text :=
  let state := parseState line {} false
  let positions := [','].intercalate (state.machinePos.map fun v => v.elim ['-'] (fixedDecimal 3))
  statusName state.status ++ " MPos:".toList ++ positions ++
    (state.feedRate.map fun feed => " F".toList ++ general feed).getD []

/-- The branches of `_decode_rx` on answers and reports, where they return. -/
def decodeFeedback (line : Text) : Option Text :=
  if startsWith "[MSG:".toList line then
    (parseMsg line).map fun (key, value) => "message ".toList ++ key ++ ['='] ++ value
  else if startsWith "[VER:".toList line then
    (parseVer line).map fun (version, build) =>
      "version ".toList ++ version ++
        ((build.filter fun b => !b.isEmpty).map fun b => " (".toList ++ b ++ [')']).getD []
  else if startsWith "[OPT:".toList line then
    let parts := ((parseOptFlags line).map fun flags => "options ".toList ++ flags).toList ++
      ((parseOptInfo line).map fun buffer => "rx buffer ".toList ++ intText buffer).toList
    if parts.isEmpty then none else some (", ".toList.intercalate parts)
  else if startsWith "[PRB:".toList line then
    (parseProbeLine line).map fun (pos, found) =>
      "probe (".toList ++ (if found then "found".toList else "miss".toList) ++ ") at ".toList ++
        coordinates general pos
  else if startsWith "[G5".toList line || startsWith "[G59".toList line then
    (parseWcsLine line).map fun (name, pos) =>
      "WCS ".toList ++ name ++ " = ".toList ++ coordinates general pos
  else if startsWith "<".toList line && line.getLast? == some '>' then
    some (decodeReport general line)
  else none

/-- `GrblDecoder._decode_rx`. -/
def decodeRx (line : Text) : Text :=
  if line = "ok".toList then "ack".toList
  else if startsWith "error:".toList line then
    "error: ".toList ++ (errorCodeToDeviceError (strip (line.drop 6))).title.toList
  else if startsWith "ALARM:".toList line then
    "alarm: ".toList ++ (alarmCodeToDeviceError (strip (line.drop 6))).title.toList
  else (decodeFeedback general line).getD (decodeSetting line)

/-- `GrblDecoder.decode_frame`. -/
def decodeFrame {α : Type} (frame : Frame α) : Text :=
  match frame.text with
  | none => []
  | some text =>
    let line := strip text
    if line.isEmpty then []
    else if frame.direction = TX then decodeTx line
    else decodeRx general line

end Decoder

example : decodeFrame (fun _ => ['x']) { direction := RX, offset := (), text := "$1 = 3".toList } =
    "setting $1 = 3".toList := by decide

example : decodeFrame (fun _ => ['x'])
    { direction := RX, offset := (), text := "[G54:0.000,-1,0]\r".toList } =
      "WCS G54 = x,x,x".toList := by decide +kernel

/-! ### What the driver parses -/

/-- `$k=v` for a text `k` of digits and a text `v` of digits, points and minus signs. -/
def SettingsLine (key value line : Text) : Prop :=
  line = "$".toList ++ key ++ "=".toList ++ value ∧ (key ≠ [] ∧ ∀ c ∈ key, isDigit c = true) ∧
    value ≠ [] ∧ ∀ c ∈ value, isSettingChar c = true

/-- A parser of the driver accepts the line, from its first character on. -/
def FromFirst (line : Text) : Prop :=
  ((readWcs line).isSome = true ∧ (parseWcsLine line).isSome = true) ∨
    ((readProbe line).isSome = true ∧ (parseProbeLine line).isSome = true) ∨
    (parseMsg line).isSome = true ∨ (parseVer line).isSome = true ∨
    ((readOpt line).isSome = true ∧ (parseOptInfo line).isSome = true)

/-- What the driver parses of a received line shows in its summary: the number and the value of a
setting, and something for an answer in brackets. -/
def Understood (summary line : Text) : Prop :=
  (∀ key value, SettingsLine key value line → key <:+: summary ∧ value <:+: summary) ∧
    (FromFirst line → summary ≠ [])

/-- A version line that has a version only as long as the blanks at its end are there. -/
def BlankVersion (line : Text) : Prop :=
  ∃ content, line = "[VER:".toList ++ content ∧
    content.rdropWhile (fun c => c == ':' || c == ']') ≠ [] ∧
    (content.rdropWhile isSpace).rdropWhile (fun c => c == ':' || c == ']') = []

/-! ### Summaries -/

section Summaries

variable {general : ℚ → Text} {t summary : Text}

/-- A summary that is given is not empty. -/
theorem decodeFeedback_ne_nil (h : decodeFeedback general t = some summary) : summary ≠ [] := by
  unfold decodeFeedback at h
  split_ifs at h with hmsg hver hopt hprb hwcs
  · obtain ⟨_, -, rfl⟩ := Option.map_eq_some_iff.mp h
    exact List.append_ne_nil_of_left_ne_nil (List.append_ne_nil_of_right_ne_nil _ (by simp)) _
  · obtain ⟨_, -, rfl⟩ := Option.map_eq_some_iff.mp h
    simp
  · -- each of the parts begins with a word of its own
    cases hflags : parseOptFlags t with
    | some flags =>
      cases hbuffer : parseOptInfo t with
      | some buffer =>
        rw [hflags, hbuffer] at h
        obtain rfl := Option.some.inj h
        simp [List.intercalate]
      | none =>
        rw [hflags, hbuffer] at h
        obtain rfl := Option.some.inj h
        simp [List.intercalate]
    | none =>
      cases hbuffer : parseOptInfo t with
      | some buffer =>
        rw [hflags, hbuffer] at h
        obtain rfl := Option.some.inj h
        simp [List.intercalate]
      | none =>
        rw [hflags, hbuffer] at h
        cases h
  · obtain ⟨_, -, rfl⟩ := Option.map_eq_some_iff.mp h
    simp
  · obtain ⟨_, -, rfl⟩ := Option.map_eq_some_iff.mp h
    simp
  · obtain rfl := Option.some.inj h
    simp [decodeReport]

/-- An answer in brackets has a summary if its own branch returns one. -/
theorem decodeRx_bracket : decodeRx general ('[' :: t) ≠ [] ↔
    (decodeFeedback general ('[' :: t)).isSome = true := by
  have hsetting : decodeSetting ('[' :: t) = [] := rfl
  have hrx : decodeRx general ('[' :: t) =
      (decodeFeedback general ('[' :: t)).getD (decodeSetting ('[' :: t)) := by
    unfold decodeRx
    rw [if_neg (fun h => by cases h), if_neg (by exact Bool.false_ne_true),
      if_neg (by exact Bool.false_ne_true)]
  rw [hrx, hsetting]
  cases h : decodeFeedback general ('[' :: t) with
  | none => simp
  | some summary => simpa using decodeFeedback_ne_nil h

/-- A settings line has no summary: the equals sign behind the number is not what the decoder
looks for. -/
theorem decodeRx_settingsLine {key value : Text} (h : SettingsLine key value t) :
    decodeRx general t = [] := by
  obtain ⟨rfl, ⟨hkey, hdigits⟩, -, -⟩ := h
  have happ : "$".toList ++ key ++ "=".toList ++ value = "$".toList ++ (key ++ ('=' :: value)) := by
    simp
  have hread : readDigits (key ++ ('=' :: value)) = some (key, '=' :: value) :=
    readDigits_append (List.all_eq_true.mpr hdigits) (by simpa using hkey) rfl
  have hmatch : matchesSettingLine ("$".toList ++ (key ++ ('=' :: value))) = false := by
    unfold matchesSettingLine
    rw [stripPrefix_append, Option.bind_some, hread]
    rfl
  have hfeedback : decodeFeedback general ("$".toList ++ (key ++ ('=' :: value))) = none := rfl
  rw [happ]
  show (decodeFeedback general ("$".toList ++ (key ++ ('=' :: value)))).getD
    (decodeSetting ("$".toList ++ (key ++ ('=' :: value)))) = []
  rw [hfeedback, decodeSetting, hmatch]
  rfl

end Summaries

/-! ### Blanks at the end -/

section Strip

variable {p : Char → Bool} {a t : Text} {c : Char}

theorem rdropWhile_append_cons (hc : p c = false) :
    (a ++ c :: t).rdropWhile p = a ++ c :: t.rdropWhile p := by
  induction t using List.reverseRecOn with
  | nil => rw [List.rdropWhile_concat_neg p a c (by simp [hc])]; rfl
  | append_singleton t d ih =>
    have happ : a ++ c :: (t ++ [d]) = a ++ c :: t ++ [d] := by simp
    rw [happ, List.rdropWhile_concat, List.rdropWhile_concat]
    split_ifs with hd
    · exact ih
    · exact happ.symm

theorem mem_rdropWhile (hc : p c = false) (h : c ∈ t) : c ∈ t.rdropWhile p := by
  obtain ⟨a, u, rfl⟩ := List.append_of_mem h
  rw [rdropWhile_append_cons hc]
  exact List.mem_append_right _ List.mem_cons_self

/-- Blanks are taken away behind the last character that is none. -/
theorem strip_bracket (hc : isSpace c = false) :
    strip ('[' :: a ++ c :: t) = '[' :: a ++ c :: t.rdropWhile isSpace :=
  rdropWhile_append_cons (a := '[' :: a) hc

end Strip

/-! ### What is understood -/

/-- The frame of a received line. -/
def received {α : Type} (offset : α) (line : Text) : Frame α :=
  { direction := RX, offset := offset, text := some line }

section Understanding

variable {general : ℚ → Text} {α : Type} {offset : α} {a t : Text} {c : Char}

/-- Each answer in brackets has a branch of its own. -/
theorem decodeFeedback_branches :
    (decodeFeedback general ("[MSG:".toList ++ t)).isSome =
        (parseMsg ("[MSG:".toList ++ t)).isSome ∧
      (decodeFeedback general ("[VER:".toList ++ t)).isSome =
        (parseVer ("[VER:".toList ++ t)).isSome ∧
      (decodeFeedback general ("[PRB:".toList ++ t)).isSome =
        (parseProbeLine ("[PRB:".toList ++ t)).isSome ∧
      (decodeFeedback general ("[G5".toList ++ t)).isSome =
        (parseWcsLine ("[G5".toList ++ t)).isSome :=
  ⟨Option.isSome_map, Option.isSome_map, Option.isSome_map, Option.isSome_map⟩

theorem decodeFeedback_options (h : (parseOptFlags ("[OPT:".toList ++ t)).isSome = true) :
    (decodeFeedback general ("[OPT:".toList ++ t)).isSome = true := by
  obtain ⟨flags, hflags⟩ := Option.isSome_iff_exists.mp h
  show (if (((parseOptFlags ("[OPT:".toList ++ t)).map _).toList ++ _).isEmpty = true then none
    else some _).isSome = true
  rw [hflags]
  rfl

theorem summary_bracket (hc : isSpace c = false) :
    decodeFrame general (received offset ('[' :: a ++ c :: t)) ≠ [] ↔
      (decodeFeedback general ('[' :: a ++ c :: t.rdropWhile isSpace)).isSome = true := by
  have hrx := @decodeRx_bracket general (a ++ c :: t.rdropWhile isSpace)
  rw [← List.cons_append, ← strip_bracket hc] at hrx
  rw [← strip_bracket hc, ← hrx]
  have hne : (strip ('[' :: a ++ c :: t)).isEmpty = false := by rw [strip_bracket hc]; rfl
  show (if (strip ('[' :: a ++ c :: t)).isEmpty = true then [] else _) ≠ [] ↔ _
  rw [hne]
  rfl

theorem isSpace_settingChar (h : isSettingChar c = true) : isSpace c = false := by
  have hrange : 45 ≤ c.toNat ∧ c.toNat ≤ 57 := by
    simp only [isSettingChar, isDigit, Bool.or_eq_true, Bool.and_eq_true, decide_eq_true_eq,
      beq_iff_eq] at h
    rcases h with (⟨hlow, hhigh⟩ | rfl) | rfl
    · exact ⟨Nat.le_trans (by decide) (UInt32.le_iff_toNat_le.mp hlow),
        UInt32.le_iff_toNat_le.mp hhigh⟩
    · decide
    · decide
  simp only [isSpace, isWhitespace, Bool.or_eq_false_iff, Bool.and_eq_false_iff,
    beq_eq_false_iff_ne, decide_eq_false_iff_not]
  omega

theorem summary_settingsLine {key value line : Text} (h : SettingsLine key value line) :
    decodeFrame general (received offset line) = [] := by
  have hstrip : strip line = line := by
    obtain ⟨rfl, -, hvalue, hchars⟩ := h
    obtain ⟨value, d, rfl⟩ := (List.eq_nil_or_concat' value).resolve_left hvalue
    have hd : isSpace d = false := isSpace_settingChar (hchars d (by simp))
    have happ : "$".toList ++ key ++ "=".toList ++ (value ++ [d]) =
        "$".toList ++ key ++ "=".toList ++ value ++ [d] := (List.append_assoc _ _ _).symm
    rw [happ]
    show List.rdropWhile isSpace ("$".toList ++ key ++ "=".toList ++ value ++ [d]) = _
    exact List.rdropWhile_concat_neg isSpace _ d (by simp [hd])
  show (if (strip line).isEmpty = true then [] else decodeRx general (strip line)) = []
  rw [hstrip, decodeRx_settingsLine h, ite_self]

theorem summary_wcs {line : Text} (hread : (readWcs line).isSome = true)
    (hparse : (parseWcsLine line).isSome = true) :
    decodeFrame general (received offset line) ≠ [] := by
  obtain ⟨r, hr⟩ := Option.isSome_iff_exists.mp hread
  obtain ⟨m, rest, rfl, hclosed⟩ := readWcs_closed hr
  have hstripped := hclosed (rest.rdropWhile isSpace)
  have hsame : parseWcsLine ('[' :: m ++ ']' :: rest.rdropWhile isSpace) =
      parseWcsLine ('[' :: m ++ ']' :: rest) := by
    rw [parseWcsLine, parseWcsLine, search_of_read hstripped, search_of_read hr]
  rw [summary_bracket (by decide)]
  obtain ⟨u, hu, -⟩ := Option.bind_eq_some_iff.mp hstripped
  rw [stripPrefix_eq_some_iff] at hu
  rw [hu, decodeFeedback_branches.2.2.2, ← hu, hsame]
  exact hparse

theorem summary_probe {line : Text} (hread : (readProbe line).isSome = true)
    (hparse : (parseProbeLine line).isSome = true) :
    decodeFrame general (received offset line) ≠ [] := by
  obtain ⟨r, hr⟩ := Option.isSome_iff_exists.mp hread
  obtain ⟨m, rest, rfl, hclosed⟩ := readProbe_closed hr
  have hstripped := hclosed (rest.rdropWhile isSpace)
  have hsame : parseProbeLine ('[' :: m ++ ']' :: rest.rdropWhile isSpace) =
      parseProbeLine ('[' :: m ++ ']' :: rest) := by
    rw [parseProbeLine, parseProbeLine, search_of_read hstripped, search_of_read hr]
  rw [summary_bracket (by decide)]
  obtain ⟨u, hu, -⟩ := Option.bind_eq_some_iff.mp hstripped
  rw [stripPrefix_eq_some_iff] at hu
  rw [hu, decodeFeedback_branches.2.2.1, ← hu, hsame]
  exact hparse

/-- The two readers of option lines are one. -/
theorem readOpt_eq (t : Text) : readOpt t = (readOptLine t).map Prod.snd := by
  have hdigits (t : Text) : readDigits t = readClass isDigit t := rfl
  unfold readOpt readOptLine
  simp only [hdigits]
  cases stripPrefix "[OPT:".toList t with
  | none => rfl
  | some t =>
    simp only [Option.bind_some, readClass]
    split_ifs with hflags
    · rfl
    · simp only [Option.bind_some, Option.map_bind, Function.comp_def, Option.map_map]
      rfl

theorem summary_options {line : Text} (hread : (readOpt line).isSome = true) :
    decodeFrame general (received offset line) ≠ [] := by
  rw [readOpt_eq, Option.isSome_map] at hread
  obtain ⟨r, hr⟩ := Option.isSome_iff_exists.mp hread
  obtain ⟨m, rest, rfl, hclosed⟩ := readOptLine_closed hr
  have hstripped := hclosed (rest.rdropWhile isSpace)
  rw [summary_bracket (by decide)]
  obtain ⟨u, hu, -⟩ := Option.bind_eq_some_iff.mp hstripped
  rw [stripPrefix_eq_some_iff] at hu
  rw [hu]
  apply decodeFeedback_options
  rw [← hu, parseOptFlags, search_of_read hstripped]
  rfl

/-- A message needs a second colon, which is no blank. -/
theorem parseMsg_isSome : (parseMsg ("[MSG:".toList ++ t)).isSome = true ↔ ':' ∈ t := by
  unfold parseMsg
  rw [stripPrefix_append, Option.bind_some, Option.isSome_map]
  constructor
  · intro h
    obtain ⟨⟨key, value⟩, hsplit⟩ := Option.isSome_iff_exists.mp h
    refine (List.rdropWhile_prefix (fun c => c == ']') t).mem ?_
    rw [(splitOnce_eq_some hsplit).1]
    exact List.mem_append_right _ List.mem_cons_self
  · intro h
    rw [Option.isSome_iff_ne_none]
    exact fun hnone => splitOnce_eq_none hnone (mem_rdropWhile (by decide) h)

theorem parseVer_isSome : (parseVer ("[VER:".toList ++ t)).isSome = true ↔
    t.rdropWhile (fun c => c == ':' || c == ']') ≠ [] := by
  unfold parseVer
  rw [stripPrefix_append, Option.bind_some]
  generalize t.rdropWhile (fun c => c == ':' || c == ']') = content
  cases content with
  | nil =>
    refine ⟨fun h => ?_, fun h => absurd rfl h⟩
    cases h
  | cons c content =>
    refine ⟨fun _ => List.cons_ne_nil _ _, fun _ => ?_⟩
    simp only [List.isEmpty_cons, Bool.false_eq_true, if_false]
    cases splitOnce ',' (c :: content) with
    | some p => rfl
    | none => rcases splitOn '.' (c :: content) with _ | ⟨a, _ | ⟨b, _ | ⟨d, l⟩⟩⟩ <;> rfl

theorem summary_msg {line : Text} (h : (parseMsg line).isSome = true) :
    decodeFrame general (received offset line) ≠ [] := by
  obtain ⟨r, hr⟩ := Option.isSome_iff_exists.mp h
  obtain ⟨content, hline, -⟩ := Option.bind_eq_some_iff.mp hr
  obtain rfl := stripPrefix_eq_some_iff.mp hline
  refine (summary_bracket (a := "MSG".toList) (c := ':') (by decide)).mpr ?_
  show (decodeFeedback general ("[MSG:".toList ++ content.rdropWhile isSpace)).isSome = true
  rw [decodeFeedback_branches.1, parseMsg_isSome]
  exact mem_rdropWhile (by decide) (parseMsg_isSome.mp h)

/-- The decoder reads a version line without the blanks at its end. -/
theorem summary_ver : decodeFrame general (received offset ("[VER:".toList ++ t)) ≠ [] ↔
    (t.rdropWhile isSpace).rdropWhile (fun c => c == ':' || c == ']') ≠ [] := by
  refine (summary_bracket (a := "VER".toList) (c := ':') (by decide)).trans ?_
  show (decodeFeedback general ("[VER:".toList ++ t.rdropWhile isSpace)).isSome = true ↔ _
  rw [decodeFeedback_branches.2.1, parseVer_isSome]

/-- **Which lines are understood**: no settings line that the driver can parse, and of the others
all but version lines that have a version only by the blanks at their end. -/
theorem understood_iff (general : ℚ → Text) {α : Type} (offset : α) (line : Text) :
    Understood (decodeFrame general (received offset line)) line ↔
      (∀ key value, ¬ SettingsLine key value line) ∧ ¬ BlankVersion line := by
  constructor
  · rintro ⟨hsettings, hfirst⟩
    constructor
    · intro key value hline
      have hinfix := (hsettings key value hline).1
      rw [summary_settingsLine hline, List.infix_nil] at hinfix
      exact hline.2.1.1 hinfix
    · rintro ⟨content, rfl, hversion, hblank⟩
      have haccepted := parseVer_isSome.mpr hversion
      exact summary_ver.mp (hfirst (.inr (.inr (.inr (.inl haccepted))))) hblank
  · rintro ⟨hsettings, hversion⟩
    refine ⟨fun key value hline => absurd hline (hsettings key value), ?_⟩
    rintro (⟨hread, hparse⟩ | ⟨hread, hparse⟩ | hmsg | hver | ⟨hread, -⟩)
    · exact summary_wcs hread hparse
    · exact summary_probe hread hparse
    · exact summary_msg hmsg
    · obtain ⟨r, hr⟩ := Option.isSome_iff_exists.mp hver
      obtain ⟨content, hline, -⟩ := Option.bind_eq_some_iff.mp hr
      obtain rfl := stripPrefix_eq_some_iff.mp hline
      exact summary_ver.mpr fun hblank =>
        hversion ⟨content, rfl, parseVer_isSome.mp hver, hblank⟩
    · exact summary_options hread

/-- The driver reads `$10=3` and `[VER: `, and the listing shows nothing next to them. -/
theorem settings_and_blank_version_not_understood :
    (parseSettingPairs ["$10=3".toList] = [("10".toList, "3".toList)] ∧
      decodeFrame (fixedDecimal 3) (received () "$10=3".toList) = [] ∧
      ¬ Understood (decodeFrame (fixedDecimal 3) (received () "$10=3".toList))
        "$10=3".toList) ∧
    (parseVer "[VER: ".toList).isSome = true ∧
      ¬ Understood (decodeFrame (fixedDecimal 3) (received () "[VER: ".toList))
        "[VER: ".toList := by
  have hline : SettingsLine "10".toList "3".toList "$10=3".toList :=
    ⟨rfl, ⟨by decide, List.all_eq_true.mp (by decide)⟩, by decide,
      List.all_eq_true.mp (by decide)⟩
  have hempty : decodeFrame (fixedDecimal 3) (received () "$10=3".toList) = [] := by decide
  have hblank : decodeFrame (fixedDecimal 3) (received () "[VER: ".toList) = [] := by decide
  have hver : (parseVer "[VER: ".toList).isSome = true := by decide
  refine ⟨⟨by decide, hempty, fun h => ?_⟩, hver, fun h => ?_⟩
  · have hinfix := (h.1 _ _ hline).1
    rw [hempty, List.infix_nil] at hinfix
    exact absurd hinfix (by decide)
  · exact h.2 (.inr (.inr (.inr (.inl hver)))) hblank

end Understanding

end Raydriver
