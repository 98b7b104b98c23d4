import Raydriver.Grbl.Parser

/-!
# The settings of a device

The lines of a `$$` answer, as the driver reads them, and the device that prints them.  The
report unit is the setting `$13`; the driver takes its number for an `f64` and looks at the
integer part.

## Main definitions

* `parseSettingPairs`, `parseGrblSettings` — the settings among response lines.
* `isReportInInches`, `detectUnitSystemFromSettings` — what `$13` says.
* `SettingsDevice` — a device with its settings, and `SettingsDevice.execute`.

## Main results

* `parseGrblSettings_settingLines` — the driver reads back what the device prints.
* `isReportInInches_readAnswer` — **what the driver makes of a `$$` answer**.
-/

namespace Raydriver

/-! ### Reading -/

/-- `[\d\.-]`. -/
def isSettingChar (c : Char) : Bool := isDigit c || c == '.' || c == '-'

/-- `\$(\d+)=([\d\.-]+)`, matched at the head. -/
def readSetting (t : Text) : Option (Text × Text) :=
  (stripPrefix "$".toList t).bind fun t => (readDigits t).bind fun (key, t) =>
    (stripPrefix "=".toList t).bind fun t =>
      let value := t.takeWhile isSettingChar
      if value.isEmpty then none else some (key, value)

/-- `parse_setting_pairs`. -/
def parseSettingPairs (lines : List Text) : List (Text × Text) :=
  lines.filterMap (search readSetting)

/-- The number of a text of digits. -/
def digitsValue (t : Text) : ℚ := ((digitsFrom 0 t).getD 0 : ℕ)

/-- `str::parse::<f64>` on the characters that a setting is made of, before rounding. -/
def parseF64 (t : Text) : Option ℚ :=
  let (sign, t) : ℚ × Text := match t with
    | '-' :: t => (-1, t)
    | t => (1, t)
  let whole := t.takeWhile isDigit
  match t.drop whole.length with
  | [] => if whole.isEmpty then none else some (sign * digitsValue whole)
  | '.' :: frac =>
    if (whole.isEmpty && frac.isEmpty) || !frac.all isDigit then none
    else some (sign * (digitsValue whole + digitsValue frac / (10 ^ frac.length : ℕ)))
  | _ => none

/-- `parse_grbl_settings`, as a map: the last line of a setting counts. -/
def parseGrblSettings (lines : List Text) : Text → Option ℚ :=
  (parseSettingPairs lines).foldl (fun settings (key, value) =>
    match parseF64 value with
    | some v => Function.update settings key (some v)
    | none => settings) fun _ => none

/-- `v as i64 == 0`: the next `f64` has no integer part.  Numbers from `1 - 2⁻⁵⁴` on are
rounded to one. -/
def truncatesToZero (v : ℚ) : Bool := decide (v < 1 - 1 / 2 ^ 54 ∧ -v < 1 - 1 / 2 ^ 54)

/-- `is_report_in_inches`. -/
def isReportInInches (settingsLines : List Text) : Bool :=
  (parseGrblSettings settingsLines "13".toList).any fun v => !truncatesToZero v

/-- `UnitSystem`. -/
inductive UnitSystem where
  | metric | imperial
  deriving DecidableEq, Repr

/-- `detect_unit_system_from_settings`. -/
def detectUnitSystemFromSettings (settingsLines : List Text) : Option UnitSystem :=
  (parseGrblSettings settingsLines "13".toList).map fun v =>
    if truncatesToZero v then .metric else .imperial

/-! ### The device -/

/-- The number of a setting. -/
structure SettingKey where
  text : Text
  nonempty : text ≠ []
  digits : ∀ c ∈ text, isDigit c = true

/-- What a device keeps for a setting: a number, and the text that it prints for it. -/
structure SettingValue where
  text : Text
  number : ℚ
  chars : ∀ c ∈ text, isSettingChar c = true
  reads : parseF64 text = some number

/-- A device with its settings, one of them `$13`. -/
structure SettingsDevice where
  keys : List SettingKey
  value : Text → SettingValue
  /-- What it keeps of a text written to a setting, if it takes it. -/
  store : Text → Option SettingValue
  report : ∃ key ∈ keys, key.text = "13".toList

namespace SettingsDevice

variable (d : SettingsDevice)

/-- The number of `$13`. -/
def reportInches : ℚ := (d.value "13".toList).number

/-- The line of a setting. -/
def settingLine (key : SettingKey) : Text :=
  "$".toList ++ (key.text ++ ("=".toList ++ (d.value key.text).text))

/-- The settings, as printed. -/
def settingLines : List Text := d.keys.map d.settingLine

/-- The answer to a `$$`: the settings, or a refusal of a device that is not idle. -/
def readAnswer (idle : Bool) : List Text :=
  if idle then d.settingLines ++ ["ok".toList] else ["error:8".toList]

/-- The setting behind a key gets a new value. -/
def write (key : Text) (v : SettingValue) : SettingsDevice :=
  { d with value := Function.update d.value key v }

/-- Executing a command: a write is applied if the device is idle, has the setting and takes
the value, and it is acknowledged by an `ok` just then. -/
def execute (idle : Bool) (command : Text) : SettingsDevice :=
  match stripPrefix "$".toList command with
  | none => d
  | some t =>
    let key := t.takeWhile fun c => c != '='
    match t.drop key.length with
    | '=' :: text =>
      if idle && d.keys.any fun k => k.text == key then
        match d.store text with
        | some v => d.write key v
        | none => d
      else d
    | _ => d

end SettingsDevice

/-! ### What the driver reads -/

theorem SettingValue.text_ne_nil (v : SettingValue) : v.text ≠ [] := by
  intro h
  have hreads := v.reads
  rw [h] at hreads
  cases hreads

/-- The reader takes a printed setting apart. -/
theorem search_settingLine (d : SettingsDevice) (key : SettingKey) :
    search readSetting (d.settingLine key) = some (key.text, (d.value key.text).text) := by
  have hdigits : readDigits (key.text ++ ("=".toList ++ (d.value key.text).text)) =
      some (key.text, "=".toList ++ (d.value key.text).text) :=
    readDigits_append (List.all_eq_true.mpr key.digits) (by simpa using key.nonempty) rfl
  have hvalue : (d.value key.text).text.takeWhile isSettingChar = (d.value key.text).text :=
    List.takeWhile_eq_self_iff.mpr (d.value key.text).chars
  have hread : readSetting (d.settingLine key) = some (key.text, (d.value key.text).text) := by
    show ((readDigits (key.text ++ ("=".toList ++ (d.value key.text).text))).bind fun (k, t) =>
      (stripPrefix "=".toList t).bind fun t =>
        let value := t.takeWhile isSettingChar
        if value.isEmpty then none else some (k, value)) = _
    rw [hdigits]
    show (if ((d.value key.text).text.takeWhile isSettingChar).isEmpty then none
      else some (key.text, (d.value key.text).text.takeWhile isSettingChar)) = _
    rw [hvalue, if_neg (by simpa using (d.value key.text).text_ne_nil)]
  exact search_of_read hread

theorem parseSettingPairs_settingLines (d : SettingsDevice) :
    parseSettingPairs d.settingLines = d.keys.map fun k => (k.text, (d.value k.text).text) := by
  unfold parseSettingPairs SettingsDevice.settingLines
  rw [List.filterMap_map]
  induction d.keys with
  | nil => rfl
  | cons key keys ih =>
    rw [List.filterMap_cons_some (by exact search_settingLine d key), ih, List.map_cons]

/-- The driver reads back what the device prints. -/
theorem parseGrblSettings_settingLines (d : SettingsDevice) {key : SettingKey}
    (hkey : key ∈ d.keys) (tail : List Text) (htail : parseSettingPairs tail = []) :
    parseGrblSettings (d.settingLines ++ tail) key.text = some (d.value key.text).number := by
  have hpairs : parseSettingPairs (d.settingLines ++ tail) =
      d.keys.map fun k => (k.text, (d.value k.text).text) := by
    rw [← parseSettingPairs_settingLines, ← List.append_nil (parseSettingPairs d.settingLines),
      ← htail]
    exact List.filterMap_append
  -- a setting that has been read keeps its number, since a later line says the same
  have hfold : ∀ (keys : List SettingKey) (m : Text → Option ℚ),
      m key.text = some (d.value key.text).number ∨ key ∈ keys →
      ((keys.map fun k => (k.text, (d.value k.text).text)).foldl (fun settings (key, value) =>
        match parseF64 value with
        | some v => Function.update settings key (some v)
        | none => settings) m) key.text = some (d.value key.text).number := by
    intro keys
    induction keys with
    | nil => exact fun m h => h.resolve_right List.not_mem_nil
    | cons k keys ih =>
      intro m h
      rw [List.map_cons, List.foldl_cons]
      refine ih _ ?_
      simp only [(d.value k.text).reads]
      by_cases hk : k.text = key.text
      · left
        rw [← hk, Function.update_self]
      · rw [Function.update_of_ne (Ne.symm hk)]
        rcases h with h | h
        · exact .inl h
        · rcases List.mem_cons.mp h with rfl | h
          · exact absurd rfl hk
          · exact .inr h
  unfold parseGrblSettings
  rw [hpairs]
  exact hfold d.keys _ (.inr hkey)

/-- **What the driver makes of a `$$` answer**: the integer part of `$13`, and millimetres
if the device refuses. -/
theorem isReportInInches_readAnswer (d : SettingsDevice) (idle : Bool) :
    isReportInInches (d.readAnswer idle) = (idle && !truncatesToZero d.reportInches) := by
  cases idle with
  | false => rfl
  | true =>
    obtain ⟨key, hkey, htext⟩ := d.report
    have hread := parseGrblSettings_settingLines d hkey ["ok".toList] (by decide)
    rw [htext] at hread
    show (parseGrblSettings (d.settingLines ++ ["ok".toList]) "13".toList).any _ = _
    rw [hread]
    rfl

end Raydriver
