import Raydriver.Core.Dialect
import Raydriver.Core.Types

/-!
# The operations that format a template

`home`, `move_to`, `jog`, `select_tool`, `set_power`, `set_focus_power`, `set_wcs_offset` and
`run_probe_cycle` are written alike in the four sessions: a template of the dialect is
formatted, and the text is executed as a command.  What an operation does besides its commands
is left out here.

## Main definitions

* `gcodeToPNumber` — the number of a work offset slot.
* `Operation` — an operation with its arguments.
* `Script`, `Operation.script` — the commands of an operation in turn, and its end.
* `Operation.run` — an operation on a device that answers.
* `NeverPanics` — the driver survives the template.

## Main results

* `neverPanics_iff` — which templates take the driver down.
-/

namespace Raydriver

/-- `gcode_to_p_number`; `i64` bounds the number. -/
def gcodeToPNumber (slot : Text) : Option ℤ :=
  (stripPrefix ['G'] slot).bind fun rest => (parseInt rest).bind fun num =>
    if -2 ^ 63 ≤ num ∧ num < 2 ^ 63 ∧ 1 ≤ num - 53 ∧ num - 53 ≤ 6 then some (num - 53) else none

/-! ### Operations -/

/-- An operation and its arguments. -/
inductive Operation (F : Type) where
  /-- `home`; only the GRBL sessions know an active work offset slot. -/
  | home (axes : Option (List Text)) (activeWcs : Option Text)
  | moveTo (speed x y : F)
  | jog (speed : F) (deltas : List (Text × F))
  | selectTool (toolNumber : ℤ)
  | setPower (power : Option F)
  | setFocusPower (power : Option F)
  | setWcsOffset (slot : Text) (x y : F) (z : Option F)
  /-- `run_probe_cycle`, of the GRBL sessions. -/
  | runProbeCycle (axisLetter : Text) (maxTravel feedRate : F)

/-- The commands an operation executes in turn, if none of them fails, and what it comes to
behind them.  The flag says that a failed command is no error of the operation. -/
structure Script where
  commands : List Text
  last : Outcome Unit
  tolerant : Bool := false

namespace Script

/-- One command, if its text can be formatted. -/
def ofOutcome (command : Outcome Text) : Script :=
  match command with
  | .ok command => ⟨[command], .ok (), false⟩
  | .err e => ⟨[], .err e, false⟩
  | .panics e => ⟨[], .panics e, false⟩

/-- The commands of a loop that formats each in its turn, and a script behind it. -/
def loop (commands : List (Outcome Text)) (behind : Script) : Script :=
  match commands with
  | [] => behind
  | .ok command :: commands =>
    let rest := loop commands behind
    { rest with commands := command :: rest.commands }
  | .err e :: _ => ⟨[], .err e, false⟩
  | .panics e :: _ => ⟨[], .panics e, false⟩

/-- The script on a device: `fails` says with which error the commands fail. -/
def runFrom (fails : ℕ → Option SessionError) (script : Script) : ℕ → List Text → Outcome Unit
  | _, [] => script.last
  | k, _ :: commands =>
    match fails k with
    | none => runFrom fails script (k + 1) commands
    | some e => if script.tolerant then .ok () else .err e.message

/-- The script from its first step. -/
def run (fails : ℕ → Option SessionError) (script : Script) : Outcome Unit :=
  script.runFrom fails 0 script.commands

end Script

section Scripts

variable {F : Type} (fmt : NumberFormat F) (d : Templates)

/-- The end of `home` in a GRBL session: another work offset slot, and back. -/
def wcsToggle (activeWcs : Text) : List Text :=
  ["G4 P0.01".toList, if activeWcs = "G54".toList then "G55".toList else "G54".toList, activeWcs]

/-- `cmd_parts.join(" ")`. -/
def joinWords (head : Text) (words : List Text) : Text :=
  head ++ words.flatMap fun w => ' ' :: w

/-- The axis word of a jog. -/
def jogWord (delta : Text × F) : Text := fmt.upper delta.1 ++ pythonFloatRepr fmt delta.2

/-- The power command of a laser, or the command that turns it off. -/
def powerCommand (template : Text) (power : Option F) : Outcome Text :=
  match power.filter fmt.isPositive with
  | some p => formatTemplate fmt template [("power".toList, .length p)]
  | none => .ok d.laserOff

/-- The arguments of `move_to`. -/
def moveToArgs (speed x y : F) : List (Text × Arg F) :=
  [("speed".toList, .speed speed), ("x".toList, .length x), ("y".toList, .length y)]

/-- The arguments of `probe_cycle`. -/
def probeArgs (axisLetter : Text) (maxTravel feedRate : F) : List (Text × Arg F) :=
  [("axis_letter".toList, .str (fmt.upper axisLetter)), ("max_travel".toList, .length maxTravel),
    ("feed_rate".toList, .speed feedRate)]

/-- What an operation sends. -/
def Operation.script : Operation F → Script
  | .home axes activeWcs =>
    let behind : Script := ⟨(activeWcs.map wcsToggle).getD [], .ok (), false⟩
    match axes with
    | none => .loop [.ok d.homeAll] behind
    | some axes =>
      .loop (axes.map fun axis =>
        formatTemplate fmt d.homeAxis [("axis_letter".toList, .str axis)]) behind
  | .moveTo speed x y => .ofOutcome (formatTemplate fmt d.moveTo (moveToArgs speed x y))
  | .jog speed deltas =>
    match formatTemplate fmt d.jog [("speed".toList, .speed speed)] with
    | .ok head =>
      if deltas.isEmpty then ⟨[], .ok (), false⟩
      else ⟨[joinWords head (deltas.map (jogWord fmt))], .ok (), false⟩
    | .err e => ⟨[], .err e, false⟩
    | .panics e => ⟨[], .panics e, false⟩
  | .selectTool toolNumber =>
    .ofOutcome (formatTemplate fmt d.toolChange [("tool_number".toList, .int toolNumber)])
  | .setPower power => .ofOutcome (powerCommand fmt d d.laserOn power)
  | .setFocusPower power => .ofOutcome (powerCommand fmt d d.focusLaserOn power)
  | .setWcsOffset slot x y z =>
    match gcodeToPNumber slot with
    | none => ⟨[], .err ("Invalid WCS slot: ".toList ++ slot), false⟩
    | some pNum => .ofOutcome (d.formatWcsOffset fmt pNum x y z)
  | .runProbeCycle axisLetter maxTravel feedRate =>
    { Script.ofOutcome (formatTemplate fmt d.probeCycle
        (probeArgs fmt axisLetter maxTravel feedRate)) with tolerant := true }

/-- An operation on a device. -/
def Operation.run (op : Operation F) (fails : ℕ → Option SessionError) : Outcome Unit :=
  (op.script fmt d).run fails

/-- The template an operation formats, and the values it has for it. -/
def Operation.formats : Operation F → Option (Text × List (Text × Arg F))
  | .home axes _ => (axes.bind List.head?).map fun axis =>
    (d.homeAxis, [("axis_letter".toList, .str axis)])
  | .moveTo speed x y => some (d.moveTo, moveToArgs speed x y)
  | .jog speed _ => some (d.jog, [("speed".toList, .speed speed)])
  | .selectTool toolNumber => some (d.toolChange, [("tool_number".toList, .int toolNumber)])
  | .setPower power => (power.filter fmt.isPositive).map fun p =>
    (d.laserOn, [("power".toList, .length p)])
  | .setFocusPower power => (power.filter fmt.isPositive).map fun p =>
    (d.focusLaserOn, [("power".toList, .length p)])
  | .setWcsOffset slot x y z => (gcodeToPNumber slot).map fun pNum =>
    (if z.isNone then withoutZ d.setWcsOffset else d.setWcsOffset,
      wcsArgs pNum x y (z.getD fmt.zero))
  | .runProbeCycle axisLetter maxTravel feedRate =>
    some (d.probeCycle, probeArgs fmt axisLetter maxTravel feedRate)

/-- The one operation that takes its template for valid. -/
def Operation.isWcsOffset : Operation F → Bool
  | .setWcsOffset _ _ _ _ => true
  | _ => false

/-- **The driver survives the template**: no device makes the operation panic, and a template
that is refused makes it fail. -/
structure NeverPanics (op : Operation F) : Prop where
  safe : ∀ fails, ¬ (op.run fmt d fails).Panics
  refuses : ∀ t args, op.formats fmt d = some (t, args) → Refused args t →
    ∀ fails, (op.run fmt d fails).IsErr

/-! ### The end of a script -/

theorem Script.run_of_nil {script : Script} (h : script.commands = [])
    (fails : ℕ → Option SessionError) : script.run fails = script.last := by
  rw [Script.run, h, Script.runFrom]

theorem Script.runFrom_not_panics {script : Script} (h : script.last = .ok ())
    (fails : ℕ → Option SessionError) : ∀ (commands : List Text) (k : ℕ),
    ¬ (script.runFrom fails k commands).Panics := by
  intro commands
  induction commands with
  | nil =>
    rintro k ⟨e, he⟩
    rw [Script.runFrom, h] at he
    cases he
  | cons command commands ih =>
    intro k
    rw [Script.runFrom]
    split
    · exact ih (k + 1)
    · split_ifs <;> rintro ⟨e, he⟩ <;> cases he

/-- A script made of one text is at its end, or has nothing to send. -/
theorem Script.ofOutcome_cases (r : Outcome Text) :
    ((Script.ofOutcome r).last = .ok () ∨ (Script.ofOutcome r).commands = []) ∧
      (Script.ofOutcome r).last = r.map fun _ => () := by
  cases r with
  | ok command => exact ⟨.inl rfl, rfl⟩
  | err e => exact ⟨.inr rfl, rfl⟩
  | panics e => exact ⟨.inr rfl, rfl⟩

/-- Which template of an axis is refused does not depend on the axis, and no letter has
decimals. -/
theorem formatTemplate_axis (axis axis' : Text) :
    (∃ out out', formatTemplate fmt d.homeAxis [("axis_letter".toList, .str axis)] = .ok out ∧
        formatTemplate fmt d.homeAxis [("axis_letter".toList, .str axis')] = .ok out') ∨
      (Refused [("axis_letter".toList, (.str axis : Arg F))] d.homeAxis ∧
        (formatTemplate fmt d.homeAxis [("axis_letter".toList, .str axis)]).IsErr) := by
  have hprintable (a : Text) (ps : List Piece) :
      printable fmt [("axis_letter".toList, .str a)] ps = true := by
    induction ps with
    | nil => rfl
    | cons p ps ih =>
      rw [printable, ih, Bool.and_true]
      cases p with
      | lit c => rfl
      | field name spec =>
        rw [Bool.or_eq_true, Bool.not_eq_true']
        refine .inr ?_
        rw [Piece.tooFine]
        split
        · rfl
        · rename_i heq
          have harg := List.mem_of_find?_eq_some heq
          rw [List.mem_singleton, Prod.mk.injEq] at harg
          rw [harg.2]
          cases spec <;> rfl
  have hnames : Refused [("axis_letter".toList, (.str axis : Arg F))] d.homeAxis ↔
      Refused [("axis_letter".toList, (.str axis' : Arg F))] d.homeAxis := by
    have hu (p : Piece) : p.unknown [("axis_letter".toList, (.str axis : Arg F))] =
        p.unknown [("axis_letter".toList, (.str axis' : Arg F))] := by cases p <;> rfl
    simp only [Refused, hu]
  rcases formatTemplate_cases fmt [("axis_letter".toList, .str axis)] d.homeAxis with
    ⟨hp, -⟩ | ⟨-, hr, he⟩ | ⟨-, hr, hok⟩
  · rw [hprintable] at hp
    cases hp
  · exact .inr ⟨hr, he⟩
  · rcases formatTemplate_cases fmt [("axis_letter".toList, .str axis')] d.homeAxis with
      ⟨hp, -⟩ | ⟨-, hr', -⟩ | ⟨-, -, hok'⟩
    · rw [hprintable] at hp
      cases hp
    · exact absurd (hnames.mpr hr') hr
    · exact .inl ⟨_, _, hok, hok'⟩

theorem Script.loop_last {commands : List (Outcome Text)} {behind : Script}
    (h : ∀ r ∈ commands, ∃ c, r = .ok c) :
    (Script.loop commands behind).last = behind.last := by
  induction commands with
  | nil => rfl
  | cons r commands ih =>
    rw [List.forall_mem_cons] at h
    obtain ⟨⟨c, rfl⟩, hrest⟩ := h
    exact ih hrest

/-- What the formatting of the template of an operation comes to. -/
def Operation.formatting (op : Operation F) (t : Text) (args : List (Text × Arg F)) :
    Outcome Text :=
  if op.isWcsOffset then (formatTemplate fmt t args).expect fmt.debug "valid template".toList
  else formatTemplate fmt t args

/-- **The end of a script.**  An operation either sends its commands and is done, or sends none,
and it ends as the formatting of its template does. -/
structure EndsWith (op : Operation F) : Prop where
  complete : (op.script fmt d).last = .ok () ∨ (op.script fmt d).commands = []
  formatted : ∀ t args, op.formats fmt d = some (t, args) →
    (op.script fmt d).last = (op.formatting fmt t args).map fun _ => ()
  unformatted : op.formats fmt d = none → ¬ (op.script fmt d).last.Panics

theorem endsWith_home (axes : Option (List Text)) (activeWcs : Option Text) :
    EndsWith fmt d (.home axes activeWcs) := by
  have hdone (r : Outcome Unit) (h : r = .ok ()) : ¬ r.Panics := by
    rintro ⟨e, he⟩
    rw [h] at he
    cases he
  cases axes with
  | none => exact ⟨.inl rfl, fun t args h => (by cases h), fun _ => hdone _ rfl⟩
  | some axes =>
    cases axes with
    | nil => exact ⟨.inl rfl, fun t args h => (by cases h), fun _ => hdone _ rfl⟩
    | cons axis axes =>
      have hformats : (Operation.home (some (axis :: axes)) activeWcs).formats fmt d =
          some (d.homeAxis, [("axis_letter".toList, .str axis)]) := rfl
      rcases formatTemplate_axis fmt d axis axis with ⟨out, -, hout, -⟩ | ⟨-, e, he⟩
      · have hall : ∀ r ∈ (axis :: axes).map fun axis =>
            formatTemplate fmt d.homeAxis [("axis_letter".toList, .str axis)],
            ∃ c, r = .ok c := by
          intro r hr
          obtain ⟨axis', -, rfl⟩ := List.mem_map.mp hr
          rcases formatTemplate_axis fmt d axis axis' with ⟨-, out', -, hout'⟩ | ⟨-, e, he⟩
          · exact ⟨out', hout'⟩
          · rw [hout] at he
            cases he
        have hlast : ((Operation.home (some (axis :: axes)) activeWcs).script fmt d).last = .ok () :=
          Script.loop_last hall
        refine ⟨.inl hlast, fun t args h => ?_, fun h => by rw [hformats] at h; cases h⟩
        rw [hformats] at h
        cases h
        rw [hlast, Operation.formatting, if_neg (by simp [Operation.isWcsOffset]), hout]
        rfl
      · have hscript : (Operation.home (some (axis :: axes)) activeWcs).script fmt d =
            ⟨[], .err e, false⟩ := by
          simp only [Operation.script, List.map_cons, Script.loop, he]
        refine ⟨.inr (by rw [hscript]), fun t args h => ?_, fun h => by rw [hformats] at h; cases h⟩
        rw [hformats] at h
        cases h
        rw [hscript, Operation.formatting, if_neg (by simp [Operation.isWcsOffset]), he]
        rfl

theorem endsWith_jog (speed : F) (deltas : List (Text × F)) :
    EndsWith fmt d (.jog speed deltas) := by
  have hformats : (Operation.jog speed deltas).formats fmt d =
      some (d.jog, [("speed".toList, .speed speed)]) := rfl
  refine ⟨?_, fun t args h => ?_, fun h => by rw [hformats] at h; cases h⟩
  · rw [Operation.script]
    split
    · split_ifs
      · exact .inl rfl
      · exact .inl rfl
    · exact .inr rfl
    · exact .inr rfl
  · rw [hformats] at h
    cases h
    rw [Operation.script, Operation.formatting, if_neg (by simp [Operation.isWcsOffset])]
    split
    · rename_i head hhead
      rw [hhead]
      split_ifs <;> rfl
    · rename_i e he
      rw [he]
      rfl
    · rename_i e he
      rw [he]
      rfl

/-- An operation that is one command. -/
theorem endsWith_single {op : Operation F} {r : Outcome Text}
    (hcommands : (op.script fmt d).commands = (Script.ofOutcome r).commands)
    (hlast : (op.script fmt d).last = (Script.ofOutcome r).last)
    (hformats : ∀ t args, op.formats fmt d = some (t, args) → r = op.formatting fmt t args)
    (hnone : op.formats fmt d = none → ¬ r.Panics) : EndsWith fmt d op := by
  obtain ⟨hcomplete, hr⟩ := Script.ofOutcome_cases r
  refine ⟨?_, fun t args h => ?_, fun h hp => hnone h ?_⟩
  · rw [hcommands, hlast]
    exact hcomplete
  · rw [hlast, hr, ← hformats t args h]
  · rw [hlast, hr] at hp
    obtain ⟨e, he⟩ := hp
    cases r with
    | ok c => cases he
    | err e' => cases he
    | panics e' => exact ⟨e', rfl⟩

theorem endsWith_power {op : Operation F} {template : Text} {power : Option F}
    (hscript : op.script fmt d = .ofOutcome (powerCommand fmt d template power))
    (hwcs : op.isWcsOffset = false)
    (hformats : op.formats fmt d = (power.filter fmt.isPositive).map fun p =>
      (template, [("power".toList, .length p)])) : EndsWith fmt d op := by
  refine endsWith_single fmt d (congrArg _ hscript) (congrArg _ hscript) (fun t args h => ?_)
    fun h => ?_
  · rw [hformats] at h
    obtain ⟨p, hp, heq⟩ := Option.map_eq_some_iff.mp h
    cases heq
    rw [powerCommand, hp, Operation.formatting, hwcs]
    rfl
  · rw [hformats, Option.map_eq_none_iff] at h
    rw [powerCommand, h]
    rintro ⟨e, he⟩
    cases he

/-- **Every operation ends as its template has it.** -/
theorem endsWith (op : Operation F) : EndsWith fmt d op := by
  cases op with
  | home axes activeWcs => exact endsWith_home fmt d axes activeWcs
  | jog speed deltas => exact endsWith_jog fmt d speed deltas
  | moveTo speed x y =>
    exact endsWith_single fmt d rfl rfl
      (fun t args h => by cases h; rfl) fun h => by cases h
  | selectTool toolNumber =>
    exact endsWith_single fmt d rfl rfl
      (fun t args h => by cases h; rfl) fun h => by cases h
  | setPower power => exact endsWith_power fmt d rfl rfl rfl
  | setFocusPower power => exact endsWith_power fmt d rfl rfl rfl
  | runProbeCycle axisLetter maxTravel feedRate =>
    exact endsWith_single fmt d rfl rfl
      (fun t args h => by cases h; rfl) fun h => by cases h
  | setWcsOffset slot x y z =>
    cases hslot : gcodeToPNumber slot with
    | none =>
      have hscript : (Operation.setWcsOffset slot x y z).script fmt d =
          .ofOutcome (.err ("Invalid WCS slot: ".toList ++ slot)) := by
        simp only [Operation.script, hslot, Script.ofOutcome]
      have hformats : (Operation.setWcsOffset slot x y z).formats fmt d = none := by
        simp only [Operation.formats, hslot, Option.map_none]
      refine endsWith_single fmt d (congrArg _ hscript) (congrArg _ hscript) (fun t args h => ?_)
        fun _ => ?_
      · rw [hformats] at h
        cases h
      · rintro ⟨e, he⟩
        cases he
    | some pNum =>
      have hscript : (Operation.setWcsOffset slot x y z).script fmt d =
          .ofOutcome (d.formatWcsOffset fmt pNum x y z) := by
        simp only [Operation.script, hslot]
      refine endsWith_single fmt d (congrArg _ hscript) (congrArg _ hscript) (fun t args h => ?_)
        fun h => ?_
      · simp only [Operation.formats, hslot, Option.map_some, Option.some.injEq,
          Prod.mk.injEq] at h
        obtain ⟨rfl, rfl⟩ := h
        rfl
      · simp only [Operation.formats, hslot, Option.map_some] at h
        cases h

/-- A panic of the formatting takes the operation down. -/
theorem EndsWith.panics {op : Operation F} (h : EndsWith fmt d op) {t : Text}
    {args : List (Text × Arg F)} (hformats : op.formats fmt d = some (t, args))
    (hp : (op.formatting fmt t args).Panics) : (op.run fmt d fun _ => none).Panics := by
  obtain ⟨e, he⟩ := hp
  have hlast : (op.script fmt d).last = .panics e := by
    rw [h.formatted t args hformats, he]
    rfl
  rcases h.complete with hok | hnil
  · rw [hlast] at hok
    cases hok
  · exact ⟨e, (Script.run_of_nil hnil _).trans hlast⟩

/-- **Which templates take the driver down.**  For every dialect, every operation and all
arguments: the operation survives its template if and only if no placeholder asks for more
decimals of a number than `std` prints and, for `set_wcs_offset`, the template is not refused. -/
theorem neverPanics_iff (op : Operation F) :
    NeverPanics fmt d op ↔ ∀ t args, op.formats fmt d = some (t, args) →
      printable fmt args (scan none t).1 = true ∧ (op.isWcsOffset = true → ¬ Refused args t) := by
  have hend := endsWith fmt d op
  constructor
  · intro h t args hformats
    have hsafe : ¬ (op.formatting fmt t args).Panics := fun hp =>
      h.safe _ (hend.panics fmt d hformats hp)
    rcases formatTemplate_cases fmt args t with ⟨-, e, he⟩ | ⟨hp, -, e, he⟩ | ⟨hp, hr, -⟩
    · exfalso
      refine hsafe ⟨e, ?_⟩
      rw [Operation.formatting, he]
      split_ifs <;> rfl
    · refine ⟨hp, fun hwcs => absurd ?_ hsafe⟩
      rw [Operation.formatting, if_pos hwcs, he]
      exact ⟨_, rfl⟩
    · exact ⟨hp, fun _ => hr⟩
  · intro h
    refine ⟨fun fails hp => ?_, fun t args hformats hr fails => ?_⟩
    · rcases hend.complete with hok | hnil
      · exact Script.runFrom_not_panics hok _ _ _ hp
      · have hlast : (op.script fmt d).last.Panics := by
          rw [← Script.run_of_nil hnil fails]
          exact hp
        cases hformats : op.formats fmt d with
        | none => exact hend.unformatted hformats hlast
        | some q =>
          obtain ⟨t, args⟩ := q
          obtain ⟨hprint, hvalid⟩ := h t args hformats
          rw [hend.formatted t args hformats, Operation.formatting] at hlast
          obtain ⟨e, he⟩ := hlast
          rcases formatTemplate_cases fmt args t with ⟨hbad, -⟩ | ⟨-, hr, e', he'⟩ | ⟨-, -, hok⟩
          · rw [hprint] at hbad
            cases hbad
          · rw [if_neg fun hwcs => hvalid hwcs hr, he'] at he
            cases he
          · rw [hok] at he
            split_ifs at he <;> cases he
    · obtain ⟨hprint, hvalid⟩ := h t args hformats
      rcases formatTemplate_cases fmt args t with ⟨hbad, -⟩ | ⟨-, -, e, he⟩ | ⟨-, hn, -⟩
      · rw [hprint] at hbad
        cases hbad
      · have hlast : (op.script fmt d).last = .err e := by
          rw [hend.formatted t args hformats, Operation.formatting,
            if_neg fun hwcs => hvalid hwcs hr, he]
          rfl
        rcases hend.complete with hok | hnil
        · rw [hlast] at hok
          cases hok
        · exact ⟨e, (Script.run_of_nil hnil fails).trans hlast⟩
      · exact absurd hr hn

end Scripts

/-! ### A dict that takes the driver down -/

/-- Every text can be the work offset template. -/
theorem parseDialect_wcsOffset (t : Text) :
    parseDialect [(some "set_wcs_offset".toList, .str t)] = some { setWcsOffset := t } := rfl

/-- A placeholder with another name than the driver's takes `set_wcs_offset` down. -/
theorem wcsOffset_panics : ¬ ∀ dict d, parseDialect dict = some d →
    NeverPanics decimalFormat d (.setWcsOffset "G54".toList 0 0 none) := by
  intro h
  refine (h _ _ (parseDialect_wcsOffset "G10 L20 P{p} X{x} Y{y}".toList)).safe (fun _ => none) ?_
  exact ⟨"valid template: \"no value for placeholder \x7bp\x7d\"".toList, by decide +kernel⟩

end Raydriver
