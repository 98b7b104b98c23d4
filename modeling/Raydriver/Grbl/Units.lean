import Raydriver.Grbl.AlarmKept
import Raydriver.Grbl.Panel
import Raydriver.Grbl.Settings

/-!
# The report unit of a session and its device

The session converts positions by a flag that follows the answers to `$$`, and the device
by its setting `$13`.  `read_settings` and `detect_unit_system` store the flag behind the
exchange of a `$$`; `write_setting` does not look at what it writes.

## Main definitions

* `SettingsCall` — the calls around the settings of a device.
* `Bench`, `Bench.step` — a session, its device, and the call between them.
* `Bench.InStep` — the flag says what the device does.
* `Bench.benign` — the step does not take the two apart.

## Main results

* `Sys.step_reportInInches` — nothing inside the session touches the flag.
* `Bench.step_inStep_iff` — which steps keep the two in step.
* `report_unit_kept` — **the host keeps the report unit as long as nothing changes it**.
* `report_unit_lost` — a write that is acknowledged, and a read that is refused.
-/

namespace Raydriver

open Lts

/-! ### Who touches the flag -/

theorem handleResponse_reportInInches (c : Core) (r : GrblResponse) :
    (c.handleResponse r).reportInInches = c.reportInInches := by
  unfold Core.handleResponse
  split
  · unfold Core.handleOk
    dsimp only
    split <;> rfl
  · rfl
  · unfold Core.handleLine
    split_ifs
    · rfl
    · rfl
    · dsimp only
      split <;> rfl
    · dsimp only
      split <;> rfl

theorem handleRx_reportInInches (data : Bytes) (c : Core) :
    (c.handleRx data).reportInInches = c.reportInInches :=
  handleRx_same (fun _ _ _ => rfl) (fun _ => rfl) handleResponse_reportInInches data c

/-- Nothing inside the session touches the flag. -/
theorem Sys.step_reportInInches {l : Label} {s u : Sys} (hs : Sys.step l s = some u) :
    u.core.reportInInches = s.core.reportInInches := by
  by_cases hl : ∃ i ch, l = .task i ch
  · obtain ⟨i, ch, rfl⟩ := hl
    obtain ⟨b, c', b', spawned, -, -, -, hadv, rfl⟩ := Sys.step_task hs
    have hpanel := congrArg Panel.reportInInches (advance_panel hadv)
    refine (hpanel : c'.reportInInches = _).trans ?_
    unfold Body.touch
    split
    · rfl
    · rfl
    · rfl
    · split_ifs <;> rfl
    · rfl
  · by_cases hrx : ∃ data, l = .rx data
    · obtain ⟨data, rfl⟩ := hrx
      obtain ⟨-, rfl⟩ := Sys.step_rx hs
      exact handleRx_reportInInches data s.core
    · exact congrArg Panel.reportInInches (Sys.step_panel hs (fun i ch hi => hl ⟨i, ch, hi⟩)
        fun data hd => hrx ⟨data, hd⟩)

/-! ### The session and the device -/

/-- The calls around the settings of a device. -/
inductive SettingsCall where
  | readSettings
  | detectUnitSystem
  | writeSetting (key value : Text)
  deriving DecidableEq, Repr

namespace SettingsCall

/-- The command of a call. -/
def command : SettingsCall → Text
  | .readSettings | .detectUnitSystem => "$$".toList
  | .writeSetting key value => "$".toList ++ key ++ "=".toList ++ value

/-- How its command is sent. -/
def call : SettingsCall → Call
  | .writeSetting key value => .execute (writeSetting key value).command
  | op => .interactive op.command

end SettingsCall

/-- A call that has not returned. -/
structure Outstanding where
  op : SettingsCall
  task : ℕ
  /-- What was written before the call. -/
  mark : ℕ
  /-- Once the device has executed the command: was it idle? -/
  executed : Option Bool := none
  deriving DecidableEq, Repr

/-- A session with its device, and the call that has not returned. -/
structure Bench where
  sys : Sys
  device : SettingsDevice
  outstanding : Option Outstanding := none

/-- What happens on the bench. -/
inductive BenchLabel where
  /-- A step of the session that is no call. -/
  | session (l : Label)
  /-- A call, when none is outstanding. -/
  | begin (op : SettingsCall)
  /-- The device executes the command of the call. -/
  | execute (idle : Bool)
  /-- The call returns. -/
  | finish

namespace Bench

/-- The command of the call has been written. -/
def written (o : Outstanding) (b : Bench) : Bool :=
  (b.sys.core.sent.drop o.mark).any fun e => e.payload == commandLine o.op.command

/-- The call is a `$$` whose exchange has ended with the answer of the device: was the device
idle? -/
def answered (b : Bench) : Option Bool :=
  b.outstanding.bind fun o => o.executed.bind fun idle =>
    if b.sys.tasks[o.task]? =
        some (.interactive o.op.command (.returned (some (b.device.readAnswer idle)))) then
      some idle
    else none

/-- The call has ended otherwise: a write, or an exchange that has failed. -/
def isOver (b : Bench) : Bool :=
  b.outstanding.any fun o =>
    match b.sys.tasks[o.task]? with
    | some (.execute _ (.returned _ _)) | some (.interactive _ (.returned none)) => true
    | _ => false

/-- The report flag is stored. -/
def storeUnit (inches : Bool) (b : Bench) : Bench :=
  { b with sys := { b.sys with core := { b.sys.core with reportInInches := inches } } }

/-- One step of the bench. -/
def step : BenchLabel → Bench → Option Bench
  | .session (.call _), _ => none
  | .session l, b => (Sys.step l b.sys).map fun s => { b with sys := s }
  | .begin op, b =>
    if b.outstanding.isNone then
      (Sys.step (.call op.call) b.sys).map fun s =>
        { b with sys := s, outstanding := some ⟨op, b.sys.tasks.length, b.sys.core.sent.length, none⟩ }
    else none
  | .execute idle, b =>
    b.outstanding.bind fun o =>
      if o.executed.isNone && b.written o then
        some { b with
          device := b.device.execute idle o.op.command
          outstanding := some { o with executed := some idle } }
      else none
  | .finish, b =>
    match b.answered with
    | some idle =>
      some { b.storeUnit (isReportInInches (b.device.readAnswer idle)) with outstanding := none }
    | none => if b.isOver then some { b with outstanding := none } else none

/-- The flag says what the device does. -/
def InStep (b : Bench) : Prop := b.sys.core.reportInInches = !decide (b.device.reportInches = 0)

/-- The step does not take flag and device apart: a command leaves the report unit of the
device as it is, an answered `$$` finds a number that is no proper fraction, and a refused
one a device that reports millimetres. -/
def benign (b : Bench) : BenchLabel → Bool
  | .execute idle => b.outstanding.all fun o =>
    decide ((b.device.execute idle o.op.command).reportInches = 0) ==
      decide (b.device.reportInches = 0)
  | .finish =>
    match b.answered with
    | some true => truncatesToZero b.device.reportInches == decide (b.device.reportInches = 0)
    | some false => decide (b.device.reportInches = 0)
    | none => true
  | _ => true

/-- Which steps keep flag and device in step: just the benign ones. -/
theorem step_inStep_iff {b b' : Bench} {l : BenchLabel} (hs : Bench.step l b = some b')
    (h : b.InStep) : b'.InStep ↔ b.benign l = true := by
  cases l with
  | session l =>
    refine iff_of_true ?_ rfl
    cases l with
    | call op => cases hs
    | _ =>
      obtain ⟨s, hstep, rfl⟩ := Option.map_eq_some_iff.mp hs
      exact (Sys.step_reportInInches hstep).trans h
  | begin op =>
    refine iff_of_true ?_ rfl
    simp only [Bench.step] at hs
    split_ifs at hs
    obtain ⟨s, hstep, rfl⟩ := Option.map_eq_some_iff.mp hs
    exact (Sys.step_reportInInches hstep).trans h
  | execute idle =>
    obtain ⟨o, ho, hs⟩ := Option.bind_eq_some_iff.mp hs
    split_ifs at hs
    cases hs
    simp only [benign, ho, Option.all_some]
    show b.sys.core.reportInInches = _ ↔ _
    rw [h, beq_iff_eq]
    constructor
    · exact fun heq => (Bool.not_inj heq).symm
    · exact fun heq => congrArg (!·) heq.symm
  | finish =>
    simp only [Bench.step] at hs
    split at hs
    · rename_i idle hidle
      cases hs
      simp only [benign, hidle]
      show isReportInInches (b.device.readAnswer idle) = !decide (b.device.reportInches = 0) ↔ _
      rw [isReportInInches_readAnswer]
      cases idle with
      | true => cases truncatesToZero b.device.reportInches <;> simp
      | false => simp
    · rename_i hnone
      split_ifs at hs
      cases hs
      refine iff_of_true h ?_
      simp only [benign, hnone]

end Bench

/-- **The host keeps the report unit as long as nothing changes it.**  Behind a `$$` that was
answered, flag and device are in step in every state of a run of benign steps; and a step that
is not benign takes them apart. -/
theorem report_unit_kept (b₀ : Bench) :
    (b₀.sys.core.reportInInches = isReportInInches (b₀.device.readAnswer true) →
      (truncatesToZero b₀.device.reportInches = true ↔ b₀.device.reportInches = 0) →
      ∀ b : Bench, Run Bench.step (fun b l _ => b.benign l = true) b₀ b → b.InStep) ∧
    ∀ (l : BenchLabel) (b : Bench), b₀.InStep → Bench.step l b₀ = some b →
      (b.InStep ↔ b₀.benign l = true) := by
  refine ⟨fun hstart hwhole b hrun => ?_, fun l b h hs => Bench.step_inStep_iff hs h⟩
  refine hrun.invariant (I := Bench.InStep)
    (fun _ _ _ h hs hok => (Bench.step_inStep_iff hs h).mpr hok) ?_
  unfold Bench.InStep
  rw [hstart, isReportInInches_readAnswer, Bool.true_and]
  refine congrArg (!·) ?_
  rw [Bool.eq_iff_iff, hwhole, decide_eq_true_eq]

/-! ### A device with one setting -/

/-- Millimetres. -/
def zeroValue : SettingValue :=
  ⟨"0".toList, 0, List.all_eq_true.mp (by decide), by decide +kernel⟩

/-- Inches. -/
def oneValue : SettingValue :=
  ⟨"1".toList, 1, List.all_eq_true.mp (by decide), by decide +kernel⟩

/-- A device that keeps `$13`, and takes `0` and `1` for it. -/
def unitDevice (v : SettingValue) : SettingsDevice where
  keys := [⟨"13".toList, by decide, List.all_eq_true.mp (by decide)⟩]
  value _ := v
  store t := if t = "0".toList then some zeroValue else if t = "1".toList then some oneValue else none
  report := ⟨_, List.mem_cons_self, rfl⟩

/-- The session behind its connection: the command queue is task 1. -/
def connectedBench (v : SettingValue) : Bench where
  sys := reach Sys.step (.call .connect :: turns 0 2 ++ turns 1 2 ++ [.link true])
    { core := {}, tasks := [] }
  device := unitDevice v

/-- `read_settings` as task `i`, answered by `data`. -/
def readExchange (i : ℕ) (idle : Bool) (data : Bytes) : List BenchLabel :=
  .begin .readSettings :: (turns i 6).map .session ++ .execute idle :: .session (.rx data) ::
    (turns i 2).map .session ++ [.finish]

/-- `write_setting` as task `i`, acknowledged. -/
def writeExchange (i : ℕ) : List BenchLabel :=
  .begin (.writeSetting "13".toList "1".toList) :: (turns i 1 ++ turns 1 5).map .session ++
    .execute true :: .session (.rx (ascii "ok\n")) :: (turns i 1).map .session ++ [.finish]

/-- The bench behind a `$$` that a device in millimetres has answered. -/
def metricBench : Bench :=
  reach Bench.step (readExchange 2 true (ascii "$13=0\nok\n")) (connectedBench zeroValue)

/-- The bench behind a `$$` that a device in inches has answered. -/
def inchBench : Bench :=
  reach Bench.step (readExchange 2 true (ascii "$13=1\nok\n")) (connectedBench oneValue)

/-- A `$$` that is answered: the general result. -/
theorem report_unit_kept_read : metricBench.InStep := by
  refine (report_unit_kept (connectedBench zeroValue)).1 (by decide +kernel) (by decide +kernel)
    _ ?_
  exact run_reach_where (p := Bench.benign) (by decide +kernel)

/-- **The host loses the report unit**: an acknowledged `$13=1` leaves the flag on
millimetres, and so does a `$$` that a device in inches refuses behind one it answered, though
`detect_unit_system_from_settings` finds no unit in that refusal. -/
theorem report_unit_lost :
    (¬ ∀ b b' : Bench, Run Bench.step AnyStep (connectedBench zeroValue) b → b.InStep →
      Run Bench.step AnyStep b b' → b'.outstanding = none → b'.InStep) ∧
    (¬ ∀ b b' : Bench, Run Bench.step AnyStep (connectedBench oneValue) b → b.InStep →
      Run Bench.step AnyStep b b' → b'.outstanding = none → b'.InStep) ∧
    detectUnitSystemFromSettings ((unitDevice oneValue).readAnswer false) = none := by
  refine ⟨fun h => ?_, fun h => ?_, by decide +kernel⟩
  · have hkept := h metricBench (reach Bench.step (writeExchange 3) _)
      (run_reach (by decide +kernel)) (by unfold Bench.InStep; decide +kernel)
      (run_reach (by decide +kernel)) (by decide +kernel)
    unfold Bench.InStep at hkept
    exact absurd hkept (by decide +kernel)
  · have hkept := h inchBench (reach Bench.step (readExchange 3 false (ascii "error:8\n")) _)
      (run_reach (by decide +kernel)) (by unfold Bench.InStep; decide +kernel)
      (run_reach (by decide +kernel)) (by decide +kernel)
    unfold Bench.InStep at hkept
    exact absurd hkept (by decide +kernel)

end Raydriver
