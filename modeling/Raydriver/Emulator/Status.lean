import Raydriver.Emulator.Blocks
import Raydriver.Emulator.Planner
import Raydriver.Emulator.Double
import Raydriver.Grbl.Positions

/-!
# The positions that the emulator reports

A status report gives the machine position or the work position, and the work coordinate offset
only if it has changed since, or once in a while.  The driver keeps the offset of the last report
that gave it.  That this is the offset in force is an invariant of both sides: as long as the
emulator has not marked its offset as changed, the driver knows it.

## Main definitions

* `Quiet` — nothing is reported, and an offset that changes is marked.
* `reports`, `hostState` — the status reports written so far, and what the driver makes of them.
* `Firmware.Synced` — what the driver knows between two reports.
* `Firmware.Subtracts` — how far the float difference of position and offset is off.
* `Firmware.Agrees` — the positions of the two sides are the same, up to the rounding of what is
  printed and that error.

## Main results

* `executeLine_quiet`, `tick_quiet`, `step_cases` — one lemma for each part of the emulator.
* `statusReport_synced` — **what a report tells the driver.**
* `host_agrees` — **the two sides agree behind every report.**
* `far_offset_disagrees` — the error of the difference has no bound of its own.
-/

namespace Raydriver.Emulator

open PyFloat Lts Latest

variable {F : Type} [PyFloat F]

/-- A status report. -/
def isReport (o : Output) : Bool := startsWith "<".toList o.data

/-- From one to the other the offset stays the same, or is marked as changed. -/
def Kept (m m' : Modes F) : Prop :=
  m'.wcoDirty = true ∨
    m'.wcoDirty = m.wcoDirty ∧ m'.activeWcs = m.activeWcs ∧ m'.wcs = m.wcs

omit [PyFloat F] in
theorem Kept.refl (m : Modes F) : Kept m m := .inr ⟨rfl, rfl, rfl⟩

omit [PyFloat F] in
theorem Kept.trans {m m' m'' : Modes F} (h : Kept m m') (h' : Kept m' m'') : Kept m m'' := by
  rcases h' with h' | ⟨hdirty, hactive, hwcs⟩
  · exact .inl h'
  · rcases h with h | ⟨hdirty', hactive', hwcs'⟩
    · exact .inl (hdirty.trans h)
    · exact .inr ⟨hdirty.trans hdirty', hactive.trans hactive', hwcs.trans hwcs'⟩

namespace Firmware

/-- From `s` to `t` nothing is reported, and an offset that changes is marked. -/
structure Quiet (s t : Firmware F) : Prop where
  log : ∃ w, t.log = s.log ++ w ∧ ∀ o ∈ w, isReport o = false
  modes : Kept s.modes t.modes

section Quiet

omit [PyFloat F]

variable {s t u : Firmware F}

theorem Quiet.trans (h : Quiet s t) (h' : Quiet t u) : Quiet s u := by
  obtain ⟨w, hw, hno⟩ := h.log
  obtain ⟨w', hw', hno'⟩ := h'.log
  refine ⟨⟨w ++ w', by rw [hw', hw, List.append_assoc], fun o ho => ?_⟩, h.modes.trans h'.modes⟩
  exact (List.mem_append.mp ho).elim (hno o) (hno' o)

/-- Nothing is written. -/
theorem Quiet.of_log (hlog : t.log = s.log) (hmodes : Kept s.modes t.modes) : Quiet s t :=
  ⟨⟨[], by rw [hlog, List.append_nil], nofun⟩, hmodes⟩

theorem Quiet.of_modes (hlog : t.log = s.log) (hmodes : t.modes = s.modes) : Quiet s t :=
  .of_log hlog (hmodes ▸ .refl _)

theorem Quiet.refl (s : Firmware F) : Quiet s s := .of_modes rfl rfl

theorem write_quiet {data : Text} (h : startsWith "<".toList data = false) (s : Firmware F) :
    Quiet s (s.write data) :=
  ⟨⟨[⟨data, none⟩], rfl, fun _ ho => List.mem_singleton.mp ho ▸ h⟩, .refl _⟩

theorem ack_quiet (n : ℕ) {data : Text} (h : startsWith "<".toList data = false) (s : Firmware F) :
    Quiet s (s.ack n data) :=
  ⟨⟨[⟨data, some n⟩], rfl, fun _ ho => List.mem_singleton.mp ho ▸ h⟩, .refl _⟩

theorem ackOk_quiet (n : ℕ) (s : Firmware F) : Quiet s (s.ackOk n) := ack_quiet n rfl s

theorem ackError_quiet (n : ℕ) (code : ℤ) (s : Firmware F) : Quiet s (s.ackError n code) :=
  ack_quiet n rfl s

theorem setAlarm_quiet (code : ℤ) {message : Option Text}
    (h : ∀ m, message = some m → startsWith "<".toList m = false) (s : Firmware F) :
    Quiet s (s.setAlarm code message) := by
  have hclear : Quiet s { s with state := .alarm }.clear := .of_modes rfl rfl
  have halarm : Quiet s ({ s with state := .alarm }.clear.write
      ("ALARM:".toList ++ intText code ++ "\r\n".toList)) := hclear.trans (write_quiet rfl _)
  unfold setAlarm
  cases message with
  | none => exact halarm
  | some message => exact halarm.trans (write_quiet (h message rfl) _)

theorem plan_quiet (block : Block F) (s : Firmware F) : Quiet s (s.plan block) :=
  .of_modes rfl rfl

theorem planDwell_quiet (n : ℕ) (dwell : Option F) (s : Firmware F) :
    Quiet s (s.planDwell n dwell) := by
  unfold planDwell
  split
  · exact .refl s
  · exact .of_modes rfl rfl

theorem foldl_write_quiet {ts : List Text} (h : ∀ t ∈ ts, startsWith "<".toList t = false)
    (s : Firmware F) : Quiet s (ts.foldl (fun s t => s.write t) s) := by
  rw [foldl_write]
  refine ⟨⟨_, rfl, fun o ho => ?_⟩, .refl _⟩
  obtain ⟨t, ht, rfl⟩ := List.mem_map.mp ho
  exact h t ht

end Quiet

/-! ### One line -/

theorem checkSoftLimits_quiet (n : ℕ) (target : Vec F) (s : Firmware F) :
    Quiet s (s.checkSoftLimits n target) := by
  unfold checkSoftLimits
  split
  · exact .refl s
  · dsimp only
    split
    · have halarm : Quiet s (s.setAlarm 2 none) := setAlarm_quiet 2 (fun _ hm => by cases hm) s
      exact halarm.trans (ackError_quiet n 5 _)
    · exact .refl s

theorem execProbe_quiet (n : ℕ) (target : Vec F) (feed : F) (s : Firmware F) :
    Quiet s (s.execProbe n target feed) := by
  unfold execProbe
  dsimp only
  split
  · exact checkSoftLimits_quiet n target s
  · exact (checkSoftLimits_quiet n target s).trans (plan_quiet _ _)

theorem execMotion_quiet (n : ℕ) (v : F) (words : List (Word F)) (s : Firmware F) :
    Quiet s (s.execMotion n v words).1 := by
  have hmotion (s : Firmware F) (motion : Option Text) :
      Quiet s { s with modes.modal.motion := motion } := .of_log rfl (.inr ⟨rfl, rfl, rfl⟩)
  unfold execMotion
  rcases s.resolveMotion words none with ⟨target, feed, hasAxis⟩
  dsimp only
  split
  · split
    · exact execProbe_quiet n _ feed s
    · exact .refl s
  · split
    · rename_i target
      have hlimits := checkSoftLimits_quiet n target s
      have hmoved := hlimits.trans (hmotion _ (some ('G' :: intText (trunc v))))
      split_ifs
      · exact .refl s
      · exact hlimits
      · exact hmoved
      all_goals exact hmoved.trans (plan_quiet _ _)
    · split_ifs
      · exact .refl s
      · exact hmotion s _

omit [PyFloat F] in
/-- What both branches keep. -/
theorem kept_ite {p : Prop} [Decidable p] {m : Modes F} {a b : Option (Modes F × Collected F)}
    {r : Modes F × Collected F} (ha : a = some r → Kept m r.1) (hb : b = some r → Kept m r.1)
    (h : (if p then a else b) = some r) : Kept m r.1 := by
  by_cases hp : p
  · exact ha (by rwa [if_pos hp] at h)
  · exact hb (by rwa [if_neg hp] at h)

theorem execWord_kept {words : List (Word F)} {w : Word F} {m : Modes F} {c : Collected F}
    {r : Modes F × Collected F} : execWord words w m c = some r → Kept m r.1 := by
  have hsome {m' : Modes F} {c' : Collected F} (hm : Kept m m') :
      some (m', c') = some r → Kept m r.1 := by
    rintro ⟨⟩
    exact hm
  have hsame {m' : Modes F} {c' : Collected F} (hdirty : m'.wcoDirty = m.wcoDirty)
      (hactive : m'.activeWcs = m.activeWcs) (hwcs : m'.wcs = m.wcs) :
      some (m', c') = some r → Kept m r.1 := hsome (.inr ⟨hdirty, hactive, hwcs⟩)
  unfold execWord
  dsimp only
  refine kept_ite ?_ (kept_ite ?_ (kept_ite (hsame rfl rfl rfl)
    (kept_ite (hsame rfl rfl rfl) (hsame rfl rfl rfl))))
  · -- the motions, the dwell, `G10` and the modes, and then the coordinate systems
    refine kept_ite (hsame rfl rfl rfl) (kept_ite (hsame rfl rfl rfl)
      (kept_ite (hsame rfl rfl rfl) (kept_ite (hsame rfl rfl rfl) (kept_ite (hsame rfl rfl rfl)
        (kept_ite (hsame rfl rfl rfl) (kept_ite (hsame rfl rfl rfl) (kept_ite ?_
          (kept_ite (hsame rfl rfl rfl) nofun))))))))
    exact hsome (.inl rfl)
  · exact kept_ite (hsame rfl rfl rfl) (kept_ite (hsame rfl rfl rfl)
      (kept_ite (hsame rfl rfl rfl) nofun))

theorem execWords_kept (words : List (Word F)) : ∀ (ws : List (Word F)) (m : Modes F)
    (c : Collected F), Kept m (execWords words ws m c).1 := by
  intro ws
  induction ws with
  | nil => exact fun m _ => .refl m
  | cons w ws ih =>
    intro m c
    rw [execWords]
    cases hw : execWord words w m c with
    | none => exact .refl m
    | some r => exact (execWord_kept hw).trans (ih r.1 r.2)

theorem applyWcs_kept (words : List (Word F)) (c : Collected F) (m : Modes F) :
    Kept m (applyWcs words c m) := by
  unfold applyWcs
  split
  · exact .refl m
  · split
    · exact .inl rfl
    · exact .refl m

theorem runMotion_quiet (n : ℕ) (motionPending : Option F) (words : List (Word F))
    (s : Firmware F) : Quiet s (s.runMotion n motionPending words).1 := by
  unfold runMotion
  split
  · exact ackOk_quiet n s
  · rename_i motion
    have hmotion := execMotion_quiet n motion words s
    split
    · rename_i t code hrun
      rw [hrun] at hmotion
      exact hmotion
    · rename_i t hrun
      rw [hrun] at hmotion
      exact hmotion.trans (ackOk_quiet n t)
    · rename_i t hrun
      rw [hrun] at hmotion
      exact hmotion

theorem execGcode_quiet (n : ℕ) (words : List (Word F)) (s : Firmware F) :
    Quiet s (s.execGcode n words).1 := by
  have hwords := execWords_kept words words s.modes {}
  unfold execGcode
  rcases hrun : execWords words words s.modes {} with ⟨m, c, refused⟩
  rw [hrun] at hwords
  dsimp only
  split
  · exact .of_log rfl hwords
  · have hwcs : Quiet s { s with modes := applyWcs words c m } :=
      .of_log rfl (hwords.trans (applyWcs_kept words c m))
    exact (hwcs.trans (planDwell_quiet n c.dwell _)).trans (runMotion_quiet n _ words _)

theorem execJog_quiet (n : ℕ) (words : List (Word F)) (s : Firmware F) :
    Quiet s (s.execJog n words) := by
  unfold execJog
  split
  · exact ackError_quiet n 9 s
  · split
    · exact (plan_quiet _ s).trans (ackOk_quiet n _)
    · exact ackError_quiet n 16 s

/-- A query prints no report. -/
theorem queryLines_quiet {stripped : Text} {s : Firmware F} {ts : List Text}
    (h : s.queryLines stripped = some ts) : ∀ t ∈ ts, startsWith "<".toList t = false := by
  intro t ht
  unfold queryLines at h
  split_ifs at h <;> cases h
  · obtain ⟨e, -, rfl⟩ := List.mem_map.mp ht
    rfl
  · rcases List.mem_cons.mp ht with rfl | ht
    · rfl
    · rw [List.mem_singleton.mp ht]
      rfl
  · rw [List.mem_singleton.mp ht]
    rfl
  · rcases List.mem_append.mp ht with ht | ht
    · obtain ⟨slot, -, rfl⟩ := List.mem_map.mp ht
      rfl
    · simp only [List.mem_cons, List.not_mem_nil, or_false] at ht
      rcases ht with rfl | rfl | rfl | rfl | rfl <;> rfl

theorem execSystem_quiet (n : ℕ) (stripped : Text) (s : Firmware F) :
    Quiet s (s.execSystem n stripped) := by
  unfold execSystem
  cases hquery : s.queryLines stripped with
  | some ts => exact (foldl_write_quiet (queryLines_quiet hquery) s).trans (ackOk_quiet n _)
  | none =>
    have hidle : Quiet s { s with state := .idle } := .of_modes rfl rfl
    dsimp only
    split
    · split
      · exact (hidle.trans (write_quiet rfl _)).trans (ackOk_quiet n _)
      · exact hidle.trans (ackOk_quiet n _)
    · split
      · split
        · exact ackError_quiet n 5 s
        · exact (plan_quiet _ s).trans (ackOk_quiet n _)
      · split
        · exact ackError_quiet n 20 s
        · split
          · exact ackError_quiet n 5 s
          · rename_i key raw _ _ value _
            have hset : Quiet s { s with settings := insert key value s.settings } :=
              .of_modes rfl rfl
            split
            · exact hset.trans (ackOk_quiet n _)
            · exact ackError_quiet n 20 s

/-- A line reports nothing, and marks the offset if it changes it. -/
theorem executeLine_quiet (n : ℕ) (raw : Text) (s : Firmware F) :
    Quiet s (s.executeLine n raw) := by
  unfold executeLine
  dsimp only
  split
  · exact ackOk_quiet n s
  · split
    · exact execJog_quiet n _ s
    · split
      · exact execSystem_quiet n _ s
      · split
        · exact ackError_quiet n 9 s
        · have hcode := execGcode_quiet n (parseWords raw) s
          split
          · rename_i t code hrun
            rw [hrun] at hcode
            exact hcode.trans (ackError_quiet n code t)
          · rename_i t hrun
            rw [hrun] at hcode
            exact hcode

/-! ### The protocol loop -/

theorem drainPendingLines_quiet (s : Firmware F) : Quiet s s.drainPendingLines := by
  refine drain_induction (P := Quiet s) (C := fun _ _ => True) ?_ _ s (.refl s) fun _ _ => trivial
  intro t line u ht hnext _
  have htaken : Quiet t u := by
    obtain ⟨rest, -, -, rfl⟩ := nextLine_cases hnext
    exact .of_modes rfl rfl
  exact (ht.trans htaken).trans (executeLine_quiet _ line u)

theorem startBlock_quiet (s : Firmware F) : Quiet s s.startBlock := by
  refine .of_log (startBlock_starts s).log ?_
  unfold startBlock
  split
  · split
    · dsimp only
      split
      · exact .inr ⟨rfl, rfl, rfl⟩
      · exact .refl _
    · split
      · exact .refl _
      · exact .refl _
  · exact .refl _

theorem reportProbe_quiet (success : Bool) (s : Firmware F) : Quiet s (s.reportProbe success) := by
  have hprb (flag : ℤ) : Quiet s { s with lastPrb := (s.mpos, flag) } := .of_modes rfl rfl
  exact (hprb _).trans (write_quiet rfl _)

theorem finishBlock_quiet (block : Block F) (s : Firmware F) :
    Quiet s (s.finishBlock block) := by
  unfold finishBlock
  split
  · exact .of_modes rfl rfl
  · split
    · rename_i touch _
      have htouch : Quiet s { s with mpos := touch } := .of_modes rfl rfl
      exact (htouch.trans (reportProbe_quiet true _)).trans (ackOk_quiet _ _)
    · split
      · have hacked := (reportProbe_quiet false s).trans (ackOk_quiet block.line _)
        refine hacked.trans (setAlarm_quiet 4 (fun _ hm => ?_) _)
        cases hm
        rfl
      · exact .refl s

theorem advance_quiet (elapsed : F) (s : Firmware F) : Quiet s (s.advance elapsed) := by
  unfold advance
  split
  · exact .refl s
  · rename_i block _
    split
    · exact .refl s
    · dsimp only
      split
      · have hreached : Quiet s { s with
            blockElapsed := add s.blockElapsed elapsed
            mpos := block.target
            currentBlock := none } := .of_modes rfl rfl
        exact hreached.trans (finishBlock_quiet block _)
      · exact .of_modes rfl rfl

/-- A tick reports nothing. -/
theorem tick_quiet (now : F) (s : Firmware F) : Quiet s (s.tick now) := by
  obtain ⟨elapsed, u, rfl, htick⟩ := tick_cases now s
  have hnow : Quiet s { s with lastTick := some now } := .of_modes rfl rfl
  rw [htick]
  exact ((hnow.trans (drainPendingLines_quiet _)).trans (startBlock_quiet _)).trans
    (advance_quiet elapsed _)

/-! ### The serial side -/

omit [PyFloat F] in
theorem greet_quiet (s : Firmware F) : Quiet s s.greet := by
  unfold greet
  split
  · exact .refl s
  · have hwelcomed : Quiet s { s with welcomed := true } := .of_modes rfl rfl
    exact hwelcomed.trans (write_quiet rfl _)

omit [PyFloat F] in
theorem softReset_quiet (s : Firmware F) : Quiet s s.softReset := by
  have hclear : Quiet s s.clear := .of_modes rfl rfl
  have hwelcome : Quiet s (s.clear.write welcomeText) := hclear.trans (write_quiet rfl _)
  unfold softReset
  dsimp only
  split
  · have halarm : Quiet s { s.clear.write welcomeText with state := .alarm } :=
      hwelcome.trans (.of_modes rfl rfl)
    exact halarm.trans (write_quiet rfl _)
  · exact hwelcome.trans (.of_modes rfl rfl)

omit [PyFloat F] in
theorem endLine_quiet (s : Firmware F) : Quiet s s.endLine := by
  have hrx (rx : RxBuffer) : Quiet s { s with rx := rx } := .of_modes rfl rfl
  unfold endLine
  dsimp only
  split
  · exact (hrx { s.rx with line := [], rxUsed := _, lineOverflow := false }).trans
      (write_quiet rfl _)
  · split
    · exact hrx _
    · exact hrx _

omit [PyFloat F] in
theorem takeChar_quiet (char : Char) (s : Firmware F) : Quiet s (s.takeChar char) := by
  unfold takeChar
  split
  · exact .of_modes rfl rfl
  · dsimp only
    split
    · exact .of_modes rfl rfl
    · exact .of_modes rfl rfl

omit [PyFloat F] in
theorem feedHold_quiet (s : Firmware F) : Quiet s s.feedHold := by
  unfold feedHold
  split
  · exact .refl s
  · dsimp only
    split
    · exact .of_modes rfl rfl
    · exact .of_modes rfl rfl

omit [PyFloat F] in
theorem cycleResume_quiet (s : Firmware F) : Quiet s s.cycleResume := by
  unfold cycleResume
  split
  · exact .of_modes rfl rfl
  · exact .refl s

/-- **Whatever happens is quiet, or is a report.** -/
theorem step_cases (e : Event F) (s : Firmware F) :
    Quiet s (step e s) ∨ ∃ t, Quiet s t ∧ t.settings = s.settings ∧ t.mpos = s.mpos ∧
      t.wco = s.wco ∧ step e s = t.statusReport := by
  cases e with
  | tick now => exact .inl (tick_quiet now s)
  | drain => exact .inl (drainPendingLines_quiet s)
  | setSetting key value => exact .inl (.of_modes rfl rfl)
  | setProbeTouch touch => exact .inl (.of_modes rfl rfl)
  | setSpeedFactor factor => exact .inl (.of_modes rfl rfl)
  | setSilent silent => exact .inl (.of_modes rfl rfl)
  | feedByte byte =>
    have hgreet := greet_quiet s
    have hsettings : s.greet.settings = s.settings := by
      unfold greet
      split <;> rfl
    have hpositions : s.greet.mpos = s.mpos ∧ s.greet.wco = s.wco := by
      unfold greet
      split
      · exact ⟨rfl, rfl⟩
      · exact ⟨rfl, rfl⟩
    show Quiet s (s.feedByte byte) ∨
      ∃ t : Firmware F, _ ∧ _ ∧ _ ∧ _ ∧ s.feedByte byte = t.statusReport
    unfold feedByte
    dsimp only
    split
    · exact .inl (.refl s)
    split
    · exact .inl (hgreet.trans (softReset_quiet _))
    split
    · exact .inr ⟨s.greet, hgreet, hsettings, hpositions.1, hpositions.2, rfl⟩
    split
    · exact .inl (hgreet.trans (cycleResume_quiet _))
    split
    · exact .inl (hgreet.trans (feedHold_quiet _))
    split
    · exact .inl hgreet
    split
    · exact .inl (hgreet.trans (endLine_quiet _))
    · exact .inl (hgreet.trans (takeChar_quiet _ _))

/-! ### The two sides -/

/-- The status reports written so far. -/
def reports (s : Firmware F) : List Text := (s.log.filter isReport).map Output.data

/-- The device state that the driver makes of the reports, in millimetres. -/
def hostState (s : Firmware F) : DeviceState :=
  s.reports.foldl (fun d data => parseState (rstripNewlines data) d false) {}

omit [PyFloat F] in
theorem Quiet.reports {s t : Firmware F} (h : Quiet s t) : t.reports = s.reports := by
  obtain ⟨w, hw, hno⟩ := h.log
  have hnil : w.filter isReport = [] := List.filter_eq_nil_iff.mpr fun o ho => by simp [hno o ho]
  unfold Firmware.reports
  rw [hw, List.filter_append, hnil, List.append_nil]

omit [PyFloat F] in
theorem Quiet.hostState {s t : Firmware F} (h : Quiet s t) : t.hostState = s.hostState := by
  unfold Firmware.hostState
  rw [h.reports]

/-- The line of a report, as the driver receives it. -/
theorem rstripNewlines_report (state : Text) {fields : List Text} (h : fields ≠ []) :
    rstripNewlines (['<'] ++ state ++ ['|'] ++ join '|' fields ++ ">\r\n".toList) =
      report (state :: fields) := by
  have hend : ['<'] ++ state ++ ['|'] ++ join '|' fields ++ ">\r\n".toList =
      ['<'] ++ state ++ ['|'] ++ join '|' fields ++ ['>'] ++ ['\r'] ++ ['\n'] := by
    simp
  have hinner : report (state :: fields) =
      ['<'] ++ state ++ ['|'] ++ join '|' fields ++ ['>'] := by
    unfold report
    rw [List.intercalate_cons_of_ne_nil h]
    simp [join, List.intercalate]
  unfold rstripNewlines
  rw [hend, hinner, List.rdropWhile_concat_pos _ _ _ (by decide),
    List.rdropWhile_concat_pos _ _ _ (by decide), List.rdropWhile_concat_neg _ _ _ (by decide)]

end Firmware

/-! ### The fields of a report -/

/-- The three coordinates as a position that is known. -/
def Vec.pos (v : Vec ℚ) : Pos := [some v.x, some v.y, some v.z]

/-- The rationals that the coordinates stand for. -/
def Values.vec (V : Values F) (v : Vec F) : Vec ℚ := ⟨V.value v.x, V.value v.y, V.value v.z⟩

namespace Firmware

section Report

variable {s : Firmware F} {fields : List Text}

/-- With `$13=0` coordinates are printed as they are. -/
theorem vecText_eq (V : Values F) (h : s.settingIsZero "13" = true) (v : Vec F) :
    s.vecText v = posText (V.vec v).x (V.vec v).y (V.vec v).z := by
  have hreport (c : F) : s.toReport c = c := by rw [toReport, if_pos h]
  unfold vecText
  simp only [hreport, V.fixed]
  simp [join, Vec.toList, posText, Values.vec]

theorem bar_not_mem {t : Text} (h : ∀ c ∈ t, isSettingChar c = true) : '|' ∉ t := fun hbar =>
  absurd (h _ hbar) (by decide)

theorem bar_not_mem_intText {v : ℤ} : '|' ∉ intText v := bar_not_mem isSettingChar_intText

theorem bar_not_mem_posText {x y z : ℚ} : '|' ∉ posText x y z := by
  have hfixed {v : ℚ} : '|' ∉ fixedDecimal 3 v := bar_not_mem isSettingChar_fixedDecimal
  simp [posText, hfixed]

/-- **The fields of a report**: a position, perhaps the buffer and the speeds, and the offset if it
is marked, or once in ten reports. -/
theorem reportFields_cases (h : s.reportFields = some fields) : ∃ position others,
    fields = position :: (others ++
      if s.modes.wcoDirty || s.reportCount % 10 = 1 then ["WCO:".toList ++ s.vecText s.wco]
      else []) ∧
    (position = "MPos:".toList ++ s.vecText s.mpos ∨
      position = "WPos:".toList ++ s.vecText (s.mpos.zipWith sub s.wco)) ∧
    ∀ f ∈ others, '|' ∉ f ∧
      (startsWith "Bf:".toList f = true ∨ startsWith "FS:".toList f = true) := by
  unfold reportFields at h
  cases hmask : s.setting "10" with
  | float v =>
    rw [hmask] at h
    cases h
  | int mask =>
    rw [hmask] at h
    dsimp only at h
    -- the speeds are there while a motion is carried out
    obtain ⟨speeds, hspeeds, hfields⟩ : ∃ speeds : List Text,
        (∀ f ∈ speeds, '|' ∉ f ∧ startsWith "FS:".toList f = true) ∧
        some ((if mask % 2 = 1 then "MPos:".toList ++ s.vecText s.mpos
            else "WPos:".toList ++ s.vecText (s.mpos.zipWith sub s.wco)) ::
          (if mask / 2 % 2 = 1 then [s.bufferField] else []) ++ speeds ++
          if s.modes.wcoDirty || s.reportCount % 10 = 1 then ["WCO:".toList ++ s.vecText s.wco]
          else []) = some fields := by
      cases hcurrent : s.currentBlock with
      | none =>
        rw [hcurrent] at h
        exact ⟨[], nofun, h⟩
      | some block =>
        rw [hcurrent] at h
        by_cases hrests : (block.isDwell || block.isHome) = true
        · simp only [if_pos hrests] at h
          exact ⟨[], nofun, h⟩
        · simp only [if_neg hrests] at h
          obtain ⟨speeds, hspeeds, hfields⟩ := Option.bind_eq_some_iff.mp h
          obtain ⟨feed, -, rfl⟩ := Option.map_eq_some_iff.mp hspeeds
          refine ⟨_, fun f hf => ?_, hfields⟩
          rw [List.mem_singleton.mp hf]
          exact ⟨by simp [bar_not_mem_intText], rfl⟩
    refine ⟨if mask % 2 = 1 then "MPos:".toList ++ s.vecText s.mpos
      else "WPos:".toList ++ s.vecText (s.mpos.zipWith sub s.wco),
      (if mask / 2 % 2 = 1 then [s.bufferField] else []) ++ speeds, ?_, ?_, fun f hf => ?_⟩
    · rw [← Option.some.inj hfields, List.cons_append, List.cons_append]
    · split_ifs
      · exact .inl rfl
      · exact .inr rfl
    · rcases List.mem_append.mp hf with hf | hf
      · split_ifs at hf
        · rw [List.mem_singleton.mp hf]
          exact ⟨by simp [bufferField, bar_not_mem_intText], .inl rfl⟩
        · exact absurd hf List.not_mem_nil
      · exact ⟨(hspeeds f hf).1, .inr (hspeeds f hf).2⟩

/-- The attributes of a report are its fields. -/
theorem attributesOf_report (V : Values F) (h13 : s.settingIsZero "13" = true)
    (h : s.reportFields = some fields) :
    attributesOf (report (s.stateText :: fields)) = fields := by
  obtain ⟨position, others, rfl, hposition, hothers⟩ := reportFields_cases h
  have hstate : '|' ∉ s.stateText ∧ s.stateText ≠ [] := by
    unfold stateText
    cases s.state <;> decide
  have hfields : ∀ f ∈ position :: (others ++
      if s.modes.wcoDirty || s.reportCount % 10 = 1 then ["WCO:".toList ++ s.vecText s.wco]
      else []), '|' ∉ f ∧ f ≠ [] := by
    intro f hf
    rcases List.mem_cons.mp hf with rfl | hf
    · rcases hposition with rfl | rfl
      · simp [vecText_eq V h13, bar_not_mem_posText]
      · simp [vecText_eq V h13, bar_not_mem_posText]
    rcases List.mem_append.mp hf with hf | hf
    · obtain ⟨hbar, hlabel⟩ := hothers f hf
      refine ⟨hbar, ?_⟩
      rintro rfl
      exact absurd hlabel (by decide)
    · split_ifs at hf
      · rw [List.mem_singleton.mp hf]
        simp [vecText_eq V h13, bar_not_mem_posText]
      · exact absurd hf List.not_mem_nil
  unfold attributesOf
  rw [reportParts_report (by
    intro f hf
    exact (List.mem_cons.mp hf).elim (fun hf => hf ▸ hstate.1) fun hf => (hfields f hf).1)]
  rw [List.filter_eq_self.mpr (by
    intro f hf
    have hne : f ≠ [] :=
      (List.mem_cons.mp hf).elim (fun hf => hf ▸ hstate.2) fun hf => (hfields f hf).2
    simpa using hne)]
  rfl

/-- A position is read behind its label. -/
theorem readLabel (V : Values F) (h13 : s.settingIsZero "13" = true) (label : Text)
    (hlabel : ':' ∉ label) (v : Vec F) : parsePositionAttribute (label ++ ":".toList ++ s.vecText v) label =
      some ((V.vec v).map (rounded 3)).pos := by
  rw [vecText_eq V h13, parsePosition_label hlabel]
  rfl

/-- Fields that are no positions are not read as one. -/
theorem others_unread {others : List Text} {label : Text} (hlabel : label ++ ":".toList ∈ labels)
    (hbuffer : "Bf:".toList ≠ label ++ ":".toList) (hspeeds : "FS:".toList ≠ label ++ ":".toList)
    (h : ∀ f ∈ others, '|' ∉ f ∧
      (startsWith "Bf:".toList f = true ∨ startsWith "FS:".toList f = true)) :
    ∀ f ∈ others, parsePositionAttribute f label = none := by
  intro f hf
  refine parsePosition_eq_none ?_
  rcases (h f hf).2 with hf | hf
  · exact label_disjoint (by decide) hlabel hbuffer hf
  · exact label_disjoint (by decide) hlabel hspeeds hf

/-- **What a report says of the positions.** -/
theorem reportedPos_report (V : Values F) (h13 : s.settingIsZero "13" = true)
    (h : s.reportFields = some fields) :
    ((reportedPos "MPos".toList (report (s.stateText :: fields)) =
          some ((V.vec s.mpos).map (rounded 3)).pos ∧
        reportedPos "WPos".toList (report (s.stateText :: fields)) = none) ∨
      (reportedPos "MPos".toList (report (s.stateText :: fields)) = none ∧
        reportedPos "WPos".toList (report (s.stateText :: fields)) =
          some ((V.vec (s.mpos.zipWith sub s.wco)).map (rounded 3)).pos)) ∧
    reportedPos "WCO".toList (report (s.stateText :: fields)) =
      if s.modes.wcoDirty || s.reportCount % 10 = 1 then some ((V.vec s.wco).map (rounded 3)).pos
      else none := by
  unfold reportedPos
  rw [attributesOf_report V h13 h]
  obtain ⟨position, others, rfl, hposition, hothers⟩ := reportFields_cases h
  have hm := readLabel V h13 "MPos".toList (by decide) s.mpos
  have hw := readLabel V h13 "WPos".toList (by decide) (s.mpos.zipWith sub s.wco)
  have ho := readLabel V h13 "WCO".toList (by decide) s.wco
  -- behind the position there is no other one
  have hbehind {label : Text} (hlabel : label ++ ":".toList ∈ labels)
      (hbuffer : "Bf:".toList ≠ label ++ ":".toList) (hspeeds : "FS:".toList ≠ label ++ ":".toList)
      (hoffset : ∀ t, parsePositionAttribute ("WCO:".toList ++ t) label = none) :
      latest (fun a => parsePositionAttribute a label) (position :: (others ++
        if s.modes.wcoDirty || s.reportCount % 10 = 1 then ["WCO:".toList ++ s.vecText s.wco]
        else [])) = parsePositionAttribute position label := by
    have hnone : latest (fun a => parsePositionAttribute a label) (others ++
        if s.modes.wcoDirty || s.reportCount % 10 = 1 then ["WCO:".toList ++ s.vecText s.wco]
        else []) = none := by
      refine latest_eq_none_iff.mpr fun f hf => ?_
      rcases List.mem_append.mp hf with hf | hf
      · exact others_unread hlabel hbuffer hspeeds hothers f hf
      · split_ifs at hf
        · exact List.mem_singleton.mp hf ▸ hoffset _
        · exact absurd hf List.not_mem_nil
    rw [latest_cons, hnone, Option.none_or]
  rw [hbehind (by decide) (by decide) (by decide) fun t => parsePosition_eq_none rfl,
    hbehind (by decide) (by decide) (by decide) fun t => parsePosition_eq_none rfl]
  have hunread : ∀ f ∈ position :: others, parsePositionAttribute f "WCO".toList = none := by
    intro f hf
    rcases List.mem_cons.mp hf with rfl | hf
    · rcases hposition with rfl | rfl
      · exact parsePosition_eq_none rfl
      · exact parsePosition_eq_none rfl
    · exact others_unread (by decide) (by decide) (by decide) hothers f hf
  refine ⟨?_, ?_⟩
  · rcases hposition with rfl | rfl
    · exact .inl ⟨hm, parsePosition_eq_none rfl⟩
    · exact .inr ⟨parsePosition_eq_none rfl, hw⟩
  · split_ifs
    · rw [← List.cons_append]
      exact latest_concat ho
    · rw [List.append_nil]
      exact latest_eq_none_iff.mpr hunread

end Report

/-! ### What the driver knows -/

/-- The offset in force, as it is printed. -/
def offset (V : Values F) (s : Firmware F) : Vec ℚ := (V.vec s.wco).map (rounded 3)

/-- Between two reports the driver knows some offset, and the one in force unless it is marked. -/
structure Synced (V : Values F) (s : Firmware F) : Prop where
  offset : ∃ o : Vec ℚ, s.hostState.wco = o.pos ∧ (s.modes.wcoDirty = false → o = s.offset V)
  machine : s.hostState.machinePos.length = 3
  work : s.hostState.workPos.length = 3

/-- What is not reported, the driver need not know. -/
theorem Synced.of_quiet {V : Values F} {s t : Firmware F} (h : Synced V s) (hq : Quiet s t) :
    Synced V t := by
  obtain ⟨⟨o, ho, hin⟩, hmachine, hwork⟩ := h
  rw [← hq.hostState] at ho hmachine hwork
  refine ⟨⟨o, ho, fun hclean => ?_⟩, hmachine, hwork⟩
  rcases hq.modes with hdirty | ⟨hdirty, hactive, hwcs⟩
  · rw [hdirty] at hclean
    cases hclean
  · rw [hin (hdirty ▸ hclean)]
    unfold Firmware.offset wco
    rw [hactive, hwcs]

/-- With the machine position and the offset the work position is computed. -/
theorem recalculatePositions_machine (m o : Vec ℚ) {w : Pos} (hw : w.length = 3) (found : Bool) :
    recalculatePositions m.pos w o.pos true false found =
      (m.pos, (m.zipWith (· - ·) o).pos, o.pos) := by
  obtain ⟨a, b, c, rfl⟩ := List.length_eq_three.mp hw
  rfl

/-- With the work position and the offset the machine position is computed. -/
theorem recalculatePositions_work (w o : Vec ℚ) {m : Pos} (hm : m.length = 3) (found : Bool) :
    recalculatePositions m w.pos o.pos false true found =
      ((w.zipWith (· + ·) o).pos, w.pos, o.pos) := by
  obtain ⟨a, b, c, rfl⟩ := List.length_eq_three.mp hm
  rfl

/-- The coordinates are the same up to `ε`. -/
def Close (ε : ℚ) (w v : Vec ℚ) : Prop := |w.x - v.x| ≤ ε ∧ |w.y - v.y| ≤ ε ∧ |w.z - v.z| ≤ ε

instance (ε : ℚ) (w v : Vec ℚ) : Decidable (Close ε w v) :=
  inferInstanceAs (Decidable (_ ∧ _ ∧ _))

/-- Known coordinates within a distance. -/
def Near (ε : ℚ) (p : Pos) (v : Vec ℚ) : Prop := ∃ w : Vec ℚ, p = w.pos ∧ Close ε w v

/-- The work position: the exact difference of position and offset. -/
def workPosition (V : Values F) (s : Firmware F) : Vec ℚ :=
  (V.vec s.mpos).zipWith (· - ·) (V.vec s.wco)

/-- The float difference of position and offset is off by `ε` at most. -/
def Subtracts (V : Values F) (ε : ℚ) (s : Firmware F) : Prop :=
  Close ε (V.vec (s.mpos.zipWith sub s.wco)) (s.workPosition V)

instance (V : Values F) (ε : ℚ) (s : Firmware F) : Decidable (s.Subtracts V ε) :=
  inferInstanceAs (Decidable (Close _ _ _))

/-- The driver has the offset of the emulator and its two positions, up to the rounding of the one
field, or of the two fields, that it has them from, and up to `ε`. -/
structure Agrees (V : Values F) (ε : ℚ) (host : DeviceState) (s : Firmware F) : Prop where
  wco : Near (1 / 2000) host.wco (V.vec s.wco)
  machine : Near (1 / 1000 + ε) host.machinePos (V.vec s.mpos)
  work : Near (1 / 1000 + ε) host.workPos (s.workPosition V)

theorem Near.mono {ε ε' : ℚ} {p : Pos} {v : Vec ℚ} (h : Near ε p v) (hle : ε ≤ ε') :
    Near ε' p v := by
  obtain ⟨w, hw, hx, hy, hz⟩ := h
  exact ⟨w, hw, hx.trans hle, hy.trans hle, hz.trans hle⟩

/-- A coordinate that is off by `ε`, and is printed. -/
theorem abs_rounded_sub_le_of {ε c d : ℚ} (h : |c - d| ≤ ε) : |rounded 3 c - d| ≤ 1 / 2000 + ε := by
  have hprint : |rounded 3 c - c| ≤ 1 / 2000 := (abs_rounded_sub_le 3 c).trans (by norm_num)
  calc |rounded 3 c - d| = |rounded 3 c - c + (c - d)| := by rw [sub_add_sub_cancel]
    _ ≤ |rounded 3 c - c| + |c - d| := abs_add_le _ _
    _ ≤ 1 / 2000 + ε := add_le_add hprint h

/-- What is printed is near what it is near to. -/
theorem near_rounded {ε : ℚ} {w v : Vec ℚ} (h : Close ε w v) :
    Near (1 / 2000 + ε) (w.map (rounded 3)).pos v :=
  ⟨_, rfl, abs_rounded_sub_le_of h.1, abs_rounded_sub_le_of h.2.1, abs_rounded_sub_le_of h.2.2⟩

theorem Close.refl (v : Vec ℚ) : Close 0 v v := by
  unfold Close
  simp

theorem Close.nonneg {ε : ℚ} {w v : Vec ℚ} (h : Close ε w v) : 0 ≤ ε := (abs_nonneg _).trans h.1

/-- The two roundings of a difference add up. -/
theorem near_difference (v o : Vec ℚ) :
    Near (1 / 1000) ((v.map (rounded 3)).zipWith (· - ·) (o.map (rounded 3))).pos
      (v.zipWith (· - ·) o) := by
  have h (a b : ℚ) : |rounded 3 a - rounded 3 b - (a - b)| ≤ 1 / 1000 := by
    have ha := abs_le.mp (abs_rounded_sub_le 3 a)
    have hb := abs_le.mp (abs_rounded_sub_le 3 b)
    rw [abs_le]
    constructor <;> linarith
  exact ⟨_, rfl, h _ _, h _ _, h _ _⟩

/-- The roundings of a difference and of what was subtracted add up. -/
theorem near_sum {ε : ℚ} {w v o : Vec ℚ} (hw : Close ε w (v.zipWith (· - ·) o)) :
    Near (1 / 1000 + ε) ((w.map (rounded 3)).zipWith (· + ·) (o.map (rounded 3))).pos v := by
  have h {a b c : ℚ} (hc : |c - (a - b)| ≤ ε) : |rounded 3 c + rounded 3 b - a| ≤ 1 / 1000 + ε := by
    have hsum := abs_le.mp (abs_rounded_sub_le_of hc)
    have hb := abs_le.mp (abs_rounded_sub_le 3 b)
    rw [abs_le]
    constructor <;> linarith
  exact ⟨_, rfl, h hw.1, h hw.2.1, h hw.2.2⟩

/-- The three positions behind a report, with the offset that the driver knew if there is none. -/
theorem parseState_report (V : Values F) {s : Firmware F} {fields : List Text}
    (h13 : s.settingIsZero "13" = true) (h : s.reportFields = some fields) {d : DeviceState}
    (hoffset : s.modes.wcoDirty = false → d.wco = (s.offset V).pos)
    (hmachine : d.machinePos.length = 3) (hwork : d.workPos.length = 3) :
    let d' := parseState (report (s.stateText :: fields)) d false
    d'.wco = (s.offset V).pos ∧
      ((d'.machinePos = ((V.vec s.mpos).map (rounded 3)).pos ∧
          d'.workPos = (((V.vec s.mpos).map (rounded 3)).zipWith (· - ·) (s.offset V)).pos) ∨
        (d'.machinePos = (((V.vec (s.mpos.zipWith sub s.wco)).map (rounded 3)).zipWith (· + ·)
            (s.offset V)).pos ∧
          d'.workPos = ((V.vec (s.mpos.zipWith sub s.wco)).map (rounded 3)).pos)) := by
  obtain ⟨hposition, hwco⟩ := reportedPos_report V h13 h
  have hpositions := parseState_positions (isEnclosed_report (s.stateText :: fields)) d false
  -- without a reported offset the driver falls back on the one it knows
  have hknown : posBefore false "WCO".toList (report (s.stateText :: fields)) d.wco =
      (s.offset V).pos := by
    unfold posBefore
    rw [hwco]
    split_ifs with hgiven
    · rfl
    · rw [Bool.or_eq_true, not_or] at hgiven
      exact hoffset (Bool.eq_false_iff.mpr hgiven.1)
  rw [hknown] at hpositions
  intro d'
  -- the mask selects one of the two positions
  rcases hposition with ⟨hm, hw⟩ | ⟨hm, hw⟩
  · have hmpos : posBefore false "MPos".toList (report (s.stateText :: fields)) d.machinePos =
        ((V.vec s.mpos).map (rounded 3)).pos := by
      unfold posBefore
      rw [hm]
      rfl
    have hwpos : posBefore false "WPos".toList (report (s.stateText :: fields)) d.workPos =
        d.workPos := by
      unfold posBefore
      rw [hw]
      rfl
    rw [hmpos, hwpos, hm, hw] at hpositions
    have hall := hpositions.trans (recalculatePositions_machine _ (s.offset V) hwork _)
    simp only [Prod.mk.injEq] at hall
    exact ⟨hall.2.2, .inl ⟨hall.1, hall.2.1⟩⟩
  · have hmpos : posBefore false "MPos".toList (report (s.stateText :: fields)) d.machinePos =
        d.machinePos := by
      unfold posBefore
      rw [hm]
      rfl
    have hwpos : posBefore false "WPos".toList (report (s.stateText :: fields)) d.workPos =
        ((V.vec (s.mpos.zipWith sub s.wco)).map (rounded 3)).pos := by
      unfold posBefore
      rw [hw]
      rfl
    rw [hmpos, hwpos, hm, hw] at hpositions
    have hall := hpositions.trans (recalculatePositions_work _ (s.offset V) hmachine _)
    simp only [Prod.mk.injEq] at hall
    exact ⟨hall.2.2, .inr ⟨hall.1, hall.2.1⟩⟩

omit [PyFloat F] in
/-- What has been written is a report, and the driver reads it on top of the others. -/
theorem hostState_write {s t : Firmware F} {data : Text} (hlog : t.log = s.log ++ [⟨data, none⟩])
    (hdata : isReport ⟨data, none⟩ = true) :
    t.hostState = parseState (rstripNewlines data) s.hostState false := by
  unfold hostState reports
  rw [hlog, List.filter_append, List.filter_cons_of_pos hdata, List.filter_nil, List.map_append,
    List.foldl_append]
  rfl

/-- The state behind a report of these fields. -/
def written (fields : List Text) (s : Firmware F) : Firmware F :=
  { s with modes.wcoDirty := false }.write
    (['<'] ++ s.stateText ++ ['|'] ++ join '|' fields ++ ">\r\n".toList)

/-- A report is counted, and written if its fields can be printed. -/
theorem statusReport_cases (s : Firmware F) : ∃ t, t = { s with reportCount := s.reportCount + 1 } ∧
    (s.statusReport = t ∨ ∃ fields, t.reportFields = some fields ∧
      s.statusReport = t.written fields) := by
  refine ⟨_, rfl, ?_⟩
  unfold statusReport
  dsimp only
  cases hfields : { s with reportCount := s.reportCount + 1 }.reportFields with
  | none => exact .inl rfl
  | some fields => exact .inr ⟨fields, rfl, rfl⟩

section Synced

variable {V : Values F} (ε : ℚ)

theorem written_synced {s : Firmware F} {fields : List Text} (h13 : s.settingIsZero "13" = true)
    (h : Synced V s) (hfields : s.reportFields = some fields) :
    Synced V (s.written fields) ∧
      (s.Subtracts V ε → Agrees V ε (s.written fields).hostState (s.written fields)) := by
  obtain ⟨⟨o, ho, hin⟩, hmachine, hwork⟩ := h
  obtain ⟨position, others, hshape, -⟩ := reportFields_cases hfields
  have hne : fields ≠ [] := by
    rw [hshape]
    exact List.cons_ne_nil _ _
  have hhost : (s.written fields).hostState =
      parseState (report (s.stateText :: fields)) s.hostState false := by
    rw [← rstripNewlines_report s.stateText hne]
    exact hostState_write rfl rfl
  obtain ⟨hwco, hpositions⟩ :=
    parseState_report V h13 hfields (fun hclean => by rw [ho, hin hclean]) hmachine hwork
  rw [← hhost] at hwco hpositions
  constructor
  · refine ⟨⟨s.offset V, hwco, fun _ => rfl⟩, ?_, ?_⟩
    · rcases hpositions with ⟨hm, -⟩ | ⟨hm, -⟩
      · rw [hm]; rfl
      · rw [hm]; rfl
    · rcases hpositions with ⟨-, hw⟩ | ⟨-, hw⟩
      · rw [hw]; rfl
      · rw [hw]; rfl
  · intro hsub
    have hε := hsub.nonneg
    refine ⟨hwco ▸ (near_rounded (.refl (V.vec s.wco))).mono (by norm_num), ?_, ?_⟩
    · rcases hpositions with ⟨hm, -⟩ | ⟨hm, -⟩
      · rw [hm]
        exact (near_rounded (.refl (V.vec s.mpos))).mono (by linarith)
      · rw [hm]
        exact near_sum hsub
    · rcases hpositions with ⟨-, hw⟩ | ⟨-, hw⟩
      · rw [hw]
        exact (near_difference (V.vec s.mpos) (V.vec s.wco)).mono (by linarith)
      · rw [hw]
        exact (near_rounded hsub).mono (by linarith)

/-- **What a report tells the driver**: it knows the offset in force behind it, and both
positions. -/
theorem statusReport_synced {s : Firmware F} (h13 : s.settingIsZero "13" = true)
    (h : Synced V s) : Synced V s.statusReport ∧
      (s.Subtracts V ε → s.statusReport.reports ≠ s.reports →
        Agrees V ε s.statusReport.hostState s.statusReport) := by
  obtain ⟨t, ht, hcases⟩ := statusReport_cases s
  have hcounted : Quiet s t := ht ▸ .of_modes rfl rfl
  rcases hcases with hreport | ⟨fields, hfields, hreport⟩
  · rw [hreport]
    exact ⟨h.of_quiet hcounted, fun _ hne => absurd hcounted.reports hne⟩
  · have h13' : t.settingIsZero "13" = true := by
      subst ht
      exact h13
    rw [hreport]
    obtain ⟨hsynced, hagrees⟩ := written_synced ε h13' (h.of_quiet hcounted) hfields
    refine ⟨hsynced, fun hsub _ => hagrees ?_⟩
    subst ht
    exact hsub

/-- Every step keeps the two sides in step, and behind a report they agree. -/
theorem step_synced {s : Firmware F} (h13 : s.settingIsZero "13" = true) (h : Synced V s)
    (e : Event F) : Synced V (step e s) ∧
      (s.Subtracts V ε → (step e s).reports ≠ s.reports →
        Agrees V ε (step e s).hostState (step e s)) := by
  rcases step_cases e s with hquiet | ⟨t, hquiet, hsettings, hmpos, hwco, hreport⟩
  · exact ⟨h.of_quiet hquiet, fun _ hne => absurd hquiet.reports hne⟩
  · have h13' : t.settingIsZero "13" = true := by
      unfold settingIsZero setting at h13 ⊢
      rwa [hsettings]
    rw [hreport, ← hquiet.reports]
    obtain ⟨hsynced, hagrees⟩ := statusReport_synced ε h13' (h.of_quiet hquiet)
    refine ⟨hsynced, fun hsub => hagrees ?_⟩
    unfold Subtracts workPosition at hsub ⊢
    rwa [hmpos, hwco]

end Synced

/-- On rounded floats the difference is off by its size over `2 ^ 53` at most. -/
theorem subtracts_double {s : Firmware Double} {size : ℚ}
    (hsize : Close size (s.workPosition .double) ⟨0, 0, 0⟩) :
    s.Subtracts .double (size / 2 ^ 53) := by
  have h {a b : Double} (hab : |a.value - b.value - 0| ≤ size) :
      |(sub a b).value - (a.value - b.value)| ≤ size / 2 ^ 53 := by
    rw [sub_zero] at hab
    exact (abs_round53_sub_le _).trans (div_le_div_of_nonneg_right hab (by positivity))
  exact ⟨h hsize.1, h hsize.2.1, h hsize.2.2⟩

theorem synced_new (V : Values F) (speedFactor : F) : Synced V (.new speedFactor) :=
  ⟨⟨⟨0, 0, 0⟩, rfl, nofun⟩, rfl, rfl⟩

end Firmware

/-! ### Runs -/

/-- **The two sides agree behind every report.**  In every run of the emulator with `$13=0`, behind
every step that writes a status report, the driver, which has folded all reports so far into its
state, has the offset and the two positions of the emulator, up to the rounding of the fields and
up to the error of the one float operation of a report, the difference of position and offset. -/
theorem host_agrees (V : Values F) {ε : ℚ} (speedFactor : F) (s : Firmware F)
    (h : Run next (fun s _ _ => s.settingIsZero "13" = true) (.new speedFactor) s)
    (h13 : s.settingIsZero "13" = true) (e : Firmware.Event F)
    (hreport : (Firmware.step e s).reports ≠ s.reports) (hsub : s.Subtracts V ε) :
    Firmware.Agrees V ε (Firmware.step e s).hostState (Firmware.step e s) := by
  have hsynced : Firmware.Synced V s := by
    refine h.invariant (I := Firmware.Synced V) ?_ (Firmware.synced_new V speedFactor)
    rintro a e b ha hstep h13
    cases hstep
    exact (Firmware.step_synced ε h13 ha e).1
  exact (Firmware.step_synced ε h13 hsynced e).2 hsub hreport

/-- A line of text and its newline, on rounded floats. -/
def feedText (line : String) : List (Firmware.Event Double) :=
  (ascii line ++ [LF]).map .feedByte

/-- The machine is moved and the offset is set and reported, and then the work position is
reported without it. -/
def shifted : Firmware Double :=
  reach next (feedText "G0 X0.3" ++ [.tick ⟨0⟩, .tick ⟨1⟩] ++ feedText "G10 L2 P1 X0.1" ++
    [.tick ⟨1⟩, .feedByte 0x3F] ++ feedText "$10=0" ++ [.tick ⟨1⟩]) (.new ⟨2000⟩)

theorem host_agrees_shifted : (Firmware.step (.feedByte 0x3F) shifted).reports =
      ["<Idle|MPos:0.300,0.000,0.000|Bf:15,128|WCO:0.100,0.000,0.000>\r\n".toList,
        "<Idle|WPos:0.200,0.000,0.000>\r\n".toList] ∧
    Firmware.Agrees .double (1 / 2 ^ 53) (Firmware.step (.feedByte 0x3F) shifted).hostState
      (Firmware.step (.feedByte 0x3F) shifted) :=
  ⟨by decide +kernel, host_agrees .double ⟨2000⟩ shifted (run_reach_where (by decide +kernel))
    (by decide +kernel) (.feedByte 0x3F) (by decide +kernel)
    (Firmware.subtracts_double (by decide +kernel))⟩

/-- The machine stands at 1, and the offset is larger than what doubles can add 1 to. -/
def farOffset : Firmware Double :=
  reach next (feedText "G0 X1" ++ [.tick ⟨0⟩, .tick ⟨1⟩] ++
    feedText "G10 L2 P1 X10000000000000000" ++ feedText "$10=0" ++ [.tick ⟨1⟩]) (.new ⟨2000⟩)

/-- **The difference of a report is rounded**, and the driver gets the machine position 0 from
it. -/
theorem far_offset_disagrees :
    ¬∀ (s : Firmware Double) (e : Firmware.Event Double),
      Run next (fun s _ _ => s.settingIsZero "13" = true) (.new ⟨2000⟩) s →
      s.settingIsZero "13" = true → (Firmware.step e s).reports ≠ s.reports →
      Firmware.Agrees .double 0 (Firmware.step e s).hostState (Firmware.step e s) := by
  intro h
  have hagrees := h farOffset (.feedByte 0x3F) (run_reach_where (by decide +kernel))
    (by decide +kernel) (by decide +kernel)
  obtain ⟨w, hw, hx, -⟩ := hagrees.machine
  have hhost : (Firmware.step (.feedByte 0x3F) farOffset).hostState.machinePos =
      [some 0, some 0, some 0] := by decide +kernel
  have hdevice : (Values.double.vec (Firmware.step (.feedByte 0x3F) farOffset).mpos).x = 1 := by
    decide +kernel
  obtain ⟨hzero, -⟩ := List.cons.inj (hhost.symm.trans hw)
  rw [hdevice, ← Option.some.inj hzero] at hx
  norm_num at hx

end Raydriver.Emulator
