import Raydriver.Grbl.FirstError
import Raydriver.PingPong.AlarmKept

/-!
# The first error of a session

All sessions keep the first error: an error line, an alarm line and a failed job write one
only if there is none.  The status reports of the GRBL dialect get by this rule, since
their parser writes the error of a coded status into the state that it returns.

## Main definitions

* `replaces`, `Core.replacesError` — a line, and a chunk, that states another error than the
  one recorded.
* `restatesError`, `clearsError` — the steps that take a recorded error away.

## Main results

* `handleLine_error_iff` — which lines keep a recorded error.
* `step_error` — a recorded error under the steps of a ping-pong session.
* `first_error_kept` — **the first error is kept up to the first report that states another
  one**, in all the sessions.
* `first_error_replaced` — such a report replaces it.
-/

namespace Raydriver.PingPong

open Lts

/-! ### Received lines -/

/-- A line that states another error than `e`: a status report does. -/
def replaces (fw : Firmware) (e : DeviceError) (line : Text) : Bool :=
  fw != .marlin && isReport line && (statedError line).any fun e' => e' != e

section Lines

variable {fw : Firmware} {c : Core} {e : DeviceError} {line : Text}

theorem setError_error (h : c.state.error = some e) (e' : DeviceError) :
    (c.setError e').state.error = some e := by
  simp only [Core.setError, h, Option.getD_some]

/-- A status report is no acknowledgement. -/
theorem not_ack_of_isReport (hfw : fw ≠ .marlin) (h : isReport line = true) :
    fw.isOk line = false ∧ fw.isError line = false := by
  have hhead : line.head? = some '<' := by
    obtain ⟨hstart, -⟩ := Bool.and_eq_true_iff.mp h
    cases line with
    | nil => cases hstart
    | cons a line =>
      have ha : '<' = a := (List.cons_prefix_cons.mp (List.isPrefixOf_iff_prefix.mp hstart)).1
      rw [List.head?_cons, ha]
  cases line with
  | nil => cases hhead
  | cons a line =>
    obtain rfl : a = '<' := Option.some.inj hhead
    cases fw with
    | marlin => exact absurd rfl hfw
    | simple => exact ⟨rfl, rfl⟩
    | smoothie => exact ⟨rfl, rfl⟩

theorem handlePositionReport_error (line : Text) (c : Core) :
    (c.handlePositionReport line).state.error = c.state.error := by
  unfold Core.handlePositionReport
  split <;> rfl

theorem handleMarlinLine_error (line : Text) (c : Core) :
    (c.handleMarlinLine line).state.error = c.state.error := by
  unfold Core.handleMarlinLine
  split_ifs
  · exact handlePositionReport_error line c
  · rfl

/-- Of the lines that are no acknowledgement, only a status report takes an error away. -/
theorem handleGrblLine_error_of_not_report (h : c.state.error = some e)
    (hline : isReport line = false) : (c.handleGrblLine fw line).state.error = some e := by
  rw [isReport] at hline
  unfold Core.handleGrblLine
  rw [hline, if_neg Bool.false_ne_true]
  split
  · exact setError_error h _
  · split_ifs
    · exact h
    · exact h

theorem handleGrblLine_error_of_report (c : Core) (hline : isReport line = true) :
    (c.handleGrblLine fw line).state.error = (statedError line).or c.state.error := by
  rw [isReport] at hline
  unfold Core.handleGrblLine
  rw [hline, if_pos rfl]
  exact parseState_error line c.state _

/-- **Which lines keep a recorded error**: all but the status reports that state another
one. -/
theorem handleLine_error_iff (h : c.state.error = some e) :
    (c.handleLine fw line).state.error = some e ↔ replaces fw e line = false := by
  by_cases hfw : fw = .marlin
  · subst hfw
    refine iff_of_true ?_ rfl
    unfold Core.handleLine
    split_ifs with hok herror hmarlin
    · exact h
    · exact setError_error h _
    · exact (handleMarlinLine_error line c).trans h
    · exact absurd rfl hmarlin
  · have hne : (fw != .marlin) = true := bne_iff_ne.mpr hfw
    have hbeq : (fw == .marlin) = false := beq_false_of_ne hfw
    cases hreport : isReport line with
    | false =>
      refine iff_of_true ?_ (by rw [replaces, hreport, Bool.and_false, Bool.false_and])
      unfold Core.handleLine
      rw [hbeq, if_neg Bool.false_ne_true]
      split_ifs with hok herror
      · exact h
      · exact setError_error h _
      · exact handleGrblLine_error_of_not_report h hreport
    | true =>
      obtain ⟨hok, herror⟩ := not_ack_of_isReport hfw hreport
      have hline : (c.handleLine fw line).state.error = (statedError line).or (some e) := by
        unfold Core.handleLine
        rw [hok, herror, hbeq, ← h]
        exact handleGrblLine_error_of_report c hreport
      rw [hline, replaces, hreport, hne]
      cases statedError line with
      | none => exact iff_of_true rfl rfl
      | some e' => simp

end Lines

/-! ### Received chunks -/

/-- The chunk states another error than the one recorded. -/
def Core.replacesError (fw : Firmware) (data : Bytes) (c : Core) : Bool :=
  c.state.error.any fun e =>
    (cutMessages data c.lineBuffer).2.any fun message => (lineTexts message).any (replaces fw e)

section Chunks

variable {fw : Firmware} {e : DeviceError}

theorem foldl_handleLine_error : ∀ (lines : List Text) (c : Core), c.state.error = some e →
    lines.any (replaces fw e) = false →
      (lines.foldl (Core.handleLine fw) c).state.error = some e := by
  intro lines
  induction lines with
  | nil => exact fun c h _ => h
  | cons line lines ih =>
    intro c h hlines
    rw [List.any_cons, Bool.or_eq_false_iff] at hlines
    exact ih _ ((handleLine_error_iff h).mpr hlines.1) hlines.2

theorem foldl_handleMessage_error : ∀ (messages : List Bytes) (c : Core),
    c.state.error = some e →
    (messages.any fun message => (lineTexts message).any (replaces fw e)) = false →
      (messages.foldl (Core.handleMessage fw) c).state.error = some e := by
  intro messages
  induction messages with
  | nil => exact fun c h _ => h
  | cons message messages ih =>
    intro c h hmessages
    rw [List.any_cons, Bool.or_eq_false_iff] at hmessages
    exact ih _ (foldl_handleLine_error _ c h hmessages.1) hmessages.2

/-- A recorded error survives a chunk that states no other one. -/
theorem handleRx_error {data : Bytes} {c : Core} (h : c.state.error = some e)
    (hdata : c.replacesError fw data = false) : (c.handleRx fw data).state.error = some e := by
  rw [Core.replacesError, h, Option.any_some] at hdata
  exact foldl_handleMessage_error _ { c with lineBuffer := (cutMessages data c.lineBuffer).1 }
    h hdata

end Chunks

/-! ### The session -/

/-- The end of `home` takes a recorded error away. -/
def clearsError : DriverLabel → Bool
  | .homed => true
  | .session _ => false

/-- The step handles a status report that states another error than the one recorded. -/
def restatesError (fw : Firmware) (s : Sys) : DriverLabel → Bool
  | .session (.rx data) => s.core.replacesError fw data
  | _ => false

/-- **A recorded error under the steps of a ping-pong session.** -/
theorem step_error {fw : Firmware} {s u : Sys} {l : DriverLabel} {e : DeviceError}
    (hs : driverStep fw l s = some u) (h : s.core.state.error = some e)
    (hclear : clearsError l = false) (hrestate : restatesError fw s l = false) :
    u.core.state.error = some e := by
  cases l with
  | homed => cases hclear
  | session l =>
    have hstep : Sys.step fw l s = some u := hs
    by_cases hl : ∃ i ch, l = .task i ch
    · obtain ⟨i, ch, rfl⟩ := hl
      obtain ⟨b, c', b', -, -, hadv, rfl⟩ := Sys.step_task hstep
      exact (advance_error hadv).trans h
    · obtain ⟨-, haside⟩ := Sys.step_other hstep fun i ch hi => hl ⟨i, ch, hi⟩
      cases haside with
      | rx data hlabel hcore htasks =>
        subst hlabel
        rw [hcore]
        exact handleRx_error h hrestate
      | call op b hlabel hb hcore htasks => rw [hcore, h]
      | link up hlabel hcore htasks => rw [hcore]; exact h
      | announce hlabel hcore htasks => rw [hcore]; exact h
      | cleanup hlabel hcore htasks => rw [hcore]; exact h
      | drop i pc hlabel hi hcore htasks => rw [hcore]; split_ifs <;> exact h

/-- **The first error is kept up to the first report that states another one.**  In all the
sessions, from any state on, an error stays while no job of `SessionCore` starts, no `home`
ends and no status report states another error; and of the received lines just these
reports take it away. -/
theorem first_error_kept (fw : Firmware) :
    ((∀ (s u : Raydriver.Sys) (e : DeviceError), s.core.state.error = some e →
      Run Raydriver.driverStep (fun a l _ => Raydriver.clearsError a l = false ∧
        Raydriver.restatesError a l = false) s u →
      u.core.state.error = some e) ∧
    ∀ (c : Raydriver.Core) (e : DeviceError) (r : GrblResponse), c.state.error = some e →
      ((c.handleResponse r).state.error = some e ↔ r.replaces e = false)) ∧
    (∀ (s u : Sys) (e : DeviceError), s.core.state.error = some e →
      Run (driverStep fw) (fun a l _ => clearsError l = false ∧
        restatesError fw a l = false) s u →
      u.core.state.error = some e) ∧
    ∀ (c : Core) (e : DeviceError) (line : Text), c.state.error = some e →
      ((c.handleLine fw line).state.error = some e ↔ replaces fw e line = false) := by
  refine ⟨⟨fun s u e h hrun => ?_, fun c e r h => handleResponse_error_iff r h⟩,
    fun s u e h hrun => ?_, fun c e line h => handleLine_error_iff h⟩
  · exact hrun.invariant (I := fun s => s.core.state.error = some e)
      (fun _ _ _ h hs hok => Raydriver.step_error hs h hok.1 hok.2) h
  · exact hrun.invariant (I := fun s => s.core.state.error = some e)
      (fun _ _ _ h hs hok => step_error hs h hok.1 hok.2) h

/-! ### A recorded error and later lines -/

/-- An error, an alarm and a status report without a code. -/
def plainLines : Bytes := ascii "error:2\nALARM:1\n<Alarm|MPos:0,0,0>\n"

/-- A status report with the code of an alarm. -/
def codedReport : Bytes := ascii "<Alarm:1|MPos:0,0,0>\n"

/-- `SessionCore` behind a rejected command. -/
def failedSession : Raydriver.Sys :=
  reach Raydriver.driverStep [.session (.rx (ascii "error:9\n"))] { core := {}, tasks := [] }

/-- A ping-pong session behind a rejected command. -/
def failedSys (fw : Firmware) : Sys :=
  reach (driverStep fw) [.session (.rx (ascii "error:9\n"))] { core := {} }

/-- Lines that state no other error: the general result in `SessionCore` and in
`SmoothieCore`, and for a single line. -/
theorem first_error_kept_plain :
    ((reach Raydriver.driverStep [.session (.rx plainLines)] failedSession).core.state.error =
        some (errorCodeToDeviceError "9".toList) ∧
      (failedSession.core.handleResponse
        ⟨.line, "<Idle|MPos:0,0,0>".toList, none⟩).state.error =
          some (errorCodeToDeviceError "9".toList)) ∧
    (reach (driverStep .smoothie) [.session (.rx plainLines)]
        (failedSys .smoothie)).core.state.error = some (errorCodeToDeviceError "9".toList) ∧
      ((failedSys .smoothie).core.handleLine .smoothie "<Idle|MPos:0,0,0>".toList).state.error =
        some (errorCodeToDeviceError "9".toList) := by
  obtain ⟨⟨hrun, hline⟩, hrun', hline'⟩ := first_error_kept .smoothie
  refine ⟨⟨?_, ?_⟩, ?_, ?_⟩
  · exact hrun failedSession _ _ (by decide) ((run_reach_where
      (p := fun a l => !Raydriver.clearsError a l && !Raydriver.restatesError a l)
      (by decide)).mono fun _ _ _ hok => by simpa using hok)
  · exact (hline _ _ _ (by decide)).mpr (by decide)
  · exact hrun' (failedSys .smoothie) _ _ (by decide) ((run_reach_where
      (p := fun a l => !clearsError l && !restatesError .smoothie a l)
      (by decide)).mono fun _ _ _ hok => by simpa using hok)
  · exact (hline' _ _ _ (by decide)).mpr (by decide)

/-- **A coded report replaces the first error**, in each of the sessions that read status
reports, though no job starts and no `home` ends. -/
theorem first_error_replaced :
    (¬ ∀ (s₀ s u : Raydriver.Sys) (e : DeviceError), Raydriver.Fresh s₀ →
      Run Raydriver.driverStep AnyStep s₀ s → s.core.state.error = some e →
      Run Raydriver.driverStep (fun a l _ => Raydriver.clearsError a l = false) s u →
      u.core.state.error = some e) ∧
    ∀ fw : Firmware, fw ≠ .marlin →
      ¬ ∀ (s₀ s u : Sys) (e : DeviceError), Fresh s₀ → Run (driverStep fw) AnyStep s₀ s →
        s.core.state.error = some e →
        Run (driverStep fw) (fun _ l _ => clearsError l = false) s u →
        u.core.state.error = some e := by
  refine ⟨fun h => ?_, fun fw hfw h => ?_⟩
  · have hkept := h _ failedSession (reach Raydriver.driverStep [.session (.rx codedReport)] _)
      (errorCodeToDeviceError "9".toList) ⟨rfl, rfl, rfl⟩ (run_reach (by decide)) (by decide)
      ((run_reach_where (p := fun a l => !Raydriver.clearsError a l) (by decide)).mono
        fun _ _ _ hok => by simpa using hok)
    exact absurd hkept (by decide)
  · cases fw with
    | marlin => exact absurd rfl hfw
    | simple =>
      have hkept := h _ (failedSys .simple)
        (reach (driverStep .simple) [.session (.rx codedReport)] _)
        (errorCodeToDeviceError "9".toList) ⟨rfl, rfl, rfl⟩ (run_reach (by decide)) (by decide)
        ((run_reach_where (p := fun _ l => !clearsError l) (by decide)).mono
          fun _ _ _ hok => by simpa using hok)
      exact absurd hkept (by decide)
    | smoothie =>
      have hkept := h _ (failedSys .smoothie)
        (reach (driverStep .smoothie) [.session (.rx codedReport)] _)
        (errorCodeToDeviceError "9".toList) ⟨rfl, rfl, rfl⟩ (run_reach (by decide)) (by decide)
        ((run_reach_where (p := fun _ l => !clearsError l) (by decide)).mono
          fun _ _ _ hok => by simpa using hok)
      exact absurd hkept (by decide)

end Raydriver.PingPong
