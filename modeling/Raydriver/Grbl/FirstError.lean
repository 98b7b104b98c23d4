import Raydriver.Grbl.AlarmKept
import Raydriver.Grbl.Panel

/-!
# The first error of a GRBL session

An error line, an alarm line and a failed job leave a recorded error alone.  A status
report whose status part is an alarm with a code does not: the report parser writes the
error into the state it returns.

## Main definitions

* `statedError` — the error that a status report states.
* `replacesError` — a received chunk states another error than the one recorded.

## Main results

* `parseState_error` — **a report replaces the error if it states one**.
* `handleResponse_error_iff` — which responses keep a recorded error.
* `step_error` — a recorded error under the steps of a session.
-/

namespace Raydriver

open Lts

/-! ### Status reports -/

/-- The status part of a status report. -/
def statusPart (report : Text) : Option Text :=
  if startsWith "<".toList report && decide (2 ≤ report.length) &&
      (report.getLast? == some '>') then
    ((splitOn '|' report.tail.dropLast).filter fun p => !p.isEmpty).head?
  else none

/-- The error that a status report states: that of the code behind its status. -/
def statedError (report : Text) : Option DeviceError :=
  (statusPart report).bind fun part =>
    (parseStatusPart part).2.map fun code =>
      if (parseStatusPart part).1 = .alarm then alarmCodeToDeviceError code
      else errorCodeToDeviceError code

theorem applyAttribute_error (r : ReportFold) (attrib : Text) :
    (applyAttribute r attrib).state.error = r.state.error := by
  unfold applyAttribute
  repeat' split
  all_goals rfl

theorem applyAttribute_status (r : ReportFold) (attrib : Text) :
    (applyAttribute r attrib).state.status = r.state.status := by
  unfold applyAttribute
  repeat' split
  all_goals rfl

theorem foldl_applyAttribute (attribs : List Text) : ∀ r : ReportFold,
    (attribs.foldl applyAttribute r).state.error = r.state.error ∧
      (attribs.foldl applyAttribute r).state.status = r.state.status := by
  induction attribs with
  | nil => exact fun r => ⟨rfl, rfl⟩
  | cons attrib attribs ih =>
    intro r
    obtain ⟨herror, hstatus⟩ := ih (applyAttribute r attrib)
    exact ⟨herror.trans (applyAttribute_error r attrib),
      hstatus.trans (applyAttribute_status r attrib)⟩

theorem applyStatusPart_error (part : Text) (state : DeviceState) :
    (applyStatusPart part state).error = (((parseStatusPart part).2.map fun code =>
      if (parseStatusPart part).1 = .alarm then alarmCodeToDeviceError code
      else errorCodeToDeviceError code).or state.error) := by
  unfold applyStatusPart
  dsimp only
  split <;> rename_i hcode <;> rw [hcode] <;> rfl

/-- **A report replaces the error if it states one.** -/
theorem parseState_error (report : Text) (default : DeviceState) (inches : Bool) :
    (parseState report default inches).error = (statedError report).or default.error := by
  unfold parseState statedError statusPart
  split_ifs
  · dsimp only
    split
    · rename_i hparts
      rw [hparts]
      rfl
    · rename_i part attribs hparts
      have herror := (foldl_applyAttribute attribs { state := applyStatusPart part default }).1
      rw [hparts]
      exact herror.trans (applyStatusPart_error part default)
  · rfl

/-! ### Received lines -/

/-- A response that states another error than `e`: a status report does. -/
def GrblResponse.replaces (e : DeviceError) (r : GrblResponse) : Bool :=
  r.rtype == .line && isReport r.text && (statedError (trim r.text)).any fun e' => e' != e

theorem setError_error {c : Core} {e : DeviceError} (h : c.state.error = some e)
    (e' : DeviceError) : (c.setError e').state.error = some e := by
  simp only [Core.setError, h, Option.getD_some]

theorem handleStatusReport_error (report : Text) (c : Core) :
    (c.handleStatusReport report).state.error = (statedError report).or c.state.error :=
  parseState_error report c.state c.reportInInches

theorem handleLine_of_isReport {line : Text} (h : isReport line = true) (c : Core) :
    c.handleLine line = c.handleStatusReport (trim line) := by
  rw [isReport, Bool.and_assoc, Bool.and_eq_true, Bool.not_eq_true'] at h
  unfold Core.handleLine
  rw [h.1, if_neg Bool.false_ne_true, if_pos h.2]

theorem handleLine_error_of_not_report {line : Text} {c : Core} {e : DeviceError}
    (hline : isReport line = false) (h : c.state.error = some e) :
    (c.handleLine line).state.error = some e := by
  unfold Core.handleLine
  split_ifs with hfragment hreport
  · exact h
  · rw [isReport, Bool.and_assoc, hreport, Bool.and_true, Bool.not_eq_false'] at hline
    exact absurd hline hfragment
  · dsimp only
    split
    · exact setError_error h _
    · exact h
  · dsimp only
    split
    · exact setError_error h _
    · exact h

/-- **Which responses keep a recorded error**: all but the status reports that state
another one. -/
theorem handleResponse_error_iff {c : Core} {e : DeviceError} (r : GrblResponse)
    (h : c.state.error = some e) :
    (c.handleResponse r).state.error = some e ↔ r.replaces e = false := by
  unfold Core.handleResponse GrblResponse.replaces
  cases r.rtype with
  | ok =>
    have hok : (c.handleOk r.pending).state.error = some e := by
      unfold Core.handleOk
      dsimp only
      split <;> exact h
    exact iff_of_true hok rfl
  | error =>
    have herror : (c.handleError r.text).state.error = some e := setError_error h _
    exact iff_of_true herror rfl
  | line =>
    cases hreport : isReport r.text with
    | false =>
      rw [Bool.and_false, Bool.false_and]
      exact iff_of_true (handleLine_error_of_not_report hreport h) rfl
    | true =>
      simp only [handleLine_of_isReport hreport c, handleStatusReport_error, beq_self_eq_true, Bool.true_and]
      cases statedError (trim r.text) with
      | none => exact iff_of_true h rfl
      | some e' => simp

/-- The chunk states another error than the one recorded. -/
def Core.replacesError (data : Bytes) (c : Core) : Bool :=
  c.state.error.any fun e =>
    ((c.flow.parseExtracted data).2.map Extracted.toResponse).any (GrblResponse.replaces e)

/-- A recorded error survives a chunk that states no other one. -/
theorem handleRx_error {data : Bytes} {c : Core} {e : DeviceError} (h : c.state.error = some e)
    (hdata : c.replacesError data = false) : (c.handleRx data).state.error = some e := by
  rw [Core.replacesError, h, Option.any_some] at hdata
  rw [List.any_eq_false] at hdata
  refine handleRx_keeps (P := fun c => c.state.error = some e) (fun _ _ => h) (fun _ h => h)
    fun r hr c' hc => (handleResponse_error_iff r hc).mpr ?_
  exact eq_false_of_ne_true (hdata r ((arrivals_perm data c).mem_iff.mp hr))

/-! ### The session -/

/-- The step may take a recorded error away: a job starts, or `home` ends. -/
def clearsError (s : Sys) : DriverLabel → Bool
  | .homed => true
  | .session (.task i _) =>
    match s.tasks[i]? with
    | some (.run _ .begin) => true
    | _ => false
  | .session _ => false

/-- The step handles a status report that states another error than the one recorded. -/
def restatesError (s : Sys) : DriverLabel → Bool
  | .session (.rx data) => s.core.replacesError data
  | _ => false

/-- **A recorded error under the steps of a session.** -/
theorem step_error {s u : Sys} {l : DriverLabel} {e : DeviceError} (hs : driverStep l s = some u)
    (h : s.core.state.error = some e) (hclear : clearsError s l = false)
    (hrestate : restatesError s l = false) : u.core.state.error = some e := by
  cases l with
  | homed => cases hclear
  | session l =>
    have hstep : Sys.step l s = some u := hs
    by_cases hl : ∃ i ch, l = .task i ch
    · obtain ⟨i, ch, rfl⟩ := hl
      obtain ⟨b, c', b', spawned, hb, -, -, hadv, rfl⟩ := Sys.step_task hstep
      have hpanel := congrArg Panel.error (advance_panel hadv)
      simp only [clearsError, hb] at hclear
      refine (hpanel : c'.state.error = _).trans ?_
      unfold Body.touch
      split
      · exact h
      · cases hclear
      · exact h
      · -- a failed job leaves its error only if there is none
        split_ifs
        · exact h
        · simp only [Core.panel, h, Option.getD_some]
      · exact h
    · by_cases hrx : ∃ data, l = .rx data
      · obtain ⟨data, rfl⟩ := hrx
        obtain ⟨-, rfl⟩ := Sys.step_rx hstep
        exact handleRx_error h hrestate
      · have hpanel : u.core.panel = s.core.panel :=
          Sys.step_panel hstep (fun i ch hi => hl ⟨i, ch, hi⟩) fun data hd => hrx ⟨data, hd⟩
        exact (congrArg Panel.error hpanel).trans h

end Raydriver
