import Raydriver.Core.Home
import Raydriver.Grbl.FirstError

/-!
# Homing in a GRBL session

The commands of `home` go through the command queue like any others.  The acknowledgement
that finishes the request of a command is its answer: an `ok`, or an error line, which records
its error before the caller sees it.

## Main definitions

* `Core.answerOf` — the answer that a chunk has for a request.
* `sessionHost` — `SessionCore` as `home` sees it.
* `undisturbed` — no job starts, and no status report states another error.

## Main results

* `handleRx_refused` — **an error line that answers a request is recorded**.
* `sessionHost_lawful` — what `home` relies on.
-/

namespace Raydriver

open Lts

/-! ### Answers -/

/-- What an acknowledgement says. -/
def GrblResponseType.answer : GrblResponseType → Option Answer
  | .ok => some .ok
  | .error => some .error
  | .line => none

/-- The answer that a chunk has for request `r`. -/
def Core.answerOf (r : ℕ) (data : Bytes) (c : Core) : Option Answer :=
  let (flow, es) := c.flow.parseExtracted data
  let responses := es.map Extracted.toResponse
  let isLine (r : GrblResponse) : Bool := r.rtype == .line
  let acks := responses.filter fun r => !isLine r
  (finisher Core.handleResponse (Core.isFinished r) (c.popped flow acks.length)
    (responses.filter isLine ++ acks)).bind fun response => response.rtype.answer

/-- `SessionCore` as `home` sees it. -/
def sessionHost : Host Sys DriverLabel where
  step := driverStep
  execute command := .session (.call (.execute command))
  homed := .homed
  nextTask s := s.tasks.length
  result i s :=
    match s.tasks[i]? with
    | some (.execute _ (.returned _ result)) => some result.isSome
    | _ => none
  answer l i s :=
    match l, s.tasks[i]? with
    | .session (.rx data), some (.execute _ (.wait r)) => s.core.answerOf r data
    | _, _ => none
  error s := s.core.state.error

/-- No job starts and no other `home` ends, and no status report states another error than the
one recorded. -/
def undisturbed (s : Sys) (l : DriverLabel) : Prop :=
  clearsError s l = false ∧ restatesError s l = false

instance (s : Sys) (l : DriverLabel) : Decidable (undisturbed s l) :=
  inferInstanceAs (Decidable (_ ∧ _))

/-! ### The error of a refused command -/

/-- A response leaves an error where there is one. -/
theorem handleResponse_error_ne_none (c : Core) (r : GrblResponse) (h : c.state.error ≠ none) :
    (c.handleResponse r).state.error ≠ none := by
  obtain ⟨e, he⟩ := Option.ne_none_iff_exists'.mp h
  cases hr : r.replaces e with
  | false =>
    rw [(handleResponse_error_iff r he).mpr hr]
    exact Option.some_ne_none e
  | true =>
    simp only [GrblResponse.replaces, Bool.and_eq_true, beq_iff_eq] at hr
    obtain ⟨⟨hline, hreport⟩, hstated⟩ := hr
    obtain ⟨e', he', -⟩ := (Option.any_eq_true _ _).mp hstated
    unfold Core.handleResponse
    rw [hline]
    dsimp only
    rw [handleLine_of_isReport hreport, handleStatusReport_error, he']
    exact Option.some_ne_none e'

/-- **An error line that answers a request is recorded.** -/
theorem handleRx_refused {r : ℕ} {data : Bytes} {c : Core}
    (h : c.answerOf r data = some .error) : (c.handleRx data).state.error ≠ none := by
  obtain ⟨response, hfirst, hkind⟩ := Option.bind_eq_some_iff.mp h
  have herror : response.rtype = .error := by
    cases hr : response.rtype <;> rw [hr] at hkind <;> first | rfl | cases hkind
  refine foldl_of_finisher (P := fun c => c.state.error ≠ none) handleResponse_error_ne_none
    (fun c => ?_) _ _ hfirst
  unfold Core.handleResponse
  rw [herror]
  exact Option.some_ne_none _

theorem sessionHost_lawful : sessionHost.Lawful undisturbed where
  kept hs hquiet he := step_error hs he hquiet.1 hquiet.2
  execute _ _ := ⟨rfl, rfl⟩
  refused := by
    intro l i s u hs h
    simp only [sessionHost] at h hs ⊢
    split at h
    · obtain ⟨-, rfl⟩ := Sys.step_rx hs
      exact handleRx_refused h
    · cases h
  homed := by
    intro s u hs
    simp only [sessionHost, driverStep, Sys.outside] at hs ⊢
    split_ifs at hs
    cases hs
    rfl

end Raydriver
