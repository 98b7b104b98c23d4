import Raydriver.Grbl.Device

/-!
# The run of one job on a device

A job may be started on a session with a past, if the device owes it nothing: then every
line that is outstanding from there on is a line of the job.  What is to be shown of the
run is a property of the counter of its streaming task and of the world; it has to hold
where the streaming task starts, and to be kept by the steps of that task and by what
happens beside it.

## Main definitions

* `Answered w` — the device has answered all it was sent, and the session knows.
* `World.calm n` — the steps of a run of the job called as task `n`.
* `Beside w w'` — a step beside the job.
* `OneJob n job P w` — the job is about to be started, or its streaming task is in `P`.

## Main results

* `OneJob.step` — **the rule of one job**.
-/

namespace Raydriver

open Lts

/-- The device has answered every line written, and the session has handled the answers. -/
structure Answered (w : World) : Prop where
  hears : ∃ ts us p win, Heard w ts us p ∧ Tracks w win
  heard : w.heard = w.lines.length

/-- A step of the device keeps what has been heard. -/
theorem DeviceStep.tracks {w w' : World} {l : WorldLabel} (hd : DeviceStep w w')
    (hs : World.step l w = some w') (h : ∃ ts us p win, Heard w ts us p ∧ Tracks w win) :
    ∃ ts us p win, Heard w' ts us p ∧ Tracks w' win := by
  obtain ⟨ts, us, p, win, hheard, htracks⟩ := h
  obtain ⟨us', hheard'⟩ := hd.hears ts us p hheard
  obtain ⟨win', htracks', -⟩ :=
    htracks.step (fun _ _ => True) hs hheard'.le (.inl hd.lines)
  exact ⟨_, _, _, win', hheard', htracks'⟩

theorem Answered.device {w w' : World} {l : WorldLabel} (h : Answered w) (hd : DeviceStep w w')
    (hs : World.step l w = some w') : Answered w' where
  hears := hd.tracks hs h.hears
  heard := by rw [hd.heard, hd.lines, h.heard]

/-- A step of the session that writes no line. -/
theorem Answered.host {w w' : World} {l : Label} (h : Answered w) (hh : HostStep l w w')
    (hlines : w'.lines = w.lines)
    (hbuffer : w'.core.flow.statusBuffer = w.core.flow.statusBuffer) : Answered w' where
  hears := by
    obtain ⟨ts, us, p, win, hheard, htracks⟩ := h.hears
    exact ⟨ts, us, p, win, hheard.host hh.emitted hh.pipe hh.heard hbuffer,
      htracks.written.trans hlines.symm, htracks.removed.trans hh.removed.symm,
      htracks.answered.trans (congrArg answers hh.emitted.symm),
      htracks.heard.trans hh.heard.symm⟩
  heard := by rw [hh.heard, hlines, h.heard]

/-- Starting a job writes nothing. -/
theorem Answered.begin {w w' : World} {l : Label} (h : Answered w) (hh : HostStep l w w')
    (hcore : w'.core = w.core.startJob) : Answered w' := by
  refine h.host hh ?_ (by rw [hcore]; rfl)
  unfold World.lines
  rw [hcore]
  rfl

/-- A step of a run in which the job called as task `n` is the only one. -/
def World.calm (n : ℕ) (w : World) : WorldLabel → Bool
  | .host l => l.calm n w.sys
  | _ => true

/-- A step beside the job: of another task, of the transport, or of the device. -/
inductive Beside (w w' : World) : Prop
  | host (l : Label) (h : HostStep l w w') (ha : Aside w.core w'.core)
  | deliver (n : ℕ) (hs : World.step (.deliver n) w = some w') (hclean : Clean [] w.emitted)
  | device (l : WorldLabel) (hs : World.step l w = some w') (h : DeviceStep w w')

/-- The job called as task `n` is about to be started, and everything is answered; or it is
being started, and `P` holds for whichever streaming task will be spawned; or `P` holds of its
streaming task. -/
inductive OneJob (n : ℕ) (job : Job) (P : ℕ → StreamPc → World → Prop) (w : World) : Prop
  | begin (h : Starting n job .begin w.sys) (hq : Answered w)
  | starting (pc : RunPc) (h : Starting n job pc w.sys) (hpc : pc ≠ .begin)
      (hp : ∀ t, n < t → P t .start w)
  | streaming (t : ℕ) (pc : StreamPc) (h : Streaming n t job pc w.sys) (hp : P t pc w)

section Rule

variable {n : ℕ} {job : Job} {P : ℕ → StreamPc → World → Prop} {w w' : World} {l : WorldLabel}

/-- The call of `run`. -/
theorem OneJob.of_call (h : Answered w) (hcall : World.step (.host (.call (.run job))) w = some w') :
    OneJob w.sys.tasks.length job P w' := by
  have hhost := step_host hcall
  obtain ⟨hstart, hcore⟩ := Starting.of_call hhost.step
  refine .begin hstart (h.host hhost ?_ ?_)
  · exact congrArg (fun c : Core => c.sent.filter Sent.isLine) hcore
  · exact congrArg (fun c : Core => c.flow.statusBuffer) hcore

/-- Once the job has begun, what happens before its streaming task is spawned is beside it. -/
theorem OneJob.launch (hp : ∀ t, n < t → P t .start w) (hbeside : Beside w w')
    (hkeeps : ∀ t, n < t → P t .start w → Beside w w' → P t .start w')
    (hnext : (∃ pc, pc ≠ .begin ∧ Starting n job pc w'.sys) ∨
      ∃ t, Streaming n t job .start w'.sys) : OneJob n job P w' := by
  rcases hnext with ⟨pc, hpc, hstarting⟩ | ⟨t, hstreaming⟩
  · exact .starting pc hstarting hpc fun t ht => hkeeps t ht (hp t ht) hbeside
  · exact .streaming t .start hstreaming
      (hkeeps t hstreaming.later (hp t hstreaming.later) hbeside)

/-- A step of the session. -/
theorem OneJob.host {l : Label} (h : OneJob n job P w) (hhost : HostStep l w w')
    (hcalm : l.calm n w.sys = true)
    (hbegin : Answered w' → w'.core = w.core.startJob → ∀ t, n < t → P t .start w')
    (hbeside : ∀ t pc, n < t → pc.suspended = true → P t pc w → Beside w w' → P t pc w')
    (hstream : ∀ t pc pc' ch, l = .task t ch → Streaming n t job pc w.sys →
      advanceStream t job ch w.core pc = some (w'.core, pc') → P t pc w → P t pc' w') :
    OneJob n job P w' := by
  cases h with
  | begin h hq =>
    rcases h.step hhost.step hcalm with ⟨-, -, hcore, hnext⟩ | ⟨hne, -⟩
    · exact .starting .abort hnext (by simp) (hbegin (hq.begin hhost hcore) hcore)
    · exact absurd rfl hne
  | starting pc h hpc hp =>
    rcases h.step hhost.step hcalm with ⟨hne, -⟩ | ⟨-, haside | ⟨data, hl, -⟩, hnext⟩
    · exact absurd hne hpc
    · exact .launch hp (.host l hhost haside) (fun t ht => hbeside t .start ht rfl) hnext
    · exact absurd hl (hhost.not_rx data)
  | streaming t pc h hp =>
    rcases h.step hhost.step hcalm with
      ⟨ch, pc', hl, hadv, hnext⟩ | ⟨hnext, hsusp, haside | ⟨data, hl, -⟩⟩
    · exact .streaming t pc' hnext (hstream t pc pc' ch hl h hadv hp)
    · exact .streaming t pc hnext (hbeside t pc h.later hsusp hp (.host l hhost haside))
    · exact absurd hl (hhost.not_rx data)

/-- A delivery comes when no task is between two await points. -/
theorem OneJob.deliver {k : ℕ} (h : OneJob n job P w)
    (hs : World.step (.deliver k) w = some w') (hclean : Clean [] w.emitted)
    (hbeside : ∀ t pc, n < t → pc.suspended = true → P t pc w → Beside w w' → P t pc w') :
    OneJob n job P w' := by
  have hb : Beside w w' := .deliver k hs hclean
  obtain ⟨s, hrx, hw'⟩ := Option.map_eq_some_iff.mp hs
  obtain rfl : w'.sys = s := by rw [← hw']
  cases h with
  | begin h hq =>
    rcases h.step hrx rfl with ⟨-, ⟨ch, hl⟩, -⟩ | ⟨hne, -⟩
    · cases hl
    · exact absurd rfl hne
  | starting pc h hpc hp =>
    rcases h.step hrx rfl with ⟨hne, -⟩ | ⟨-, -, hnext⟩
    · exact absurd hne hpc
    · exact .launch hp hb (fun t ht => hbeside t .start ht rfl) hnext
  | streaming t pc h hp =>
    rcases h.step hrx rfl with ⟨ch, pc', hl, -⟩ | ⟨hnext, hsusp, -⟩
    · cases hl
    · exact .streaming t pc hnext (hbeside t pc h.later hsusp hp hb)

/-- A step of the device comes at any time. -/
theorem OneJob.device (h : OneJob n job P w) (hs : World.step l w = some w')
    (hd : DeviceStep w w') (hkeeps : ∀ t pc, n < t → P t pc w → P t pc w') :
    OneJob n job P w' := by
  cases h with
  | begin h hq => exact .begin (by rw [hd.sys]; exact h) (hq.device hd hs)
  | starting pc h hpc hp =>
    exact .starting pc (by rw [hd.sys]; exact h) hpc fun t ht => hkeeps t .start ht (hp t ht)
  | streaming t pc h hp =>
    exact .streaming t pc (by rw [hd.sys]; exact h) (hkeeps t pc h.later hp)

/-- **The rule of one job**: what holds when the job has begun, and is kept by the steps of its
streaming task, by what happens beside it and by the device, holds in every state of the run. -/
theorem OneJob.step (h : OneJob n job P w) (hs : World.step l w = some w')
    (hcalm : w.calm n l = true) (hclean : Clean [] w'.emitted)
    (hbegin : Answered w' → w'.core = w.core.startJob → ∀ t, n < t → P t .start w')
    (hbeside : ∀ t pc, n < t → pc.suspended = true → P t pc w → Beside w w' → P t pc w')
    (hdevice : ∀ t pc, n < t → P t pc w → DeviceStep w w' → P t pc w')
    (hstream : ∀ t pc pc' ch, l = .host (.task t ch) → Streaming n t job pc w.sys →
      advanceStream t job ch w.core pc = some (w'.core, pc') → P t pc w → P t pc' w') :
    OneJob n job P w' := by
  rcases step_cases hs with ⟨l, rfl, hhost⟩ | ⟨k, rfl⟩ | hd
  · refine h.host hhost hcalm hbegin hbeside ?_
    rintro t pc pc' ch rfl
    exact hstream t pc pc' ch rfl
  · refine h.deliver hs ?_ hbeside
    obtain ⟨tail, htail⟩ := step_emitted hs
    rw [← htail] at hclean
    exact hclean.left
  · exact h.device hs hd fun t pc ht hp => hdevice t pc ht hp hd

/-- The streaming task of the job is the only one since the call. -/
theorem OneJob.of_stream {t : ℕ} {job' : Job} {pc : StreamPc} (h : OneJob n job P w)
    (ht : n < t) (hb : w.sys.tasks[t]? = some (.stream job' pc)) :
    Streaming n t job pc w.sys ∧ P t pc w := by
  cases h with
  | begin h _ => exact absurd hb (h.unspawned t job' pc ht)
  | starting rpc h _ _ => exact absurd hb (h.unspawned t job' pc ht)
  | streaming t' pc' h hp =>
    obtain rfl := h.only t job' pc ht hb
    cases hb.symm.trans h.stream
    exact ⟨h, hp⟩

end Rule

end Raydriver
