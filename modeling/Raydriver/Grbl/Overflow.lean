import Raydriver.Grbl.JobRun
import Raydriver.Grbl.Ledger

/-!
# The device's RX buffer does not overflow

The streaming task sends a line only when `rx_count` and the line together fit the RX
buffer size in force.  `rx_count` is the total of the lines whose acknowledgement the
session has not heard, and these include all that the device has not taken out of its
buffer; so a device with room for every size ever in force is never overrun.

That `rx_count` is this total rests on what came before the job.  `start_job` empties the
accounting, whatever the device still owes: an answer that is outstanding then is taken
for that of a job line, and makes room for one line too many.

## Main definitions

* `Connected w` — the session is ready, and no answer is on its way.
* `streams C n` — the steps of a run that only streams, with sizes up to `C`.
* `InOrder pc w` — what holds of the books while the job runs.

## Main results

* `InOrder.stream`, `InOrder.beside` — what one step keeps.
* `rx_never_overflows` — **the lines in the device's buffer never exceed its capacity**.
* `old_answer_overflows` — with an answer outstanding they may.
-/

namespace Raydriver

open Lts FlowInner

/-- A session that is ready for its first job, with a device that has been sent nothing.
Informational bytes may be on their way, or in the parse buffer. -/
structure Connected (w : World) : Prop where
  ready : Ready w.sys
  removed : w.removed = 0
  heard : w.heard = 0
  buffer : LF ∉ w.core.flow.statusBuffer
  emitted : w.emitted = (w.core.flow.statusBuffer ++ w.pipe).map .byte

/-- The lines whose acknowledgement the session has not heard. -/
def World.unheard (w : World) : List Sent := w.lines.drop w.heard

/-- The bytes of the lines the device has not taken out of its RX buffer. -/
def World.buffered (w : World) : ℕ := Window.total Sent.size (w.lines.drop w.removed)

/-- The bytes of the job lines among them. -/
def World.jobBuffered (w : World) : ℕ :=
  Window.total Sent.size ((w.lines.drop w.removed).filter Sent.isJobLine)

/-- The counters of the deadlock recovery. -/
def StreamPc.recovering : StreamPc → Bool
  | .recover _ | .recoverLock | .recoverStart _ | .recoverSpace _ | .recoverSend _
  | .recoverWriting _ | .recoverSent _ | .recoverDrain _ | .recoverReset _ | .recoverEnd _ => true
  | _ => false

/-- The streaming task runs `cancel`. -/
def StreamPc.isCancelling : StreamPc → Bool
  | .cancelling _ _ => true
  | _ => false

/-- A step of a run in which the job called as task `n` only streams: the RX buffer size in
force is at most `C`, nobody else writes a line, and the streaming task neither recovers
from a deadlock nor cancels. -/
def streams (C n : ℕ) (w : World) (l : WorldLabel) (_ : World) : Bool :=
  decide (w.core.flow.rxBufferSize ≤ C) && w.calm n l &&
  match l with
  | .host (.task i _) => (w.sys.streamPc i).all fun pc => !pc.recovering && !pc.isCancelling
  | _ => true

section Streams

variable {C n t : ℕ} {w w' : World} {l : WorldLabel}

theorem streams.calm (h : streams C n w l w' = true) : w.calm n l = true := by
  simp only [streams, Bool.and_eq_true] at h
  exact h.1.2

theorem streams.size (h : streams C n w l w' = true) : w.core.flow.rxBufferSize ≤ C := by
  simp only [streams, Bool.and_eq_true, decide_eq_true_eq] at h
  exact h.1.1

/-- On such a run the streaming task changes the books only to send a line. -/
theorem streams.eq_send {ch : Choice} {job : Job} {pc : StreamPc}
    (h : streams C n w (.host (.task t ch)) w' = true) (hshape : Streaming n t job pc w.sys)
    (ht : pc.touches = true) : ∃ s, pc = .send s := by
  simp only [streams, hshape.streamPc, Option.all_some, Bool.and_eq_true, Bool.not_eq_true'] at h
  cases pc with
  | send s => exact ⟨s, rfl⟩
  | recoverStart x => cases h.2.1
  | recoverSend x => cases h.2.1
  | recoverReset x => cases h.2.1
  | cancelling x e => cases h.2.2
  | _ => cases ht

end Streams

/-! ### The window -/

theorem Tracks.outstanding {w : World} {win : Window Sent} (h : Tracks w win) :
    win.outstanding = w.unheard := by
  unfold Window.outstanding World.unheard
  rw [h.written, h.heard]

theorem Tracks.resident {w : World} {win : Window Sent} (h : Tracks w win) :
    Window.total Sent.size win.resident = w.buffered := by
  unfold Window.resident World.buffered
  rw [h.written, h.removed]

/-- The session has heard what the device has said, and the window is within the capacity. -/
def Within (C : ℕ) (w : World) : Prop :=
  ∃ ts us p win, Heard w ts us p ∧ Tracks w win ∧ Window.total Sent.size win.resident ≤ C

/-- What fits beside the outstanding lines may be written. -/
def Admits (C : ℕ) (win : Window Sent) (e : Sent) : Prop :=
  Window.total Sent.size win.outstanding + e.size ≤ C

section Window

variable {C : ℕ} {w w' : World} {l : WorldLabel}

/-- The window stays within the capacity, if every line written fits. -/
theorem Within.step (h : Within C w) (hs : World.step l w = some w')
    (hheard : ∃ ts us p, Heard w' ts us p)
    (hlines : w'.lines = w.lines ∨ ∃ e, w'.lines = w.lines ++ [e] ∧
      Window.total Sent.size w.unheard + e.size ≤ C) : Within C w' := by
  obtain ⟨-, -, -, win, -, htracks, hfit⟩ := h
  obtain ⟨ts, us, p, hheard⟩ := hheard
  rw [← htracks.outstanding] at hlines
  obtain ⟨win', htracks', hmove⟩ := htracks.step (Admits C) hs hheard.le hlines
  refine ⟨ts, us, p, win', hheard, htracks', ?_⟩
  rcases hmove with rfl | hmove
  · exact hfit
  · exact hmove.resident_le (fun _ _ h => h) hfit

/-- A step of the session that keeps the parse buffer. -/
theorem Within.hears (h : Within C w) {l : Label} (hh : HostStep l w w')
    (hb : w'.core.flow.statusBuffer = w.core.flow.statusBuffer) : ∃ ts us p, Heard w' ts us p := by
  obtain ⟨ts, us, p, -, hheard, -⟩ := h
  exact ⟨ts, us, p, hheard.host hh.emitted hh.pipe hh.heard hb⟩

theorem Within.device (h : Within C w) (hs : World.step l w = some w') (hd : DeviceStep w w') :
    Within C w' := by
  refine h.step hs ?_ (.inl hd.lines)
  obtain ⟨ts, us, p, -, hheard, -⟩ := h
  obtain ⟨us', hheard'⟩ := hd.hears ts us p hheard
  exact ⟨_, _, _, hheard'⟩

theorem Within.deliver {n : ℕ} (h : Within C w) (hs : World.step (.deliver n) w = some w')
    (hclean : Clean [] w.emitted) : Within C w' := by
  refine h.step hs ?_ (.inl (deliver_lines hs).2)
  obtain ⟨ts, us, p, -, hheard, -⟩ := h
  obtain ⟨vs, vs', q, -, hheard', -⟩ := hheard.deliver hclean hs
  exact ⟨_, _, _, hheard'⟩

theorem Within.heard_le (h : Within C w) : w.heard ≤ w.lines.length := by
  obtain ⟨-, -, -, win, -, htracks, -⟩ := h
  rw [← htracks.heard, ← htracks.written]
  exact win.heard_le_length

theorem Within.buffered_le (h : Within C w) : w.buffered ≤ C := by
  obtain ⟨-, -, -, win, -, htracks, hle⟩ := h
  rw [← htracks.resident]
  exact hle

theorem Answered.unheard (h : Answered w) : w.unheard = [] := by
  rw [World.unheard, h.heard, List.drop_length]

/-- When every line has been answered, none is in the device's buffer. -/
theorem Within.of_answered (C : ℕ) (h : Answered w) : Within C w := by
  obtain ⟨ts, us, p, win, hheard, htracks⟩ := h.hears
  refine ⟨ts, us, p, win, hheard, htracks, Nat.le_trans (Window.total_resident_le Sent.size win) ?_⟩
  rw [htracks.outstanding, h.unheard]
  exact Nat.zero_le C

end Window

/-! ### A step of the session -/

section Host

variable {l : Label} {w w' : World}

theorem unheard_append {e : Sent} (hh : HostStep l w w') (hlines : w'.lines = w.lines ++ [e])
    (hle : w.heard ≤ w.lines.length) : w'.unheard = w.unheard ++ [e] := by
  unfold World.unheard
  rw [hlines, hh.heard]
  exact List.drop_append_of_le_length hle

theorem unheard_eq (hlines : w'.lines = w.lines) (hheard : w'.heard = w.heard) :
    w'.unheard = w.unheard := by
  unfold World.unheard
  rw [hlines, hheard]

theorem lines_sendTracked {o : Origin} {t : Text} {op : Option ℤ} {err : Option String}
    (ho : o ≠ .realtime) (hcore : w'.core = w.core.sendTracked o t op err) :
    w'.lines = w.lines ++ if err.isNone then [⟨o, t⟩] else [] := by
  unfold World.lines
  rw [hcore]
  show (w.core.sent ++ _).filter Sent.isLine = _
  rw [List.filter_append]
  cases err <;> simp [Sent.isLine, ho]

/-- The acknowledgements of a delivery strike out the oldest lines. -/
theorem Books.deliver {n : ℕ} (h : Books w.core w.unheard)
    (hs : World.step (.deliver n) w = some w') : Books w'.core w'.unheard := by
  obtain ⟨hcore, hlines⟩ := deliver_lines hs
  have hheard : w'.heard = w.heard + ackCount (w.parsed n) := by
    obtain ⟨s, -, rfl⟩ := Option.map_eq_some_iff.mp hs
    rfl
  rw [hcore]
  unfold World.unheard
  rw [hlines, hheard, ← List.drop_drop]
  exact h.handleRx (w.chunk n)

/-- Starting a job empties the books. -/
theorem Books.startJob (hcore : w'.core = w.core.startJob) (hnil : w'.unheard = []) :
    Books w'.core w'.unheard := by
  rw [hnil, hcore]
  exact .nil rfl rfl rfl

end Host

/-! ### The invariant -/

/-- Where the streaming task may send, the books are in order, and a line about to be sent
fits. -/
def InOrder (pc : StreamPc) (w : World) : Prop :=
  pc.stopped = true ∨
    (Books w.core w.unheard ∧ ∀ s, pc = .send s → w.core.needsSpace s.payload = false)

section InOrder

variable {C t : ℕ} {job : Job} {pc pc' : StreamPc} {w w' : World}

/-- A line the streaming task sends fits beside the outstanding ones. -/
theorem InOrder.admits {s : Send} (h : InOrder (.send s) w)
    (hsize : w.core.flow.rxBufferSize ≤ C) :
    Books w.core w.unheard ∧ Window.total Sent.size w.unheard + utf8Len s.payload ≤ C := by
  rcases h with h | ⟨hbooks, hspace⟩
  · cases h
  · refine ⟨hbooks, ?_⟩
    have hfree := hspace s rfl
    simp only [Core.needsSpace, FlowInner.needsSpace, decide_eq_false_iff_not, Nat.not_lt] at hfree
    rw [hbooks.total]
    omega

/-- A step that leaves the books alone keeps them in order. -/
theorem InOrder.quietly (h : InOrder pc w) (hq : Quietly w.core w'.core)
    (hheard : w'.heard = w.heard) (hstop : pc.stopped = true → pc'.stopped = true)
    (hsend : ∀ s, pc' = .send s → w'.core.needsSpace s.payload = false) : InOrder pc' w' := by
  refine h.imp hstop fun h => ⟨?_, hsend⟩
  rw [unheard_eq hq.lines hheard]
  exact h.1.congr hq.books hq.owners

/-- The streaming task sends a line that fits. -/
theorem InOrder.send {s : Send} {ch : Choice} (hw : Within C w) (h : InOrder (.send s) w)
    (hsize : w.core.flow.rxBufferSize ≤ C)
    (hs : World.step (.host (.task t ch)) w = some w')
    (hcore : w'.core = w.core.sendTracked (.job t) s.payload s.opIndex ch.writeError) :
    Within C w' ∧ InOrder (.writing s ch.writeError) w' := by
  have hhost := step_host hs
  obtain ⟨hbooks, hfits⟩ := h.admits hsize
  have hlines := lines_sendTracked (by simp) hcore
  have hheard := hw.hears hhost (by rw [hcore]; rfl)
  cases herr : ch.writeError with
  | some e =>
    -- the line is tracked, but not on the wire: the task stops here
    rw [herr] at hlines
    exact ⟨hw.step hs hheard (.inl (hlines.trans (List.append_nil _))), .inl rfl⟩
  | none =>
    rw [herr] at hlines hcore
    refine ⟨hw.step hs hheard (.inr ⟨_, hlines, hfits⟩), .inr ⟨?_, fun s' h => by cases h⟩⟩
    rw [unheard_append hhost hlines hw.heard_le, hcore]
    exact hbooks.sendTracked (.job t) s.payload s.opIndex none

/-- **What a step of the streaming task keeps**: it sends a line that fits, or it leaves the
books alone. -/
theorem InOrder.stream {n : ℕ} {ch : Choice} (hw : Within C w) (h : InOrder pc w)
    (hs : World.step (.host (.task t ch)) w = some w')
    (hok : streams C n w (.host (.task t ch)) w' = true) (hshape : Streaming n t job pc w.sys)
    (hadv : advanceStream t job ch w.core pc = some (w'.core, pc')) :
    Within C w' ∧ InOrder pc' w' := by
  by_cases ht : pc.touches = true
  · -- the other steps that touch the books are excluded
    obtain ⟨s, rfl⟩ := streams.eq_send hok hshape ht
    obtain ⟨hc, rfl⟩ := Prod.mk.inj (Option.some.inj hadv)
    exact InOrder.send hw h (streams.size hok) hs hc.symm
  · have hhost := step_host hs
    obtain ⟨hq, hsend, hstop⟩ := advanceStream_quietly hadv (by simpa using ht)
    exact ⟨hw.step hs (hw.hears hhost hq.books.statusBuffer) (.inl hq.lines),
      h.quietly hq hhost.heard hstop hsend⟩

theorem InOrder.device (h : InOrder pc w) (hd : DeviceStep w w') : InOrder pc w' := by
  unfold InOrder
  rw [hd.core, unheard_eq hd.lines hd.heard]
  exact h

/-- **What happens beside the streaming task leaves the books in order.** -/
theorem InOrder.beside (hsusp : pc.suspended = true) (hw : Within C w) (h : InOrder pc w)
    {l : WorldLabel} (hs : World.step l w = some w') (hb : Beside w w') :
    Within C w' ∧ InOrder pc w' := by
  have hsend : ∀ {c : Core} s, pc = .send s → c.needsSpace s.payload = false := by
    rintro c s rfl
    cases hsusp
  cases hb with
  | host l' hhost haside =>
    have hq := haside.quietly
    exact ⟨hw.step hs (hw.hears hhost hq.books.statusBuffer) (.inl hq.lines),
      h.quietly hq hhost.heard id hsend⟩
  | deliver k hs' hclean =>
    exact ⟨hw.deliver hs' hclean, h.imp id fun h => ⟨h.1.deliver hs', hsend⟩⟩
  | device l' hs' hd => exact ⟨hw.device hs' hd, h.device hd⟩

end InOrder

/-- A session that has not run a job owes nothing, and is owed nothing. -/
theorem Connected.answered {w : World} (h : Connected w) : Answered w where
  hears := ⟨_, _, _, Window.empty, .of_bytes rfl h.buffer h.emitted h.heard,
    by rw [World.lines, World.core, h.ready.sent]; rfl, h.removed.symm,
    by rw [h.emitted, answers_bytes]; rfl, h.heard.symm⟩
  heard := by
    rw [h.heard, World.lines, World.core, h.ready.sent]
    rfl

/-! ### Whole runs -/

section Runs

variable {C n : ℕ} {job : Job} {w w' : World} {l : WorldLabel}

/-- Before the job nothing is outstanding; while it runs the books are in order. -/
def Fits (C n : ℕ) (job : Job) (w : World) : Prop :=
  OneJob n job (fun _ pc w => Within C w ∧ InOrder pc w) w

/-- The job is started. -/
theorem InOrder.begin (h : Answered w') (hcore : w'.core = w.core.startJob) :
    Within C w' ∧ InOrder .start w' :=
  ⟨.of_answered C h, .inr ⟨.startJob hcore h.unheard, fun s hs => by cases hs⟩⟩

/-- **What one step keeps.** -/
theorem Fits.step (h : Fits C n job w) (hs : World.step l w = some w')
    (hok : streams C n w l w' = true) (hclean : Clean [] w'.emitted) : Fits C n job w' := by
  refine OneJob.step h hs (streams.calm hok) hclean (fun hq hcore t _ => InOrder.begin hq hcore)
    (fun t pc _ hsusp hp hb => hp.2.beside hsusp hp.1 hs hb)
    (fun t pc _ hp hd => ⟨hp.1.device hs hd, hp.2.device hd⟩) ?_
  rintro t pc pc' ch rfl hshape hadv hp
  exact hp.2.stream hp.1 hs hok hshape hadv

theorem Fits.within (h : Fits C n job w) : Within C w := by
  cases h with
  | begin _ hq => exact .of_answered C hq
  | starting pc _ _ hp => exact (hp (n + 1) (Nat.lt_succ_self n)).1
  | streaming t pc _ hp => exact hp.1

end Runs

/-- **The device's RX buffer does not overflow.**  A job is started when the device has
answered every line it was sent, and the session has handled the answers; its lines, polls,
holds and calls of other operations, the device's answers and reports in any chunking, stall
timeouts and changes of the RX buffer size interleave in any way, and nobody else writes a
line.  Then the lines written that the device has not removed never exceed its capacity `C`,
if no size ever in force does. -/
theorem rx_never_overflows {C : ℕ} {job : Job} {w₀ w₁ w : World} (h0 : Answered w₀)
    (hcall : World.step (.host (.call (.run job))) w₀ = some w₁)
    (hrun : Run World.step (fun a l b => streams C w₀.sys.tasks.length a l b = true) w₁ w)
    (hclean : Clean [] w.emitted) : w.buffered ≤ C := by
  have hclean' := hrun.strengthen (P := fun w => Clean [] w.emitted) (fun a l b hs _ hb => by
    obtain ⟨tail, htail⟩ := step_emitted hs
    rw [← htail] at hb
    exact hb.left) hclean
  have hfits : Fits C w₀.sys.tasks.length job w :=
    hclean'.invariant (fun a l b ih hs hok => ih.step hs hok.1 hok.2) (OneJob.of_call h0 hcall)
  exact hfits.within.buffered_le

/-! ### A session with a past -/

/-- A job of one line. -/
def oneLine : Job := { lines := ["G1 X1".toList] }

/-- A job of one line has been called as task `n`; its line is sent, taken and answered, and the
job finishes. -/
def answeredRun (n : ℕ) : List WorldLabel :=
  (turns n 3 ++ turns (n + 1) 12).map .host ++ [.remove, .answer (.ok 0 1), .deliver 4] ++
    (turns (n + 1) 4 ++ turns n 1).map .host

/-- A session with room for one line. -/
def smallWorld : World where
  sys := { core := { flow := { rxSize := some 10 } }, tasks := [] }

theorem smallWorld_connected : Connected smallWorld :=
  ⟨by constructor <;> rfl, rfl, rfl, List.not_mem_nil, rfl⟩

/-- It has run a job. -/
def usedWorld : World :=
  reach World.step (.host (.call (.run oneLine)) :: answeredRun 0) smallWorld

theorem usedWorld_answered : Answered usedWorld where
  hears := ⟨[.ok 0 1], [], [], ⟨[⟨.job 1, "G1 X1\n".toList⟩], 1, 1, 1, Nat.le_refl 1,
    Nat.le_refl 1, Nat.le_refl 1⟩, ⟨by decide, by decide, by decide, by decide⟩,
    ⟨by decide, by decide, by decide, by decide⟩⟩
  heard := by decide

/-- The second line of the next job waits until the device has answered the first. -/
def oneAtATime : List WorldLabel :=
  (turns 2 3 ++ turns 3 13).map .host ++
    [.remove, .answer (.ok 0 0), .deliver 2, .deliver 1] ++ (turns 3 2).map .host

theorem rx_never_overflows_second :
    let w₁ := reach World.step [.host (.call (.run twoLines))] usedWorld
    (reach World.step oneAtATime w₁).buffered ≤ 10 := by
  intro w₁
  have hcall : World.step (.host (.call (.run twoLines))) usedWorld = some w₁ := rfl
  have hrun : Run World.step
      (fun a l b => streams 10 usedWorld.sys.tasks.length a l b = true) w₁
      (reach World.step oneAtATime w₁) := run_reach_guarded (by decide)
  have hemitted : (reach World.step oneAtATime w₁).emitted = [.ok 0 1, .ok 0 0] := by decide
  refine rx_never_overflows usedWorld_answered hcall hrun ?_
  rw [hemitted]
  exact (by decide : ¬ errorMarker <:+: [])

/-- A command times out, and an empty job, which resets the accounting, is run. -/
def resetLabels : List WorldLabel :=
  (Label.call (.interactive "G0".toList) :: turns 0 6 ++ [Label.task 0 { timedOut := true }] ++
    turns 0 1 ++ [Label.call (.run { lines := [] })] ++ turns 1 3 ++ turns 2 7 ++ turns 1 1).map .host

/-- The device owes the answer of the command, and nothing is accounted for. -/
def indebtedWorld : World := reach World.step resetLabels smallWorld

/-- The answer comes when the first line of the next job has been sent, and makes room for the
second. -/
def tooEarly : List WorldLabel :=
  (turns 3 3 ++ turns 4 13).map .host ++
    [.remove, .answer (.ok 0 0), .deliver 3] ++ (turns 4 2).map .host

/-- **An answer outstanding from before the job overflows the buffer**, with nothing pending and
`rx_count = 0` when the job is called: two lines of six bytes are in a buffer of ten. -/
theorem old_answer_overflows :
    ¬ ∀ (C : ℕ) (job : Job) (v w₀ w₁ w : World), Connected v → Run World.step AnyStep v w₀ →
      w₀.core.flow.pending = [] → w₀.core.flow.rxCount = 0 →
      World.step (.host (.call (.run job))) w₀ = some w₁ →
      Run World.step (fun a l b => streams C w₀.sys.tasks.length a l b = true) w₁ w →
      Clean [] w.emitted → w.jobBuffered ≤ C := by
  intro h
  have hpast : Run World.step AnyStep smallWorld indebtedWorld := run_reach (by decide)
  have hcall : World.step (.host (.call (.run twoLines))) indebtedWorld
      = some (reach World.step [.host (.call (.run twoLines))] indebtedWorld) := rfl
  have hrun : Run World.step
      (fun a l b => streams 10 indebtedWorld.sys.tasks.length a l b = true)
      (reach World.step [.host (.call (.run twoLines))] indebtedWorld)
      (reach World.step tooEarly
        (reach World.step [.host (.call (.run twoLines))] indebtedWorld)) :=
    run_reach_guarded (by decide)
  have hle := h 10 twoLines smallWorld indebtedWorld _ _ smallWorld_connected hpast (by decide)
    (by decide) hcall hrun ?_
  · exact absurd hle (by decide)
  · have hemitted : (reach World.step tooEarly
        (reach World.step [.host (.call (.run twoLines))] indebtedWorld)).emitted
          = [.ok 0 0] := by decide
    rw [hemitted]
    exact (by decide : ¬ errorMarker <:+: [])

end Raydriver
