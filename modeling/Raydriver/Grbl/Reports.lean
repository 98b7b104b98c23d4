import Raydriver.Grbl.Demux
import Raydriver.Grbl.Finish
import Raydriver.Grbl.Panel
import Raydriver.Grbl.Register
import Raydriver.Lib.HighWater

/-!
# Progress is reported once for each operation

A line of a job may belong to an operation.  Its `ok` reports all operations from behind the
last one reported up to its own.  As long as the acknowledgements pop the entries of their own
lines, and come while the job is running, the session counts through the operations of the
lines acknowledged.

The job stops running when its streaming task ends, and that waits for nothing to be pending.
But when the machine is in Alarm the wait is cut short, without an error and without a
`cancel`.  The acknowledgements that come later are not reported any more.

## Main definitions

* `Register.sentOps`, `ackedOps`, `owedOps` — the operations of the lines sent, acknowledged,
  and outstanding.
* `jobGoesOn` — a step of a run without `cancel` and recovery, with every job line acknowledged
  by `ok`.
* `reportsProgress` — the step loses no report.
* `Counting` — the invariant.

## Main results

* `handleRx_progress` — what one chunk reports.
* `Counting.step` — what one step keeps.
* `progress_reported_once` — **every operation is reported once, in order, and not before the
  line that completes it is acknowledged**.
* `progress_lost` — without the condition it is not.
-/

namespace Raydriver

open Lts FlowInner HighWater

/-! ### What a chunk reports -/

/-- The operation an acknowledgement reports. -/
def reportedOp (a : GrblResponseType × Option PendingCommand) : Option ℤ :=
  if a.1 = .ok then a.2.bind PendingCommand.opIndex else none

/-- The operations that a call of the parser reports. -/
def reportedOps (es : List Extracted) : List ℤ :=
  (es.filterMap Extracted.attribution).filterMap reportedOp

/-- The operation a response reports. -/
def GrblResponse.op (r : GrblResponse) : Option ℤ := reportedOp (r.rtype, r.pending)

theorem filterMap_op_toResponse (es : List Extracted) :
    (es.map Extracted.toResponse).filterMap GrblResponse.op = reportedOps es := by
  unfold reportedOps
  rw [List.filterMap_map, List.filterMap_filterMap]
  refine List.filterMap_congr fun e _ => ?_
  cases e with
  | ack rtype text popped => cases rtype <;> rfl
  | line text => rfl

theorem progressEvents_opIndex (op : ℤ) (c : Core) :
    (c.progressEvents op).filterMap SessionEvent.opIndex = behind c.lastReportedOpIndex op := by
  have hcast : ∀ ns : List ℕ, (do let n ← ns; pure (n : ℤ)) = ns.map fun n : ℕ => (n : ℤ) := by
    intro ns
    exact (List.map_eq_flatMap (f := fun n : ℕ => (n : ℤ)) (l := ns)).symm
  unfold Core.progressEvents behind
  rw [hcast, List.map_map, List.filterMap_map]
  exact congrFun List.filterMap_eq_map _

/-- A line reports no progress. -/
theorem handleLine_progress (line : Text) (c : Core) :
    (c.handleLine line).lastReportedOpIndex = c.lastReportedOpIndex ∧
      (c.handleLine line).events = c.events := by
  unfold Core.handleLine
  split_ifs
  · exact ⟨rfl, rfl⟩
  · exact ⟨rfl, rfl⟩
  · dsimp only
    split <;> exact ⟨rfl, rfl⟩
  · dsimp only
    split <;> exact ⟨rfl, rfl⟩

/-- What one response reports while the job is running. -/
theorem handleResponse_progress {r : GrblResponse} {c : Core}
    (h : c.jobRunning = true ∨ r.op = none) :
    (c.handleResponse r).lastReportedOpIndex = markAfter c.lastReportedOpIndex r.op.toList ∧
      (c.handleResponse r).panel.done
        = c.panel.done ++ reports c.lastReportedOpIndex r.op.toList := by
  -- a response without an operation leaves the mark where it is
  have hsame : ∀ c' : Core, c'.lastReportedOpIndex = c.lastReportedOpIndex →
      c'.events = c.events → r.op = none →
      c'.lastReportedOpIndex = markAfter c.lastReportedOpIndex r.op.toList ∧
        c'.panel.done = c.panel.done ++ reports c.lastReportedOpIndex r.op.toList := by
    intro c' hlast hevents hop
    rw [hop]
    exact ⟨hlast, by simp only [Core.panel, hevents]; exact (List.append_nil _).symm⟩
  unfold Core.handleResponse
  cases hr : r.rtype with
  | ok =>
    have hop : r.op = r.pending.bind PendingCommand.opIndex := by
      rw [GrblResponse.op, reportedOp, hr]
      rfl
    show (c.handleOk r.pending).lastReportedOpIndex = _ ∧ (c.handleOk r.pending).panel.done = _
    unfold Core.handleOk
    dsimp only
    split
    · rename_i op heq
      have hsome : (if c.jobRunning then r.pending.bind PendingCommand.opIndex else none)
          = some op := heq
      split_ifs at hsome
      rw [hop, hsome]
      refine ⟨rfl, ?_⟩
      show (c.events ++ c.progressEvents op).filterMap SessionEvent.opIndex = _
      rw [List.filterMap_append, progressEvents_opIndex]
      show _ = _ ++ (behind c.lastReportedOpIndex op ++ [])
      rw [List.append_nil]
      rfl
    · rename_i heq
      have hnone : (if c.jobRunning then r.pending.bind PendingCommand.opIndex else none)
          = none := heq
      refine hsame _ rfl rfl ?_
      -- no report although an entry was popped: the job is over
      rcases h with hrun | hnone'
      · rw [hrun, if_pos rfl] at hnone
        rw [hop, hnone]
      · exact hnone'
  | error =>
    refine hsame _ rfl rfl ?_
    rw [GrblResponse.op, reportedOp, hr]
    rfl
  | line =>
    obtain ⟨hlast, hevents⟩ := handleLine_progress r.text c
    refine hsame _ hlast hevents ?_
    rw [GrblResponse.op, reportedOp, hr]
    rfl

theorem foldl_handleResponse_progress : ∀ (rs : List GrblResponse) (c : Core),
    c.jobRunning = true ∨ rs.filterMap GrblResponse.op = [] →
    (rs.foldl Core.handleResponse c).lastReportedOpIndex
        = markAfter c.lastReportedOpIndex (rs.filterMap GrblResponse.op) ∧
      (rs.foldl Core.handleResponse c).panel.done
        = c.panel.done ++ reports c.lastReportedOpIndex (rs.filterMap GrblResponse.op) := by
  intro rs
  induction rs with
  | nil => exact fun c _ => ⟨rfl, (List.append_nil _).symm⟩
  | cons r rs ih =>
    intro c h
    have hcons : (r :: rs).filterMap GrblResponse.op
        = r.op.toList ++ rs.filterMap GrblResponse.op := by
      cases hop : r.op with
      | none => exact List.filterMap_cons_none hop
      | some op => exact List.filterMap_cons_some hop
    have hhead : c.jobRunning = true ∨ r.op = none := by
      refine h.imp id fun hnil => ?_
      rw [hcons] at hnil
      exact Option.toList_eq_nil_iff.mp (List.append_eq_nil_iff.mp hnil).1
    -- a response leaves the job running
    have htail : (c.handleResponse r).jobRunning = true ∨ rs.filterMap GrblResponse.op = [] := by
      refine h.imp (handleResponse_frame c r).jobRunning.trans fun hnil => ?_
      rw [hcons] at hnil
      exact (List.append_eq_nil_iff.mp hnil).2
    obtain ⟨hlast, hdone⟩ := handleResponse_progress hhead
    obtain ⟨hlast', hdone'⟩ := ih _ htail
    rw [List.foldl_cons, hlast', hdone', hlast, hdone, hcons]
    cases r.op with
    | none => exact ⟨rfl, by rw [List.append_assoc]; rfl⟩
    | some op =>
      refine ⟨rfl, ?_⟩
      show _ ++ (behind c.lastReportedOpIndex op ++ []) ++ _ = _ ++ (behind _ op ++ _)
      rw [List.append_nil, List.append_assoc]
      rfl

/-- **What a chunk reports**: the operations of the entries that its `ok`s pop, and what was left
out before them. -/
theorem handleRx_progress {data : Bytes} {c : Core}
    (h : c.jobRunning = true ∨ reportedOps (c.flow.parseExtracted data).2 = []) :
    (c.handleRx data).lastReportedOpIndex
        = markAfter c.lastReportedOpIndex (reportedOps (c.flow.parseExtracted data).2) ∧
      (c.handleRx data).panel.done = c.panel.done
        ++ reports c.lastReportedOpIndex (reportedOps (c.flow.parseExtracted data).2) := by
  rw [← filterMap_op_toResponse] at h ⊢
  unfold Core.handleRx
  generalize c.flow.parseExtracted data = x at h ⊢
  obtain ⟨flow, es⟩ := x
  dsimp only at h ⊢
  -- lines come first, and report nothing
  have hsplit : ((es.map Extracted.toResponse).filter (fun r => r.rtype == .line) ++
      (es.map Extracted.toResponse).filter (fun r => !(r.rtype == .line))).filterMap
        GrblResponse.op = (es.map Extracted.toResponse).filterMap GrblResponse.op := by
    have hlines : ∀ rs : List GrblResponse,
        (rs.filter fun r => r.rtype == .line).filterMap GrblResponse.op = [] := by
      intro rs
      refine List.filterMap_eq_nil_iff.mpr fun r hr => ?_
      have hline : r.rtype = .line := by simpa using (List.mem_filter.mp hr).2
      rw [GrblResponse.op, reportedOp, hline]
      rfl
    have hacks : ∀ rs : List GrblResponse,
        (rs.filter fun r => !(r.rtype == .line)).filterMap GrblResponse.op
          = rs.filterMap GrblResponse.op := by
      intro rs
      rw [List.filterMap_filter]
      refine List.filterMap_congr fun r _ => ?_
      cases hr : r.rtype with
      | line =>
        rw [GrblResponse.op, reportedOp, hr]
        rfl
      | _ => rfl
    rw [List.filterMap_append, hlines, hacks, List.nil_append]
  rw [← hsplit] at h ⊢
  exact foldl_handleResponse_progress _ _ h

/-! ### The lines of the job -/

/-- The session with what it has written so far: it is no line of the job to come. -/
def Register.of (w : World) : Register := ⟨w, w.lines.map fun e => (e, none)⟩

namespace Register

/-- The operations of the lines sent. -/
def sentOps (r : Register) : List ℤ := r.ledger.filterMap Prod.snd

/-- The operations of the lines whose acknowledgement has been handled. -/
def ackedOps (r : Register) : List ℤ := (r.ledger.take r.world.heard).filterMap Prod.snd

/-- The operations of the lines whose acknowledgement has not been handled. -/
def owedOps (r : Register) : List ℤ := (r.ledger.drop r.world.heard).filterMap Prod.snd

/-- The operations reported. -/
def done (r : Register) : List ℤ := r.world.core.panel.done

theorem sentOps_eq (r : Register) : r.sentOps = r.ackedOps ++ r.owedOps := by
  unfold sentOps ackedOps owedOps
  rw [← List.filterMap_append, List.take_append_drop]

end Register

/-! ### The runs -/

/-- The next step of the task neither belongs to a `cancel` nor starts a recovery. -/
def Body.goesOn : Body → Bool
  | .cancel _ _ | .stream _ (.cancelling _ _) | .stream _ (.recoverStart _) => false
  | _ => true

/-- A call that neither starts, ends nor cancels a job. -/
def Call.goesOn : Call → Bool
  | .cancel _ => false
  | op => !op.restarts

/-- Of the acknowledgements in the next `n` bytes, those of job lines are `ok`. -/
def Register.jobAcked (n : ℕ) (r : Register) : Bool :=
  ((r.world.next n).zip (r.ledger.drop r.world.heard)).all fun p =>
    !p.2.1.isJobLine || p.1.1 == .ok

/-- A step of a run of one job, without `cancel` and without recovery, in which every job line is
acknowledged by `ok`. -/
def jobGoesOn (r : Register) (l : WorldLabel) : Bool :=
  match l with
  | .host (.call op) => op.goesOn
  | .host (.task i _) => (r.world.sys.tasks[i]?).all Body.goesOn
  | .deliver n => r.jobAcked n
  | _ => true

/-- The task is about to cut the wait for the pending acknowledgements short, because of an
Alarm. -/
def Body.cutsDrain (c : Core) : Body → Bool
  | .stream _ .drainTop => c.isAlarm && !c.flow.pending.isEmpty
  | _ => false

/-- **The step loses no report**: no tracked write fails, the wait for the pending
acknowledgements is not cut short, and no chunk holds an error before an `ok`. -/
def reportsProgress (r : Register) (l : WorldLabel) : Bool :=
  match l with
  | .host (.task i ch) => (r.world.sys.tasks[i]?).all fun b =>
    ((b.tracks i r.world.core).isNone || ch.writeError.isNone) && !b.cutsDrain r.world.core
  | .deliver n => oksFirst (r.world.next n)
  | _ => true

/-- The session is at rest, and the device has answered all it was sent. -/
structure Rested (w : World) : Prop where
  steady : Steady w.sys
  hears : ∃ ts us p win, Heard w ts us p ∧ Tracks w win
  heard : w.heard = w.lines.length
  pending : w.core.flow.pending = []

/-! ### The invariant -/

/-- The lines a send loop at this counter still sends have a number from `k` on. -/
def Site.sendsFrom (job : Job) (k : ℕ) : Site → Prop
  | .stall s => k ≤ s.lineIdx ∧ s.opIndex = job.opIndex s.lineIdx
  | .drain => True

/-- The lines the streaming task still sends have a number from `k` on. -/
def StreamPc.sendsFrom (job : Job) (k : ℕ) : StreamPc → Prop
  | .start => k = 0
  | .loopTop idx _ | .yielded idx _ => k ≤ idx
  | .lockWait s | .locked s | .spaceCheck s | .spaceWait s | .send s | .stall s | .stallEnd s _ =>
    (Site.stall s).sendsFrom job k
  | .writing s _ | .afterSend s => k ≤ s.lineIdx + 1
  | .poll w | .pollSend w _ | .pollWriting w _ _ | .pollFailed w | .pollAwait w _ _
  | .pollSleep w _ _ | .pollDone w _ | .pollEnd w _ | .recover w | .recoverStart w
  | .recoverSpace w | .recoverSend w | .recoverWriting w | .recoverSent w | .recoverDrain w
  | .recoverReset w | .recoverEnd w => w.sendsFrom job k
  | _ => True

/-- On the way out of the drain without an exception nothing is pending; a `cancel` of the task
has not begun, nor a recovery. -/
def StreamPc.outOfDrain (c : Core) : StreamPc → Prop
  | .innerEnd => c.flow.pending = [] ∨ c.jobException.isSome = true
  | .outcome none | .final none => c.flow.pending = []
  | .cancelling pc _ => pc = .start
  | .final (some _) | .finished _ | .recoverSpace _ | .recoverSend _ | .recoverWriting _
  | .recoverSent _ | .recoverDrain _ | .recoverReset _ => False
  | _ => True

/-- The streaming task of the job is at `pc`. -/
structure Streams (job : Job) (pc : StreamPc) (r : Register) : Prop where
  running : r.world.core.jobRunning = true
  cancelled : r.world.core.isCancelled = false
  ahead : ∃ k, pc.sendsFrom job k ∧ ∀ a ∈ r.sentOps, ∃ i < k, job.opIndex i = some a
  out : pc.outOfDrain r.world.core

/-- Where the run of the job is, and what has been sent and reported by then. -/
def RunPc.counts (job : Job) (r : Register) : RunPc → Prop
  | .begin => r.sentOps = [] ∧ r.world.core.flow.pending = []
  | .abort | .abortWait _ | .spawn => r.sentOps = [] ∧ r.world.core.jobRunning = true ∧
    r.world.core.isCancelled = false ∧ r.world.core.lastReportedOpIndex = -1
  | .join t => r.world.core.lastReportedOpIndex = highest r.ackedOps ∧
    (r.world.sys.alive t = false → r.owedOps = []) ∧
    ∃ pc, r.world.sys.tasks[t]? = some (.stream job pc) ∧
      (r.world.sys.alive t = true → Streams job pc r)
  | .returned => r.world.core.lastReportedOpIndex = highest r.ackedOps ∧ r.owedOps = [] ∧
    ∀ t job' pc, r.world.sys.tasks[t]? = some (.stream job' pc) → r.world.sys.alive t = false
  | _ => False

/-- **The invariant**: run `j` is the only one, and what it has reported are the operations up to
the highest one acknowledged. -/
structure Counting (j : ℕ) (job : Job) (done₀ : List ℤ) (r : Register) : Prop extends
    Sole j job r.world.sys, InStep r where
  done : r.done = done₀ ++ upTo (highest r.ackedOps)
  ordered : r.sentOps.Pairwise (· ≤ ·)
  nonneg : ∀ a ∈ r.sentOps, 0 ≤ a
  named : ∀ e ∈ r.ledger, e.2.isSome = true → e.1.isJobLine = true
  counts : ∀ pc, r.world.sys.tasks[j]? = some (.run job pc) → pc.counts job r

/-! ### The streaming task of the job -/

section Stream

variable {t k : ℕ} {job : Job} {ch : Choice} {c c' : Core} {pc pc' : StreamPc}

/-- Behind a send the next line is due. -/
def StreamPc.nextLine (k : ℕ) : StreamPc → ℕ
  | .send s => s.lineIdx + 1
  | _ => k

/-- **The lines are sent in the order of their numbers.** -/
theorem advanceStream_sendsFrom (h : advanceStream t job ch c pc = some (c', pc'))
    (hk : pc.sendsFrom job k) : pc'.sendsFrom job (pc.nextLine k) := by
  cases pc with
  | start =>
    cases h
    exact Nat.le_of_eq hk
  | loopTop idx rest =>
    have hle : k ≤ idx := hk
    cases rest with
    | nil =>
      cases h
      trivial
    | cons line rest =>
      simp only [advanceStream] at h
      split_ifs at h <;> cases h
      · trivial
      · exact Nat.le_succ_of_le hle
      · exact ⟨hle, rfl⟩
  | locked s =>
    simp only [advanceStream] at h
    split_ifs at h <;> cases h
    · exact hk
    · trivial
  | send s =>
    cases h
    exact Nat.le_refl _
  | writing s err => cases err <;> cases h <;> first | exact hk | trivial
  | stall s =>
    cases h
    split <;> exact hk
  | stallEnd s handled =>
    cases handled <;> cases h
    · exact Nat.le_succ_of_le hk.1
    · exact hk
  | poll w => cases w <;> cases h <;> exact hk
  | pollWriting w before err => cases err <;> cases h <;> exact hk
  | pollAwait w before left => cases left <;> cases h <;> exact hk
  | pollEnd w idle =>
    cases w <;> simp only [advanceStream] at h <;> split_ifs at h <;> cases h <;>
      exact hk
  | recover w =>
    cases w <;> simp only [advanceStream] at h <;> split_ifs at h <;> cases h <;>
      exact hk
  | recoverStart w =>
    cases h
    split <;> exact hk
  | recoverSent w =>
    cases h
    split <;> exact hk
  | recoverEnd w => cases w <;> cases h <;> exact hk
  | afterSend s =>
    simp only [advanceStream] at h
    split_ifs at h <;> cases h
    · trivial
    · exact hk
  | outcome err =>
    cases err <;> simp only [advanceStream] at h <;> (try split_ifs at h) <;> cases h <;> trivial
  | cancelling pc e =>
    simp only [advanceStream] at h
    split at h
    · cases h
      trivial
    · obtain ⟨⟨c₁, pc₁⟩, -, h2⟩ := Option.map_eq_some_iff.mp h
      cases h2
      trivial
  | _ =>
    simp only [advanceStream] at h
    try split_ifs at h
    all_goals cases h
    all_goals exact hk

/-- **The job ends with nothing pending.** -/
theorem advanceStream_outOfDrain (h : advanceStream t job ch c pc = some (c', pc'))
    (hout : pc.outOfDrain c) (hcan : c.isCancelled = false)
    (hgo : (Body.stream job pc).goesOn = true)
    (hcut : (Body.stream job pc).cutsDrain c = false) :
    pc'.outOfDrain c' ∨ (pc = .final none ∧ c.flow.pending = []) := by
  cases pc with
  | final err =>
    cases err with
    | none => exact .inr ⟨rfl, hout⟩
    | some e => exact hout.elim
  | afterLoop =>
    simp only [advanceStream, hcan, Bool.not_false, Bool.true_and] at h
    split_ifs at h with hexc <;> cases h
    · exact .inl trivial
    · refine .inl (.inr ?_)
      rw [Option.isNone_iff_eq_none] at hexc
      exact Option.isSome_iff_ne_none.mpr hexc
  | drainTop =>
    simp only [advanceStream, hcan, Bool.or_false] at h
    split_ifs at h with hstop <;> cases h
    · -- pending, an exception, or an Alarm that cuts nothing short
      refine .inl ?_
      have hcut' : (c.isAlarm && !c.flow.pending.isEmpty) = false := hcut
      by_cases hpending : c.flow.pending = []
      · exact .inl hpending
      · refine .inr ?_
        have hsome : c.flow.pending.isEmpty = false := by simpa using hpending
        rw [hsome, Bool.not_false, Bool.and_true] at hcut'
        simpa [hsome, hcut'] using hstop
    · exact .inl trivial
  -- the event has come: the drain is over when the list is empty at that moment
  | drainWait =>
    simp only [advanceStream] at h
    split_ifs at h with hpending <;> cases h
    · exact .inl (.inl (List.isEmpty_iff.mp hpending))
    · exact .inl trivial
  | pollEnd w idle =>
    cases w with
    | stall s =>
      simp only [advanceStream] at h
      split_ifs at h <;> cases h <;> exact .inl trivial
    | drain =>
      simp only [advanceStream] at h
      split_ifs at h with hstopped hidle hpending <;> cases h
      · exact .inl (.inr rfl)
      · exact .inl (.inl (List.isEmpty_iff.mp hpending))
      · exact .inl trivial
      · exact .inl trivial
  -- an exception is carried out of the loop; without one the list is empty
  | innerEnd =>
    cases h
    refine .inl ?_
    cases hexc : c.jobException with
    | some e => trivial
    | none =>
      rcases hout with hout | hout
      · exact hout
      · rw [hexc] at hout
        cases hout
  | outcome err =>
    cases err with
    | none =>
      cases h
      exact .inl hout
    | some e =>
      simp only [advanceStream, hcan, Bool.false_eq_true, if_false] at h
      cases h
      exact .inl rfl
  -- the two exits that `goesOn` rules out
  | cancelling pc e => cases hgo
  | recoverStart w => cases hgo
  | loopTop idx rest =>
    cases rest <;> simp only [advanceStream] at h <;> (try split_ifs at h) <;> cases h <;>
      exact .inl trivial
  | writing s err => cases err <;> cases h <;> exact .inl trivial
  | stall s =>
    cases h
    split <;> exact .inl trivial
  | stallEnd s handled => cases handled <;> cases h <;> exact .inl trivial
  | poll w => cases w <;> cases h <;> exact .inl trivial
  | pollWriting w before err => cases err <;> cases h <;> exact .inl trivial
  | pollAwait w before left => cases left <;> cases h <;> exact .inl trivial
  | recover w =>
    cases w <;> simp only [advanceStream] at h <;> split_ifs at h <;> cases h <;>
      exact .inl trivial
  | recoverEnd w => cases w <;> cases h <;> exact .inl trivial
  | recoverSpace w | recoverSend w | recoverWriting w | recoverSent w | recoverDrain w
  | recoverReset w | finished err => exact hout.elim
  | _ =>
    simp only [advanceStream] at h
    try split_ifs at h
    all_goals cases h
    all_goals exact .inl trivial

end Stream

/-! ### The counts under a step of the session -/

/-- Only a send of a streaming task tracks a line with an operation. -/
theorem tracks_op {i : ℕ} {c : Core} {b : Body} {e : Sent} {op : ℤ}
    (h : b.tracks i c = some (e, some op)) :
    ∃ job s, b = .stream job (.send s) ∧ e.isJobLine = true ∧ s.opIndex = some op := by
  have hcancel : ∀ pc : CancelPc, pc.command.map (fun command =>
      ((⟨.safety i, commandLine command⟩ : Sent), (none : Option ℤ))) ≠ some (e, some op) := by
    intro pc hpc
    obtain ⟨command, -, heq⟩ := Option.map_eq_some_iff.mp hpc
    cases heq
  cases b with
  | stream job pc =>
    cases pc with
    | send s =>
      obtain ⟨rfl, hop⟩ := Prod.mk.inj (Option.some.inj h)
      exact ⟨job, s, rfl, rfl, hop⟩
    | cancelling pc e' => exact absurd h (hcancel pc)
    | _ => cases h
  | cancel em pc => exact absurd h (hcancel pc)
  | queue pc => cases pc <;> cases h
  | interactive command pc => cases pc <;> cases h
  | _ => cases h

section Ledger

variable {r r' : Register} {x : List (Sent × Option ℤ)}

theorem sentOps_append (hl : r'.ledger = r.ledger ++ x) :
    r'.sentOps = r.sentOps ++ x.filterMap Prod.snd := by
  unfold Register.sentOps
  rw [hl, List.filterMap_append]

/-- A line that is tracked is not acknowledged yet. -/
theorem ackedOps_append (hl : r'.ledger = r.ledger ++ x) (hheard : r'.world.heard = r.world.heard)
    (hle : r.world.heard ≤ r.ledger.length) : r'.ackedOps = r.ackedOps := by
  unfold Register.ackedOps
  rw [hl, hheard, List.take_append_of_le_length hle]

theorem owedOps_append (hl : r'.ledger = r.ledger ++ x) (hheard : r'.world.heard = r.world.heard)
    (hle : r.world.heard ≤ r.ledger.length) :
    r'.owedOps = r.owedOps ++ x.filterMap Prod.snd := by
  unfold Register.owedOps
  rw [hl, hheard, List.drop_append_of_le_length hle, List.filterMap_append]

end Ledger

/-- No step of a task reports progress. -/
theorem touch_done (c : Core) (b : Body) (p : Panel) : (b.touch c p).done = p.done := by
  unfold Body.touch
  split
  case h_4 => split_ifs <;> rfl
  all_goals rfl

/-- Only the start of a job touches the operation last reported. -/
theorem touch_last {b : Body} (c : Core) (p : Panel) (hb : ∀ job, b ≠ .run job .begin) :
    (b.touch c p).lastReportedOpIndex = p.lastReportedOpIndex := by
  unfold Body.touch
  split
  case h_2 => exact absurd rfl (hb _)
  case h_4 => split_ifs <;> rfl
  all_goals rfl

/-- A step that leaves the progress of the job alone. -/
structure Still (s u : Sys) : Prop where
  last : u.core.lastReportedOpIndex = s.core.lastReportedOpIndex
  done : u.core.panel.done = s.core.panel.done
  running : u.core.jobRunning = s.core.jobRunning
  cancelled : s.core.isCancelled = false → u.core.isCancelled = false
  alive : ∀ t, u.alive t = false → s.alive t = false

section Still

variable {j t : ℕ} {job : Job} {s u : Sys} {l : Label}

/-- What is not a step of a task, nor received, leaves the progress alone. -/
theorem still_of_outside (hs : Sys.step l s = some u) (hl : ∀ i ch, l ≠ .task i ch)
    (hrx : ∀ data, l ≠ .rx data) : Still s u := by
  obtain ⟨-, hcancelled, hrunning, -⟩ := Sys.step_aside hs hl
  have hpanel := Sys.step_panel hs hl hrx
  refine ⟨congrArg Panel.lastReportedOpIndex hpanel, congrArg Panel.done hpanel, hrunning,
    hcancelled.trans, fun t hdead => ?_⟩
  obtain ⟨-, -, haborted, -⟩ := Sys.step_other hs hl
  rw [Sys.alive_eq_false, haborted] at hdead
  rw [Sys.alive_eq_false]
  refine hdead.elim .inl fun hended => ?_
  by_cases hdrop : ∃ i, l = .drop i
  · obtain ⟨i, rfl⟩ := hdrop
    simp only [Sys.step, Sys.dropTask] at hs
    split at hs
    case isFalse => cases hs
    rename_i hen
    cases hs
    rw [Bool.and_eq_true, Bool.and_eq_true, List.contains_iff_mem] at hen
    rcases List.mem_cons.mp hended with rfl | hended
    · exact .inl hen.1.2
    · exact .inr hended
  · have hsame : u.core.ended = s.core.ended := by
      cases l with
      | task i ch => exact absurd rfl (hl i ch)
      | rx data => exact absurd rfl (hrx data)
      | drop i => exact absurd ⟨i, rfl⟩ hdrop
      | call op =>
        simp only [Sys.step] at hs
        split_ifs at hs
        cases hs
        rfl
      | poll err =>
        simp only [Sys.step, Sys.outside] at hs
        split_ifs at hs
        cases hs
        unfold Sys.pollStatus
        split_ifs <;> rfl
      | _ =>
        simp only [Sys.step, Sys.outside] at hs
        split_ifs at hs
        cases hs
        rfl
    rw [hsame] at hended
    exact .inr hended

/-- A settled task other than a streaming task or a `cancel` leaves the progress alone. -/
theorem still_of_task {i : ℕ} {ch : Choice} {b b' : Body} {c' : Core} {spawned : List Body}
    (hadv : advance s.tasks.length i ch s.core b = some (c', b', spawned))
    (hu : u.core = c') (hsettled : b.settled = true) (hgo : b.goesOn = true)
    (hstream : b.isStream = false) : Still s u := by
  obtain ⟨hdebt, hmove⟩ := advance_debt hadv (.inl hsettled)
  have hflags := advance_flags hadv
  have hcancels : b.cancels = false := by
    cases b with
    | cancel em pc => cases hgo
    | stream job pc => cases hstream
    | link on pc => cases pc <;> first | rfl | cases hsettled
    | _ => rfl
  have hpanel := advance_panel hadv
  have hbegin : ∀ job, b ≠ .run job .begin := by
    rintro job rfl
    cases hsettled
  refine ⟨?_, ?_, ?_, fun h => ?_, fun t hdead => ?_⟩
  · rw [hu]
    exact (congrArg Panel.lastReportedOpIndex hpanel).trans (touch_last _ _ hbegin)
  · rw [hu]
    exact (congrArg Panel.done hpanel).trans (touch_done _ _ _)
  · rw [hu]
    cases hdebt with
    | same hrun => exact hrun
    | starts job hb => exact absurd hb (hbegin job)
    | takes hb =>
      rw [hcancels] at hb
      cases hb
    | pays hrun => exact hrun
    | closes job err hb =>
      rw [hb] at hstream
      cases hstream
  · rw [hu]
    exact hflags.cancelled hcancels h
  · have hkept : c'.aborted = s.core.aborted ∧ c'.ended = s.core.ended := by
      cases hmove with
      | keeps ha he => exact ⟨ha, he⟩
      | clears ha he => exact ⟨ha, he⟩
      | aborts t hb =>
        rcases hb with ⟨em, was, rfl⟩ | ⟨job, rfl⟩
        · cases hgo
        · cases hsettled
      | ends job err hb =>
        rw [hb] at hstream
        cases hstream
      | spawns job hb ha he => exact ⟨ha, he⟩
    rw [Sys.alive_eq_false, hu, hkept.1, hkept.2] at hdead
    exact Sys.alive_eq_false.mpr hdead

end Still

/-! ### What a step of the session keeps -/

/-- At an await point nothing depends on the session. -/
theorem outOfDrain_of_suspended {pc : StreamPc} {c c' : Core} (h : pc.outOfDrain c)
    (hsusp : pc.suspended = true) : pc.outOfDrain c' := by
  cases pc with
  | outcome err => cases hsusp
  | final err => cases hsusp
  | innerEnd => cases hsusp
  | _ => exact h

section Host

variable {j : ℕ} {job : Job} {done₀ : List ℤ} {r : Register} {w' : World} {l : Label}

/-- The register behind a step of the session. -/
def Register.after (l : Label) (w' : World) (r : Register) : Register :=
  ⟨w', r.ledger ++ (r.world.sys.tracked l).toList⟩

/-- A step that tracks no line with an operation keeps the counts. -/
theorem Counting.same_ops (h : Counting j job done₀ r) (hh : HostStep l r.world w')
    (hops : ∀ e op, r.world.sys.tracked l ≠ some (e, some op)) :
    (r.after l w').sentOps = r.sentOps ∧ (r.after l w').ackedOps = r.ackedOps ∧
      (r.after l w').owedOps = r.owedOps ∧
      ∀ e ∈ (r.after l w').ledger, e.2.isSome = true → e.1.isJobLine = true := by
  have hnil : (r.world.sys.tracked l).toList.filterMap Prod.snd = [] := by
    cases htracked : r.world.sys.tracked l with
    | none => rfl
    | some p =>
      obtain ⟨e, op⟩ := p
      cases op with
      | none => rfl
      | some op => exact absurd htracked (hops e op)
  refine ⟨?_, ackedOps_append rfl hh.heard h.heard_le, ?_, fun e he hsome => ?_⟩
  · rw [sentOps_append (r := r) rfl, hnil, List.append_nil]
  · rw [owedOps_append (r := r) rfl hh.heard h.heard_le, hnil, List.append_nil]
  · rcases List.mem_append.mp he with he | he
    · exact h.named e he hsome
    · obtain ⟨op, hop⟩ := Option.isSome_iff_exists.mp hsome
      refine absurd (Option.mem_toList.mp he) fun htracked => hops e.1 op ?_
      rw [← hop]
      exact htracked

/-- The job's lines do not change: what the steps to come may do. -/
theorem Streams.still {pc : StreamPc} {r' : Register} (h : Streams job pc r)
    (hstill : Still r.world.sys r'.world.sys) (hsent : r'.sentOps = r.sentOps)
    (hsusp : pc.suspended = true) : Streams job pc r' := by
  refine ⟨hstill.running.trans h.running, hstill.cancelled h.cancelled, ?_,
    outOfDrain_of_suspended h.out hsusp⟩
  rw [hsent]
  exact h.ahead

/-- **A step beside the job**: neither its run nor its streaming task moves. -/
theorem Counting.aside (h : Counting j job done₀ r) (hh : HostStep l r.world w')
    (hkeep : l.keepsJob = true) (hok : keepsStep r (.host l) = true)
    (hstill : Still r.world.sys w'.sys)
    (hops : ∀ e op, r.world.sys.tracked l ≠ some (e, some op)) (hj : ∀ ch, l ≠ .task j ch)
    (hstream : ∀ t ch job' pc, l = .task t ch →
      r.world.sys.tasks[t]? ≠ some (.stream job' pc)) :
    Counting j job done₀ (r.after l w') := by
  obtain ⟨hsent, hacked, howed, hnamed⟩ := h.same_ops hh hops
  -- no streaming task is spawned
  have hsame : ∀ (t : ℕ) (job' : Job) (pc : StreamPc),
      w'.sys.tasks[t]? = some (.stream job' pc) →
      ∃ pc₀, r.world.sys.tasks[t]? = some (.stream job' pc₀) := by
    intro t job' pc ht
    rcases Sys.step_stream hh.step ht with ⟨pc₀, ht₀, -⟩ | ⟨-, -, i, ch, rfl, hspawn⟩
    · exact ⟨pc₀, ht₀⟩
    · by_cases hij : i = j
      · exact absurd (hij ▸ rfl) (hj ch)
      · cases h.others i _ hij hspawn
  refine ⟨h.toSole.step hh.step hkeep, h.toInStep.host hh hok, ?_, ?_, ?_, hnamed,
    fun pc hpc => ?_⟩
  · rw [hacked, ← h.done]
    exact hstill.done
  · rw [hsent]
    exact h.ordered
  · rw [hsent]
    exact h.nonneg
  · obtain ⟨pc₀, hpc₀, ⟨rfl, -⟩ | ⟨ch, spawns, rfl, -⟩⟩ := h.toSole.step_run hh.step hpc
    · have hcounts := h.counts pc₀ hpc₀
      have hwaits := Sys.step_waits (b := .run job pc₀) hh.step hj (h.waits j _ hpc₀)
      cases pc₀ with
      | begin => cases hwaits
      | abort => cases hwaits
      | spawn => cases hwaits
      | rawNext realtime => exact hcounts
      | rawWriting realtime err => exact hcounts
      | abortWait t =>
        obtain ⟨hnil, hrunning, hcancelled, hlast⟩ := hcounts
        exact ⟨hsent.trans hnil, hstill.running.trans hrunning, hstill.cancelled hcancelled,
          hstill.last.trans hlast⟩
      | join t =>
        obtain ⟨hlast, hdead, pc, ht, hstreams⟩ := hcounts
        have hne : ∀ ch, l ≠ .task t ch := fun ch hl => hstream t ch job pc hl ht
        refine ⟨hstill.last.trans (hlast.trans (congrArg highest hacked.symm)),
          fun halive => howed.trans (hdead (hstill.alive t halive)), pc,
          Sys.step_tasks hh.step ht hne, fun halive => ?_⟩
        have hsusp := Sys.step_waits (b := .stream job pc) hh.step hne (h.waits t _ ht)
        exact (hstreams (Sys.alive_of_step hh.step halive)).still hstill hsent hsusp
      | returned =>
        obtain ⟨hlast, hnone, hdead⟩ := hcounts
        refine ⟨hstill.last.trans (hlast.trans (congrArg highest hacked.symm)),
          howed.trans hnone, fun t job' pc ht => ?_⟩
        obtain ⟨pc₀, ht₀⟩ := hsame t job' pc ht
        exact Sys.step_dead hh.step (hdead t job' pc₀ ht₀)
    · exact absurd rfl (hj ch)

/-- Before the first send there is nothing acknowledged and nothing owed. -/
theorem Register.no_ops {r : Register} (h : r.sentOps = []) : r.ackedOps = [] ∧ r.owedOps = [] :=
  List.append_eq_nil_iff.mp (r.sentOps_eq.symm.trans h)

theorem counts_of_starting {pc : RunPc} (hpc : pc.starting = true) (hsent : r.sentOps = [])
    (hrunning : r.world.core.jobRunning = true) (hcancelled : r.world.core.isCancelled = false)
    (hlast : r.world.core.lastReportedOpIndex = -1) : pc.counts job r := by
  cases pc <;> first | exact ⟨hsent, hrunning, hcancelled, hlast⟩ | cases hpc

/-- A run that is starting touches neither the flags nor the progress. -/
theorem advanceRun_starting {n : ℕ} {ch : Choice} {c c' : Core} {pc pc' : RunPc} {spawns : Bool}
    (h : advanceRun n job ch c pc = some (c', pc', spawns)) (hpc : pc.starting = true)
    (hspawn : pc ≠ .spawn) :
    c'.jobRunning = c.jobRunning ∧ c'.isCancelled = c.isCancelled ∧
      c'.lastReportedOpIndex = c.lastReportedOpIndex ∧ pc'.starting = true := by
  cases pc with
  | abort =>
    simp only [advanceRun] at h
    split at h
    · cases h
      exact ⟨rfl, rfl, rfl, rfl⟩
    · split_ifs at h <;> cases h <;> exact ⟨rfl, rfl, rfl, rfl⟩
  | abortWait t =>
    simp only [advanceRun] at h
    split_ifs at h
    cases h
    exact ⟨rfl, rfl, rfl, rfl⟩
  | spawn => exact absurd rfl hspawn
  | _ => cases hpc

/-- While the run of a job is starting, its accounting is empty. -/
theorem Counting.run_keepsStep {ch : Choice} (h : Counting j job done₀ r) {pc : RunPc}
    (hpc : r.world.sys.tasks[j]? = some (.run job pc)) :
    keepsStep r (.host (.task j ch)) = true := by
  have hcounts := h.counts pc hpc
  simp only [keepsStep, hpc, Option.all_some]
  cases pc with
  | begin =>
    have hpending : r.world.core.flow.pending.isEmpty = true := List.isEmpty_iff.mpr hcounts.2
    rw [Body.mayReset, hpending]
    rfl
  | _ => rfl

/-- **A step of the run.** -/
theorem Counting.run_step {ch : Choice} (h : Counting j job done₀ r)
    (hh : HostStep (.task j ch) r.world w') :
    Counting j job done₀ (r.after (.task j ch) w') := by
  obtain ⟨pc, hpc⟩ := h.run
  have hcounts := h.counts pc hpc
  -- the run itself tracks no line, so the ledger is as before
  have hops : ∀ e op, r.world.sys.tracked (.task j ch) ≠ some (e, some op) := by
    intro e op htracked
    simp only [Sys.tracked, hpc, Option.bind_some] at htracked
    cases htracked
  obtain ⟨hsent, hacked, howed, hnamed⟩ := h.same_ops hh hops
  obtain ⟨b, c', b', spawned, hb, -, -, hadv, hw'⟩ := Sys.step_task hh.step
  obtain rfl : b = .run job pc := Option.some.inj (hb.symm.trans hpc)
  have hcore : w'.core = c' := congrArg Sys.core hw'
  have hdone : w'.core.panel.done = r.done := by
    rw [hcore, advance_panel hadv, touch_done]
    rfl
  refine ⟨h.toSole.step hh.step rfl, h.toInStep.host hh (h.run_keepsStep hpc), ?_, ?_, ?_, hnamed,
    fun pc' hpc' => ?_⟩
  · rw [hacked, ← h.done]
    exact hdone
  · rw [hsent]
    exact h.ordered
  · rw [hsent]
    exact h.nonneg
  · -- where the run goes
    obtain ⟨⟨c₁, pc₁, spawns⟩, hstep, heq⟩ := Option.map_eq_some_iff.mp hadv
    have hlen : j < r.world.sys.tasks.length := (List.getElem?_eq_some_iff.mp hpc).1
    obtain ⟨rfl, rfl, rfl⟩ : c₁ = c' ∧ b' = .run job pc₁ ∧
        spawned = if spawns then [.stream job .start] else [] := by
      cases heq
      exact ⟨rfl, rfl, rfl⟩
    have hnext : pc' = pc₁ := by
      have hu : w'.sys.tasks[j]? = some (.run job pc₁) := by
        rw [hw', List.getElem?_append_left (by rw [List.length_set]; exact hlen),
          List.getElem?_set_self hlen]
      have heq' := hpc'.symm.trans hu
      simpa using heq'
    subst hnext
    -- before the stream is spawned nothing has been written or reported
    have hstarting : pc.starting = true → pc ≠ .spawn → r.sentOps = [] ∧
        r.world.core.jobRunning = true ∧ r.world.core.isCancelled = false ∧
        r.world.core.lastReportedOpIndex = -1 → pc'.counts job (r.after (.task j ch) w') := by
      rintro hstarting hspawn ⟨hnil, hrunning, hcancelled, hlast⟩
      obtain ⟨hrunning', hcancelled', hlast', hgo⟩ := advanceRun_starting hstep hstarting hspawn
      rw [← hcore] at hrunning' hcancelled' hlast'
      exact counts_of_starting hgo (hsent.trans hnil) (hrunning'.trans hrunning)
        (hcancelled'.trans hcancelled) (hlast'.trans hlast)
    cases pc with
    | rawNext realtime => exact hcounts.elim
    | rawWriting realtime err => exact hcounts.elim
    | begin =>
      cases hstep
      have hcore' : (r.after (.task j ch) w').world.core = r.world.core.startJob := hcore
      refine ⟨hsent.trans hcounts.1, ?_, ?_, ?_⟩ <;> rw [hcore'] <;> rfl
    | abort => exact hstarting rfl (by simp) hcounts
    | abortWait t => exact hstarting rfl (by simp) hcounts
    | spawn =>
      obtain ⟨hnil, hrunning, hcancelled, hlast⟩ := hcounts
      cases hstep
      obtain ⟨hacked₀, howed₀⟩ := Register.no_ops hnil
      refine ⟨?_, fun _ => howed.trans howed₀, .start, ?_, fun _ => ?_⟩
      · rw [hacked, hacked₀]
        show w'.core.lastReportedOpIndex = -1
        rw [hcore]
        exact hlast
      · -- the task just spawned
        show w'.sys.tasks[r.world.sys.tasks.length]? = some (.stream job .start)
        rw [hw', List.getElem?_append_right (by rw [List.length_set])]
        simp
      · refine ⟨?_, ?_, ⟨0, rfl, fun a ha => ?_⟩, trivial⟩
        · show w'.core.jobRunning = true
          rw [hcore]
          exact hrunning
        · show w'.core.isCancelled = false
          rw [hcore]
          exact hcancelled
        · rw [hsent, hnil] at ha
          cases ha
    -- the joined task has ended, and every line it tracked is acknowledged
    | join t =>
      obtain ⟨hlast, hdead, -⟩ := hcounts
      obtain ⟨hended, hlast', rfl⟩ : r.world.core.ended.contains t = true ∧
          c₁.lastReportedOpIndex = r.world.core.lastReportedOpIndex ∧ pc' = .returned := by
        simp only [advanceRun] at hstep
        split_ifs at hstep with hended <;> cases hstep <;> exact ⟨hended, rfl, rfl⟩
      have halive : r.world.sys.alive t = false :=
        Sys.alive_eq_false.mpr (.inr (List.contains_iff_mem.mp hended))
      refine ⟨?_, howed.trans (hdead halive), fun t' job' pc' ht' => ?_⟩
      · rw [hacked]
        show w'.core.lastReportedOpIndex = _
        rw [hcore, hlast']
        exact hlast
      -- no other task streams this job
      · by_contra halive'
        rw [Bool.not_eq_false] at halive'
        have halive₀ := Sys.alive_of_step hh.step halive'
        rcases Sys.step_stream hh.step ht' with ⟨pc₀, ht₀, -⟩ | ⟨-, -, i, ch', hi, hspawn⟩
        · obtain ⟨rfl, -⟩ := h.own _ hpc t' job' pc₀ ht₀ halive₀
          rw [halive] at halive₀
          cases halive₀
        · cases hi
          cases hpc.symm.trans hspawn
    | returned => cases hstep

/-- The streaming task of the job tracks its next line, or nothing. -/
theorem Streams.tracked {t : ℕ} {pc : StreamPc} (ch : Choice) (h : Streams job pc r)
    (hgo : (Body.stream job pc).goesOn = true)
    (ht : r.world.sys.tasks[t]? = some (.stream job pc)) :
    (∃ s, pc = .send s ∧
      r.world.sys.tracked (.task t ch) = some (⟨.job t, s.payload⟩, s.opIndex)) ∨
    ((∀ s, pc ≠ .send s) ∧ r.world.sys.tracked (.task t ch) = none) := by
  have heq : r.world.sys.tracked (.task t ch) = (Body.stream job pc).tracks t r.world.core := by
    simp only [Sys.tracked, ht, Option.bind_some]
    rfl
  rw [heq]
  cases pc with
  | send s => exact .inl ⟨s, rfl, rfl⟩
  | cancelling pc e => cases hgo
  | recoverSend w => exact h.out.elim
  | _ => exact .inr ⟨by simp, rfl⟩

/-- The operations of the job: none is negative, and they rise with the lines. -/
structure Job.OpsOrdered (job : Job) : Prop where
  nonneg : ∀ i a, job.opIndex i = some a → 0 ≤ a
  mono : ∀ i k a b, i ≤ k → job.opIndex i = some a → job.opIndex k = some b → a ≤ b

/-- The line sent next has the highest operation so far. -/
theorem Streams.next_op {s : Send} {a : ℤ} (h : Streams job (.send s) r)
    (hjob : job.OpsOrdered) (ha : s.opIndex = some a) :
    0 ≤ a ∧ (∀ b ∈ r.sentOps, b ≤ a) ∧
      ∀ b ∈ r.sentOps ++ [a], ∃ i < s.lineIdx + 1, job.opIndex i = some b := by
  obtain ⟨k, ⟨hle, hop⟩, hsent⟩ := h.ahead
  rw [ha] at hop
  refine ⟨hjob.nonneg _ _ hop.symm, fun b hb => ?_, fun b hb => ?_⟩
  · obtain ⟨i, hi, hib⟩ := hsent b hb
    exact hjob.mono i s.lineIdx b a (by omega) hib hop.symm
  · rcases List.mem_append.mp hb with hb | hb
    · obtain ⟨i, hi, hib⟩ := hsent b hb
      exact ⟨i, by omega, hib⟩
    · obtain rfl := List.mem_singleton.mp hb
      exact ⟨s.lineIdx, Nat.lt_succ_self _, hop.symm⟩

/-- What the streaming task has tracked: its operations stay in order. -/
theorem Streams.ops_step {t : ℕ} {ch : Choice} {pc pc' : StreamPc} {c' : Core} (w' : World)
    (h : Streams job pc r) (hjob : job.OpsOrdered)
    (hgo : (Body.stream job pc).goesOn = true)
    (ht : r.world.sys.tasks[t]? = some (.stream job pc))
    (hadv : advanceStream t job ch r.world.core pc = some (c', pc'))
    (hordered : r.sentOps.Pairwise (· ≤ ·)) (hnonneg : ∀ a ∈ r.sentOps, 0 ≤ a) :
    (r.after (.task t ch) w').sentOps.Pairwise (· ≤ ·) ∧
      (∀ a ∈ (r.after (.task t ch) w').sentOps, 0 ≤ a) ∧
      ∃ k, pc'.sendsFrom job k ∧
        ∀ a ∈ (r.after (.task t ch) w').sentOps, ∃ i < k, job.opIndex i = some a := by
  obtain ⟨k, hk, hsent⟩ := h.ahead
  have hnext := advanceStream_sendsFrom hadv hk
  have happend : (r.after (.task t ch) w').sentOps
      = r.sentOps ++ (r.world.sys.tracked (.task t ch)).toList.filterMap Prod.snd :=
    sentOps_append rfl
  rw [happend]
  rcases h.tracked ch hgo ht with ⟨s, rfl, htracked⟩ | ⟨hne, htracked⟩
  · rw [htracked]
    cases hop : s.opIndex with
    | none =>
      -- a line without an operation
      obtain ⟨hle, -⟩ := hk
      show (r.sentOps ++ []).Pairwise _ ∧ (∀ a ∈ r.sentOps ++ [], _) ∧ ∃ k, _ ∧
        ∀ a ∈ r.sentOps ++ [], _
      rw [List.append_nil]
      refine ⟨hordered, hnonneg, s.lineIdx + 1, hnext, fun a ha => ?_⟩
      obtain ⟨i, hi, hia⟩ := hsent a ha
      exact ⟨i, by omega, hia⟩
    | some a =>
      -- the operation of the line: not below the ones before it
      obtain ⟨ha, hbelow, hahead⟩ := h.next_op hjob hop
      show (r.sentOps ++ [a]).Pairwise _ ∧ (∀ b ∈ r.sentOps ++ [a], _) ∧ ∃ k, _ ∧
        ∀ b ∈ r.sentOps ++ [a], _
      refine ⟨List.pairwise_append.mpr ⟨hordered, List.pairwise_singleton _ _, fun b hb c hc => ?_⟩,
        fun b hb => ?_, s.lineIdx + 1, hnext, hahead⟩
      · rw [List.mem_singleton.mp hc]
        exact hbelow b hb
      · rcases List.mem_append.mp hb with hb | hb
        · exact hnonneg b hb
        · rw [List.mem_singleton.mp hb]
          exact ha
  · rw [htracked]
    have hsame : pc.nextLine k = k := by
      cases pc with
      | send s => exact absurd rfl (hne s)
      | _ => rfl
    rw [hsame] at hnext
    show (r.sentOps ++ []).Pairwise _ ∧ (∀ a ∈ r.sentOps ++ [], _) ∧ ∃ k, _ ∧
      ∀ a ∈ r.sentOps ++ [], _
    rw [List.append_nil]
    exact ⟨hordered, hnonneg, k, hnext, hsent⟩

/-- A streaming task that moves is the one the run waits for. -/
theorem Counting.joins {t : ℕ} {ch : Choice} {job' : Job} {pc : StreamPc}
    (h : Counting j job done₀ r) (hh : HostStep (.task t ch) r.world w')
    (ht : r.world.sys.tasks[t]? = some (.stream job' pc)) :
    job' = job ∧ r.world.sys.tasks[j]? = some (.run job (.join t)) ∧
      r.world.sys.alive t = true := by
  obtain ⟨b, -, -, -, -, halive, -⟩ := Sys.step_task hh.step
  obtain ⟨rpc, hrpc⟩ := h.run
  have hcounts := h.counts rpc hrpc
  cases rpc with
  | rawNext realtime => exact hcounts.elim
  | rawWriting realtime err => exact hcounts.elim
  | begin =>
    have hne : ∀ ch', Label.task t ch ≠ .task j ch' := by
      intro ch' heq
      cases heq
      cases ht.symm.trans hrpc
    cases Sys.step_waits (b := .run job .begin) hh.step hne (h.waits j _ hrpc)
  | abort => exact (h.toSole.no_stream hrpc rfl ht hh.step).elim
  | abortWait t' => exact (h.toSole.no_stream hrpc rfl ht hh.step).elim
  | spawn => exact (h.toSole.no_stream hrpc rfl ht hh.step).elim
  | join t' =>
    obtain ⟨rfl, rfl⟩ := h.own _ hrpc t job' pc ht halive
    exact ⟨rfl, hrpc, halive⟩
  | returned =>
    rw [hcounts.2.2 t job' pc ht] at halive
    cases halive

/-- Of the streaming task, only its end touches the flags of the job, once no `cancel` is
called. -/
theorem advanceStream_keepsFlags {t : ℕ} {ch : Choice} {c c' : Core} {pc pc' : StreamPc}
    (hadv : advanceStream t job ch c pc = some (c', pc'))
    (hgo : (Body.stream job pc).goesOn = true) (hend : ∀ err, pc ≠ .final err) :
    c'.jobRunning = c.jobRunning ∧ c'.aborted = c.aborted ∧ c'.ended = c.ended := by
  obtain ⟨hdebt, hmove⟩ := advanceStream_debt (n := 0) hadv
  constructor
  · cases hdebt with
    | same hrun => exact hrun
    | starts job hb => cases hb
    | takes hb =>
      cases pc with
      | cancelling pc e => cases hgo
      | _ => cases hb
    | pays hrun => exact hrun
    | closes job' err hb =>
      cases hb
      exact absurd rfl (hend err)
  · cases hmove with
    | keeps ha he => exact ⟨ha, he⟩
    | clears ha he => exact ⟨ha, he⟩
    | aborts t' hb => rcases hb with ⟨em, was, hb⟩ | ⟨job', hb⟩ <;> cases hb
    | ends job' err hb =>
      cases hb
      exact absurd rfl (hend err)
    | spawns job' hb => cases hb

/-- **A step of the streaming task.** -/
theorem Counting.stream_step {t : ℕ} {ch : Choice} {job' : Job} {pc : StreamPc}
    (h : Counting j job done₀ r) (hjob : job.OpsOrdered)
    (hh : HostStep (.task t ch) r.world w')
    (ht : r.world.sys.tasks[t]? = some (.stream job' pc))
    (hgo : (Body.stream job' pc).goesOn = true)
    (hcut : (Body.stream job' pc).cutsDrain r.world.core = false)
    (herr : ((Body.stream job' pc).tracks t r.world.core).isNone = true ∨
      ch.writeError.isNone = true) :
    Counting j job done₀ (r.after (.task t ch) w') := by
  obtain ⟨rfl, hrun, halive⟩ := h.joins hh ht
  obtain ⟨hlast, hdead, pc₀, ht₀, hstreams⟩ := h.counts _ hrun
  obtain rfl : pc = pc₀ := by
    have heq := ht.symm.trans ht₀
    simpa using heq
  have hstream := hstreams halive
  obtain ⟨b, c', b', spawned, hb, -, -, hadv₀, hw'⟩ := Sys.step_task hh.step
  obtain rfl : b = .stream job' pc := Option.some.inj (hb.symm.trans ht)
  obtain ⟨⟨c₁, pc'⟩, hadv, heq⟩ := Option.map_eq_some_iff.mp hadv₀
  obtain ⟨rfl, rfl, rfl⟩ : c₁ = c' ∧ b' = .stream job' pc' ∧ spawned = [] := by
    cases heq
    exact ⟨rfl, rfl, rfl⟩
  have hcore : w'.core = c₁ := congrArg Sys.core hw'
  have hpanel := advance_panel hadv₀
  have hacked : (r.after (.task t ch) w').ackedOps = r.ackedOps :=
    ackedOps_append rfl hh.heard h.heard_le
  obtain ⟨hordered, hnonneg, hahead⟩ :=
    hstream.ops_step w' hjob hgo ht hadv h.ordered h.nonneg
  -- no reset on this path: the entries keep their order with the lines on the wire
  have hkeeps : keepsStep r (.host (.task t ch)) = true := by
    have hresets : (Body.stream job' pc).resets = false := by
      cases pc with
      | recoverStart w => cases hgo
      | recoverReset w => exact hstream.out.elim
      | cancelling pc e => cases hgo
      | _ => rfl
    simp only [keepsStep, ht, Option.all_some, hresets, Bool.not_false, Bool.true_or,
      Bool.true_and, Bool.or_eq_true]
    exact herr
  refine ⟨h.toSole.step hh.step rfl, h.toInStep.host hh hkeeps, ?_, hordered, hnonneg,
    fun e he hsome => ?_, fun rpc hrpc => ?_⟩
  · rw [hacked, ← h.done]
    show w'.core.panel.done = r.world.core.panel.done
    rw [hcore, hpanel, touch_done]
    rfl
  -- a line of the job always names its operation
  · rcases List.mem_append.mp he with he | he
    · exact h.named e he hsome
    · rcases hstream.tracked ch hgo ht with ⟨s, -, htracked⟩ | ⟨-, htracked⟩
      · rw [htracked] at he
        rw [List.mem_singleton.mp he]
        rfl
      · rw [htracked] at he
        cases he
  · -- the run still waits
    have hne : ∀ ch', Label.task t ch ≠ .task j ch' := by
      intro ch' heq
      cases heq
      cases ht.symm.trans hrun
    obtain rfl : rpc = .join t := by
      simpa using hrpc.symm.trans (Sys.step_tasks hh.step hrun hne)
    have hlast' : w'.core.lastReportedOpIndex = r.world.core.lastReportedOpIndex := by
      rw [hcore]
      exact (congrArg Panel.lastReportedOpIndex hpanel).trans (touch_last _ _ (by simp))
    refine ⟨?_, fun hdead' => ?_, pc', ?_, fun halive₁ => ?_⟩
    · rw [hacked]
      exact hlast'.trans hlast
    · -- it has just ended, with nothing pending
      by_cases hend : ∃ err, pc = .final err
      · obtain ⟨err, rfl⟩ := hend
        have hpending : r.world.core.flow.pending = [] := by
          cases err with
          | none => exact hstream.out
          | some e => exact hstream.out.elim
        have htracked : r.world.sys.tracked (.task t ch) = none := by
          rcases hstream.tracked ch hgo ht with ⟨s, heq, -⟩ | ⟨-, htracked⟩
          · cases heq
          · exact htracked
        rw [owedOps_append (r := r) rfl hh.heard h.heard_le, htracked, Register.owedOps,
          h.toInStep.heard_all hpending]
        rfl
      · obtain ⟨-, haborted, hended⟩ :=
          advanceStream_keepsFlags hadv hgo fun err heq => hend ⟨err, heq⟩
        have hsame : w'.sys.alive t = r.world.sys.alive t := by
          rw [hw']
          simp only [Sys.alive, haborted, hended]
        rw [show w'.sys.alive t = false from hdead'] at hsame
        rw [halive] at hsame
        cases hsame
    · show w'.sys.tasks[t]? = some (.stream job' pc')
      have hlen : t < r.world.sys.tasks.length := (List.getElem?_eq_some_iff.mp ht).1
      rw [hw', List.getElem?_append_left (by rw [List.length_set]; exact hlen),
        List.getElem?_set_self hlen]
    · have hcancels : (Body.stream job' pc).cancels = false := by
        cases pc with
        | cancelling pc e => cases hgo
        | _ => rfl
      have hcancelled : w'.core.isCancelled = false := by
        rw [hcore]
        exact (advance_flags hadv₀).cancelled hcancels hstream.cancelled
      -- the invariant of the place the stream goes to
      rcases advanceStream_outOfDrain hadv hstream.out hstream.cancelled hgo hcut with
        hout | ⟨rfl, -⟩
      · have hend : ∀ err, pc ≠ .final err := by
          rintro err rfl
          cases hadv
          exact hout.elim
        obtain ⟨hrunning, -, -⟩ := advanceStream_keepsFlags hadv hgo hend
        refine ⟨?_, hcancelled, hahead, ?_⟩
        · show w'.core.jobRunning = true
          rw [hcore, hrunning]
          exact hstream.running
        · show pc'.outOfDrain w'.core
          rw [hcore]
          exact hout
      · -- it has ended
        have hended : t ∈ w'.core.ended := by
          rw [hcore]
          cases hadv
          exact List.mem_cons_self
        have hdead' : w'.sys.alive t = false := Sys.alive_eq_false.mpr (.inr hended)
        rw [show w'.sys.alive t = true from halive₁] at hdead'
        cases hdead'

end Host

/-! ### Deliveries, and the device -/

section Wire

variable {j : ℕ} {job : Job} {done₀ : List ℤ} {r : Register} {w' : World} {n : ℕ}

/-- If the acknowledgements of job lines are `ok`, they report the operations of their lines. -/
theorem filterMap_reportedOp : ∀ (as : List (GrblResponseType × Text))
    (es : List (Sent × Option ℤ)),
    (∀ p ∈ as.zip es, p.2.2.isSome = true → p.1.1 = .ok) →
    (as.mapIdx fun i a => (a.1, (es[i]?).map entryOf)).filterMap reportedOp
      = (es.take as.length).filterMap Prod.snd := by
  intro as
  induction as with
  | nil => exact fun es _ => rfl
  | cons a as ih =>
    intro es h
    cases es with
    | nil =>
      refine List.filterMap_eq_nil_iff.mpr fun p hp => ?_
      obtain ⟨i, hi, rfl⟩ := List.mem_mapIdx.mp hp
      simp [reportedOp]
    | cons e es =>
      have htail := ih es fun p hp => h p (List.mem_cons_of_mem _ hp)
      have hhead : reportedOp (a.1, some (entryOf e)) = e.2 := by
        unfold reportedOp
        cases hop : e.2 with
        | none =>
          split_ifs
          · exact hop
          · rfl
        | some op =>
          rw [if_pos (h (a, e) List.mem_cons_self (by rw [hop]; rfl))]
          exact hop
      rw [List.mapIdx_cons]
      show ((a.1, some (entryOf e)) :: _).filterMap reportedOp
        = (e :: es.take as.length).filterMap Prod.snd
      cases hop : e.2 with
      | none =>
        rw [List.filterMap_cons_none (hhead.trans hop), List.filterMap_cons_none hop]
        exact htail
      | some op =>
        rw [List.filterMap_cons_some (hhead.trans hop), List.filterMap_cons_some hop]
        exact congrArg _ htail

/-- **What a delivery reports**: the operations of the lines it acknowledges. -/
theorem Counting.reportedOps_parsed (h : Counting j job done₀ r) (hc : Clean [] r.world.emitted)
    (hs : World.step (.deliver n) r.world = some w') (hfirst : oksFirst (r.world.next n) = true)
    (hacked : r.jobAcked n = true) :
    reportedOps (r.world.parsed n) = ((r.ledger.drop r.world.heard).take
      (ackCount (r.world.parsed n))).filterMap Prod.snd := by
  obtain ⟨hattribution, hlength⟩ := h.toInStep.attribution hc hs hfirst
  unfold reportedOps
  rw [hattribution, ← hlength, ← filterMap_reportedOp]
  · simp only [List.getElem?_drop]
  · intro p hp hsome
    have hjob : p.2.1.isJobLine = true :=
      h.named p.2 (List.mem_of_mem_drop (List.of_mem_zip hp).2) hsome
    have hall := List.all_eq_true.mp hacked p hp
    rw [hjob] at hall
    simpa using hall

/-- The job is running while a line of it is outstanding. -/
theorem Counting.running (h : Counting j job done₀ r) :
    r.world.core.jobRunning = true ∨ r.owedOps = [] := by
  obtain ⟨pc, hpc⟩ := h.run
  have hcounts := h.counts pc hpc
  cases pc with
  | begin => exact .inr (Register.no_ops hcounts.1).2
  | abort => exact .inl hcounts.2.1
  | abortWait t => exact .inl hcounts.2.1
  | spawn => exact .inl hcounts.2.1
  | join t =>
    obtain ⟨-, hdead, pc, -, hstreams⟩ := hcounts
    cases halive : r.world.sys.alive t with
    | true => exact .inl (hstreams halive).running
    | false => exact .inr (hdead halive)
  | returned => exact .inr hcounts.2.1
  | _ => exact hcounts.elim

/-- The operation last reported is the highest one acknowledged, unless the job has not begun. -/
theorem Counting.last (h : Counting j job done₀ r) :
    r.world.core.lastReportedOpIndex = highest r.ackedOps ∨ r.sentOps = [] := by
  obtain ⟨pc, hpc⟩ := h.run
  have hcounts := h.counts pc hpc
  cases pc with
  | begin => exact .inr hcounts.1
  | abort => exact .inr hcounts.1
  | abortWait t => exact .inr hcounts.1
  | spawn => exact .inr hcounts.1
  | join t => exact .inl hcounts.1
  | returned => exact .inl hcounts.1
  | _ => exact hcounts.elim

/-- **A delivery.** -/
theorem Counting.deliver (h : Counting j job done₀ r) (hc : Clean [] r.world.emitted)
    (hs : World.step (.deliver n) r.world = some w') (hfirst : oksFirst (r.world.next n) = true)
    (hjobAcked : r.jobAcked n = true) : Counting j job done₀ ⟨w', r.ledger⟩ := by
  have hops := h.reportedOps_parsed hc hs hfirst hjobAcked
  have hcore : w'.core = r.world.core.handleRx (r.world.chunk n) := (deliver_lines hs).1
  obtain ⟨u, hrx, hw'⟩ := Option.map_eq_some_iff.mp hs
  have hsys : u = w'.sys := by rw [← hw']
  rw [hsys] at hrx
  have hheard : w'.heard = r.world.heard + ackCount (r.world.parsed n) := by rw [← hw']
  -- the acknowledged lines are the first of those outstanding
  have hacked : Register.ackedOps ⟨w', r.ledger⟩
      = r.ackedOps ++ reportedOps (r.world.parsed n) := by
    unfold Register.ackedOps
    rw [hops, hheard, List.take_add, List.filterMap_append]
  have howed : r.owedOps = reportedOps (r.world.parsed n) ++ Register.owedOps ⟨w', r.ledger⟩ := by
    unfold Register.owedOps
    rw [hops, hheard, ← List.drop_drop, ← List.filterMap_append, List.take_append_drop]
  have hrunning : r.world.core.jobRunning = true ∨
      reportedOps (r.world.core.flow.parseExtracted (r.world.chunk n)).2 = [] := by
    refine h.running.imp id fun hnil => ?_
    rw [hnil] at howed
    exact (List.append_eq_nil_iff.mp howed.symm).1
  obtain ⟨hlast, hdone⟩ := handleRx_progress hrunning
  rw [← hcore] at hlast hdone
  have hsent : r.ackedOps ++ reportedOps (r.world.parsed n)
      ++ Register.owedOps ⟨w', r.ledger⟩ = r.sentOps := by
    rw [List.append_assoc, ← howed, r.sentOps_eq]
  have hcount : Register.done ⟨w', r.ledger⟩
      = done₀ ++ upTo (highest (Register.ackedOps ⟨w', r.ledger⟩)) ∧
      (r.world.core.lastReportedOpIndex = highest r.ackedOps →
        w'.core.lastReportedOpIndex = highest (Register.ackedOps ⟨w', r.ledger⟩)) := by
    have hordered := h.ordered
    rw [← hsent] at hordered
    obtain ⟨hupTo, hmark⟩ := upTo_append_reports (List.pairwise_append.mp hordered).1
      fun a ha => h.nonneg a (by
        rw [← hsent]
        exact List.mem_append_left _ (List.mem_append_right _ ha))
    refine ⟨?_, fun hlast₀ => ?_⟩
    · show w'.core.panel.done = _
      rw [hdone, hacked]
      show r.done ++ reports _ (reportedOps (r.world.parsed n)) = _
      rw [h.done, List.append_assoc]
      refine congrArg _ ?_
      rcases h.last with hlast₀ | hnil
      · rw [hlast₀]
        exact hupTo
      · obtain ⟨-, hnone⟩ := Register.no_ops hnil
        rw [hnone] at howed
        rw [(List.append_eq_nil_iff.mp howed.symm).1, List.append_nil]
        exact List.append_nil _
    · rw [hlast, hlast₀, hacked]
      exact hmark
  have hframe := handleRx_frame (r.world.chunk n) r.world.core
  rw [← hcore] at hframe
  have halive : ∀ t, w'.sys.alive t = r.world.sys.alive t := by
    intro t
    show (!w'.core.aborted.contains t && !w'.core.ended.contains t) = _
    rw [hframe.aborted, hframe.ended]
    rfl
  have htasks : w'.sys.tasks = r.world.sys.tasks := by
    rw [(Sys.step_rx hrx).2]
  have hstep : InStep ⟨w', r.ledger⟩ := h.toInStep.deliver hc hs rfl
  refine ⟨h.toSole.step hrx rfl, hstep, hcount.1, h.ordered, h.nonneg, h.named,
    fun pc hpc => ?_⟩
  have hpc₀ : r.world.sys.tasks[j]? = some (.run job pc) := by
    rw [← htasks]
    exact hpc
  have hcounts := h.counts pc hpc₀
  have hwaits := Sys.step_waits (b := .run job pc) hrx nofun (h.waits j _ hpc₀)
  cases pc with
  | begin => cases hwaits
  | abort => cases hwaits
  | spawn => cases hwaits
  | rawNext realtime => exact hcounts
  | rawWriting realtime err => exact hcounts
  | abortWait t =>
    obtain ⟨hnil, hrun, hcancelled, hlast₀⟩ := hcounts
    obtain ⟨-, hnone⟩ := Register.no_ops hnil
    rw [hnone] at howed
    refine ⟨hnil, hframe.jobRunning.trans hrun, hframe.isCancelled.trans hcancelled, ?_⟩
    have hnothing : reportedOps (r.world.core.flow.parseExtracted (r.world.chunk n)).2 = [] :=
      (List.append_eq_nil_iff.mp howed.symm).1
    show w'.core.lastReportedOpIndex = -1
    rw [hlast, hnothing]
    exact hlast₀
  | join t =>
    obtain ⟨hlast₀, hdead, pc, ht, hstreams⟩ := hcounts
    refine ⟨hcount.2 hlast₀, fun ht' => ?_, pc, ?_, fun ht' => ?_⟩
    · rw [hdead ((halive t).symm.trans ht')] at howed
      exact (List.append_eq_nil_iff.mp howed.symm).2
    · show w'.sys.tasks[t]? = _
      rw [htasks]
      exact ht
    · have hstream := hstreams ((halive t).symm.trans ht')
      exact ⟨hframe.jobRunning.trans hstream.running,
        hframe.isCancelled.trans hstream.cancelled, hstream.ahead,
        outOfDrain_of_suspended hstream.out
          (Sys.step_waits (b := .stream job pc) hrx nofun (h.waits t _ ht))⟩
  | returned =>
    obtain ⟨hlast₀, hnone, hdead⟩ := hcounts
    rw [hnone] at howed
    refine ⟨hcount.2 hlast₀, (List.append_eq_nil_iff.mp howed.symm).2, fun t job' pc ht => ?_⟩
    rw [halive t]
    refine hdead t job' pc ?_
    rw [← htasks]
    exact ht

/-- The device leaves the session alone. -/
theorem Counting.device {l : WorldLabel} (h : Counting j job done₀ r)
    (hs : World.step l r.world = some w') (hd : DeviceStep r.world w') :
    Counting j job done₀ ⟨w', r.ledger⟩ := by
  have hstep : InStep ⟨w', r.ledger⟩ := h.toInStep.device hs hd
  obtain ⟨hsole, -, hdone, hordered, hnonneg, hnamed, hcounts⟩ := h
  obtain ⟨⟨sys, removed, emitted, pipe, heard, idle⟩, ledger⟩ := r
  obtain ⟨sys', removed', emitted', pipe', heard', idle'⟩ := w'
  obtain rfl : sys' = sys := hd.sys
  obtain rfl : heard' = heard := hd.heard
  refine ⟨hsole, hstep, hdone, hordered, hnonneg, hnamed, fun pc hpc => ?_⟩
  have hcount := hcounts pc hpc
  cases pc with
  | join t =>
    obtain ⟨hlast, hdead, pc, ht, hstreams⟩ := hcount
    refine ⟨hlast, hdead, pc, ht, fun halive => ?_⟩
    obtain ⟨hrunning, hcancelled, hahead, hout⟩ := hstreams halive
    exact ⟨hrunning, hcancelled, hahead, hout⟩
  | _ => exact hcount

end Wire

/-! ### Whole runs -/

section Runs

variable {j : ℕ} {job : Job} {done₀ : List ℤ} {r r' : Register}

/-- A settled task other than a streaming task resets no accounting, unless it cancels. -/
theorem resets_of_settled {b : Body} (hsettled : b.settled = true) (hgo : b.goesOn = true)
    (hstream : b.isStream = false) : b.resets = false := by
  cases b with
  | stream job pc => cases hstream
  | cancel em pc => cases hgo
  | run job pc => cases pc <;> first | rfl | cases hsettled
  | link on pc => cases pc <;> first | (cases on <;> rfl) | cases hsettled
  | _ => rfl

/-- **What a step of the session keeps.** -/
theorem Counting.host {l : Label} {w' : World} (h : Counting j job done₀ r)
    (hjob : job.OpsOrdered) (hh : HostStep l r.world w')
    (hgo : jobGoesOn r (.host l) = true) (hok : reportsProgress r (.host l) = true) :
    Counting j job done₀ (r.after l w') := by
  by_cases htask : ∃ i ch, l = .task i ch
  · obtain ⟨i, ch, rfl⟩ := htask
    obtain ⟨b, c', b', spawned, hb, -, -, hadv, hw'⟩ := Sys.step_task hh.step
    simp only [jobGoesOn, hb, Option.all_some] at hgo
    simp only [reportsProgress, hb, Option.all_some, Bool.and_eq_true, Bool.or_eq_true,
      Bool.not_eq_true'] at hok
    by_cases hij : i = j
    · subst hij
      exact h.run_step hh
    -- the stream of the job, or a task that tracks commands of its own
    · cases hstream : b.isStream with
      | true =>
        cases b with
        | stream job' pc => exact h.stream_step hjob hh hb hgo hok.2 hok.1
        | _ => cases hstream
      | false =>
        have hsettled := h.others i b hij hb
        have hops : ∀ e op, r.world.sys.tracked (.task i ch) ≠ some (e, some op) := by
          intro e op htracked
          simp only [Sys.tracked, hb, Option.bind_some] at htracked
          obtain ⟨job', s, rfl, -⟩ := tracks_op htracked
          cases hstream
        refine h.aside hh rfl ?_ (still_of_task hadv (congrArg Sys.core hw') hsettled hgo hstream)
          hops (fun ch' heq => hij (by cases heq; rfl)) fun t ch' job' pc heq ht => ?_
        · simp only [keepsStep, hb, Option.all_some, resets_of_settled hsettled hgo hstream,
            Bool.not_false, Bool.true_or, Bool.true_and, Bool.or_eq_true]
          exact hok.1
        · cases heq
          cases hb.symm.trans ht
          cases hstream
  · have hne : ∀ i ch, l ≠ .task i ch := fun i ch heq => htask ⟨i, ch, heq⟩
    have hkeep : l.keepsJob = true := by
      cases l with
      | call op => cases op <;> first | rfl | cases hgo
      | _ => rfl
    have hkeeps : keepsStep r (.host l) = true := by
      cases l with
      | task i ch => exact absurd rfl (hne i ch)
      | _ => rfl
    have hops : ∀ e op, r.world.sys.tracked l ≠ some (e, some op) := by
      cases l with
      | task i ch => exact absurd rfl (hne i ch)
      | _ => exact fun e op h => (by cases h)
    exact h.aside hh hkeep hkeeps (still_of_outside hh.step hne hh.not_rx) hops
      (fun ch => hne j ch) fun t ch job' pc heq => absurd heq (hne t ch)

/-- **What one step keeps.** -/
theorem Counting.step {l : WorldLabel} (h : Counting j job done₀ r) (hjob : job.OpsOrdered)
    (hc : Clean [] r.world.emitted) (hs : Register.step l r = some r')
    (hgo : jobGoesOn r l = true) (hok : reportsProgress r l = true) :
    Counting j job done₀ r' := by
  obtain ⟨w', hw, rfl⟩ := Option.map_eq_some_iff.mp hs
  have hdevice : DeviceStep r.world w' → Register.tracked l r.world = none →
      Counting j job done₀ ⟨w', r.ledger ++ (Register.tracked l r.world).toList⟩ := by
    intro hd hnone
    rw [hnone]
    exact (List.append_nil r.ledger).symm ▸ h.device hw hd
  cases l with
  | host l => exact h.host hjob (step_host hw) hgo hok
  | deliver n => exact (List.append_nil r.ledger).symm ▸ h.deliver hc hw hok hgo
  | _ =>
    rcases step_cases hw with ⟨l', hl, -⟩ | ⟨n, hl⟩ | hd
    · cases hl
    · cases hl
    · exact hdevice hd rfl

/-- A session at rest keeps step with its device. -/
theorem InStep.of_rested {w : World} (h : Rested w) : InStep (Register.of w) where
  hears := h.hears
  lines := by
    show (w.lines.map fun e => (e, none)).map Prod.fst = w.lines
    rw [List.map_map]
    exact List.map_id _
  pending := by
    show w.core.flow.pending = ((w.lines.map fun e => (e, none)).drop w.heard).map entryOf
    rw [h.pending, h.heard, List.drop_of_length_le (by rw [List.length_map])]
    rfl

/-- The call of the run. -/
theorem Counting.of_call {w₀ : World} (h0 : Rested w₀)
    (hcall : Register.step (.host (.call (.run job))) (Register.of w₀) = some r) :
    Counting w₀.sys.tasks.length job w₀.core.panel.done r := by
  obtain ⟨w, hw, rfl⟩ := Option.map_eq_some_iff.mp hcall
  have hh := step_host hw
  have hsys : w.sys =
      ⟨w₀.core, w₀.sys.tasks ++ [.run job .begin], some w₀.sys.tasks.length⟩ := by
    have hstep := hh.step
    simp only [Sys.step] at hstep
    split_ifs at hstep
    exact (Option.some.inj hstep).symm
  have hcore : w.core = w₀.core := by
    show w.sys.core = w₀.core
    rw [hsys]
  have hsole : Sole w₀.sys.tasks.length job w.sys := .of_call h0.steady rfl hh.step
  -- the lines of the past name no operation of this job
  have hnone : ∀ ls : List Sent, (ls.map fun e => (e, (none : Option ℤ))).filterMap Prod.snd = [] := by
    intro ls
    rw [List.filterMap_map]
    exact List.filterMap_eq_nil_iff.mpr fun _ _ => rfl
  have hledger : (⟨w, (Register.of w₀).ledger ++ []⟩ : Register)
      = ⟨w, w₀.lines.map fun e => (e, none)⟩ := by
    rw [List.append_nil]
    rfl
  show Counting _ _ _ ⟨w, (Register.of w₀).ledger ++ []⟩
  rw [hledger]
  have hsent : Register.sentOps ⟨w, w₀.lines.map fun e => (e, none)⟩ = [] := hnone _
  obtain ⟨hacked, -⟩ := Register.no_ops hsent
  refine ⟨hsole, (InStep.of_rested h0).congr hh rfl (hcore ▸ .refl _), ?_, ?_, ?_, ?_,
    fun pc hpc => ?_⟩
  · rw [hacked]
    show w.core.panel.done = _
    rw [hcore]
    exact (List.append_nil _).symm
  · rw [hsent]
    exact .nil
  · rw [hsent]
    exact fun _ h => absurd h List.not_mem_nil
  · intro e he hsome
    obtain ⟨e', -, rfl⟩ := List.mem_map.mp he
    cases hsome
  · obtain rfl : pc = .begin := by
      have hlast : w.sys.tasks[w₀.sys.tasks.length]? = some (.run job .begin) := by
        rw [hsys, List.getElem?_append_right (Nat.le_refl _), Nat.sub_self]
        rfl
      have heq := hpc.symm.trans hlast
      simpa using heq
    refine ⟨hsent, ?_⟩
    show w.core.flow.pending = []
    rw [hcore]
    exact h0.pending

/-- The number of the first line sent with an operation of at least `i`. -/
def Register.firstLine (i : ℤ) (r : Register) : ℕ :=
  r.ledger.findIdx fun e => e.2.any fun op => decide (i ≤ op)

/-- **What is claimed of the progress of the job of run `j`**: the operations reported since are
those up to the highest one of a line acknowledged, each once and in order; none is reported before
the first line with an operation at least as high is acknowledged; and once the run has returned
all its lines are. -/
structure ReportsOnce (j : ℕ) (job : Job) (done₀ : List ℤ) (r : Register) : Prop where
  reported : r.done = done₀ ++ upTo (highest r.ackedOps)
  notBefore : ∀ i ∈ upTo (highest r.ackedOps), r.firstLine i < r.world.heard
  complete : r.world.sys.tasks[j]? = some (.run job .returned) → r.ackedOps = r.sentOps

theorem Counting.reportsOnce (h : Counting j job done₀ r) : ReportsOnce j job done₀ r := by
  refine ⟨h.done, fun i hi => ?_, fun hreturned => ?_⟩
  · obtain ⟨a, ha, hle⟩ := exists_of_mem_upTo hi
    obtain ⟨e, he, hop⟩ := List.mem_filterMap.mp ha
    obtain ⟨k, hk, hget⟩ := List.mem_iff_getElem.mp he
    rw [List.length_take] at hk
    refine Nat.lt_of_le_of_lt ?_ (Nat.lt_of_lt_of_le hk (Nat.min_le_left _ _))
    by_contra hlt
    have hfalse := List.not_of_lt_findIdx (Nat.lt_of_not_le hlt)
    rw [List.getElem_take] at hget
    rw [hget, show e.2 = some a from hop] at hfalse
    simp [hle] at hfalse
  · obtain ⟨-, hnone, -⟩ := h.counts _ hreturned
    rw [r.sentOps_eq, hnone, List.append_nil]

/-- **Progress is reported once for each operation**, in every run of a job without `cancel` and
recovery whose lines are acknowledged by `ok`, if no tracked write fails, no chunk holds an error
before an `ok`, and no Alarm cuts the wait for the pending acknowledgements short. -/
theorem progress_reported_once {w₀ : World} {r₁ : Register} (h0 : Rested w₀)
    (hjob : job.OpsOrdered)
    (hcall : Register.step (.host (.call (.run job))) (Register.of w₀) = some r₁)
    (hrun : Run Register.step
      (fun r l _ => jobGoesOn r l = true ∧ reportsProgress r l = true) r₁ r)
    (hclean : Clean [] r.world.emitted) :
    ReportsOnce w₀.sys.tasks.length job w₀.core.panel.done r := by
  have hback : ∀ a l b, Register.step l a = some b →
      (jobGoesOn a l = true ∧ reportsProgress a l = true) → Clean [] b.world.emitted →
      Clean [] a.world.emitted := by
    intro a l b hs _ hb
    obtain ⟨ext, hext⟩ := register_emitted hs
    rw [← hext] at hb
    exact hb.left
  have hrun' := hrun.strengthen (P := fun r => Clean [] r.world.emitted) hback hclean
  refine (hrun'.invariant (I := Counting w₀.sys.tasks.length job w₀.core.panel.done) ?_
    (.of_call h0 hcall)).reportsOnce
  rintro a l b hI hs ⟨⟨hgo, hok⟩, hb⟩
  exact hI.step hjob (hback a l b hs ⟨hgo, hok⟩ hb) hs hgo hok

end Runs

/-! ### Runs of a fixed job -/

theorem rested_newWorld : Rested newWorld where
  steady := steady_newSession
  hears := (InStep.of_connected newWorld_connected).hears
  heard := rfl
  pending := rfl

/-- A job of two lines, and a comment between them; the operations have a gap. -/
def gapJob : Job :=
  { lines := ["G1 X1".toList, "; pause".toList, "G1 X2".toList], opMap := some [(0, 0), (2, 2)] }

theorem opsOrdered_gapJob : gapJob.OpsOrdered := by
  have hops : ∀ i a, gapJob.opIndex i = some a → a = i := by
    intro i a h
    match i with
    | 0 => cases h; rfl
    | 1 => cases h
    | 2 => cases h; rfl
    | i + 3 => cases h
  refine ⟨fun i a h => ?_, fun i k a b hik ha hb => ?_⟩
  · rw [hops i a h]
    exact Int.natCast_nonneg i
  · rw [hops i a ha, hops k b hb]
    exact Int.ofNat_le.mpr hik

/-- The job is called. -/
def gapCalled : Register :=
  reach Register.step [.host (.call (.run gapJob))] (Register.of newWorld)

/-- Both lines are sent and acknowledged, and the run returns. -/
def gapRun : List WorldLabel :=
  (turns 0 3 ++ turns 1 21).map .host ++ [.remove, .answer (.ok 0 1), .deliver 4] ++
    [.remove, .answer (.ok 0 1), .deliver 4] ++ (turns 1 4 ++ turns 0 1).map .host

/-- The operations of the job with the gap, the one in between among them: the general result. -/
theorem progress_reported_once_gapJob :
    ReportsOnce 0 gapJob [] (reach Register.step gapRun gapCalled) ∧
      (reach Register.step gapRun gapCalled).done = [0, 1, 2] := by
  have hcall : Register.step (.host (.call (.run gapJob))) (Register.of newWorld)
      = some gapCalled := rfl
  have hrun : Run Register.step
      (fun r l _ => (jobGoesOn r l && reportsProgress r l) = true) gapCalled
      (reach Register.step gapRun gapCalled) := run_reach_where (by decide +kernel)
  have hemitted : (reach Register.step gapRun gapCalled).world.emitted = [.ok 0 1, .ok 0 1] := by
    decide +kernel
  refine ⟨progress_reported_once rested_newWorld opsOrdered_gapJob hcall
    (hrun.mono fun a l b hok => by simpa using hok) ?_, by decide +kernel⟩
  rw [hemitted]
  exact (by decide : ¬ errorMarker <:+: [])

/-- The report of an Alarm. -/
def alarmReport : InfoLine where
  bytes := ascii "<Alarm|MPos:0.000,0.000,0.000>"
  text := "<Alarm|MPos:0.000,0.000,0.000>".toList
  crlf := false
  decoded := by decide
  nonempty := by decide
  trimmed := by decide
  no_CR := by decide
  no_LF := by decide
  no_NUL := by decide
  no_ok := by decide
  no_error := by decide

/-- A job of one line is called. -/
def oneOpCalled : Register :=
  reach Register.step [.host (.call (.run oneOp))] (Register.of newWorld)

theorem opsOrdered_oneOp : oneOp.OpsOrdered := by
  have hops : ∀ i a, oneOp.opIndex i = some a → a = 0 := by
    intro i a h
    match i with
    | 0 => cases h; rfl
    | i + 1 => cases h
  refine ⟨fun i a h => (hops i a h).ge, fun i k a b _ ha hb => ?_⟩
  rw [hops i a ha, hops k b hb]

/-- The line of the job is being written when the report arrives; the job ends, and then the
device acknowledges the line. -/
def alarmRun : List WorldLabel :=
  (turns 0 3 ++ turns 1 6).map .host ++ (infoStream [alarmReport]).map .say ++ [.deliver 31] ++
    (turns 1 7).map .host ++ [.remove, .answer (.ok 0 1), .deliver 4]

/-- The state after that run. -/
def alarmed : Register := reach Register.step alarmRun oneOpCalled

/-- **A report is lost**: the job is reported finished, its only line is acknowledged by `ok`, and
its operation is never reported. -/
theorem progress_lost :
    ¬ ∀ (job : Job) (w₀ : World) (r₁ r : Register), Rested w₀ → job.OpsOrdered →
      Register.step (.host (.call (.run job))) (Register.of w₀) = some r₁ →
      Run Register.step (fun r l _ => jobGoesOn r l = true) r₁ r → Clean [] r.world.emitted →
      ReportsOnce w₀.sys.tasks.length job w₀.core.panel.done r := by
  intro h
  have hrun : Run Register.step (fun r l _ => jobGoesOn r l = true) oneOpCalled alarmed :=
    run_reach_where (by decide +kernel)
  have hclean : Clean [] alarmed.world.emitted := by
    have hemitted : alarmed.world.emitted
        = (infoStream [alarmReport]).map .byte ++ [.ok 0 1] := by decide +kernel
    have hinfo : [] ++ info ((infoStream [alarmReport]).map .byte ++ [.ok 0 1])
        = infoStream [alarmReport] := by
      rw [info_append, info_bytes]
      exact List.append_nil _
    rw [hemitted]
    refine clean_of_infoStream List.not_mem_nil hinfo fun t ht => ?_
    rcases List.mem_append.mp ht with ht | ht
    · obtain ⟨b, -, rfl⟩ := List.mem_map.mp ht
      trivial
    · rw [List.mem_singleton.mp ht]
      trivial
  have hcall : Register.step (.host (.call (.run oneOp))) (Register.of newWorld)
      = some oneOpCalled := rfl
  have hreports := (h oneOp newWorld oneOpCalled alarmed rested_newWorld opsOrdered_oneOp hcall
    hrun hclean).reported
  exact absurd hreports (by decide +kernel)

end Raydriver
