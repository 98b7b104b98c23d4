import Raydriver.Grbl.Ghosts
import Raydriver.Grbl.Overflow

/-!
# The accounting and the wire

An acknowledgement says nothing about the line it answers: the flow control pops the
oldest entry.  That is the entry of the line only as long as the entries and the lines
whose acknowledgement has not been heard keep step.

`start_job` empties the accounting and leaves the device alone.  What was outstanding then
is answered later, and pops what the job has written in the meantime.

## Main definitions

* `Register` — the session and its device, with the lines in the order they were tracked.
* `World.next n` — the acknowledgements the next `n` bytes complete.
* `keepsStep` — the step does not bring the entries out of step.
* `InStep` — the invariant.

## Main results

* `InStep.step` — what one step keeps.
* `acks_pop_own_entries` — **every acknowledgement pops the entry of the line it
  acknowledges** on such runs.
* `old_ack_pops_job_line` — a job started with a command outstanding is out of step.
-/

namespace Raydriver

open Lts FlowInner

/-- The entry of a line that is tracked. -/
def entryOf (e : Sent × Option ℤ) : PendingCommand :=
  ⟨e.1.size, e.2, trimEnd e.1.payload⟩

/-- The line that the next step of the session tracks, with its op index. -/
def Sys.tracked (l : Label) (s : Sys) : Option (Sent × Option ℤ) :=
  match l with
  | .task i _ => (s.tasks[i]?).bind fun b => b.tracks i s.core
  | _ => none

/-- The world, with the lines in the order in which they were tracked. -/
structure Register where
  world : World
  ledger : List (Sent × Option ℤ) := []

namespace Register

/-- The line that a step of the world tracks. -/
def tracked (l : WorldLabel) (w : World) : Option (Sent × Option ℤ) :=
  match l with
  | .host l => w.sys.tracked l
  | _ => none

/-- One step of the world, with the line it tracks. -/
def step (l : WorldLabel) (r : Register) : Option Register :=
  (World.step l r.world).map fun w =>
    { world := w, ledger := r.ledger ++ (tracked l r.world).toList }

end Register

/-! ### The condition -/

/-- The acknowledgements, as they stand on the wire, that the next `n` bytes complete. -/
def World.next (n : ℕ) (w : World) : List (GrblResponseType × Text) :=
  ((acksOf w.emitted).drop w.heard).take (ackCount (w.parsed n))

/-- No error stands before an `ok`. -/
def oksFirst (as : List (GrblResponseType × Text)) : Bool :=
  decide ((as.map Prod.fst).Pairwise fun a b => ¬ (a = .error ∧ b = .ok))

/-- The task may reset the accounting: nothing is pending, and no line is partly received
if the parse buffer is cleared too. -/
def Body.mayReset (c : Core) : Body → Bool
  | .run _ _ => c.flow.pending.isEmpty
  | _ => c.flow.pending.isEmpty && c.flow.statusBuffer.isEmpty

/-- The step does not bring the entries out of step: no job is started, and nothing else
resets the accounting, while a line is pending; no tracked write fails; and no chunk holds
an error before an `ok`. -/
def keepsStep (r : Register) (l : WorldLabel) : Bool :=
  match l with
  | .host (.task i ch) => (r.world.sys.tasks[i]?).all fun b =>
    (!b.resets || b.mayReset r.world.core) &&
      ((b.tracks i r.world.core).isNone || ch.writeError.isNone)
  | .deliver n => oksFirst (r.world.next n)
  | _ => true

/-! ### The invariant -/

/-- The entries are those of the lines whose acknowledgement has not been heard. -/
structure InStep (r : Register) : Prop where
  hears : ∃ ts us p win, Heard r.world ts us p ∧ Tracks r.world win
  lines : r.ledger.map Prod.fst = r.world.lines
  pending : r.world.core.flow.pending = (r.ledger.drop r.world.heard).map entryOf

section InStep

variable {r r' : Register} {l : WorldLabel}

theorem InStep.of_connected {w : World} (h : Connected w) : InStep ⟨w, []⟩ where
  hears := ⟨_, _, _, Window.empty, .of_bytes rfl h.buffer h.emitted h.heard,
    by rw [World.lines, World.core, h.ready.sent]; rfl, h.removed.symm,
    by rw [h.emitted, answers_bytes]; rfl, h.heard.symm⟩
  lines := by rw [World.lines, World.core, h.ready.sent]; rfl
  pending := by
    rw [World.core, h.ready.pending]
    simp

/-- The session has heard of no line that was not tracked. -/
theorem InStep.heard_le (h : InStep r) : r.world.heard ≤ r.ledger.length := by
  obtain ⟨-, -, -, win, -, htracks⟩ := h.hears
  have hlen : r.ledger.length = r.world.lines.length := by
    rw [← h.lines, List.length_map]
  rw [hlen, ← htracks.heard, ← htracks.written]
  exact win.heard_le_length

/-- A step of the session that leaves the ledger alone. -/
theorem InStep.congr {l' : Label} (h : InStep r) (hh : HostStep l' r.world r'.world)
    (hledger : r'.ledger = r.ledger) (hs : SameLedger r.world.core r'.world.core) :
    InStep r' := by
  obtain ⟨ts, us, p, win, hheard, htracks⟩ := h.hears
  have hlines : r'.world.lines = r.world.lines := hs.lines
  refine ⟨⟨ts, us, p, win, hheard.host hh.emitted hh.pipe hh.heard hs.books.statusBuffer,
    htracks.written.trans hlines.symm, htracks.removed.trans hh.removed.symm,
    htracks.answered.trans (congrArg answers hh.emitted.symm),
    htracks.heard.trans hh.heard.symm⟩, ?_, ?_⟩
  · rw [hledger, hlines]
    exact h.lines
  · rw [hs.books.pending, hledger, hh.heard]
    exact h.pending

/-- A line is tracked, and written. -/
theorem InStep.tracks {l' : Label} {e : Sent} {op : Option ℤ} (h : InStep r)
    (hh : HostStep l' r.world r'.world) (hledger : r'.ledger = r.ledger ++ [(e, op)])
    (he : e.isLine = true)
    (hs : SameLedger (r.world.core.sendTracked e.origin e.payload op none) r'.world.core) :
    InStep r' := by
  obtain ⟨ts, us, p, win, hheard, htracks⟩ := h.hears
  have hlines : r'.world.lines = r.world.lines ++ [e] :=
    hs.lines.trans (lines_of_sendTracked r.world.core he op none)
  refine ⟨⟨ts, us, p, win.write e, hheard.host hh.emitted hh.pipe hh.heard hs.books.statusBuffer,
    ?_, htracks.removed.trans hh.removed.symm,
    htracks.answered.trans (congrArg answers hh.emitted.symm),
    htracks.heard.trans hh.heard.symm⟩, ?_, ?_⟩
  · rw [hlines, ← htracks.written]
    rfl
  · rw [hledger, hlines, List.map_append, h.lines]
    rfl
  · rw [hs.books.pending, hledger, hh.heard, List.drop_append_of_le_length h.heard_le, List.map_append,
      ← h.pending]
    rfl

/-- With nothing pending, every line has been heard of. -/
theorem InStep.heard_all (h : InStep r) (hp : r.world.core.flow.pending = []) :
    r.ledger.drop r.world.heard = [] := by
  have hpending := h.pending
  rw [hp] at hpending
  exact List.map_eq_nil_iff.mp hpending.symm

/-- The accounting is reset, with nothing pending. -/
theorem InStep.resets {l' : Label} (h : InStep r) (hh : HostStep l' r.world r'.world)
    (hledger : r'.ledger = r.ledger) (hp : r.world.core.flow.pending = [])
    (hlines : r'.world.lines = r.world.lines) (hp' : r'.world.core.flow.pending = [])
    (hb : r'.world.core.flow.statusBuffer = r.world.core.flow.statusBuffer) : InStep r' := by
  obtain ⟨ts, us, p, win, hheard, htracks⟩ := h.hears
  refine ⟨⟨ts, us, p, win, hheard.host hh.emitted hh.pipe hh.heard hb,
    htracks.written.trans hlines.symm, htracks.removed.trans hh.removed.symm,
    htracks.answered.trans (congrArg answers hh.emitted.symm),
    htracks.heard.trans hh.heard.symm⟩, ?_, ?_⟩
  · rw [hledger, hlines]
    exact h.lines
  · rw [hp', hledger, hh.heard, h.heard_all hp]
    rfl

/-- A reset of the accounting by a task that may make it. -/
theorem InStep.reset {i : ℕ} {ch : Choice} {b : Body} (h : InStep r)
    (hh : HostStep (.task i ch) r.world r'.world) (hledger : r'.ledger = r.ledger)
    (hb : r.world.sys.tasks[i]? = some b) (hmay : b.mayReset r.world.core = true)
    (hresets : b.resets = true)
    (hs : SameLedger r.world.core.resetFlowControl r'.world.core ∨
      SameLedger r.world.core.resetFlow r'.world.core) : InStep r' := by
  have hlines : r'.world.lines = r.world.lines := by
    rcases hs with hs | hs <;> exact hs.lines
  have hpending' : r'.world.core.flow.pending = [] := by
    rcases hs with hs | hs <;> exact hs.books.pending
  by_cases hrun : ∃ job pc, b = .run job pc
  · -- `start_job` keeps the parse buffer
    obtain ⟨job, pc, rfl⟩ := hrun
    have hpending : r.world.core.flow.pending = [] := List.isEmpty_iff.mp hmay
    obtain ⟨b₀, c', b', spawned, hb₀, -, -, hadv, hsys⟩ := Sys.step_task hh.step
    obtain rfl : b₀ = .run job pc := Option.some.inj (hb₀.symm.trans hb)
    have hcore : r'.world.core = c' := congrArg Sys.core hsys
    cases pc with
    | begin =>
      cases hadv
      exact h.resets hh hledger hpending hlines hpending' (by rw [hcore]; rfl)
    | _ => cases hresets
  -- the other resets empty the parse buffer, which holds nothing
  · have hempty : r.world.core.flow.pending = [] ∧ r.world.core.flow.statusBuffer = [] := by
      have hmay' : (r.world.core.flow.pending.isEmpty &&
          r.world.core.flow.statusBuffer.isEmpty) = true := by
        cases b with
        | run job pc => exact absurd ⟨job, pc, rfl⟩ hrun
        | _ => exact hmay
      rw [Bool.and_eq_true, List.isEmpty_iff, List.isEmpty_iff] at hmay'
      exact hmay'
    have hbuffer : r'.world.core.flow.statusBuffer = r.world.core.flow.statusBuffer := by
      rcases hs with hs | hs
      · exact hs.books.statusBuffer
      · rw [hs.books.statusBuffer, hempty.2]
        rfl
    exact h.resets hh hledger hempty.1 hlines hpending' hbuffer

/-- A delivery strikes out the entries of the lines acknowledged. -/
theorem InStep.deliver {n : ℕ} (h : InStep r) (hc : Clean [] r.world.emitted)
    (hs : World.step (.deliver n) r.world = some r'.world) (hledger : r'.ledger = r.ledger) :
    InStep r' := by
  obtain ⟨ts, us, p, win, hheard, htracks⟩ := h.hears
  obtain ⟨vs, vs', q, -, hheard', -, -⟩ := hheard.deliver hc hs
  obtain ⟨hcore, hlines⟩ := deliver_lines hs
  obtain ⟨win', htracks', -⟩ := htracks.step (fun _ _ => True) hs hheard'.le (.inl hlines)
  have hn : r'.world.heard = r.world.heard + ackCount (r.world.parsed n) := by
    obtain ⟨s, -, heq⟩ := Option.map_eq_some_iff.mp hs
    rw [← heq]
  refine ⟨⟨_, _, _, win', hheard', htracks'⟩, ?_, ?_⟩
  · rw [hledger, hlines]
    exact h.lines
  · have hpending := (handleRx_flow (r.world.chunk n) r.world.core).1.pending.trans
      (parseExtracted_accounted (r.world.chunk n) r.world.core.flow).pending
    rw [hcore, hpending, h.pending, hledger, hn, ← List.map_drop, List.drop_drop]
    rfl

/-- **A chunk without an error before an `ok` pops the entries of the lines it acknowledges.** -/
theorem InStep.attribution {n : ℕ} {w : World} (h : InStep r) (hc : Clean [] r.world.emitted)
    (hs : World.step (.deliver n) r.world = some w) (hok : oksFirst (r.world.next n) = true) :
    (r.world.parsed n).filterMap Extracted.attribution = (r.world.next n).mapIdx
        (fun i a => (a.1, (r.ledger[r.world.heard + i]?).map entryOf)) ∧
      (r.world.next n).length = ackCount (r.world.parsed n) := by
  obtain ⟨ts, us, p, win, hheard, htracks⟩ := h.hears
  obtain ⟨vs, vs', q, rfl, -, hcount, hparsed⟩ := hheard.deliver hc hs
  have hnext : r.world.next n = acksOf vs := by
    unfold World.next
    rw [hheard.emitted, hheard.heard, hcount, acksOf_append, acksOf_append, answers, answers,
      List.drop_left, List.take_left]
  have hfirst : OksFirst vs := by
    rw [hnext, oksFirst, decide_eq_true_eq] at hok
    exact hok
  have hlines : ∀ ls : List Text, (ls.map Extracted.line).filterMap Extracted.attribution = [] := by
    intro ls
    rw [List.filterMap_map]
    exact List.filterMap_eq_nil_iff.mpr fun _ _ => rfl
  have hparse : r.world.parsed n = (r.world.core.flow.parseExtracted (r.world.chunk n)).2 := rfl
  refine ⟨?_, by rw [hnext, hcount]; rfl⟩
  rw [hparse, hparsed, List.filterMap_append, hlines, List.append_nil, hnext]
  show (r.world.core.flow.acknowledgeAll _).2.filterMap _ = _
  rw [attribution_acknowledgeAll, passOrder_of_oksFirst hfirst, h.pending]
  simp only [List.getElem?_map, List.getElem?_drop]

/-- The device moves: the session, and what it has heard, stay. -/
theorem InStep.device {w' : World} (h : InStep r) (hw : World.step l r.world = some w')
    (hdev : DeviceStep r.world w') : InStep ⟨w', r.ledger⟩ := by
  obtain ⟨ts, us, p, win, hheard, htracks⟩ := h.hears
  obtain ⟨us', hheard'⟩ := hdev.hears ts us p hheard
  obtain ⟨win', htracks', -⟩ := htracks.step (fun _ _ => True) hw hheard'.le (.inl hdev.lines)
  refine ⟨⟨ts, us', p, win', hheard', htracks'⟩, ?_, ?_⟩
  · rw [hdev.lines]
    exact h.lines
  · rw [hdev.core, hdev.heard]
    exact h.pending

/-- The session moves. -/
theorem InStep.host {l' : Label} {w' : World} (h : InStep r) (hh : HostStep l' r.world w')
    (hok : keepsStep r (.host l') = true) :
    InStep ⟨w', r.ledger ++ (r.world.sys.tracked l').toList⟩ := by
  by_cases htask : ∃ i ch, l' = .task i ch
  · obtain ⟨i, ch, rfl⟩ := htask
    obtain ⟨b, c', b', spawned, hb, -, -, hadv, hsys⟩ := Sys.step_task hh.step
    have hcore : w'.core = c' := congrArg Sys.core hsys
    have hledger : LedgerStep i ch b r.world.core w'.core := by
      rw [hcore]
      exact advance_ledger hadv
    simp only [keepsStep, hb, Option.all_some, Bool.and_eq_true, Bool.or_eq_true,
      Bool.not_eq_true'] at hok
    have htracked : r.world.sys.tracked (.task i ch) = b.tracks i r.world.core := by
      simp only [Sys.tracked, hb]
      rfl
    rw [htracked]
    cases hledger with
    | quiet hnone _ hsame =>
      rw [hnone]
      exact h.congr hh (List.append_nil _) hsame
    | tracks e op htracks hsame =>
      have herr : ch.writeError = none := by
        rcases hok.2 with hno | herr
        · rw [htracks] at hno
          cases hno
        · exact Option.isNone_iff_eq_none.mp herr
      rw [herr] at hsame
      rw [htracks]
      exact h.tracks hh rfl (isLine_of_tracks htracks) hsame
    | resets hresets hsame =>
      have hmay : b.mayReset r.world.core = true := by
        rcases hok.1 with hno | hmay
        · rw [hresets] at hno
          cases hno
        · exact hmay
      rw [tracks_of_resets hresets]
      exact h.reset hh (List.append_nil _) hb hmay hresets hsame
  · have hne : ∀ i ch, l' ≠ .task i ch := fun i ch hi => htask ⟨i, ch, hi⟩
    have hnone : r.world.sys.tracked l' = none := by
      cases l' with
      | task i ch => exact absurd rfl (hne i ch)
      | _ => rfl
    rw [hnone]
    rcases step_ledger hh.step hne with hsame | ⟨data, hrx, -⟩
    · exact h.congr hh (List.append_nil _) hsame
    · exact absurd hrx (hh.not_rx data)

/-- **What one step keeps.** -/
theorem InStep.step (h : InStep r) (hc : Clean [] r.world.emitted)
    (hs : Register.step l r = some r') (hok : keepsStep r l = true) : InStep r' := by
  obtain ⟨w, hw, rfl⟩ := Option.map_eq_some_iff.mp hs
  have hdevice : DeviceStep r.world w → Register.tracked l r.world = none →
      InStep ⟨w, r.ledger ++ (Register.tracked l r.world).toList⟩ := fun hdev hnone => by
    rw [hnone]
    exact (List.append_nil r.ledger).symm ▸ h.device hw hdev
  cases l with
  | host l' => exact h.host (step_host hw) hok
  | deliver n => exact h.deliver hc hw (List.append_nil _)
  | _ =>
    rcases step_cases hw with ⟨l', hl, -⟩ | ⟨n, hl⟩ | hdev
    · cases hl
    · cases hl
    · exact hdevice hdev rfl

end InStep

/-! ### Whole runs -/

/-- What the device sends is only ever extended. -/
theorem register_emitted {r r' : Register} {l : WorldLabel} (hs : Register.step l r = some r') :
    r.world.emitted <+: r'.world.emitted := by
  obtain ⟨w, hw, rfl⟩ := Option.map_eq_some_iff.mp hs
  exact step_emitted hw

/-- The invariant of every run that keeps step. -/
theorem inStep_of_run {w₀ : World} {r : Register} (h0 : Connected w₀)
    (hr : Run Register.step (fun r l _ => keepsStep r l = true) ⟨w₀, []⟩ r)
    (hclean : Clean [] r.world.emitted) : InStep r := by
  have hback : ∀ a l b, Register.step l a = some b → keepsStep a l = true →
      Clean [] b.world.emitted → Clean [] a.world.emitted := by
    intro a l b hs _ hb
    obtain ⟨ext, hext⟩ := register_emitted hs
    rw [← hext] at hb
    exact hb.left
  have hr' := hr.strengthen (P := fun r => Clean [] r.world.emitted) hback hclean
  refine hr'.invariant (I := InStep) ?_ (.of_connected h0)
  rintro a l b hI hs ⟨hok, hb⟩
  exact hI.step (hback a l b hs hok hb) hs hok

/-- **Every acknowledgement pops the entry of the line it acknowledges.**  In a run in which no
job is started, and nothing else resets the accounting, while a line is pending, in which no
tracked write fails and no chunk holds an error before an `ok`, the `i`-th acknowledgement a
chunk completes pops the entry of the line number `heard + i`, which it answers. -/
theorem acks_pop_own_entries {w₀ : World} {r r' : Register} {n : ℕ} (h0 : Connected w₀)
    (hr : Run Register.step (fun r l _ => keepsStep r l = true) ⟨w₀, []⟩ r)
    (hs : Register.step (.deliver n) r = some r') (hok : keepsStep r (.deliver n) = true)
    (hclean : Clean [] r.world.emitted) :
    (r.world.parsed n).filterMap Extracted.attribution
        = (r.world.next n).mapIdx (fun i a => (a.1, (r.ledger[r.world.heard + i]?).map entryOf)) ∧
      r.ledger.map Prod.fst = r.world.lines ∧
      r.world.heard + ackCount (r.world.parsed n) ≤ r.ledger.length := by
  have h := inStep_of_run h0 hr hclean
  have h' : InStep r' := h.step hclean hs hok
  obtain ⟨w, hw, rfl⟩ := Option.map_eq_some_iff.mp hs
  refine ⟨(h.attribution hclean hw hok).1, h.lines, ?_⟩
  -- the device has answered no line that was not written
  have hheard : w.heard = r.world.heard + ackCount (r.world.parsed n) := by
    obtain ⟨s, -, heq⟩ := Option.map_eq_some_iff.mp hw
    rw [← heq]
  rw [← hheard]
  exact h'.heard_le.trans_eq (congrArg List.length (List.append_nil r.ledger))

/-! ### Runs of a fixed job -/

/-- The next step is `start_job`. -/
def startsJob (r : Register) (l : WorldLabel) : Bool :=
  match l with
  | .host (.task i _) =>
    match r.world.sys.tasks[i]? with
    | some (.run _ .begin) => true
    | _ => false
  | _ => false

/-- A session that nobody has used, and its device. -/
def newWorld : World := { sys := { core := {}, tasks := [] } }

theorem newWorld_connected : Connected newWorld :=
  ⟨by constructor <;> rfl, rfl, rfl, List.not_mem_nil, rfl⟩

/-- A job of one line, with an op index. -/
def oneOp : Job := { lines := ["G1 X1".toList], opMap := some [(0, 0)] }

/-- A command is written and answered, and then a job; its line is written, and the device
answers it. -/
def jobBehindCommand : List WorldLabel :=
  (.call .connect :: turns 0 2 ++ .link true :: .call (.execute "G0".toList) :: turns 2 1 ++
    turns 1 7).map .host ++ [.remove, .answer (.ok 0 0), .deliver 3] ++
    (.call (.run oneOp) :: turns 3 3 ++ turns 4 8).map .host ++ [.remove, .answer (.ok 0 1)]

/-- The acknowledgement of the line of a job that is started behind an answered command: the
general result. -/
theorem acks_pop_own_entries_behindCommand :
    let r := reach Register.step jobBehindCommand ⟨newWorld, []⟩
    (r.world.parsed 4).filterMap Extracted.attribution
        = (r.world.next 4).mapIdx (fun i a => (a.1, (r.ledger[r.world.heard + i]?).map entryOf)) ∧
      r.ledger.map Prod.fst = r.world.lines ∧
      r.world.heard + ackCount (r.world.parsed 4) ≤ r.ledger.length := by
  intro r
  have hemitted : r.world.emitted = [.ok 0 0, .ok 0 1] := by decide +kernel
  have hstep : (Register.step (.deliver 4) r).isSome = true := by decide +kernel
  obtain ⟨r', hs⟩ := Option.isSome_iff_exists.mp hstep
  refine acks_pop_own_entries newWorld_connected (run_reach_where (by decide +kernel)) hs
    (by decide +kernel) ?_
  rw [hemitted]
  exact (by decide : ¬ errorMarker <:+: [])

/-- A command is written, and before its acknowledgement arrives a job is started and writes
its line. -/
def commandBeforeJob : List WorldLabel :=
  (.call .connect :: turns 0 2 ++ .link true :: .call (.execute "G0".toList) :: turns 2 1 ++
    turns 1 7 ++ .call (.run oneOp) :: turns 3 3 ++ turns 4 8).map .host ++
    [.remove, .answer (.ok 0 0)]

/-- The `ok` of the command is about to be read, and the line of the job is outstanding. -/
def commandOutstanding : Register := reach Register.step commandBeforeJob ⟨newWorld, []⟩

theorem commandOutstanding_emitted : commandOutstanding.world.emitted = [.ok 0 0] := by
  decide +kernel

/-- The run respects the condition, the start of the job apart. -/
theorem run_commandBeforeJob :
    Run Register.step (fun r l _ => (keepsStep r l || startsJob r l) = true) ⟨newWorld, []⟩
      commandOutstanding :=
  run_reach_where (by decide +kernel)

/-- The `ok` answers the command, and its entry is not the one that is popped. -/
theorem commandOutstanding_pops :
    (commandOutstanding.world.parsed 3).filterMap Extracted.attribution
      ≠ (commandOutstanding.world.next 3).mapIdx fun i a =>
        (a.1, (commandOutstanding.ledger[commandOutstanding.world.heard + i]?).map entryOf) := by
  decide +kernel

/-- **An old acknowledgement pops a job line**: a job is started while a command is
outstanding, and the `ok` of the command frees the bytes of the line of the job and reports
it done, although the device has answered the command alone. -/
theorem old_ack_pops_job_line :
    (¬ ∀ (w₀ : World) (r r' : Register) (n : ℕ), Connected w₀ →
      Run Register.step (fun r l _ => (keepsStep r l || startsJob r l) = true) ⟨w₀, []⟩ r →
      Register.step (.deliver n) r = some r' → keepsStep r (.deliver n) = true →
      Clean [] r.world.emitted →
      (r.world.parsed n).filterMap Extracted.attribution = (r.world.next n).mapIdx fun i a =>
        (a.1, (r.ledger[r.world.heard + i]?).map entryOf)) ∧
    (let r := reach Register.step (commandBeforeJob ++ [.deliver 3]) ⟨newWorld, []⟩;
      r.world.lines.map Sent.origin = [.command 0, .job 4] ∧ answers r.world.emitted = 1 ∧
        r.world.core.events = [.commandDone 0] ∧ r.world.core.flow.rxCount = 0) := by
  refine ⟨fun h => ?_, by decide +kernel⟩
  have hstep : (Register.step (.deliver 3) commandOutstanding).isSome = true := by decide +kernel
  have hkeeps : keepsStep commandOutstanding (.deliver 3) = true := by decide +kernel
  have hclean : Clean [] commandOutstanding.world.emitted := by
    rw [commandOutstanding_emitted]
    exact (by decide : ¬ errorMarker <:+: [])
  obtain ⟨r', hr'⟩ := Option.isSome_iff_exists.mp hstep
  exact commandOutstanding_pops
    (h newWorld commandOutstanding r' 3 newWorld_connected run_commandBeforeJob hr' hkeeps hclean)

end Raydriver
