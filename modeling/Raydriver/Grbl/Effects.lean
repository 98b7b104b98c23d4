import Raydriver.Grbl.Ledger

/-!
# What a step does to the ledger

Every step of a task leaves the ledger alone, or tracks and writes one line, or resets the
accounting.  The classification is made once, for all tasks.

## Main definitions

* `SameLedger c c'` — the accounting and the lines written are as before.
* `Body.tracks`, `Body.resets` — the steps that change them.
* `LedgerStep` — what a step does to the ledger.

## Main results

* `advance_ledger` — **the classification of the steps of tasks**.
* `step_ledger` — the same of the steps of the session that are no steps of a task.
-/

namespace Raydriver

/-- The accounting and the lines written are as before. -/
structure SameLedger (c c' : Core) : Prop where
  books : SameBooks c.flow c'.flow
  owners : c'.owners = c.owners
  dropped : c'.dropped = c.dropped
  lines : c'.sent.filter Sent.isLine = c.sent.filter Sent.isLine

namespace SameLedger

variable {c c' c'' : Core}

theorem refl (c : Core) : SameLedger c c := ⟨.refl _, rfl, rfl, rfl⟩

theorem trans (h : SameLedger c c') (h' : SameLedger c' c'') : SameLedger c c'' :=
  ⟨h.books.trans h'.books, h'.owners.trans h.owners, h'.dropped.trans h.dropped,
    h'.lines.trans h.lines⟩

theorem of_flow (hflow : c'.flow = c.flow) (howners : c'.owners = c.owners)
    (hdropped : c'.dropped = c.dropped) (hsent : c'.sent = c.sent) : SameLedger c c' :=
  ⟨by rw [hflow]; exact .refl _, howners, hdropped, by rw [hsent]⟩

theorem of_realtime (h : SameLedger c c') (t : Text) (err : Option String) :
    SameLedger c (c'.write .realtime t err) :=
  ⟨h.books, h.owners, h.dropped, (lines_write_realtime t err c').trans h.lines⟩

end SameLedger

/-! ### The steps that change the ledger -/

/-- The safety command the next step of `cancel` tracks and writes. -/
def CancelPc.command : CancelPc → Option Text
  | .send _ command _ => some command
  | _ => none

/-- **The line the next step of task `i` tracks and writes**, with its op index. -/
def Body.tracks (i : ℕ) (c : Core) : Body → Option (Sent × Option ℤ)
  | .stream _ (.send s) => some (⟨.job i, s.payload⟩, s.opIndex)
  | .stream _ (.recoverSend _) => some (⟨.recovery i, dwellLine⟩, none)
  | .stream _ (.cancelling pc _) | .cancel _ pc =>
    pc.command.map fun command => (⟨.safety i, commandLine command⟩, none)
  | .queue (.send r) => some (⟨.command r, commandLine (c.commandOf r)⟩, none)
  | .interactive command (.send r) => some (⟨.interactive r, commandLine command⟩, none)
  | _ => none

/-- `cancel` is about to reset the flow control. -/
def CancelPc.clears : CancelPc → Bool
  | .clear _ => true
  | _ => false

/-- The next step of the task resets the accounting. -/
def Body.resets : Body → Bool
  | .stream _ (.recoverStart _) | .stream _ (.recoverReset _) | .run _ .begin
  | .link _ .clear | .link true .closing => true
  | .stream _ (.cancelling pc _) | .cancel _ pc => pc.clears
  | _ => false

/-- A step that resets the accounting tracks nothing. -/
theorem tracks_of_resets {i : ℕ} {c : Core} {b : Body} (h : b.resets = true) :
    b.tracks i c = none := by
  have hcancel : ∀ pc : CancelPc, pc.clears = true → pc.command = none := by
    intro pc hpc
    cases pc <;> first | rfl | cases hpc
  cases b with
  | stream job pc =>
    cases pc with
    | cancelling pc e => simp only [Body.tracks, hcancel pc h, Option.map_none]
    | _ => first | rfl | cases h
  | cancel em pc => simp only [Body.tracks, hcancel pc h, Option.map_none]
  | queue pc => cases h
  | interactive command pc => cases h
  | _ => rfl

/-- What a step of task `i` does to the ledger. -/
inductive LedgerStep (i : ℕ) (ch : Choice) (b : Body) (c c' : Core) : Prop
  | quiet (htracks : b.tracks i c = none) (hresets : b.resets = false) (h : SameLedger c c')
  | tracks (e : Sent) (op : Option ℤ) (hb : b.tracks i c = some (e, op))
      (h : SameLedger (c.sendTracked e.origin e.payload op ch.writeError) c')
  | resets (hb : b.resets = true)
      (h : SameLedger c.resetFlowControl c' ∨ SameLedger c.resetFlow c')

section Steps

variable {n i : ℕ} {job : Job} {inStream em connect spawns : Bool} {command : Text} {ch : Choice}
  {c c' : Core} {b b' : Body} {spawned : List Body}

/-- `cancel`, by itself or in the streaming task. -/
theorem advanceCancel_ledger {pc pc' : CancelPc}
    (h : advanceCancel i inStream em ch c pc = some (c', pc')) :
    (pc.command = none ∧ pc.clears = false ∧ SameLedger c c') ∨
      (∃ command, pc.command = some command ∧
        c' = c.sendTracked (.safety i) (commandLine command) none ch.writeError) ∨
      pc.clears = true ∧ SameLedger c.resetFlow c' := by
  cases pc with
  | start =>
    simp only [advanceCancel] at h
    split_ifs at h <;> cases h
    · refine .inl ⟨rfl, rfl, .of_realtime ?_ _ _⟩
      exact .of_flow rfl rfl rfl rfl
    · exact .inl ⟨rfl, rfl, .of_flow rfl rfl rfl rfl⟩
  | ctrlX was err => cases err <;> cases h <;> exact .inl ⟨rfl, rfl, .refl c⟩
  | abort was =>
    simp only [advanceCancel] at h
    split_ifs at h
    · cases h
      exact .inl ⟨rfl, rfl, .refl c⟩
    · split at h
      · cases h
        exact .inl ⟨rfl, rfl, .refl c⟩
      · split_ifs at h <;> cases h <;> exact .inl ⟨rfl, rfl, .of_flow rfl rfl rfl rfl⟩
  | clear was =>
    simp only [advanceCancel] at h
    split_ifs at h <;> cases h <;> exact .inr (.inr ⟨rfl, .of_flow rfl rfl rfl rfl⟩)
  | next was commands =>
    cases commands <;> simp only [advanceCancel] at h <;> (try split_ifs at h) <;> cases h <;>
      exact .inl ⟨rfl, rfl, .refl c⟩
  | send was command commands =>
    cases h
    exact .inr (.inl ⟨command, rfl, rfl⟩)
  | finish was =>
    cases h
    exact .inl ⟨rfl, rfl, .of_flow rfl rfl rfl rfl⟩
  | _ =>
    simp only [advanceCancel] at h
    try split_ifs at h
    all_goals cases h
    all_goals exact .inl ⟨rfl, rfl, .refl c⟩

theorem advanceStream_ledger {pc pc' : StreamPc}
    (h : advanceStream i job ch c pc = some (c', pc')) :
    LedgerStep i ch (.stream job pc) c c' := by
  cases pc with
  | loopTop idx rest =>
    cases rest <;> simp only [advanceStream] at h <;> (try split_ifs at h) <;> cases h <;>
      exact .quiet rfl rfl (.of_flow rfl rfl rfl rfl)
  | send s =>
    cases h
    exact .tracks _ _ rfl (.refl _)
  | writing s err => cases err <;> cases h <;> exact .quiet rfl rfl (.of_flow rfl rfl rfl rfl)
  | poll w => cases w <;> cases h <;> exact .quiet rfl rfl (.of_flow rfl rfl rfl rfl)
  | pollSend w before =>
    simp only [advanceStream] at h
    split_ifs at h <;> cases h
    · exact .quiet rfl rfl (.of_realtime (.refl c) _ _)
    · exact .quiet rfl rfl (.refl c)
  | pollWriting w before err => cases err <;> cases h <;> exact .quiet rfl rfl (.of_flow rfl rfl rfl rfl)
  | pollAwait w before left => cases left <;> cases h <;> exact .quiet rfl rfl (.refl c)
  | pollEnd w idle =>
    cases w <;> simp only [advanceStream] at h <;> split_ifs at h <;> cases h <;>
      exact .quiet rfl rfl (.of_flow rfl rfl rfl rfl)
  | recover w =>
    cases w <;> simp only [advanceStream] at h <;> split_ifs at h <;> cases h <;>
      exact .quiet rfl rfl (.refl c)
  | recoverStart w =>
    cases h
    exact .resets rfl (.inl (.refl _))
  | recoverSend w =>
    cases h
    exact .tracks _ _ rfl (.refl _)
  | recoverReset w =>
    cases h
    exact .resets rfl (.inr (.refl _))
  | recoverEnd w => cases w <;> cases h <;> exact .quiet rfl rfl (.refl c)
  | outcome err =>
    cases err <;> simp only [advanceStream] at h <;> (try split_ifs at h) <;> cases h <;>
      exact .quiet rfl rfl (.of_flow rfl rfl rfl rfl)
  | cancelling pc e =>
    simp only [advanceStream] at h
    split at h
    · cases h
      exact .quiet rfl rfl (.refl c)
    · obtain ⟨⟨c1, pc1⟩, h1, h2⟩ := Option.map_eq_some_iff.mp h
      cases h2
      rcases advanceCancel_ledger h1 with ⟨hcommand, hclears, hsame⟩ | ⟨command, hcommand, rfl⟩ |
        ⟨hclears, hreset⟩
      · exact .quiet (by simp only [Body.tracks, hcommand, Option.map_none]) hclears hsame
      · exact .tracks ⟨.safety i, commandLine command⟩ none
          (by simp only [Body.tracks, hcommand, Option.map_some]) (.refl _)
      · exact .resets hclears (.inr hreset)
  | _ =>
    simp only [advanceStream] at h
    try split_ifs at h
    all_goals cases h
    all_goals exact .quiet rfl rfl (.of_flow rfl rfl rfl rfl)

theorem advanceRun_ledger {pc pc' : RunPc}
    (h : advanceRun n job ch c pc = some (c', pc', spawns)) :
    LedgerStep i ch (.run job pc) c c' := by
  cases pc with
  | rawNext realtime =>
    cases realtime with
    | nil =>
      cases h
      exact .quiet rfl rfl (.refl c)
    | cons command realtime =>
      simp only [advanceRun] at h
      split_ifs at h <;> cases h
      · exact .quiet rfl rfl (.of_realtime (.refl c) _ _)
      · exact .quiet rfl rfl (.refl c)
  | begin =>
    cases h
    exact .resets rfl (.inl (.of_flow rfl rfl rfl rfl))
  | abort =>
    simp only [advanceRun] at h
    split at h
    · cases h
      exact .quiet rfl rfl (.refl c)
    · split_ifs at h <;> cases h <;> exact .quiet rfl rfl (.of_flow rfl rfl rfl rfl)
  | _ =>
    simp only [advanceRun] at h
    try split_ifs at h
    all_goals cases h
    all_goals exact .quiet rfl rfl (.of_flow rfl rfl rfl rfl)

theorem advanceQueue_ledger {pc pc' : QueuePc} (h : advanceQueue i ch c pc = some (c', pc')) :
    LedgerStep i ch (.queue pc) c c' := by
  cases pc with
  | recv =>
    simp only [advanceQueue] at h
    split at h
    · cases h
    · split_ifs at h <;> cases h <;> exact .quiet rfl rfl (.of_flow rfl rfl rfl rfl)
  | send r =>
    cases h
    exact .tracks _ _ rfl (.refl _)
  | top =>
    simp only [advanceQueue] at h
    split_ifs at h <;> cases h <;> exact .quiet rfl rfl (.of_flow rfl rfl rfl rfl)
  | _ =>
    simp only [advanceQueue] at h
    try split_ifs at h
    all_goals cases h
    all_goals exact .quiet rfl rfl (.of_flow rfl rfl rfl rfl)

theorem advanceInteractive_ledger {pc pc' : InteractivePc}
    (h : advanceInteractive i command ch c pc = some (c', pc')) :
    LedgerStep i ch (.interactive command pc) c c' := by
  cases pc with
  | send r =>
    cases h
    exact .tracks _ _ rfl (.refl _)
  | _ =>
    simp only [advanceInteractive] at h
    try split_ifs at h
    all_goals cases h
    all_goals exact .quiet rfl rfl (.of_flow rfl rfl rfl rfl)

theorem advanceExecute_ledger {pc pc' : ExecutePc}
    (h : advanceExecute command ch c pc = some (c', pc')) : SameLedger c c' := by
  cases pc <;> simp only [advanceExecute] at h <;> (try split_ifs at h) <;> cases h <;>
    exact .of_flow rfl rfl rfl rfl

theorem advanceHold_ledger {on : Bool} {pc pc' : HoldPc}
    (h : advanceHold on ch c pc = some (c', pc')) : SameLedger c c' := by
  cases pc with
  | start =>
    unfold advanceHold at h
    dsimp only at h
    split at h <;> cases h
    · refine .of_realtime ?_ _ _
      exact .of_flow rfl rfl rfl rfl
    · exact .of_flow rfl rfl rfl rfl
  | writing err =>
    cases h
    exact .of_flow rfl rfl rfl rfl
  | returned => cases h

theorem advanceLink_ledger {pc pc' : LinkPc}
    (h : advanceLink n connect c pc = some (c', pc', spawns)) :
    LedgerStep i ch (.link connect pc) c c' := by
  cases pc with
  | abort =>
    simp only [advanceLink] at h
    split at h
    · cases h
      exact .quiet rfl rfl (.refl c)
    · split_ifs at h <;> cases h <;> exact .quiet rfl rfl (.of_flow rfl rfl rfl rfl)
  | clear =>
    cases h
    exact .resets rfl (.inr (.of_flow rfl rfl rfl rfl))
  | stop =>
    simp only [advanceLink] at h
    split at h <;> cases h <;> exact .quiet rfl rfl (.of_flow rfl rfl rfl rfl)
  | closing =>
    simp only [advanceLink] at h
    cases connect with
    | true =>
      cases h
      exact .resets rfl (.inr (.of_flow rfl rfl rfl rfl))
    | false =>
      cases h
      exact .quiet rfl rfl (.refl c)
  | _ =>
    simp only [advanceLink] at h
    try split_ifs at h
    all_goals cases h
    all_goals exact .quiet rfl rfl (.of_flow rfl rfl rfl rfl)

/-- **The classification of the steps of tasks.** -/
theorem advance_ledger (h : advance n i ch c b = some (c', b', spawned)) :
    LedgerStep i ch b c c' := by
  cases b with
  | run job pc =>
    obtain ⟨⟨c1, pc1, sp⟩, h1, h2⟩ := Option.map_eq_some_iff.mp h
    cases h2
    exact advanceRun_ledger h1
  | stream job pc =>
    obtain ⟨⟨c1, pc1⟩, h1, h2⟩ := Option.map_eq_some_iff.mp h
    cases h2
    exact advanceStream_ledger h1
  | cancel em pc =>
    obtain ⟨⟨c1, pc1⟩, h1, h2⟩ := Option.map_eq_some_iff.mp h
    cases h2
    rcases advanceCancel_ledger h1 with ⟨hcommand, hclears, hsame⟩ | ⟨command, hcommand, rfl⟩ |
        ⟨hclears, hreset⟩
    · exact .quiet (by simp only [Body.tracks, hcommand, Option.map_none]) hclears hsame
    · exact .tracks ⟨.safety i, commandLine command⟩ none
        (by simp only [Body.tracks, hcommand, Option.map_some]) (.refl _)
    · exact .resets hclears (.inr hreset)
  | execute command pc =>
    obtain ⟨⟨c1, pc1⟩, h1, h2⟩ := Option.map_eq_some_iff.mp h
    cases h2
    exact .quiet rfl rfl (advanceExecute_ledger h1)
  | queue pc =>
    obtain ⟨⟨c1, pc1⟩, h1, h2⟩ := Option.map_eq_some_iff.mp h
    cases h2
    exact advanceQueue_ledger h1
  | interactive command pc =>
    obtain ⟨⟨c1, pc1⟩, h1, h2⟩ := Option.map_eq_some_iff.mp h
    cases h2
    exact advanceInteractive_ledger h1
  | hold on pc =>
    obtain ⟨⟨c1, pc1⟩, h1, h2⟩ := Option.map_eq_some_iff.mp h
    cases h2
    exact .quiet rfl rfl (advanceHold_ledger h1)
  | link connect pc =>
    obtain ⟨⟨c1, pc1, sp⟩, h1, h2⟩ := Option.map_eq_some_iff.mp h
    cases h2
    exact advanceLink_ledger h1

end Steps

/-- **The other steps of the session**: received bytes pop what they acknowledge, and
nothing else changes the ledger. -/
theorem step_ledger {s u : Sys} {l : Label} (h : Sys.step l s = some u)
    (hl : ∀ i ch, l ≠ .task i ch) :
    SameLedger s.core u.core ∨ ∃ data, l = .rx data ∧ u.core = s.core.handleRx data := by
  cases l with
  | task i ch => exact absurd rfl (hl i ch)
  | call op =>
    simp only [Sys.step] at h
    split_ifs at h
    cases h
    exact .inl (.refl _)
  | drop i =>
    simp only [Sys.step, Sys.dropTask] at h
    split at h
    case isFalse => cases h
    cases h
    exact .inl (.of_flow rfl rfl rfl rfl)
  | rx data =>
    simp only [Sys.step, Sys.outside] at h
    split_ifs at h
    cases h
    exact .inr ⟨data, rfl, rfl⟩
  | poll err =>
    simp only [Sys.step, Sys.outside] at h
    split_ifs at h
    cases h
    unfold Sys.pollStatus
    split_ifs
    · exact .inl (.of_realtime (.refl _) _ _)
    · exact .inl (.refl _)
  | setRxBufferSize size =>
    simp only [Sys.step, Sys.outside] at h
    split_ifs at h
    cases h
    exact .inl ⟨.setRxBufferSize _ _, rfl, rfl, rfl⟩
  | link up =>
    simp only [Sys.step, Sys.outside] at h
    split_ifs at h
    cases h
    exact .inl (.of_flow rfl rfl rfl rfl)

end Raydriver
