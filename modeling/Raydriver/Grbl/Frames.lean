import Raydriver.Grbl.Tasks
import Raydriver.Lib.Run

/-!
# What a step of a task may touch

Every step of a task changes a few fields of the shared state and writes at most
once.  These frame facts are stated once per task and used by every invariant.

## Main definitions

* `Writes P c c'` — the step writes nothing but bytes whose origin satisfies `P`.
* `Body.mayWrite i b` — the origins under which task `i` writes.
* `StreamPc.stage` — what the streaming task is doing.
* `SlotStep c c'` — the slot of the streaming task is kept, or its task is dead.

## Main results

* `advanceStream_frame` — the frame of the streaming task.
* `advance_writes`, `advance_slot` — the frames of all tasks.
* `step_task` — **the inversion of a step of a task**.
-/

namespace Raydriver

/-- The step writes nothing but bytes of the given origins. -/
def Writes (P : Origin → Prop) (c c' : Core) : Prop :=
  ∃ w, c'.sent = c.sent ++ w ∧ ∀ e ∈ w, P e.origin

namespace Writes

variable {P Q : Origin → Prop} {c c' : Core}

theorem of_eq (h : c'.sent = c.sent) : Writes P c c' :=
  ⟨[], by simpa using h, fun _ he => absurd he List.not_mem_nil⟩

theorem of_write {o : Origin} {t : Text} {err : Option String} (ho : P o)
    (h : c'.sent = (c.write o t err).sent) : Writes P c c' := by
  refine ⟨_, h, fun e he => ?_⟩
  split_ifs at he
  · rw [List.mem_singleton] at he
    rw [he]
    exact ho
  · cases he

theorem mono (hle : ∀ o, P o → Q o) (h : Writes P c c') : Writes Q c c' := by
  obtain ⟨w, hw, hP⟩ := h
  exact ⟨w, hw, fun e he => hle _ (hP e he)⟩

end Writes

/-! ### The counters of the streaming task -/

/-- What the streaming task is doing. -/
inductive Stage where
  /-- The send loop. -/
  | sending
  /-- A poll of the device. -/
  | polling
  /-- The recovery from a supposed deadlock. -/
  | recovering
  /-- The drain at the end of the job, and what follows it. -/
  | ending
  deriving DecidableEq, Repr

/-- The stage a counter belongs to. -/
def StreamPc.stage : StreamPc → Stage
  | .poll _ | .pollLock _ | .pollSend _ _ | .pollWriting _ _ _ | .pollFailed _ | .pollAwait _ _ _
  | .pollSleep _ _ _ | .pollDone _ _ | .pollEnd _ _ => .polling
  | .recover _ | .recoverLock | .recoverStart _ | .recoverSpace _ | .recoverSend _
  | .recoverWriting _ | .recoverSent _ | .recoverDrain _ | .recoverReset _
  | .recoverEnd _ => .recovering
  | .afterLoop | .drainTop | .drainWait | .innerEnd | .outcome _ | .cancelling _ _ | .final _
  | .finished _ => .ending
  | _ => .sending

/-- `stream_gcode_inner` is about to return, or has returned, without an exception. -/
def StreamPc.over : StreamPc → Bool
  | .outcome none | .final none | .finished none => true
  | _ => false

/-- An error is on its way to the failure path. -/
def StreamPc.failing : StreamPc → Bool
  | .writing _ (some _) | .outcome (some _) => true
  | _ => false

/-- The failure path. -/
def StreamPc.failed : StreamPc → Bool
  | .cancelling _ _ | .final (some _) | .finished (some _) => true
  | _ => false

/-! ### `cancel` -/

/-- `abort_stream_task` has run. -/
def CancelPc.passed : CancelPc → Bool
  | .start | .ctrlX _ _ | .abort _ | .returned (some _) => false
  | _ => true

/-- What `cancel` leaves alone. -/
structure CancelFrame (c c' : Core) : Prop where
  config : c'.config = c.config
  dialect : c'.dialect = c.dialect
  isOpen : c'.isOpen = c.isOpen
  state : c'.state = c.state
  ended : c'.ended = c.ended
  currentRequest : c'.currentRequest = c.currentRequest
  interactiveRequest : c'.interactiveRequest = c.interactiveRequest
  jobException : c'.jobException = c.jobException
  cmdLock : c'.cmdLock = c.cmdLock

section Cancel

variable {i : ℕ} {inStream em : Bool} {ch : Choice} {c c' : Core} {pc pc' : CancelPc}

theorem advanceCancel_frame (h : advanceCancel i inStream em ch c pc = some (c', pc')) :
    CancelFrame c c' ∧
      Writes (fun o => o = .realtime ∨ (o = .safety i ∧ pc.passed = true)) c c' ∧
      (pc.passed = true → pc'.passed = true) := by
  cases pc with
  | start =>
    simp only [advanceCancel] at h
    split_ifs at h
    · cases h
      exact ⟨by constructor <;> rfl, .of_write (.inl rfl) rfl, fun h => by cases h⟩
    · cases h
      exact ⟨by constructor <;> rfl, .of_eq rfl, fun h => by cases h⟩
  | ctrlX was err =>
    cases err <;> cases h <;> exact ⟨by constructor <;> rfl, .of_eq rfl, fun h => by cases h⟩
  | abort was =>
    simp only [advanceCancel] at h
    split_ifs at h
    · cases h
      exact ⟨by constructor <;> rfl, .of_eq rfl, fun h => by cases h⟩
    · split at h
      · cases h
        exact ⟨by constructor <;> rfl, .of_eq rfl, fun h => by cases h⟩
      · split_ifs at h <;> cases h <;>
          exact ⟨by constructor <;> rfl, .of_eq rfl, fun h => by cases h⟩
  | next was commands =>
    cases commands <;> simp only [advanceCancel] at h <;> (try split_ifs at h) <;> cases h <;>
      exact ⟨by constructor <;> rfl, .of_eq rfl, fun _ => rfl⟩
  | send was command commands =>
    cases h
    exact ⟨by constructor <;> rfl, .of_write (.inr ⟨rfl, rfl⟩) rfl, fun _ => rfl⟩
  | _ =>
    simp only [advanceCancel] at h
    try split_ifs at h
    all_goals cases h
    all_goals exact ⟨by constructor <;> rfl, .of_eq rfl, fun _ => rfl⟩

end Cancel

/-! ### The streaming task -/

/-- The origins of the streaming task `t`. -/
def StreamOrigin (t : ℕ) (o : Origin) : Prop :=
  o = .job t ∨ o = .recovery t ∨ o = .safety t ∨ o = .realtime

/-- What the streaming task leaves alone. -/
structure StreamFrame (c c' : Core) : Prop where
  config : c'.config = c.config
  dialect : c'.dialect = c.dialect
  isOpen : c'.isOpen = c.isOpen
  streamTask : c'.streamTask = c.streamTask
  aborted : c'.aborted = c.aborted
  ended : c.ended ⊆ c'.ended
  currentRequest : c'.currentRequest = c.currentRequest
  interactiveRequest : c'.interactiveRequest = c.interactiveRequest

section Stream

variable {t : ℕ} {job : Job} {em : Bool} {ch : Choice} {c c' : Core}

/-- Within the streaming task `cancel` does not touch the slot. -/
theorem advanceCancel_inStream {pc pc' : CancelPc}
    (h : advanceCancel t true em ch c pc = some (c', pc')) :
    c'.streamTask = c.streamTask ∧ c'.aborted = c.aborted := by
  cases pc with
  | ctrlX was err => cases err <;> cases h <;> exact ⟨rfl, rfl⟩
  | next was commands =>
    cases commands <;> simp only [advanceCancel] at h <;> (try split_ifs at h) <;> cases h <;>
      exact ⟨rfl, rfl⟩
  | _ =>
    simp only [advanceCancel] at h
    try split_ifs at h
    all_goals cases h
    all_goals exact ⟨rfl, rfl⟩

theorem StreamFrame.of_cancel {pc pc' : CancelPc}
    (h : advanceCancel t true em ch c pc = some (c', pc')) : StreamFrame c c' where
  config := (advanceCancel_frame h).1.config
  dialect := (advanceCancel_frame h).1.dialect
  isOpen := (advanceCancel_frame h).1.isOpen
  streamTask := (advanceCancel_inStream h).1
  aborted := (advanceCancel_inStream h).2
  ended := by rw [(advanceCancel_frame h).1.ended]; exact List.Subset.refl _
  currentRequest := (advanceCancel_frame h).1.currentRequest
  interactiveRequest := (advanceCancel_frame h).1.interactiveRequest

/-- **The frame of the streaming task.** -/
theorem advanceStream_frame {pc pc' : StreamPc}
    (h : advanceStream t job ch c pc = some (c', pc')) :
    StreamFrame c c' ∧ Writes (StreamOrigin t) c c' := by
  have hsub := List.Subset.refl c.ended
  have hcons : c.ended ⊆ t :: c.ended := List.subset_cons_self t c.ended
  cases pc with
  | loopTop idx rest =>
    cases rest <;> simp only [advanceStream] at h <;> (try split_ifs at h) <;> cases h <;>
      exact ⟨⟨rfl, rfl, rfl, rfl, rfl, hsub, rfl, rfl⟩, .of_eq rfl⟩
  | send s =>
    cases h
    exact ⟨⟨rfl, rfl, rfl, rfl, rfl, hsub, rfl, rfl⟩, .of_write (.inl rfl) rfl⟩
  | writing s err =>
    cases err <;> cases h <;> exact ⟨⟨rfl, rfl, rfl, rfl, rfl, hsub, rfl, rfl⟩, .of_eq rfl⟩
  | poll w =>
    cases w <;> cases h <;> exact ⟨⟨rfl, rfl, rfl, rfl, rfl, hsub, rfl, rfl⟩, .of_eq rfl⟩
  | pollSend w before =>
    simp only [advanceStream] at h
    split_ifs at h
    · cases h
      exact ⟨⟨rfl, rfl, rfl, rfl, rfl, hsub, rfl, rfl⟩, .of_write (.inr (.inr (.inr rfl))) rfl⟩
    · cases h
      exact ⟨⟨rfl, rfl, rfl, rfl, rfl, hsub, rfl, rfl⟩, .of_eq rfl⟩
  | pollWriting w before err =>
    cases err <;> cases h <;> exact ⟨⟨rfl, rfl, rfl, rfl, rfl, hsub, rfl, rfl⟩, .of_eq rfl⟩
  | pollAwait w before left =>
    cases left <;> cases h <;> exact ⟨⟨rfl, rfl, rfl, rfl, rfl, hsub, rfl, rfl⟩, .of_eq rfl⟩
  | pollEnd w idle =>
    cases w <;> simp only [advanceStream] at h <;> split_ifs at h <;> cases h <;>
      exact ⟨⟨rfl, rfl, rfl, rfl, rfl, hsub, rfl, rfl⟩, .of_eq rfl⟩
  | recover w =>
    cases w <;> simp only [advanceStream] at h <;> split_ifs at h <;> cases h <;>
      exact ⟨⟨rfl, rfl, rfl, rfl, rfl, hsub, rfl, rfl⟩, .of_eq rfl⟩
  | recoverSend w =>
    cases h
    exact ⟨⟨rfl, rfl, rfl, rfl, rfl, hsub, rfl, rfl⟩, .of_write (.inr (.inl rfl)) rfl⟩
  | recoverEnd w =>
    cases w <;> cases h <;> exact ⟨⟨rfl, rfl, rfl, rfl, rfl, hsub, rfl, rfl⟩, .of_eq rfl⟩
  | outcome err =>
    cases err <;> simp only [advanceStream] at h <;> (try split_ifs at h) <;> cases h <;>
      exact ⟨⟨rfl, rfl, rfl, rfl, rfl, hsub, rfl, rfl⟩, .of_eq rfl⟩
  | cancelling pc e =>
    simp only [advanceStream] at h
    split at h
    · cases h
      exact ⟨⟨rfl, rfl, rfl, rfl, rfl, hsub, rfl, rfl⟩, .of_eq rfl⟩
    · obtain ⟨⟨c1, pc1⟩, h1, h2⟩ := Option.map_eq_some_iff.mp h
      cases h2
      refine ⟨.of_cancel h1, (advanceCancel_frame h1).2.1.mono fun o ho => ?_⟩
      rcases ho with rfl | ⟨rfl, -⟩
      · exact .inr (.inr (.inr rfl))
      · exact .inr (.inr (.inl rfl))
  | final err =>
    cases h
    exact ⟨⟨rfl, rfl, rfl, rfl, rfl, hcons, rfl, rfl⟩, .of_eq rfl⟩
  | _ =>
    simp only [advanceStream] at h
    try split_ifs at h
    all_goals cases h
    all_goals exact ⟨⟨rfl, rfl, rfl, rfl, rfl, hsub, rfl, rfl⟩, .of_eq rfl⟩

end Stream

/-! ### All tasks -/

/-- The origins under which task `i` writes. -/
def Body.mayWrite (i : ℕ) (b : Body) (o : Origin) : Prop :=
  match b with
  | .stream _ _ => StreamOrigin i o
  | .cancel _ pc => o = .realtime ∨ (o = .safety i ∧ pc.passed = true)
  | .queue _ => ∃ r, o = .command r
  | .interactive _ _ => ∃ r, o = .interactive r
  | _ => o = .realtime

/-- The slot of the streaming task is kept, or emptied with its task dead. -/
structure SlotStep (c c' : Core) : Prop where
  aborted : c.aborted ⊆ c'.aborted
  ended : c.ended ⊆ c'.ended
  slot : c'.streamTask = c.streamTask ∨
    ∀ t, c.streamTask = some t → t ∈ c'.aborted ∨ t ∈ c'.ended

theorem SlotStep.of_eq {c c' : Core} (ha : c'.aborted = c.aborted) (he : c'.ended = c.ended)
    (hs : c'.streamTask = c.streamTask) : SlotStep c c' where
  aborted := by rw [ha]; exact List.Subset.refl _
  ended := by rw [he]; exact List.Subset.refl _
  slot := .inl hs

section All

variable {n i : ℕ} {job : Job} {b b' : Body} {em : Bool} {ch : Choice} {c c' : Core}
  {command : Text} {spawned : List Body} {spawns : Bool} {pc₀ : CancelPc}

theorem advanceCancel_slot {pc pc' : CancelPc}
    (h : advanceCancel i false em ch c pc = some (c', pc')) : SlotStep c c' := by
  cases pc with
  | ctrlX was err => cases err <;> cases h <;> exact .of_eq rfl rfl rfl
  | abort was =>
    simp only [advanceCancel, Bool.false_eq_true, if_false] at h
    split at h
    · cases h
      exact .of_eq rfl rfl rfl
    · rename_i t ht
      split_ifs at h with hended
      · cases h
        refine ⟨List.Subset.refl _, List.Subset.refl _, .inr fun t' ht' => .inr ?_⟩
        obtain rfl : t = t' := Option.some.inj (ht.symm.trans ht')
        exact List.contains_iff_mem.mp hended
      · cases h
        refine ⟨List.subset_cons_self _ _, List.Subset.refl _, .inr fun t' ht' => .inl ?_⟩
        obtain rfl : t = t' := Option.some.inj (ht.symm.trans ht')
        exact List.mem_cons_self
  | next was commands =>
    cases commands <;> simp only [advanceCancel] at h <;> (try split_ifs at h) <;> cases h <;>
      exact .of_eq rfl rfl rfl
  | _ =>
    simp only [advanceCancel] at h
    try split_ifs at h
    all_goals cases h
    all_goals exact .of_eq rfl rfl rfl

theorem advanceRun_frame {pc pc' : RunPc} (h : advanceRun n job ch c pc = some (c', pc', spawns)) :
    (SlotStep c c' ∨ (pc = .spawn ∧ c' = { c with streamTask := some n })) ∧
      Writes (· = .realtime) c c' := by
  cases pc with
  | rawNext realtime =>
    cases realtime with
    | nil =>
      cases h
      exact ⟨.inl (.of_eq rfl rfl rfl), .of_eq rfl⟩
    | cons command realtime =>
      simp only [advanceRun] at h
      split_ifs at h <;> cases h
      · exact ⟨.inl (.of_eq rfl rfl rfl), .of_write rfl rfl⟩
      · exact ⟨.inl (.of_eq rfl rfl rfl), .of_eq rfl⟩
  | abort =>
    simp only [advanceRun] at h
    split at h
    · cases h
      exact ⟨.inl (.of_eq rfl rfl rfl), .of_eq rfl⟩
    · rename_i t ht
      split_ifs at h with hended <;> cases h
      · refine ⟨.inl ⟨List.Subset.refl _, List.Subset.refl _, .inr fun t' ht' => .inr ?_⟩,
          .of_eq rfl⟩
        obtain rfl : t = t' := Option.some.inj (ht.symm.trans ht')
        exact List.contains_iff_mem.mp hended
      · refine ⟨.inl ⟨List.subset_cons_self _ _, List.Subset.refl _,
          .inr fun t' ht' => .inl ?_⟩, .of_eq rfl⟩
        obtain rfl : t = t' := Option.some.inj (ht.symm.trans ht')
        exact List.mem_cons_self
  | spawn =>
    cases h
    exact ⟨.inr ⟨rfl, rfl⟩, .of_eq rfl⟩
  | join t =>
    simp only [advanceRun] at h
    split_ifs at h with hended hslot <;> cases h
    · refine ⟨.inl ⟨List.Subset.refl _, List.Subset.refl _, .inr fun t' ht' => .inr ?_⟩,
        .of_eq rfl⟩
      obtain rfl : t = t' := Option.some.inj (hslot.symm.trans ht')
      exact List.contains_iff_mem.mp hended
    · exact ⟨.inl ⟨List.Subset.refl _, List.Subset.refl _, .inl rfl⟩, .of_eq rfl⟩
  | _ =>
    simp only [advanceRun] at h
    try split_ifs at h
    all_goals cases h
    all_goals exact ⟨.inl (.of_eq rfl rfl rfl), .of_eq rfl⟩

theorem advanceLink_frame {pc pc' : LinkPc} {connect : Bool}
    (h : advanceLink n connect c pc = some (c', pc', spawns)) :
    SlotStep c c' ∧ c'.sent = c.sent := by
  cases pc with
  | abort =>
    simp only [advanceLink] at h
    split at h
    · cases h
      exact ⟨.of_eq rfl rfl rfl, rfl⟩
    · rename_i t ht
      split_ifs at h with hended <;> cases h
      · refine ⟨⟨List.Subset.refl _, List.Subset.refl _, .inr fun t' ht' => .inr ?_⟩, rfl⟩
        obtain rfl : t = t' := Option.some.inj (ht.symm.trans ht')
        exact List.contains_iff_mem.mp hended
      · refine ⟨⟨List.subset_cons_self _ _, List.Subset.refl _,
          .inr fun t' ht' => .inl ?_⟩, rfl⟩
        obtain rfl : t = t' := Option.some.inj (ht.symm.trans ht')
        exact List.mem_cons_self
  | stop =>
    simp only [advanceLink] at h
    split at h <;> cases h
    · exact ⟨.of_eq rfl rfl rfl, rfl⟩
    · exact ⟨⟨List.subset_cons_self _ _, List.Subset.refl _, .inl rfl⟩, rfl⟩
  | _ =>
    simp only [advanceLink] at h
    try split_ifs at h
    all_goals cases h
    all_goals exact ⟨.of_eq rfl rfl rfl, rfl⟩

theorem advanceExecute_frame {pc pc' : ExecutePc}
    (h : advanceExecute command ch c pc = some (c', pc')) :
    SlotStep c c' ∧ c'.sent = c.sent := by
  cases pc <;> simp only [advanceExecute] at h <;> (try split_ifs at h) <;> cases h <;>
    exact ⟨.of_eq rfl rfl rfl, rfl⟩

theorem advanceQueue_frame {pc pc' : QueuePc} (h : advanceQueue i ch c pc = some (c', pc')) :
    SlotStep c c' ∧ Writes (fun o => ∃ r, o = .command r) c c' := by
  cases pc with
  | recv =>
    simp only [advanceQueue] at h
    split at h
    · cases h
    · split_ifs at h <;> cases h <;> exact ⟨.of_eq rfl rfl rfl, .of_eq rfl⟩
  | send r =>
    cases h
    exact ⟨.of_eq rfl rfl rfl, .of_write ⟨r, rfl⟩ rfl⟩
  | top =>
    simp only [advanceQueue] at h
    split_ifs at h <;> cases h <;> exact ⟨.of_eq rfl rfl rfl, .of_eq rfl⟩
  | _ =>
    simp only [advanceQueue] at h
    try split_ifs at h
    all_goals cases h
    all_goals exact ⟨.of_eq rfl rfl rfl, .of_eq rfl⟩

theorem advanceInteractive_frame {pc pc' : InteractivePc}
    (h : advanceInteractive i command ch c pc = some (c', pc')) :
    SlotStep c c' ∧ Writes (fun o => ∃ r, o = .interactive r) c c' := by
  cases pc with
  | send r =>
    cases h
    exact ⟨.of_eq rfl rfl rfl, .of_write ⟨r, rfl⟩ rfl⟩
  | _ =>
    simp only [advanceInteractive] at h
    try split_ifs at h
    all_goals cases h
    all_goals exact ⟨.of_eq rfl rfl rfl, .of_eq rfl⟩

theorem advanceHold_frame {hold : Bool} {pc pc' : HoldPc}
    (h : advanceHold hold ch c pc = some (c', pc')) :
    SlotStep c c' ∧ Writes (· = .realtime) c c' := by
  cases pc with
  | start =>
    unfold advanceHold at h
    dsimp only at h
    split at h <;> cases h
    · exact ⟨.of_eq rfl rfl rfl, .of_write rfl rfl⟩
    · exact ⟨.of_eq rfl rfl rfl, .of_eq rfl⟩
  | writing err =>
    cases h
    exact ⟨.of_eq rfl rfl rfl, .of_eq rfl⟩
  | returned => cases h

/-- **The slot under a step of any task**: only a run about to spawn fills it. -/
theorem advance_slot (h : advance n i ch c b = some (c', b', spawned)) :
    SlotStep c c' ∨ ∃ job, b = .run job .spawn ∧ c' = { c with streamTask := some n } := by
  cases b with
  | run job pc =>
    obtain ⟨⟨c1, pc1, sp⟩, h1, h2⟩ := Option.map_eq_some_iff.mp h
    cases h2
    rcases (advanceRun_frame h1).1 with h | ⟨rfl, hc⟩
    · exact .inl h
    · exact .inr ⟨job, rfl, hc⟩
  | stream job pc =>
    obtain ⟨⟨c1, pc1⟩, h1, h2⟩ := Option.map_eq_some_iff.mp h
    cases h2
    have hf := (advanceStream_frame h1).1
    refine .inl ⟨?_, hf.ended, .inl hf.streamTask⟩
    rw [hf.aborted]
    exact List.Subset.refl _
  | cancel em pc =>
    obtain ⟨⟨c1, pc1⟩, h1, h2⟩ := Option.map_eq_some_iff.mp h
    cases h2
    exact .inl (advanceCancel_slot h1)
  | execute command pc =>
    obtain ⟨⟨c1, pc1⟩, h1, h2⟩ := Option.map_eq_some_iff.mp h
    cases h2
    exact .inl (advanceExecute_frame h1).1
  | queue pc =>
    obtain ⟨⟨c1, pc1⟩, h1, h2⟩ := Option.map_eq_some_iff.mp h
    cases h2
    exact .inl (advanceQueue_frame h1).1
  | interactive command pc =>
    obtain ⟨⟨c1, pc1⟩, h1, h2⟩ := Option.map_eq_some_iff.mp h
    cases h2
    exact .inl (advanceInteractive_frame h1).1
  | hold hold pc =>
    obtain ⟨⟨c1, pc1⟩, h1, h2⟩ := Option.map_eq_some_iff.mp h
    cases h2
    exact .inl (advanceHold_frame h1).1
  | link connect pc =>
    obtain ⟨⟨c1, pc1, sp⟩, h1, h2⟩ := Option.map_eq_some_iff.mp h
    cases h2
    exact .inl (advanceLink_frame h1).1

/-- **What a step of any task writes.** -/
theorem advance_writes (h : advance n i ch c b = some (c', b', spawned)) :
    Writes (b.mayWrite i) c c' := by
  cases b with
  | run job pc =>
    obtain ⟨⟨c1, pc1, sp⟩, h1, h2⟩ := Option.map_eq_some_iff.mp h
    cases h2
    exact (advanceRun_frame h1).2
  | stream job pc =>
    obtain ⟨⟨c1, pc1⟩, h1, h2⟩ := Option.map_eq_some_iff.mp h
    cases h2
    exact (advanceStream_frame h1).2
  | cancel em pc =>
    obtain ⟨⟨c1, pc1⟩, h1, h2⟩ := Option.map_eq_some_iff.mp h
    cases h2
    exact (advanceCancel_frame h1).2.1
  | execute command pc =>
    obtain ⟨⟨c1, pc1⟩, h1, h2⟩ := Option.map_eq_some_iff.mp h
    cases h2
    exact .of_eq (advanceExecute_frame h1).2
  | queue pc =>
    obtain ⟨⟨c1, pc1⟩, h1, h2⟩ := Option.map_eq_some_iff.mp h
    cases h2
    exact (advanceQueue_frame h1).2
  | interactive command pc =>
    obtain ⟨⟨c1, pc1⟩, h1, h2⟩ := Option.map_eq_some_iff.mp h
    cases h2
    exact (advanceInteractive_frame h1).2
  | hold hold pc =>
    obtain ⟨⟨c1, pc1⟩, h1, h2⟩ := Option.map_eq_some_iff.mp h
    cases h2
    exact (advanceHold_frame h1).2
  | link connect pc =>
    obtain ⟨⟨c1, pc1, sp⟩, h1, h2⟩ := Option.map_eq_some_iff.mp h
    cases h2
    exact .of_eq (advanceLink_frame h1).2

/-- A task of the streaming function. -/
def Body.isStream : Body → Bool
  | .stream _ _ => true
  | _ => false

/-- **What a step spawns**: a streaming task, by a run, or a command queue, by a connect. -/
theorem advance_spawned (h : advance n i ch c b = some (c', b', spawned)) :
    spawned = [] ∨ (∃ job, b = .run job .spawn ∧ spawned = [.stream job .start]) ∨
      ∃ on, b = .link on .closing ∧ spawned = [.queue .start] := by
  cases b with
  | run job pc =>
    obtain ⟨⟨c1, pc1, sp⟩, h1, h2⟩ := Option.map_eq_some_iff.mp h
    cases h2
    cases sp with
    | false => exact .inl rfl
    | true =>
      refine .inr (.inl ⟨job, ?_, rfl⟩)
      cases pc with
      | spawn => rfl
      | rawNext realtime =>
        cases realtime <;> simp only [advanceRun] at h1 <;> (try split_ifs at h1) <;> cases h1
      | abort =>
        simp only [advanceRun] at h1
        split at h1
        · cases h1
        · split_ifs at h1 <;> cases h1
      | _ =>
        simp only [advanceRun] at h1
        try split_ifs at h1
        all_goals cases h1
  | link connect pc =>
    obtain ⟨⟨c1, pc1, sp⟩, h1, h2⟩ := Option.map_eq_some_iff.mp h
    cases h2
    cases sp with
    | false => exact .inl rfl
    | true =>
      refine .inr (.inr ⟨connect, ?_, rfl⟩)
      cases pc with
      | closing => rfl
      | abort =>
        simp only [advanceLink] at h1
        split at h1
        · cases h1
        · split_ifs at h1 <;> cases h1
      | stop =>
        simp only [advanceLink] at h1
        split at h1 <;> cases h1
      | _ =>
        simp only [advanceLink] at h1
        try split_ifs at h1
        all_goals cases h1
  | _ =>
    obtain ⟨⟨c1, pc1⟩, h1, h2⟩ := Option.map_eq_some_iff.mp h
    cases h2
    exact .inl rfl

/-- A step never changes which function a task runs. -/
theorem advance_isStream (h : advance n i ch c b = some (c', b', spawned)) :
    b'.isStream = b.isStream := by
  cases b with
  | run job pc =>
    obtain ⟨⟨c1, pc1, sp⟩, -, h2⟩ := Option.map_eq_some_iff.mp h
    cases h2
    rfl
  | link connect pc =>
    obtain ⟨⟨c1, pc1, sp⟩, -, h2⟩ := Option.map_eq_some_iff.mp h
    cases h2
    rfl
  | _ =>
    obtain ⟨⟨c1, pc1⟩, -, h2⟩ := Option.map_eq_some_iff.mp h
    cases h2
    rfl

/-- The same of `cancel`. -/
theorem advance_cancel (h : advance n i ch c (.cancel em pc₀) = some (c', b', spawned)) :
    spawned = [] ∧ ∃ pc', b' = .cancel em pc' ∧
      advanceCancel i false em ch c pc₀ = some (c', pc') := by
  obtain ⟨⟨c1, pc1⟩, h1, h2⟩ := Option.map_eq_some_iff.mp h
  cases h2
  exact ⟨rfl, pc1, rfl, h1⟩

end All

/-! ### Received bytes -/

/-- What a chunk delivers, in the order in which it is handled: lines come first. -/
def Core.arrivals (data : Bytes) (c : Core) : List GrblResponse :=
  let responses := (c.flow.parseExtracted data).2.map Extracted.toResponse
  responses.filter (fun r => r.rtype == .line) ++ responses.filter fun r => !(r.rtype == .line)

theorem arrivals_perm (data : Bytes) (c : Core) :
    (c.arrivals data).Perm ((c.flow.parseExtracted data).2.map Extracted.toResponse) :=
  List.filter_append_perm _ _

/-- The handling of a chunk is that of its responses, one by one. -/
theorem handleRx_fold {P : Core → Prop} {data : Bytes} {c : Core}
    (hnote : ∀ c' : Core, P c' → P c'.notified)
    (hfold : ∀ flow n, P ((c.arrivals data).foldl Core.handleResponse (c.popped flow n))) :
    P (c.handleRx data) := by
  unfold Core.arrivals at hfold
  unfold Core.handleRx
  generalize c.flow.parseExtracted data = x at hfold ⊢
  obtain ⟨flow, es⟩ := x
  exact hnote _ (hfold flow _)

/-- **What every response of a chunk keeps, the chunk keeps.** -/
theorem handleRx_keeps {P : Core → Prop} {data : Bytes} {c : Core}
    (hpop : ∀ flow n, P (c.popped flow n)) (hnote : ∀ c' : Core, P c' → P c'.notified)
    (hrespond : ∀ r ∈ c.arrivals data, ∀ c' : Core, P c' → P (c'.handleResponse r)) :
    P (c.handleRx data) := by
  have hfold : ∀ (rs : List GrblResponse) (c' : Core),
      (∀ r ∈ rs, ∀ c' : Core, P c' → P (c'.handleResponse r)) → P c' →
        P (rs.foldl Core.handleResponse c') := by
    intro rs
    induction rs with
    | nil => exact fun _ _ h => h
    | cons r rs ih =>
      exact fun c' hrs h =>
        ih _ (fun r' hr' => hrs r' (List.mem_cons_of_mem r hr')) (hrs r List.mem_cons_self c' h)
  exact handleRx_fold hnote fun flow n => hfold _ _ hrespond (hpop flow n)

/-- What every response leaves alone, a chunk leaves alone. -/
theorem handleRx_same {α : Type*} {f : Core → α} (hpop : ∀ c flow n, f (Core.popped flow n c) = f c)
    (hnote : ∀ c : Core, f c.notified = f c)
    (hrespond : ∀ (c : Core) (r : GrblResponse), f (c.handleResponse r) = f c)
    (data : Bytes) (c : Core) : f (c.handleRx data) = f c :=
  handleRx_keeps (P := fun c' => f c' = f c) (fun flow n => hpop c flow n)
    (fun c' h => (hnote c').trans h) fun r _ c' h => (hrespond c' r).trans h

/-- What the handling of received bytes leaves alone. -/
structure RxFrame (c c' : Core) : Prop where
  config : c'.config = c.config
  dialect : c'.dialect = c.dialect
  isOpen : c'.isOpen = c.isOpen
  keepRunning : c'.keepRunning = c.keepRunning
  jobRunning : c'.jobRunning = c.jobRunning
  isCancelled : c'.isCancelled = c.isCancelled
  isHolding : c'.isHolding = c.isHolding
  currentRequest : c'.currentRequest = c.currentRequest
  interactiveRequest : c'.interactiveRequest = c.interactiveRequest
  queuedRequests : c'.queuedRequests = c.queuedRequests
  channel : c'.channel = c.channel
  queueOpen : c'.queueOpen = c.queueOpen
  streamTask : c'.streamTask = c.streamTask
  commandTask : c'.commandTask = c.commandTask
  cmdLock : c'.cmdLock = c.cmdLock
  aborted : c'.aborted = c.aborted
  ended : c'.ended = c.ended
  sent : c'.sent = c.sent
  dropped : c'.dropped = c.dropped

namespace RxFrame

variable {c c' c'' : Core}

theorem refl (c : Core) : RxFrame c c := by constructor <;> rfl

theorem trans (h : RxFrame c c') (h' : RxFrame c' c'') : RxFrame c c'' := by
  obtain ⟨⟩ := h
  obtain ⟨⟩ := h'
  constructor <;> simp only [*]

end RxFrame

theorem handleLine_frame (line : Text) (c : Core) : RxFrame c (c.handleLine line) := by
  unfold Core.handleLine
  split_ifs
  · exact .refl c
  · constructor <;> rfl
  · dsimp only
    split <;> constructor <;> rfl
  · dsimp only
    split <;> constructor <;> rfl

theorem handleResponse_frame (c : Core) (r : GrblResponse) : RxFrame c (c.handleResponse r) := by
  unfold Core.handleResponse
  split
  · unfold Core.handleOk
    dsimp only
    split <;> constructor <;> rfl
  · constructor <;> rfl
  · exact handleLine_frame r.text c

/-- **The frame of received bytes.** -/
theorem handleRx_frame (data : Bytes) (c : Core) : RxFrame c (c.handleRx data) := by
  have hnote : ∀ c' : Core, RxFrame c' c'.notified := fun c' => by constructor <;> rfl
  exact handleRx_keeps (fun flow n => by constructor <;> rfl) (fun c' h => h.trans (hnote c'))
    fun r _ c' h => h.trans (handleResponse_frame c' r)

/-! ### The exception of a job -/

/-- Received lines never take an exception back. -/
theorem handleResponse_exception (c : Core) (r : GrblResponse)
    (h : c.jobException.isSome = true) : (c.handleResponse r).jobException.isSome = true := by
  have hhalt : ∀ (m : Text) (c₀ : Core), c₀.jobException.isSome = true →
      (c₀.haltJob m).jobException.isSome = true := by
    intro m c₀ h₀
    unfold Core.haltJob
    dsimp only
    split_ifs
    · rfl
    · exact h₀
  unfold Core.handleResponse
  split
  · unfold Core.handleOk
    dsimp only
    split <;> exact h
  · exact hhalt _ _ h
  · unfold Core.handleLine
    split_ifs
    · exact h
    · exact h
    all_goals
      dsimp only
      split
      · exact hhalt _ _ h
      · exact h

theorem foldl_handleResponse_exception (rs : List GrblResponse) : ∀ c : Core,
    c.jobException.isSome = true → (rs.foldl Core.handleResponse c).jobException.isSome = true := by
  induction rs with
  | nil => exact fun c h => h
  | cons r rs ih => exact fun c h => ih _ (handleResponse_exception c r h)

theorem handleRx_exception (data : Bytes) (c : Core) (h : c.jobException.isSome = true) :
    (c.handleRx data).jobException.isSome = true :=
  handleRx_keeps (P := fun c => c.jobException.isSome = true) (fun _ _ => h) (fun _ h => h)
    fun r _ c' h => handleResponse_exception c' r h

/-! ### The session -/

namespace Sys

variable {i j : ℕ} {ch : Choice} {s u : Sys} {b : Body} {l : Label}

/-- **The inversion of a step of a task.** -/
theorem step_task (h : Sys.step (.task i ch) s = some u) :
    ∃ b c' b' spawned, s.tasks[i]? = some b ∧ s.alive i = true ∧
      (s.active = some i ∨ (s.active = none ∧ b.suspended = true)) ∧
      advance s.tasks.length i ch s.core b = some (c', b', spawned) ∧
      u = ⟨c', s.tasks.set i b' ++ spawned, if b'.suspended then none else some i⟩ := by
  simp only [Sys.step, Sys.advanceTask] at h
  split at h
  · cases h
  · rename_i b hb
    split_ifs at h with hen
    · rw [Bool.and_eq_true, Bool.or_eq_true, Bool.and_eq_true, decide_eq_true_eq,
        decide_eq_true_eq] at hen
      obtain ⟨⟨c', b', spawned⟩, h1, h2⟩ := Option.map_eq_some_iff.mp h
      exact ⟨b, c', b', spawned, hb, hen.1, hen.2, h1, h2.symm⟩

/-- What is not a step of a task: it happens between await points, leaves the slot, the
aborted tasks and the tasks there are, and writes realtime bytes at most. -/
theorem step_other (h : Sys.step l s = some u) (hl : ∀ i ch, l ≠ .task i ch) :
    s.active = none ∧ u.core.streamTask = s.core.streamTask ∧
      u.core.aborted = s.core.aborted ∧ s.core.ended ⊆ u.core.ended ∧
      Writes (· = .realtime) s.core u.core ∧ s.tasks <+: u.tasks := by
  have hsub := List.Subset.refl s.core.ended
  have hpre := List.prefix_refl s.tasks
  cases l with
  | task i ch => exact absurd rfl (hl i ch)
  | call op =>
    simp only [Sys.step] at h
    split_ifs at h with ha
    cases h
    exact ⟨ha, rfl, rfl, hsub, .of_eq rfl, List.prefix_append _ _⟩
  | drop i =>
    simp only [Sys.step, Sys.dropTask] at h
    split at h
    case isFalse => cases h
    rename_i ha
    cases h
    simp only [Bool.and_eq_true, decide_eq_true_eq] at ha
    exact ⟨ha.1.1, rfl, rfl, List.subset_cons_self _ _, .of_eq rfl, hpre⟩
  | rx data =>
    simp only [Sys.step, Sys.outside] at h
    split_ifs at h with ha
    cases h
    have hf := handleRx_frame data s.core
    exact ⟨ha, hf.streamTask, hf.aborted, by rw [hf.ended]; exact hsub, .of_eq hf.sent, hpre⟩
  | poll err =>
    simp only [Sys.step, Sys.outside] at h
    split_ifs at h with ha
    cases h
    unfold pollStatus
    split_ifs
    · exact ⟨ha, rfl, rfl, hsub, .of_write rfl rfl, hpre⟩
    · exact ⟨ha, rfl, rfl, hsub, .of_eq rfl, hpre⟩
  | _ =>
    simp only [Sys.step, Sys.outside] at h
    split_ifs at h with ha
    cases h
    exact ⟨ha, rfl, rfl, hsub, .of_eq rfl, hpre⟩

/-- **Every step appends to the wire**, and only a live task writes under its own name. -/
theorem step_writes (h : Sys.step l s = some u) :
    ∃ w, u.core.sent = s.core.sent ++ w ∧ ∀ e ∈ w, e.origin = .realtime ∨
      ∃ j ch b, l = .task j ch ∧ s.tasks[j]? = some b ∧ s.alive j = true ∧
        b.mayWrite j e.origin := by
  by_cases hl : ∃ i ch, l = .task i ch
  · obtain ⟨i, ch, rfl⟩ := hl
    obtain ⟨b, c', b', spawned, hb, halive, -, hadv, rfl⟩ := step_task h
    obtain ⟨w, hw, hP⟩ := advance_writes hadv
    exact ⟨w, hw, fun e he => .inr ⟨i, ch, b, rfl, hb, halive, hP e he⟩⟩
  · obtain ⟨-, -, -, -, ⟨w, hw, hP⟩, -⟩ := step_other h fun i ch hi => hl ⟨i, ch, hi⟩
    exact ⟨w, hw, fun e he => .inl (hP e he)⟩

theorem alive_eq_false : s.alive i = false ↔ i ∈ s.core.aborted ∨ i ∈ s.core.ended := by
  unfold alive
  rw [Bool.and_eq_false_iff, Bool.not_eq_false', Bool.not_eq_false', List.contains_iff_mem,
    List.contains_iff_mem]

/-- The aborted and the ended tasks only get more. -/
theorem step_grows (h : Sys.step l s = some u) :
    s.core.aborted ⊆ u.core.aborted ∧ s.core.ended ⊆ u.core.ended := by
  by_cases hl : ∃ i ch, l = .task i ch
  · obtain ⟨i, ch, rfl⟩ := hl
    obtain ⟨b, c', b', spawned, -, -, -, hadv, rfl⟩ := step_task h
    rcases advance_slot hadv with hs | ⟨job, -, rfl⟩
    · exact ⟨hs.aborted, hs.ended⟩
    · exact ⟨List.Subset.refl _, List.Subset.refl _⟩
  · obtain ⟨-, -, ha, he, -, -⟩ := step_other h fun i ch hi => hl ⟨i, ch, hi⟩
    rw [ha]
    exact ⟨List.Subset.refl _, he⟩

/-- A dead task stays dead. -/
theorem step_dead (h : Sys.step l s = some u) (hi : s.alive i = false) : u.alive i = false := by
  rw [alive_eq_false] at hi ⊢
  exact hi.imp (fun hi => (step_grows h).1 hi) (fun hi => (step_grows h).2 hi)

/-- Tasks are numbered for good. -/
theorem step_length (h : Sys.step l s = some u) : s.tasks.length ≤ u.tasks.length := by
  by_cases hl : ∃ i ch, l = .task i ch
  · obtain ⟨i, ch, rfl⟩ := hl
    obtain ⟨b, c', b', spawned, -, -, -, -, rfl⟩ := step_task h
    simp
  · obtain ⟨-, -, -, -, -, hpre⟩ := step_other h fun i ch hi => hl ⟨i, ch, hi⟩
    exact hpre.length_le

/-- The step of another task leaves task `j` as it is. -/
theorem step_tasks (h : Sys.step l s = some u) (hj : s.tasks[j]? = some b)
    (hl : ∀ ch, l ≠ .task j ch) : u.tasks[j]? = some b := by
  have hlen : j < s.tasks.length := (List.getElem?_eq_some_iff.mp hj).1
  by_cases hl' : ∃ i ch, l = .task i ch
  · obtain ⟨i, ch, rfl⟩ := hl'
    obtain ⟨b₀, c', b', spawned, -, -, -, -, rfl⟩ := step_task h
    have hij : i ≠ j := fun hij => hl ch (by rw [hij])
    rw [List.getElem?_append_left (by rw [List.length_set]; exact hlen),
      List.getElem?_set_ne hij, hj]
  · obtain ⟨-, -, -, -, -, ts, hts⟩ := step_other h fun i ch hi => hl' ⟨i, ch, hi⟩
    rw [← hts, List.getElem?_append_left hlen, hj]

/-- **What a new task is**: the body of a call, a streaming task at its start, or a command
queue. -/
theorem step_new (h : Sys.step l s = some u) (hj : s.tasks[j]? = none) (hu : u.tasks[j]? = some b) :
    (∃ op : Call, l = .call op ∧ b = op.body) ∨
      (∃ i ch job, l = .task i ch ∧ s.tasks[i]? = some (.run job .spawn) ∧
        b = .stream job .start) ∨ b = .queue .start := by
  have hlen : s.tasks.length ≤ j := List.getElem?_eq_none_iff.mp hj
  cases l with
  | call op =>
    simp only [Sys.step] at h
    split_ifs at h
    cases h
    have hu' : (s.tasks ++ [op.body])[j]? = some b := hu
    rw [List.getElem?_append_right hlen, List.getElem?_singleton] at hu'
    split_ifs at hu'
    exact .inl ⟨op, rfl, (Option.some.inj hu').symm⟩
  | task i ch =>
    obtain ⟨b₀, c', b', spawned, hb₀, -, -, hadv, rfl⟩ := step_task h
    have hu' : (s.tasks.set i b' ++ spawned)[j]? = some b := hu
    rw [List.getElem?_append_right (by rw [List.length_set]; exact hlen)] at hu'
    have hmem : b ∈ spawned := List.mem_of_getElem? hu'
    rcases advance_spawned hadv with rfl | ⟨job, rfl, rfl⟩ | ⟨on, rfl, rfl⟩
    · cases hmem
    · exact .inr (.inl ⟨i, ch, job, rfl, hb₀, List.mem_singleton.mp hmem⟩)
    · exact .inr (.inr (List.mem_singleton.mp hmem))
  | drop i =>
    simp only [Sys.step, Sys.dropTask] at h
    split at h
    case isFalse => cases h
    cases h
    cases hj.symm.trans hu
  | _ =>
    simp only [Sys.step, Sys.outside] at h
    split_ifs at h
    cases h
    cases hj.symm.trans hu

/-- **Between two await points a task is alone**: while another one moves, task `j` is at
an await point. -/
theorem step_waits (h : Sys.step l s = some u) (hl : ∀ ch, l ≠ .task j ch)
    (hact : b.suspended = false → s.active = some j) : b.suspended = true := by
  by_contra hb
  have hactive := hact (by simpa using hb)
  by_cases hl' : ∃ i ch, l = .task i ch
  · obtain ⟨i, ch, rfl⟩ := hl'
    obtain ⟨b₀, c', b', spawned, -, -, hen, -, -⟩ := step_task h
    have hij : i ≠ j := fun hij => hl ch (by rw [hij])
    rcases hen with hen | ⟨hen, -⟩ <;> rw [hactive] at hen
    · exact hij (Option.some.inj hen).symm
    · cases hen
  · obtain ⟨hnone, -⟩ := step_other h fun i ch hi => hl' ⟨i, ch, hi⟩
    rw [hactive] at hnone
    cases hnone

end Sys

end Raydriver
