import Raydriver.Grbl.AlarmKept
import Raydriver.Grbl.Panel

/-!
# The hold flag

While the hold flag is set every status report but an alarm is stored as a hold.  The flag
is set by `set_hold(true)`, before its command goes out, and it is cleared by
`set_hold(false)`, at the start of a job and in the final block of the streaming task.  A
`cancel` does not touch it, and it drops the streaming task before its final block.

## Main definitions

* `Body.releases`, `releases` — the steps that clear the flag.
* `ShowsSent` — a status report is stored with the status that the device sent.
* `Cancelled` — a `cancel` from its call to its return.
* `HoldFailed`, `LeavesView` — a `set_hold` whose command has not gone out, and that it changes
  nothing of what it should leave alone.

## Main results

* `step_isHolding` — the flag under the steps of a session.
* `cancel_ends_hold` — **when a cancelled session shows what the device sends**.
* `held_behind_cancel` — a `cancel` that leaves a held session held.
* `leavesView_iff` — when a `set_hold` that fails changes nothing.
-/

namespace Raydriver

open Lts

/-! ### Who clears the flag -/

/-- The next step of the task clears the hold flag. -/
def Body.releases : Body → Bool
  | .hold false .start | .run _ .begin | .stream _ (.final _) => true
  | _ => false

/-- The step clears the hold flag. -/
def releases (s : Sys) : Label → Bool
  | .task i _ => (s.tasks[i]?).any Body.releases
  | _ => false

/-- No `set_hold(true)` is about to set the flag. -/
def NoHold (s : Sys) : Prop := ∀ i, s.active = some i → s.tasks[i]? ≠ some (.hold true .start)

section Steps

variable {n i : ℕ} {ch : Choice} {c c' : Core} {b b' : Body} {spawned : List Body}
  {s u : Sys} {l : Label}

theorem touch_isHolding (hb : b ≠ .hold true .start) (c : Core) (p : Panel) :
    (b.touch c p).isHolding = (p.isHolding && !b.releases) := by
  unfold Body.touch
  split
  · rename_i on
    cases on with
    | true => exact absurd rfl hb
    | false => exact (Bool.and_false _).symm
  · exact (Bool.and_false _).symm
  · exact (Bool.and_false _).symm
  · split_ifs <;> exact (Bool.and_true _).symm
  · rename_i hhold hrun hfinal hfailed
    have hkeep : b.releases = false := by
      unfold Body.releases
      split
      · exact absurd rfl (hhold _)
      · exact absurd rfl (hrun _)
      · exact absurd rfl (hfinal _ _)
      · rfl
    rw [hkeep]
    exact (Bool.and_true _).symm

/-- No task comes back to the start of a `set_hold`. -/
theorem advance_ne_hold_start {on : Bool} (h : advance n i ch c b = some (c', b', spawned)) :
    b' ≠ .hold on .start := by
  rintro rfl
  cases b with
  | hold on' pc =>
    obtain ⟨⟨c₁, pc₁⟩, h1, h2⟩ := Option.map_eq_some_iff.mp h
    cases h2
    cases pc with
    | start =>
      unfold advanceHold at h1
      dsimp only at h1
      split at h1 <;> cases h1
    | writing err => cases h1
    | returned => cases h1
  | _ =>
    obtain ⟨x, -, h2⟩ := Option.map_eq_some_iff.mp h
    cases h2

/-- Without a call of `set_hold(true)` none is about to set the flag. -/
theorem noHold_step (hs : Sys.step l s = some u) (hl : l ≠ .call (.setHold true)) :
    NoHold u := by
  intro j hj hstart
  cases l with
  | task i ch =>
    obtain ⟨b, c', b', spawned, hb, -, -, hadv, rfl⟩ := Sys.step_task hs
    obtain rfl : i = j := by
      by_contra hne
      split_ifs at hj
      exact hne (Option.some.inj hj)
    have hlen : i < (s.tasks.set i b').length := by
      rw [List.length_set]
      exact (List.getElem?_eq_some_iff.mp hb).1
    rw [List.getElem?_append_left hlen, List.getElem?_set_self (by simpa using hlen)] at hstart
    exact advance_ne_hold_start hadv (Option.some.inj hstart)
  | call op =>
    simp only [Sys.step] at hs
    split_ifs at hs
    cases hs
    obtain rfl : s.tasks.length = j := Option.some.inj hj
    rw [List.getElem?_append_right (Nat.le_refl _), Nat.sub_self] at hstart
    have hop : op.body = .hold true .start := Option.some.inj hstart
    cases op with
    | setHold on =>
      cases hop
      exact hl rfl
    | _ => cases hop
  | drop i =>
    simp only [Sys.step, Sys.dropTask] at hs
    split at hs
    · rename_i hactive
      cases hs
      simp only [Bool.and_eq_true, decide_eq_true_eq] at hactive
      exact absurd (hactive.1.1.symm.trans hj) (by simp)
    · cases hs
  | _ =>
    simp only [Sys.step, Sys.outside] at hs
    split_ifs at hs with hactive
    cases hs
    exact absurd (hactive.symm.trans hj) (by simp)

/-- **The hold flag under the steps of a session** without a `set_hold(true)`: a releasing
step clears it, and no other one touches it. -/
theorem step_isHolding (hs : Sys.step l s = some u) (h : NoHold s) :
    u.core.isHolding = (s.core.isHolding && !releases s l) := by
  by_cases hl : ∃ i ch, l = .task i ch
  · obtain ⟨i, ch, rfl⟩ := hl
    obtain ⟨b, c', b', spawned, hb, -, hen, hadv, rfl⟩ := Sys.step_task hs
    have hpanel := congrArg Panel.isHolding (advance_panel hadv)
    have hstart : b ≠ .hold true .start := by
      rintro rfl
      rcases hen with hactive | ⟨-, hsuspended⟩
      · exact h i hactive hb
      · cases hsuspended
    rw [touch_isHolding hstart] at hpanel
    simp only [releases, hb, Option.any_some]
    exact hpanel
  · have hkeep : releases s l = false := by
      cases l with
      | task i ch => exact absurd ⟨i, ch, rfl⟩ hl
      | _ => rfl
    rw [hkeep, Bool.not_false, Bool.and_true]
    by_cases hrx : ∃ data, l = .rx data
    · obtain ⟨data, rfl⟩ := hrx
      obtain ⟨-, rfl⟩ := Sys.step_rx hs
      exact (handleRx_frame data s.core).isHolding
    · exact congrArg Panel.isHolding (Sys.step_panel hs (fun i ch hi => hl ⟨i, ch, hi⟩)
        fun data hd => hrx ⟨data, hd⟩)

/-- The flag after a run without a `set_hold(true)`, in which `n` steps release it. -/
theorem run_isHolding {t : Sys} {r : ℕ}
    (hr : CountedRun Sys.step (fun _ l _ => l ≠ .call (.setHold true)) releases
      (fun _ _ => false) n r s t) (h : NoHold s) :
    t.core.isHolding = (s.core.isHolding && decide (n = 0)) := by
  induction hr with
  | refl => simp
  | tail hrun hst hok ih =>
    have hno := hrun.run.invariant (fun _ _ _ _ hs hok => noHold_step hs hok) h
    rw [step_isHolding hst hno, ih h]
    cases releases _ _ <;> simp

end Steps

/-! ### What is shown -/

/-- Every status report is stored with the status that the device sent, but for an idle
machine while a job runs. -/
def ShowsSent (c : Core) : Prop :=
  ∀ report : Text, (c.handleStatusReport report).state.status =
    let sent := (parseState report c.state c.reportInInches).status
    if c.jobRunning ∧ sent = .idle then .run else sent

/-- The status is shown as it was sent just in a session that is not held. -/
theorem showsSent_iff (c : Core) : ShowsSent c ↔ c.isHolding = false := by
  constructor
  · intro h
    have hidle := h "<Idle>".toList
    have hsent : (parseState "<Idle>".toList c.state c.reportInInches).status = .idle := rfl
    by_contra hholding
    rw [Bool.not_eq_false] at hholding
    have hshown : (c.handleStatusReport "<Idle>".toList).state.status = .hold := by
      show c.shownStatus (parseState "<Idle>".toList c.state c.reportInInches).status = .hold
      rw [hsent]
      unfold Core.shownStatus
      rw [hholding]
      cases c.jobRunning <;> rfl
    rw [hshown, hsent] at hidle
    cases hrunning : c.jobRunning <;> simp [hrunning] at hidle
  · intro hholding report
    show c.shownStatus _ = _
    unfold Core.shownStatus
    rw [hholding]
    exact if_neg fun h => Bool.false_ne_true h.1

/-! ### `cancel` -/

/-- A `cancel` called in `s₀` has returned without an error in `t`; meanwhile nobody calls
`set_hold(true)`, and `n` steps release the hold. -/
structure Cancelled (em : Bool) (s₀ t : Sys) (n : ℕ) : Prop where
  run : ∃ s r, Sys.step (.call (.cancel em)) s₀ = some s ∧
    CountedRun Sys.step (fun _ l _ => l ≠ .call (.setHold true)) releases (fun _ _ => false) n r s t
  returned : t.tasks[s₀.tasks.length]? = some (.cancel em (.returned none))

/-- Behind the call of a `cancel` no `set_hold` is about to set the flag. -/
theorem noHold_of_cancel {em : Bool} {s₀ s : Sys} (hs : Sys.step (.call (.cancel em)) s₀ = some s) :
    NoHold s ∧ s.core = s₀.core := by
  simp only [Sys.step] at hs
  split_ifs at hs
  cases hs
  refine ⟨fun j hj hstart => ?_, rfl⟩
  obtain rfl : s₀.tasks.length = j := Option.some.inj hj
  rw [List.getElem?_append_right (Nat.le_refl _), Nat.sub_self] at hstart
  cases hstart

/-- **When a cancelled session shows what the device sends**: the flag is clear behind a
`cancel`, and every later report is stored with the status sent until the next
`set_hold(true)`, if and only if the session was not held when `cancel` was called or a
step of another task released the hold meanwhile. -/
theorem cancel_ends_hold {em : Bool} {s₀ t : Sys} {n : ℕ} (h : Cancelled em s₀ t n) :
    (t.core.isHolding = false ∧ ∀ u : Sys,
      Run Sys.step (fun _ l _ => l ≠ .call (.setHold true)) t u → ShowsSent u.core) ↔
    s₀.core.isHolding = false ∨ 0 < n := by
  obtain ⟨s, r, hs, hrun⟩ := h.run
  obtain ⟨hno, hcore⟩ := noHold_of_cancel hs
  have hholding := run_isHolding hrun hno
  rw [hcore] at hholding
  have hiff : t.core.isHolding = false ↔ s₀.core.isHolding = false ∨ 0 < n := by
    rw [hholding, Bool.and_eq_false_iff, decide_eq_false_iff_not, Nat.pos_iff_ne_zero]
  rw [← hiff]
  refine ⟨And.left, fun hclear => ⟨hclear, fun u hu => ?_⟩⟩
  -- what is released stays released
  have hno' : NoHold t := hrun.run.invariant (fun _ _ _ _ hs hok => noHold_step hs hok) hno
  obtain ⟨m, r', hcounted⟩ := hu.counted releases fun _ _ => false
  rw [showsSent_iff, run_isHolding hcounted hno', hclear, Bool.false_and]

/-- A job that is held after its first line. -/
def heldJob : Sys :=
  reach Sys.step (.call (.run twoLines) :: turns 0 3 ++ turns 1 6 ++ .call (.setHold true) ::
    turns 2 2) { core := {}, tasks := [] }

/-- The steps of a `cancel` of the held job. -/
def cancelHeld : List Label := turns 3 3 ++ .drop 1 :: turns 3 3

/-- A session that is idle and not held. -/
def idleSession : Sys := { core := {}, tasks := [] }

/-- The held job, with its `cancel` called. -/
def cancelCalled : Sys := reach Sys.step [.call (.cancel false)] heldJob

/-- The `cancel` is behind its soft reset, and a `set_hold(false)` is called. -/
def releaseCalled : Sys := reach Sys.step (turns 3 1 ++ [.call (.setHold false)]) cancelCalled

/-- The other steps of the two. -/
def cancelReleased : List Label := turns 4 1 ++ turns 3 2 ++ .drop 1 :: turns 3 3

/-- A held job that a `set_hold(false)` releases while it is cancelled: the general result. -/
theorem cancel_ends_hold_released :
    let t := reach Sys.step cancelReleased (reach Sys.step [.task 4 {}] releaseCalled)
    heldJob.core.isHolding = true ∧ t.core.isHolding = false := by
  intro t
  have hs : Sys.step (.call (.cancel false)) heldJob = some cancelCalled := by decide
  have hcall : Run Sys.step (fun _ l _ => l ≠ .call (.setHold true)) cancelCalled releaseCalled :=
    (run_reach_where (p := fun _ l => l != Label.call (.setHold true)) (by decide)).mono
      fun _ _ _ hok => bne_iff_ne.mp hok
  have hrest : Run Sys.step (fun _ l _ => l ≠ .call (.setHold true))
      (reach Sys.step [.task 4 {}] releaseCalled) t :=
    (run_reach_where (p := fun _ l => l != Label.call (.setHold true)) (by decide)).mono
      fun _ _ _ hok => bne_iff_ne.mp hok
  obtain ⟨n, r, hcounted⟩ := hcall.counted releases fun _ _ => false
  -- the step of the `set_hold` is the one that counts
  have hstep : Sys.step (.task 4 {}) releaseCalled
      = some (reach Sys.step [.task 4 {}] releaseCalled) := by decide
  have hreleased := hcounted.tail hstep (by decide)
  obtain ⟨m, r', hcounted'⟩ := hrest.counted releases fun _ _ => false
  have hrun := hreleased.trans hcounted'
  have hone : (releases releaseCalled (.task 4 {})).toNat = 1 := by decide
  have hcancelled : Cancelled false heldJob t _ := ⟨⟨_, _, hs, hrun⟩, by decide⟩
  exact ⟨by decide, ((cancel_ends_hold hcancelled).mpr (.inr (by omega))).1⟩

/-- **A `cancel` leaves a held session held**: it returns without an error, and an idle
machine is shown as held. -/
theorem held_behind_cancel :
    (¬ ∀ (em : Bool) (s₀ t : Sys) (n : ℕ), Run Sys.step AnyStep idleSession s₀ →
      Cancelled em s₀ t n → t.core.isHolding = false) ∧
    let t := reach Sys.step (.call (.cancel false) :: cancelHeld) heldJob
    t.core.jobRunning = false ∧
      (t.core.handleRx (ascii "<Idle|MPos:0,0,0>\n")).state.status = .hold := by
  refine ⟨fun h => ?_, by decide⟩
  have hs : Sys.step (.call (.cancel false)) heldJob =
      some (reach Sys.step [.call (.cancel false)] heldJob) := by decide
  have hrun : Run Sys.step (fun _ l _ => l ≠ .call (.setHold true))
      (reach Sys.step [.call (.cancel false)] heldJob)
      (reach Sys.step cancelHeld (reach Sys.step [.call (.cancel false)] heldJob)) :=
    (run_reach_where (p := fun _ l => l != Label.call (.setHold true)) (by decide)).mono
      fun _ _ _ hok => bne_iff_ne.mp hok
  obtain ⟨n, r, hcounted⟩ := hrun.counted releases fun _ _ => false
  have hcancelled : Cancelled false heldJob _ n := ⟨⟨_, r, hs, hcounted⟩, by decide⟩
  exact absurd (h false heldJob _ n (run_reach (by decide)) hcancelled) (by decide)

/-! ### A `set_hold` that fails -/

/-- What a `set_hold` that fails has to leave as it was. -/
def Core.holdView (c : Core) : Bool × Bool × DeviceState := (c.isHolding, c.isCancelled, c.state)

/-- The flags that `set_hold` sets before its command goes out are set this way already. -/
def Core.isSettled (hold : Bool) (c : Core) : Bool :=
  c.isHolding == hold && (!c.isCancelled || c.jobRunning || !c.streamDone)

/-- The counter of a `set_hold` whose command has not gone out. -/
def HoldPc.failed : HoldPc → Bool
  | .writing (some _) | .returned => true
  | _ => false

/-- Task `i` is a `set_hold` whose command has not gone out. -/
def HoldFailed (i : ℕ) (s : Sys) : Prop :=
  ∃ on pc, s.tasks[i]? = some (.hold on pc) ∧ pc.failed = true

/-- The `set_hold` of task `i`, called in `s` and past its first step in `t`, changes neither
the flags nor the state: not up to `t`, and not in any later step. -/
def LeavesView (i : ℕ) (s t : Sys) : Prop :=
  t.core.holdView = s.core.holdView ∧ ∀ (u v : Sys) (ch : Choice), Run Sys.step AnyStep t u →
    Sys.step (.task i ch) u = some v → v.core.holdView = u.core.holdView

section Failed

variable {i : ℕ} {hold : Bool} {ch : Choice} {c c' : Core} {pc pc' : HoldPc} {s t u : Sys} {l : Label}

/-- What a `set_hold` that fails leaves behind: the flags are set all the same. -/
theorem advanceHold_view (hfail : c.isOpen = false ∨ ch.writeError.isSome = true)
    (h : advanceHold hold ch c .start = some (c', pc')) :
    pc'.failed = true ∧ c'.holdView =
      (hold, if !c.jobRunning && c.streamDone then false else c.isCancelled, c.state) := by
  unfold advanceHold at h
  dsimp only at h
  split at h
  · rename_i hopen
    cases h
    refine ⟨?_, rfl⟩
    rcases hfail with hclosed | herr
    · exact absurd (hclosed.symm.trans hopen) Bool.false_ne_true
    · obtain ⟨e, he⟩ := Option.isSome_iff_exists.mp herr
      rw [he]
      rfl
  · cases h
    exact ⟨rfl, rfl⟩

/-- Behind a failed write a `set_hold` only returns. -/
theorem advanceHold_failed (hpc : pc.failed = true)
    (h : advanceHold hold ch c pc = some (c', pc')) : pc'.failed = true ∧ c' = c := by
  cases pc with
  | start => cases hpc
  | writing err =>
    cases err with
    | none => cases hpc
    | some e =>
      cases h
      exact ⟨rfl, rfl⟩
  | returned => cases h

/-- A `set_hold` that has failed stays so, and its steps change nothing. -/
theorem HoldFailed.step (h : HoldFailed i s) (hs : Sys.step l s = some u) :
    HoldFailed i u ∧ ∀ ch, l = .task i ch → u.core = s.core := by
  obtain ⟨on, pc, hi, hpc⟩ := h
  by_cases hl : ∃ ch, l = .task i ch
  · obtain ⟨ch, rfl⟩ := hl
    obtain ⟨b, c', b', spawned, hb, -, -, hadv, rfl⟩ := Sys.step_task hs
    obtain rfl : b = .hold on pc := Option.some.inj (hb.symm.trans hi)
    obtain ⟨⟨c₁, pc₁⟩, h1, h2⟩ := Option.map_eq_some_iff.mp hadv
    cases h2
    obtain ⟨hpc₁, rfl⟩ := advanceHold_failed hpc h1
    have hlen : i < s.tasks.length := (List.getElem?_eq_some_iff.mp hi).1
    refine ⟨⟨on, pc₁, ?_, hpc₁⟩, fun _ _ => rfl⟩
    rw [List.getElem?_append_left (by rw [List.length_set]; exact hlen),
      List.getElem?_set_self hlen]
  · have hne : ∀ ch, l ≠ .task i ch := fun ch hch => hl ⟨ch, hch⟩
    exact ⟨⟨on, pc, Sys.step_tasks hs hi hne, hpc⟩, fun ch hch => absurd hch (hne ch)⟩

theorem isSettled_iff (hold : Bool) (c : Core) : c.isSettled hold = true ↔
    (hold, if !c.jobRunning && c.streamDone then false else c.isCancelled, c.state) =
      c.holdView := by
  unfold Core.isSettled Core.holdView
  rw [Prod.mk.injEq, Prod.mk.injEq]
  cases hold <;> cases c.isHolding <;> cases c.isCancelled <;> cases c.jobRunning <;>
    cases c.streamDone <;> simp

/-- **When a `set_hold` that fails changes nothing**: if and only if the flags were set this
way already. -/
theorem leavesView_iff (hfail : s.core.isOpen = false ∨ ch.writeError.isSome = true)
    (h : exec Sys.step [.call (.setHold hold), .task s.tasks.length ch] s = some t) :
    LeavesView s.tasks.length s t ↔ s.core.isSettled hold = true := by
  obtain ⟨s₁, hcall, h⟩ := Option.bind_eq_some_iff.mp h
  obtain ⟨t', htask, ht⟩ := Option.bind_eq_some_iff.mp h
  obtain rfl : t' = t := Option.some.inj ht
  simp only [Sys.step] at hcall
  split_ifs at hcall
  cases hcall
  obtain ⟨b, c', b', spawned, hb, -, -, hadv, rfl⟩ := Sys.step_task htask
  have hbody : b = .hold hold .start := by
    rw [List.getElem?_append_right (Nat.le_refl _), Nat.sub_self] at hb
    exact (Option.some.inj hb).symm
  subst hbody
  obtain ⟨⟨c₁, pc₁⟩, h1, h2⟩ := Option.map_eq_some_iff.mp hadv
  cases h2
  obtain ⟨hpc, hview⟩ := advanceHold_view hfail h1
  have hfailed : HoldFailed s.tasks.length
      ⟨c', (s.tasks ++ [Body.hold hold .start]).set s.tasks.length (.hold hold pc₁) ++ [],
        if pc₁.suspended then none else some s.tasks.length⟩ :=
    ⟨hold, pc₁, by simp, hpc⟩
  rw [isSettled_iff, ← hview]
  refine ⟨And.left, fun heq => ⟨heq, fun u v ch' hrun hv => ?_⟩⟩
  have hu := hrun.invariant (fun _ _ _ h hs _ => (HoldFailed.step h hs).1) hfailed
  rw [(hu.step hv).2 ch' rfl]

end Failed

end Raydriver
