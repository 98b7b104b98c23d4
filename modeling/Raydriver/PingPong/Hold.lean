import Raydriver.Grbl.Hold
import Raydriver.PingPong.Order

/-!
# A `set_hold` that fails

The three sessions set the hold flag before they look at the transport, and two of them
clear the cancellation flag there as well.  When the command does not go out the flags
stay as they were set.

## Main definitions

* `Core.isSettled` — the flags that `set_hold` sets are set this way already.
* `LeavesView` — a `set_hold` changes nothing of what it should leave alone when it fails.

## Main results

* `set_hold_atomic_on_error` — **when a `set_hold` that fails is atomic**, in the three
  sessions.
* `set_hold_half_done` — a closed transport leaves a hold behind.
-/

namespace Raydriver.PingPong

open Lts

/-- What a `set_hold` that fails has to leave as it was. -/
def Core.holdView (c : Core) : Bool × Bool × DeviceState := (c.isHolding, c.isCancelled, c.state)

/-- The flags that `set_hold` sets before its command goes out are set this way already; only
`SimpleCore` clears the cancellation flag. -/
def Core.isSettled (fw : Firmware) (hold : Bool) (c : Core) : Bool :=
  c.isHolding == hold && (fw != .simple || !c.isCancelled || c.jobRunning)

/-- The counter of a `set_hold` whose command has not gone out. -/
def HoldPc.failed : HoldPc → Bool
  | .writing (some _) | .returned => true
  | _ => false

/-- Task `i` is a `set_hold` whose command has not gone out. -/
def HoldFailed (i : ℕ) (s : Sys) : Prop :=
  ∃ on pc, s.tasks[i]? = some (.hold on pc) ∧ pc.failed = true

/-- The `set_hold` of task `i`, called in `s` and past its first step in `t`, changes neither
the flags nor the state: not up to `t`, and not in any later step. -/
def LeavesView (fw : Firmware) (i : ℕ) (s t : Sys) : Prop :=
  t.core.holdView = s.core.holdView ∧ ∀ (u v : Sys) (ch : Choice),
    Run (Sys.step fw) AnyStep t u → Sys.step fw (.task i ch) u = some v →
    v.core.holdView = u.core.holdView

section Failed

variable {fw : Firmware} {i : ℕ} {hold : Bool} {ch : Choice} {c c' : Core} {pc pc' : HoldPc}
  {s t u : Sys} {l : Label}

/-- What a `set_hold` that fails leaves behind: the flags are set all the same. -/
theorem advanceHold_view (hfail : c.isOpen = false ∨ ch.writeError.isSome = true)
    (h : advanceHold fw hold ch c .start = some (c', pc')) :
    pc'.failed = true ∧ c'.holdView =
      (hold, if fw == .simple && !c.jobRunning then false else c.isCancelled, c.state) := by
  have hwriting : c.isOpen = true → (HoldPc.writing ch.writeError).failed = true := by
    intro hopen
    rcases hfail with hclosed | herr
    · exact absurd (hclosed.symm.trans hopen) Bool.false_ne_true
    · obtain ⟨e, he⟩ := Option.isSome_iff_exists.mp herr
      rw [he]
      rfl
  -- the core behind the flags
  have hflags : (if fw == .simple then Core.clearCancelled { c with isHolding := hold }
      else { c with isHolding := hold }).isOpen = c.isOpen ∧
    (if fw == .simple then Core.clearCancelled { c with isHolding := hold }
      else { c with isHolding := hold }).holdView =
        (hold, if fw == .simple && !c.jobRunning then false else c.isCancelled, c.state) := by
    unfold Core.clearCancelled Core.holdView
    cases fw <;> cases c.jobRunning <;> exact ⟨rfl, rfl⟩
  unfold advanceHold at h
  dsimp only at h
  generalize (if fw == .simple then Core.clearCancelled { c with isHolding := hold }
    else { c with isHolding := hold }) = d at h hflags
  split at h
  · rename_i hopen
    cases h
    exact ⟨hwriting (hflags.1.symm.trans hopen), hflags.2⟩
  · cases h
    exact ⟨rfl, hflags.2⟩

/-- Behind a failed write a `set_hold` only returns. -/
theorem advanceHold_failed (hpc : pc.failed = true)
    (h : advanceHold fw hold ch c pc = some (c', pc')) : pc'.failed = true ∧ c' = c := by
  cases pc with
  | start => cases hpc
  | writing err =>
    cases err with
    | none => cases hpc
    | some e =>
      cases h
      exact ⟨rfl, rfl⟩
  | returned => cases h

/-- A `set_hold` that has failed stays so, and its steps change nothing. -/
theorem HoldFailed.step (h : HoldFailed i s) (hs : Sys.step fw l s = some u) :
    HoldFailed i u ∧ ∀ ch, l = .task i ch → u.core = s.core := by
  obtain ⟨on, pc, hi, hpc⟩ := h
  by_cases hl : ∃ ch, l = .task i ch
  · obtain ⟨ch, rfl⟩ := hl
    obtain ⟨b, c', b', hb, -, hadv, rfl⟩ := Sys.step_task hs
    obtain rfl : b = .hold on pc := Option.some.inj (hb.symm.trans hi)
    obtain ⟨⟨c₁, pc₁⟩, h1, h2⟩ := Option.map_eq_some_iff.mp hadv
    cases h2
    obtain ⟨hpc₁, rfl⟩ := advanceHold_failed hpc h1
    have hlen : i < s.tasks.length := (List.getElem?_eq_some_iff.mp hi).1
    exact ⟨⟨on, pc₁, List.getElem?_set_self hlen, hpc₁⟩, fun _ _ => rfl⟩
  · have hne : ∀ ch, l ≠ .task i ch := fun ch hch => hl ⟨ch, hch⟩
    have hi' := Sys.step_tasks hs hi hne fun pc hpc => by cases hpc
    exact ⟨⟨on, pc, hi', hpc⟩, fun ch hch => absurd hch (hne ch)⟩

theorem isSettled_iff (fw : Firmware) (hold : Bool) (c : Core) : c.isSettled fw hold = true ↔
    (hold, if fw == .simple && !c.jobRunning then false else c.isCancelled, c.state) =
      c.holdView := by
  unfold Core.isSettled Core.holdView
  rw [Prod.mk.injEq, Prod.mk.injEq]
  cases fw <;> cases hold <;> cases c.isHolding <;> cases c.isCancelled <;>
    cases c.jobRunning <;> simp

/-- When a `set_hold` that fails changes nothing: if and only if the flags were set this way
already. -/
theorem leavesView_iff (hfail : s.core.isOpen = false ∨ ch.writeError.isSome = true)
    (h : exec (Sys.step fw) [.call (.setHold hold), .task s.tasks.length ch] s = some t) :
    LeavesView fw s.tasks.length s t ↔ s.core.isSettled fw hold = true := by
  obtain ⟨s₁, hcall, h⟩ := Option.bind_eq_some_iff.mp h
  obtain ⟨t', htask, ht⟩ := Option.bind_eq_some_iff.mp h
  obtain rfl : t' = t := Option.some.inj ht
  simp only [Sys.step] at hcall
  split_ifs at hcall
  obtain ⟨b₀, hb₀, rfl⟩ := Option.map_eq_some_iff.mp hcall
  have hbody : b₀ = .hold hold .start := by
    simp only [Call.body] at hb₀
    split_ifs at hb₀
    exact (Option.some.inj hb₀).symm
  subst hbody
  obtain ⟨b, c', b', hb, -, hadv, rfl⟩ := Sys.step_task htask
  obtain rfl : b = .hold hold .start := by
    rw [List.getElem?_append_right (Nat.le_refl _), Nat.sub_self] at hb
    exact (Option.some.inj hb).symm
  obtain ⟨⟨c₁, pc₁⟩, h1, h2⟩ := Option.map_eq_some_iff.mp hadv
  cases h2
  obtain ⟨hpc, hview⟩ := advanceHold_view hfail h1
  have hfailed : HoldFailed s.tasks.length
      ⟨c', (s.tasks ++ [Body.hold hold .start]).set s.tasks.length (.hold hold pc₁),
        if pc₁.suspended then none else some s.tasks.length⟩ :=
    ⟨hold, pc₁, by simp, hpc⟩
  rw [isSettled_iff, ← hview]
  refine ⟨And.left, fun heq => ⟨heq, fun u v ch' hrun hv => ?_⟩⟩
  have hu := hrun.invariant (fun _ _ _ h hs _ => (HoldFailed.step h hs).1) hfailed
  rw [(hu.step hv).2 ch' rfl]

end Failed

/-- **When a `set_hold` that fails is atomic**: in the three sessions that have one, whether
the transport is closed or the write fails, the flags and the state stay as they were if and
only if the hold flag was set this way already, and there was no cancellation flag for it
to clear. -/
theorem set_hold_atomic_on_error (hold : Bool) :
    (∀ (s t : Raydriver.Sys) (ch : Choice),
      s.core.isOpen = false ∨ ch.writeError.isSome = true →
      exec Raydriver.Sys.step [.call (.setHold hold), .task s.tasks.length ch] s = some t →
      (Raydriver.LeavesView s.tasks.length s t ↔ s.core.isSettled hold = true)) ∧
    ∀ (fw : Firmware) (s t : Sys) (ch : Choice),
      s.core.isOpen = false ∨ ch.writeError.isSome = true →
      exec (Sys.step fw) [.call (.setHold hold), .task s.tasks.length ch] s = some t →
      (LeavesView fw s.tasks.length s t ↔ s.core.isSettled fw hold = true) :=
  ⟨fun _ _ _ hfail h => Raydriver.leavesView_iff hfail h,
    fun _ _ _ _ hfail h => leavesView_iff hfail h⟩

/-- `SessionCore` without a link. -/
def closedSession : Raydriver.Sys :=
  reach Raydriver.Sys.step [.link false] { core := {}, tasks := [] }

/-- A ping-pong session without a link. -/
def closedSys (fw : Firmware) : Sys := reach (Sys.step fw) [.link false] { core := {} }

/-- A release without a hold: the general result in `SessionCore` on a closed transport, and in
`SmoothieCore` with a write that fails. -/
theorem set_hold_atomic_on_error_release :
    Raydriver.LeavesView 0 closedSession
      (reach Raydriver.Sys.step [.call (.setHold false), .task 0 {}] closedSession) ∧
    LeavesView .smoothie 0 { core := {} }
      (reach (Sys.step .smoothie) [.call (.setHold false), .task 0 { writeError := some "" }]
        { core := {} }) :=
  ⟨((set_hold_atomic_on_error false).1 closedSession _ {} (.inl (by decide)) (by decide)).mpr
      (by decide),
    ((set_hold_atomic_on_error false).2 .smoothie { core := {} } _ { writeError := some "" }
      (.inr (by decide)) (by decide)).mpr (by decide)⟩

/-- **A hold that the device never received**: in each of the sessions a `set_hold(true)` on
a closed transport leaves the flag set, and it forces the next report to a hold. -/
theorem set_hold_half_done :
    ((¬ ∀ (s t : Raydriver.Sys) (ch : Choice),
        Run Raydriver.Sys.step AnyStep { core := {}, tasks := [] } s →
        s.core.isOpen = false ∨ ch.writeError.isSome = true →
        exec Raydriver.Sys.step [.call (.setHold true), .task s.tasks.length ch] s = some t →
        t.core.holdView = s.core.holdView) ∧
      ((reach Raydriver.Sys.step [.call (.setHold true), .task 0 {}]
        closedSession).core.handleRx (ascii "<Idle>\n")).state.status = .hold) ∧
    ∀ fw : Firmware, fw ≠ .marlin →
      (¬ ∀ (s t : Sys) (ch : Choice), Run (Sys.step fw) AnyStep { core := {} } s →
        s.core.isOpen = false ∨ ch.writeError.isSome = true →
        exec (Sys.step fw) [.call (.setHold true), .task s.tasks.length ch] s = some t →
        t.core.holdView = s.core.holdView) ∧
      ((reach (Sys.step fw) [.call (.setHold true), .task 0 {}]
        (closedSys fw)).core.handleRx fw (ascii "<Idle>\n")).state.status = .hold := by
  refine ⟨⟨fun h => ?_, by decide⟩, fun fw hfw => ?_⟩
  · exact absurd (h closedSession (reach Raydriver.Sys.step
      [.call (.setHold true), .task 0 {}] closedSession) {} (run_reach (by decide))
      (.inl (by decide)) (by decide)) (by decide)
  · cases fw with
    | marlin => exact absurd rfl hfw
    | simple =>
      refine ⟨fun h => ?_, by decide⟩
      exact absurd (h (closedSys .simple) (reach (Sys.step .simple)
        [.call (.setHold true), .task 0 {}] (closedSys .simple)) {} (run_reach (by decide))
        (.inl (by decide)) (by decide)) (by decide)
    | smoothie =>
      refine ⟨fun h => ?_, by decide⟩
      exact absurd (h (closedSys .smoothie) (reach (Sys.step .smoothie)
        [.call (.setHold true), .task 0 {}] (closedSys .smoothie)) {} (run_reach (by decide))
        (.inl (by decide)) (by decide)) (by decide)

end Raydriver.PingPong
