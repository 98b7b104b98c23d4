import Raydriver.Emulator.Lines

/-!
# What the protocol loop does besides executing lines

A tick takes the next block from the planner and lets the current one go on until it is
finished.  A finished probe cycle acknowledges its line, and raises an alarm if it touched
nothing; no other block writes anything.

## Main definitions

* `Firmware.blocks` — the current block and the planned ones.
* `Starts`, `Finished`, `Advanced` — what the parts of a tick can do.
* `executionsOf` — the lines that an event executes.
* `drain_induction` — what each line executed keeps, draining the queue keeps.

## Main results

* `startBlock_starts`, `finishBlock_finished`, `advance_advanced` — one lemma for each part.
* `tick_cases` — **a tick drains the queue, starts a block and lets it go on.**
-/

namespace Raydriver.Emulator

open PyFloat

variable {F : Type} [PyFloat F]

namespace Firmware

/-- The current block and the planned ones. -/
def blocks (s : Firmware F) : List (Block F) := s.currentBlock.toList ++ s.planner

/-- From `s` to `t` nothing was received, executed or written. -/
structure Silently (s t : Firmware F) : Prop where
  rx : t.rx = s.rx
  executed : t.executed = s.executed
  silent : t.silent = s.silent

/-- A block begins, or the machine comes to rest. -/
structure Starts (s t : Firmware F) : Prop extends Silently s t where
  log : t.log = s.log
  blocks : t.blocks = s.blocks
  planner : t.planner.length ≤ s.planner.length
  state : t.state = .alarm ↔ s.state = .alarm
  rests : s.state = .alarm → t.currentBlock = s.currentBlock

theorem startBlock_starts (s : Firmware F) : Starts s s.startBlock := by
  unfold startBlock
  by_cases hidle : (s.currentBlock.isNone && !s.holdRequested && s.state ≠ .alarm) = true
  · rw [if_pos hidle]
    simp only [Bool.and_eq_true, decide_eq_true_eq, Option.isNone_iff_eq_none] at hidle
    obtain ⟨⟨hnone, -⟩, hstate⟩ := hidle
    cases hplanner : s.planner with
    | cons block rest =>
      simp only
      refine ⟨⟨?_, ?_, ?_⟩, ?_, ?_, ?_, ?_, fun h => absurd h hstate⟩
      · split <;> rfl
      · split <;> rfl
      · split <;> rfl
      · split <;> rfl
      · unfold blocks
        rw [hnone, hplanner]
        split <;> rfl
      · rw [hplanner]
        split <;> exact Nat.le_succ _
      · refine ⟨fun h => ?_, fun h => absurd h hstate⟩
        revert h
        dsimp only
        split_ifs <;> exact nofun
    | nil =>
      simp only
      split
      · refine ⟨⟨rfl, rfl, rfl⟩, rfl, ?_, ?_, ⟨nofun, fun h => absurd h hstate⟩,
          fun h => absurd h hstate⟩
        · rw [blocks, blocks, hplanner]
        · rw [hplanner]
      · exact ⟨⟨rfl, rfl, rfl⟩, rfl, rfl, Nat.le_refl _, Iff.rfl, fun _ => rfl⟩
  · rw [if_neg hidle]
    exact ⟨⟨rfl, rfl, rfl⟩, rfl, rfl, Nat.le_refl _, Iff.rfl, fun _ => rfl⟩

/-- What the end of a block can do. -/
inductive Finished (block : Block F) (s : Firmware F) : Firmware F → Prop
  | quiet {t : Firmware F} (h : Silently s t) (hblock : block.defers = false)
      (hlog : t.log = s.log) (hcurrent : t.currentBlock = s.currentBlock)
      (hplanner : t.planner = s.planner) (hstate : t.state = s.state ∨ t.state = .idle) :
      Finished block s t
  | acked {t : Firmware F} (h : Silently s t) (hblock : block.defers = true)
      (info : Text) (hinfo : isAck info = false)
      (hlog : t.log = s.log ++ [⟨info, none⟩, ⟨"ok\r\n".toList, some block.line⟩])
      (hcurrent : t.currentBlock = s.currentBlock) (hplanner : t.planner = s.planner)
      (hstate : t.state = s.state) : Finished block s t
  | alarmed {t : Firmware F} (h : Alarmed s t) : Finished block s t

theorem finishBlock_finished (block : Block F) (s : Firmware F) :
    Finished block s (s.finishBlock block) := by
  unfold finishBlock
  by_cases hhome : block.isHome = true
  · rw [if_pos hhome]
    exact .quiet ⟨rfl, rfl, rfl⟩ (by simp [Block.defers, hhome]) rfl rfl rfl (.inr rfl)
  · rw [if_neg hhome]
    cases htouch : block.probeTouch with
    | some touch =>
      refine .acked ⟨rfl, rfl, rfl⟩ (by simp [Block.defers, hhome, htouch]) _ ?_
        (List.append_assoc _ _ _) rfl rfl rfl
      exact isAck_cons (by decide) (by decide) _
    | none =>
      by_cases hprobe : block.isProbe = true
      · simp only [if_pos hprobe]
        exact .alarmed ⟨rfl, rfl, rfl, rfl⟩
      · simp only [if_neg hprobe]
        exact .quiet ⟨rfl, rfl, rfl⟩ (by simp [Block.defers, htouch, hprobe]) rfl rfl rfl (.inl rfl)

/-- What the time of a tick can do to the current block. -/
inductive Advanced (s : Firmware F) : Firmware F → Prop
  | onward {t : Firmware F} (h : Silently s t) (hlog : t.log = s.log)
      (hcurrent : t.currentBlock = s.currentBlock) (hplanner : t.planner = s.planner)
      (hstate : t.state = s.state) : Advanced s t
  | finished {t u : Firmware F} {block : Block F} (hblock : s.currentBlock = some block)
      (hu : Silently s u) (hlog : u.log = s.log) (hcurrent : u.currentBlock = none)
      (hplanner : u.planner = s.planner) (hstate : u.state = s.state)
      (h : Finished block u t) : Advanced s t

theorem advance_advanced (elapsed : F) (s : Firmware F) : Advanced s (s.advance elapsed) := by
  unfold advance
  cases hcurrent : s.currentBlock with
  | none => exact .onward ⟨rfl, rfl, rfl⟩ rfl rfl rfl rfl
  | some block =>
    simp only
    split
    · exact .onward ⟨rfl, rfl, rfl⟩ rfl rfl rfl rfl
    · split
      · refine .finished hcurrent ?_ ?_ ?_ ?_ ?_ (finishBlock_finished block _)
        · exact ⟨rfl, rfl, rfl⟩
        all_goals rfl
      · exact .onward ⟨rfl, rfl, rfl⟩ rfl hcurrent.symm rfl rfl

/-! ### Draining the queue -/

/-- The next line is taken from the head of the queue. -/
theorem nextLine_cases {s t : Firmware F} {line : Text} (h : s.nextLine = some (line, t)) :
    ∃ rest, s.rx.pendingLines = line :: rest ∧
      (producesMotion F line && s.planner.length ≥ plannerBlocks) = false ∧
      t = { s with
        rx.pendingLines := rest
        rx.rxUsed := s.rx.rxUsed - (line.length + 1)
        executed := s.executed ++ [line] } := by
  unfold nextLine at h
  split at h
  case h_1 => cases h
  case h_2 l rest hpending =>
    split at h
    · cases h
    · rename_i hroom
      cases h
      exact ⟨rest, hpending, Bool.eq_false_iff.mpr hroom, rfl⟩

/-- The lines that draining the queue executes, each with the state it is executed in. -/
def executions : ℕ → Firmware F → List (Text × Firmware F)
  | 0, _ => []
  | k + 1, s =>
    match s.nextLine with
    | none => []
    | some (line, t) =>
      let u := t.executeLine s.executed.length line
      (line, t) :: if u.state = .alarm then [] else executions k u

/-- **What each line that is executed keeps, draining the queue keeps.** -/
theorem drain_induction {P : Firmware F → Prop} {C : Text → Firmware F → Prop}
    (hP : ∀ s line t, P s → s.nextLine = some (line, t) → C line t →
      P (t.executeLine s.executed.length line)) :
    ∀ (k : ℕ) (s : Firmware F), P s → (∀ e ∈ executions k s, C e.1 e.2) → P (drainLoop k s) := by
  intro k
  induction k with
  | zero => exact fun s hs _ => hs
  | succ k ih =>
    intro s hs hok
    simp only [drainLoop]
    simp only [executions] at hok
    cases hnext : s.nextLine with
    | none => exact hs
    | some e =>
      obtain ⟨line, t⟩ := e
      rw [hnext] at hok
      have hline := hP s line t hs hnext (hok (line, t) List.mem_cons_self)
      simp only
      split
      · exact hline
      · rename_i hstate
        refine ih _ hline fun e he => hok e (List.mem_cons_of_mem _ ?_)
        rw [if_neg hstate]
        exact he

/-- The lines that an event executes, each with the state it is executed in. -/
def executionsOf : Event F → Firmware F → List (Text × Firmware F)
  | .tick now, s => executions s.rx.pendingLines.length { s with lastTick := some now }
  | .drain, s => executions s.rx.pendingLines.length s
  | _, _ => []

/-- **A tick drains the queue, starts a block and lets it go on.** -/
theorem tick_cases (now : F) (s : Firmware F) : ∃ elapsed u,
    u = { s with lastTick := some now } ∧
      s.tick now = u.drainPendingLines.startBlock.advance elapsed :=
  ⟨_, _, rfl, rfl⟩

end Firmware

end Raydriver.Emulator
