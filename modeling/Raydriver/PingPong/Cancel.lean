import Raydriver.PingPong.Frames

/-!
# A cancelled ping-pong job

`cancel` does not stop the run loop of a job: it sets `is_cancelled` and wakes the loop,
which reads the flag at its next line.  Between the two, a command executed meanwhile
clears the flag again, since no job is running any more as far as it can see.

## Main definitions

* `RunPc.awaiting`, `RunPc.over` — the run loop waits for an acknowledgement, or has ended.
* `Sys.keepsFlag` — the steps that leave the flag to a job whose loop has not ended.
* `Stopping j lines s` — the invariant.

## Main results

* `cancelled_job_stops` — **no further line of a cancelled job is written** in such runs.
* `cancelled_job_goes_on` — without the condition each of the three sessions goes on.
-/

namespace Raydriver.PingPong

open Lts

/-- The run loop has written a line and waits for its acknowledgement. -/
def RunPc.awaiting : RunPc → Bool
  | .ping _ _ _ (.writing _ _) | .ping _ _ _ (.wait _) => true
  | _ => false

/-- The run loop has ended. -/
def RunPc.over : RunPc → Bool
  | .ended _ | .shutdown _ _ | .finish _ | .returned => true
  | _ => false

/-- Between a line and the next look at the cancellation flag. -/
def RunPc.winding : RunPc → Bool
  | .ping _ _ _ (.returned _ _ _) | .yielded _ _ | .top _ _ => true
  | pc => pc.awaiting

/-- The bytes are written by an exchange of task `j`. -/
def Origin.isCommandOf (j : ℕ) : Origin → Bool
  | .command t _ => t == j
  | _ => false

/-- The lines written by the exchanges of task `j`. -/
def Core.linesBy (j : ℕ) (c : Core) : List Sent := c.sent.filter fun e => e.origin.isCommandOf j

/-- The run loop of task `j` has ended. -/
def Sys.jobOver (j : ℕ) (s : Sys) : Bool :=
  match s.tasks[j]? with
  | some (.run _ pc) => pc.over
  | _ => false

/-- The next step of task `i` clears the cancellation flag. -/
def Sys.clears (fw : Firmware) (s : Sys) (i : ℕ) : Bool :=
  (s.tasks[i]?).any fun b => b.clears fw s.core

/-- The step does not clear the cancellation flag before the run loop of task `j` ends. -/
def Sys.keepsFlag (fw : Firmware) (j : ℕ) (s : Sys) (l : Label) (_ : Sys) : Bool :=
  match l with
  | .task i _ => s.jobOver j || !s.clears fw i
  | _ => true

/-! ### What others write -/

section Others

variable {fw : Firmware} {i j : ℕ} {c c' : Core} {b : Body}

theorem linesBy_of_sent (h : c'.sent = c.sent) : c'.linesBy j = c.linesBy j := by
  unfold Core.linesBy
  rw [h]

theorem linesBy_append {e : Sent} (h : c'.sent = c.sent ++ [e])
    (he : e.origin.isCommandOf j = false) : c'.linesBy j = c.linesBy j := by
  unfold Core.linesBy
  rw [h, List.filter_append, List.filter_cons_of_neg (by simpa using he), List.filter_nil,
    List.append_nil]

theorem linesBy_write {o : Origin} (t : Text) (err : Option String)
    (ho : o.isCommandOf j = false) (h : c'.sent = (c.write o t err).sent) :
    c'.linesBy j = c.linesBy j := by
  cases err with
  | none => exact linesBy_append h ho
  | some e => exact linesBy_of_sent (h.trans (by simp [Core.write]))

/-- **A step of another task writes no line of task `j`.** -/
theorem Effect.linesBy (h : Effect fw i b c c') (hij : i ≠ j) : c'.linesBy j = c.linesBy j := by
  have hdrop : ∀ cmd, (c.dropPending fw cmd).sent = c.sent := by
    intro cmd
    unfold Core.dropPending
    split_ifs <;> rfl
  have hsent : ∀ {d : Core}, c'.exchange = d.exchange → c'.sent = d.sent :=
    fun h => congrArg Exchange.sent h
  cases h with
  | quiet h => exact linesBy_of_sent (hsent h)
  | begins command err hb hlock h =>
    have ho : (Origin.command i c.cmds.length).isCommandOf j = false := beq_false_of_ne hij
    exact linesBy_write (commandLine command) err ho ((hsent h).trans rfl)
  | ends cmd hlock h => exact linesBy_of_sent ((hsent h).trans (hdrop cmd))
  | writes e he h =>
    refine linesBy_append (hsent h) ?_
    cases horigin : e.origin with
    | command t cmd => exact absurd horigin (he t cmd)
    | _ => rfl
  | stops err em hb h =>
    have hbegin : c.beginCancel.sent = c.sent := rfl
    rcases h with h | h
    · refine linesBy_write (o := .stop i) fw.stopPayload err rfl ((hsent h).trans ?_)
      unfold Core.write
      rw [hbegin]
    · exact linesBy_of_sent ((hsent h).trans hbegin)

end Others

/-! ### The invariant -/

/-- Task `j` is a run that has written `lines`; its loop has ended, or it is on the way
to the cancellation flag, and the flag is set. -/
def Stopping (j : ℕ) (lines : List Sent) (s : Sys) : Prop :=
  s.core.linesBy j = lines ∧ ∃ job pc, s.tasks[j]? = some (.run job pc) ∧
    (pc.over = true ∨ (pc.winding = true ∧ s.core.isCancelled = true))

section Stopping

variable {fw : Firmware} {j : ℕ} {lines : List Sent} {s u : Sys} {l : Label} {job : Job}
  {ch : Choice} {c c' : Core} {pc pc' : RunPc}

/-- Behind its loop a run writes no line of the job. -/
theorem advanceRun_over (h : advanceRun fw j job ch c pc = some (c', pc'))
    (hover : pc.over = true) : pc'.over = true ∧ c'.linesBy j = c.linesBy j := by
  cases pc with
  | ended interrupted =>
    cases h
    refine ⟨?_, linesBy_of_sent rfl⟩
    split_ifs <;> rfl
  | shutdown was pc =>
    simp only [advanceRun] at h
    split at h
    · cases h
      exact ⟨rfl, linesBy_of_sent rfl⟩
    · obtain ⟨⟨c1, pc1⟩, h1, h2⟩ := Option.map_eq_some_iff.mp h
      cases h2
      refine ⟨rfl, ?_⟩
      cases pc with
      | next commands =>
        cases commands with
        | nil =>
          cases h1
          exact linesBy_of_sent rfl
        | cons command commands =>
          simp only [advanceShutdown] at h1
          split_ifs at h1 <;> cases h1
          · exact linesBy_write _ ch.writeError rfl rfl
          · exact linesBy_of_sent rfl
      | _ =>
        simp only [advanceShutdown] at h1
        try split_ifs at h1
        all_goals cases h1
        all_goals exact linesBy_of_sent rfl
  | finish was =>
    cases h
    exact ⟨rfl, linesBy_of_sent rfl⟩
  | returned => cases h
  | _ => cases hover

/-- A run that is winding up with the cancellation flag set writes nothing, and leaves its
loop when it looks at the flag. -/
theorem advanceRun_winding (h : advanceRun fw j job ch c pc = some (c', pc'))
    (hwind : pc.winding = true) (hcan : c.isCancelled = true) :
    (pc'.over = true ∨ pc'.winding = true) ∧ c'.isCancelled = true ∧
      c'.linesBy j = c.linesBy j := by
  have hpc : pc ≠ .begin := fun hb => by rw [hb] at hwind; cases hwind
  have hkept := (advanceRun_isCancelled h hpc).trans hcan
  cases pc with
  | yielded idx rest =>
    cases h
    exact ⟨.inr rfl, hkept, rfl⟩
  | top idx rest =>
    cases rest with
    | nil =>
      cases h
      exact ⟨.inl rfl, hkept, rfl⟩
    | cons rawLine rest =>
      simp only [advanceRun, hcan, Bool.true_or, if_true] at h
      cases h
      exact ⟨.inl rfl, hkept, rfl⟩
  | ping idx line rest p =>
    have hend : ∀ cmd, (c.endPing fw true cmd).linesBy j = c.linesBy j := by
      intro cmd
      refine linesBy_of_sent ?_
      unfold Core.endPing Core.dropPending
      dsimp only
      split_ifs <;> rfl
    cases p with
    | returned cmd ls err =>
      cases err with
      | some e =>
        cases h
        exact ⟨.inl rfl, hkept, rfl⟩
      | none =>
        cases h
        refine ⟨?_, hkept, rfl⟩
        split_ifs
        · exact .inl rfl
        · exact .inr rfl
    | writing cmd err =>
      obtain ⟨⟨c1, pc1⟩, h1, h2⟩ := Option.map_eq_some_iff.mp h
      cases h2
      cases advancePing_step h1 with
      | enter _ _ he => cases he
      | refused _ _ he => cases he
      | written => exact ⟨.inr rfl, hkept, rfl⟩
      | failed => exact ⟨.inr rfl, hkept, hend cmd⟩
    | wait cmd =>
      obtain ⟨⟨c1, pc1⟩, h1, h2⟩ := Option.map_eq_some_iff.mp h
      cases h2
      cases advancePing_step h1 with
      | enter _ _ he => cases he
      | refused _ _ he => cases he
      | answered => exact ⟨.inr rfl, hkept, hend cmd⟩
      | expired => exact ⟨.inr rfl, hkept, hend cmd⟩
    | _ => cases hwind
  | _ => cases hwind

/-- **What one step keeps.** -/
theorem Stopping.step (h : Stopping j lines s) (hs : Sys.step fw l s = some u)
    (hk : Sys.keepsFlag fw j s l u = true) : Stopping j lines u := by
  obtain ⟨hlines, job, pc, hj, hpc⟩ := h
  have hlt : j < s.tasks.length := (List.getElem?_eq_some_iff.mp hj).1
  by_cases hl : ∃ i ch, l = .task i ch
  · obtain ⟨i, ch, rfl⟩ := hl
    obtain ⟨b, c', b', hb, -, hadv, rfl⟩ := Sys.step_task hs
    by_cases hij : i = j
    · -- the run itself
      subst hij
      obtain rfl : b = .run job pc := Option.some.inj (hb.symm.trans hj)
      obtain ⟨⟨c1, pc1⟩, h1, h2⟩ := Option.map_eq_some_iff.mp hadv
      cases h2
      have hset : (s.tasks.set i (.run job pc1))[i]? = some (.run job pc1) := by
        rw [List.getElem?_set_self hlt]
      -- either it is behind the loop, or it winds down with the flag raised
      rcases hpc with hover | ⟨hwind, hcan⟩
      · obtain ⟨hover', hl⟩ := advanceRun_over h1 hover
        exact ⟨hl.trans hlines, job, pc1, hset, .inl hover'⟩
      · obtain ⟨hpc', hcan', hl⟩ := advanceRun_winding h1 hwind hcan
        exact ⟨hl.trans hlines, job, pc1, hset, hpc'.imp id fun h => ⟨h, hcan'⟩⟩
    · -- another task, which does not clear the flag before the loop has ended
      refine ⟨((advance_effect hadv).linesBy hij).trans hlines, job, pc, ?_, ?_⟩
      · rw [List.getElem?_set_ne hij, hj]
      · refine or_iff_not_imp_left.mpr fun hover => ?_
        obtain ⟨hwind, hcan⟩ := hpc.resolve_left hover
        refine ⟨hwind, (advance_flags hadv).kept hcan ?_⟩
        simpa [Sys.keepsFlag, Sys.jobOver, Sys.clears, hj, hb, hover] using hk
  · obtain ⟨-, haside⟩ := Sys.step_other hs fun i ch hi => hl ⟨i, ch, hi⟩
    cases haside with
    | call op b hlabel hb hcore htasks =>
      refine ⟨by rw [hcore]; exact hlines, job, pc, ?_, by rw [hcore]; exact hpc⟩
      rw [htasks, List.getElem?_append_left hlt, hj]
    | rx data hlabel hcore htasks =>
      have hf : RxFrame s.core (s.core.handleRx fw data) := handleRx_frame data s.core
      refine ⟨?_, job, pc, by rw [htasks]; exact hj, ?_⟩
      · rw [hcore]
        exact (linesBy_of_sent hf.sent).trans hlines
      · rw [hcore, hf.isCancelled]
        exact hpc
    | link up hlabel hcore htasks =>
      exact ⟨by rw [hcore]; exact hlines, job, pc, by rw [htasks]; exact hj,
        by rw [hcore]; exact hpc⟩
    | announce hlabel hcore htasks =>
      exact ⟨by rw [hcore]; exact hlines, job, pc, by rw [htasks]; exact hj,
        by rw [hcore]; exact hpc⟩
    | cleanup hlabel hcore htasks =>
      exact ⟨by rw [hcore]; exact hlines, job, pc, by rw [htasks]; exact hj,
        by rw [hcore]; exact hpc⟩
    | drop i p hlabel hi hcore htasks =>
      have hij : i ≠ j := fun hij => by rw [hij, hj] at hi; cases hi
      refine ⟨?_, job, pc, ?_, ?_⟩
      · rw [hcore]
        split_ifs <;> exact hlines
      · rw [htasks, List.getElem?_set_ne hij, hj]
      · rw [hcore]
        split_ifs <;> exact hpc

/-- **A cancelled ping-pong job never resumes**, in any of the three sessions: when
`cancel` is called while the run loop of task `j` waits for an acknowledgement, then
whatever follows, as long as nothing clears the cancellation flag before the loop has
ended, no further line of the job is written. -/
theorem cancelled_job_stops {fw : Firmware} {j : ℕ} {em : Bool} {ch : Choice}
    {s s₁ s₂ u : Sys} {job : Job} {pc : RunPc} (hjob : s.tasks[j]? = some (.run job pc))
    (hwait : pc.awaiting = true) (hcall : Sys.step fw (.call (.cancel em)) s = some s₁)
    (hcancel : Sys.step fw (.task s.tasks.length ch) s₁ = some s₂)
    (hrun : Run (Sys.step fw) (fun a l b => Sys.keepsFlag fw j a l b = true) s₂ u) :
    u.core.linesBy j = s.core.linesBy j := by
  have hstart : Stopping j (s.core.linesBy j) s₂ := by
    have hlt : j < s.tasks.length := (List.getElem?_eq_some_iff.mp hjob).1
    simp only [Sys.step] at hcall
    split_ifs at hcall with ha
    cases hcall
    obtain ⟨b, c', b', hb, -, hadv, rfl⟩ := Sys.step_task hcancel
    obtain rfl : b = .cancel em .start := by
      simpa [Call.body] using hb.symm
    -- the first step of `cancel` raises the flag
    have hcan : c'.isCancelled = true := by
      obtain ⟨⟨c1, pc1⟩, h1, h2⟩ := Option.map_eq_some_iff.mp hadv
      cases h2
      simp only [advanceCancel] at h1
      split_ifs at h1 <;> cases h1 <;> rfl
    refine ⟨(advance_effect hadv).linesBy (Nat.ne_of_gt hlt), job, pc, ?_, .inr ⟨?_, hcan⟩⟩
    · rw [List.getElem?_set_ne (Nat.ne_of_gt hlt), List.getElem?_append_left hlt, hjob]
    · unfold RunPc.awaiting at hwait
      split at hwait
      · rfl
      · rfl
      · cases hwait
  exact (hrun.invariant (fun _ _ _ ih hs hk => ih.step hs hk) hstart).1

end Stopping

/-! ### Runs of a fixed job -/

/-- The job of `twoLines` runs as task 0 and waits for the acknowledgement of its first
line. -/
def midJob (fw : Firmware) : Sys :=
  reach (Sys.step fw) (.call (.run twoLines) :: turns 0 7) { core := {} }

/-- The job stops: the general result on a run of `SimpleCore`. -/
theorem cancelled_job_stops_twoLines :
    let s₁ := reach (Sys.step .simple) [.call (.cancel false)] (midJob .simple)
    let s₂ := reach (Sys.step .simple) (turns 1 1) s₁
    let u := reach (Sys.step .simple) (turns 0 6 ++ turns 1 3) s₂
    u.core.linesBy 0 = (midJob .simple).core.linesBy 0 :=
  have hcall : Sys.step .simple (.call (.cancel false)) (midJob .simple)
      = some (reach (Sys.step .simple) [.call (.cancel false)] (midJob .simple)) := rfl
  have hcancel : Sys.step .simple (.task 1 {})
        (reach (Sys.step .simple) [.call (.cancel false)] (midJob .simple))
      = some (reach (Sys.step .simple) (turns 1 1)
          (reach (Sys.step .simple) [.call (.cancel false)] (midJob .simple))) := rfl
  cancelled_job_stops rfl rfl hcall hcancel (run_reach_guarded (by decide))

/-- A command is executed after the cancel: it clears the flag, and when the loop of the
job looks there is nothing to see. -/
def executeMeanwhile : List Label :=
  .call (.execute "G0".toList) :: turns 2 3 ++ turns 0 6 ++ turns 2 3 ++
    .rx (ascii "ok\n") :: turns 2 1 ++ turns 0 2

/-- **A job cancelled while a command is executed goes on**, in each of the three
sessions. -/
theorem cancelled_job_goes_on :
    ¬ ∃ fw, ∀ (s s₁ s₂ u : Sys) (j : ℕ) (em : Bool) (ch : Choice) (job : Job) (pc : RunPc),
      s.tasks[j]? = some (.run job pc) → pc.awaiting = true →
      Sys.step fw (.call (.cancel em)) s = some s₁ →
      Sys.step fw (.task s.tasks.length ch) s₁ = some s₂ →
      Run (Sys.step fw) AnyStep s₂ u → u.core.linesBy j = s.core.linesBy j := by
  rintro ⟨fw, h⟩
  let s₁ := reach (Sys.step fw) [.call (.cancel false)] (midJob fw)
  let s₂ := reach (Sys.step fw) (turns 1 1) s₁
  have hlines := h (midJob fw) s₁ s₂ (reach (Sys.step fw) executeMeanwhile s₂) 0 false {}
    twoLines (.ping 0 "G1 X1".toList ["G1 X2".toList] (.wait 0))
    (by cases fw <;> rfl) rfl (by cases fw <;> rfl) (by cases fw <;> rfl)
    (run_reach (by cases fw <;> decide))
  cases fw <;> exact absurd hlines (by decide)

end Raydriver.PingPong
