import Raydriver.Grbl.Finish
import Raydriver.PingPong.Frames

/-!
# Who reports the end of a job, in a ping-pong session

Here the run reports the end of its job itself, unless it finds the job cancelled; then it
leaves the report to the `cancel`, which has found the job running.  The baton goes from the
run to the flag of the running job, and back to the run or to a `cancel`.  It is spent twice
when the cancellation flag is cleared before the run looks at it.

## Main definitions

* `Body.owes` — the task has the baton.
* `reportsEnd` — the step neither loses nor doubles it.
* `AtRest` — no job is in progress.
* `Due j job base s` — the invariant.

## Main results

* `Due.step` — the invariant is kept.
* `job_reported_once` — **the end of a job is reported once** in the four sessions under
  these conditions.
* `job_reported_amiss` — without them it is not.
-/

namespace Raydriver.PingPong

open Lts

/-! ### The baton -/

/-- The `job_finished` events so far. -/
def Core.finishes (c : Core) : ℕ := c.events.count .jobFinished

/-- The stages of a run. -/
inductive Stage where
  | raw
  | start
  | going
  | over
  deriving DecidableEq, Repr

/-- The stage a counter belongs to. -/
def RunPc.stage : RunPc → Stage
  | .rawNext _ | .rawWriting _ _ => .raw
  | .begin => .start
  | .top _ _ | .ping _ _ _ _ | .yielded _ _ | .ended _ => .going
  | .shutdown _ _ | .finish _ | .returned => .over

/-- The stage of a run, if the task is one. -/
def Body.stage : Body → Option Stage
  | .run _ pc => some pc.stage
  | _ => none

/-- The `cancel` has found the job running, and has not reported its end. -/
def CancelPc.owes : CancelPc → Bool
  | .stopping was err => was && err.isNone
  | .shutdown was _ => was
  | .start | .returned _ => false

/-- The task has to report the end of the job, or to start the job. -/
def Body.owes : Body → Bool
  | .run _ .begin => true
  | .run _ (.shutdown was _) | .run _ (.finish was) => !was
  | .cancel _ pc => pc.owes
  | _ => false

/-- What a step does with the baton. -/
inductive DebtStep (ch : Choice) (b b' : Body) (c c' : Core) : Prop
  | same (hrun : c'.jobRunning = c.jobRunning) (hfin : c'.finishes = c.finishes)
      (howes : b'.owes = b.owes) (hstage : b'.stage = b.stage)
  | starts (job : Job) (hb : b = .run job .begin) (hrun : c'.jobRunning = true)
      (hcan : c'.isCancelled = false) (hfin : c'.finishes = c.finishes) (howes' : b'.owes = false)
      (hstage' : b'.stage = some .going)
  | takes (em : Bool) (hb : b = .cancel em .start) (hrun : c'.jobRunning = false)
      (hcan : c'.isCancelled = true) (hfin : c'.finishes = c.finishes)
      (howes' : b'.owes = (c.jobRunning && (c.isOpen && ch.writeError.isNone)))
      (hstage' : b'.stage = none)
  | ends (job : Job) (interrupted : Bool) (hb : b = .run job (.ended interrupted))
      (hrun : c'.jobRunning = false) (hfin : c'.finishes = c.finishes)
      (howes' : b'.owes = !c.isCancelled) (hstage' : b'.stage = some .over)
  | pays (hrun : c'.jobRunning = c.jobRunning) (hfin : c'.finishes = c.finishes + 1)
      (howes : b.owes = true) (howes' : b'.owes = false) (hstage : b'.stage = b.stage)

section Debt

variable {fw : Firmware} {i : ℕ} {job : Job} {ch : Choice} {c c' : Core} {b b' : Body}

/-- What leaves the rest of the state alone leaves the flag and the events alone. -/
theorem finishes_of_rest (h : c'.rest = c.rest) :
    c'.jobRunning = c.jobRunning ∧ c'.finishes = c.finishes :=
  ⟨(congrArg Core.jobRunning h :), (congrArg Core.finishes h :)⟩

theorem advanceRun_debt {pc pc' : RunPc} (h : advanceRun fw i job ch c pc = some (c', pc'))
    (hraw : pc.stage ≠ .raw) : DebtStep ch (.run job pc) (.run job pc') c c' := by
  cases pc with
  | rawNext realtime => exact absurd rfl hraw
  | rawWriting realtime err => exact absurd rfl hraw
  | begin =>
    cases h
    exact .starts job rfl rfl rfl rfl rfl rfl
  | top idx rest =>
    cases rest with
    | nil =>
      cases h
      exact .same rfl rfl rfl rfl
    | cons rawLine rest =>
      simp only [advanceRun] at h
      split_ifs at h <;> cases h
      · exact .same rfl rfl rfl rfl
      · exact .same rfl rfl rfl rfl
      · have hreport : (c.reportOp (job.opIndex idx)).jobRunning = c.jobRunning ∧
            (c.reportOp (job.opIndex idx)).finishes = c.finishes := by
          unfold Core.reportOp
          split
          · exact ⟨rfl, rfl⟩
          · split_ifs
            · exact ⟨rfl, rfl⟩
            · refine ⟨rfl, ?_⟩
              unfold Core.finishes
              rw [List.count_append]
              rfl
        exact .same hreport.1 hreport.2 rfl rfl
  | ping idx line rest p =>
    simp only [advanceRun] at h
    split at h
    · cases h
      exact .same rfl rfl rfl rfl
    · cases h
      refine .same rfl rfl ?_ ?_ <;> split_ifs <;> rfl
    · obtain ⟨⟨c₁, p'⟩, hping, heq⟩ := Option.map_eq_some_iff.mp h
      cases heq
      obtain ⟨hrun, hfin⟩ := finishes_of_rest (advancePing_step hping).rest
      exact .same hrun hfin rfl rfl
  | ended interrupted =>
    cases h
    refine .ends job interrupted rfl rfl rfl ?_ ?_ <;> split_ifs <;> rfl
  | shutdown was p =>
    simp only [advanceRun] at h
    split at h
    · cases h
      exact .same rfl rfl rfl rfl
    · obtain ⟨⟨c₁, p'⟩, hshut, heq⟩ := Option.map_eq_some_iff.mp h
      cases heq
      obtain ⟨hrun, hfin⟩ := finishes_of_rest (advanceShutdown_rest hshut).1
      exact .same hrun hfin rfl rfl
  | finish was =>
    cases h
    have hcount : (c.events ++ if was then [] else [SessionEvent.jobFinished]).count SessionEvent.jobFinished
        = c.finishes + (!was).toNat := by
      rw [List.count_append]
      cases was <;> rfl
    cases was with
    | true => exact .same rfl hcount rfl rfl
    | false => exact .pays rfl hcount rfl rfl rfl
  | returned => cases h
  | yielded idx rest =>
    cases h
    exact .same rfl rfl rfl rfl

theorem advanceCancel_debt {em : Bool} {pc pc' : CancelPc}
    (h : advanceCancel fw i em ch c pc = some (c', pc')) :
    DebtStep ch (.cancel em pc) (.cancel em pc') c c' := by
  cases pc with
  | start =>
    simp only [advanceCancel] at h
    split_ifs at h with hopen <;> cases h
    · have hopen' : c.isOpen = true := hopen
      exact .takes em rfl rfl rfl rfl (by rw [hopen']; rfl) rfl
    · have hopen' : c.isOpen = false := Bool.not_eq_true _ ▸ hopen
      exact .takes em rfl rfl rfl rfl (by rw [hopen', Bool.false_and, Bool.and_false]; rfl) rfl
  | stopping was err =>
    cases err <;> cases h
    · exact .same rfl rfl (Bool.and_true was).symm rfl
    · exact .same rfl rfl (Bool.and_false was).symm rfl
  | shutdown was p =>
    simp only [advanceCancel] at h
    split at h
    · cases h
      have hcount : (c.events ++ if was then [SessionEvent.jobFinished] else []).count SessionEvent.jobFinished
          = c.finishes + was.toNat := by
        rw [List.count_append]
        cases was <;> rfl
      cases was with
      | true => exact .pays rfl hcount rfl rfl rfl
      | false => exact .same rfl hcount rfl rfl
    · obtain ⟨⟨c₁, p'⟩, hshut, heq⟩ := Option.map_eq_some_iff.mp h
      cases heq
      obtain ⟨hrun, hfin⟩ := finishes_of_rest (advanceShutdown_rest hshut).1
      exact .same hrun hfin rfl rfl
  | returned err => cases h

/-- **What one step does with the baton.** -/
theorem advance_debt (h : advance fw i ch c b = some (c', b')) (hraw : b.stage ≠ some .raw) :
    DebtStep ch b b' c c' := by
  cases b with
  | run job pc =>
    obtain ⟨⟨c1, pc1⟩, h1, h2⟩ := Option.map_eq_some_iff.mp h
    cases h2
    exact advanceRun_debt h1 fun heq => hraw (congrArg some heq)
  | cancel em pc =>
    obtain ⟨⟨c1, pc1⟩, h1, h2⟩ := Option.map_eq_some_iff.mp h
    cases h2
    exact advanceCancel_debt h1
  | execute command pc =>
    obtain ⟨⟨c1, pc1⟩, h1, h2⟩ := Option.map_eq_some_iff.mp h
    cases h2
    cases pc with
    | start =>
      cases h1
      exact .same rfl rfl rfl rfl
    | ping p =>
      obtain ⟨⟨c₁, p'⟩, hping, heq⟩ := Option.map_eq_some_iff.mp h1
      cases heq
      obtain ⟨hrun, hfin⟩ := finishes_of_rest (advancePing_step hping).rest
      exact .same hrun hfin rfl rfl
  | hold on pc =>
    obtain ⟨⟨c1, pc1⟩, h1, h2⟩ := Option.map_eq_some_iff.mp h
    cases h2
    cases pc with
    | start =>
      have hkeep : (if fw == .simple then Core.clearCancelled { c with isHolding := on }
          else { c with isHolding := on }).jobRunning = c.jobRunning ∧
          (if fw == .simple then Core.clearCancelled { c with isHolding := on }
          else { c with isHolding := on }).finishes = c.finishes := by
        split_ifs <;> exact ⟨rfl, rfl⟩
      unfold advanceHold at h1
      dsimp only at h1
      generalize (if fw == .simple then Core.clearCancelled { c with isHolding := on }
        else { c with isHolding := on }) = d at h1 hkeep
      split at h1 <;> cases h1 <;> exact .same hkeep.1 hkeep.2 rfl rfl
    | writing err =>
      cases h1
      exact .same rfl rfl rfl rfl
    | returned => cases h1
  | poll pc =>
    obtain ⟨⟨c1, pc1⟩, h1, h2⟩ := Option.map_eq_some_iff.mp h
    cases h2
    cases pc with
    | ping p =>
      simp only [advancePoll] at h1
      split at h1
      · cases h1
        exact .same rfl rfl rfl rfl
      · obtain ⟨⟨c₁, p'⟩, hping, heq⟩ := Option.map_eq_some_iff.mp h1
        cases heq
        obtain ⟨hrun, hfin⟩ := finishes_of_rest (advancePing_step hping).rest
        exact .same hrun hfin rfl rfl
    | _ =>
      simp only [advancePoll] at h1
      try split_ifs at h1
      all_goals cases h1
      all_goals exact .same rfl rfl rfl rfl

/-- Received bytes report nothing. -/
theorem handleRx_events (data : Bytes) (c : Core) : (c.handleRx fw data).events = c.events := by
  have hline : ∀ (c : Core) (line : Text), (c.handleLine fw line).events = c.events := by
    intro c line
    unfold Core.handleLine Core.handleMarlinLine Core.handlePositionReport Core.handleGrblLine
    split_ifs <;> (try split) <;> rfl
  have hlines : ∀ (lines : List Text) (c : Core),
      (lines.foldl (Core.handleLine fw) c).events = c.events := by
    intro lines
    induction lines with
    | nil => exact fun c => rfl
    | cons line lines ih => exact fun c => (ih _).trans (hline c line)
  have hmessages : ∀ (messages : List Bytes) (c : Core),
      (messages.foldl (Core.handleMessage fw) c).events = c.events := by
    intro messages
    induction messages with
    | nil => exact fun c => rfl
    | cons message messages ih => exact fun c => (ih _).trans (hlines _ c)
  exact hmessages _ _

end Debt

/-! ### The condition -/

/-- The task is in the loop over the lines of its job. -/
def Body.going (b : Body) : Bool := b.stage == some .going

/-- Nobody starts a job or disconnects. -/
def Label.keepsJob : Label → Bool
  | .call (.run _) | .call (.runRaw _) | .cleanup => false
  | _ => true

/-- The step neither loses nor doubles the baton: a `cancel` that finds the job running writes
its stop, and the cancellation flag is not cleared before the run has seen it. -/
def reportsEnd (fw : Firmware) (s : Sys) (l : Label) : Bool :=
  match l with
  | .task i ch =>
    match s.tasks[i]? with
    | some (.cancel _ .start) => !s.core.jobRunning || (s.core.isOpen && ch.writeError.isNone)
    | some b => !(b.clears fw s.core && s.core.isCancelled && s.tasks.any Body.going)
    | none => true
  | _ => true

/-- The tasks that owe the report. -/
def Sys.owes (s : Sys) (i : ℕ) : Bool := (s.tasks[i]?).any Body.owes

/-- No job is in progress, and no `cancel` has to report one. -/
structure AtRest (s : Sys) : Prop where
  jobRunning : s.core.jobRunning = false
  runs : ∀ (i : ℕ) (job : Job) (pc : RunPc), s.tasks[i]? = some (.run job pc) → pc = .returned
  owes : ∀ i, s.owes i = false

/-! ### The invariant -/

/-- What the flags say at a stage of the run. -/
def Stage.agrees (c : Core) : Stage → Prop
  | .raw => False
  | .start | .over => c.jobRunning = false
  | .going => c.jobRunning = false → c.isCancelled = true

/-- **The invariant**: the report of the job is a baton. -/
structure Due (j : ℕ) (job : Job) (base : ℕ) (s : Sys) : Prop where
  run : ∃ pc, s.tasks[j]? = some (.run job pc) ∧ pc.stage.agrees s.core
  others : ∀ (i : ℕ) (job' : Job) (pc : RunPc), i ≠ j → s.tasks[i]? = some (.run job' pc) →
    pc = .returned
  flags : s.core.jobRunning = true → s.core.isCancelled = false
  baton : Baton s.core.jobRunning s.owes base s.core.finishes

section Due

variable {fw : Firmware} {i j base : ℕ} {job : Job} {ch : Choice} {s u : Sys} {l : Label}
  {b : Body}

/-- No run has realtime commands to send. -/
theorem Due.not_raw (h : Due j job base s) (hb : s.tasks[i]? = some b) : b.stage ≠ some .raw := by
  cases b with
  | run job' pc =>
    by_cases hij : i = j
    · obtain ⟨pc', hj, hagrees⟩ := h.run
      rw [hij, hj] at hb
      cases hb
      intro heq
      rw [Option.some.inj heq] at hagrees
      exact hagrees
    · rw [h.others i job' pc hij hb]
      exact nofun
  | _ => exact nofun

/-- What is not the step of a task does nothing with the baton. -/
theorem aside_debt (hs : Sys.step fw l s = some u) (hl : ∀ i ch, l ≠ .task i ch)
    (hkeep : l.keepsJob = true) :
    u.core.jobRunning = s.core.jobRunning ∧ u.core.isCancelled = s.core.isCancelled ∧
      u.core.finishes = s.core.finishes ∧
      (∀ (k : ℕ) (job : Job) (pc : RunPc), u.tasks[k]? = some (.run job pc) →
        s.tasks[k]? = some (.run job pc)) ∧
      ∀ k, u.owes k = s.owes k := by
  have htasks : u.tasks = s.tasks → (∀ (k : ℕ) (job : Job) (pc : RunPc),
      u.tasks[k]? = some (.run job pc) → s.tasks[k]? = some (.run job pc)) ∧
        ∀ k, u.owes k = s.owes k := fun heq =>
    ⟨fun k job pc hk => by rwa [heq] at hk, fun k => by unfold Sys.owes; rw [heq]⟩
  obtain ⟨-, haside⟩ := Sys.step_other hs hl
  cases haside with
  | rx data hlabel hcore heq =>
    have hf : RxFrame s.core (s.core.handleRx fw data) := handleRx_frame data s.core
    rw [hcore]
    refine ⟨hf.jobRunning, hf.isCancelled, ?_, htasks heq⟩
    unfold Core.finishes
    rw [handleRx_events]
  | link up hlabel hcore heq =>
    rw [hcore]
    exact ⟨rfl, rfl, rfl, htasks heq⟩
  | announce hlabel hcore heq =>
    rw [hcore]
    exact ⟨rfl, rfl, rfl, htasks heq⟩
  | cleanup hlabel hcore heq =>
    rw [hlabel] at hkeep
    cases hkeep
  | call op b hlabel hb hcore heq =>
    -- a function that starts no job
    rw [hlabel] at hkeep
    have hbody : b.owes = false ∧ b.stage = none := by
      cases op with
      | setHold hold =>
        simp only [Call.body] at hb
        split_ifs at hb
        cases hb
        exact ⟨rfl, rfl⟩
      | run job' => cases hkeep
      | runRaw lines => cases hkeep
      | _ =>
        cases hb
        exact ⟨rfl, rfl⟩
    rw [hcore]
    refine ⟨rfl, rfl, rfl, fun k job pc hk => ?_, fun k => ?_⟩
    · rw [heq] at hk
      rcases Nat.lt_or_ge k s.tasks.length with hlt | hge
      · rwa [List.getElem?_append_left hlt] at hk
      · rw [List.getElem?_append_right hge, List.getElem?_singleton] at hk
        split_ifs at hk
        cases hk
        cases hbody.2
    · unfold Sys.owes
      rw [heq]
      rcases Nat.lt_or_ge k s.tasks.length with hlt | hge
      · rw [List.getElem?_append_left hlt]
      · rw [List.getElem?_append_right hge, List.getElem?_eq_none hge, List.getElem?_singleton]
        split_ifs
        · exact hbody.1
        · rfl
  | drop i pc hlabel hi hcore heq =>
    have hlen : i < s.tasks.length := (List.getElem?_eq_some_iff.mp hi).1
    have hsame : u.core.jobRunning = s.core.jobRunning ∧
        u.core.isCancelled = s.core.isCancelled ∧ u.core.finishes = s.core.finishes := by
      rw [hcore]
      split_ifs <;> exact ⟨rfl, rfl, rfl⟩
    refine ⟨hsame.1, hsame.2.1, hsame.2.2, fun k job pc hk => ?_, fun k => ?_⟩
    · rw [heq] at hk
      by_cases hik : i = k
      · rw [hik, List.getElem?_set_self (hik ▸ hlen)] at hk
        cases hk
      · rwa [List.getElem?_set_ne hik] at hk
    · unfold Sys.owes
      rw [heq]
      by_cases hik : i = k
      · rw [← hik, List.getElem?_set_self hlen, hi]
        rfl
      · rw [List.getElem?_set_ne hik]

/-- Nobody clears the cancellation flag before the run has seen it. -/
theorem Due.keeps_cancelled {c' : Core} {b' : Body} {pc : RunPc}
    (hok : reportsEnd fw s (.task i ch) = true) (hb : s.tasks[i]? = some b)
    (hadv : advance fw i ch s.core b = some (c', b')) (hj : s.tasks[j]? = some (.run job pc))
    (hgoing : pc.stage = .going) (hcan : s.core.isCancelled = true) : c'.isCancelled = true := by
  refine (advance_flags hadv).kept hcan ?_
  have hany : s.tasks.any Body.going = true := by
    refine List.any_eq_true.mpr ⟨_, List.mem_of_getElem? hj, ?_⟩
    show (some pc.stage == some Stage.going) = true
    rw [hgoing]
    rfl
  by_cases hstart : ∃ em, b = .cancel em .start
  · obtain ⟨em, rfl⟩ := hstart
    rfl
  · simp only [reportsEnd, hb] at hok
    split at hok
    · rename_i em heq
      exact absurd ⟨em, Option.some.inj heq⟩ hstart
    · rename_i b₀ _ heq
      obtain rfl : b = b₀ := Option.some.inj heq
      rw [hcan, hany, Bool.and_true, Bool.and_true, Bool.not_eq_true'] at hok
      exact hok
    · rename_i heq
      cases heq

/-- Task `i` goes on from `b` to `b'`, while the run of the job, task `j`, goes from `pc` to
`pc'` or stays there. -/
structure JobStep (fw : Firmware) (i j : ℕ) (job : Job) (ch : Choice) (b b' : Body)
    (pc pc' : RunPc) (s u : Sys) : Prop where
  before : s.tasks[i]? = some b
  adv : advance fw i ch s.core b = some (u.core, b')
  run : s.tasks[j]? = some (.run job pc)
  run' : u.tasks[j]? = some (.run job pc')
  own : i = j → b = .run job pc ∧ b' = .run job pc'
  stage : b'.stage = b.stage → pc'.stage = pc.stage
  returned : ∀ job' pc₁, i ≠ j → b ≠ .run job' pc₁
  owes : s.owes i = b.owes
  owes' : u.owes i = b'.owes
  others : ∀ k, k ≠ i → u.owes k = s.owes k

/-- The step of a task, and the runs after it. -/
theorem Due.jobStep (h : Due j job base s) (hs : Sys.step fw (.task i ch) s = some u) :
    ∃ b b' pc pc', JobStep fw i j job ch b b' pc pc' s u ∧ pc.stage.agrees s.core ∧
      ∀ (k : ℕ) (job' : Job) (pc₁ : RunPc), k ≠ j → u.tasks[k]? = some (.run job' pc₁) →
        pc₁ = .returned := by
  obtain ⟨pc, hj, hagrees⟩ := h.run
  obtain ⟨b, c', b', hb, -, hadv, rfl⟩ := Sys.step_task hs
  have hlen : i < s.tasks.length := (List.getElem?_eq_some_iff.mp hb).1
  -- every other run has returned, and does not move
  have hreturned : ∀ job' pc₁, i ≠ j → b ≠ .run job' pc₁ := by
    rintro job' pc₁ hij rfl
    rw [h.others i job' pc₁ hij hb] at hadv
    cases hadv
  -- the run of the job has moved itself, or stands where it was
  have hrun : ∃ pc', (s.tasks.set i b')[j]? = some (.run job pc') ∧
      (i = j → b = .run job pc ∧ b' = .run job pc') ∧ (b'.stage = b.stage → pc'.stage = pc.stage) := by
    by_cases hij : i = j
    · subst hij
      obtain rfl : b = .run job pc := Option.some.inj (hb.symm.trans hj)
      obtain ⟨⟨c₁, pc'⟩, -, heq⟩ := Option.map_eq_some_iff.mp hadv
      cases heq
      exact ⟨pc', List.getElem?_set_self hlen, fun _ => ⟨rfl, rfl⟩, fun hst => Option.some.inj hst⟩
    · exact ⟨pc, by rw [List.getElem?_set_ne hij, hj], fun heq => absurd heq hij, fun _ => rfl⟩
  obtain ⟨pc', hj', hown, hstage⟩ := hrun
  refine ⟨b, b', pc, pc', ⟨hb, hadv, hj, hj', hown, hstage, hreturned, ?_, ?_, fun k hk => ?_⟩,
    hagrees, fun k job' pc₁ hkj hk => ?_⟩
  · unfold Sys.owes
    rw [hb]
    rfl
  · unfold Sys.owes
    rw [List.getElem?_set_self hlen]
    rfl
  · unfold Sys.owes
    rw [List.getElem?_set_ne (Ne.symm hk)]
  · by_cases hik : i = k
    · subst hik
      rw [List.getElem?_set_self hlen] at hk
      cases hk
      have hkind := advance_isRun hadv
      cases b with
      | run job₀ pc₀ => exact absurd rfl (hreturned job₀ pc₀ hkj)
      | _ => cases hkind
    · rw [List.getElem?_set_ne hik] at hk
      exact h.others k job' pc₁ hkj hk

section Step

variable {b' : Body} {pc pc' : RunPc}

theorem JobStep.owes_same (hstep : JobStep fw i j job ch b b' pc pc' s u)
    (howes : b'.owes = b.owes) (k : ℕ) : u.owes k = s.owes k := by
  by_cases hk : k = i
  · rw [hk, hstep.owes', hstep.owes, howes]
  · exact hstep.others k hk

/-- A task at a counter of a run is the run of the job. -/
theorem JobStep.is_own {job' : Job} {pc₁ : RunPc}
    (hstep : JobStep fw i j job ch b b' pc pc' s u) (hb : b = .run job' pc₁) : i = j ∧ pc = pc₁ := by
  have hij : i = j := by
    by_contra hij
    exact hstep.returned job' pc₁ hij hb
  have heq := (hstep.own hij).1
  rw [hb] at heq
  cases heq
  exact ⟨hij, rfl⟩

/-- The run of the job has come to the stage its step leads to. -/
theorem JobStep.moved {st : Stage} (hstep : JobStep fw i j job ch b b' pc pc' s u) (hij : i = j)
    (hst : b'.stage = some st) : pc'.stage = st := by
  rw [(hstep.own hij).2] at hst
  exact Option.some.inj hst

/-- A step that keeps the flag and the stage keeps what the flags say. -/
theorem JobStep.agrees (hstep : JobStep fw i j job ch b b' pc pc' s u)
    (hok : reportsEnd fw s (.task i ch) = true) (hagrees : pc.stage.agrees s.core)
    (hjob : u.core.jobRunning = s.core.jobRunning) (hstage : b'.stage = b.stage) :
    pc'.stage.agrees u.core := by
  rw [hstep.stage hstage]
  cases hst : pc.stage with
  | going =>
    rw [hst] at hagrees
    exact fun hr => Due.keeps_cancelled hok hstep.before hstep.adv hstep.run hst
      (hagrees (hjob.symm.trans hr))
  | raw =>
    rw [hst] at hagrees
    exact hagrees
  | _ =>
    rw [hst] at hagrees
    exact hjob.trans hagrees

theorem JobStep.flags (hstep : JobStep fw i j job ch b b' pc pc' s u) (h : Due j job base s)
    (hjob : u.core.jobRunning = s.core.jobRunning) (hr : u.core.jobRunning = true) :
    u.core.isCancelled = false := by
  refine (advance_flags hstep.adv).unset (h.flags (hjob.symm.trans hr)) ?_
  rintro em rfl
  obtain ⟨⟨c₁, pc₁⟩, h1, h2⟩ := Option.map_eq_some_iff.mp hstep.adv
  have hrun : c₁.jobRunning = true := by
    rw [(Prod.mk.inj h2).1]
    exact hr
  simp only [advanceCancel] at h1
  split_ifs at h1 <;> cases h1 <;> cases hrun

/-- A `cancel` that finds a job takes the baton. -/
theorem JobStep.takes {em : Bool} (hstep : JobStep fw i j job ch b b' pc pc' s u)
    (h : Due j job base s) (hok : reportsEnd fw s (.task i ch) = true)
    (hcancel : b = .cancel em .start) (hjob : u.core.jobRunning = false)
    (hfin : u.core.finishes = s.core.finishes)
    (howes' : b'.owes = (s.core.jobRunning && (s.core.isOpen && ch.writeError.isNone))) :
    Baton u.core.jobRunning u.owes base u.core.finishes := by
  have hb := hstep.before
  rw [hcancel] at hb
  cases hjob₀ : s.core.jobRunning with
  | false =>
    -- there is no job to report
    refine h.baton.keep (hjob.trans hjob₀.symm) (hstep.owes_same ?_) hfin
    rw [howes', hjob₀, hcancel]
    rfl
  | true =>
    have hwritten : (s.core.isOpen && ch.writeError.isNone) = true := by
      simpa only [reportsEnd, hb, hjob₀, Bool.not_true, Bool.false_or] using hok
    rw [hjob, hfin]
    refine h.baton.take (i := i) hjob₀ ?_ hstep.others
    rw [hstep.owes', howes', hjob₀, hwritten]
    rfl

/-- The run that ends its loop takes the baton, unless a `cancel` has. -/
theorem JobStep.ends {interrupted : Bool}
    (hstep : JobStep fw i j job ch b b' (.ended interrupted) pc' s u) (h : Due j job base s)
    (hagrees : s.core.jobRunning = false → s.core.isCancelled = true)
    (hended : b.owes = false) (hjob : u.core.jobRunning = false)
    (hfin : u.core.finishes = s.core.finishes) (howes' : b'.owes = !s.core.isCancelled) :
    Baton u.core.jobRunning u.owes base u.core.finishes := by
  cases hjob₀ : s.core.jobRunning with
  | false =>
    -- a `cancel` has found the job running
    refine h.baton.keep (hjob.trans hjob₀.symm) (hstep.owes_same ?_) hfin
    rw [howes', hagrees hjob₀, hended]
    rfl
  | true =>
    rw [hjob, hfin]
    refine h.baton.take (i := i) hjob₀ ?_ hstep.others
    rw [hstep.owes', howes', h.flags hjob₀]
    rfl

end Step

/-- The step of a task. -/
theorem Due.task (h : Due j job base s) (hs : Sys.step fw (.task i ch) s = some u)
    (hok : reportsEnd fw s (.task i ch) = true) : Due j job base u := by
  obtain ⟨b, b', pc, pc', hstep, hagrees, hruns⟩ := h.jobStep hs
  cases advance_debt hstep.adv (h.not_raw hstep.before) with
  | same hjob hfin howes hstage =>
    exact ⟨⟨pc', hstep.run', hstep.agrees hok hagrees hjob hstage⟩, hruns, hstep.flags h hjob,
      h.baton.keep hjob (hstep.owes_same howes) hfin⟩
  | starts job' hbegin hjob hcan hfin howes' hstage' =>
    obtain ⟨hij, -⟩ := hstep.is_own hbegin
    refine ⟨⟨pc', hstep.run', ?_⟩, hruns, fun _ => hcan, ?_⟩
    · rw [hstep.moved hij hstage']
      intro hr
      cases hjob.symm.trans hr
    · rw [hjob, hfin]
      refine h.baton.give (i := i) ?_ (hstep.owes'.trans howes') hstep.others
      rw [hstep.owes, hbegin]
      rfl
  -- a `cancel` takes the report over from the run
  | takes em hcancel hjob hcan hfin howes' hstage' =>
    have hst : pc'.stage = pc.stage := hstep.stage (by rw [hstage', hcancel]; rfl)
    refine ⟨⟨pc', hstep.run', ?_⟩, hruns, fun hr => (by cases hjob.symm.trans hr),
      hstep.takes h hok hcancel hjob hfin howes'⟩
    rw [hst]
    cases hst' : pc.stage with
    | raw =>
      rw [hst'] at hagrees
      exact hagrees
    | going => exact fun _ => hcan
    | _ => exact hjob
  -- the loop has ended: the run is the one that owes the report
  | ends job' interrupted hended hjob hfin howes' hstage' =>
    obtain ⟨hij, rfl⟩ := hstep.is_own hended
    refine ⟨⟨pc', hstep.run', ?_⟩, hruns, fun hr => (by cases hjob.symm.trans hr),
      hstep.ends h hagrees (by rw [hended]; rfl) hjob hfin howes'⟩
    rw [hstep.moved hij hstage']
    exact hjob
  | pays hjob hfin howes howes' hstage =>
    have hi : s.owes i = true := hstep.owes.trans howes
    have hstopped := h.baton.not_shared hi
    refine ⟨⟨pc', hstep.run', hstep.agrees hok hagrees hjob hstage⟩, hruns, hstep.flags h hjob, ?_⟩
    rw [hjob, hstopped, hfin]
    exact h.baton.pay hi (hstep.owes'.trans howes') hstep.others

/-- **The invariant is kept.** -/
theorem Due.step (h : Due j job base s) (hs : Sys.step fw l s = some u)
    (hkeep : l.keepsJob = true) (hok : reportsEnd fw s l = true) : Due j job base u := by
  by_cases hl : ∃ i ch, l = .task i ch
  · obtain ⟨i, ch, rfl⟩ := hl
    exact h.task hs hok
  · obtain ⟨pc, hj, hagrees⟩ := h.run
    have hne : ∀ i ch, l ≠ .task i ch := fun i ch hi => hl ⟨i, ch, hi⟩
    obtain ⟨hrun, hcan, hfin, hruns, howes⟩ := aside_debt hs hne hkeep
    have hj' : u.tasks[j]? = some (.run job pc) :=
      Sys.step_tasks hs hj (fun ch => hne j ch) nofun
    refine ⟨⟨pc, hj', ?_⟩, fun i job' pc' hij hi => h.others i job' pc' hij (hruns i job' pc' hi),
      fun hr => hcan.trans (h.flags (hrun.symm.trans hr)), h.baton.keep hrun howes hfin⟩
    cases hst : pc.stage with
    | raw =>
      rw [hst] at hagrees
      exact hagrees
    | going =>
      rw [hst] at hagrees
      exact fun hr => hcan.trans (hagrees (hrun.symm.trans hr))
    | _ =>
      rw [hst] at hagrees
      exact hrun.trans hagrees

/-- The call of the run. -/
theorem Due.of_call (h : AtRest s) (hcall : Sys.step fw (.call (.run job)) s = some u) :
    Due s.tasks.length job s.core.finishes u := by
  have hcalled : u.core = s.core ∧ u.tasks = s.tasks ++ [Body.run job .begin] := by
    simp only [Sys.step] at hcall
    split_ifs at hcall
    cases hcall
    exact ⟨rfl, rfl⟩
  obtain ⟨hcore, htasks⟩ := hcalled
  have hnew : (s.tasks ++ [Body.run job .begin])[s.tasks.length]? = some (.run job .begin) := by
    simp
  have hold : ∀ k b, (s.tasks ++ [Body.run job .begin])[k]? = some b → k ≠ s.tasks.length →
      s.tasks[k]? = some b := by
    intro k b hb hk
    have hlen := (List.getElem?_eq_some_iff.mp hb).1
    rw [List.length_append, List.length_singleton] at hlen
    rwa [List.getElem?_append_left (by omega)] at hb
  refine ⟨⟨.begin, by rw [htasks, hnew], by rw [hcore]; exact h.jobRunning⟩,
    fun k job' pc hk hrun => ?_, fun hr => ?_, ?_⟩
  · rw [htasks] at hrun
    exact h.runs k job' pc (hold k _ hrun hk)
  · rw [hcore, h.jobRunning] at hr
    cases hr
  · rw [hcore, h.jobRunning]
    refine Baton.of_holder (i := s.tasks.length) ?_ fun k hk => ?_
    · unfold Sys.owes
      rw [htasks, hnew]
      rfl
    · unfold Sys.owes
      rw [htasks]
      cases hb : (s.tasks ++ [Body.run job .begin])[k]? with
      | none => rfl
      | some b =>
        have howes := h.owes k
        unfold Sys.owes at howes
        rwa [hold k b hb hk] at howes

/-- The end of a job is reported once: what holds when the run and every `cancel` have
returned. -/
theorem Due.settle (h : Due j job base s) (hrun : s.tasks[j]? = some (.run job .returned))
    (hcancels : ∀ (i : ℕ) (em : Bool) (pc : CancelPc), s.tasks[i]? = some (.cancel em pc) →
      ∃ err, pc = .returned err) : s.core.finishes = base + 1 ∧ AtRest s := by
  obtain ⟨pc, hj, hagrees⟩ := h.run
  cases hrun.symm.trans hj
  have hruns : ∀ (i : ℕ) (job' : Job) (pc : RunPc), s.tasks[i]? = some (.run job' pc) →
      pc = .returned := by
    intro i job' pc hi
    by_cases hij : i = j
    · rw [hij, hrun] at hi
      cases hi
      rfl
    · exact h.others i job' pc hij hi
  have hnone : ∀ i, s.owes i = false := by
    intro i
    unfold Sys.owes
    cases hb : s.tasks[i]? with
    | none => rfl
    | some b =>
      cases b with
      | cancel em pc =>
        obtain ⟨err, rfl⟩ := hcancels i em pc hb
        rfl
      | run job' pc =>
        obtain rfl := hruns i job' pc hb
        rfl
      | _ => rfl
  exact ⟨h.baton.spent hagrees hnone, hagrees, hruns, hnone⟩

end Due

/-- **The end of a job is reported once**, in `SessionCore` and in the three ping-pong sessions.
A job is started with none in progress, and until the run and every `cancel` have returned no
other is started and nobody connects or disconnects.  Every `cancel` that finds the job running
writes its stop; in `SessionCore` none aborts a streaming task that has to report the job, and
in the ping-pong sessions nobody clears the cancellation flag before the run has seen it.  Then
the session is at rest again. -/
theorem job_reported_once (fw : Firmware) :
    (∀ (s u v : Raydriver.Sys) (job : Job), Raydriver.AtRest s →
      Raydriver.Sys.step (.call (.run job)) s = some u →
      Run Raydriver.Sys.step
        (fun a l _ => l.keepsJob = true ∧ Raydriver.reportsEnd a l = true) u v →
      v.tasks[s.tasks.length]? = some (.run job .returned) →
      (∀ (i : ℕ) (em : Bool) (pc : Raydriver.CancelPc), v.tasks[i]? = some (.cancel em pc) →
        ∃ err, pc = .returned err) →
      v.core.finishes = s.core.finishes + 1 ∧ (v.active = none → Raydriver.AtRest v)) ∧
    ∀ (s u v : Sys) (job : Job), AtRest s → Sys.step fw (.call (.run job)) s = some u →
      Run (Sys.step fw) (fun a l _ => l.keepsJob = true ∧ reportsEnd fw a l = true) u v →
      v.tasks[s.tasks.length]? = some (.run job .returned) →
      (∀ (i : ℕ) (em : Bool) (pc : CancelPc), v.tasks[i]? = some (.cancel em pc) →
        ∃ err, pc = .returned err) →
      v.core.finishes = s.core.finishes + 1 ∧ AtRest v := by
  refine ⟨fun s u v job h0 hcall hr hrun hcancels =>
    session_reports_once h0 hcall hr hrun hcancels, ?_⟩
  intro s u v job h0 hcall hr hrun hcancels
  have h : Due s.tasks.length job s.core.finishes v :=
    hr.invariant (fun _ _ _ h hs hok => h.step hs hok.1 hok.2) (.of_call h0 hcall)
  exact h.settle hrun hcancels

/-! ### Runs of a fixed job -/

/-- A job of one line. -/
def oneLine : Job := { lines := ["G1 X1".toList] }

/-- A session that nobody has used. -/
def newSys : Sys := { core := {} }

theorem atRest_newSys : AtRest newSys where
  jobRunning := rfl
  runs := fun i job pc hi => by simp [newSys] at hi
  owes := fun i => by simp [newSys, Sys.owes]

/-- The job is called in `SessionCore`, and in a ping-pong session. -/
def calledSession : Raydriver.Sys := reach Raydriver.Sys.step [.call (.run oneLine)] newSession

/-- A new session whose job is called. -/
def calledSys (fw : Firmware) : Sys := reach (Sys.step fw) [.call (.run oneLine)] newSys

/-- The line is out, and a `cancel` aborts the streaming task. -/
def cancelledStream : List Raydriver.Label :=
  Raydriver.turns 0 3 ++ Raydriver.turns 1 6 ++ .call (.cancel false) :: Raydriver.turns 2 3 ++
    .drop 1 :: Raydriver.turns 2 3 ++ Raydriver.turns 0 1

/-- The line is out, and a `cancel` runs to its end before the run goes on. -/
def cancelledRun : List Label :=
  turns 0 6 ++ .call (.cancel false) :: turns 1 4 ++ turns 0 7

/-- Every `cancel` has returned. -/
def cancelsOver (s : Raydriver.Sys) : Bool :=
  s.tasks.all fun b =>
    match b with
    | .cancel _ (.returned _) => true
    | .cancel _ _ => false
    | _ => true

theorem returned_of_cancelsOver {s : Raydriver.Sys} (h : cancelsOver s = true) (i : ℕ) (em : Bool)
    (pc : Raydriver.CancelPc) (hi : s.tasks[i]? = some (.cancel em pc)) :
    ∃ err, pc = .returned err := by
  have hb := List.all_eq_true.mp h _ (List.mem_of_getElem? hi)
  cases pc with
  | returned err => exact ⟨err, rfl⟩
  | _ => cases hb

/-- The same in a ping-pong session. -/
def Sys.cancelsOver (s : Sys) : Bool :=
  s.tasks.all fun b =>
    match b with
    | .cancel _ (.returned _) => true
    | .cancel _ _ => false
    | _ => true

theorem Sys.returned_of_cancelsOver {s : Sys} (h : s.cancelsOver = true) (i : ℕ) (em : Bool)
    (pc : CancelPc) (hi : s.tasks[i]? = some (.cancel em pc)) : ∃ err, pc = .returned err := by
  have hb := List.all_eq_true.mp h _ (List.mem_of_getElem? hi)
  cases pc with
  | returned err => exact ⟨err, rfl⟩
  | _ => cases hb

/-- A job that is cancelled: the general result in `SessionCore` and in `SimpleCore`. -/
theorem job_reported_once_cancelled :
    (reach Raydriver.Sys.step cancelledStream calledSession).core.finishes = 0 + 1 ∧
      (reach (Sys.step .simple) cancelledRun (calledSys .simple)).core.finishes = 0 + 1 := by
  constructor
  · exact ((job_reported_once .simple).1 newSession calledSession
      (reach Raydriver.Sys.step cancelledStream calledSession) oneLine atRest_newSession (by rfl)
      (run_reach_both (by decide)) (by decide) (returned_of_cancelsOver (by decide))).1
  · exact ((job_reported_once .simple).2 newSys (calledSys .simple)
      (reach (Sys.step .simple) cancelledRun (calledSys .simple)) oneLine atRest_newSys (by rfl)
      (run_reach_both (by decide)) (by decide) (Sys.returned_of_cancelsOver (by decide))).1

/-- The link goes down before the line is written, and the `cancel` of the failure path fails. -/
def closedStream : List Raydriver.Label :=
  Raydriver.turns 0 3 ++ Raydriver.turns 1 2 ++ .link false :: Raydriver.turns 1 6 ++
    Raydriver.turns 0 1

/-- The write of the line fails, and a `cancel` aborts the streaming task in its own. -/
def abortedCancel : List Raydriver.Label :=
  Raydriver.turns 0 3 ++ Raydriver.turns 1 5 ++ .task 1 { writeError := some "lost" } ::
    Raydriver.turns 1 3 ++ .call (.cancel false) :: Raydriver.turns 2 3 ++ .drop 1 ::
    Raydriver.turns 2 3 ++ Raydriver.turns 0 1

/-- The link goes down while the line is out, and a `cancel` fails. -/
def closedRun : List Label :=
  turns 0 6 ++ .link false :: .call (.cancel false) :: turns 1 1 ++ turns 0 7

/-- A command is executed in the middle of a `cancel`. -/
def clearedRun (fw : Firmware) : List Label :=
  turns 0 6 ++ .call (.cancel false) :: turns 1 1 ++ .call (.execute "G0".toList) :: turns 2 3 ++
    turns 0 7 ++ turns 1 (if fw = .marlin then 4 else 3)

/-- **The end of a job is reported not at all, or twice.**  In `SessionCore` a `cancel` on the
failure path returns early when the link is down, or is aborted by another `cancel`; in the
ping-pong sessions a `cancel` returns early too, and a command that is executed in the middle
of one clears the flag the run looks at. -/
theorem job_reported_amiss :
    (¬ ∀ (s u v : Raydriver.Sys) (job : Job), Raydriver.AtRest s →
      Raydriver.Sys.step (.call (.run job)) s = some u →
      Run Raydriver.Sys.step (fun _ l _ => l.keepsJob = true) u v →
      v.tasks[s.tasks.length]? = some (.run job .returned) →
      (∀ (i : ℕ) (em : Bool) (pc : Raydriver.CancelPc), v.tasks[i]? = some (.cancel em pc) →
        ∃ err, pc = .returned err) →
      v.core.finishes = s.core.finishes + 1) ∧
    ((reach Raydriver.Sys.step closedStream calledSession).core.finishes = 0 ∧
      (reach Raydriver.Sys.step abortedCancel calledSession).core.finishes = 0) ∧
    ∀ fw : Firmware, (¬ ∀ (s u v : Sys) (job : Job), AtRest s →
      Sys.step fw (.call (.run job)) s = some u →
      Run (Sys.step fw) (fun _ l _ => l.keepsJob = true) u v →
      v.tasks[s.tasks.length]? = some (.run job .returned) →
      (∀ (i : ℕ) (em : Bool) (pc : CancelPc), v.tasks[i]? = some (.cancel em pc) →
        ∃ err, pc = .returned err) →
      v.core.finishes = s.core.finishes + 1) ∧
    (reach (Sys.step fw) closedRun (calledSys fw)).core.finishes = 0 ∧
      (reach (Sys.step fw) (clearedRun fw) (calledSys fw)).core.finishes = 2 := by
  refine ⟨fun h => ?_, ⟨by decide, by decide⟩, fun fw => ⟨fun h => ?_, ?_, ?_⟩⟩
  · exact absurd (h newSession calledSession (reach Raydriver.Sys.step abortedCancel calledSession)
      oneLine atRest_newSession (by rfl) (run_reach_where (by decide)) (by decide)
      (returned_of_cancelsOver (by decide))) (by decide)
  · have hone := h newSys (calledSys fw) (reach (Sys.step fw) (clearedRun fw) (calledSys fw))
      oneLine atRest_newSys (by cases fw <;> rfl)
      (run_reach_where (by cases fw <;> decide)) (by cases fw <;> decide)
      (Sys.returned_of_cancelsOver (by cases fw <;> decide))
    cases fw <;> exact absurd hone (by decide)
  · cases fw <;> decide
  · cases fw <;> decide

end Raydriver.PingPong
