import Raydriver.PingPong.Frames

/-!
# Mutual exclusion of exchanges

Every exchange of a command runs under `cmd_lock`, but for the position poll of
`MarlinCore`.  So while a task waits for its acknowledgement no other task begins or ends
an exchange.

## Main definitions

* `Exclusive` — whoever is in the middle of an exchange holds the lock.
* `LockStep` — what a step does to the lock.

## Main results

* `advance_lock` — the lock under a step of any task.
* `Exclusive.step` — **mutual exclusion is kept by every step**.
-/

namespace Raydriver.PingPong

open Lts

/-- Whoever is in the middle of an exchange holds the lock, and with one slot every
exchange takes the lock. -/
structure Exclusive (fw : Firmware) (s : Sys) : Prop where
  lock : ∀ (i : ℕ) (b : Body), s.tasks[i]? = some b → b.holding = true → s.core.cmdLock = some i
  polls : fw.oneSlot = true → ∀ (i : ℕ) (b : Body), s.tasks[i]? = some b → b.isPollPing = false

section Lock

variable {fw : Firmware} {i : ℕ} {ch : Choice} {c c' : Core} {b b' : Body} {s u : Sys} {l : Label}

/-- What a step of task `i` does to the lock: it is taken when free, and released by its
owner. -/
def LockStep (i : ℕ) (held : Bool) (c c' : Core) : Prop :=
  (held = true → c'.cmdLock = some i) ∧
    (c'.cmdLock = c.cmdLock ∨ c.cmdLock = none ∨ c.cmdLock = some i)

theorem LockStep.of_eq {held : Bool} (h : c'.cmdLock = c.cmdLock)
    (hheld : held = true → c.cmdLock = some i) : LockStep i held c c' :=
  ⟨fun hh => h.trans (hheld hh), .inl h⟩

theorem cmdLock_endPing (serialize : Bool) (cmd : ℕ) (c : Core) :
    (c.endPing fw serialize cmd).cmdLock = if serialize then none else c.cmdLock := by
  unfold Core.endPing Core.dropPending
  dsimp only
  split_ifs <;> rfl

theorem PingStep.lock_step {serialize : Bool} {command : Text} {pc pc' : PingPc}
    (h : PingStep fw i serialize command c pc c' pc')
    (hheld : (serialize && pc.holding) = true → c.cmdLock = some i) :
    LockStep i (serialize && pc'.holding) c c' := by
  have hend : ∀ cmd (p : PingPc), p.holding = false → pc.holding = true →
      LockStep i (serialize && p.holding) c (c.endPing fw serialize cmd) := by
    intro cmd p hp hpc
    rw [hpc, Bool.and_true] at hheld
    rw [hp, Bool.and_false]
    refine ⟨fun h => (by cases h), ?_⟩
    rw [cmdLock_endPing]
    cases serialize with
    | true => exact .inr (.inr (hheld rfl))
    | false => exact .inl rfl
  cases h with
  | enter _ _ _ hentering =>
    refine .of_eq rfl fun hh => ?_
    have hfree : pc'.holding = false := by cases pc' <;> first | rfl | cases hentering
    rw [hfree, Bool.and_false] at hh
    cases hh
  | bare hser =>
    refine .of_eq rfl fun hh => ?_
    rw [hser] at hh
    cases hh
  | refused _ e _ =>
    refine .of_eq rfl fun hh => ?_
    rw [Bool.and_eq_true] at hh
    cases hh.2
  | lock hfree => exact ⟨fun _ => rfl, .inr (.inl hfree)⟩
  | closed e =>
    refine ⟨fun hh => ?_, ?_⟩
    · cases serialize <;> cases hh
    · cases serialize with
      | true => exact .inr (.inr (hheld rfl))
      | false => exact .inl rfl
  | write err => exact .of_eq rfl hheld
  | written cmd => exact .of_eq rfl hheld
  | failed cmd err e => exact hend cmd _ rfl rfl
  | answered cmd hfin => exact hend cmd _ rfl rfl
  | expired cmd hfin => exact hend cmd _ rfl rfl

theorem advanceRun_lock {job : Job} {pc pc' : RunPc}
    (h : advanceRun fw i job ch c pc = some (c', pc'))
    (hheld : (Body.run job pc).holding = true → c.cmdLock = some i) :
    LockStep i (Body.run job pc').holding c c' := by
  cases pc with
  | rawNext realtime =>
    cases realtime <;> simp only [advanceRun] at h <;> split_ifs at h <;> cases h <;>
      exact .of_eq rfl fun hh => by cases hh
  | top idx rest =>
    cases rest with
    | nil =>
      cases h
      exact .of_eq rfl fun hh => by cases hh
    | cons rawLine rest =>
      simp only [advanceRun] at h
      split_ifs at h <;> cases h
      · exact .of_eq rfl fun hh => by cases hh
      · exact .of_eq rfl fun hh => by cases hh
      · refine .of_eq ?_ fun hh => by cases hh
        unfold Core.reportOp
        split
        · rfl
        · split_ifs <;> rfl
  | ping idx line rest pc =>
    simp only [advanceRun] at h
    split at h
    · cases h
      exact .of_eq rfl fun hh => by cases hh
    · cases h
      refine .of_eq rfl fun hh => ?_
      split_ifs at hh <;> cases hh
    · obtain ⟨⟨c1, pc1⟩, h1, h2⟩ := Option.map_eq_some_iff.mp h
      cases h2
      exact (advancePing_step h1).lock_step fun hh => hheld (by simpa [Body.holding, Body.ping] using hh)
  | shutdown was pc =>
    simp only [advanceRun] at h
    split at h
    · cases h
      exact .of_eq rfl fun hh => by cases hh
    · obtain ⟨⟨c1, pc1⟩, h1, h2⟩ := Option.map_eq_some_iff.mp h
      cases h2
      exact .of_eq (advanceShutdown_flags h1).2.2 fun hh => by cases hh
  | rawWriting realtime err =>
    cases h
    refine .of_eq rfl fun hh => ?_
    split_ifs at hh <;> cases hh
  | ended interrupted =>
    cases h
    refine .of_eq rfl fun hh => ?_
    split_ifs at hh <;> cases hh
  | returned => cases h
  | _ =>
    cases h
    exact .of_eq rfl fun hh => by cases hh

theorem advancePoll_lock {pc pc' : PollPc} (h : advancePoll fw i ch c pc = some (c', pc'))
    (hheld : (Body.poll pc).holding = true → c.cmdLock = some i) :
    LockStep i (Body.poll pc').holding c c' := by
  cases pc with
  | lockWait =>
    simp only [advancePoll] at h
    split_ifs at h with hfree
    cases h
    exact ⟨fun _ => rfl, .inr (.inl (Option.isNone_iff_eq_none.mp hfree))⟩
  | locked =>
    simp only [advancePoll] at h
    split_ifs at h <;> cases h
    · exact .of_eq rfl hheld
    · exact ⟨fun hh => (by cases hh), .inr (.inr (hheld rfl))⟩
  | writing err =>
    cases h
    refine ⟨fun hh => ?_, .inr (.inr (hheld rfl))⟩
    split_ifs at hh <;> cases hh
  | ping pc =>
    simp only [advancePoll] at h
    split at h
    · cases h
      refine .of_eq rfl fun hh => ?_
      split_ifs at hh <;> cases hh
    · obtain ⟨⟨c1, pc1⟩, h1, h2⟩ := Option.map_eq_some_iff.mp h
      cases h2
      exact (advancePing_step h1).lock_step fun hh => by cases hh
  | top =>
    simp only [advancePoll] at h
    split_ifs at h <;> cases h <;> exact .of_eq rfl fun hh => by cases hh
  | sleep =>
    cases h
    exact .of_eq rfl fun hh => by cases hh
  | returned => cases h

/-- **The lock under a step of any task.** -/
theorem advance_lock (h : advance fw i ch c b = some (c', b'))
    (hheld : b.holding = true → c.cmdLock = some i) : LockStep i b'.holding c c' := by
  cases b with
  | run job pc =>
    obtain ⟨⟨c1, pc1⟩, h1, h2⟩ := Option.map_eq_some_iff.mp h
    cases h2
    exact advanceRun_lock h1 hheld
  | execute command pc =>
    obtain ⟨⟨c1, pc1⟩, h1, h2⟩ := Option.map_eq_some_iff.mp h
    cases h2
    cases pc with
    | start =>
      cases h1
      exact .of_eq rfl fun hh => by cases hh
    | ping pc =>
      obtain ⟨⟨c2, pc2⟩, h2, h3⟩ := Option.map_eq_some_iff.mp h1
      cases h3
      exact (advancePing_step h2).lock_step fun hh => hheld (by simpa [Body.holding, Body.ping] using hh)
  | cancel em pc =>
    obtain ⟨⟨c1, pc1⟩, h1, h2⟩ := Option.map_eq_some_iff.mp h
    cases h2
    refine .of_eq ?_ fun hh => by cases hh
    cases pc with
    | start =>
      simp only [advanceCancel] at h1
      split_ifs at h1 <;> cases h1 <;> rfl
    | stopping was err => cases err <;> cases h1 <;> rfl
    | shutdown was pc =>
      simp only [advanceCancel] at h1
      split at h1
      · cases h1
        rfl
      · obtain ⟨⟨c2, pc2⟩, h2, h3⟩ := Option.map_eq_some_iff.mp h1
        cases h3
        exact (advanceShutdown_flags h2).2.2
    | returned err => cases h1
  | hold hold pc =>
    obtain ⟨⟨c1, pc1⟩, h1, h2⟩ := Option.map_eq_some_iff.mp h
    cases h2
    refine .of_eq ?_ fun hh => by cases hh
    cases pc with
    | start =>
      simp only [advanceHold] at h1
      split_ifs at h1 <;> cases h1 <;> rfl
    | writing err =>
      cases h1
      rfl
    | returned => cases h1
  | poll pc =>
    obtain ⟨⟨c1, pc1⟩, h1, h2⟩ := Option.map_eq_some_iff.mp h
    cases h2
    exact advancePoll_lock h1 hheld

/-- With one slot the polls make no exchange. -/
theorem advance_isPollPing (h : advance fw i ch c b = some (c', b')) (hfw : fw.oneSlot = true)
    (hb : b.isPollPing = false) : b'.isPollPing = false := by
  have hmarlin : (fw == .marlin) = false := by cases fw <;> first | rfl | cases hfw
  cases b with
  | poll pc =>
    obtain ⟨⟨c1, pc1⟩, h1, h2⟩ := Option.map_eq_some_iff.mp h
    cases h2
    cases pc with
    | ping pc => cases hb
    | top =>
      simp only [advancePoll, hmarlin, Bool.false_eq_true, if_false] at h1
      split_ifs at h1 <;> cases h1 <;> rfl
    | writing err =>
      cases h1
      split_ifs <;> rfl
    | _ =>
      simp only [advancePoll] at h1
      try split_ifs at h1
      all_goals cases h1
      all_goals rfl
  | run job pc =>
    obtain ⟨⟨c1, pc1⟩, h1, h2⟩ := Option.map_eq_some_iff.mp h
    cases h2
    cases pc1 <;> rfl
  | execute command pc =>
    obtain ⟨⟨c1, pc1⟩, h1, h2⟩ := Option.map_eq_some_iff.mp h
    cases h2
    cases pc1 <;> rfl
  | _ =>
    obtain ⟨⟨c1, pc1⟩, h1, h2⟩ := Option.map_eq_some_iff.mp h
    cases h2
    rfl

/-- **Mutual exclusion is kept by every step.** -/
theorem Exclusive.step (h : Exclusive fw s) (hs : Sys.step fw l s = some u) : Exclusive fw u := by
  by_cases hl : ∃ i ch, l = .task i ch
  · obtain ⟨i, ch, rfl⟩ := hl
    obtain ⟨b, c', b', hb, -, hadv, rfl⟩ := Sys.step_task hs
    have hlt : i < s.tasks.length := (List.getElem?_eq_some_iff.mp hb).1
    have hlock := advance_lock hadv (h.lock i b hb)
    refine ⟨fun k d hk hd => ?_, fun hfw k d hk => ?_⟩
    · by_cases hik : i = k
      · subst hik
        rw [List.getElem?_set_self hlt] at hk
        cases hk
        exact hlock.1 hd
      · rw [List.getElem?_set_ne hik] at hk
        have howner := h.lock k d hk hd
        rcases hlock.2 with heq | hfree | hmine
        · exact heq.trans howner
        · rw [hfree] at howner
          cases howner
        · exact absurd (Option.some.inj (hmine.symm.trans howner)) hik
    · by_cases hik : i = k
      · subst hik
        rw [List.getElem?_set_self hlt] at hk
        cases hk
        exact advance_isPollPing hadv hfw (h.polls hfw i b hb)
      · rw [List.getElem?_set_ne hik] at hk
        exact h.polls hfw k d hk
  · obtain ⟨-, haside⟩ := Sys.step_other hs fun i ch hi => hl ⟨i, ch, hi⟩
    -- no other step moves a task into an exchange
    have hsame : u.core.cmdLock = s.core.cmdLock → u.tasks = s.tasks → Exclusive fw u :=
      fun hc ht => ⟨fun i b hb hh => hc.trans (h.lock i b (by rw [← ht]; exact hb) hh),
        fun hfw i b hb => h.polls hfw i b (by rw [← ht]; exact hb)⟩
    cases haside with
    | rx data hlabel hcore htasks =>
      exact hsame (by rw [hcore]; exact (handleRx_frame data s.core).cmdLock) htasks
    | link up hlabel hcore htasks => exact hsame (by rw [hcore]) htasks
    | announce hlabel hcore htasks => exact hsame (by rw [hcore]) htasks
    | cleanup hlabel hcore htasks => exact hsame (by rw [hcore]; rfl) htasks
    | call op b hlabel hb hcore htasks =>
      have hnew : b.holding = false ∧ b.isPollPing = false := by
        cases op with
        | runRaw lines => cases fw <;> cases hb <;> exact ⟨rfl, rfl⟩
        | setHold hold =>
          simp only [Call.body] at hb
          split_ifs at hb
          cases hb
          exact ⟨rfl, rfl⟩
        | _ =>
          cases hb
          exact ⟨rfl, rfl⟩
      have hold : ∀ (k : ℕ) (d : Body), u.tasks[k]? = some d → s.tasks[k]? = some d ∨ d = b := by
        intro k d hk
        rw [htasks, List.getElem?_append] at hk
        split_ifs at hk
        · exact .inl hk
        · exact .inr (List.mem_singleton.mp (List.mem_of_getElem? hk))
      refine ⟨fun k d hk hd => ?_, fun hfw k d hk => ?_⟩
      · rw [hcore]
        rcases hold k d hk with hk | rfl
        · exact h.lock k d hk hd
        · rw [hnew.1] at hd
          cases hd
      · rcases hold k d hk with hk | rfl
        · exact h.polls hfw k d hk
        · exact hnew.2
    | drop i pc hlabel hi hcore htasks =>
      have hlt : i < s.tasks.length := (List.getElem?_eq_some_iff.mp hi).1
      refine ⟨fun k d hk hd => ?_, fun hfw k d hk => ?_⟩
      · rw [htasks] at hk
        by_cases hik : i = k
        · subst hik
          rw [List.getElem?_set_self hlt] at hk
          cases hk
          cases hd
        · rw [List.getElem?_set_ne hik] at hk
          have howner := h.lock k d hk hd
          have hne : s.core.cmdLock ≠ some i := by
            rw [howner]
            exact fun heq => hik (Option.some.inj heq).symm
          rw [hcore, if_neg hne]
          exact howner
      · rw [htasks] at hk
        by_cases hik : i = k
        · subst hik
          rw [List.getElem?_set_self hlt] at hk
          cases hk
          rfl
        · rw [List.getElem?_set_ne hik] at hk
          exact h.polls hfw k d hk

end Lock

end Raydriver.PingPong
