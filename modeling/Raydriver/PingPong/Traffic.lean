import Raydriver.Core.Traffic
import Raydriver.Grbl.Traffic
import Raydriver.PingPong.Connection

/-!
# The traffic of a session

What each step of a ping-pong session reports and writes, apart from the lines of a job.
`cancel` and `send_safety_shutdown` write without an event in all three sessions, and so
does the `set_hold` of `SmoothieCore`.

## Main definitions

* `Body.traffic`, `Sys.traffic`, `Conn.traffic` — what a step reports and writes.
* `Body.silent`, `Sys.silent`, `Conn.silent` — the steps that write without an event.

## Main results

* `advance_sent`, `Conn.step_sent` — the traffic is what goes out.
* `paired_traffic` — which steps pair event and write.
* `traffic_log_complete` — **when the traffic log is complete**, in all four sessions.
* `stop_unlogged` — none of them reports the stop of a `cancel`.
-/

namespace Raydriver.PingPong

open Lts Journal

/-! ### What a step reports and writes -/

/-- The stop of a `cancel`, and whether a newline is behind it. -/
def Firmware.stopLine : Firmware → Text × Bool
  | .simple => (['\x18'], false)
  | .smoothie => (['\x03'], false)
  | .marlin => ("M410".toList, true)

/-- The traffic of a step of an exchange. -/
def PingPc.traffic (command : Text) (ch : Choice) (c : Core) : PingPc → List Traffic
  | .locked => if c.isOpen then reported command command ch.writeError else []
  | _ => []

/-- The traffic of a step of the safety shutdown. -/
def ShutdownPc.traffic (ch : Choice) (c : Core) : ShutdownPc → List Traffic
  | .next (command :: _) => if c.isOpen then [.write command true ch.writeError] else []
  | _ => []

/-- What the next step of a task reports and writes, but for the lines of a job. -/
def Body.traffic (fw : Firmware) (ch : Choice) (c : Core) : Body → List Traffic
  | .run _ (.rawNext (command :: _)) =>
    if c.isOpen then realtimeTraffic command ch.writeError else []
  | .run _ (.shutdown _ pc) => pc.traffic ch c
  | .execute command (.ping pc) => pc.traffic command ch c
  | .cancel _ .start =>
    if c.isOpen then [.write fw.stopLine.1 fw.stopLine.2 ch.writeError] else []
  | .cancel _ (.shutdown _ pc) => pc.traffic ch c
  | .hold on .start =>
    if c.isOpen then
      if fw == .smoothie then [.write [if on then '!' else '~'] false ch.writeError]
      else realtimeTraffic [if on then '!' else '~'] ch.writeError
    else []
  | .poll .locked => if c.isOpen then realtimeTraffic ['?'] ch.writeError else []
  | .poll (.ping pc) => pc.traffic "M114".toList ch c
  | _ => []

/-- The traffic of a step of the session. -/
def Sys.traffic (fw : Firmware) : Label → Sys → List Traffic
  | .task i ch, s => ((s.tasks[i]?).map (Body.traffic fw ch s.core)).getD []
  | _, _ => []

/-- How the write of a `?` of the handshake ends: it fails on a closed transport. -/
def Conn.askError (ch : Choice) (s : Conn) : Option String :=
  if s.sys.core.isOpen then ch.writeError else some "Transport not open"

/-- The handshake asks with a `?` as well, but for that of `MarlinCore`. -/
def Conn.traffic (fw : Firmware) : ConnLabel → Conn → List Traffic
  | .session l, s => Sys.traffic fw l s.sys
  | .loop ch failed, s =>
    match s.phase with
    | .loop .opening =>
      if failed || fw == .marlin then [] else realtimeTraffic ['?'] ch.writeError
    | .loop .handshake =>
      if ch.timedOut && !(fw == .marlin || failed) then realtimeTraffic ['?'] (s.askError ch)
      else []
    | _ => []
  | _, _ => []

/-! ### The traffic is what goes out -/

/-- The task is in the exchange of a line of a job. -/
def Body.sendsJob : Body → Bool
  | .run _ (.ping _ _ _ _) => true
  | _ => false

/-- The payloads that went out. -/
def Core.payloads (c : Core) : List Text := c.sent.map Sent.payload

section Sent

variable {fw : Firmware} {i : ℕ} {ch : Choice} {c c' : Core} {b b' : Body}

theorem payloads_write (origin : Origin) (payload : Text) (err : Option String) (c : Core) :
    (c.write origin payload err).payloads =
      c.payloads ++ if err.isNone then [payload] else [] := by
  unfold Core.payloads Core.write
  rw [List.map_append]
  split_ifs <;> rfl

theorem payloads_endPing (fw : Firmware) (serialize : Bool) (cmd : ℕ) (c : Core) :
    (c.endPing fw serialize cmd).payloads = c.payloads := by
  unfold Core.endPing Core.dropPending
  split_ifs <;> rfl

theorem stopPayload_eq (fw : Firmware) :
    fw.stopPayload = fw.stopLine.1 ++ if fw.stopLine.2 then ['\n'] else [] := by
  cases fw <;> rfl

theorem advancePing_sent {serialize : Bool} {command : Text} {pc pc' : PingPc}
    (h : advancePing fw i serialize command ch c pc = some (c', pc')) :
    c'.payloads = c.payloads ++ (pc.traffic command ch c).filterMap Traffic.delivered := by
  cases pc with
  | locked =>
    simp only [advancePing] at h
    unfold PingPc.traffic
    split_ifs at h ⊢ <;> cases h
    · rw [delivered_reported]
      exact payloads_write _ _ _ _
    · exact (List.append_nil _).symm
    · exact (List.append_nil _).symm
  | writing cmd err =>
    cases err with
    | none =>
      cases h
      exact (List.append_nil _).symm
    | some e =>
      cases h
      exact (payloads_endPing _ _ _ _).trans (List.append_nil _).symm
  | wait cmd =>
    simp only [advancePing] at h
    split_ifs at h <;> cases h <;>
      exact (payloads_endPing _ _ _ _).trans (List.append_nil _).symm
  | _ =>
    simp only [advancePing] at h
    try split_ifs at h
    all_goals cases h
    all_goals exact (List.append_nil _).symm

theorem advanceShutdown_sent {pc pc' : ShutdownPc}
    (h : advanceShutdown fw i ch c pc = some (c', pc')) :
    c'.payloads = c.payloads ++ (pc.traffic ch c).filterMap Traffic.delivered := by
  cases pc with
  | next commands =>
    cases commands with
    | nil =>
      cases h
      exact (List.append_nil _).symm
    | cons command commands =>
      simp only [advanceShutdown] at h
      unfold ShutdownPc.traffic
      split_ifs at h ⊢ <;> cases h
      · rw [delivered_write]
        exact payloads_write _ _ _ _
      · exact (List.append_nil _).symm
  | _ =>
    simp only [advanceShutdown] at h
    try split_ifs at h
    all_goals cases h
    all_goals exact (List.append_nil _).symm

/-- The traffic of a step, but for the lines of a job, is what goes out. -/
theorem advance_sent (h : advance fw i ch c b = some (c', b')) (hjob : b.sendsJob = false) :
    c'.payloads = c.payloads ++ (b.traffic fw ch c).filterMap Traffic.delivered := by
  cases b with
  | run job pc =>
    obtain ⟨⟨c1, pc1⟩, h1, h2⟩ := Option.map_eq_some_iff.mp h
    cases h2
    cases pc with
    -- the lines of the job are left out
    | ping idx line rest p => cases hjob
    | rawNext realtime =>
      cases realtime with
      | nil =>
        cases h1
        exact (List.append_nil _).symm
      | cons command realtime =>
        -- reported only where it is written: the transport is looked at first
        simp only [advanceRun] at h1
        simp only [Body.traffic]
        split_ifs at h1 ⊢ <;> cases h1
        · rw [delivered_realtimeTraffic]
          exact payloads_write _ _ _ _
        · exact (List.append_nil _).symm
    | top idx rest =>
      cases rest with
      | nil =>
        cases h1
        exact (List.append_nil _).symm
      | cons rawLine rest =>
        -- the operation of an empty line is reported, and nothing goes out
        have hreport : (c.reportOp (job.opIndex idx)).payloads = c.payloads := by
          unfold Core.reportOp
          split
          · rfl
          · split_ifs <;> rfl
        simp only [advanceRun] at h1
        split_ifs at h1 <;> cases h1
        · exact (List.append_nil _).symm
        · exact (List.append_nil _).symm
        · exact hreport.trans (List.append_nil _).symm
    | shutdown was p =>
      simp only [advanceRun] at h1
      split at h1
      · cases h1
        exact (List.append_nil _).symm
      · obtain ⟨⟨c₁, p'⟩, hshut, heq⟩ := Option.map_eq_some_iff.mp h1
        cases heq
        exact advanceShutdown_sent hshut
    | returned => cases h1
    | _ =>
      cases h1
      exact (List.append_nil _).symm
  | execute command pc =>
    obtain ⟨⟨c1, pc1⟩, h1, h2⟩ := Option.map_eq_some_iff.mp h
    cases h2
    cases pc with
    | start =>
      cases h1
      exact (List.append_nil _).symm
    | ping p =>
      obtain ⟨⟨c₁, p'⟩, hping, heq⟩ := Option.map_eq_some_iff.mp h1
      cases heq
      exact advancePing_sent hping
  | cancel em pc =>
    obtain ⟨⟨c1, pc1⟩, h1, h2⟩ := Option.map_eq_some_iff.mp h
    cases h2
    cases pc with
    | start =>
      -- the stop goes out behind the flags, and without an event
      have hopen : c.beginCancel.isOpen = c.isOpen := rfl
      have hsent : c.beginCancel.payloads = c.payloads := rfl
      simp only [advanceCancel, hopen] at h1
      simp only [Body.traffic]
      split_ifs at h1 ⊢ <;> cases h1
      · rw [delivered_write, ← stopPayload_eq, ← hsent]
        exact payloads_write _ _ _ _
      · exact (List.append_nil _).symm
    | stopping was err => cases err <;> cases h1 <;> exact (List.append_nil _).symm
    | shutdown was p =>
      simp only [advanceCancel] at h1
      split at h1
      · cases h1
        exact (List.append_nil _).symm
      · obtain ⟨⟨c₁, p'⟩, hshut, heq⟩ := Option.map_eq_some_iff.mp h1
        cases heq
        exact advanceShutdown_sent hshut
    | returned err => cases h1
  | hold on pc =>
    obtain ⟨⟨c1, pc1⟩, h1, h2⟩ := Option.map_eq_some_iff.mp h
    cases h2
    cases pc with
    | start =>
      have hflags : (if fw == .simple then Core.clearCancelled { c with isHolding := on }
          else { c with isHolding := on }).isOpen = c.isOpen ∧
        (if fw == .simple then Core.clearCancelled { c with isHolding := on }
          else { c with isHolding := on }).payloads = c.payloads := by
        cases fw <;> exact ⟨rfl, rfl⟩
      unfold advanceHold at h1
      dsimp only at h1
      generalize (if fw == .simple then Core.clearCancelled { c with isHolding := on }
        else { c with isHolding := on }) = d at h1 hflags
      rw [hflags.1] at h1
      simp only [Body.traffic]
      cases hopen : c.isOpen with
      | false =>
        rw [hopen] at h1
        cases h1
        exact hflags.2.trans (List.append_nil _).symm
      | true =>
        rw [hopen] at h1
        cases h1
        rw [if_pos rfl, payloads_write, hflags.2]
        cases ch.writeError <;> cases fw <;> cases on <;> rfl
    | writing err =>
      cases h1
      exact (List.append_nil _).symm
    | returned => cases h1
  | poll pc =>
    obtain ⟨⟨c1, pc1⟩, h1, h2⟩ := Option.map_eq_some_iff.mp h
    cases h2
    cases pc with
    | ping p =>
      simp only [advancePoll] at h1
      split at h1
      · cases h1
        exact (List.append_nil _).symm
      · obtain ⟨⟨c₁, p'⟩, hping, heq⟩ := Option.map_eq_some_iff.mp h1
        cases heq
        exact advancePing_sent hping
    | locked =>
      simp only [advancePoll] at h1
      simp only [Body.traffic]
      split_ifs at h1 ⊢ <;> cases h1
      · rw [delivered_realtimeTraffic]
        exact payloads_write _ _ _ _
      · exact (List.append_nil _).symm
    | _ =>
      simp only [advancePoll] at h1
      try split_ifs at h1
      all_goals cases h1
      all_goals exact (List.append_nil _).symm

/-- The same for a step of the session. -/
theorem Sys.step_sent {l : Label} {s u : Sys} (hs : Sys.step fw l s = some u)
    (hjob : ∀ i ch b, l = .task i ch → s.tasks[i]? = some b → b.sendsJob = false) :
    u.core.payloads = s.core.payloads ++ (Sys.traffic fw l s).filterMap Traffic.delivered := by
  by_cases hl : ∃ i ch, l = .task i ch
  · obtain ⟨i, ch, rfl⟩ := hl
    obtain ⟨b, c', b', hb, -, hadv, rfl⟩ := Sys.step_task hs
    simp only [Sys.traffic, hb, Option.map_some, Option.getD_some]
    exact advance_sent hadv (hjob i ch b rfl hb)
  · have hquiet : Sys.traffic fw l s = [] := by
      cases l with
      | task i ch => exact absurd ⟨i, ch, rfl⟩ hl
      | _ => rfl
    have hsent : u.core.sent = s.core.sent := by
      obtain ⟨-, haside⟩ := Sys.step_other hs fun i ch hi => hl ⟨i, ch, hi⟩
      cases haside with
      | call op b hlabel hb hcore htasks => rw [hcore]
      | rx data hlabel hcore htasks =>
        have hframe : RxFrame s.core (s.core.handleRx fw data) := handleRx_frame data s.core
        rw [hcore, hframe.sent]
      | link up hlabel hcore htasks => rw [hcore]
      | announce hlabel hcore htasks => rw [hcore]
      | cleanup hlabel hcore htasks => rw [hcore]; rfl
      | drop i pc hlabel hi hcore htasks => rw [hcore]; split_ifs <;> rfl
    rw [hquiet, Core.payloads, hsent]
    exact (List.append_nil _).symm

/-- And for one of the session with its connection. -/
theorem Conn.step_sent {l : ConnLabel} {s u : Conn} (hs : Conn.step fw l s = some u)
    (hjob : ∀ i ch b, l = .session (.task i ch) → s.sys.tasks[i]? = some b →
      b.sendsJob = false) :
    u.sys.core.payloads =
      s.sys.core.payloads ++ (Conn.traffic fw l s).filterMap Traffic.delivered := by
  have hask : ∀ (c : Conn) (ch : Choice), (c.ask ch).sys.core.payloads = c.sys.core.payloads ++
      (realtimeTraffic ['?'] (c.askError ch)).filterMap Traffic.delivered := by
    intro c ch
    rw [delivered_realtimeTraffic]
    unfold Conn.ask Conn.askError
    cases c.sys.core.isOpen with
    | true => exact payloads_write _ _ _ _
    | false => exact (List.append_nil _).symm
  have hend : ∀ c : Conn, c.loopEnd.sys = c.sys := fun _ => rfl
  have htop : ∀ c : Conn, c.loopTop.sys = c.sys := by
    intro c
    unfold Conn.loopTop
    split_ifs <;> rfl
  cases l with
  -- a step of the session: the lemma before it
  | session l =>
    simp only [Conn.step] at hs
    split_ifs at hs
    obtain ⟨sys, hstep, rfl⟩ := Option.map_eq_some_iff.mp hs
    exact Sys.step_sent hstep fun i ch b hl hb => hjob i ch b (congrArg _ hl) hb
  -- received bytes write nothing, whatever they close or report
  | rx data =>
    simp only [Conn.step] at hs
    split_ifs at hs
    cases hs
    have hframe : RxFrame s.sys.core (s.sys.core.handleRx fw data) :=
      handleRx_frame data s.sys.core
    exact (congrArg (List.map Sent.payload) hframe.sent).trans (List.append_nil _).symm
  | lost =>
    simp only [Conn.step] at hs
    split_ifs at hs
    cases hs
    exact (List.append_nil _).symm
  | cleanup connect =>
    simp only [Conn.step] at hs
    split at hs
    · cases hs
    · split_ifs at hs
      cases hs
      have habort : ((s.withCore Sys.cleanup).abortLoop connect).sys.core.payloads =
          s.sys.core.payloads := by
        unfold Conn.abortLoop
        split
        · dsimp only
          split_ifs <;> rfl
        · rfl
        · rfl
      exact habort.trans (List.append_nil _).symm
  -- only an opened port and a handshake that timed out ask for a report, and Marlin never does
  | loop ch failed =>
    simp only [Conn.step] at hs
    split at hs
    · rename_i pc hpc
      split_ifs at hs
      simp only [Conn.traffic, hpc]
      cases pc with
      | opening =>
        simp only [Conn.advanceLoop] at hs
        cases failed with
        | true =>
          cases hs
          exact (List.append_nil _).symm
        | false =>
          cases fw with
          | marlin =>
            cases hs
            exact (List.append_nil _).symm
          | _ =>
            cases hs
            exact hask s.opened ch
      | handshake =>
        simp only [Conn.advanceLoop] at hs
        cases htimed : ch.timedOut with
        | false =>
          simp only [htimed, if_false, Bool.false_eq_true] at hs
          split_ifs at hs <;> cases hs <;> exact (List.append_nil _).symm
        | true =>
          simp only [htimed, if_true] at hs
          -- the loop gives up here, or asks once more
          cases hgiveUp : fw == .marlin || failed with
          | true =>
            rw [hgiveUp] at hs
            cases hs
            exact (List.append_nil _).symm
          | false =>
            rw [hgiveUp] at hs
            cases hs
            exact hask s ch
      | polling poll =>
        simp only [Conn.advanceLoop] at hs
        split_ifs at hs
        cases hs
        exact (List.append_nil _).symm
      | start =>
        cases hs
        rw [htop]
        exact (List.append_nil _).symm
      | sleep =>
        cases hs
        rw [htop]
        exact (List.append_nil _).symm
      | asking ok => cases ok <;> cases hs <;> exact (List.append_nil _).symm
      | _ =>
        cases hs
        exact (List.append_nil _).symm
    · cases hs
  | caller =>
    simp only [Conn.step] at hs
    split at hs
    · rename_i connect pc hpc
      split_ifs at hs
      cases hs
      have hquiet : (s.advanceCleanup connect pc).sys.core.payloads = s.sys.core.payloads := by
        unfold Conn.advanceCleanup
        split
        · split_ifs <;> rfl
        · rfl
        · split_ifs <;> rfl
      exact hquiet.trans (List.append_nil _).symm
    · cases hs

end Sent

/-! ### The silent steps -/

/-- **A step writes without an event**: the stop of a `cancel`, a safety command, and the
`set_hold` of `SmoothieCore`. -/
def Body.silent (fw : Firmware) (c : Core) : Body → Bool
  | .cancel _ .start => c.isOpen
  | .cancel _ (.shutdown _ (.next (_ :: _))) | .run _ (.shutdown _ (.next (_ :: _))) => c.isOpen
  | .hold _ .start => fw == .smoothie && c.isOpen
  | _ => false

/-- The step writes nothing that is not reported. -/
def Sys.silent (fw : Firmware) : Label → Sys → Bool
  | .task i _, s => (s.tasks[i]?).any (Body.silent fw s.core)
  | _, _ => false

/-- The step writes nothing that is not reported. -/
def Conn.silent (fw : Firmware) : ConnLabel → Conn → Bool
  | .session l, s => Sys.silent fw l s.sys
  | _, _ => false

section Paired

variable (fw : Firmware) (ch : Choice) (c : Core)

theorem PingPc.paired_traffic (command : Text) (pc : PingPc) :
    paired ((pc.traffic command ch c).map Traffic.entry) = true ∧
      brief ((pc.traffic command ch c).map Traffic.entry) = true := by
  cases pc with
  | locked =>
    unfold PingPc.traffic
    split_ifs
    · exact ⟨decide_eq_true rfl, rfl⟩
    · exact ⟨rfl, rfl⟩
  | _ => exact ⟨rfl, rfl⟩

theorem ShutdownPc.paired_traffic (pc : ShutdownPc) :
    paired ((pc.traffic ch c).map Traffic.entry) =
        !(c.isOpen && match pc with | .next (_ :: _) => true | _ => false) ∧
      brief ((pc.traffic ch c).map Traffic.entry) = true := by
  unfold ShutdownPc.traffic
  cases hopen : c.isOpen with
  | false => split <;> exact ⟨rfl, rfl⟩
  | true =>
    cases pc with
    | next commands => cases commands <;> exact ⟨rfl, rfl⟩
    | _ => exact ⟨rfl, rfl⟩

theorem Body.paired_traffic (b : Body) :
    paired ((b.traffic fw ch c).map Traffic.entry) = !b.silent fw c ∧
      brief ((b.traffic fw ch c).map Traffic.entry) = true := by
  cases b with
  | run job pc =>
    cases pc with
    | rawNext realtime =>
      cases realtime with
      | nil => exact ⟨rfl, rfl⟩
      | cons command realtime =>
        simp only [Body.traffic]
        split_ifs
        · exact ⟨paired_realtimeTraffic _ _, rfl⟩
        · exact ⟨rfl, rfl⟩
    | shutdown was p =>
      obtain ⟨hpaired, hbrief⟩ := p.paired_traffic ch c
      refine ⟨hpaired.trans ?_, hbrief⟩
      cases p with
      | next commands => cases commands <;> simp [Body.silent]
      | _ => simp [Body.silent]
    | _ => exact ⟨rfl, rfl⟩
  | execute command pc =>
    cases pc with
    | start => exact ⟨rfl, rfl⟩
    | ping p => exact p.paired_traffic ch c command
  | cancel em pc =>
    cases pc with
    | start =>
      simp only [Body.traffic, Body.silent]
      cases c.isOpen <;> exact ⟨rfl, rfl⟩
    | shutdown was p =>
      obtain ⟨hpaired, hbrief⟩ := p.paired_traffic ch c
      refine ⟨hpaired.trans ?_, hbrief⟩
      cases p with
      | next commands => cases commands <;> simp [Body.silent]
      | _ => simp [Body.silent]
    | _ => exact ⟨rfl, rfl⟩
  | hold on pc =>
    cases pc with
    | start =>
      simp only [Body.traffic, Body.silent]
      cases c.isOpen <;> cases fw <;> exact ⟨by cases on <;> rfl, by cases on <;> rfl⟩
    | _ => exact ⟨rfl, rfl⟩
  | poll pc =>
    cases pc with
    | locked =>
      simp only [Body.traffic]
      split_ifs
      · exact ⟨paired_realtimeTraffic _ _, rfl⟩
      · exact ⟨rfl, rfl⟩
    | ping p => exact p.paired_traffic ch c "M114".toList
    | _ => exact ⟨rfl, rfl⟩

/-- Which steps pair event and write. -/
theorem Conn.paired_traffic (l : ConnLabel) (s : Conn) :
    paired ((Conn.traffic fw l s).map Traffic.entry) = !Conn.silent fw l s ∧
      brief ((Conn.traffic fw l s).map Traffic.entry) = true := by
  cases l with
  | session l =>
    cases l with
    | task i ch =>
      simp only [Conn.traffic, Conn.silent, Sys.traffic, Sys.silent]
      cases s.sys.tasks[i]? with
      | none => exact ⟨rfl, rfl⟩
      | some b => exact b.paired_traffic fw ch s.sys.core
    | _ => exact ⟨rfl, rfl⟩
  | loop ch failed =>
    simp only [Conn.traffic]
    split
    · split_ifs
      · exact ⟨rfl, rfl⟩
      · exact ⟨paired_realtimeTraffic _ _, rfl⟩
    · split_ifs
      · exact ⟨paired_realtimeTraffic _ _, rfl⟩
      · exact ⟨rfl, rfl⟩
    · exact ⟨rfl, rfl⟩
  | _ => exact ⟨rfl, rfl⟩

end Paired

/-- The session with its connection and the journal of its traffic. -/
def Conn.journal (fw : Firmware) :
    ConnLabel → Conn × List (Entry Text) → Option (Conn × List (Entry Text)) :=
  journaled (Conn.step fw) fun l s => (Conn.traffic fw l s).map Traffic.entry

theorem Conn.journal_complete_iff {fw : Firmware} {l : ConnLabel} {s u : Conn × List (Entry Text)}
    (hs : Conn.journal fw l s = some u) (h : IsComplete s.2) :
    IsComplete u.2 ↔ Conn.silent fw l s.1 = false := by
  obtain ⟨hpaired, hbrief⟩ := Conn.paired_traffic fw l s.1
  rw [step_complete_iff hbrief hs h, hpaired, Bool.not_eq_true']

theorem Conn.journal_run_complete {fw : Firmware} {s u : Conn × List (Entry Text)}
    (h : IsComplete s.2)
    (hr : Run (Conn.journal fw) (fun a l _ => Conn.silent fw l a.1 = false) s u) :
    IsComplete u.2 := by
  refine run_complete (fun l s => (Conn.paired_traffic fw l s).2) h (hr.mono fun a l b hok => ?_)
  rw [(Conn.paired_traffic fw l a.1).1, hok]
  rfl

/-- **When the traffic log is complete**: in every run without a silent step, in all four
sessions, what is written apart from the lines of jobs is what was reported, in order and each
reported before; and a silent step spoils the log.  The log is that of the writes: a step that
sends no line of a job adds to what goes out just what its traffic delivers. -/
theorem traffic_log_complete (fw : Firmware) :
    ((∀ (s : Raydriver.Conn) (u : Raydriver.Conn × List (Entry Text)),
        Run Raydriver.Conn.journal (fun a l _ => Raydriver.Conn.silent l a.1 = false) (s, []) u →
        IsComplete u.2) ∧
      (∀ (s u : Raydriver.Conn × List (Entry Text)) (l : Raydriver.ConnLabel),
        Raydriver.Conn.journal l s = some u → IsComplete s.2 →
        (IsComplete u.2 ↔ Raydriver.Conn.silent l s.1 = false)) ∧
      ∀ (s u : Raydriver.Conn) (l : Raydriver.ConnLabel), Raydriver.Conn.step l s = some u →
        (∀ i ch b, l = .session (.task i ch) → s.sys.tasks[i]? = some b → b.sendsJob = false) →
        u.sys.core.payloads =
          s.sys.core.payloads ++ (Raydriver.Conn.traffic l s).filterMap Traffic.delivered) ∧
    (∀ (s : Conn) (u : Conn × List (Entry Text)),
      Run (Conn.journal fw) (fun a l _ => Conn.silent fw l a.1 = false) (s, []) u →
      IsComplete u.2) ∧
    (∀ (s u : Conn × List (Entry Text)) (l : ConnLabel),
      Conn.journal fw l s = some u → IsComplete s.2 →
      (IsComplete u.2 ↔ Conn.silent fw l s.1 = false)) ∧
    ∀ (s u : Conn) (l : ConnLabel), Conn.step fw l s = some u →
      (∀ i ch b, l = .session (.task i ch) → s.sys.tasks[i]? = some b → b.sendsJob = false) →
      u.sys.core.payloads =
        s.sys.core.payloads ++ (Conn.traffic fw l s).filterMap Traffic.delivered :=
  ⟨⟨fun _ _ hr => Raydriver.Conn.journal_run_complete .nil hr,
      fun _ _ _ hs h => Raydriver.Conn.journal_complete_iff hs h,
      fun _ _ _ hs hjob => Raydriver.Conn.step_sent hs hjob⟩,
    fun _ _ hr => Conn.journal_run_complete .nil hr,
    fun _ _ _ hs h => Conn.journal_complete_iff hs h,
    fun _ _ _ hs hjob => Conn.step_sent hs hjob⟩

/-! ### A connection, and a `cancel` -/

/-- `connect` of a `SessionCore`, up to the first `?` of the handshake. -/
def connectSession : List Raydriver.ConnLabel :=
  .session (.call .connect) :: (Raydriver.turns 0 2).map .session ++
    [.loop {} false, .loop {} false]

/-- `connect` of a ping-pong session. -/
def connectSys : List ConnLabel := [.cleanup true, .caller, .loop {} false, .loop {} false]

/-- A connection: the general result, in `SessionCore` and in `SimpleCore`, and for the `?` of
its handshake. -/
theorem traffic_log_complete_connect :
    (IsComplete (reach Raydriver.Conn.journal connectSession
        ({ sys := { core := {}, tasks := [] } }, [])).2 ∧
      (IsComplete ([.announced ['?'], .done ['?']] : List (Entry Text)) ↔
        Raydriver.Conn.silent (.loop {} false)
          { sys := { core := {}, tasks := [] }, loop := some .opening } = false)) ∧
    IsComplete (reach (Conn.journal .simple) connectSys ({ sys := { core := {} } }, [])).2 ∧
      (IsComplete ([.announced ['?'], .done ['?']] : List (Entry Text)) ↔
        Conn.silent .simple (.loop {} false)
          { sys := { core := {} }, phase := .loop .opening } = false) := by
  obtain ⟨⟨hrun, hstep, -⟩, hrun', hstep', -⟩ := traffic_log_complete .simple
  refine ⟨⟨hrun { sys := { core := {}, tasks := [] } } _ ?_, ?_⟩,
    hrun' { sys := { core := {} } } _ ?_, ?_⟩
  · exact (run_reach_where (p := fun a l => !Raydriver.Conn.silent l a.1) (by decide)).mono
      fun _ _ _ hok => by simpa using hok
  · exact hstep ({ sys := { core := {}, tasks := [] }, loop := some .opening }, [])
      (reach Raydriver.Conn.journal [.loop {} false]
        ({ sys := { core := {}, tasks := [] }, loop := some .opening }, []))
      (.loop {} false) (by decide) .nil
  · exact (run_reach_where (p := fun a l => !Conn.silent .simple l a.1) (by decide)).mono
      fun _ _ _ hok => by simpa using hok
  · exact hstep' ({ sys := { core := {} }, phase := .loop .opening }, [])
      (reach (Conn.journal .simple) [.loop {} false]
        ({ sys := { core := {} }, phase := .loop .opening }, []))
      (.loop {} false) (by decide) .nil

/-- **The stop of a `cancel` is not logged**, in none of the four sessions: a `cancel` on a
fresh connection writes what no event reports. -/
theorem stop_unlogged :
    (¬ ∀ (s : Raydriver.Conn) (u : Raydriver.Conn × List (Entry Text)),
      Raydriver.Unconnected s → Run Raydriver.Conn.journal AnyStep (s, []) u → IsComplete u.2) ∧
    ∀ fw : Firmware, ¬ ∀ (s : Conn) (u : Conn × List (Entry Text)),
      Unconnected s → Run (Conn.journal fw) AnyStep (s, []) u → IsComplete u.2 := by
  refine ⟨fun h => ?_, fun fw h => ?_⟩
  · have hlog := h { sys := { core := {}, tasks := [] } } (reach Raydriver.Conn.journal
      (connectSession ++ [.session (.call (.cancel false)), .session (.task 2 {})]) _)
      ⟨rfl, rfl, rfl⟩ (run_reach (by decide))
    exact absurd hlog.same (by decide)
  · let stopped : List ConnLabel :=
      connectSys ++ [.session (.call (.cancel false)), .session (.task 0 {})]
    cases fw with
    | simple =>
      have hlog := h { sys := { core := {} } } (reach (Conn.journal .simple) stopped _)
        ⟨rfl, rfl, rfl, rfl⟩ (run_reach (by decide))
      exact absurd hlog.same (by decide)
    | smoothie =>
      have hlog := h { sys := { core := {} } } (reach (Conn.journal .smoothie) stopped _)
        ⟨rfl, rfl, rfl, rfl⟩ (run_reach (by decide))
      exact absurd hlog.same (by decide)
    | marlin =>
      have hlog := h { sys := { core := {} } } (reach (Conn.journal .marlin) stopped _)
        ⟨rfl, rfl, rfl, rfl⟩ (run_reach (by decide))
      exact absurd hlog.same (by decide)

end Raydriver.PingPong
