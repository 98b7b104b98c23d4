import Raydriver.Core.Traffic
import Raydriver.Grbl.Connection
import Raydriver.Grbl.Panel

/-!
# The traffic of a GRBL session

What each step of a `SessionCore` reports and writes, apart from the lines of a job.  The
soft reset of a `cancel` is written without an event; a poll of the streaming task is
reported before the transport is looked at; and the event of a line that is tracked leaves
out the white space at its end.

## Main definitions

* `Body.traffic`, `Sys.traffic`, `Conn.traffic` — what a step reports and writes.
* `Body.silent`, `Sys.silent`, `Conn.silent` — the steps whose event and write differ.

## Main results

* `advance_sent`, `Conn.step_sent` — the traffic is what goes out.
* `Conn.paired_traffic` — **which steps pair event and write**.
* `Conn.journal_run_complete` — a run of such steps has a complete journal.
-/

namespace Raydriver

open Journal

/-! ### What a step reports and writes -/

/-- A tracked line: the event is that of the text without the white space at its end. -/
def trackedTraffic (command : Text) (err : Option String) : List Traffic :=
  reported (trimEnd (commandLine command)) command err

/-- The traffic of a step of `cancel`. -/
def CancelPc.traffic (ch : Choice) (c : Core) : CancelPc → List Traffic
  | .start => if c.isOpen then [.write ['\x18'] false ch.writeError] else []
  | .send _ command _ => trackedTraffic command ch.writeError
  | _ => []

/-- The streaming task, but for the lines of its job. -/
def StreamPc.traffic (ch : Choice) (c : Core) : StreamPc → List Traffic
  | .pollSend _ _ =>
    if c.isOpen then realtimeTraffic ['?'] ch.writeError else [.rawTx ['?']]
  | .recoverSend _ => trackedTraffic "G4 P0.01".toList ch.writeError
  | .cancelling pc _ => pc.traffic ch c
  | _ => []

/-- What the next step of a task reports and writes. -/
def Body.traffic (ch : Choice) (c : Core) : Body → List Traffic
  | .stream _ pc => pc.traffic ch c
  | .cancel _ pc => pc.traffic ch c
  | .run _ (.rawNext (command :: _)) =>
    if c.isOpen then realtimeTraffic command ch.writeError else []
  | .queue (.send r) => trackedTraffic (c.commandOf r) ch.writeError
  | .interactive command (.send _) => trackedTraffic command ch.writeError
  | .hold on .start =>
    if c.isOpen then realtimeTraffic [if on then '!' else '~'] ch.writeError else []
  | _ => []

/-- The traffic of a step of the session. -/
def Sys.traffic : Label → Sys → List Traffic
  | .task i ch, s => ((s.tasks[i]?).map (Body.traffic ch s.core)).getD []
  | .poll err, s =>
    if s.core.isOpen && s.core.keepRunning &&
        (s.core.config.pollStatusWhileRunning || !s.core.jobRunning) then
      realtimeTraffic ['?'] err
    else []
  | _, _ => []

/-- The handshake asks with a `?` as well. -/
def Conn.traffic : ConnLabel → Conn → List Traffic
  | .session l, s => Sys.traffic l s.sys
  | .loop ch failed, s =>
    match s.loop with
    | some .opening => if failed then [] else realtimeTraffic ['?'] ch.writeError
    | some .handshake =>
      if ch.timedOut && !failed then realtimeTraffic ['?'] ch.writeError else []
    | _ => []
  | _, _ => []

/-! ### The traffic is what goes out -/

/-- The next step writes a line of a job. -/
def Body.sendsJob : Body → Bool
  | .stream _ (.send _) => true
  | _ => false

/-- The payloads that went out. -/
def Core.payloads (c : Core) : List Text := c.sent.map Sent.payload

section Sent

variable {n i : ℕ} {job : Job} {inStream em connect spawns : Bool} {ch : Choice} {c c' : Core}
  {b b' : Body} {spawned : List Body}

theorem payloads_write (origin : Origin) (payload : Text) (err : Option String) (c : Core) :
    (c.write origin payload err).payloads =
      c.payloads ++ if err.isNone then [payload] else [] := by
  unfold Core.payloads Core.write
  rw [List.map_append]
  split_ifs <;> rfl

theorem payloads_sendTracked (origin : Origin) (command : Text) (opIndex : Option ℤ)
    (err : Option String) (c : Core) :
    (c.sendTracked origin (commandLine command) opIndex err).payloads =
      c.payloads ++ (trackedTraffic command err).filterMap Traffic.delivered := by
  rw [trackedTraffic, delivered_reported]
  exact payloads_write origin (commandLine command) err (c.track origin (commandLine command) opIndex)

theorem advanceCancel_sent {pc pc' : CancelPc}
    (h : advanceCancel i inStream em ch c pc = some (c', pc')) :
    c'.payloads = c.payloads ++ (pc.traffic ch c).filterMap Traffic.delivered := by
  cases pc with
  | start =>
    simp only [advanceCancel] at h
    unfold CancelPc.traffic
    split_ifs at h ⊢ <;> cases h
    · rw [delivered_write]
      exact payloads_write _ _ _ _
    · exact (List.append_nil _).symm
  | ctrlX was err => cases err <;> cases h <;> exact (List.append_nil _).symm
  | abort was =>
    simp only [advanceCancel] at h
    split_ifs at h
    · cases h
      exact (List.append_nil _).symm
    · split at h
      · cases h
        exact (List.append_nil _).symm
      · split_ifs at h <;> cases h <;> exact (List.append_nil _).symm
  | next was commands =>
    cases commands <;> simp only [advanceCancel] at h <;> (try split_ifs at h) <;> cases h <;>
      exact (List.append_nil _).symm
  | send was command commands =>
    cases h
    exact payloads_sendTracked _ _ _ _ _
  | _ =>
    simp only [advanceCancel] at h
    try split_ifs at h
    all_goals cases h
    all_goals exact (List.append_nil _).symm

theorem advanceStream_sent {pc pc' : StreamPc} (h : advanceStream i job ch c pc = some (c', pc'))
    (hjob : (Body.stream job pc).sendsJob = false) :
    c'.payloads = c.payloads ++ (pc.traffic ch c).filterMap Traffic.delivered := by
  cases pc with
  | send s => cases hjob
  | loopTop idx rest =>
    cases rest <;> simp only [advanceStream] at h <;> (try split_ifs at h) <;> cases h <;>
      exact (List.append_nil _).symm
  | writing s err => cases err <;> cases h <;> exact (List.append_nil _).symm
  | poll w => cases w <;> cases h <;> exact (List.append_nil _).symm
  | pollSend w before =>
    simp only [advanceStream] at h
    unfold StreamPc.traffic
    split_ifs at h ⊢ <;> cases h
    · rw [delivered_realtimeTraffic]
      exact payloads_write _ _ _ _
    · exact (List.append_nil _).symm
  | pollWriting w before err => cases err <;> cases h <;> exact (List.append_nil _).symm
  | pollAwait w before left => cases left <;> cases h <;> exact (List.append_nil _).symm
  | pollEnd w idle =>
    cases w <;> simp only [advanceStream] at h <;> split_ifs at h <;> cases h <;>
      exact (List.append_nil _).symm
  | recover w =>
    cases w <;> simp only [advanceStream] at h <;> split_ifs at h <;> cases h <;>
      exact (List.append_nil _).symm
  | recoverSend w =>
    cases h
    exact payloads_sendTracked (.recovery i) "G4 P0.01".toList none ch.writeError c
  | recoverEnd w => cases w <;> cases h <;> exact (List.append_nil _).symm
  | outcome err =>
    cases err <;> simp only [advanceStream] at h <;> (try split_ifs at h) <;> cases h <;>
      exact (List.append_nil _).symm
  | cancelling pc e =>
    simp only [advanceStream] at h
    split at h
    · cases h
      exact (List.append_nil _).symm
    · obtain ⟨⟨c₁, pc₁⟩, h1, h2⟩ := Option.map_eq_some_iff.mp h
      cases h2
      exact advanceCancel_sent h1
  | _ =>
    simp only [advanceStream] at h
    try split_ifs at h
    all_goals cases h
    all_goals exact (List.append_nil _).symm

theorem advanceRun_sent {pc pc' : RunPc} (h : advanceRun n job ch c pc = some (c', pc', spawns)) :
    c'.payloads =
      c.payloads ++ ((Body.run job pc).traffic ch c).filterMap Traffic.delivered := by
  cases pc with
  | rawNext realtime =>
    cases realtime with
    | nil =>
      simp only [advanceRun] at h
      cases h
      exact (List.append_nil _).symm
    | cons command realtime =>
      simp only [advanceRun] at h
      unfold Body.traffic
      split_ifs at h ⊢ <;> cases h
      · rw [delivered_realtimeTraffic]
        exact payloads_write _ _ _ _
      · exact (List.append_nil _).symm
  | abort =>
    simp only [advanceRun] at h
    split at h
    · cases h
      exact (List.append_nil _).symm
    · split_ifs at h <;> cases h <;> exact (List.append_nil _).symm
  | _ =>
    simp only [advanceRun] at h
    try split_ifs at h
    all_goals cases h
    all_goals exact (List.append_nil _).symm

/-- The traffic of a step, but for the lines of a job, is what goes out. -/
theorem advance_sent (h : advance n i ch c b = some (c', b', spawned))
    (hjob : b.sendsJob = false) :
    c'.payloads = c.payloads ++ (b.traffic ch c).filterMap Traffic.delivered := by
  cases b with
  | stream job pc =>
    obtain ⟨⟨c1, pc1⟩, h1, h2⟩ := Option.map_eq_some_iff.mp h
    cases h2
    -- the lines of the job itself are the ones left out
    exact advanceStream_sent h1 hjob
  | cancel em pc =>
    obtain ⟨⟨c1, pc1⟩, h1, h2⟩ := Option.map_eq_some_iff.mp h
    cases h2
    exact advanceCancel_sent h1
  | run job pc =>
    obtain ⟨⟨c1, pc1, sp⟩, h1, h2⟩ := Option.map_eq_some_iff.mp h
    cases h2
    exact advanceRun_sent h1
  | execute command pc =>
    obtain ⟨⟨c1, pc1⟩, h1, h2⟩ := Option.map_eq_some_iff.mp h
    cases h2
    cases pc <;> simp only [advanceExecute] at h1 <;> (try split_ifs at h1) <;> cases h1 <;>
      exact (List.append_nil _).symm
  | queue pc =>
    obtain ⟨⟨c1, pc1⟩, h1, h2⟩ := Option.map_eq_some_iff.mp h
    cases h2
    cases pc with
    | top =>
      simp only [advanceQueue] at h1
      split_ifs at h1 <;> cases h1 <;> exact (List.append_nil _).symm
    | recv =>
      simp only [advanceQueue] at h1
      split at h1
      · cases h1
      · split_ifs at h1 <;> cases h1 <;> exact (List.append_nil _).symm
    -- the tracked write, reported as it is put on the wire
    | send r =>
      cases h1
      exact payloads_sendTracked _ _ _ _ _
    | _ =>
      simp only [advanceQueue] at h1
      try split_ifs at h1
      all_goals cases h1
      all_goals exact (List.append_nil _).symm
  | interactive command pc =>
    obtain ⟨⟨c1, pc1⟩, h1, h2⟩ := Option.map_eq_some_iff.mp h
    cases h2
    cases pc with
    | send r =>
      cases h1
      exact payloads_sendTracked _ _ _ _ _
    | _ =>
      simp only [advanceInteractive] at h1
      try split_ifs at h1
      all_goals cases h1
      all_goals exact (List.append_nil _).symm
  | hold on pc =>
    obtain ⟨⟨c1, pc1⟩, h1, h2⟩ := Option.map_eq_some_iff.mp h
    cases h2
    cases pc with
    | start =>
      -- `hold` writes its byte when the port is open, and reports it then
      unfold advanceHold at h1
      unfold Body.traffic
      dsimp only at h1 ⊢
      split at h1
      · rename_i hopen
        have hopen' : c.isOpen = true := hopen
        cases h1
        rw [if_pos hopen', delivered_realtimeTraffic]
        exact payloads_write _ _ _ _
      · rename_i hopen
        have hopen' : ¬ c.isOpen = true := hopen
        cases h1
        rw [if_neg hopen']
        exact (List.append_nil _).symm
    | writing err =>
      cases h1
      exact (List.append_nil _).symm
    | returned => cases h1
  | link connect pc =>
    obtain ⟨⟨c1, pc1, sp⟩, h1, h2⟩ := Option.map_eq_some_iff.mp h
    cases h2
    cases pc with
    | abort =>
      simp only [advanceLink] at h1
      split at h1
      · cases h1
        exact (List.append_nil _).symm
      · split_ifs at h1 <;> cases h1 <;> exact (List.append_nil _).symm
    | stop =>
      simp only [advanceLink] at h1
      split at h1 <;> cases h1 <;> exact (List.append_nil _).symm
    | _ =>
      simp only [advanceLink] at h1
      try split_ifs at h1
      all_goals cases h1
      all_goals exact (List.append_nil _).symm

/-- The same for a step of the session. -/
theorem Sys.step_sent {l : Label} {s u : Sys} (hs : Sys.step l s = some u)
    (hjob : ∀ i ch b, l = .task i ch → s.tasks[i]? = some b → b.sendsJob = false) :
    u.core.payloads = s.core.payloads ++ (Sys.traffic l s).filterMap Traffic.delivered := by
  cases l with
  | task i ch =>
    obtain ⟨b, c', b', spawned, hb, -, -, hadv, rfl⟩ := Sys.step_task hs
    simp only [Sys.traffic, hb, Option.map_some, Option.getD_some]
    exact advance_sent hadv (hjob i ch b rfl hb)
  | call op =>
    simp only [Sys.step] at hs
    split_ifs at hs
    cases hs
    exact (List.append_nil _).symm
  | drop i =>
    simp only [Sys.step, Sys.dropTask] at hs
    split at hs
    · cases hs
      exact (List.append_nil _).symm
    · cases hs
  | rx data =>
    obtain ⟨-, rfl⟩ := Sys.step_rx hs
    refine Eq.trans ?_ (List.append_nil _).symm
    exact congrArg (List.map Sent.payload) (handleRx_frame data s.core).sent
  | poll err =>
    simp only [Sys.step, Sys.outside, Sys.pollStatus] at hs
    simp only [Sys.traffic]
    split_ifs at hs ⊢ <;> cases hs
    · rw [delivered_realtimeTraffic]
      exact payloads_write _ _ _ _
    · exact (List.append_nil _).symm
  | _ =>
    simp only [Sys.step, Sys.outside] at hs
    split_ifs at hs
    cases hs
    exact (List.append_nil _).symm

/-- And for one of the session with its connection. -/
theorem Conn.step_sent {l : ConnLabel} {s u : Conn} (hs : Conn.step l s = some u)
    (hjob : ∀ i ch b, l = .session (.task i ch) → s.sys.tasks[i]? = some b →
      b.sendsJob = false) :
    u.sys.core.payloads =
      s.sys.core.payloads ++ (Conn.traffic l s).filterMap Traffic.delivered := by
  have hask : ∀ (c : Conn) (ch : Choice), (c.ask ch).sys.core.payloads =
      c.sys.core.payloads ++ (realtimeTraffic ['?'] ch.writeError).filterMap Traffic.delivered := by
    intro c ch
    rw [delivered_realtimeTraffic]
    exact payloads_write _ _ _ _
  have hend : ∀ c : Conn, c.loopEnd.sys = c.sys := by
    intro c
    unfold Conn.loopEnd
    split_ifs <;> rfl
  have htop : ∀ c : Conn, c.loopTop.sys = c.sys := by
    intro c
    unfold Conn.loopTop
    split_ifs <;> rfl
  cases l with
  | session l =>
    simp only [Conn.step] at hs
    split_ifs at hs
    obtain ⟨sys, hstep, rfl⟩ := Option.map_eq_some_iff.mp hs
    -- what the connection makes of the end of a task writes nothing
    have hfollow : (s.follow l sys).sys.core.payloads = sys.core.payloads := by
      unfold Conn.follow
      split
      · split
        · unfold Conn.abortLoop
          split <;> rfl
        · rfl
        · rfl
        · rfl
      · rfl
    rw [hfollow]
    exact Sys.step_sent hstep fun i ch b hl hb => hjob i ch b (congrArg _ hl) hb
  -- received bytes write nothing, whatever they wake
  | rx data =>
    simp only [Conn.step] at hs
    split_ifs at hs
    obtain ⟨sys, hstep, rfl⟩ := Option.map_eq_some_iff.mp hs
    exact Sys.step_sent hstep fun i ch b hl _ => by cases hl
  | lost =>
    simp only [Conn.step] at hs
    split_ifs at hs
    cases hs
    exact (List.append_nil _).symm
  -- only an opened port and a handshake that timed out ask for a report
  | loop ch failed =>
    simp only [Conn.step] at hs
    split at hs
    · rename_i pc hpc
      split_ifs at hs
      simp only [Conn.traffic, hpc]
      cases pc with
      | opening =>
        cases failed with
        | true =>
          cases hs
          rw [hend]
          exact (List.append_nil _).symm
        | false =>
          cases hs
          exact hask _ _
      | handshake =>
        simp only [Conn.advanceLoop] at hs
        cases htimed : ch.timedOut with
        | false =>
          simp only [htimed, if_false, Bool.false_eq_true] at hs
          split_ifs at hs
          cases hs
          exact (List.append_nil _).symm
        | true =>
          simp only [htimed, if_true] at hs
          cases failed with
          | true =>
            cases hs
            exact (List.append_nil _).symm
          | false =>
            cases hs
            exact hask _ _
      | asking ok =>
        simp only [Conn.advanceLoop] at hs
        cases ok <;> cases hs <;> exact (List.append_nil _).symm
      | info i =>
        simp only [Conn.advanceLoop] at hs
        split_ifs at hs
        cases hs
        exact (List.append_nil _).symm
      | polling =>
        simp only [Conn.advanceLoop] at hs
        split_ifs at hs
        cases hs
        exact (List.append_nil _).symm
      | closing =>
        cases hs
        rw [hend]
        exact (List.append_nil _).symm
      | _ =>
        cases hs
        rw [htop]
        exact (List.append_nil _).symm
    · cases hs

end Sent

/-! ### The silent steps -/

/-- A `cancel` writes its soft reset without an event, and reports a safety command that ends
in white space without it. -/
def CancelPc.silent (c : Core) : CancelPc → Bool
  | .start => c.isOpen
  | .send _ command _ => decide (trimEnd command ≠ command)
  | _ => false

/-- **The event and the write of a step differ**: a soft reset has no event, a poll of the
streaming task on a closed transport has an event only, and a command that ends in white
space is reported without it. -/
def Body.silent (c : Core) : Body → Bool
  | .stream _ (.pollSend _ _) => !c.isOpen
  | .stream _ (.cancelling pc _) => pc.silent c
  | .cancel _ pc => pc.silent c
  | .queue (.send r) => decide (trimEnd (c.commandOf r) ≠ c.commandOf r)
  | .interactive command (.send _) => decide (trimEnd command ≠ command)
  | _ => false

/-- The step writes nothing that is not reported. -/
def Sys.silent : Label → Sys → Bool
  | .task i _, s => (s.tasks[i]?).any (Body.silent s.core)
  | _, _ => false

/-- The step writes nothing that is not reported. -/
def Conn.silent : ConnLabel → Conn → Bool
  | .session l, s => Sys.silent l s.sys
  | _, _ => false

section Paired

variable (ch : Choice) (c : Core) (command : Text) (err : Option String)

theorem paired_trackedTraffic : paired ((trackedTraffic command err).map Traffic.entry) =
    !decide (trimEnd command ≠ command) := by
  have htrim : trimEnd (commandLine command) = trimEnd command := by
    refine trimEnd_append fun c hc => ?_
    rw [List.mem_singleton.mp hc]
    rfl
  rw [trackedTraffic, paired_reported, htrim, decide_not, Bool.not_not]

theorem CancelPc.paired_traffic (pc : CancelPc) :
    paired ((pc.traffic ch c).map Traffic.entry) = !pc.silent c ∧
      brief ((pc.traffic ch c).map Traffic.entry) = true := by
  cases pc with
  | start =>
    unfold CancelPc.traffic CancelPc.silent
    cases c.isOpen
    · exact ⟨rfl, rfl⟩
    · exact ⟨rfl, rfl⟩
  | send was command commands => exact ⟨paired_trackedTraffic command _, rfl⟩
  | _ => exact ⟨rfl, rfl⟩

theorem Body.paired_traffic (b : Body) :
    paired ((b.traffic ch c).map Traffic.entry) = !b.silent c ∧
      brief ((b.traffic ch c).map Traffic.entry) = true := by
  cases b with
  | stream job pc =>
    cases pc with
    | pollSend w before =>
      unfold Body.traffic StreamPc.traffic Body.silent
      cases c.isOpen
      · exact ⟨rfl, rfl⟩
      · exact ⟨paired_realtimeTraffic _ _, rfl⟩
    | recoverSend w => exact ⟨paired_trackedTraffic _ _, rfl⟩
    | cancelling pc e => exact pc.paired_traffic ch c
    | _ => exact ⟨rfl, rfl⟩
  | cancel em pc => exact pc.paired_traffic ch c
  | run job pc =>
    cases pc with
    | rawNext realtime =>
      cases realtime with
      | nil => exact ⟨rfl, rfl⟩
      | cons command realtime =>
        unfold Body.traffic
        split_ifs
        · exact ⟨paired_realtimeTraffic _ _, rfl⟩
        · exact ⟨rfl, rfl⟩
    | _ => exact ⟨rfl, rfl⟩
  | execute command pc => exact ⟨rfl, rfl⟩
  | queue pc =>
    cases pc with
    | send r => exact ⟨paired_trackedTraffic _ _, rfl⟩
    | _ => exact ⟨rfl, rfl⟩
  | interactive command pc =>
    cases pc with
    | send r => exact ⟨paired_trackedTraffic _ _, rfl⟩
    | _ => exact ⟨rfl, rfl⟩
  | hold on pc =>
    cases pc with
    | start =>
      unfold Body.traffic
      split_ifs
      · exact ⟨paired_realtimeTraffic _ _, rfl⟩
      · exact ⟨rfl, rfl⟩
    | _ => exact ⟨rfl, rfl⟩
  | link connect pc => exact ⟨rfl, rfl⟩

theorem Sys.paired_traffic (l : Label) (s : Sys) :
    paired ((Sys.traffic l s).map Traffic.entry) = !Sys.silent l s ∧
      brief ((Sys.traffic l s).map Traffic.entry) = true := by
  cases l with
  | task i ch =>
    simp only [Sys.traffic, Sys.silent]
    cases s.tasks[i]? with
    | none => exact ⟨rfl, rfl⟩
    | some b => exact b.paired_traffic ch s.core
  | poll err =>
    simp only [Sys.traffic]
    split_ifs
    · exact ⟨paired_realtimeTraffic _ _, rfl⟩
    · exact ⟨rfl, rfl⟩
  | _ => exact ⟨rfl, rfl⟩

/-- **Which steps pair event and write.** -/
theorem Conn.paired_traffic (l : ConnLabel) (s : Conn) :
    paired ((Conn.traffic l s).map Traffic.entry) = !Conn.silent l s ∧
      brief ((Conn.traffic l s).map Traffic.entry) = true := by
  cases l with
  | session l => exact Sys.paired_traffic l s.sys
  | loop ch failed =>
    simp only [Conn.traffic]
    split
    · split_ifs
      · exact ⟨rfl, rfl⟩
      · exact ⟨paired_realtimeTraffic _ _, rfl⟩
    · split_ifs
      · exact ⟨paired_realtimeTraffic _ _, rfl⟩
      · exact ⟨rfl, rfl⟩
    · exact ⟨rfl, rfl⟩
  | _ => exact ⟨rfl, rfl⟩

end Paired

/-- The session with its connection and the journal of its traffic. -/
def Conn.journal : ConnLabel → Conn × List (Entry Text) → Option (Conn × List (Entry Text)) :=
  journaled Conn.step fun l s => (Conn.traffic l s).map Traffic.entry

theorem Conn.journal_complete_iff {l : ConnLabel} {s u : Conn × List (Entry Text)}
    (hs : Conn.journal l s = some u) (h : IsComplete s.2) :
    IsComplete u.2 ↔ Conn.silent l s.1 = false := by
  obtain ⟨hpaired, hbrief⟩ := Conn.paired_traffic l s.1
  rw [step_complete_iff hbrief hs h, hpaired, Bool.not_eq_true']

theorem Conn.journal_run_complete {s u : Conn × List (Entry Text)} (h : IsComplete s.2)
    (hr : Lts.Run Conn.journal (fun a l _ => Conn.silent l a.1 = false) s u) : IsComplete u.2 := by
  refine run_complete (fun l s => (Conn.paired_traffic l s).2) h (hr.mono fun a l b hok => ?_)
  rw [(Conn.paired_traffic l a.1).1, hok]
  rfl

end Raydriver
