import Raydriver.PingPong.Connection

/-!
# Nothing is sent before the device has announced itself

`MarlinCore` sends no command before the device has announced itself and settled: its
`ping_pong` has a gate, the latch `connected`.  The latch is set on every connection and
never cleared, so from the second connection on the gate is open from the start.

## Main definitions

* `PingPc.atGate`, `PingPc.pastGate` — at the gate, and between it and the write.
* `writesEarly` — a command goes out on a connection that has not settled.
* `staleLatch` — a `ping_pong` counts on the latch of an earlier connection.

## Main results

* `nothing_sent_early` — **no command goes out early**, if no `ping_pong` counts on the
  latch of an earlier connection.
* `sent_early` — on the second connection a command goes out before a line has come in.
-/

namespace Raydriver.PingPong

open Lts

/-! ### The gate -/

/-- At the gate: the next step looks at the latch. -/
def PingPc.atGate : PingPc → Bool
  | .enter | .connectWait => true
  | _ => false

/-- Between the gate and the write. -/
def PingPc.pastGate : PingPc → Bool
  | .begin | .lockWait | .locked => true
  | _ => false

/-- The task is in a `ping_pong` at its gate. -/
def Body.atGate (b : Body) : Bool := b.ping.any fun x => x.1 && x.2.atGate

/-- The task is in a `ping_pong` between its gate and its write. -/
def Body.pastGate (b : Body) : Bool := b.ping.any fun x => x.1 && x.2.pastGate

/-- **A command goes out early**: the step writes a command of a `ping_pong` on a connection
on which no complete line was received, or `connect_settle` has not elapsed since. -/
def writesEarly (s : Conn) (l : ConnLabel) (u : Conn) : Bool :=
  match l with
  | .session (.task i _) =>
    (s.sys.tasks[i]?).any (fun b => b.ping == some (true, .locked)) &&
      u.sys.core.sent != s.sys.core.sent && !(decide (0 < s.heard) && s.settled)
  | _ => false

/-- **A `ping_pong` counts on the latch of an earlier connection**: it finds the latch set
before the current connection has settled, or it is between its gate and its write, waiting
for the lock, when the next connection is opened. -/
def staleLatch (s : Conn) : ConnLabel → Bool
  | .session (.task i _) =>
    (s.sys.tasks[i]?).any Body.atGate && s.sys.core.connected && !s.settled
  | .loop _ failed => s.phase == .loop .opening && !failed && s.sys.tasks.any Body.pastGate
  | _ => false

section Gate

variable {i : ℕ} {ch : Choice} {c c' : Core} {b b' : Body}

theorem advancePing_gate {command : Text} {pc pc' : PingPc}
    (h : advancePing .marlin i true command ch c pc = some (c', pc')) (hpc : pc'.pastGate = true) :
    pc.pastGate = true ∨ pc.atGate = true ∧ c.connected = true := by
  cases pc with
  | enter =>
    refine .inr ⟨rfl, ?_⟩
    by_contra hconn
    have hconn' : c.connected = false := by simpa using hconn
    simp only [advancePing, hconn'] at h
    cases h
    cases hpc
  | connectWait =>
    refine .inr ⟨rfl, ?_⟩
    by_contra hconn
    simp only [advancePing, if_neg hconn] at h
    split_ifs at h
    cases h
    cases hpc
  | begin => exact .inl rfl
  | lockWait => exact .inl rfl
  | locked => exact .inl rfl
  | writing cmd err => cases err <;> cases h <;> cases hpc
  | wait cmd =>
    simp only [advancePing] at h
    split_ifs at h <;> cases h <;> cases hpc
  | returned cmd lines err => cases h

/-- A step of a task leads past the gate only from there, or from the gate with the latch
set. -/
theorem advance_gate (h : advance .marlin i ch c b = some (c', b')) (hb : b'.pastGate = true) :
    b.pastGate = true ∨ b.atGate = true ∧ c.connected = true := by
  cases b with
  | run job pc =>
    obtain ⟨⟨c1, pc1⟩, h1, h2⟩ := Option.map_eq_some_iff.mp h
    cases h2
    cases pc with
    | ping idx line rest pc =>
      simp only [advanceRun] at h1
      split at h1
      · cases h1
        cases hb
      · cases h1
        split_ifs at hb <;> cases hb
      · obtain ⟨⟨c₁, p'⟩, hping, heq⟩ := Option.map_eq_some_iff.mp h1
        cases heq
        simp only [Body.pastGate, Body.atGate, Body.ping, Option.any_some, Bool.true_and] at hb ⊢
        exact advancePing_gate hping hb
    | rawNext realtime =>
      cases realtime <;> simp only [advanceRun] at h1 <;> split_ifs at h1 <;> cases h1 <;> cases hb
    | rawWriting realtime err =>
      cases h1
      split_ifs at hb <;> cases hb
    | top idx rest =>
      cases rest <;> simp only [advanceRun] at h1 <;> (try split_ifs at h1) <;> cases h1 <;> cases hb
    | shutdown was pc =>
      simp only [advanceRun] at h1
      split at h1
      · cases h1
        cases hb
      · obtain ⟨⟨c₁, p'⟩, -, heq⟩ := Option.map_eq_some_iff.mp h1
        cases heq
        cases hb
    | ended interrupted =>
      cases h1
      split_ifs at hb <;> cases hb
    | returned => cases h1
    | _ =>
      cases h1
      cases hb
  | execute command pc =>
    obtain ⟨⟨c1, pc1⟩, h1, h2⟩ := Option.map_eq_some_iff.mp h
    cases h2
    cases pc with
    | start =>
      cases h1
      cases hb
    | ping pc =>
      obtain ⟨⟨c₁, p'⟩, hping, heq⟩ := Option.map_eq_some_iff.mp h1
      cases heq
      simp only [Body.pastGate, Body.atGate, Body.ping, Option.any_some, Bool.true_and] at hb ⊢
      exact advancePing_gate hping hb
  | cancel em pc =>
    obtain ⟨⟨c1, pc1⟩, -, h2⟩ := Option.map_eq_some_iff.mp h
    cases h2
    cases hb
  | hold on pc =>
    obtain ⟨⟨c1, pc1⟩, -, h2⟩ := Option.map_eq_some_iff.mp h
    cases h2
    cases hb
  | poll pc =>
    obtain ⟨⟨c1, pc1⟩, -, h2⟩ := Option.map_eq_some_iff.mp h
    cases h2
    cases pc1 <;> cases hb

end Gate

/-! ### The announcement -/

/-- **What a settled connection has behind it.** -/
structure Announced (s : Conn) : Prop where
  heard : s.settled = true → 0 < s.heard
  opening : s.phase = .loop .opening → s.handshake = false
  latched : ∀ pc, s.phase = .loop pc → pc.reader = true → s.handshake = true → 0 < s.heard
  settle : s.phase = .loop .settle → s.handshake = true
  past : ∀ b ∈ s.sys.tasks, b.pastGate = true → s.settled = true

namespace Announced

variable {s u : Conn} {l : ConnLabel} {ch : Choice} {failed : Bool}

/-- A step that leaves the histories alone and leads to no live reader. -/
theorem of_quiet (h : Announced s) (hlive : u.phase.reader = false)
    (hopening : u.phase = .loop .opening → u.handshake = false) (hheard : u.heard = s.heard)
    (hsettled : u.settled = s.settled) (htasks : u.sys.tasks = s.sys.tasks) : Announced u where
  heard := by
    rw [hheard, hsettled]
    exact h.heard
  opening := hopening
  latched := by
    intro pc hu hpc
    rw [hu] at hlive
    cases hpc.symm.trans hlive
  settle := by
    intro hu
    rw [hu] at hlive
    cases hlive
  past := by
    rw [htasks, hsettled]
    exact h.past

theorem loopTop (h : Announced s) : Announced s.loopTop := by
  unfold Conn.loopTop
  split_ifs
  · exact h.of_quiet rfl (fun _ => rfl) rfl rfl rfl
  · exact h.of_quiet rfl nofun rfl rfl rfl

theorem loopEnd (h : Announced s) : Announced s.loopEnd := by
  unfold Conn.loopEnd
  split_ifs
  · exact h.of_quiet rfl nofun rfl rfl rfl
  · exact h.of_quiet rfl nofun rfl rfl rfl

/-- The calls and the tasks of the session. -/
theorem session {l : Label} (h : Announced s) (hs : Conn.step .marlin (.session l) s = some u)
    (hok : staleLatch s (.session l) = false) : Announced u := by
  simp only [Conn.step] at hs
  split_ifs at hs with hl
  obtain ⟨sys, hsys, rfl⟩ := Option.map_eq_some_iff.mp hs
  refine ⟨h.heard, h.opening, h.latched, h.settle, fun b hb hpast => ?_⟩
  cases l with
  | call op =>
    simp only [Sys.step] at hsys
    split_ifs at hsys
    obtain ⟨b', hb', rfl⟩ := Option.map_eq_some_iff.mp hsys
    rcases List.mem_append.mp hb with hb | hb
    · exact h.past b hb hpast
    · obtain rfl := List.mem_singleton.mp hb
      cases op <;> cases hb' <;> cases hpast
  | task i ch =>
    obtain ⟨b₀, c', b', hb₀, -, hadv, rfl⟩ := Sys.step_task hsys
    rcases List.mem_or_eq_of_mem_set hb with hb | rfl
    · exact h.past b hb hpast
    · rcases advance_gate hadv hpast with hpast | ⟨hgate, hconn⟩
      · exact h.past b₀ (List.mem_of_getElem? hb₀) hpast
      · simpa [staleLatch, hb₀, hgate, hconn] using hok
  | _ => cases hl

/-- A line the reader hears announces the device. -/
theorem rx {data : Bytes} (h : Announced s) (hreader : s.phase.reader = true) :
    Announced (s.hear .marlin data) where
  heard := fun hsettled => Nat.lt_of_lt_of_le (h.heard hsettled) (Nat.le_add_right _ _)
  opening := by
    intro hphase
    rw [show s.phase = .loop .opening from hphase] at hreader
    cases hreader
  latched := by
    intro pc hphase hpc hhand
    have hor : s.handshake = true ∨
        ((cutMessages data s.sys.core.lineBuffer).2.flatMap lineTexts).any
          Firmware.marlin.announces = true := Bool.or_eq_true_iff.mp hhand
    rcases hor with hold | hnew
    · exact Nat.lt_of_lt_of_le (h.latched pc hphase hpc hold) (Nat.le_add_right _ _)
    · obtain ⟨line, hline, -⟩ := List.any_eq_true.mp hnew
      exact Nat.lt_of_lt_of_le (List.length_pos_of_mem hline) (Nat.le_add_left _ _)
  settle := fun hphase => Bool.or_eq_true_iff.mpr (.inl (h.settle hphase))
  past := h.past

/-- The step lemma of the connection loop. -/
theorem advanceLoop {pc : LoopPc} (h : Announced s) (hpc : s.phase = .loop pc)
    (hs : s.advanceLoop .marlin ch failed pc = some u)
    (hok : staleLatch s (.loop ch failed) = false) : Announced u := by
  cases pc with
  | start =>
    cases hs
    exact h.loopTop
  | opening =>
    simp only [Conn.advanceLoop] at hs
    split_ifs at hs with hfailed hfw
    · cases hs
      exact h.loopEnd
    · cases hs
      refine ⟨fun hphase => (by cases hphase), by simp,
        fun pc _ _ hhand => ?_, fun hphase => (by cases hphase), fun b hb hpast => ?_⟩
      · have hfalse : s.handshake = false := h.opening hpc
        rw [show s.handshake = true from hhand] at hfalse
        cases hfalse
      · -- nobody is past the gate when a connection is opened
        have hnone : s.sys.tasks.any Body.pastGate = false := by
          simpa [staleLatch, hpc, hfailed] using hok
        rw [List.any_eq_false] at hnone
        exact absurd hpast (hnone b hb)
    · exact absurd rfl hfw
  | asking ok =>
    cases hs
    cases ok with
    | false => exact h.of_quiet rfl (by simp) rfl rfl rfl
    | true =>
      exact ⟨h.heard, by simp, fun pc _ _ => h.latched _ hpc rfl,
        by simp, h.past⟩
  | handshake =>
    simp only [Conn.advanceLoop] at hs
    split_ifs at hs with htimeout hfw hhand hfw
    · cases hs
      exact h.of_quiet rfl (by simp) rfl rfl rfl
    · exact absurd rfl hfw
    · cases hs
      exact ⟨h.heard, by simp, fun pc _ _ => h.latched _ hpc rfl, fun _ => hhand,
        h.past⟩
    · exact absurd rfl hfw
  | settle =>
    cases hs
    -- the banner has been heard: the latch is raised, and stays
    have hheard : 0 < s.heard := h.latched _ hpc rfl (h.settle hpc)
    exact ⟨fun _ => hheard, fun hphase => (by cases hphase), fun pc _ _ _ => hheard,
      fun hphase => (by cases hphase),
      fun b hb hpast => rfl⟩
  | polling poll =>
    simp only [Conn.advanceLoop] at hs
    split_ifs at hs
    cases hs
    exact h.of_quiet rfl (by simp) rfl rfl rfl
  | readerWait =>
    cases hs
    exact h.of_quiet rfl (by simp) rfl rfl rfl
  | closing =>
    cases hs
    exact loopEnd (s := s.withCore fun c => { c with lineBuffer := [] })
      ⟨h.heard, h.opening, h.latched, h.settle, h.past⟩
  | sleep =>
    cases hs
    exact h.loopTop

/-- The start of a `connect` or `cleanup`. -/
theorem abortLoop {connect : Bool} (h : Announced s) : Announced (s.abortLoop connect) := by
  unfold Conn.abortLoop
  split
  · refine ⟨h.heard, nofun, nofun, nofun,
      fun b hb hpast => ?_⟩
    rcases List.mem_or_eq_of_mem_set hb with hb | rfl
    · exact h.past b hb hpast
    · cases hpast
  · exact ⟨h.heard, nofun, nofun, nofun,
      h.past⟩
  · exact ⟨h.heard, nofun, nofun, nofun,
      h.past⟩

theorem advanceCleanup {connect : Bool} {pc : CleanupPc} (h : Announced s) :
    Announced (s.advanceCleanup connect pc) := by
  have hclose : Announced (s.close connect) :=
    ⟨h.heard, nofun, nofun, nofun, h.past⟩
  unfold Conn.advanceCleanup
  cases pc with
  | loopWait reader =>
    cases reader with
    | false => exact hclose
    | true => exact h.of_quiet rfl nofun rfl rfl rfl
  | readerWait => exact hclose
  | closing =>
    cases connect with
    | false => exact h.of_quiet rfl nofun rfl rfl rfl
    | true => exact h.of_quiet rfl nofun rfl rfl rfl

/-- **One step keeps the announcement**, unless a `ping_pong` counts on an old latch. -/
theorem step (h : Announced s) (hs : Conn.step .marlin l s = some u)
    (hok : staleLatch s l = false) : Announced u := by
  cases l with
  | session l => exact h.session hs hok
  | rx data =>
    simp only [Conn.step] at hs
    split_ifs at hs with hreader
    cases hs
    exact h.rx hreader.2
  | lost =>
    simp only [Conn.step] at hs
    split_ifs at hs
    cases hs
    exact ⟨h.heard, h.opening, h.latched, h.settle, h.past⟩
  | cleanup connect =>
    simp only [Conn.step] at hs
    split at hs
    · cases hs
    · split_ifs at hs
      cases hs
      exact abortLoop (s := s.withCore Sys.cleanup)
        ⟨h.heard, h.opening, h.latched, h.settle, h.past⟩
  | loop ch failed =>
    simp only [Conn.step] at hs
    split at hs
    · rename_i pc hpc
      split_ifs at hs
      exact h.advanceLoop hpc hs hok
    · cases hs
  | caller =>
    simp only [Conn.step] at hs
    split at hs
    · split_ifs at hs
      cases hs
      exact h.advanceCleanup
    · cases hs

end Announced

/-- **Nothing is sent early.**  In every run of `MarlinCore` in which no `ping_pong` counts on
the latch of an earlier connection, each command goes out on a connection on which a complete
line was received, after `connect_settle` has elapsed on it. -/
theorem nothing_sent_early (s₀ s u : Conn) (l : ConnLabel) (h0 : Unconnected s₀)
    (hr : Run (Conn.step .marlin) (fun a l _ => (!staleLatch a l) = true) s₀ s)
    (hs : Conn.step .marlin l s = some u) : writesEarly s l u = false := by
  have h : Announced s := by
    refine hr.invariant (fun a l b h hs hok => h.step hs (by simpa using hok)) ?_
    have hphase : ∀ pc, s₀.phase ≠ .loop pc := fun pc hp => by rw [h0.phase] at hp; cases hp
    refine ⟨fun hsettled => ?_, fun hp => absurd hp (hphase _), fun pc hp => absurd hp (hphase _),
      fun hp => absurd hp (hphase _), fun b hb => ?_⟩
    · rw [h0.settled] at hsettled
      cases hsettled
    · rw [h0.tasks] at hb
      cases hb
  cases l with
  | session l =>
    cases l with
    | task i ch =>
      simp only [writesEarly]
      cases hb : s.sys.tasks[i]? with
      | none => rfl
      | some b =>
        by_cases hping : b.ping = some (true, .locked)
        · have hsettled : s.settled = true :=
            h.past b (List.mem_of_getElem? hb) (by unfold Body.pastGate; rw [hping]; rfl)
          simp [hsettled, h.heard hsettled]
        · simp [hping]
    | _ => rfl
  | _ => rfl

/-! ### The second connection -/

/-- The labels of a command executed up to its write. -/
def sendCommand (i : ℕ) : List ConnLabel := (.call (.execute "G28".toList) :: turns i 5).map .session

/-- A command on the first connection, called before the device has announced itself: the
general result. -/
theorem nothing_sent_early_settled :
    writesEarly
      (reach (Conn.step .marlin) (connecting ++ (.call (.execute "G28".toList) :: turns 0 2).map
        .session ++ .rx (ascii "start\n") :: loopTurns 2 ++ (turns 0 3).map .session) newConn)
      (.session (.task 0 {}))
      (reach (Conn.step .marlin) (connecting ++ (.call (.execute "G28".toList) :: turns 0 2).map
        .session ++ .rx (ascii "start\n") :: loopTurns 2 ++ (turns 0 4).map .session) newConn)
      = false :=
  nothing_sent_early newConn _ _ _ ⟨rfl, rfl, rfl, rfl⟩ (run_reach_where (by decide)) (by rfl)

/-- **A command goes out early**: the link is lost, and right after the second connection is
opened a command is written on it. -/
theorem sent_early : ¬ ∀ (s₀ s u : Conn) (l : ConnLabel), Unconnected s₀ →
    Run (Conn.step .marlin) AnyStep s₀ s → Conn.step .marlin l s = some u →
    writesEarly s l u = false := by
  intro h
  let labels : List ConnLabel := reconnecting ++ loopTurns 1 ++
    (.call (.execute "G28".toList) :: turns 1 4).map .session
  exact absurd (h newConn (reach (Conn.step .marlin) labels newConn)
    (reach (Conn.step .marlin) (labels ++ [.session (.task 1 {})]) newConn) (.session (.task 1 {}))
    ⟨rfl, rfl, rfl, rfl⟩ (run_reach (by decide)) (by rfl)) (by decide)

end Raydriver.PingPong
