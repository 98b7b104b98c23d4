import Raydriver.PingPong.Frames

/-!
# The connections of a ping-pong session

`connection_loop` opens the transport, starts a reader task, awaits the handshake, polls
until the link is lost, stops the reader, closes the transport, and begins again.
`connect` and `cleanup` abort it at whatever await point it is.  The session with its
connection is a transition system over that of the session alone: the loop and the two
calls are added, and received bytes need a reader.

`connect` and `cleanup` are called one at a time.  Two fields are histories the source
does not keep: `heard` counts the complete lines received on the current connection, and
`settled` says that `connect_settle` has elapsed on it behind the first of them.

## Main definitions

* `LoopPc`, `CleanupPc`, `Phase` — where the connection loop and the two calls are.
* `Conn`, `Conn.step` — a session with its connection.
* `tearsLine` — a call stops the reader in the middle of a received line.

## Main results

* `reader_starts_clean` — **a reader starts with an empty line buffer**, if no call stops
  its predecessor in the middle of a line.
* `reader_starts_torn` — otherwise a line is glued together from two connections.
-/

namespace Raydriver.PingPong

open Lts

/-! ### The connection loop -/

/-- The counters of `connection_loop`; each is an await point. -/
inductive LoopPc where
  /-- Spawned. -/
  | start
  /-- Awaiting `transport.open`. -/
  | opening
  /-- Awaiting the write of a `?` of `await_handshake`, which succeeds or not. -/
  | asking (ok : Bool)
  /-- Awaiting the handshake, at most a poll interval. -/
  | handshake
  /-- Awaiting `connect_settle` (`MarlinCore`). -/
  | settle
  /-- In the poll loop, which is a task. -/
  | polling (poll : ℕ)
  /-- `abort_readers`: awaiting the end of the aborted reader. -/
  | readerWait
  /-- Awaiting `transport.close`. -/
  | closing
  /-- Awaiting `reconnect_delay`. -/
  | sleep
  deriving DecidableEq, Repr

/-- The reader task of the connection is live. -/
def LoopPc.reader : LoopPc → Bool
  | .asking _ | .handshake | .settle | .polling _ => true
  | _ => false

/-- The counters of `cleanup` behind the abort of the connection loop. -/
inductive CleanupPc where
  /-- Awaiting the end of the aborted loop; its reader is live, or not. -/
  | loopWait (reader : Bool)
  /-- Awaiting the end of the aborted reader. -/
  | readerWait
  /-- Awaiting `transport.close`. -/
  | closing
  deriving DecidableEq, Repr

/-- Who looks after the connection: nobody, the connection loop, or a `cleanup`, which
may be that of a `connect`. -/
inductive Phase where
  | idle
  | loop (pc : LoopPc)
  | ending (connect : Bool) (pc : CleanupPc)
  deriving DecidableEq, Repr

/-- There is a reader task. -/
def Phase.reader : Phase → Bool
  | .loop pc => pc.reader
  | .ending _ (.loopWait reader) => reader
  | _ => false

/-- A session with its connection. -/
structure Conn where
  sys : Sys
  phase : Phase := .idle
  /-- `handshake_received`. -/
  handshake : Bool := false
  /-- The lines received on the current connection. -/
  heard : ℕ := 0
  /-- `connect_settle` has elapsed on the current connection. -/
  settled : Bool := false
  deriving DecidableEq, Repr

/-- The line is the handshake: any line in `MarlinCore`, a status report in the others,
and in `SimpleCore` also the banner. -/
def Firmware.announces (fw : Firmware) (line : Text) : Bool :=
  fw == .marlin || (startsWith "<".toList line && line.getLast? == some '>') ||
    fw == .simple && (startsWith "Grbl ".toList line || startsWith "GrblHAL ".toList line)

/-- What happens to a connection. -/
inductive ConnLabel where
  /-- A call of an operation, or a step of a task. -/
  | session (l : Label)
  /-- The reader task handles a chunk of received bytes. -/
  | rx (data : Bytes)
  /-- The link is lost. -/
  | lost
  /-- Someone calls `connect` or `cleanup`. -/
  | cleanup (connect : Bool)
  /-- The connection loop goes on; `failed` says that the opening failed, or that the
  deadline of the handshake has passed. -/
  | loop (ch : Choice) (failed : Bool)
  /-- The `connect` or `cleanup` under way goes on. -/
  | caller
  deriving DecidableEq, Repr

/-- The calls and the steps of tasks; the poll loop is not called from outside. -/
def Label.isSession : Label → Bool
  | .call op => op != .poll
  | .task _ _ => true
  | _ => false

namespace Conn

/-- The session under the connection, changed by `f`. -/
def withCore (f : Core → Core) (s : Conn) : Conn :=
  { s with sys := { s.sys with core := f s.sys.core } }

/-- The head of the loop. -/
def loopTop (s : Conn) : Conn :=
  if s.sys.core.keepRunning then { s with handshake := false, phase := .loop .opening }
  else { s with phase := .idle }

/-- The end of an iteration. -/
def loopEnd (s : Conn) : Conn :=
  { s with phase := if s.sys.core.keepRunning then .loop .sleep else .idle }

/-- A `?` of `await_handshake`. -/
def ask (ch : Choice) (s : Conn) : Conn :=
  if s.sys.core.isOpen then
    { s.withCore (Core.write .realtime ['?'] ch.writeError) with
      phase := .loop (.asking ch.writeError.isNone) }
  else { s with phase := .loop (.asking false) }

/-- The transport is open: the reader is started. -/
def opened (s : Conn) : Conn :=
  { s.withCore fun c => { c with isOpen := true } with heard := 0, settled := false }

/-- The poll loop is entered. -/
def startPoll (s : Conn) : Conn :=
  { s with
    sys := { s.sys with tasks := s.sys.tasks ++ [.poll .sleep] }
    phase := .loop (.polling s.sys.tasks.length) }

/-- The connection loop goes on to its next await point. -/
def advanceLoop (fw : Firmware) (ch : Choice) (failed : Bool) (s : Conn) : LoopPc → Option Conn
  | .start => some s.loopTop
  -- the reader is spawned; `MarlinCore` waits for the device to speak, the others poll it
  | .opening =>
    if failed then some s.loopEnd
    else if fw == .marlin then some { s.opened with phase := .loop .handshake }
    else some (s.opened.ask ch)
  | .asking ok => some { s with phase := .loop (if ok then .handshake else .readerWait) }
  -- a time out of the others polls again, until the deadline
  | .handshake =>
    if ch.timedOut then
      if fw == .marlin || failed then some { s with phase := .loop .readerWait }
      else some (s.ask ch)
    else if s.handshake then
      if fw == .marlin then some { s with phase := .loop .settle } else some s.startPoll
    else none
  | .settle =>
    some { (s.withCore fun c => { c with connected := true }).startPoll with settled := true }
  | .polling poll =>
    if s.sys.tasks[poll]? = some (.poll .returned) then
      some { s with phase := .loop .readerWait }
    else none
  -- the reader has been aborted, and the transport is closed
  | .readerWait =>
    some { s.withCore fun c => { c with isOpen := false } with phase := .loop .closing }
  | .closing => some (s.withCore fun c => { c with lineBuffer := [] }).loopEnd
  | .sleep => some s.loopTop

/-- `transport.close`, awaited by `cleanup`. -/
def close (connect : Bool) (s : Conn) : Conn :=
  { s.withCore fun c => { c with isOpen := false } with phase := .ending connect .closing }

/-- The connection loop is aborted, and its poll loop dropped with it. -/
def abortLoop (connect : Bool) (s : Conn) : Conn :=
  match s.phase with
  -- a poll that held the lock gives it back as its guard is dropped
  | .loop (.polling poll) =>
    { s with
      sys := { s.sys with
        core := if s.sys.core.cmdLock = some poll then s.sys.core.unlock else s.sys.core
        tasks := s.sys.tasks.set poll (.poll .returned) }
      phase := .ending connect (.loopWait true) }
  | .loop pc => { s with phase := .ending connect (.loopWait pc.reader) }
  | _ => s.close connect

/-- A `connect` or `cleanup` goes on to its next await point. -/
def advanceCleanup (connect : Bool) (s : Conn) : CleanupPc → Conn
  | .loopWait reader =>
    if reader then { s with phase := .ending connect .readerWait } else s.close connect
  | .readerWait => s.close connect
  | .closing =>
    if connect then
      { s.withCore fun c => { c with keepRunning := true } with phase := .loop .start }
    else { s with phase := .idle }

/-- The reader handles a chunk. -/
def hear (fw : Firmware) (data : Bytes) (s : Conn) : Conn :=
  let lines := (cutMessages data s.sys.core.lineBuffer).2.flatMap lineTexts
  { s.withCore (Core.handleRx fw data) with
    handshake := s.handshake || lines.any fw.announces
    heard := s.heard + lines.length }

/-- One step of the connection. -/
def step (fw : Firmware) : ConnLabel → Conn → Option Conn
  | .session l, s =>
    if l.isSession then (Sys.step fw l s.sys).map fun sys => { s with sys := sys } else none
  | .rx data, s => if s.sys.active = none ∧ s.phase.reader then some (s.hear fw data) else none
  | .lost, s =>
    if s.sys.active = none then some (s.withCore fun c => { c with isOpen := false }) else none
  | .cleanup connect, s =>
    match s.phase with
    | .ending _ _ => none
    | _ =>
      if s.sys.active = none then some ((s.withCore Sys.cleanup).abortLoop connect) else none
  | .loop ch failed, s =>
    match s.phase with
    | .loop pc => if s.sys.active = none then s.advanceLoop fw ch failed pc else none
    | _ => none
  | .caller, s =>
    match s.phase with
    | .ending connect pc =>
      if s.sys.active = none then some (s.advanceCleanup connect pc) else none
    | _ => none

end Conn

/-- A session that was never connected. -/
structure Unconnected (s : Conn) : Prop where
  phase : s.phase = .idle
  lineBuffer : s.sys.core.lineBuffer = []
  settled : s.settled = false
  tasks : s.sys.tasks = []

/-- The shared state behind an operation that leaves the line buffer alone or clears it. -/
def KeepsBuffer (c c' : Core) : Prop := c'.lineBuffer = c.lineBuffer ∨ c'.lineBuffer = []

/-! ### The line buffer -/

/-- **A call stops the reader in the middle of a received line**: a `connect` or `cleanup`
gets hold of the reader while the line buffer holds a part of a line. -/
def tearsLine (s : Conn) : ConnLabel → Bool
  | .caller =>
    match s.phase with
    | .ending _ (.loopWait _) => !s.sys.core.lineBuffer.isEmpty
    | _ => false
  | _ => false

/-- Where no reader is live and the line buffer of the last one has been dealt with. -/
def Phase.between : Phase → Bool
  | .idle | .loop .start | .loop .opening | .loop .sleep | .ending _ .readerWait
  | .ending _ .closing => true
  | _ => false

theorem Phase.reader_of_between {p : Phase} (h : p.between = true) : p.reader = false := by
  cases p with
  | idle => rfl
  | loop pc => cases pc <;> first | rfl | cases h
  | ending connect pc => cases pc <;> first | rfl | cases h

section Buffer

variable {fw : Firmware} {i : ℕ} {ch : Choice} {c c' : Core} {b b' : Body} {s u : Conn}
  {l : ConnLabel}

theorem advance_keepsBuffer (h : advance fw i ch c b = some (c', b')) : KeepsBuffer c c' := by
  cases advance_effect h with
  | quiet h => exact .inl (congrArg Exchange.lineBuffer h :)
  | begins command err hb hlock h => exact .inl (congrArg Exchange.lineBuffer h :)
  | ends cmd hlock h =>
    refine .inl ((congrArg Exchange.lineBuffer h :).trans ?_)
    unfold Core.dropPending
    split_ifs <;> rfl
  | writes e he h => exact .inl (congrArg Exchange.lineBuffer h :)
  | stops err em hb h =>
    rcases h with h | h
    · exact .inr (congrArg Exchange.lineBuffer h :)
    · exact .inr (congrArg Exchange.lineBuffer h :)

/-- Calls and tasks never put anything into the line buffer. -/
theorem session_keepsBuffer {sys sys' : Sys} {l : Label} (hl : l.isSession = true)
    (h : Sys.step fw l sys = some sys') : KeepsBuffer sys.core sys'.core := by
  cases l with
  | call op =>
    simp only [Sys.step] at h
    split_ifs at h
    obtain ⟨b, -, rfl⟩ := Option.map_eq_some_iff.mp h
    exact .inl rfl
  | task i ch =>
    obtain ⟨b, c', b', -, -, hadv, rfl⟩ := Sys.step_task h
    exact advance_keepsBuffer hadv
  | _ => cases hl

namespace Conn

theorem ask_phase (ch : Choice) (s : Conn) : ∃ ok, (s.ask ch).phase = .loop (.asking ok) := by
  unfold ask
  split_ifs
  · exact ⟨_, rfl⟩
  · exact ⟨_, rfl⟩

end Conn

/-- Between two readers the line buffer is empty. -/
def CleanBuffer (s : Conn) : Prop := s.phase.between = true → s.sys.core.lineBuffer = []

namespace CleanBuffer

theorem loopTop (h : s.sys.core.lineBuffer = []) : CleanBuffer s.loopTop := by
  intro _
  unfold Conn.loopTop
  split_ifs <;> exact h

theorem loopEnd (h : s.sys.core.lineBuffer = []) : CleanBuffer s.loopEnd := fun _ => h

theorem ask (s : Conn) : CleanBuffer (s.ask ch) := by
  intro hbetween
  obtain ⟨ok, hok⟩ := s.ask_phase ch
  rw [hok] at hbetween
  cases hbetween

/-- The step lemma of the connection loop. -/
theorem advanceLoop {failed : Bool} {pc : LoopPc} (h : CleanBuffer s) (hpc : s.phase = .loop pc)
    (hs : s.advanceLoop fw ch failed pc = some u) : CleanBuffer u := by
  have hclean : pc.reader = false → pc ≠ .readerWait → pc ≠ .closing →
      s.sys.core.lineBuffer = [] := by
    intro hreader hwait hclosing
    refine h ?_
    rw [hpc]
    cases pc <;> first | rfl | exact absurd rfl hwait | exact absurd rfl hclosing | cases hreader
  cases pc with
  | start =>
    cases hs
    exact loopTop (hclean rfl nofun nofun)
  | opening =>
    simp only [Conn.advanceLoop] at hs
    split_ifs at hs <;> cases hs
    · exact loopEnd (hclean rfl nofun nofun)
    · intro hbetween
      cases hbetween
    · exact ask _
  | asking ok =>
    cases hs
    intro hbetween
    cases ok <;> cases hbetween
  | handshake =>
    simp only [Conn.advanceLoop] at hs
    split_ifs at hs <;> cases hs
    · intro hbetween
      cases hbetween
    · exact ask _
    · intro hbetween
      cases hbetween
    · intro hbetween
      cases hbetween
  | settle =>
    cases hs
    intro hbetween
    cases hbetween
  | polling poll =>
    simp only [Conn.advanceLoop] at hs
    split_ifs at hs
    cases hs
    intro hbetween
    cases hbetween
  | readerWait =>
    cases hs
    intro hbetween
    cases hbetween
  | closing =>
    cases hs
    exact loopEnd rfl
  | sleep =>
    cases hs
    exact loopTop (hclean rfl nofun nofun)

/-- **One step keeps the line buffer clean**, unless it tears a line. -/
theorem step (h : CleanBuffer s) (hs : Conn.step fw l s = some u)
    (hok : tearsLine s l = false) : CleanBuffer u := by
  cases l with
  | session l =>
    simp only [Conn.step] at hs
    split_ifs at hs with hl
    obtain ⟨sys, hsys, rfl⟩ := Option.map_eq_some_iff.mp hs
    intro hbetween
    rcases session_keepsBuffer hl hsys with hkeep | hclear
    · exact hkeep.trans (h hbetween)
    · exact hclear
  | rx data =>
    simp only [Conn.step] at hs
    split_ifs at hs with hreader
    cases hs
    intro hbetween
    have hdead : s.phase.reader = false := Phase.reader_of_between hbetween
    rw [hdead] at hreader
    exact absurd hreader.2 Bool.false_ne_true
  | lost =>
    simp only [Conn.step] at hs
    split_ifs at hs
    cases hs
    exact h
  | cleanup connect =>
    simp only [Conn.step] at hs
    split at hs
    · cases hs
    · rename_i hphase
      split_ifs at hs
      cases hs
      intro hbetween
      cases hp : s.phase with
      | idle =>
        have hclean : s.sys.core.lineBuffer = [] := h (by rw [hp]; rfl)
        simp only [Conn.abortLoop, Conn.withCore, hp, Conn.close]
        exact hclean
      | loop pc =>
        simp only [Conn.abortLoop, Conn.withCore, hp] at hbetween
        cases pc <;> cases hbetween
      | ending connect' pc => exact absurd hp (hphase connect' pc)
  | loop ch failed =>
    simp only [Conn.step] at hs
    split at hs
    · rename_i pc hpc
      split_ifs at hs
      exact h.advanceLoop hpc hs
    · cases hs
  | caller =>
    simp only [Conn.step] at hs
    split at hs
    · rename_i connect pc hpc
      split_ifs at hs
      cases hs
      have hclean : s.sys.core.lineBuffer = [] := by
        cases pc with
        | loopWait reader => simpa [tearsLine, hpc] using hok
        | readerWait => exact h (by rw [hpc]; rfl)
        | closing => exact h (by rw [hpc]; rfl)
      intro _
      unfold Conn.advanceCleanup
      cases pc with
      | loopWait reader => cases reader <;> exact hclean
      | readerWait => exact hclean
      | closing => cases connect <;> exact hclean
    · cases hs

end CleanBuffer

theorem Conn.loopTop_reader (s : Conn) : s.loopTop.phase.reader = false := by
  unfold Conn.loopTop
  split_ifs <;> rfl

theorem Conn.loopEnd_reader (s : Conn) : s.loopEnd.phase.reader = false := by
  unfold Conn.loopEnd
  dsimp only
  split_ifs <;> rfl

/-- A call leaves the reader to the end of the loop it aborts. -/
theorem Conn.abortLoop_reader (connect : Bool) (h : ∀ connect pc, s.phase ≠ .ending connect pc) :
    (s.abortLoop connect).phase.reader = s.phase.reader := by
  unfold Conn.abortLoop
  cases hp : s.phase with
  | idle => rfl
  | loop pc => cases pc <;> rfl
  | ending connect' pc => exact absurd hp (h connect' pc)

/-- **A reader is started by the opening of a connection**, and by nothing else. -/
theorem reader_starts (hs : Conn.step fw l s = some u) (hreader : s.phase.reader = false)
    (hu : u.phase.reader = true) :
    s.phase = .loop .opening ∧ u.sys.core.lineBuffer = s.sys.core.lineBuffer := by
  -- a step that leaves the phase alone starts no reader
  have hsame : u.phase ≠ s.phase := fun h => by rw [h, hreader] at hu; cases hu
  cases l with
  | session l =>
    simp only [Conn.step] at hs
    split_ifs at hs with hl
    obtain ⟨sys, hsys, rfl⟩ := Option.map_eq_some_iff.mp hs
    exact absurd rfl hsame
  | rx data =>
    simp only [Conn.step] at hs
    split_ifs at hs
    cases hs
    exact absurd rfl hsame
  | lost =>
    simp only [Conn.step] at hs
    split_ifs at hs
    cases hs
    exact absurd rfl hsame
  | cleanup connect =>
    simp only [Conn.step] at hs
    split at hs
    · cases hs
    · rename_i hphase
      split_ifs at hs
      cases hs
      -- an aborted loop keeps its reader if it had one
      rw [Conn.abortLoop_reader connect (s := s.withCore Sys.cleanup) hphase] at hu
      have hlive : s.phase.reader = true := hu
      rw [hreader] at hlive
      cases hlive
  | loop ch failed =>
    simp only [Conn.step] at hs
    split at hs
    · rename_i pc hpc
      split_ifs at hs
      rw [hpc] at hreader
      cases pc with
      -- the port is open: the reader starts with the buffer as it is
      | opening =>
        refine ⟨hpc, ?_⟩
        simp only [Conn.advanceLoop] at hs
        split_ifs at hs <;> cases hs
        · rfl
        · rfl
        · unfold Conn.ask
          split_ifs <;> rfl
      | start =>
        cases hs
        rw [Conn.loopTop_reader] at hu
        cases hu
      | sleep =>
        cases hs
        rw [Conn.loopTop_reader] at hu
        cases hu
      | closing =>
        cases hs
        rw [Conn.loopEnd_reader] at hu
        cases hu
      | readerWait =>
        cases hs
        cases hu
      | _ => cases hreader
    · cases hs
  | caller =>
    simp only [Conn.step] at hs
    split at hs
    · rename_i connect pc hpc
      split_ifs at hs
      cases hs
      cases pc with
      | loopWait reader => cases reader <;> cases hu
      | readerWait => cases hu
      | closing => cases connect <;> cases hu
    · cases hs

end Buffer

/-- **A reader starts with an empty line buffer.**  In every run of the three sessions in
which no `connect` or `cleanup` stops a reader in the middle of a received line, the line
buffer is empty whenever the reader of a newly opened connection is started. -/
theorem reader_starts_clean (fw : Firmware) (s₀ s u : Conn) (l : ConnLabel)
    (h0 : Unconnected s₀)
    (hr : Run (Conn.step fw) (fun a l _ => (!tearsLine a l) = true) s₀ s)
    (hs : Conn.step fw l s = some u) (hdead : s.phase.reader = false)
    (hlive : u.phase.reader = true) : u.sys.core.lineBuffer = [] := by
  have hclean : CleanBuffer s := by
    refine hr.invariant (fun a l b h hs hok => h.step hs (by simpa using hok)) ?_
    exact fun _ => h0.lineBuffer
  obtain ⟨hopening, hbuffer⟩ := reader_starts hs hdead hlive
  exact hbuffer.trans (hclean (by rw [hopening]; rfl))

/-! ### Runs with a second connection -/

/-- A new session. -/
def newConn : Conn :=
  { sys := { core := { isOpen := false, connected := false, keepRunning := false } } }

/-- `n` steps of the connection loop, nothing failing or expiring. -/
def loopTurns (n : ℕ) : List ConnLabel := List.replicate n (.loop {} false)

/-- `connect` and the first opening. -/
def connecting : List ConnLabel := [.cleanup true, .caller] ++ loopTurns 2

/-- A Marlin device announces itself, and the link is lost in the middle of its second
line; the loop is about to open a second connection. -/
def reconnecting : List ConnLabel :=
  connecting ++ .rx (ascii "start\no") :: loopTurns 2 ++ .lost ::
    (turns 0 2).map .session ++ loopTurns 4

/-- The reconnect behind a lost link: the general result. -/
theorem reader_starts_clean_reconnect :
    (reach (Conn.step .marlin) (reconnecting ++ loopTurns 1) newConn).sys.core.lineBuffer = [] :=
  reader_starts_clean .marlin newConn (reach (Conn.step .marlin) reconnecting newConn) _
    (.loop {} false) ⟨rfl, rfl, rfl, rfl⟩ (run_reach_where (by decide)) (by rfl) (by decide)
    (by decide)

/-- **A line is glued together from two connections**: the first `o` of an `ok` is received,
and then `connect` is called again. -/
theorem reader_starts_torn : ¬ ∃ fw : Firmware, ∀ (s₀ s u : Conn) (l : ConnLabel),
    Unconnected s₀ → Run (Conn.step fw) AnyStep s₀ s → Conn.step fw l s = some u →
    s.phase.reader = false → u.phase.reader = true → u.sys.core.lineBuffer = [] := by
  rintro ⟨fw, h⟩
  let labels : List ConnLabel := connecting ++ [.rx (ascii "o"), .cleanup true] ++
    [.caller, .caller, .caller] ++ loopTurns 1
  let s := reach (Conn.step fw) labels newConn
  let u := reach (Conn.step fw) (labels ++ loopTurns 1) newConn
  have h1 : Conn.step fw (.loop {} false) s = some u := by cases fw <;> rfl
  exact absurd (h newConn s u _ ⟨rfl, rfl, rfl, rfl⟩ (run_reach (by cases fw <;> decide)) h1
    (by cases fw <;> decide) (by cases fw <;> decide)) (by cases fw <;> decide)

end Raydriver.PingPong
