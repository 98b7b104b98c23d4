import Raydriver.Grbl.Conservation
import Raydriver.Grbl.Effects

/-!
# The connections of a GRBL session

`connection_loop` of a `SessionCore` opens the transport, starts a reader task, awaits the
handshake, asks for the build info, polls until the link is lost, stops the reader, closes
the transport, and begins again.  The flow control is reset by `connect`, but not by the loop.

The session with its connection is a transition system over that of the session alone.  The
tasks that run `connect` and `cleanup` abort the loop where they come to it, and a `connect`
spawns the next.  They are called one at a time.

## Main definitions

* `LoopPc` — the counters of `connection_loop`.
* `Conn`, `Conn.step` — a session with its connection.
* `losesTrack` — a connection is given up with something outstanding, or a line is tracked
  between two connections.

## Main results

* `reader_starts_fresh` — **a connection starts with fresh flow state**, if none is given up
  with something outstanding.
* `reader_starts_stale` — otherwise the next connection waits for acknowledgements that never
  come, or reads its first line glued to an old fragment.
-/

namespace Raydriver

open Lts

/-! ### The connection loop -/

/-- The counters of `connection_loop`; each is an await point. -/
inductive LoopPc where
  /-- Spawned. -/
  | start
  /-- Awaiting `transport.open`. -/
  | opening
  /-- Awaiting the write of a `?` of `await_handshake`, which succeeds or not. -/
  | asking (ok : Bool)
  /-- Awaiting the handshake, at most a poll interval. -/
  | handshake
  /-- In `execute_interactive_command` for the build info, which is a task. -/
  | info (task : ℕ)
  /-- In the status poll loop. -/
  | polling
  /-- The reader is aborted; awaiting `transport.close`. -/
  | closing
  /-- Awaiting `reconnect_delay`. -/
  | sleep
  deriving DecidableEq, Repr

/-- The reader task of the connection is live. -/
def LoopPc.reader : LoopPc → Bool
  | .asking _ | .handshake | .info _ | .polling => true
  | _ => false

/-- A session with its connection. -/
structure Conn where
  sys : Sys
  /-- The connection loop, if there is one. -/
  loop : Option LoopPc := none
  /-- The reader has outlived its aborted loop. -/
  orphan : Bool := false
  /-- `handshake_received`. -/
  handshake : Bool := false
  deriving DecidableEq, Repr

/-- A line that sets the handshake: a status report or the banner. -/
def announces (line : Text) : Bool :=
  !Core.isFragment line && ((startsWith "<".toList line && line.getLast? == some '>') ||
    startsWith "Grbl ".toList line || startsWith "GrblHAL ".toList line)

/-- The lines among what is parsed. -/
def Extracted.text : Extracted → Option Text
  | .line text => some text
  | .ack _ _ _ => none

/-- A `connect` or `cleanup` that has not returned. -/
def Body.linking : Body → Bool
  | .link _ .returned => false
  | .link _ _ => true
  | _ => false

/-- What happens to a connection. -/
inductive ConnLabel where
  /-- A call of an operation, or a step of a task. -/
  | session (l : Label)
  /-- The reader task handles a chunk of received bytes. -/
  | rx (data : Bytes)
  /-- The link is lost. -/
  | lost
  /-- The connection loop goes on; `failed` says that the opening or a poll failed, or that
  the deadline of the handshake has passed. -/
  | loop (ch : Choice) (failed : Bool)
  deriving DecidableEq, Repr

namespace Conn

/-- There is a reader task. -/
def reader (s : Conn) : Bool :=
  match s.loop with
  | some pc => pc.reader
  | none => s.orphan

/-- The session under the connection, changed by `f`. -/
def withCore (f : Core → Core) (s : Conn) : Conn :=
  { s with sys := { s.sys with core := f s.sys.core } }

/-- What the session may do by itself: the transport is opened and closed by the loop, polls
are sent by the loop, and there is one `connect` or `cleanup` at a time. -/
def allows (s : Conn) : Label → Bool
  | .call .connect | .call .cleanup => s.sys.tasks.all fun b => !b.linking
  | .rx _ | .link _ => false
  | .poll _ => s.loop == some .polling
  | _ => true

/-- The connection loop is dropped where it is, with the exchange it may be in. -/
def abortLoop (s : Conn) : Conn :=
  match s.loop with
  | some (.info i) =>
    { s.withCore fun c => { c with
        aborted := i :: c.aborted
        ended := i :: c.ended
        cmdLock := if c.cmdLock = some i then none else c.cmdLock } with loop := none }
  | _ => { s with loop := none }

/-- What a step of a `connect` or `cleanup` does to the connection: it aborts the loop, then
the reader, and at the end of a `connect` it spawns the next loop. -/
def follow (l : Label) (sys : Sys) (s : Conn) : Conn :=
  match l with
  | .task i _ =>
    match s.sys.tasks[i]? with
    | some (.link _ .stop) =>
      { ({ s with sys := sys } : Conn).abortLoop with
        orphan := s.reader && s.sys.core.commandTask.isSome }
    | some (.link _ (.stopWait _)) => { s with sys := sys, orphan := false }
    | some (.link true .closing) => { s with sys := sys, loop := some .start, orphan := false }
    | _ => { s with sys := sys }
  | _ => { s with sys := sys }

/-- The head of the loop. -/
def loopTop (s : Conn) : Conn :=
  if s.sys.core.keepRunning then { s with handshake := false, loop := some .opening }
  else { s with loop := none, orphan := false }

/-- The end of an iteration. -/
def loopEnd (s : Conn) : Conn :=
  if s.sys.core.keepRunning then { s with loop := some .sleep }
  else { s with loop := none, orphan := false }

/-- A `?` of `await_handshake`. -/
def ask (ch : Choice) (s : Conn) : Conn :=
  { s.withCore (Core.write .realtime ['?'] ch.writeError) with
    loop := some (.asking ch.writeError.isNone) }

/-- The connection is given up: the reader is aborted and the transport closed. -/
def giveUp (s : Conn) : Conn :=
  { s.withCore fun c => { c with isOpen := false } with loop := some .closing }

/-- The build info is asked for. -/
def askInfo (s : Conn) : Conn :=
  { s with
    sys := { s.sys with
      tasks := s.sys.tasks ++ [.interactive "$I".toList .start]
      active := some s.sys.tasks.length }
    loop := some (.info s.sys.tasks.length) }

/-- The exchange of task `i` is over. -/
def answered (i : ℕ) (s : Conn) : Bool :=
  match s.sys.tasks[i]? with
  | some (.interactive _ (.returned _)) => true
  | _ => false

/-- The connection loop goes on to its next await point. -/
def advanceLoop (ch : Choice) (failed : Bool) (s : Conn) : LoopPc → Option Conn
  | .start => some s.loopTop
  | .opening =>
    if failed then some s.loopEnd
    else some ((s.withCore fun c => { c with isOpen := true }).ask ch)
  | .asking ok => some (if ok then { s with loop := some .handshake } else s.giveUp)
  -- a time out polls again, until the deadline
  | .handshake =>
    if ch.timedOut then some (if failed then s.giveUp else s.ask ch)
    else if s.handshake then some s.askInfo
    else none
  -- `$I` is an interactive command like any other
  | .info i => if s.answered i then some { s with loop := some .polling } else none
  -- `status_poll_loop`: a failed write or a closed transport ends it
  | .polling =>
    if failed || !s.sys.core.isOpen || !s.sys.core.keepRunning then some s.giveUp else none
  | .closing => some s.loopEnd
  | .sleep => some s.loopTop

/-- The reader handles a chunk, the session of which is `sys` behind it. -/
def hear (data : Bytes) (sys : Sys) (s : Conn) : Conn :=
  { s with
    sys := sys
    handshake := s.handshake ||
      ((s.sys.core.flow.parseExtracted data).2.filterMap Extracted.text).any announces }

/-- One step of the connection. -/
def step : ConnLabel → Conn → Option Conn
  | .session l, s => if s.allows l then (Sys.step l s.sys).map fun sys => s.follow l sys else none
  | .rx data, s =>
    if s.reader then (Sys.step (.rx data) s.sys).map fun sys => s.hear data sys else none
  | .lost, s =>
    if s.sys.active = none then some (s.withCore fun c => { c with isOpen := false }) else none
  | .loop ch failed, s =>
    match s.loop with
    | some pc => if s.sys.active = none then s.advanceLoop ch failed pc else none
    | none => none

end Conn

/-- A session that was never connected. -/
structure Unconnected (s : Conn) : Prop where
  loop : s.loop = none
  pending : s.sys.core.flow.pending = []
  rxCount : s.sys.core.flow.rxCount = 0

/-! ### The flow state between two connections -/

/-- The next step of the loop gives the connection up. -/
def LoopPc.givesUp (ch : Choice) (failed : Bool) : LoopPc → Bool
  | .asking ok => !ok
  | .handshake => ch.timedOut && failed
  | .polling => true
  | _ => false

/-- **The accounting loses track**: a connection is given up while a line is unacknowledged
or a received line is incomplete, or a line is tracked while the loop has no connection. -/
def losesTrack (s : Conn) : ConnLabel → Bool
  | .loop ch failed =>
    s.loop.any (LoopPc.givesUp ch failed) &&
      !(s.sys.core.flow.pending.isEmpty && s.sys.core.flow.statusBuffer.isEmpty)
  | .session (.task i _) =>
    s.loop.any (fun pc => !pc.reader) &&
      (s.sys.tasks[i]?).any fun b => (b.tracks i s.sys.core).isSome
  | _ => false

/-- Nothing is outstanding. -/
structure FlowInner.Idle (f : FlowInner) : Prop where
  pending : f.pending = []
  statusBuffer : f.statusBuffer = []

namespace FlowInner

variable {f g : FlowInner}

theorem Idle.reset (f : FlowInner) : f.reset.Idle := ⟨rfl, rfl⟩

theorem Idle.congr (h : f.Idle) (hfg : SameBooks f g) : g.Idle :=
  ⟨hfg.pending.trans h.pending, hfg.statusBuffer.trans h.statusBuffer⟩

theorem Balanced.resetFlowControl (f : FlowInner) : f.resetFlowControl.Balanced := rfl

theorem Balanced.congr (h : f.Balanced) (hfg : SameBooks f g) : g.Balanced := by
  unfold Balanced
  rw [hfg.rxCount, hfg.pending]
  exact h

theorem Balanced.trackCommand (h : f.Balanced) (length : ℕ) (op : Option ℤ) (command : Text) :
    (f.trackCommand length op command).Balanced := by
  unfold Balanced FlowInner.trackCommand
  rw [lengths, List.map_append, List.sum_append, ← lengths, ← h]
  simp

theorem Balanced.rxCount (h : f.Balanced) (hpending : f.pending = []) : f.rxCount = 0 := by
  unfold Balanced at h
  rw [h, hpending]
  rfl

end FlowInner

/-- **The invariant**: the accounting is balanced, and nothing is outstanding while the loop
has no connection. -/
structure Renewed (s : Conn) : Prop where
  balanced : s.sys.core.flow.Balanced
  idle : ∀ pc, s.loop = some pc → pc.reader = false → s.sys.core.flow.Idle

section Renewed

variable {s u : Conn} {l : ConnLabel} {ch : Choice} {failed : Bool}

/-- A step of the session keeps the balance, and what is idle stays so unless it tracks. -/
theorem step_balanced {sys sys' : Sys} {l : Label} (hs : Sys.step l sys = some sys')
    (h : sys.core.flow.Balanced) : sys'.core.flow.Balanced := by
  by_cases hl : ∃ i ch, l = .task i ch
  · obtain ⟨i, ch, rfl⟩ := hl
    obtain ⟨b, c', b', spawned, hb, -, -, hadv, rfl⟩ := Sys.step_task hs
    cases advance_ledger hadv with
    | quiet _ _ hsame => exact h.congr hsame.books
    | tracks e op htracks hsame =>
      refine FlowInner.Balanced.congr ?_ hsame.books
      exact h.trackCommand _ _ _
    | resets hresets hsame =>
      have hreset := FlowInner.Balanced.resetFlowControl sys.core.flow
      rcases hsame with hsame | hsame
      · exact hreset.congr hsame.books
      · exact FlowInner.Balanced.congr (f := sys.core.flow.reset) hreset hsame.books
  · rcases step_ledger hs fun i ch hi => hl ⟨i, ch, hi⟩ with hsame | ⟨data, -, hrx⟩
    · exact h.congr hsame.books
    · rw [hrx]
      exact ((parseExtracted_accounted data sys.core.flow).conserved h).2.congr
        (handleRx_flow data sys.core).1

theorem step_idle {sys sys' : Sys} {l : Label} (hs : Sys.step l sys = some sys')
    (hrx : ∀ data, l ≠ .rx data)
    (htracks : ∀ i ch b, l = .task i ch → sys.tasks[i]? = some b → b.tracks i sys.core = none)
    (h : sys.core.flow.Idle) : sys'.core.flow.Idle := by
  by_cases hl : ∃ i ch, l = .task i ch
  · obtain ⟨i, ch, rfl⟩ := hl
    obtain ⟨b, c', b', spawned, hb, -, -, hadv, rfl⟩ := Sys.step_task hs
    cases advance_ledger hadv with
    | quiet _ _ hsame => exact h.congr hsame.books
    | tracks e op htrack hsame => cases (htracks i ch b rfl hb).symm.trans htrack
    | resets hresets hsame =>
      rcases hsame with hsame | hsame
      · have hreset : sys.core.flow.resetFlowControl.Idle := ⟨rfl, h.statusBuffer⟩
        exact hreset.congr hsame.books
      · exact (FlowInner.Idle.reset _).congr hsame.books
  · rcases step_ledger hs fun i ch hi => hl ⟨i, ch, hi⟩ with hsame | ⟨data, hdata, -⟩
    · exact h.congr hsame.books
    · exact absurd hdata (hrx data)

/-- The end of a `connect` resets the flow control. -/
theorem step_connected {sys sys' : Sys} {i : ℕ} {ch : Choice}
    (hs : Sys.step (.task i ch) sys = some sys') (hi : sys.tasks[i]? = some (.link true .closing)) :
    sys'.core.flow.Idle := by
  obtain ⟨b, c', b', spawned, hb, -, -, hadv, rfl⟩ := Sys.step_task hs
  obtain rfl : b = .link true .closing := Option.some.inj (hb.symm.trans hi)
  cases hadv
  exact ⟨rfl, rfl⟩

namespace Renewed

/-- A state of the loop with the same flow control. -/
theorem move (h : Renewed s) (hflow : u.sys.core.flow = s.sys.core.flow)
    (hidle : ∀ pc, u.loop = some pc → pc.reader = false → s.sys.core.flow.Idle) : Renewed u where
  balanced := by rw [hflow]; exact h.balanced
  idle := by rw [hflow]; exact hidle

theorem loopTop (h : Renewed s) (hidle : s.sys.core.flow.Idle) : Renewed s.loopTop := by
  unfold Conn.loopTop
  split_ifs
  · exact h.move rfl fun _ _ _ => hidle
  · exact h.move rfl fun _ _ _ => hidle

theorem loopEnd (h : Renewed s) (hidle : s.sys.core.flow.Idle) : Renewed s.loopEnd := by
  unfold Conn.loopEnd
  split_ifs
  · exact h.move rfl fun _ _ _ => hidle
  · exact h.move rfl fun _ _ _ => hidle

/-- The step lemma of the connection loop. -/
theorem advanceLoop {pc : LoopPc} (h : Renewed s) (hpc : s.loop = some pc)
    (hs : s.advanceLoop ch failed pc = some u) (hok : losesTrack s (.loop ch failed) = false) :
    Renewed u := by
  have hgiven : pc.givesUp ch failed = true → s.sys.core.flow.Idle := by
    intro hgives
    simp only [losesTrack, hpc, Option.any_some, hgives, Bool.true_and, Bool.not_eq_false',
      Bool.and_eq_true, List.isEmpty_iff] at hok
    exact ⟨hok.1, hok.2⟩
  have hask : ∀ v : Conn, v.sys.core.flow = s.sys.core.flow → Renewed (v.ask ch) := fun v hv =>
    h.move (u := v.ask ch) hv fun pc hpc' hreader => by
      cases hpc'
      cases hreader
  cases pc with
  | start =>
    cases hs
    exact h.loopTop (h.idle _ hpc rfl)
  | opening =>
    simp only [Conn.advanceLoop] at hs
    split_ifs at hs <;> cases hs
    · exact h.loopEnd (h.idle _ hpc rfl)
    · exact hask _ rfl
  | asking ok =>
    cases hs
    cases ok with
    | true => exact h.move rfl fun pc hpc' hreader => by cases hpc'; cases hreader
    | false => exact h.move rfl fun _ _ _ => hgiven rfl
  | handshake =>
    simp only [Conn.advanceLoop] at hs
    split_ifs at hs with htimeout hfailed hhand <;> cases hs
    · exact h.move rfl fun _ _ _ => hgiven (by simp [LoopPc.givesUp, htimeout, hfailed])
    · exact hask _ rfl
    · exact h.move rfl fun pc hpc' hreader => by cases hpc'; cases hreader
  | info i =>
    simp only [Conn.advanceLoop] at hs
    split_ifs at hs
    cases hs
    exact h.move rfl fun pc hpc' hreader => by cases hpc'; cases hreader
  | polling =>
    simp only [Conn.advanceLoop] at hs
    split_ifs at hs
    cases hs
    exact h.move rfl fun _ _ _ => hgiven rfl
  | closing =>
    cases hs
    exact h.loopEnd (h.idle _ hpc rfl)
  | sleep =>
    cases hs
    exact h.loopTop (h.idle _ hpc rfl)

/-- The calls and the tasks of the session. -/
theorem session {l : Label} (h : Renewed s) (hs : Conn.step (.session l) s = some u)
    (hok : losesTrack s (.session l) = false) : Renewed u := by
  simp only [Conn.step] at hs
  split_ifs at hs with hallows
  obtain ⟨sys, hsys, rfl⟩ := Option.map_eq_some_iff.mp hs
  have hbalanced : sys.core.flow.Balanced := step_balanced hsys h.balanced
  have hidle : ∀ pc, s.loop = some pc → pc.reader = false → sys.core.flow.Idle := by
    intro pc hpc hreader
    refine step_idle hsys (fun data hl => ?_) (fun i ch b hl hb => ?_) (h.idle pc hpc hreader)
    · rw [hl] at hallows
      cases hallows
    · subst hl
      simpa [losesTrack, hpc, hreader, hb] using hok
  have hsame : Renewed { s with sys := sys } := ⟨hbalanced, hidle⟩
  unfold Conn.follow
  split
  · rename_i i ch
    split
    · unfold Conn.abortLoop
      split
      · exact ⟨hbalanced, fun pc hpc => by cases hpc⟩
      · exact ⟨hbalanced, fun pc hpc => by cases hpc⟩
    · exact ⟨hbalanced, hidle⟩
    · rename_i hi
      exact ⟨hbalanced, fun _ _ _ => step_connected hsys hi⟩
    · exact hsame
  · exact hsame

/-- **One step keeps the invariant**, unless the accounting loses track. -/
theorem step (h : Renewed s) (hs : Conn.step l s = some u) (hok : losesTrack s l = false) :
    Renewed u := by
  cases l with
  | session l => exact h.session hs hok
  | rx data =>
    simp only [Conn.step] at hs
    split_ifs at hs with hreader
    obtain ⟨sys, hsys, rfl⟩ := Option.map_eq_some_iff.mp hs
    refine ⟨step_balanced hsys h.balanced, fun pc hpc hdead => ?_⟩
    have hloop : s.loop = some pc := hpc
    unfold Conn.reader at hreader
    rw [hloop] at hreader
    cases hdead.symm.trans hreader
  | lost =>
    simp only [Conn.step] at hs
    split_ifs at hs
    cases hs
    exact ⟨h.balanced, h.idle⟩
  | loop ch failed =>
    simp only [Conn.step] at hs
    split at hs
    · rename_i pc hpc
      split_ifs at hs
      exact h.advanceLoop hpc hs hok
    · cases hs

end Renewed

theorem Conn.loopTop_reader (s : Conn) : s.loopTop.reader = false := by
  unfold Conn.loopTop
  split_ifs <;> rfl

theorem Conn.loopEnd_reader (s : Conn) : s.loopEnd.reader = false := by
  unfold Conn.loopEnd
  split_ifs <;> rfl

/-- A `connect` or `cleanup` never starts a reader. -/
theorem Conn.follow_reader (l : Label) (sys : Sys) (hdead : s.reader = false) :
    (s.follow l sys).reader = false := by
  have hstays : ({ s with sys := sys } : Conn).reader = false := hdead
  have hstops : ({ s with sys := sys, orphan := false } : Conn).reader = false := by
    unfold Conn.reader at hdead ⊢
    cases hloop : s.loop with
    | none => rfl
    | some pc =>
      rw [hloop] at hdead
      exact hdead
  unfold Conn.follow
  split
  · split
    · unfold Conn.abortLoop
      rw [hdead]
      split <;> rfl
    · exact hstops
    · rfl
    · exact hstays
  · exact hstays

/-- **A reader is started by the opening of a connection**, and by nothing else. -/
theorem Conn.reader_starts (hs : Conn.step l s = some u) (hdead : s.reader = false)
    (hlive : u.reader = true) :
    s.loop = some .opening ∧ u.sys.core.flow = s.sys.core.flow := by
  cases l with
  | session l =>
    simp only [Conn.step] at hs
    split_ifs at hs
    obtain ⟨sys, -, rfl⟩ := Option.map_eq_some_iff.mp hs
    rw [Conn.follow_reader l sys hdead] at hlive
    cases hlive
  | rx data =>
    simp only [Conn.step, hdead] at hs
    cases hs
  | lost =>
    simp only [Conn.step] at hs
    split_ifs at hs
    cases hs
    cases hdead.symm.trans hlive
  | loop ch failed =>
    simp only [Conn.step] at hs
    split at hs
    case h_2 => cases hs
    rename_i pc hpc
    split_ifs at hs
    unfold Conn.reader at hdead
    rw [hpc] at hdead
    cases pc with
    | opening =>
      simp only [Conn.advanceLoop] at hs
      split_ifs at hs <;> cases hs
      · rw [Conn.loopEnd_reader] at hlive
        cases hlive
      · exact ⟨hpc, rfl⟩
    | start =>
      cases hs
      rw [Conn.loopTop_reader] at hlive
      cases hlive
    | sleep =>
      cases hs
      rw [Conn.loopTop_reader] at hlive
      cases hlive
    | closing =>
      cases hs
      rw [Conn.loopEnd_reader] at hlive
      cases hlive
    | _ => cases hdead

end Renewed

/-- **A connection starts with fresh flow state.**  In every run of a `SessionCore`, through
any number of lost links and reconnects, in which no connection is given up with something
outstanding and no line is tracked between two, nothing is pending, `rx_count` is zero and the
parse buffer is empty whenever the reader of a newly opened connection is started. -/
theorem reader_starts_fresh (s₀ s u : Conn) (l : ConnLabel) (h0 : Unconnected s₀)
    (hr : Run Conn.step (fun a l _ => (!losesTrack a l) = true) s₀ s)
    (hs : Conn.step l s = some u) (hdead : s.reader = false) (hlive : u.reader = true) :
    u.sys.core.flow.statusBuffer = [] ∧ u.sys.core.flow.pending = [] ∧
      u.sys.core.flow.rxCount = 0 := by
  have h : Renewed s := by
    refine hr.invariant (fun a l b h hs hok => h.step hs (by simpa using hok)) ⟨?_, ?_⟩
    · unfold FlowInner.Balanced
      rw [h0.pending, h0.rxCount]
      rfl
    · intro pc hpc
      rw [h0.loop] at hpc
      cases hpc
  obtain ⟨hopening, hflow⟩ := Conn.reader_starts hs hdead hlive
  have hidle : s.sys.core.flow.Idle := h.idle _ hopening rfl
  rw [hflow]
  exact ⟨hidle.statusBuffer, hidle.pending, h.balanced.rxCount hidle.pending⟩

/-! ### Runs with a second connection -/

/-- A new session. -/
def newConn : Conn := { sys := { core := { isOpen := false, keepRunning := false }, tasks := [] } }

/-- `n` steps of the connection loop, nothing failing or expiring. -/
def loopTurns (n : ℕ) : List ConnLabel := List.replicate n (.loop {} false)

/-- `connect`, the first opening, and the handshake. -/
def connecting : List ConnLabel :=
  (.call .connect :: turns 0 2).map .session ++ loopTurns 3 ++ [.rx (ascii "Grbl 1.1h\n")]

/-- The `$I` of the connection is written; the next step awaits its answer. -/
def asking : List ConnLabel := loopTurns 1 ++ (turns 2 6).map .session

/-- The poll loop notices that the link is lost, and a second connection is about to be
opened. -/
def reconnecting : List ConnLabel := .lost :: loopTurns 3

/-- The reconnect behind an answered `$I`: the general result. -/
theorem reader_starts_fresh_reconnect :
    let u := reach Conn.step (connecting ++ asking ++ .rx (ascii "ok\n") ::
      (turns 2 2).map .session ++ loopTurns 1 ++ reconnecting ++ loopTurns 1) newConn;
    u.sys.core.flow.statusBuffer = [] ∧ u.sys.core.flow.pending = [] ∧
      u.sys.core.flow.rxCount = 0 := by
  exact reader_starts_fresh newConn (reach Conn.step (connecting ++ asking ++ .rx (ascii "ok\n") ::
      (turns 2 2).map .session ++ loopTurns 1 ++ reconnecting) newConn) _ (.loop {} false)
    ⟨rfl, rfl, rfl⟩ (run_reach_where (by decide)) (by rfl) (by decide) (by decide)

/-- **A connection starts with stale flow state**: the link is lost before the `$I` is
answered, and its entry is pending on the next connection; or it is lost in the middle of a
line, and the fragment is still there. -/
theorem reader_starts_stale :
    (¬ ∀ (s₀ s u : Conn) (l : ConnLabel), Unconnected s₀ → Run Conn.step AnyStep s₀ s →
      Conn.step l s = some u → s.reader = false → u.reader = true →
      u.sys.core.flow.pending = [] ∧ u.sys.core.flow.rxCount = 0) ∧
    ¬ ∀ (s₀ s u : Conn) (l : ConnLabel), Unconnected s₀ → Run Conn.step AnyStep s₀ s →
      Conn.step l s = some u → s.reader = false → u.reader = true →
      u.sys.core.flow.statusBuffer = [] := by
  let unanswered : List ConnLabel := connecting ++ asking ++ .lost ::
    [.session (.task 2 { timedOut := true }), .session (.task 2 {})] ++ loopTurns 4
  let torn : List ConnLabel := connecting ++ asking ++ .rx (ascii "ok\n<Idle") ::
    (turns 2 2).map .session ++ loopTurns 1 ++ reconnecting
  constructor
  · intro h
    exact absurd (h newConn (reach Conn.step unanswered newConn)
      (reach Conn.step (unanswered ++ loopTurns 1) newConn) (.loop {} false) ⟨rfl, rfl, rfl⟩
      (run_reach (by decide)) (by rfl) (by decide) (by decide)) (by decide)
  · intro h
    exact absurd (h newConn (reach Conn.step torn newConn)
      (reach Conn.step (torn ++ loopTurns 1) newConn) (.loop {} false) ⟨rfl, rfl, rfl⟩
      (run_reach (by decide)) (by rfl) (by decide) (by decide)) (by decide)

end Raydriver
