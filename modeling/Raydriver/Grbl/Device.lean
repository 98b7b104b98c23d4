import Raydriver.Grbl.SingleJob
import Raydriver.Lib.Window

/-!
# A session and its device

The device on the other end of the link takes the newline-terminated lines out of its
RX buffer, one by one and in order, and answers each with one `ok` or `error:`.  What it
sends, informational text among the answers, is on its way until the transport delivers
it in chunks of any size.

Seen from outside, host and device are a sliding window over the lines written; the
answers that count are those the session has parsed.

## Main definitions

* `World` — the session, the device, and the bytes between them.
* `World.step` — a step of the session, of the device, or a delivery.
* `Heard w ts us p` — the session has parsed the tokens `ts` and the start `p` of the next.
* `Tracks w win` — the window the world is at.

## Main results

* `Heard.deliver` — a delivery parses whole tokens, and hears their acknowledgements.
* `Tracks.step` — **a step of the world is a move of its window**.
-/

namespace Raydriver

open Lts

/-- The token is an acknowledgement. -/
def Token.isAck (t : Token) : Bool := !(acksOf [t]).isEmpty

/-- The acknowledgements among tokens. -/
def answers (ts : List Token) : ℕ := (acksOf ts).length

theorem answers_append (ts us : List Token) : answers (ts ++ us) = answers ts + answers us := by
  unfold answers
  rw [acksOf_append, List.length_append]

theorem answers_bytes (l : Bytes) : answers (l.map .byte) = 0 := by
  unfold answers
  rw [acksOf_bytes]
  rfl

theorem answers_of_isAck {t : Token} (h : t.isAck = true) : answers [t] = 1 := by
  cases t with
  | byte b => cases h
  | ok nuls crs => rfl
  | err text => rfl

/-- A line of a job. -/
def Sent.isJobLine (e : Sent) : Bool :=
  match e.origin with
  | .job _ => true
  | _ => false

/-- A session with the device behind it. -/
structure World where
  sys : Sys
  /-- The lines the device has taken out of its RX buffer. -/
  removed : ℕ := 0
  /-- All that the device has sent. -/
  emitted : List Token := []
  /-- The bytes that have not been delivered. -/
  pipe : Bytes := []
  /-- Acknowledgements the session has handled. -/
  heard : ℕ := 0
  /-- The device has reported Idle since the last line of a job was written. -/
  idle : Bool := false

/-- A step of the session, of the device, or of the transport. -/
inductive WorldLabel where
  /-- A step of the session other than the receipt of bytes. -/
  | host (l : Label)
  /-- The device takes a line out of its buffer. -/
  | remove
  /-- The device answers a line it has taken. -/
  | answer (t : Token)
  /-- The device sends a byte of informational text. -/
  | say (b : UInt8)
  /-- The transport delivers the next `n` bytes. -/
  | deliver (n : ℕ)

namespace World

/-- The state of the session. -/
def core (w : World) : Core := w.sys.core

/-- The lines written to the device. -/
def lines (w : World) : List Sent := w.core.sent.filter Sent.isLine

/-- The job lines among them. -/
def jobLines (w : World) : List Sent := w.lines.filter Sent.isJobLine

/-- The text of an Idle report. -/
def idleReport (line : Text) : Bool := startsWith "<Idle".toList line

/-- The next `n` bytes of the pipe. -/
def chunk (n : ℕ) (w : World) : Bytes := w.pipe.take n

/-- What the session does with a delivery. -/
def parsed (n : ℕ) (w : World) : List Extracted := (w.core.flow.parseExtracted (w.chunk n)).2

/-- One step of the session and its device. -/
def step : WorldLabel → World → Option World
  | .host (.rx _), _ => none
  | .host l, w => (w.sys.step l).map fun s =>
    { w with
      sys := s
      idle := w.idle && (({ w with sys := s } : World).jobLines.length == w.jobLines.length) }
  | .remove, w => if w.removed < w.lines.length then some { w with removed := w.removed + 1 } else none
  | .answer t, w =>
    if t.isAck && decide (answers w.emitted < w.removed) then
      some { w with emitted := w.emitted ++ [t], pipe := w.pipe ++ t.render }
    else none
  | .say b, w =>
    some { w with
      emitted := w.emitted ++ [.byte b]
      pipe := w.pipe ++ [b]
      idle := w.idle || (lineEvents (carry [] w.emitted) [.byte b]).any idleReport }
  | .deliver n, w => (w.sys.step (.rx (w.chunk n))).map fun s =>
    { w with
      sys := s
      pipe := w.pipe.drop n
      heard := w.heard + ackCount (w.parsed n) }

end World

/-! ### What the session has heard -/

/-- The session has parsed the tokens `ts` of what the device sent, and the start `p` of
the first of the others. -/
structure Heard (w : World) (ts us : List Token) (p : Bytes) : Prop where
  emitted : w.emitted = ts ++ us
  buffer : w.core.flow.statusBuffer = carry [] ts ++ p
  pipe : p ++ w.pipe = render us
  heard : w.heard = answers ts

theorem Heard.le {w : World} {ts us : List Token} {p : Bytes} (h : Heard w ts us p) :
    w.heard ≤ answers w.emitted := by
  rw [h.heard, h.emitted, answers_append]
  exact Nat.le_add_right _ _

/-- A call reports as many acknowledgements as it accounts for. -/
theorem ackCount_acked (as : List (GrblResponseType × Text)) (b : Bytes) (f : FlowInner)
    (ls : List Text) : ackCount ((FlowInner.acked as b f).2 ++ ls.map .line) = as.length := by
  have hlines : ackCount (ls.map Extracted.line) = 0 := by
    induction ls with
    | nil => rfl
    | cons l ls ih => rw [List.map_cons, ackCount_line, ih]
  rw [ackCount_append, hlines, ackCount_eq_length, Nat.add_zero]
  unfold FlowInner.acked
  rw [ackText_acknowledgeAll]

/-- **A delivery parses whole tokens**, hears as many acknowledgements, and leaves the start
of the next token in the buffer. -/
theorem Heard.deliver {w w' : World} {ts us : List Token} {p : Bytes} {n : ℕ}
    (h : Heard w ts us p) (hc : Clean [] w.emitted)
    (hs : World.step (.deliver n) w = some w') :
    ∃ vs vs' q, us = vs ++ vs' ∧ Heard w' (ts ++ vs) vs' q ∧
      ackCount (w.parsed n) = answers vs ∧ w.core.flow.parseExtracted (w.chunk n)
        = ((FlowInner.acked (passOrder vs) (carry [] (ts ++ vs) ++ q) w.core.flow).1,
          (FlowInner.acked (passOrder vs) (carry [] (ts ++ vs) ++ q) w.core.flow).2 ++
            (lineEvents (carry [] ts) vs).map .line) := by
  rw [h.emitted] at hc
  have hbytes : (p ++ w.chunk n) ++ w.pipe.drop n = render us ++ [] := by
    rw [List.append_assoc, World.chunk, List.take_append_drop, h.pipe, List.append_nil]
  obtain ⟨vs, vs', q, rfl, hpc, hq, hqLF, -⟩ :=
    render_split List.not_mem_nil us _ _ (clean_append us hc).tidy hbytes
  have hstep := parseExtracted_step (by rw [← List.append_assoc] at hc; exact hc.left) h.buffer hpc hqLF
  have hcount : ackCount (w.parsed n) = answers vs := by
    unfold World.parsed
    rw [hstep, ackCount_acked, length_filter_passes]
    rfl
  refine ⟨vs, vs', q, rfl, ⟨?_, ?_, ?_, ?_⟩, hcount, hstep⟩
  · obtain ⟨s, -, rfl⟩ := Option.map_eq_some_iff.mp hs
    rw [List.append_assoc]
    exact h.emitted
  · obtain ⟨s, hrx, rfl⟩ := Option.map_eq_some_iff.mp hs
    simp only [Sys.step, Sys.outside] at hrx
    split_ifs at hrx
    cases hrx
    show (w.core.handleRx (w.chunk n)).flow.statusBuffer = _
    rw [(handleRx_flow _ _).1.statusBuffer, hstep]
    rfl
  · obtain ⟨s, -, rfl⟩ := Option.map_eq_some_iff.mp hs
    rw [List.append_nil] at hq
    exact hq
  · obtain ⟨s, -, rfl⟩ := Option.map_eq_some_iff.mp hs
    show w.heard + _ = _
    rw [hcount, h.heard, answers_append]

/-- Nothing has been heard of bytes that hold no acknowledgement. -/
theorem Heard.of_bytes {w : World} {b : Bytes} (hb : w.core.flow.statusBuffer = b) (hLF : LF ∉ b)
    (he : w.emitted = (b ++ w.pipe).map .byte) (hh : w.heard = 0) :
    Heard w (b.map .byte) (w.pipe.map .byte) [] where
  emitted := by rw [he, List.map_append]
  buffer := by rw [hb, carry_bytes [] hLF, List.nil_append, List.append_nil]
  pipe := by rw [render_bytes, List.nil_append]
  heard := by rw [hh, answers_bytes]

/-- The device sends a token. -/
theorem Heard.emit {w w' : World} {ts us : List Token} {p : Bytes} (t : Token)
    (h : Heard w ts us p) (he : w'.emitted = w.emitted ++ [t]) (hp : w'.pipe = w.pipe ++ t.render)
    (hsys : w'.sys = w.sys) (hh : w'.heard = w.heard) : Heard w' ts (us ++ [t]) p where
  emitted := by rw [he, h.emitted, List.append_assoc]
  buffer := by unfold World.core; rw [hsys]; exact h.buffer
  pipe := by rw [hp, ← List.append_assoc, h.pipe, render_append, render_cons, render_nil,
    List.append_nil]
  heard := hh.trans h.heard

/-- A step of the session that keeps the parse buffer. -/
theorem Heard.host {w w' : World} {ts us : List Token} {p : Bytes} (h : Heard w ts us p)
    (he : w'.emitted = w.emitted) (hp : w'.pipe = w.pipe) (hh : w'.heard = w.heard)
    (hb : w'.core.flow.statusBuffer = w.core.flow.statusBuffer) : Heard w' ts us p where
  emitted := he.trans h.emitted
  buffer := hb.trans h.buffer
  pipe := by rw [hp]; exact h.pipe
  heard := hh.trans h.heard

/-! ### The window -/

/-- The window the world is at. -/
structure Tracks (w : World) (win : Window Sent) : Prop where
  written : win.written = w.lines
  removed : win.removed = w.removed
  answered : win.answered = answers w.emitted
  heard : win.heard = w.heard

/-- A step of the session leaves the device and the bytes on their way alone. -/
structure HostStep (l : Label) (w w' : World) : Prop where
  step : Sys.step l w.sys = some w'.sys
  not_rx : ∀ data, l ≠ .rx data
  removed : w'.removed = w.removed
  emitted : w'.emitted = w.emitted
  pipe : w'.pipe = w.pipe
  heard : w'.heard = w.heard
  idle : w'.idle = (w.idle && (w'.jobLines.length == w.jobLines.length))

theorem step_host {w w' : World} {l : Label} (hs : World.step (.host l) w = some w') :
    HostStep l w w' := by
  cases l with
  | rx data => cases hs
  | _ =>
    obtain ⟨s, hstep, rfl⟩ := Option.map_eq_some_iff.mp hs
    exact ⟨hstep, (fun _ h => by cases h), rfl, rfl, rfl, rfl, rfl⟩

/-- A step of the device leaves the session alone. -/
structure DeviceStep (w w' : World) : Prop where
  sys : w'.sys = w.sys
  heard : w'.heard = w.heard
  idle : w.idle = true → w'.idle = true
  hears : ∀ ts us p, Heard w ts us p → ∃ us', Heard w' ts us' p

theorem DeviceStep.core {w w' : World} (h : DeviceStep w w') : w'.core = w.core :=
  congrArg Sys.core h.sys

theorem DeviceStep.lines {w w' : World} (h : DeviceStep w w') : w'.lines = w.lines :=
  congrArg (fun c : Core => c.sent.filter Sent.isLine) h.core

/-- Whose step it is: the session's, the transport's, or the device's. -/
theorem step_cases {w w' : World} {l : WorldLabel} (hs : World.step l w = some w') :
    (∃ l', l = .host l' ∧ HostStep l' w w') ∨ (∃ n, l = .deliver n) ∨ DeviceStep w w' := by
  cases l with
  | host l => exact .inl ⟨l, rfl, step_host hs⟩
  | deliver n => exact .inr (.inl ⟨n, rfl⟩)
  | remove =>
    simp only [World.step] at hs
    split_ifs at hs
    cases hs
    exact .inr (.inr ⟨rfl, rfl, id, fun ts us p h => ⟨us, h.host rfl rfl rfl rfl⟩⟩)
  | answer t =>
    simp only [World.step] at hs
    split_ifs at hs
    cases hs
    exact .inr (.inr ⟨rfl, rfl, id, fun ts us p h => ⟨us ++ [t], h.emit t rfl rfl rfl rfl⟩⟩)
  | say b =>
    have heq := Option.some.inj hs
    refine .inr (.inr ⟨by rw [← heq], by rw [← heq], ?_, fun ts us p h => ⟨us ++ [.byte b], ?_⟩⟩)
    · rw [← heq]
      exact fun h => by rw [h, Bool.true_or]
    · exact h.emit (.byte b) (by rw [← heq]) (by rw [← heq]; rfl) (by rw [← heq]) (by rw [← heq])

/-- What the device sent is only ever extended. -/
theorem step_emitted {w w' : World} {l : WorldLabel} (hs : World.step l w = some w') :
    w.emitted <+: w'.emitted := by
  cases l with
  | host l =>
    rw [(step_host hs).emitted]
  | remove =>
    simp only [World.step] at hs
    split_ifs at hs
    cases hs
    exact List.prefix_refl _
  | answer t =>
    simp only [World.step] at hs
    split_ifs at hs
    cases hs
    exact List.prefix_append _ _
  | say b =>
    cases hs
    exact List.prefix_append _ _
  | deliver n =>
    obtain ⟨s, -, rfl⟩ := Option.map_eq_some_iff.mp hs
    exact List.prefix_refl _

/-- Received bytes write nothing. -/
theorem deliver_lines {w w' : World} {n : ℕ} (hs : World.step (.deliver n) w = some w') :
    w'.core = w.core.handleRx (w.chunk n) ∧ w'.lines = w.lines := by
  obtain ⟨s, hrx, rfl⟩ := Option.map_eq_some_iff.mp hs
  simp only [Sys.step, Sys.outside] at hrx
  split_ifs at hrx
  cases hrx
  refine ⟨rfl, ?_⟩
  show List.filter Sent.isLine (w.core.handleRx (w.chunk n)).sent = _
  rw [(handleRx_frame _ _).sent]
  rfl

/-- **A step of the world is a move of its window**, if the session hears no more than
the device answers: lines are written as `ok` allows, and the rest is for the device and
the transport to decide. -/
theorem Tracks.step (ok : Window Sent → Sent → Prop) {w w' : World} {win : Window Sent}
    {l : WorldLabel} (h : Tracks w win) (hs : World.step l w = some w')
    (hheard : w'.heard ≤ answers w'.emitted)
    (hlines : w'.lines = w.lines ∨ ∃ e, w'.lines = w.lines ++ [e] ∧ ok win e) :
    ∃ win', Tracks w' win' ∧ (win' = win ∨ Window.Step ok win win') := by
  cases l with
  | host l =>
    have hhost := step_host hs
    have hremoved := h.removed.trans hhost.removed.symm
    have hanswered := h.answered.trans (congrArg answers hhost.emitted.symm)
    have hheard := h.heard.trans hhost.heard.symm
    rcases hlines with hsame | ⟨e, hwrite, hok⟩
    · exact ⟨win, ⟨h.written.trans hsame.symm, hremoved, hanswered, hheard⟩, .inl rfl⟩
    · refine ⟨win.write e, ⟨?_, hremoved, hanswered, hheard⟩, .inr (.write e hok)⟩
      rw [hwrite, ← h.written]
      rfl
  | remove =>
    simp only [World.step] at hs
    split_ifs at hs with hlt
    cases hs
    rw [← h.removed, ← h.written] at hlt
    exact ⟨win.remove hlt, ⟨h.written, congrArg (· + 1) h.removed, h.answered, h.heard⟩,
      .inr (.remove hlt)⟩
  | answer t =>
    simp only [World.step] at hs
    split_ifs at hs with hen
    cases hs
    rw [Bool.and_eq_true, decide_eq_true_eq] at hen
    -- the device answers only what it has removed
    have hlt : win.answered < win.removed := by rw [h.answered, h.removed]; exact hen.2
    refine ⟨win.answer hlt, ⟨h.written, h.removed, ?_, h.heard⟩, .inr (.answer hlt)⟩
    show win.answered + 1 = answers (w.emitted ++ [t])
    rw [answers_append, answers_of_isAck hen.1, h.answered]
  | say b =>
    cases hs
    refine ⟨win, ⟨h.written, h.removed, ?_, h.heard⟩, .inl rfl⟩
    show win.answered = answers (w.emitted ++ [.byte b])
    rw [answers_append, h.answered]
    rfl
  | deliver n =>
    have hwritten := (deliver_lines hs).2
    obtain ⟨s, -, rfl⟩ := Option.map_eq_some_iff.mp hs
    clear hs hlines
    generalize ackCount (w.parsed n) = heard at hheard ⊢
    -- the hypothesis bounds what the chunk acknowledges
    have hle : win.heard + heard ≤ win.answered := by
      rw [h.heard, h.answered]
      exact hheard
    refine ⟨win.hear _ hle, ⟨h.written.trans hwritten.symm, h.removed, h.answered, ?_⟩,
      .inr (.hear _ hle)⟩
    exact congrArg (· + heard) h.heard

end Raydriver
