import Raydriver.PingPong.Connection

/-!
# Received bytes, however they are cut

`handle_rx` of a ping-pong session cuts the complete lines off its line buffer and handles them
in order.  What it does to the session is then a matter of the bytes alone: a reader that gets
them in one chunk and one that gets them byte by byte leave the same state behind.

## Main definitions

* `Core.WholeLines` — the line buffer holds no newline.

## Main results

* `handleRx_append` — two chunks are one.
* `wholeLines_of_run` — the line buffer of a session holds no newline.
* `rx_cutting` — **how the received bytes are cut makes no difference.**
-/

namespace Raydriver.PingPong

open Lts

section Core

variable {fw : Firmware} {c : Core}

/-- The line buffer holds no newline. -/
def Core.WholeLines (c : Core) : Prop := LF ∉ c.lineBuffer

/-- Another line buffer. -/
def Core.withBuffer (buffer : Bytes) (c : Core) : Core := { c with lineBuffer := buffer }

@[simp] theorem Core.withBuffer_withBuffer (b b' : Bytes) (c : Core) :
    (c.withBuffer b').withBuffer b = c.withBuffer b := rfl

@[simp] theorem Core.lineBuffer_withBuffer (b : Bytes) (c : Core) :
    (c.withBuffer b).lineBuffer = b := rfl

theorem handleGrblLine_withBuffer (b : Bytes) (c : Core) (line : Text) :
    (c.withBuffer b).handleGrblLine fw line = (c.handleGrblLine fw line).withBuffer b := by
  unfold Core.handleGrblLine
  by_cases hreport : (startsWith "<".toList line && line.getLast? == some '>') = true
  · rw [if_pos hreport, if_pos hreport]
    rfl
  · rw [if_neg hreport, if_neg hreport]
    cases stripPrefix "ALARM:".toList line with
    | some code => rfl
    | none =>
      dsimp only
      split_ifs <;> rfl

theorem handlePositionReport_withBuffer (b : Bytes) (c : Core) (line : Text) :
    (c.withBuffer b).handlePositionReport line = (c.handlePositionReport line).withBuffer b := by
  unfold Core.handlePositionReport
  cases Marlin.parseM114Line line <;> rfl

theorem handleMarlinLine_withBuffer (b : Bytes) (c : Core) (line : Text) :
    (c.withBuffer b).handleMarlinLine line = (c.handleMarlinLine line).withBuffer b := by
  unfold Core.handleMarlinLine
  rw [handlePositionReport_withBuffer]
  split_ifs <;> rfl

/-- Handling a line does not look at the line buffer. -/
theorem handleLine_withBuffer (b : Bytes) (c : Core) (line : Text) :
    (c.withBuffer b).handleLine fw line = (c.handleLine fw line).withBuffer b := by
  unfold Core.handleLine
  split_ifs
  · rfl
  · rfl
  · exact handleMarlinLine_withBuffer b c line
  · exact handleGrblLine_withBuffer b c line

theorem foldl_handleLine_withBuffer (b : Bytes) (lines : List Text) (c : Core) :
    lines.foldl (Core.handleLine fw) (c.withBuffer b) =
      (lines.foldl (Core.handleLine fw) c).withBuffer b := by
  induction lines generalizing c with
  | nil => rfl
  | cons line lines ih => rw [List.foldl_cons, List.foldl_cons, handleLine_withBuffer, ih]

/-- Nor does handling messages. -/
theorem foldl_handleMessage_withBuffer (b : Bytes) (messages : List Bytes) (c : Core) :
    messages.foldl (Core.handleMessage fw) (c.withBuffer b) =
      (messages.foldl (Core.handleMessage fw) c).withBuffer b := by
  induction messages generalizing c with
  | nil => rfl
  | cons message messages ih =>
    have hmessage : (c.withBuffer b).handleMessage fw message =
        (c.handleMessage fw message).withBuffer b := by
      unfold Core.handleMessage
      rw [foldl_handleLine_withBuffer]
      rfl
    rw [List.foldl_cons, List.foldl_cons, hmessage, ih]

/-- **What received bytes do**: the messages they finish are handled, and the line they leave
unfinished is kept. -/
theorem handleRx_eq (h : c.WholeLines) (data : Bytes) :
    c.handleRx fw data = ((messagesOf c.lineBuffer data).foldl (Core.handleMessage fw) c).withBuffer
      (unfinished c.lineBuffer data) := by
  have hcut : cutMessages data c.lineBuffer =
      (unfinished c.lineBuffer data, messagesOf c.lineBuffer data) := by
    apply drainMessages_eq data c.lineBuffer _ h
    rw [List.length_append]
    exact Nat.le_add_left_of_le List.countP_le_length
  unfold Core.handleRx
  rw [hcut]
  exact foldl_handleMessage_withBuffer _ _ c

theorem wholeLines_handleRx (h : c.WholeLines) (data : Bytes) :
    (c.handleRx fw data).WholeLines := by
  rw [handleRx_eq h]
  exact LF_notMem_unfinished data c.lineBuffer h

/-- **Two chunks are one.** -/
theorem handleRx_append (h : c.WholeLines) (data data' : Bytes) :
    (c.handleRx fw data).handleRx fw data' = c.handleRx fw (data ++ data') := by
  have hbuffer : (c.handleRx fw data).lineBuffer = unfinished c.lineBuffer data := by
    rw [handleRx_eq h]
    rfl
  rw [handleRx_eq (wholeLines_handleRx h data), handleRx_eq h (data ++ data'), hbuffer,
    messagesOf_append, unfinished_append, List.foldl_append, handleRx_eq h data,
    foldl_handleMessage_withBuffer]
  rfl

end Core

/-! ### The session -/

section Session

variable {fw : Firmware} {s u : Sys} {l : Label}

theorem WholeLines.of_keepsBuffer {c c' : Core} (h : KeepsBuffer c c') (hc : c.WholeLines) :
    c'.WholeLines := by
  unfold Core.WholeLines
  rcases h with h | h
  · rw [h]
    exact hc
  · rw [h]
    exact List.not_mem_nil

/-- **Every step keeps the newlines out of the line buffer.** -/
theorem wholeLines_step (h : s.core.WholeLines) (hs : Sys.step fw l s = some u) :
    u.core.WholeLines := by
  by_cases hl : ∃ i ch, l = .task i ch
  · obtain ⟨i, ch, rfl⟩ := hl
    obtain ⟨b, c', b', -, -, hadv, rfl⟩ := Sys.step_task hs
    exact WholeLines.of_keepsBuffer (advance_keepsBuffer hadv) h
  · obtain ⟨-, haside⟩ := Sys.step_other hs fun i ch hi => hl ⟨i, ch, hi⟩
    cases haside with
    | rx data hlabel hcore htasks =>
      rw [hcore]
      exact wholeLines_handleRx h data
    | link up hlabel hcore htasks =>
      refine WholeLines.of_keepsBuffer ?_ h
      rw [hcore]
      cases up with
      | true => exact .inl rfl
      | false => exact .inr rfl
    | announce hlabel hcore htasks =>
      rw [hcore]
      exact h
    | cleanup hlabel hcore htasks =>
      rw [hcore]
      exact h
    | call op b hlabel hb hcore htasks =>
      rw [hcore]
      exact h
    | drop i pc hlabel hi hcore htasks =>
      rw [hcore]
      split_ifs <;> exact h

theorem wholeLines_of_run {s₀ : Sys} (h0 : s₀.core.WholeLines)
    (hr : Run (Sys.step fw) AnyStep s₀ s) : s.core.WholeLines :=
  hr.invariant (I := fun s => s.core.WholeLines) (fun _ _ _ h hs _ => wholeLines_step h hs) h0

/-- The reader task handles chunk after chunk. -/
theorem exec_rx (hidle : s.active = none) (chunks : List Bytes) :
    exec (Sys.step fw) (chunks.map .rx) s =
      some { s with core := chunks.foldl (fun c data => c.handleRx fw data) s.core } := by
  induction chunks generalizing s with
  | nil => rfl
  | cons data chunks ih =>
    have hstep : Sys.step fw (.rx data) s = some { s with core := s.core.handleRx fw data } :=
      if_pos hidle
    rw [List.map_cons, exec_cons, hstep, Option.bind_some,
      ih (s := { s with core := s.core.handleRx fw data }) hidle]
    rfl

/-- A chunk of nothing does nothing. -/
theorem handleRx_nil {c : Core} (h : c.WholeLines) : c.handleRx fw [] = c := by
  rw [handleRx_eq h]
  rfl

/-- **How the received bytes are cut makes no difference.**  In every state of a session of
`SimpleCore`, `SmoothieCore` or `MarlinCore`, and for every two ways to cut the same bytes into
chunks, also in the middle of a line or of a character: the reader task leaves the same session
behind, down to the requests that were answered, the errors, the status and the line buffer. -/
theorem rx_cutting {s₀ : Sys} (h0 : s₀.core.WholeLines) (hr : Run (Sys.step fw) AnyStep s₀ s)
    (hidle : s.active = none) (chunks chunks' : List Bytes)
    (hsame : chunks.flatten = chunks'.flatten) :
    exec (Sys.step fw) (chunks.map .rx) s = exec (Sys.step fw) (chunks'.map .rx) s := by
  have hjoin : ∀ (chunks : List Bytes) (c : Core), c.WholeLines →
      chunks.foldl (fun c data => c.handleRx fw data) c = c.handleRx fw chunks.flatten := by
    intro chunks
    induction chunks with
    | nil => exact fun c hc => (handleRx_nil hc).symm
    | cons data chunks ih =>
      intro c hc
      rw [List.foldl_cons, ih _ (wholeLines_handleRx hc data), handleRx_append hc,
        List.flatten_cons]
  have hwhole := wholeLines_of_run h0 hr
  rw [exec_rx hidle, exec_rx hidle, hjoin chunks _ hwhole, hjoin chunks' _ hwhole, hsame]

/-- An acknowledgement cut in two answers the command that waits. -/
theorem rx_cutting_waiting :
    let s := reach (Sys.step .simple) (.call (.execute "M5".toList) :: turns 0 6) ⟨{}, [], none⟩
    exec (Sys.step .simple) [.rx (ascii "o"), .rx (ascii "k\n")] s =
      exec (Sys.step .simple) [.rx (ascii "ok\n")] s :=
  @rx_cutting .simple _ ⟨{}, [], none⟩ List.not_mem_nil (run_reach (by decide))
    (by decide) [ascii "o", ascii "k\n"] [ascii "ok\n"] (by decide)

end Session

end Raydriver.PingPong
