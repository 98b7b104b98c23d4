import Raydriver.PingPong.Chunks
import Raydriver.PingPong.Release

/-!
# A ping-pong session and its device

The device behind `SimpleCore` and `SmoothieCore` takes the lines that were written to it, in
order, and answers each with informational lines and one `ok` or `error:`.  Status reports, and
the banner, come at any time among the lines of an answer.  What the device prints is on its way
until the transport delivers it, in chunks of any size.

## Main definitions

* `Firmware.unsolicited` — the lines that belong to no command.
* `Response` — the answer to a command.
* `World`, `World.step` — the session, the device, and the bytes between them.
* `World.solicited` — the lines of answers that are still on their way.

## Main results

* `solicited_print`, `solicited_deliver` — what the device and the transport do with them.
* `handleLines_unsolicited` — reports answer no command.
-/

namespace Raydriver.PingPong

open Lts

/-! ### The lines of a device -/

namespace Firmware

/-- The banner, which answers the handshake of `SimpleCore`. -/
def isBanner (fw : Firmware) (line : Text) : Bool :=
  fw == .simple && (startsWith "Grbl ".toList line || startsWith "GrblHAL ".toList line)

/-- A status report. -/
def isReport (line : Text) : Bool := startsWith "<".toList line && line.getLast? == some '>'

/-- The line belongs to no command. -/
def unsolicited (fw : Firmware) (line : Text) : Bool :=
  !fw.isOk line && !fw.isError line &&
    (isReport line || ((stripPrefix "ALARM:".toList line).isNone && fw.isBanner line))

/-- The line informs the command that waits. -/
def informs (fw : Firmware) (line : Text) : Bool :=
  !fw.isOk line && !fw.isError line && !isReport line &&
    (stripPrefix "ALARM:".toList line).isNone && !fw.isBanner line

/-- What a command keeps of the line that ends its answer. -/
def kept (fw : Firmware) (ack : Text) : List Text :=
  if fw.isOk ack then (fw.okLine ack).toList else [ack]

end Firmware

/-- The answer to a command: informational lines, and one acknowledgement. -/
structure Response (fw : Firmware) where
  infos : List Text
  ack : Text
  informs : ∀ line ∈ infos, fw.informs line = true
  acks : (fw.isOk ack || fw.isError ack) = true
  deriving DecidableEq

/-- The lines of an answer. -/
def Response.lines {fw : Firmware} (r : Response fw) : List Text := r.infos ++ [r.ack]

/-- What the command returns of them. -/
def Response.result {fw : Firmware} (r : Response fw) : List Text := r.infos ++ fw.kept r.ack

/-! ### The system -/

/-- A newline-terminated line, as opposed to realtime bytes. -/
def Sent.isLine (e : Sent) : Bool := e.payload.getLast? == some '\n'

/-- A session with the device behind it. -/
structure World (fw : Firmware) where
  sys : Sys
  /-- The lines the device has taken, with its answers. -/
  answers : List (Response fw) := []
  /-- The lines of the last answer that are still to print. -/
  todo : List Text := []
  /-- The bytes that have not been delivered. -/
  pipe : Bytes := []

/-- A step of the session, of the device, or of the transport. -/
inductive WorldLabel (fw : Firmware) where
  /-- A step of the session other than the receipt of bytes. -/
  | host (l : Label)
  /-- The device takes the next line, and decides on its answer. -/
  | take (r : Response fw)
  /-- The device prints the next line of its answer. -/
  | print (message : Bytes)
  /-- The device prints a line that belongs to no command. -/
  | report (message : Bytes)
  /-- The transport delivers the next `n` bytes. -/
  | deliver (n : ℕ)

namespace World

variable {fw : Firmware}

/-- The state of the session. -/
def core (w : World fw) : Core := w.sys.core

/-- The lines written to the device. -/
def written (w : World fw) : List Sent := w.core.sent.filter Sent.isLine

/-- One step of the session and its device. -/
def step : WorldLabel fw → World fw → Option (World fw)
  | .host (.rx _), _ => none
  | .host l, w => (Sys.step fw l w.sys).map fun s => { w with sys := s }
  | .take r, w =>
    if w.todo = [] ∧ w.answers.length < w.written.length then
      some { w with answers := w.answers ++ [r], todo := r.lines }
    else none
  | .print message, w =>
    match w.todo with
    | [] => none
    | line :: todo =>
      if lineTexts message = [line] ∧ LF ∉ message then
        some { w with todo := todo, pipe := w.pipe ++ (message ++ [LF]) }
      else none
  | .report message, w =>
    if (lineTexts message).all fw.unsolicited = true ∧ LF ∉ message then
      some { w with pipe := w.pipe ++ (message ++ [LF]) }
    else none
  | .deliver n, w => (Sys.step fw (.rx (w.pipe.take n)) w.sys).map fun s =>
    { w with sys := s, pipe := w.pipe.drop n }

/-! ### The lines on their way -/

/-- The lines that are on their way to the session. -/
def incoming (w : World fw) : List Text :=
  (messagesOf w.core.lineBuffer w.pipe).flatMap lineTexts

/-- Those that belong to an answer. -/
def solicited (w : World fw) : List Text := w.incoming.filter fun line => !fw.unsolicited line

/-- What is still to come of the last answer. -/
def remaining (w : World fw) : List Text := w.solicited ++ w.todo

/-- No part of a line is on its way, and none is split by its newline. -/
structure Aligned (w : World fw) : Prop where
  whole : w.core.WholeLines
  ends : unfinished w.core.lineBuffer w.pipe = []

end World

section Lines

variable {fw : Firmware} {w w' : World fw}

/-- A newline ends a message. -/
theorem split_message {m : Bytes} (h : LF ∉ m) (x : Bytes) :
    messagesOf x (m ++ [LF]) = [x ++ m] ∧ unfinished x (m ++ [LF]) = [] := by
  induction m generalizing x with
  | nil => exact ⟨by simp [messagesOf], by simp [unfinished]⟩
  | cons b m ih =>
    have hb : b ≠ LF := fun he => h (by rw [he]; exact List.mem_cons_self)
    obtain ⟨hmessages, hrest⟩ := ih (fun hm => h (List.mem_cons_of_mem b hm)) (x ++ [b])
    constructor
    · rw [List.cons_append, messagesOf, if_neg hb, hmessages, List.append_assoc,
        List.singleton_append]
    · rw [List.cons_append, unfinished, if_neg hb, hrest]

/-- The device prints a message. -/
theorem incoming_append (h : w.Aligned) {m : Bytes} (hm : LF ∉ m) (hcore : w'.core = w.core)
    (hpipe : w'.pipe = w.pipe ++ (m ++ [LF])) :
    w'.incoming = w.incoming ++ lineTexts m ∧ w'.Aligned := by
  obtain ⟨hmessages, hrest⟩ := split_message hm []
  constructor
  · unfold World.incoming
    rw [hcore, hpipe, messagesOf_append, h.ends, hmessages, List.flatMap_append,
      List.flatMap_singleton, List.nil_append]
  · refine ⟨by rw [hcore]; exact h.whole, ?_⟩
    rw [hcore, hpipe, unfinished_append, h.ends, hrest]

/-- **A line of an answer is printed**: it is on its way instead of still to print. -/
theorem remaining_print (h : w.Aligned) {m : Bytes} {line : Text} {todo : List Text}
    (hm : LF ∉ m) (hline : lineTexts m = [line]) (hsolicited : fw.unsolicited line = false)
    (htodo : w.todo = line :: todo) (hcore : w'.core = w.core)
    (hpipe : w'.pipe = w.pipe ++ (m ++ [LF])) (htodo' : w'.todo = todo) :
    w'.remaining = w.remaining ∧ w'.Aligned := by
  obtain ⟨hincoming, haligned⟩ := incoming_append h hm hcore hpipe
  refine ⟨?_, haligned⟩
  unfold World.remaining World.solicited
  rw [hincoming, htodo, htodo', hline, List.filter_append,
    List.filter_cons_of_pos (by simp [hsolicited]), List.filter_nil, List.append_assoc,
    List.singleton_append]

/-- A report adds nothing to the lines of answers. -/
theorem remaining_report (h : w.Aligned) {m : Bytes} (hm : LF ∉ m)
    (hreport : (lineTexts m).all fw.unsolicited = true) (hcore : w'.core = w.core)
    (hpipe : w'.pipe = w.pipe ++ (m ++ [LF])) (htodo : w'.todo = w.todo) :
    w'.remaining = w.remaining ∧ w'.Aligned := by
  obtain ⟨hincoming, haligned⟩ := incoming_append h hm hcore hpipe
  have hnone : (lineTexts m).filter (fun line => !fw.unsolicited line) = [] := by
    apply List.filter_eq_nil_iff.mpr
    intro line hline
    simp [List.all_eq_true.mp hreport line hline]
  refine ⟨?_, haligned⟩
  unfold World.remaining World.solicited
  rw [hincoming, htodo, List.filter_append, hnone, List.append_nil]

/-- The lines a delivery brings. -/
def World.delivered (n : ℕ) (w : World fw) : List Text :=
  (messagesOf w.core.lineBuffer (w.pipe.take n)).flatMap lineTexts

/-- **The transport delivers bytes**: the lines they finish are no longer on their way. -/
theorem incoming_deliver (h : w.Aligned) {n : ℕ}
    (hcore : w'.core = w.core.handleRx fw (w.pipe.take n)) (hpipe : w'.pipe = w.pipe.drop n) :
    w.incoming = w.delivered n ++ w'.incoming ∧ w'.Aligned := by
  have hbuffer : w'.core.lineBuffer = unfinished w.core.lineBuffer (w.pipe.take n) := by
    rw [hcore, handleRx_eq h.whole]
    rfl
  have hcut : w.pipe = w.pipe.take n ++ w.pipe.drop n := (List.take_append_drop n w.pipe).symm
  constructor
  · unfold World.incoming World.delivered
    rw [hbuffer, hpipe, ← List.flatMap_append, ← messagesOf_append, ← hcut]
  · refine ⟨by rw [hcore]; exact wholeLines_handleRx h.whole _, ?_⟩
    rw [hbuffer, hpipe, ← unfinished_append, ← hcut]
    exact h.ends

end Lines

/-! ### What the session does with a line -/

section Handling

variable {fw : Firmware} {c : Core} {line : Text}

theorem not_marlin (hfw : fw.oneSlot = true) : (fw == .marlin) = false := by
  cases fw with
  | marlin => cases hfw
  | _ => rfl

/-- An informational line is collected. -/
theorem handleLine_informs (h : fw.informs line = true) :
    (c.handleLine fw line).cmds = (c.onFront (PendingCmd.collect line)).cmds := by
  unfold Firmware.informs Firmware.isReport Firmware.isBanner at h
  simp only [Bool.and_eq_true, Bool.not_eq_true'] at h
  obtain ⟨⟨⟨⟨hok, herror⟩, hreport⟩, halarm⟩, hbanner⟩ := h
  unfold Core.handleLine
  rw [hok, herror]
  simp only [Bool.false_eq_true, if_false]
  by_cases hmarlin : (fw == .marlin) = true
  · rw [if_pos hmarlin]
    unfold Core.handleMarlinLine
    by_cases hposition : Marlin.isM114Position line = true
    · rw [if_pos hposition]
      unfold Core.handlePositionReport
      split <;> rfl
    · rw [if_neg hposition]
      rfl
  · rw [if_neg hmarlin]
    unfold Core.handleGrblLine
    rw [hreport]
    simp only [Bool.false_eq_true, if_false, Option.isNone_iff_eq_none.mp halarm, hbanner]
    rfl

/-- A line that belongs to no command answers none. -/
theorem handleLine_unsolicited (hfw : fw.oneSlot = true) (h : fw.unsolicited line = true) :
    (c.handleLine fw line).cmds = c.cmds := by
  unfold Firmware.unsolicited Firmware.isReport Firmware.isBanner at h
  simp only [Bool.and_eq_true, Bool.not_eq_true', Bool.or_eq_true] at h
  obtain ⟨⟨hok, herror⟩, hcase⟩ := h
  unfold Core.handleLine Core.handleGrblLine
  rw [not_marlin hfw, hok, herror]
  simp only [Bool.false_eq_true, if_false]
  by_cases hreport : (startsWith "<".toList line && line.getLast? == some '>') = true
  · rw [if_pos hreport]
    rfl
  · rw [if_neg hreport]
    rcases hcase with hcase | ⟨halarm, hbanner⟩
    · exact absurd (by simpa using hcase) hreport
    · rw [Option.isNone_iff_eq_none.mp halarm]
      dsimp only
      rw [if_pos (by simpa using hbanner)]

/-- An acknowledgement answers the oldest command. -/
theorem handleLine_acks (h : (fw.isOk line || fw.isError line) = true) :
    (c.handleLine fw line).cmds =
      (c.onFront (PendingCmd.answer c.received (fw.kept line).head?)).cmds := by
  unfold Core.handleLine Firmware.kept
  by_cases hok : fw.isOk line = true
  · rw [if_pos hok, if_pos hok]
    unfold Core.finishPending
    cases fw.okLine line <;> rfl
  · rw [if_neg hok, if_neg hok]
    have herror : fw.isError line = true := by simpa [hok] using h
    rw [if_pos herror]
    rfl

end Handling

end Raydriver.PingPong
